import Zatca.Core.Tlv
import Zatca.Library.Base64
import Zatca.Library.JsMap
set_option autoImplicit false

/-! The cipher of the vault with its ring of master keys. -/

namespace Zatca

def ALG : String := "aes-256-gcm"
def IV_BYTES : Nat := 12
def KEY_BYTES : Nat := 32
def TAG_BYTES : Nat := 16

/-- A buffer of `n` bytes. -/
abbrev Bytes (n : Nat) := { bs : List UInt8 // bs.length = n }

/-- AES-256-GCM as the runtime has it, and how it prints bytes that are not UTF-8. -/
structure AesGcm where
  /-- The ciphertext and the tag. -/
  encipher : Bytes KEY_BYTES → Bytes IV_BYTES → List UInt8 → List UInt8 × Bytes TAG_BYTES
  /-- `none` where `final` throws. -/
  decipher : Bytes KEY_BYTES → Bytes IV_BYTES → Bytes TAG_BYTES → List UInt8 → Option (List UInt8)
  decipher_encipher : ∀ key iv pt,
    decipher key iv (encipher key iv pt).2 (encipher key iv pt).1 = some pt
  lossyText : List UInt8 → String

structure CipherEnvelope where
  kid : String
  alg : String
  iv : String
  ct : String
  tag : String
  deriving DecidableEq, Repr

structure MasterKey where
  kid : String
  key : List UInt8
  deriving DecidableEq

structure AesGcmCipherOptions where
  keyring : List MasterKey
  activeKid : String
  deriving DecidableEq

/-- What the cipher closes over. -/
structure AesGcmCipher where
  byKid : JsMap String (Bytes KEY_BYTES)
  activeKid : String
  activeKey : Bytes KEY_BYTES
  active : byKid.get activeKid = some activeKey

def duplicateKid (kid : String) : Thrown :=
  .zatcaCipherError ("Duplicate kid '" ++ kid ++ "' in master key-ring.")

def wrongKeyLength (kid : String) (length : Nat) : Thrown :=
  .zatcaCipherError ("Master key '" ++ kid ++ "' must be " ++ toString KEY_BYTES ++ " bytes; got " ++
    toString length ++ ".")

/-- The loop over the ring. -/
def fillRing : List MasterKey → JsMap String (Bytes KEY_BYTES) →
    Except Thrown (JsMap String (Bytes KEY_BYTES))
  | [], byKid => .ok byKid
  | entry :: keyring, byKid =>
      if (byKid.get entry.kid).isSome then .error (duplicateKid entry.kid)
      else if h : entry.key.length = KEY_BYTES then
        fillRing keyring (byKid.set entry.kid ⟨entry.key,h⟩)
      else .error (wrongKeyLength entry.kid entry.key.length)

def createAesGcmCipher (options : AesGcmCipherOptions) : Except Thrown AesGcmCipher :=
  if options.keyring.length = 0 then
    .error (.zatcaCipherError "AES-GCM cipher requires at least one master key in the ring.")
  else
    match fillRing options.keyring .empty with
    | .error e => .error e
    | .ok byKid =>
        match h : byKid.get options.activeKid with
        | none => .error (.zatcaCipherError
            ("activeKid '" ++ options.activeKid ++ "' is not present in the master key-ring."))
        | some activeKey => .ok ⟨byKid,options.activeKid,activeKey,h⟩

/-- `buffer.toString("base64")` -/
def toBase64 (bs : List UInt8) : String := String.ofList (Base64.encode bs)

/-- `Buffer.from(text, "base64")` -/
def fromBase64 (text : String) : List UInt8 := Base64.decode text.toList

namespace AesGcmCipher

variable (A : AesGcm) (c : AesGcmCipher)

/-- `iv` is what `randomBytes` draws. -/
def encrypt (iv : Bytes IV_BYTES) (plaintext : String) : CipherEnvelope :=
  let (ct,tag) := A.encipher c.activeKey iv (utf8 plaintext)
  { kid := c.activeKid, alg := ALG, iv := toBase64 iv.1, ct := toBase64 ct, tag := toBase64 tag.1 }

/-- `buffer.toString("utf8")` -/
def utf8Text (bs : List UInt8) : String :=
  (String.fromUTF8? ⟨bs.toArray⟩).getD (A.lossyText bs)

def wrongAlg (alg : String) : Thrown :=
  .zatcaCipherError ("Envelope alg '" ++ alg ++ "' is not handled by aes-256-gcm cipher.")

def unknownKid (kid : String) : Thrown :=
  .zatcaCipherError ("Envelope references unknown kid '" ++ kid ++
    "'. Has the key been rotated out of the ring?")

def wrongIvLength (length : Nat) : Thrown :=
  .zatcaCipherError ("Envelope iv must be " ++ toString IV_BYTES ++ " bytes; got " ++
    toString length ++ ".")

def wrongTagLength (length : Nat) : Thrown :=
  .zatcaCipherError ("Envelope tag must be " ++ toString TAG_BYTES ++ " bytes; got " ++
    toString length ++ ".")

def decryptFailed (kid : String) : Thrown :=
  .zatcaCipherError ("AES-GCM decrypt failed for kid '" ++ kid ++
    "' — auth tag mismatch or corrupt ciphertext.")

def decrypt (envelope : CipherEnvelope) : Except Thrown String :=
  if envelope.alg ≠ ALG then .error (wrongAlg envelope.alg)
  else
    match c.byKid.get envelope.kid with
    | none => .error (unknownKid envelope.kid)
    | some key =>
        let iv := fromBase64 envelope.iv
        if hiv : iv.length = IV_BYTES then
          let tag := fromBase64 envelope.tag
          if htag : tag.length = TAG_BYTES then
            match A.decipher key ⟨iv,hiv⟩ ⟨tag,htag⟩ (fromBase64 envelope.ct) with
            | none => .error (decryptFailed envelope.kid)
            | some pt => .ok (utf8Text A pt)
          else .error (wrongTagLength tag.length)
        else .error (wrongIvLength iv.length)

end AesGcmCipher

/-! ### The ring -/

/-- The map has what it had before the loop and the entries of the ring. -/
theorem fillRing_spec {keyring : List MasterKey} {byKid filled : JsMap String (Bytes KEY_BYTES)}
    (h : fillRing keyring byKid = .ok filled) (kid : String) (key : Bytes KEY_BYTES) :
    filled.get kid = some key ↔ byKid.get kid = some key ∨ ⟨kid,key.1⟩ ∈ keyring := by
  induction keyring generalizing byKid with
  | nil =>
    cases h
    simp
  | cons entry keyring ih =>
    rw [fillRing] at h
    split at h
    · cases h
    · rename_i hfresh
      split at h
      · rename_i hlength
        rw [ih h,JsMap.get_set,List.mem_cons]
        by_cases hkid : kid = entry.kid
        · subst hkid
          have hnone : byKid.get entry.kid = none := by simpa using hfresh
          have hentry : (⟨entry.kid,key.1⟩ : MasterKey) = entry ↔ ⟨entry.key,hlength⟩ = key := by
            obtain ⟨kid,bs⟩ := entry
            obtain ⟨bs',hbs⟩ := key
            simp [eq_comm]
          simp [hnone,hentry]
        · have hne : (⟨kid,key.1⟩ : MasterKey) ≠ entry := fun he => hkid (by rw [← he])
          simp [hkid,hne]
      · cases h

theorem get_createAesGcmCipher {options : AesGcmCipherOptions} {c : AesGcmCipher}
    (h : createAesGcmCipher options = .ok c) (kid : String) (key : Bytes KEY_BYTES) :
    c.byKid.get kid = some key ↔ ⟨kid,key.1⟩ ∈ options.keyring := by
  rw [createAesGcmCipher] at h
  split at h
  · cases h
  · split at h
    · cases h
    · rename_i byKid hfill
      split at h
      · cases h
      · cases h
        simpa using fillRing_spec hfill kid key

/-! ### The envelope -/

@[simp] theorem fromBase64_toBase64 (bs : List UInt8) : fromBase64 (toBase64 bs) = bs := by
  simp [fromBase64,toBase64,Base64.decode_encode]

namespace AesGcmCipher

variable {A : AesGcm} {c c' : AesGcmCipher}

@[simp] theorem utf8Text_utf8 (s : String) : utf8Text A (utf8 s) = s := by
  have hbytes : (⟨(utf8 s).toArray⟩ : ByteArray) = s.toUTF8 := by simp [utf8]
  have hvalid : s.toUTF8.IsValidUTF8 := s.isValidUTF8
  rw [utf8Text,hbytes,String.fromUTF8?,dif_pos hvalid]
  rfl

/-- A cipher that has the key of the writer reads what was written. -/
theorem decrypt_encrypt (h : c'.byKid.get c.activeKid = some c.activeKey) (iv : Bytes IV_BYTES)
    (s : String) : c'.decrypt A (c.encrypt A iv s) = .ok s := by
  have hiv : (fromBase64 (toBase64 iv.1)).length = IV_BYTES := by
    rw [fromBase64_toBase64]
    exact iv.2
  simp only [decrypt,encrypt,h,ne_eq,not_true_eq_false,if_false]
  simp [iv.2,(A.encipher c.activeKey iv (utf8 s)).2.2,A.decipher_encipher]

/-- Whatever the envelope, only an error of the cipher is thrown. -/
theorem error_of_decrypt {envelope : CipherEnvelope} {e : Thrown}
    (h : c.decrypt A envelope = .error e) : ∃ message, e = .zatcaCipherError message := by
  rw [decrypt] at h
  split at h
  · cases h
    exact ⟨_,rfl⟩
  · split at h
    · cases h
      exact ⟨_,rfl⟩
    · dsimp only at h
      split at h
      · split at h
        · split at h
          · cases h
            exact ⟨_,rfl⟩
          · cases h
        · cases h
          exact ⟨_,rfl⟩
      · cases h
        exact ⟨_,rfl⟩

/-- What is read has the algorithm, a known key, and an iv and a tag of their lengths. -/
theorem fits_of_decrypt {envelope : CipherEnvelope} {s : String}
    (h : c.decrypt A envelope = .ok s) : envelope.alg = ALG ∧
      (∃ key, c.byKid.get envelope.kid = some key) ∧
      (fromBase64 envelope.iv).length = IV_BYTES ∧ (fromBase64 envelope.tag).length = TAG_BYTES := by
  rw [decrypt] at h
  split at h
  · cases h
  · rename_i halg
    split at h
    · cases h
    · rename_i key hkey
      dsimp only at h
      split at h
      · rename_i hiv
        split at h
        · rename_i htag
          exact ⟨not_not.1 halg,⟨key,hkey⟩,hiv,htag⟩
        · cases h
      · cases h

end AesGcmCipher

/-! ### Rotation -/

/-- The later ring binds every kid of the earlier one to the same key. -/
def KeepsKeys (earlier later : AesGcmCipherOptions) : Prop :=
  ∀ entry ∈ earlier.keyring, entry ∈ later.keyring

instance : DecidableRel KeepsKeys := fun _ _ => inferInstanceAs (Decidable (∀ _ ∈ _, _))

/-- The envelope is not one that a cipher of this ring could have written. -/
def Misfit (options : AesGcmCipherOptions) (envelope : CipherEnvelope) : Prop :=
  envelope.alg ≠ ALG ∨ envelope.kid ∉ options.keyring.map MasterKey.kid ∨
    (fromBase64 envelope.iv).length ≠ IV_BYTES ∨ (fromBase64 envelope.tag).length ≠ TAG_BYTES

theorem decrypt_misfit (A : AesGcm) {options : AesGcmCipherOptions} {c : AesGcmCipher}
    (hc : createAesGcmCipher options = .ok c) {envelope : CipherEnvelope}
    (h : Misfit options envelope) :
    ∃ message, c.decrypt A envelope = .error (.zatcaCipherError message) := by
  cases hd : c.decrypt A envelope with
  | error e =>
    obtain ⟨message,rfl⟩ := AesGcmCipher.error_of_decrypt hd
    exact ⟨message,rfl⟩
  | ok s =>
    obtain ⟨halg,⟨key,hkey⟩,hiv,htag⟩ := AesGcmCipher.fits_of_decrypt hd
    have hkid : envelope.kid ∈ options.keyring.map MasterKey.kid :=
      List.mem_map.2 ⟨_,(get_createAesGcmCipher hc _ _).1 hkey,rfl⟩
    rcases h with h | h | h | h
    · exact absurd halg h
    · exact absurd hkid h
    · exact absurd hiv h
    · exact absurd htag h

/-- Under rings that keep their keys, what any cipher wrote is read by every later one; and no cipher
reads a misfit. -/
theorem rotation_keeps_readable (A : AesGcm) (rings : List AesGcmCipherOptions)
    (hkeep : rings.Pairwise KeepsKeys) :
    (∀ (i j : Nat) (earlier later : AesGcmCipherOptions) (c c' : AesGcmCipher), i ≤ j →
      rings[i]? = some earlier → rings[j]? = some later → createAesGcmCipher earlier = .ok c →
      createAesGcmCipher later = .ok c' → ∀ (iv : Bytes IV_BYTES) (plaintext : String),
        c'.decrypt A (c.encrypt A iv plaintext) = .ok plaintext) ∧
    ∀ (options : AesGcmCipherOptions) (c : AesGcmCipher), createAesGcmCipher options = .ok c →
      ∀ envelope, Misfit options envelope →
        ∃ message, c.decrypt A envelope = .error (.zatcaCipherError message) := by
  refine ⟨?_,fun options c hc envelope h => decrypt_misfit A hc h⟩
  intro i j earlier later c c' hij hi hj hc hc' iv plaintext
  refine AesGcmCipher.decrypt_encrypt ?_ iv plaintext
  have hkeeps : KeepsKeys earlier later := by
    obtain ⟨hilt,hi⟩ := List.getElem?_eq_some_iff.1 hi
    obtain ⟨hjlt,hj⟩ := List.getElem?_eq_some_iff.1 hj
    rcases Nat.lt_or_eq_of_le hij with hlt | rfl
    · exact hi ▸ hj ▸ List.pairwise_iff_getElem.1 hkeep i j hilt hjlt hlt
    · rw [← hi,← hj]
      exact fun entry hentry => hentry
  exact (get_createAesGcmCipher hc' _ _).2
    (hkeeps _ ((get_createAesGcmCipher hc _ _).1 c.active))

/-! The vector of the standard with a key, an iv and a block of zeros. -/
namespace Sample

def zeros (n : Nat) : Bytes n := ⟨List.replicate n 0,List.length_replicate⟩

def blockCiphertext : List UInt8 :=
  [0xce,0xa7,0x40,0x3d,0x4d,0x60,0x6b,0x6e,0x07,0x4e,0xc5,0xd3,0xba,0xf3,0x9d,0x18]

def blockTag : Bytes TAG_BYTES :=
  ⟨[0xd0,0xd1,0xc8,0xa7,0x99,0x99,0x6b,0xf0,0x26,0x5b,0x98,0xb5,0xd4,0x8a,0xb9,0x19],rfl⟩

/-- Another input is only tagged. -/
def aesGcm : AesGcm where
  encipher key iv pt :=
    if key = zeros _ ∧ iv = zeros _ ∧ pt = (zeros 16).1 then (blockCiphertext,blockTag)
    else (pt,zeros _)
  decipher key iv tag ct :=
    if tag = blockTag then
      if key = zeros _ ∧ iv = zeros _ ∧ ct = blockCiphertext then some (zeros 16).1 else none
    else if tag = zeros _ then some ct else none
  decipher_encipher key iv pt := by
    have hne : zeros TAG_BYTES ≠ blockTag := by decide
    by_cases h : key = zeros _ ∧ iv = zeros _ ∧ pt = (zeros 16).1
    · simp [h]
    · simp [h,hne]
  lossyText _ := "\uFFFD"

def ring1 : AesGcmCipherOptions := ⟨[⟨"v1",List.replicate 32 0⟩],"v1"⟩

def ring2 : AesGcmCipherOptions :=
  ⟨[⟨"v1",List.replicate 32 0⟩,⟨"v2",List.replicate 32 7⟩],"v2"⟩

end Sample

theorem rotation_keeps_readable_two_rings :
    (createAesGcmCipher Sample.ring1).isOk ∧ (createAesGcmCipher Sample.ring2).isOk ∧
    ∀ c c', createAesGcmCipher Sample.ring1 = .ok c → createAesGcmCipher Sample.ring2 = .ok c' →
      ∀ iv plaintext, c'.decrypt Sample.aesGcm (c.encrypt Sample.aesGcm iv plaintext) =
        .ok plaintext :=
  ⟨by decide,by decide,fun c c' hc hc' =>
    (rotation_keeps_readable Sample.aesGcm [Sample.ring1,Sample.ring2] (by decide)).1 0 1 _ _ c c'
      (by decide) rfl rfl hc hc'⟩

end Zatca
