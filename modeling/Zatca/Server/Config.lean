import Zatca.Core.Certificates
import Zatca.Library.KeyValue
import Zatca.Server.AdminKeys
import Zatca.Server.AesGcm
set_option autoImplicit false

/-! The ring of master keys as it stands in the environment of the process, and the cipher that the
server is booted with. -/

namespace Zatca
namespace Boot

def masterKeysRequired : Thrown := .zatcaServerError
  "ZATCA_SERVER_MASTER_KEYS is required. Format: kid:<base64-32-bytes>[,kid:<base64-32-bytes>...]" none

def malformedKey (entry : String) : Thrown := .zatcaServerError
  ("Master key entry '" ++ entry ++ "' must be of the form 'kid:<base64-32-bytes>'.") none

def duplicateKid (kid : String) : Thrown :=
  .zatcaServerError ("Duplicate kid '" ++ kid ++ "' in master key ring.") none

def notBase64 (kid : String) : Thrown := .zatcaServerError
  ("Master key for kid '" ++ kid ++ "' is not valid base64. Expected " ++
    "44 chars of [A-Za-z0-9+/] with optional '=' padding (32 raw bytes).") none

def wrongLength (kid : String) (length : Nat) : Thrown := .zatcaServerError
  ("Master key for kid '" ++ kid ++ "' must be 32 bytes after base64 decode; got " ++
    toString length ++ ".") none

/-- `/^[A-Za-z0-9+/]+={0,2}$/` -/
def isBase64Text (b64 : String) : Bool :=
  let digits := b64.toList.takeWhile Base64.isDigit
  let padding := b64.toList.dropWhile Base64.isDigit
  !digits.isEmpty && padding.length ≤ 2 && padding.all (· == '=')

/-- One pass of the loop, after the kids that were seen. An entry is cut as one of the list of the
administrators is. -/
def readKey (seenKids : List String) (entry : String) : Except Thrown MasterKey :=
  let idx := indexOf entry ':'
  if idx ≤ 0 ∨ idx = entry.length - 1 then .error (malformedKey entry)
  else
    let kid := labelText entry
    let b64 := keyText entry
    if kid ∈ seenKids then .error (duplicateKid kid)
    else if ¬ isBase64Text b64 then .error (notBase64 kid)
    else
      let key := fromBase64 b64
      if key.length ≠ 32 then .error (wrongLength kid key.length) else .ok { kid, key }

def readKeys : (seenKids : List String) → List String → Except Thrown (List MasterKey)
  | _, [] => .ok []
  | seenKids, entry :: entries => do
      let k ← readKey seenKids entry
      let out ← readKeys (k.kid :: seenKids) entries
      return k :: out

def readKeyring (raw : String) : Except Thrown (List MasterKey) :=
  if rawEntries raw = [] then .error masterKeysRequired else readKeys [] (rawEntries raw)

/-- The variables of the environment that give the keys, and what comes of the others. -/
structure ServerEnv where
  adminKeys : Option String
  masterKeys : Option String
  activeKid : Option String
  /-- The settings that are read through `withDefault`; one of them may be invalid. -/
  settings : Except Thrown Unit

structure ServerConfig where
  adminKeysRaw : String
  masterKeys : List MasterKey
  activeKid : String
  deriving DecidableEq

def adminKeysMissing : Thrown := .zatcaServerError
  "ZATCA_SERVER_ADMIN_KEYS is required. Format: label:<key>[,label:<key>...]" none

def activeKidMissing (activeKid : String) : Thrown := .zatcaServerError
  ("ZATCA_SERVER_ACTIVE_KID '" ++ activeKid ++ "' is not present in the master key ring.") none

/-- The last key is the active one, unless another is named. -/
def loadConfig (env : ServerEnv) : Except Thrown ServerConfig :=
  let adminKeysRaw := env.adminKeys.getD ""
  if adminKeysRaw = "" then .error adminKeysMissing
  else do
    let masterKeys ← readKeyring (env.masterKeys.getD "")
    let activeKid := (env.activeKid.map trim).getD ((masterKeys.getLast?.map MasterKey.kid).getD "")
    if activeKid ∉ masterKeys.map MasterKey.kid then .error (activeKidMissing activeKid)
    else do
      env.settings
      return { adminKeysRaw, masterKeys, activeKid }

/-- The cipher that each driver boots with. -/
def bootCipher (config : ServerConfig) : Except Thrown AesGcmCipher :=
  createAesGcmCipher { keyring := config.masterKeys, activeKid := config.activeKid }

/-! ### Rings that have a text -/

/-- The kid can stand before the first colon of an entry. -/
structure FitsEntry (k : MasterKey) : Prop where
  kid_ne : k.kid.toList ≠ []
  trimmed : Trim.Trimmed isJsSpace k.kid.toList
  comma : ',' ∉ k.kid.toList
  colon : ':' ∉ k.kid.toList
  length : k.key.length = 32

structure Presentable (ring : List MasterKey) : Prop where
  ne_nil : ring ≠ []
  nodup : (ring.map MasterKey.kid).Nodup
  fits : ∀ k ∈ ring, FitsEntry k

def showKey (k : MasterKey) : String := k.kid ++ ":" ++ toBase64 k.key

def showKeyring (ring : List MasterKey) : String :=
  String.ofList ([','].intercalate (ring.map fun k => (showKey k).toList))

/-! ### What is read is presentable -/

theorem mem_rawEntries {raw entry : String} (h : entry ∈ rawEntries raw) :
    Trim.Trimmed isJsSpace entry.toList ∧ ',' ∉ entry.toList := by
  obtain ⟨hmem,-⟩ := List.mem_filter.1 h
  obtain ⟨part,hpart,rfl⟩ := List.mem_map.1 hmem
  refine ⟨?_,fun hc => ?_⟩
  · rw [trim,String.toList_ofList]
    exact trimmed_trimChars _
  · rw [trim,String.toList_ofList,String.toList_ofList] at hc
    exact KeyValue.notMem_of_mem_splitOn hpart (Trim.mem_of_mem_trim hc)

/-- An entry is cut at its first colon. -/
theorem cut_entry {entry : String} {pre post : List Char} (h : entry.toList = pre ++ ':' :: post)
    (hpre : ':' ∉ pre) : indexOf entry ':' = pre.length ∧
      (labelText entry).toList = trimChars pre ∧ (keyText entry).toList = trimChars post := by
  have hidx : entry.toList.idxOf ':' = pre.length := by
    rw [h,List.idxOf_append,if_neg hpre]
    simp
  refine ⟨?_,?_,?_⟩
  · rw [indexOf,hidx,if_pos (by simp [h])]
  · rw [labelText,trim,String.toList_ofList,String.toList_ofList,hidx,h,List.take_left]
  · rw [keyText,trim,String.toList_ofList,String.toList_ofList,hidx,h,← List.drop_drop,List.drop_left]
    rfl

/-- What stands before the colon is not blank, for the entry begins with it. -/
theorem readKey_eq_ok {seenKids : List String} {entry : String} {k : MasterKey}
    (htrim : Trim.Trimmed isJsSpace entry.toList)
    (hcomma : ',' ∉ entry.toList) (h : readKey seenKids entry = .ok k) :
    FitsEntry k ∧ k.kid ∉ seenKids := by
  unfold readKey at h
  simp only at h
  split at h
  · cases h
  · rename_i hidx
    rw [not_or,not_le] at hidx
    have hmem : ':' ∈ entry.toList := by
      by_contra hmem
      rw [indexOf,if_neg hmem] at hidx
      exact absurd hidx.1 (by decide)
    obtain ⟨pre,post,hentry,hpre⟩ := List.eq_append_cons_of_mem hmem
    obtain ⟨hindex,hlabel,-⟩ := cut_entry hentry hpre
    split at h
    · cases h
    · rename_i hnew
      split at h
      · cases h
      · split at h
        · cases h
        · rename_i hlength
          rw [ne_eq,not_not] at hlength
          generalize fromBase64 (keyText entry) = key at h hlength
          obtain rfl := Except.ok.inj h
          refine ⟨⟨?_,?_,?_,?_,hlength⟩,hnew⟩
          · rw [hlabel]
            cases pre with
            | nil =>
              rw [hindex] at hidx
              exact absurd hidx.1 (by decide)
            | cons c pre =>
              refine Trim.trim_ne_nil (htrim.1 c ?_)
              rw [hentry]
              rfl
          · rw [hlabel]
            exact trimmed_trimChars pre
          · rw [hlabel]
            intro hc
            refine hcomma ?_
            rw [hentry]
            exact List.mem_append_left _ (Trim.mem_of_mem_trim hc)
          · rw [hlabel]
            exact fun hc => hpre (Trim.mem_of_mem_trim hc)

theorem readKeys_eq_ok {seenKids entries : List String} {ring : List MasterKey}
    (hentries : ∀ entry ∈ entries, Trim.Trimmed isJsSpace entry.toList ∧ ',' ∉ entry.toList)
    (h : readKeys seenKids entries = .ok ring) :
    ring.length = entries.length ∧ (ring.map MasterKey.kid).Nodup ∧
      ∀ k ∈ ring, FitsEntry k ∧ k.kid ∉ seenKids := by
  induction entries generalizing seenKids ring with
  | nil =>
    cases h
    simp
  | cons entry entries ih =>
    obtain ⟨hentry,hentries⟩ := List.forall_mem_cons.1 hentries
    obtain ⟨k,hk,hloop⟩ := ok_of_bind h
    obtain ⟨rest,hrest,hring⟩ := ok_of_bind hloop
    obtain rfl := Except.ok.inj hring
    obtain ⟨hfits,hnew⟩ := readKey_eq_ok hentry.1 hentry.2 hk
    obtain ⟨hlength,hnodup,hall⟩ := ih hentries hrest
    refine ⟨by simp [hlength],List.nodup_cons.2 ⟨fun hmem => ?_,hnodup⟩,?_⟩
    · obtain ⟨k',hk',hsame⟩ := List.mem_map.1 hmem
      exact (hall k' hk').2 (by simp [hsame])
    · refine List.forall_mem_cons.2 ⟨⟨hfits,hnew⟩,fun k' hk' => ?_⟩
      exact ⟨(hall k' hk').1,fun hs => (hall k' hk').2 (List.mem_cons_of_mem _ hs)⟩

theorem presentable_of_read {raw : String} {ring : List MasterKey} (h : readKeyring raw = .ok ring) :
    Presentable ring := by
  unfold readKeyring at h
  split at h
  · cases h
  · rename_i hne
    obtain ⟨hlength,hnodup,hall⟩ := readKeys_eq_ok (fun entry hentry => mem_rawEntries hentry) h
    refine ⟨fun hnil => hne ?_,hnodup,fun k hk => (hall k hk).1⟩
    rw [hnil,List.length_nil] at hlength
    exact List.eq_nil_of_length_eq_zero hlength.symm

/-! ### What is presentable is read -/

theorem isDigit_takeWhile (bs : List UInt8) :
    (Base64.encode bs).takeWhile Base64.isDigit = (Base64.sextets bs).map Base64.digit ∧
      (Base64.encode bs).dropWhile Base64.isDigit =
        List.replicate ((3 - bs.length % 3) % 3) '=' := by
  have hdigits : ∀ c ∈ (Base64.sextets bs).map Base64.digit, Base64.isDigit c = true := by
    intro c hc
    obtain ⟨n,hn,rfl⟩ := List.mem_map.1 hc
    exact Base64.isDigit_digit n (Base64.sextets_lt bs n hn)
  have hequals : Base64.isDigit '=' = false := by decide
  rw [Base64.encode,List.takeWhile_append_of_pos hdigits,List.dropWhile_append_of_pos hdigits]
  cases (3 - bs.length % 3) % 3 with
  | zero => simp
  | succ n => simp [List.replicate_succ,hequals]

theorem isBase64Text_toBase64 {bs : List UInt8} (hne : bs ≠ []) : isBase64Text (toBase64 bs) = true := by
  obtain ⟨htake,hdrop⟩ := isDigit_takeWhile bs
  have hsextets : Base64.sextets bs ≠ [] := by
    intro hnil
    have := Base64.bytes_sextets bs
    rw [hnil] at this
    exact hne this.symm
  simp only [isBase64Text,toBase64,String.toList_ofList,htake,hdrop]
  simp [hsextets]
  omega

theorem isBase64Char_of_encode {bs : List UInt8} {c : Char} (hc : c ∈ Base64.encode bs) :
    isBase64Char c = true := by
  rw [Base64.encode,List.mem_append] at hc
  rcases hc with hc | hc
  · obtain ⟨n,hn,rfl⟩ := List.mem_map.1 hc
    simp [isBase64Char,Base64.isDigit_digit n (Base64.sextets_lt bs n hn)]
  · rw [(List.mem_replicate.1 hc).2]
    decide

/-- The entry of a key as it is cut. -/
theorem fits_showKey {k : MasterKey} (hk : FitsEntry k) :
    (showKey k).toList = k.kid.toList ++ ':' :: Base64.encode k.key ∧
      (showKey k).toList ≠ [] ∧ Trim.Trimmed isJsSpace (showKey k).toList ∧ ',' ∉ (showKey k).toList := by
  have htext : (showKey k).toList = k.kid.toList ++ ':' :: Base64.encode k.key := by
    simp [showKey,toBase64]
  have hkey : Base64.encode k.key ≠ [] := by
    intro hnil
    have hread := Base64.decode_encode k.key
    rw [hnil] at hread
    have hlength := hk.length
    rw [← hread] at hlength
    exact absurd hlength (by decide)
  refine ⟨htext,by simp [htext],⟨fun c hc => ?_,fun c hc => ?_⟩,fun hc => ?_⟩
  · rw [htext,List.head?_append_of_ne_nil _ hk.kid_ne] at hc
    exact hk.trimmed.1 c hc
  · rw [htext,List.getLast?_append_of_ne_nil _ (List.cons_ne_nil _ _),
      List.getLast?_cons_of_ne_nil hkey] at hc
    exact not_jsSpace_of_base64 (isBase64Char_of_encode (List.mem_of_mem_getLast? hc))
  · rw [htext,List.mem_append,List.mem_cons] at hc
    rcases hc with hc | hc | hc
    · exact hk.comma hc
    · exact absurd hc (by decide)
    · exact absurd (isBase64Char_of_encode hc) (by decide)

theorem readKey_showKey {seenKids : List String} {k : MasterKey} (hk : FitsEntry k)
    (hnew : k.kid ∉ seenKids) : readKey seenKids (showKey k) = .ok k := by
  obtain ⟨htext,-,-,-⟩ := fits_showKey hk
  obtain ⟨hindex,hlabel,hkey⟩ := cut_entry htext hk.colon
  have hencoded : Trim.Trimmed isJsSpace (Base64.encode k.key) :=
    Trim.Trimmed.of_forall fun c hc => not_jsSpace_of_base64 (isBase64Char_of_encode hc)
  have hkid : labelText (showKey k) = k.kid :=
    String.toList_inj.1 (hlabel.trans (trimChars_of_trimmed hk.trimmed))
  have hb64 : keyText (showKey k) = toBase64 k.key := by
    refine String.toList_inj.1 (hkey.trans ((trimChars_of_trimmed hencoded).trans ?_))
    rw [toBase64,String.toList_ofList]
  have hne : k.key ≠ [] := by
    intro hnil
    have hlength := hk.length
    rw [hnil] at hlength
    exact absurd hlength (by decide)
  have hpos : 0 < k.kid.toList.length := List.length_pos_of_ne_nil hk.kid_ne
  have hpost : 0 < (Base64.encode k.key).length := by
    refine List.length_pos_of_ne_nil fun hnil => hne ?_
    rw [← Base64.decode_encode k.key,hnil]
    rfl
  have hlength : (showKey k).length = k.kid.toList.length + 1 + (Base64.encode k.key).length := by
    rw [← String.length_toList,htext]
    simp
    omega
  unfold readKey
  simp only [hindex,hkid,hb64,hlength]
  rw [if_neg (by omega),if_neg hnew,if_neg (by simp [isBase64Text_toBase64 hne]),fromBase64_toBase64,
    if_neg (by simp [hk.length])]

theorem readKeys_showKey {seenKids : List String} {ring : List MasterKey}
    (hfits : ∀ k ∈ ring, FitsEntry k) (hnodup : (ring.map MasterKey.kid).Nodup)
    (hnew : ∀ k ∈ ring, k.kid ∉ seenKids) : readKeys seenKids (ring.map showKey) = .ok ring := by
  induction ring generalizing seenKids with
  | nil => rfl
  | cons k ring ih =>
    obtain ⟨hk,hring⟩ := List.forall_mem_cons.1 hfits
    obtain ⟨hkid,hrest⟩ := List.nodup_cons.1 hnodup
    obtain ⟨hkn,hringn⟩ := List.forall_mem_cons.1 hnew
    rw [List.map_cons,readKeys,readKey_showKey hk hkn]
    have hloop : readKeys (k.kid :: seenKids) (ring.map showKey) = .ok ring := by
      refine ih hring hrest fun k' hk' hmem => ?_
      rcases List.mem_cons.1 hmem with hsame | hmem
      · exact hkid (hsame ▸ List.mem_map_of_mem hk')
      · exact hringn k' hk' hmem
    show (do let out ← readKeys (k.kid :: seenKids) (ring.map showKey); return k :: out) = _
    rw [hloop]
    rfl

/-- The text of a ring is cut into the texts of its keys. -/
theorem rawEntries_showKeyring {ring : List MasterKey} (h : Presentable ring) :
    rawEntries (showKeyring ring) = ring.map showKey := by
  have hcomma : ∀ cs ∈ ring.map (fun k => (showKey k).toList), ',' ∉ cs := by
    intro cs hcs
    obtain ⟨k,hk,rfl⟩ := List.mem_map.1 hcs
    exact (fits_showKey (h.fits k hk)).2.2.2
  have hsplit := List.splitOn_intercalate ',' hcomma (by simpa using h.ne_nil)
  unfold rawEntries showKeyring
  rw [String.toList_ofList,hsplit,List.map_map]
  have htrim : ∀ k ∈ ring, ((fun part => trim (String.ofList part)) ∘ fun k => (showKey k).toList) k =
      showKey k := by
    intro k hk
    obtain ⟨-,-,htrimmed,-⟩ := fits_showKey (h.fits k hk)
    simp [trim,trimChars_of_trimmed htrimmed]
  rw [List.map_congr_left htrim,List.filter_eq_self]
  intro entry hentry
  obtain ⟨k,hk,rfl⟩ := List.mem_map.1 hentry
  obtain ⟨-,hne,-⟩ := fits_showKey (h.fits k hk)
  simpa using fun hempty : showKey k = "" => hne (by rw [hempty]; rfl)

theorem readKeyring_showKeyring {ring : List MasterKey} (h : Presentable ring) :
    readKeyring (showKeyring ring) = .ok ring := by
  have hne : ring.map showKey ≠ [] := by simpa using h.ne_nil
  rw [readKeyring,rawEntries_showKeyring h,if_neg hne]
  exact readKeys_showKey h.fits h.nodup fun _ _ => List.not_mem_nil

/-! ### What is read boots -/

theorem fillRing_ok {keyring : List MasterKey} {byKid : JsMap String (Bytes KEY_BYTES)}
    (hnodup : (keyring.map MasterKey.kid).Nodup) (hlength : ∀ k ∈ keyring, k.key.length = KEY_BYTES)
    (hnew : ∀ k ∈ keyring, byKid.get k.kid = none) : ∃ filled, fillRing keyring byKid = .ok filled := by
  induction keyring generalizing byKid with
  | nil => exact ⟨byKid,rfl⟩
  | cons k keyring ih =>
    obtain ⟨hkid,hnodup⟩ := List.nodup_cons.1 hnodup
    obtain ⟨hk,hlength⟩ := List.forall_mem_cons.1 hlength
    obtain ⟨hfree,hnew⟩ := List.forall_mem_cons.1 hnew
    rw [fillRing,if_neg (by simp [hfree]),dif_pos hk]
    refine ih hnodup hlength fun k' hk' => ?_
    have hne : k'.kid ≠ k.kid := fun hsame => hkid (hsame ▸ List.mem_map_of_mem hk')
    rw [JsMap.get_set,if_neg hne]
    exact hnew k' hk'

theorem createAesGcmCipher_ok {options : AesGcmCipherOptions} (h : Presentable options.keyring)
    (hactive : options.activeKid ∈ options.keyring.map MasterKey.kid) :
    ∃ c, createAesGcmCipher options = .ok c ∧ c.activeKid = options.activeKid := by
  have hlength : ∀ k ∈ options.keyring, k.key.length = KEY_BYTES := fun k hk => (h.fits k hk).length
  have hfree : ∀ k ∈ options.keyring, (JsMap.empty : JsMap String (Bytes KEY_BYTES)).get k.kid = none :=
    fun _ _ => rfl
  obtain ⟨filled,hfilled⟩ := fillRing_ok h.nodup hlength hfree
  obtain ⟨k,hk,hkid⟩ := List.mem_map.1 hactive
  have hget : filled.get options.activeKid = some ⟨k.key,hlength k hk⟩ :=
    (fillRing_spec hfilled _ _).2 (.inr (hkid ▸ hk))
  rw [createAesGcmCipher,if_neg (by simpa using h.ne_nil),hfilled]
  simp only
  split
  · rename_i hnone
    cases hnone.symm.trans hget
  · exact ⟨_,rfl,rfl⟩

theorem loadConfig_eq_ok {env : ServerEnv} {config : ServerConfig} (h : loadConfig env = .ok config) :
    readKeyring (env.masterKeys.getD "") = .ok config.masterKeys ∧
      config.activeKid ∈ config.masterKeys.map MasterKey.kid := by
  unfold loadConfig at h
  simp only at h
  split at h
  · cases h
  · obtain ⟨ring,hring,h⟩ := ok_of_bind h
    split at h
    · cases h
    · rename_i hactive
      obtain ⟨_,-,h⟩ := ok_of_bind h
      obtain rfl := Except.ok.inj h
      exact ⟨hring,not_not.1 hactive⟩

theorem bootCipher_of_loadConfig {env : ServerEnv} {config : ServerConfig}
    (h : loadConfig env = .ok config) : ∃ c, bootCipher config = .ok c ∧
      c.activeKid = config.activeKid ∧
      ∀ kid key, c.byKid.get kid = some key ↔ ⟨kid,key.1⟩ ∈ config.masterKeys := by
  obtain ⟨hread,hactive⟩ := loadConfig_eq_ok h
  obtain ⟨c,hc,hkid⟩ : ∃ c, bootCipher config = .ok c ∧ c.activeKid = config.activeKid :=
    createAesGcmCipher_ok (presentable_of_read hread) hactive
  exact ⟨c,hc,hkid,fun kid key => get_createAesGcmCipher hc kid key⟩

/-- A ring that is read can stand in the environment, and what can stand there is read back as it was.
A server whose configuration is taken has its cipher, over the keys of the ring and no others. -/
theorem keyring_reads :
    (∀ raw ring, readKeyring raw = .ok ring → Presentable ring) ∧
    (∀ ring, readKeyring (showKeyring ring) = .ok ring ↔ Presentable ring) ∧
    ∀ env config, loadConfig env = .ok config → ∃ c, bootCipher config = .ok c ∧
      c.activeKid = config.activeKid ∧
      ∀ kid key, c.byKid.get kid = some key ↔ ⟨kid,key.1⟩ ∈ config.masterKeys :=
  ⟨fun _ _ => presentable_of_read,fun _ => ⟨presentable_of_read,readKeyring_showKeyring⟩,
    fun _ _ => bootCipher_of_loadConfig⟩

end Boot

namespace Sample

def opsKeys : Option String := some "ops:0123456789abcdef0123456789abcdef"

def firstKey : String := "v1:AAAAAAAAAAAAAAAAAAAAAAAAAAAAAAAAAAAAAAAAAAA="
def secondKey : String := "v2:BwcHBwcHBwcHBwcHBwcHBwcHBwcHBwcHBwcHBwcHBwc="

def lifeEnv (masterKeys : String) : Boot.ServerEnv := ⟨opsKeys,some masterKeys,none,.ok ()⟩

theorem loadConfig_two_keys : Boot.loadConfig (lifeEnv (firstKey ++ ", " ++ secondKey)) =
    .ok ⟨"ops:0123456789abcdef0123456789abcdef",ring2.keyring,"v2"⟩ := by decide

theorem presentable_ring2 : Boot.Presentable ring2.keyring := by
  have hsolid : ∀ kid ∈ ["v1","v2"], Trim.Trimmed isJsSpace kid.toList := by
    intro kid hkid
    refine Trim.Trimmed.of_forall (forall_mem_of_all ?_)
    revert kid
    decide
  refine ⟨by decide,by decide,fun k hk => ?_⟩
  rcases List.mem_cons.1 hk with rfl | hk
  · exact ⟨by decide,hsolid _ (by decide),by decide,by decide,by decide⟩
  · obtain rfl := List.mem_singleton.1 hk
    exact ⟨by decide,hsolid _ (by decide),by decide,by decide,by decide⟩

end Sample

theorem Boot.keyring_reads_two_keys :
    readKeyring (showKeyring Sample.ring2.keyring) = .ok Sample.ring2.keyring ∧
      ∃ c, bootCipher ⟨"ops:0123456789abcdef0123456789abcdef",Sample.ring2.keyring,"v2"⟩ = .ok c ∧
        c.activeKid = "v2" := by
  refine ⟨(keyring_reads.2.1 _).2 Sample.presentable_ring2,?_⟩
  obtain ⟨c,hc,hkid,-⟩ := keyring_reads.2.2 _ _ Sample.loadConfig_two_keys
  exact ⟨c,hc,hkid⟩

end Zatca
