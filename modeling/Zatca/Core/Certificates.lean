import Zatca.Core.Tlv
import Zatca.Library.Base64
import Zatca.Library.Pem
import Zatca.Library.Placeholder
set_option autoImplicit false

/-! The readers of a certificate: one strips the framing of the text and puts it back, the others hand
the text to the parser as it is. -/

namespace Zatca
open Placeholder

/-- What `X509Certificate` shows of a certificate; the dates as `new Date` reads them, the key as its
`spki` export. -/
structure X509Certificate where
  subject : String
  issuer : String
  serialNumber : String
  validFrom : Date
  validTo : Date
  publicKey : Option (List UInt8)
  deriving DecidableEq

/-- What `@fidm/x509` adds to it. -/
structure FidmCertificate where
  publicKeyRaw : List UInt8
  signature : List UInt8
  deriving DecidableEq

/-- The boundaries of a certificate. -/
def certificateLabels : List (List Char) :=
  ["CERTIFICATE".toList,"X509 CERTIFICATE".toList,"TRUSTED CERTIFICATE".toList]

def isBase64Char (c : Char) : Bool := Base64.isDigit c || c == '='

/-- The parsers and the digest of the runtime and its package. `X509Certificate` accepts a text only
for the block of base64 lines that it frames, and reads nothing else of it. -/
structure CertificateParsers where
  x509 : String → Option X509Certificate
  fromPEM : String → Option FidmCertificate
  sha256Hex : String → String
  /-- The `spki` export of the public part of a private key. -/
  privateKeySpki : String → Option (List UInt8)
  x509_block : ∀ s t b, Pem.block certificateLabels s.toList = some b →
    Pem.block certificateLabels t.toList = some b → x509 s = x509 t
  block_of_x509 : ∀ s c, (∀ ch ∈ s.toList, ch.val < 0x80) → x509 s = some c →
    ∃ label ls, Pem.block certificateLabels s.toList = some (label,ls) ∧
      ∀ l ∈ ls, ∀ ch ∈ l, isBase64Char ch ∨ Pem.isBlank ch

variable (P : CertificateParsers)

/-! ### The signer -/

def beginMarker : List Char := "-----BEGIN CERTIFICATE-----".toList
def endMarker : List Char := "-----END CERTIFICATE-----".toList

def cleanUpCertificateString (certificate_string : List Char) : List Char :=
  trimChars (replaceFirst endMarker [] (replaceFirst (beginMarker ++ ['\n']) [] certificate_string))

def wrapCertificateString (body_base64 : List Char) : List Char :=
  beginMarker ++ ['\n'] ++ body_base64 ++ ['\n'] ++ endMarker

/-- The hex digest, as text in base64. -/
def getCertificateHash (certificate_string : String) : String :=
  String.ofList (Base64.encode (utf8 (P.sha256Hex certificate_string)))

structure CertificateInfo where
  hash : String
  issuer : String
  serial_number : String
  public_key : List UInt8
  signature : List UInt8
  deriving DecidableEq

def hexDigit (c : Char) : Option Nat :=
  if '0' ≤ c ∧ c ≤ '9' then some (c.toNat - 48) else if 'A' ≤ c ∧ c ≤ 'F' then some (c.toNat - 55)
  else if 'a' ≤ c ∧ c ≤ 'f' then some (c.toNat - 87) else none

/-- The number after `0x`; no digits, or another character, make none. -/
def hexNumber (s : String) : Option Nat :=
  if s = "" then none
  else (s.toList.mapM hexDigit).map fun digits => digits.foldl (fun n d => n*16 + d) 0

def joinReversed (issuer : String) : String :=
  ", ".intercalate ((issuer.toList.splitOn '\n').reverse.map String.ofList)

def certificateError (parser : String) : Thrown :=
  .zatcaCertificateError ("Failed to parse certificate via " ++ parser ++ ".")

def notParsed : Thrown := certificateError "node:crypto X509Certificate"

def extractCertificateInfo (certificate_string : String) : Except Thrown CertificateInfo :=
  let body := cleanUpCertificateString certificate_string.toList
  let pem := String.ofList (wrapCertificateString body)
  match P.x509 pem with
  | none => .error notParsed
  | some x509 =>
      match P.fromPEM pem with
      | none => .error
          (certificateError "@fidm/x509 (required for raw public key + signature)")
      | some cert =>
          match hexNumber x509.serialNumber with
          | none => .error (.error ("Cannot convert 0x" ++ x509.serialNumber ++ " to a BigInt"))
          | some serial => .ok
              { hash := getCertificateHash P (String.ofList body)
                issuer := joinReversed x509.issuer
                serial_number := toString serial
                public_key := cert.publicKeyRaw
                signature := cert.signature }

/-! ### The other readers -/

def getCertificateExpirationDate (certificate : String) : Except Thrown Date :=
  match P.x509 certificate with
  | none => .error notParsed
  | some cert => .ok cert.validTo

/-- `now >= validFrom && now <= validTo` -/
def X509Certificate.validAt (cert : X509Certificate) (now : Date) : Bool :=
  cert.validFrom.getTime ≤ now.getTime && now.getTime ≤ cert.validTo.getTime

def isCertificateValid (certificate : String) (now : Date) : Bool :=
  match P.x509 certificate with
  | none => false
  | some cert => cert.validAt now

structure CertificateVerification where
  isValid : Bool
  serialNumber : String
  subject : String
  issuer : String
  validFrom : Date
  validTo : Date
  publicKeyMatchesPrivateKey : Option Bool
  deriving DecidableEq

def spkiMatches (cert : X509Certificate) (privateKeyPem : String) : Bool :=
  match P.privateKeySpki privateKeyPem, cert.publicKey with
  | some privSpki, some certSpki => certSpki = privSpki
  | _, _ => false

def verification (cert : X509Certificate) (privateKey : Option String) (now : Date) :
    CertificateVerification where
  isValid := cert.validAt now
  serialNumber := cert.serialNumber
  subject := cert.subject
  issuer := cert.issuer
  validFrom := cert.validFrom
  validTo := cert.validTo
  publicKeyMatchesPrivateKey := privateKey.map (spkiMatches P cert)

def verifyCertificate (certificate : String) (privateKey : Option String) (now : Date) :
    Except Thrown CertificateVerification :=
  match P.x509 certificate with
  | none => .error notParsed
  | some cert => .ok (verification P cert privateKey now)

/-! ### Presentations -/

/-- The white space of ASCII. -/
def isAsciiSpace (c : Char) : Bool := c.val = 0x20 || (9 ≤ c.val && c.val ≤ 13)

/-- A base64 text, which may be broken into lines. -/
structure IsBody (body : List Char) : Prop where
  chars : ∀ c ∈ body, isBase64Char c ∨ isAsciiSpace c
  head : ∃ c ∈ body.head?, isBase64Char c
  last : ∃ c ∈ body.getLast?, isBase64Char c

/-- A way to present a certificate: bare or framed, with white space around. -/
structure Presentation where
  framing : Option Pem.Newline
  before : List Char
  after : List Char
  before_space : ∀ c ∈ before, isAsciiSpace c
  after_space : ∀ c ∈ after, isAsciiSpace c

def Presentation.core (p : Presentation) (body : List Char) : List Char :=
  match p.framing with
  | none => body
  | some newline => Pem.frame "CERTIFICATE".toList newline body

def Presentation.text (p : Presentation) (body : List Char) : List Char :=
  p.before ++ (p.core body ++ p.after)

/-! ### What the signer reads -/

theorem isJsSpace_of_ascii {c : Char} (h : isAsciiSpace c = true) : isJsSpace c = true := by
  simp only [isAsciiSpace,Bool.or_eq_true,decide_eq_true_eq,Bool.and_eq_true] at h
  have hval : c.val = 0x20 ∨ c.val = 9 ∨ c.val = 10 ∨ c.val = 11 ∨ c.val = 12 ∨ c.val = 13 := by
    rcases h with h | ⟨h9,h13⟩
    · exact .inl h
    · have h9' : 9 ≤ c.val.toNat := h9
      have h13' : c.val.toNat ≤ 13 := h13
      have hcases : c.val.toNat = 9 ∨ c.val.toNat = 10 ∨ c.val.toNat = 11 ∨ c.val.toNat = 12 ∨
          c.val.toNat = 13 := by omega
      simp only [← UInt32.toNat_inj]
      exact .inr hcases
  rcases hval with h | h | h | h | h | h <;> simp [isJsSpace,h]

theorem isBlank_of_ascii {c : Char} (h : isAsciiSpace c = true) : Pem.isBlank c = true := by
  simp only [isAsciiSpace,Bool.or_eq_true,decide_eq_true_eq,Bool.and_eq_true] at h
  rcases h with h | ⟨-,h13⟩
  · simp [Pem.isBlank,h]
  · have h13' : c.val.toNat ≤ 13 := h13
    have hle : c.val ≤ 0x20 := UInt32.le_iff_toNat_le.2 (Nat.le_trans h13' (by decide))
    simp [Pem.isBlank,hle]

theorem ne_dash_of_ascii {c : Char} (h : isAsciiSpace c = true) : c ≠ '-' := by
  rintro rfl
  exact absurd h (by decide)

theorem ne_dash_of_base64 {c : Char} (h : isBase64Char c = true) : c ≠ '-' := by
  rintro rfl
  exact absurd h (by decide)

theorem ascii_of_space {c : Char} (h : isAsciiSpace c = true) : c.val < 0x80 := by
  have hle : c.val ≤ 0x20 := of_decide_eq_true (isBlank_of_ascii h)
  exact UInt32.lt_of_le_of_lt hle (by decide)

/-- The characters of base64 stand between the blanks and the end of ASCII. -/
theorem bounds_of_base64 {c : Char} (h : isBase64Char c = true) : 0x20 < c.val ∧ c.val < 0x80 := by
  have hbounds : ∀ {a b : Char}, 0x20 < a.val → b.val < 0x80 → a ≤ c ∧ c ≤ b →
      0x20 < c.val ∧ c.val < 0x80 :=
    fun ha hb h => ⟨UInt32.lt_of_lt_of_le ha h.1,UInt32.lt_of_le_of_lt h.2 hb⟩
  simp only [isBase64Char,Base64.isDigit,Char.isAlphanum,Bool.or_eq_true,beq_iff_eq] at h
  delta Char.isAlpha Char.isUpper Char.isLower Char.isDigit at h
  simp only [Bool.or_eq_true,Bool.and_eq_true,decide_eq_true_eq] at h
  rcases h with ((((h | h) | h) | rfl) | rfl) | rfl
  · exact hbounds (by decide) (by decide) h
  · exact hbounds (by decide) (by decide) h
  · exact hbounds (by decide) (by decide) h
  · decide
  · decide
  · decide

theorem ascii_of_base64 {c : Char} (h : isBase64Char c = true) : c.val < 0x80 := (bounds_of_base64 h).2

theorem not_jsSpace_of_base64 {c : Char} (h : isBase64Char c = true) : isJsSpace c = false :=
  isJsSpace_of_bounds ⟨(bounds_of_base64 h).1,UInt32.lt_trans (bounds_of_base64 h).2 (by decide)⟩

/-- A text with white space around it is trimmed to itself. -/
theorem trimChars_surrounded {before body after : List Char}
    (hbefore : ∀ c ∈ before, isJsSpace c = true) (hafter : ∀ c ∈ after, isJsSpace c = true)
    (hhead : ∃ c ∈ body.head?, isJsSpace c = false)
    (hlast : ∃ c ∈ body.getLast?, isJsSpace c = false) :
    trimChars (before ++ (body ++ after)) = body := by
  have hdrop : ∀ {sp cs : List Char}, (∀ c ∈ sp, isJsSpace c = true) →
      (∃ c ∈ cs.head?, isJsSpace c = false) → (sp ++ cs).dropWhile isJsSpace = cs := by
    intro sp cs hsp hcs
    obtain ⟨c,hc,hno⟩ := hcs
    cases cs with
    | nil => cases hc
    | cons d cs =>
      cases hc
      rw [List.dropWhile_append_of_pos hsp,List.dropWhile_cons_of_neg (by simp [hno])]
  have hhead' : ∃ c ∈ (body ++ after).head?, isJsSpace c = false := by
    obtain ⟨c,hc,hno⟩ := hhead
    exact ⟨c,by rw [List.head?_append,hc]; rfl,hno⟩
  have hlast' : ∃ c ∈ body.reverse.head?, isJsSpace c = false := by
    rwa [List.head?_reverse]
  rw [trimChars,hdrop hbefore hhead',List.reverse_append,
    hdrop (fun c hc => hafter c (List.mem_reverse.1 hc)) hlast',List.reverse_reverse]

theorem beginMarker_eq : beginMarker = Pem.beginLine "CERTIFICATE".toList := by decide
theorem endMarker_eq : endMarker = Pem.endLine "CERTIFICATE".toList := by decide

theorem wrapCertificateString_eq (body : List Char) :
    wrapCertificateString body = Pem.frame "CERTIFICATE".toList .lf body := by
  rw [wrapCertificateString,beginMarker_eq,endMarker_eq]
  rfl

namespace IsBody

variable {body : List Char} (h : IsBody body)
include h

theorem notMem_dash : '-' ∉ body := by
  intro hm
  rcases h.chars _ hm with h | h
  · exact ne_dash_of_base64 h rfl
  · exact ne_dash_of_ascii h rfl

theorem head_not_space : ∃ c ∈ body.head?, isJsSpace c = false := by
  obtain ⟨c,hc,hbase⟩ := h.head
  exact ⟨c,hc,not_jsSpace_of_base64 hbase⟩

/-- The lines of the body are framed. -/
theorem block_wrap : Pem.block certificateLabels (wrapCertificateString body) =
    some ("CERTIFICATE".toList,Pem.lines body) := by
  have hwrap : wrapCertificateString body =
      [] ++ (Pem.frame "CERTIFICATE".toList .lf body ++ []) := by
    rw [wrapCertificateString_eq,List.nil_append,List.append_nil]
  rw [hwrap]
  exact Pem.block_frame List.mem_cons_self (by decide) .lf (by simp) (.inl rfl) (by simp)
    h.notMem_dash

theorem last_not_space : ∃ c ∈ body.getLast?, isJsSpace c = false := by
  obtain ⟨c,hc,hbase⟩ := h.last
  exact ⟨c,hc,not_jsSpace_of_base64 hbase⟩

end IsBody

theorem replaceFirst_remove (pattern cs : List Char) : replaceFirst pattern [] cs =
    ((splitFirst pattern cs).map fun split => split.1 ++ split.2).getD cs := by
  rw [replaceFirst]
  cases splitFirst pattern cs with
  | none => rfl
  | some split => simp [expand]

/-- A text without a dash is not changed. -/
theorem replaceFirst_of_notMem {p : Char} {ps cs : List Char} (h : p ∉ cs) :
    replaceFirst (p :: ps) [] cs = cs := by
  have hsplit : splitFirst (p :: ps) (cs ++ []) = _ := splitFirst_skip_head h []
  rw [List.append_nil] at hsplit
  rw [replaceFirst_remove,hsplit]
  rfl

theorem replaceFirst_found {p : Char} {ps before after : List Char} (h : p ∉ before) :
    replaceFirst (p :: ps) [] (before ++ (p :: ps ++ after)) = before ++ after := by
  rw [replaceFirst_remove,splitFirst_skip_head h,splitFirst_append]
  simp

section presentations

variable {body : List Char} (h : IsBody body) {before after : List Char}
  (hbefore : ∀ c ∈ before, isAsciiSpace c = true) (hafter : ∀ c ∈ after, isAsciiSpace c = true)
include h hbefore hafter

theorem cleanUp_bare : cleanUpCertificateString (before ++ (body ++ after)) = body := by
  have hdash : '-' ∉ before ++ (body ++ after) := by
    simp only [List.mem_append,not_or]
    exact ⟨fun hm => ne_dash_of_ascii (hbefore _ hm) rfl,h.notMem_dash,
      fun hm => ne_dash_of_ascii (hafter _ hm) rfl⟩
  have hbegin : replaceFirst (beginMarker ++ ['\n']) [] (before ++ (body ++ after)) =
      before ++ (body ++ after) := replaceFirst_of_notMem hdash
  have hend : replaceFirst endMarker [] (before ++ (body ++ after)) = before ++ (body ++ after) :=
    replaceFirst_of_notMem hdash
  rw [cleanUpCertificateString,hbegin,hend]
  exact trimChars_surrounded (fun c hc => isJsSpace_of_ascii (hbefore c hc))
    (fun c hc => isJsSpace_of_ascii (hafter c hc)) h.head_not_space h.last_not_space

theorem cleanUp_lf : cleanUpCertificateString
    (before ++ (Pem.frame "CERTIFICATE".toList .lf body ++ after)) = body := by
  have hdash : '-' ∉ before := fun hm => ne_dash_of_ascii (hbefore _ hm) rfl
  have htext : before ++ (Pem.frame "CERTIFICATE".toList .lf body ++ after) =
      before ++ ((beginMarker ++ ['\n']) ++ (body ++ '\n' :: (endMarker ++ after))) := by
    rw [beginMarker_eq,endMarker_eq]
    simp [Pem.frame,Pem.Newline.chars]
  have hbegin : replaceFirst (beginMarker ++ ['\n']) []
      (before ++ ((beginMarker ++ ['\n']) ++ (body ++ '\n' :: (endMarker ++ after)))) =
      before ++ (body ++ '\n' :: (endMarker ++ after)) := replaceFirst_found hdash
  have hassoc : before ++ (body ++ '\n' :: (endMarker ++ after)) =
      (before ++ (body ++ ['\n'])) ++ (endMarker ++ after) := by simp
  have hdash' : '-' ∉ before ++ (body ++ ['\n']) := by
    simp [hdash,h.notMem_dash]
  have hend : replaceFirst endMarker [] ((before ++ (body ++ ['\n'])) ++ (endMarker ++ after)) =
      (before ++ (body ++ ['\n'])) ++ after := replaceFirst_found hdash'
  have htrim : (before ++ (body ++ ['\n'])) ++ after = before ++ (body ++ '\n' :: after) := by simp
  rw [cleanUpCertificateString,htext,hbegin,hassoc,hend,htrim]
  refine trimChars_surrounded (fun c hc => isJsSpace_of_ascii (hbefore c hc)) ?_ h.head_not_space
    h.last_not_space
  intro c hc
  rcases List.mem_cons.1 hc with rfl | hc
  · decide
  · exact isJsSpace_of_ascii (hafter c hc)

omit hafter in
/-- A pattern that is not the begin marker is first looked for behind the body. -/
theorem splitFirst_crlf {p : Char} {ps : List Char} (hp : p = '-')
    (hmarker : ¬ p :: ps <:+: beginMarker) (hcr : '\r' ∉ p :: ps) (rest : List Char) :
    splitFirst (p :: ps) (before ++ (beginMarker ++ (['\r','\n'] ++ body ++ ['\r','\n'] ++ rest))) =
      (splitFirst (p :: ps) rest).map fun split =>
        (before ++ (beginMarker ++ (['\r','\n'] ++ body ++ ['\r','\n'] ++ split.1)),split.2) := by
  subst hp
  have hdash : '-' ∉ before := fun hm => ne_dash_of_ascii (hbefore _ hm) rfl
  have hmid : '-' ∉ ['\r','\n'] ++ body ++ ['\r','\n'] := by simp [h.notMem_dash]
  have hedge : ∀ c ∈ (['\r','\n'] ++ body ++ ['\r','\n'] ++ rest).head?, c ∉ '-' :: ps := by
    intro c hc
    cases hc
    exact hcr
  rw [splitFirst_skip_head hdash,splitFirst_skip hmarker (.inr hedge),splitFirst_skip_head hmid,
    Option.map_map,Option.map_map]
  rfl

omit h hbefore in
/-- After the end marker there is no begin marker. -/
theorem splitFirst_begin_end : splitFirst (beginMarker ++ ['\n']) (endMarker ++ after) = none := by
  have hinfix : ¬ beginMarker ++ ['\n'] <:+: endMarker ++ after := by
    intro hi
    have hb : 'B' ∈ endMarker ++ after := hi.subset (by decide)
    rcases List.mem_append.1 hb with hb | hb
    · exact absurd hb (by decide)
    · exact absurd (hafter _ hb) (by decide)
  have hskip : splitFirst _ ((endMarker ++ after) ++ []) = _ :=
    splitFirst_skip hinfix (.inr (by simp))
  rw [List.append_nil] at hskip
  rw [hskip]
  rfl

/-- The begin line that ends with a carriage return is not taken away. -/
theorem cleanUp_crlf : cleanUpCertificateString
    (before ++ (Pem.frame "CERTIFICATE".toList .crlf body ++ after)) =
      beginMarker ++ ['\r','\n'] ++ body := by
  have htext : before ++ (Pem.frame "CERTIFICATE".toList .crlf body ++ after) =
      before ++ (beginMarker ++ (['\r','\n'] ++ body ++ ['\r','\n'] ++ (endMarker ++ after))) := by
    rw [beginMarker_eq,endMarker_eq]
    simp [Pem.frame,Pem.Newline.chars]
  have hbegin : splitFirst (beginMarker ++ ['\n']) (before ++ (beginMarker ++
      (['\r','\n'] ++ body ++ ['\r','\n'] ++ (endMarker ++ after)))) = none :=
    (splitFirst_crlf h hbefore (by decide) (by decide) (by decide) _).trans
      (Option.map_eq_none_iff.2 (splitFirst_begin_end hafter))
  have hend : splitFirst endMarker (before ++ (beginMarker ++
      (['\r','\n'] ++ body ++ ['\r','\n'] ++ (endMarker ++ after)))) =
        some (before ++ (beginMarker ++ (['\r','\n'] ++ body ++ ['\r','\n'] ++ [])),after) :=
    (splitFirst_crlf h hbefore (by decide) (by decide) (by decide) _).trans
      (congrArg _ (splitFirst_append after))
  have htrim : before ++ (beginMarker ++ (['\r','\n'] ++ body ++ ['\r','\n'] ++ [])) ++ after =
      before ++ ((beginMarker ++ ['\r','\n'] ++ body) ++ (['\r','\n'] ++ after)) := by simp
  have hspaces : ∀ c ∈ ['\r','\n'], isJsSpace c = true := forall_mem_of_all (by decide)
  rw [cleanUpCertificateString,htext,replaceFirst_remove (beginMarker ++ ['\n']),hbegin,
    Option.map_none,Option.getD_none,replaceFirst_remove endMarker,hend,Option.map_some,
    Option.getD_some,htrim]
  refine trimChars_surrounded (fun c hc => isJsSpace_of_ascii (hbefore c hc)) ?_ ⟨'-',rfl,by decide⟩ ?_
  · intro c hc
    rcases List.mem_append.1 hc with hc | hc
    · exact hspaces c hc
    · exact isJsSpace_of_ascii (hafter c hc)
  · obtain ⟨c,hc,hno⟩ := h.last_not_space
    refine ⟨c,?_,hno⟩
    rw [List.getLast?_append,hc]
    rfl

/-! ### What the parser accepts -/

theorem ascii_bare : ∀ c ∈ before ++ (body ++ after), c.val < 0x80 := by
  intro c hc
  simp only [List.mem_append] at hc
  rcases hc with hc | hc | hc
  · exact ascii_of_space (hbefore c hc)
  · rcases h.chars c hc with hb | hs
    · exact ascii_of_base64 hb
    · exact ascii_of_space hs
  · exact ascii_of_space (hafter c hc)

/-- A bare body frames nothing. -/
theorem x509_bare : P.x509 (String.ofList (before ++ (body ++ after))) = none := by
  have hnone : Pem.block certificateLabels (before ++ (body ++ after)) = none := by
    refine Pem.block_eq_none fun l hl label _ heq => ?_
    have hdash : '-' ∈ before ++ (body ++ after) :=
      Pem.mem_of_mem_lines hl (by rw [heq]; simp [Pem.beginLine,Pem.dashes])
    simp only [List.mem_append] at hdash
    rcases hdash with hdash | hdash | hdash
    · exact ne_dash_of_ascii (hbefore _ hdash) rfl
    · exact h.notMem_dash hdash
    · exact ne_dash_of_ascii (hafter _ hdash) rfl
  by_contra hsome
  obtain ⟨c,hc⟩ := Option.ne_none_iff_exists'.1 hsome
  obtain ⟨label,ls,hblock,-⟩ := P.block_of_x509 _ c
    (by rw [String.toList_ofList]; exact ascii_bare h hbefore hafter) hc
  rw [String.toList_ofList,hnone] at hblock
  simp at hblock

theorem ascii_frame (newline : Pem.Newline) :
    ∀ c ∈ before ++ (Pem.frame "CERTIFICATE".toList newline body ++ after), c.val < 0x80 := by
  have hmarkers : ∀ c ∈ beginMarker ++ endMarker, c.val < 0x80 := forall_mem_of_all (by decide)
  have hnewline : ∀ c ∈ newline.chars, c.val < 0x80 := by
    cases newline <;> exact forall_mem_of_all (by decide)
  intro c hc
  rw [Pem.frame,← beginMarker_eq,← endMarker_eq] at hc
  have hbare := ascii_bare h hbefore hafter c
  simp only [List.mem_append] at hc hbare hmarkers
  rcases hc with hc | ((((hc | hc) | hc) | hc) | hc) | hc
  · exact hbare (.inl hc)
  · exact hmarkers c (.inl hc)
  · exact hnewline c hc
  · exact hbare (.inr (.inl hc))
  · exact hnewline c hc
  · exact hmarkers c (.inr hc)
  · exact hbare (.inr (.inr hc))

/-- Whatever stands around the frame, the parser reads what it reads of the wrapped body. -/
theorem x509_framed (newline : Pem.Newline) (hstart : before = [] ∨ before.getLast? = some '\n') :
    P.x509 (String.ofList (before ++ (Pem.frame "CERTIFICATE".toList newline body ++ after))) =
      P.x509 (String.ofList (wrapCertificateString body)) := by
  refine P.x509_block _ _ ("CERTIFICATE".toList,Pem.lines body) ?_ ?_
  · rw [String.toList_ofList]
    exact Pem.block_frame List.mem_cons_self (by decide) newline
      (fun c hc => isBlank_of_ascii (hbefore c hc)) hstart
      (fun c hc => isBlank_of_ascii (hafter c hc)) h.notMem_dash
  · rw [String.toList_ofList]
    exact h.block_wrap

/-- A frame that does not begin its line is not seen. -/
theorem x509_indented (newline : Pem.Newline)
    (hstart : ¬ (before = [] ∨ before.getLast? = some '\n')) :
    P.x509 (String.ofList (before ++ (Pem.frame "CERTIFICATE".toList newline body ++ after))) =
      none := by
  by_contra hsome
  obtain ⟨c,hc⟩ := Option.ne_none_iff_exists'.1 hsome
  obtain ⟨label,ls,hblock,-⟩ := P.block_of_x509 _ c
    (by rw [String.toList_ofList]; exact ascii_frame h hbefore hafter newline) hc
  rw [String.toList_ofList,Pem.block_frame_indented (by decide) newline
    (fun c hc => isBlank_of_ascii (hbefore c hc)) hstart
    (fun c hc => isBlank_of_ascii (hafter c hc)) h.notMem_dash] at hblock
  simp at hblock

end presentations

theorem ascii_begin_twice {body : List Char} (h : IsBody body) :
    ∀ c ∈ wrapCertificateString (beginMarker ++ ['\r','\n'] ++ body), c.val < 0x80 := by
  have hmarkers : ∀ c ∈ beginMarker ++ ['\r','\n'] ++ endMarker, c.val < 0x80 :=
    forall_mem_of_all (by decide)
  have hbody : ∀ c ∈ [] ++ (body ++ []), c.val < 0x80 := ascii_bare h (by simp) (by simp)
  intro c hc
  simp only [wrapCertificateString,List.mem_append] at hc hmarkers hbody
  rcases hc with (((hc | hc) | (hc | hc) | hc) | hc) | hc
  · exact hmarkers c (.inl (.inl hc))
  · exact hmarkers c (.inl (.inr (List.mem_cons_of_mem _ hc)))
  · exact hmarkers c (.inl (.inl hc))
  · exact hmarkers c (.inl (.inr hc))
  · exact hbody c (.inr (.inl hc))
  · exact hmarkers c (.inl (.inr (List.mem_cons_of_mem _ hc)))
  · exact hmarkers c (.inr hc)

theorem lines_begin_twice (body : List Char) :
    Pem.lines (wrapCertificateString (beginMarker ++ ['\r','\n'] ++ body)) =
      Pem.beginLine "CERTIFICATE".toList :: (Pem.beginLine "CERTIFICATE".toList :: (Pem.lines body ++
        Pem.lines (Pem.endLine "CERTIFICATE".toList ++ []))) := by
  have hframe : Pem.lines ([] ++ (Pem.frame "CERTIFICATE".toList .lf
      (beginMarker ++ ['\r','\n'] ++ body) ++ [])) = _ :=
    Pem.lines_frame (by decide) .lf List.not_mem_nil _ _
  have hfirst : Pem.lines (Pem.beginLine "CERTIFICATE".toList) =
      [Pem.beginLine "CERTIFICATE".toList] := Pem.lines_boundary (by decide)
  have hbody : Pem.lines (beginMarker ++ ['\r','\n'] ++ body) =
      Pem.lines (Pem.beginLine "CERTIFICATE".toList) ++ Pem.lines body :=
    beginMarker_eq ▸ Pem.lines_newline .crlf beginMarker body
  rw [List.nil_append,List.nil_append,List.append_nil,hbody,hfirst] at hframe
  rw [wrapCertificateString_eq,hframe]
  rfl

/-- Behind a begin line that was left in place there is no base64. -/
theorem x509_begin_twice {body : List Char} (h : IsBody body) :
    P.x509 (String.ofList (wrapCertificateString (beginMarker ++ ['\r','\n'] ++ body))) = none := by
  by_contra hsome
  obtain ⟨c,hc⟩ := Option.ne_none_iff_exists'.1 hsome
  obtain ⟨label,ls,hblock,hls⟩ := P.block_of_x509 _ c
    (by rw [String.toList_ofList]; exact ascii_begin_twice h) hc
  have hlabel : "CERTIFICATE".toList ∈ certificateLabels := List.mem_cons_self
  rw [String.toList_ofList,Pem.block,lines_begin_twice,Pem.blockOf_begin hlabel] at hblock
  split at hblock
  · have hmem : Pem.beginLine "CERTIFICATE".toList ∈ ls := by
      cases hblock
      rw [List.takeWhile_cons_of_pos (by decide)]
      exact List.mem_cons_self
    rcases hls _ hmem '-' (by decide) with hdash | hdash
    · exact absurd hdash (by decide)
    · exact absurd hdash (by decide)
  · simp at hblock

/-- The encoding of bytes is a body. -/
theorem isBody_encode {bs : List UInt8} (h : bs ≠ []) : IsBody (Base64.encode bs) := by
  have hdigit : ∀ n ∈ Base64.sextets bs, isBase64Char (Base64.digit n) = true := by
    intro n hn
    simp [isBase64Char,Base64.isDigit_digit n (Base64.sextets_lt bs n hn)]
  have hchars : ∀ c ∈ Base64.encode bs, isBase64Char c = true := by
    intro c hc
    rcases List.mem_append.1 hc with hc | hc
    · obtain ⟨n,hn,rfl⟩ := List.mem_map.1 hc
      exact hdigit n hn
    · rw [List.eq_of_mem_replicate hc]
      decide
  have hne : Base64.encode bs ≠ [] := by
    intro hnil
    have hround := Base64.decode_encode bs
    rw [hnil] at hround
    exact h hround.symm
  exact {
    chars := fun c hc => .inl (hchars c hc)
    head := ⟨_,List.head?_eq_some_head hne,hchars _ (List.head_mem hne)⟩
    last := ⟨_,List.getLast?_eq_some_getLast hne,hchars _ (List.getLast_mem hne)⟩ }

/-! The certificate of the fixtures. -/
namespace Sample

def certificateDer : List UInt8 :=
  [
   0x30,0x82,0x01,0xf0,0x30,0x82,0x01,0x96,0xa0,0x03,0x02,0x01,0x02,0x02,0x14,0x53,
   0x67,0x54,0x44,0x97,0x01,0x86,0xa7,0x61,0x1f,0xc0,0x4f,0xed,0x8b,0x23,0x00,0xd5,
   0x3a,0x34,0x99,0x30,0x0a,0x06,0x08,0x2a,0x86,0x48,0xce,0x3d,0x04,0x03,0x02,0x30,
   0x4f,0x31,0x0b,0x30,0x09,0x06,0x03,0x55,0x04,0x06,0x13,0x02,0x53,0x41,0x31,0x11,
   0x30,0x0f,0x06,0x03,0x55,0x04,0x0a,0x0c,0x08,0x41,0x63,0x6d,0x65,0x20,0x4c,0x4c,
   0x43,0x31,0x16,0x30,0x14,0x06,0x03,0x55,0x04,0x0b,0x0c,0x0d,0x52,0x69,0x79,0x61,
   0x64,0x68,0x20,0x42,0x72,0x61,0x6e,0x63,0x68,0x31,0x15,0x30,0x13,0x06,0x03,0x55,
   0x04,0x03,0x0c,0x0c,0x61,0x63,0x6d,0x65,0x2d,0x65,0x67,0x73,0x2d,0x30,0x30,0x31,
   0x30,0x1e,0x17,0x0d,0x32,0x36,0x30,0x35,0x31,0x33,0x31,0x35,0x35,0x30,0x31,0x33,
   0x5a,0x17,0x0d,0x33,0x36,0x30,0x35,0x31,0x30,0x31,0x35,0x35,0x30,0x31,0x33,0x5a,
   0x30,0x4f,0x31,0x0b,0x30,0x09,0x06,0x03,0x55,0x04,0x06,0x13,0x02,0x53,0x41,0x31,
   0x11,0x30,0x0f,0x06,0x03,0x55,0x04,0x0a,0x0c,0x08,0x41,0x63,0x6d,0x65,0x20,0x4c,
   0x4c,0x43,0x31,0x16,0x30,0x14,0x06,0x03,0x55,0x04,0x0b,0x0c,0x0d,0x52,0x69,0x79,
   0x61,0x64,0x68,0x20,0x42,0x72,0x61,0x6e,0x63,0x68,0x31,0x15,0x30,0x13,0x06,0x03,
   0x55,0x04,0x03,0x0c,0x0c,0x61,0x63,0x6d,0x65,0x2d,0x65,0x67,0x73,0x2d,0x30,0x30,
   0x31,0x30,0x56,0x30,0x10,0x06,0x07,0x2a,0x86,0x48,0xce,0x3d,0x02,0x01,0x06,0x05,
   0x2b,0x81,0x04,0x00,0x0a,0x03,0x42,0x00,0x04,0xa1,0x53,0x97,0x5b,0x03,0xbd,0x48,
   0x8f,0x31,0x41,0x3a,0x81,0xf4,0x24,0x82,0x8c,0x36,0x02,0xc0,0xeb,0x5a,0xcd,0x4d,
   0xa3,0x93,0xa9,0x63,0x6d,0xd0,0x17,0x79,0x17,0x09,0x59,0xd6,0x85,0x6e,0x53,0xa7,
   0x25,0xa8,0x48,0xa3,0x52,0x3b,0x39,0x10,0x1e,0x88,0x43,0xbc,0xe4,0x64,0xaf,0x6a,
   0xff,0x45,0x1a,0x53,0xf9,0xdd,0x24,0x5f,0x08,0xa3,0x53,0x30,0x51,0x30,0x1d,0x06,
   0x03,0x55,0x1d,0x0e,0x04,0x16,0x04,0x14,0xed,0x9f,0x19,0x6c,0x84,0x86,0xb9,0xa1,
   0x18,0xd0,0x02,0xd2,0xba,0xb0,0xd9,0x10,0x7d,0x90,0xd7,0xe8,0x30,0x1f,0x06,0x03,
   0x55,0x1d,0x23,0x04,0x18,0x30,0x16,0x80,0x14,0xed,0x9f,0x19,0x6c,0x84,0x86,0xb9,
   0xa1,0x18,0xd0,0x02,0xd2,0xba,0xb0,0xd9,0x10,0x7d,0x90,0xd7,0xe8,0x30,0x0f,0x06,
   0x03,0x55,0x1d,0x13,0x01,0x01,0xff,0x04,0x05,0x30,0x03,0x01,0x01,0xff,0x30,0x0a,
   0x06,0x08,0x2a,0x86,0x48,0xce,0x3d,0x04,0x03,0x02,0x03,0x48,0x00,0x30,0x45,0x02,
   0x20,0x67,0x1f,0x65,0xbd,0x97,0x0b,0x1a,0xdb,0xc9,0x0b,0xfd,0x09,0xff,0x46,0x79,
   0xdb,0x47,0x01,0x07,0x76,0x34,0x9b,0x40,0x70,0x9e,0x07,0xac,0xbd,0x63,0xc5,0x94,
   0xc7,0x02,0x21,0x00,0xb8,0xe8,0xb6,0x05,0x51,0xa1,0xb2,0x79,0x45,0xbc,0x6e,0x64,
   0xd9,0x27,0x31,0x24,0xcd,0xa6,0x6a,0xa2,0x9d,0x3f,0x40,0x93,0x26,0x38,0xf1,0x03,
   0x47,0x11,0xc3,0xd5]

def certificateBody : List Char := Base64.encode certificateDer

theorem isBody_certificateBody : IsBody certificateBody := isBody_encode (List.cons_ne_nil _ _)

def certificate : X509Certificate where
  subject := "C=SA\nO=Acme LLC\nOU=Riyadh Branch\nCN=acme-egs-001"
  issuer := "C=SA\nO=Acme LLC\nOU=Riyadh Branch\nCN=acme-egs-001"
  serialNumber := "53675444970186A7611FC04FED8B2300D53A3499"
  validFrom := ⟨1778687413000⟩
  validTo := ⟨2094047413000⟩
  publicKey := some ((certificateDer.drop 241).take 88)

/-- Parsers that know one certificate. -/
def parsersOf {body : List Char} (h : IsBody body) (cert : X509Certificate) (fidm : FidmCertificate)
    (hex : String) : CertificateParsers where
  x509 s :=
    match Pem.block certificateLabels s.toList with
    | some (_,ls) => if ls = Pem.lines body then some cert else none
    | none => none
  fromPEM _ := some fidm
  sha256Hex _ := hex
  privateKeySpki _ := none
  x509_block s t b hs ht := by rw [hs,ht]
  block_of_x509 s c _ hc := by
    cases hb : Pem.block certificateLabels s.toList with
    | none =>
      rw [hb] at hc
      cases hc
    | some b =>
      obtain ⟨label,ls⟩ := b
      rw [hb] at hc
      dsimp only at hc
      split at hc
      · rename_i hls
        refine ⟨label,ls,rfl,fun l hl ch hch => ?_⟩
        subst hls
        rcases h.chars ch (Pem.mem_of_mem_lines hl hch) with hbase | hspace
        · exact .inl hbase
        · exact .inr (isBlank_of_ascii hspace)
      · cases hc

/-- The key and the signature stand in the encoding. -/
def certificateKeys : FidmCertificate := ⟨(certificateDer.drop 264).take 65,certificateDer.drop 429⟩

def certificateDigest : String := "e7eeaaa27313d72dabc6129d6525ae9b9425b3364b27c0ecee46622322a22d57"

def certificateParsers : CertificateParsers :=
  parsersOf isBody_certificateBody certificate certificateKeys certificateDigest

/-- The parsers know the body in its frame. -/
theorem x509_parsersOf {body : List Char} (h : IsBody body) (cert : X509Certificate)
    (fidm : FidmCertificate) (hex : String) :
    (parsersOf h cert fidm hex).x509 (String.ofList (wrapCertificateString body)) = some cert := by
  simp only [parsersOf,String.toList_ofList,h.block_wrap,if_true]

theorem x509_certificateParsers : certificateParsers.x509
    (String.ofList (wrapCertificateString certificateBody)) = some certificate := by
  rw [certificateParsers]
  exact x509_parsersOf isBody_certificateBody certificate certificateKeys certificateDigest

end Sample

end Zatca
