import Zatca.Core.Tlv
import Zatca.Server.AdminRoutes
set_option autoImplicit false

/-! The labelled keys of the administrators: how the list is read, and which header is attributed
to which label. -/

namespace Zatca

def MIN_KEY_LENGTH : Nat := 32

structure AdminKeyEntry where
  label : String
  key : String
  deriving DecidableEq, Repr

def adminKeysRequired : Thrown := .zatcaServerError
  "Admin keys are required. Set ZATCA_SERVER_ADMIN_KEYS=label:key[,label:key...]." none

def malformedEntry (entry : String) : Thrown :=
  .zatcaServerError ("Admin key entry '" ++ entry ++ "' must be of the form 'label:key'.") none

def emptyLabel (entry : String) : Thrown :=
  .zatcaServerError ("Admin key entry '" ++ entry ++ "' has an empty label.") none

def shortKey (label key : String) : Thrown :=
  .zatcaServerError ("Admin key for label '" ++ label ++ "' is too short (" ++
    toString (utf16Length key) ++ " chars; need " ++ toString MIN_KEY_LENGTH ++ "+).") none

def duplicateLabel (label : String) : Thrown :=
  .zatcaServerError ("Duplicate admin label '" ++ label ++ "'.") none

/-- `s.indexOf(c)`, counted in characters: it is compared with the ends of the text only. -/
def indexOf (s : String) (c : Char) : Int := if c ∈ s.toList then s.toList.idxOf c else -1

/-- The parts between the commas, without the blank ones. -/
def rawEntries (raw : String) : List String :=
  ((raw.toList.splitOn ',').map fun part => trim (String.ofList part)).filter fun s => s ≠ ""

/-- `entry.slice(0, idx).trim()` -/
def labelText (entry : String) : String :=
  trim (String.ofList (entry.toList.take (entry.toList.idxOf ':')))

/-- `entry.slice(idx + 1).trim()` -/
def keyText (entry : String) : String :=
  trim (String.ofList (entry.toList.drop (entry.toList.idxOf ':' + 1)))

/-- One pass of the loop, after the labels that were seen. -/
def parseEntry (seenLabels : List String) (entry : String) : Except Thrown AdminKeyEntry :=
  let idx := indexOf entry ':'
  if idx ≤ 0 ∨ idx = entry.length - 1 then .error (malformedEntry entry)
  else
    let label := labelText entry
    let key := keyText entry
    if label = "" then .error (emptyLabel entry)
    else if utf16Length key < MIN_KEY_LENGTH then .error (shortKey label key)
    else if label ∈ seenLabels then .error (duplicateLabel label)
    else .ok { label, key }

def parseEntries : (seenLabels : List String) → List String → Except Thrown (List AdminKeyEntry)
  | _, [] => .ok []
  | seenLabels, entry :: entries => do
      let e ← parseEntry seenLabels entry
      let out ← parseEntries (e.label :: seenLabels) entries
      return e :: out

def parseAdminKeys (raw : String) : Except Thrown (List AdminKeyEntry) :=
  if rawEntries raw = [] then .error adminKeysRequired else parseEntries [] (rawEntries raw)

section verifier
variable (sha256 : List UInt8 → List UInt8)

/-- `timingSafeEqual` on the digests, which are of one length. -/
def constantTimeEquals (a b : String) : Bool := sha256 (utf8 a) = sha256 (utf8 b)

structure AdminKeyVerifier where
  verify : String → Option String
  verifyHeader : Option String → Except Thrown String

/-- All entries are compared, also after a match. -/
def matchedLabel (entries : List AdminKeyEntry) (presented : String) : Option String :=
  entries.foldl (fun matched entry =>
    if constantTimeEquals sha256 presented entry.key then some entry.label else matched) none

def missingHeader : Thrown := .zatcaAuthError "Missing Authorization header." 401

def notBearer : Thrown :=
  .zatcaAuthError "Authorization header must be of the form 'Bearer <key>'." 401

def unknownAdminKey : Thrown := .zatcaAuthError "Unknown admin key." 401

def verifyAdminHeader (verify : String → Option String) : Option String → Except Thrown String
  | none | some "" => .error missingHeader
  | some authHeader =>
      match extractBearer authHeader with
      | none => .error notBearer
      | some bearer =>
          match verify bearer with
          | none => .error unknownAdminKey
          | some label => .ok label

/-- The two methods, over the entries that they close over. -/
def adminKeyVerifier (entries : List AdminKeyEntry) : AdminKeyVerifier where
  verify := matchedLabel sha256 entries
  verifyHeader := verifyAdminHeader (matchedLabel sha256 entries)

@[simp] theorem verifyHeader_adminKeyVerifier (entries : List AdminKeyEntry) :
    (adminKeyVerifier sha256 entries).verifyHeader =
      verifyAdminHeader (matchedLabel sha256 entries) := rfl

def createAdminKeyVerifier (rawAdminKeys : String) : Except Thrown AdminKeyVerifier := do
  let entries ← parseAdminKeys rawAdminKeys
  return adminKeyVerifier sha256 entries

end verifier

/-! ### What the list is read into -/

theorem parseEntry_eq_ok {seenLabels : List String} {entry : String} {e : AdminKeyEntry}
    (h : parseEntry seenLabels entry = .ok e) :
    e.key = keyText entry ∧ MIN_KEY_LENGTH ≤ utf16Length e.key ∧ e.label ∉ seenLabels := by
  simp only [parseEntry] at h
  split at h
  · cases h
  · split at h
    · cases h
    · split at h
      · cases h
      · rename_i hlong
        split at h
        · cases h
        · rename_i hnew
          have he := Except.ok.inj h
          subst he
          exact ⟨rfl,Nat.not_lt.1 hlong,hnew⟩

theorem parseEntries_eq_ok {seenLabels entries : List String} {out : List AdminKeyEntry}
    (h : parseEntries seenLabels entries = .ok out) :
    out.map AdminKeyEntry.key = entries.map keyText ∧ (out.map AdminKeyEntry.label).Nodup ∧
      ∀ e ∈ out, MIN_KEY_LENGTH ≤ utf16Length e.key ∧ e.label ∉ seenLabels := by
  induction entries generalizing seenLabels out with
  | nil =>
    cases h
    simp
  | cons entry entries ih =>
    obtain ⟨e,he,hloop⟩ := ok_of_bind h
    obtain ⟨rest,hrest,hout⟩ := ok_of_bind hloop
    have hcons := Except.ok.inj hout
    subst hcons
    obtain ⟨hkey,hlong,hnew⟩ := parseEntry_eq_ok he
    obtain ⟨hkeys,hlabels,hall⟩ := ih hrest
    have hapart : e.label ∉ rest.map AdminKeyEntry.label := by
      intro hm
      obtain ⟨e',he',hsame⟩ := List.mem_map.1 hm
      exact (hall e' he').2 (by simp [hsame])
    refine ⟨by simp [hkey,hkeys],List.nodup_cons.2 ⟨hapart,hlabels⟩,?_⟩
    intro e' he'
    cases he' with
    | head => exact ⟨hlong,hnew⟩
    | tail _ hm =>
      obtain ⟨hl,hn⟩ := hall e' hm
      exact ⟨hl,fun hs => hn (List.mem_cons_of_mem _ hs)⟩

/-- The keys that the text of the list gives. -/
def keyTexts (raw : String) : List String := (rawEntries raw).map keyText

theorem parseAdminKeys_eq_ok {raw : String} {entries : List AdminKeyEntry}
    (h : parseAdminKeys raw = .ok entries) :
    entries.map AdminKeyEntry.key = keyTexts raw ∧ (entries.map AdminKeyEntry.label).Nodup ∧
      ∀ e ∈ entries, MIN_KEY_LENGTH ≤ utf16Length e.key := by
  rw [parseAdminKeys] at h
  split at h
  · cases h
  · obtain ⟨hkeys,hlabels,hall⟩ := parseEntries_eq_ok h
    exact ⟨hkeys,hlabels,fun e he => (hall e he).1⟩

/-- A key that was read has no white space at its ends. -/
theorem trimmed_key {raw : String} {entries : List AdminKeyEntry}
    (h : parseAdminKeys raw = .ok entries) {e : AdminKeyEntry} (he : e ∈ entries) :
    e.key.toList ≠ [] ∧ Trim.Trimmed isJsSpace e.key.toList := by
  obtain ⟨hkeys,-,hlong⟩ := parseAdminKeys_eq_ok h
  constructor
  · intro hnil
    have hlength := hlong e he
    rw [utf16Length,hnil] at hlength
    simp [MIN_KEY_LENGTH] at hlength
  · have hmem : e.key ∈ keyTexts raw := hkeys ▸ List.mem_map_of_mem he
    obtain ⟨entry,-,hentry⟩ := List.mem_map.1 hmem
    rw [← hentry,keyText,trim,String.toList_ofList]
    exact trimmed_trimChars _

/-! ### The scan over the entries -/

section scan
variable {sha256 : List UInt8 → List UInt8} (hsha : Function.Injective sha256)
include hsha

theorem constantTimeEquals_iff (a b : String) : constantTimeEquals sha256 a b = true ↔ a = b := by
  rw [constantTimeEquals,decide_eq_true_eq]
  exact ⟨fun h => utf8_injective (hsha h),fun h => h ▸ rfl⟩

/-- The entry that is scanned last has the last word. -/
theorem matchedLabel_concat (entries : List AdminKeyEntry) (e : AdminKeyEntry) (presented : String) :
    matchedLabel sha256 (entries ++ [e]) presented =
      if presented = e.key then some e.label else matchedLabel sha256 entries presented := by
  simp only [matchedLabel,List.foldl_append,List.foldl_cons,List.foldl_nil,
    constantTimeEquals_iff hsha]

theorem matchedLabel_eq_none {entries : List AdminKeyEntry} {presented : String}
    (h : ∀ e ∈ entries, e.key ≠ presented) : matchedLabel sha256 entries presented = none := by
  induction entries using List.reverseRecOn with
  | nil => rfl
  | append_singleton entries e ih =>
    have hne : presented ≠ e.key := fun heq => h e (by simp) heq.symm
    rw [matchedLabel_concat hsha,if_neg hne]
    exact ih fun e' he' => h e' (List.mem_append_left _ he')

/-- A key of one label is attributed to it. -/
theorem matchedLabel_of_mem {entries : List AdminKeyEntry} {e : AdminKeyEntry} (he : e ∈ entries)
    (h : ∀ e' ∈ entries, e'.key = e.key → e'.label = e.label) :
    matchedLabel sha256 entries e.key = some e.label := by
  induction entries using List.reverseRecOn with
  | nil => cases he
  | append_singleton entries last ih =>
    rw [matchedLabel_concat hsha]
    by_cases hkey : e.key = last.key
    · rw [if_pos hkey,h last (by simp) hkey.symm]
    · rw [if_neg hkey]
      apply ih _ fun e' he' => h e' (List.mem_append_left _ he')
      rcases List.mem_append.1 he with hm | hm
      · exact hm
      · rw [List.mem_singleton] at hm
        exact absurd (congrArg AdminKeyEntry.key hm) hkey

end scan

/-! ### Headers -/

theorem verifyAdminHeader_of_bearer (verify : String → Option String) {header : Option String}
    {bearer : String} (h : header.bind extractBearer = some bearer) :
    verifyAdminHeader verify header = match verify bearer with
      | none => .error unknownAdminKey
      | some label => .ok label := by
  obtain ⟨text,rfl,htext⟩ := Option.bind_eq_some_iff.1 h
  have hne : text ≠ "" := by
    intro hempty
    have hnone : extractBearer "" = none := by decide
    rw [hempty,hnone] at htext
    cases htext
  unfold verifyAdminHeader
  split
  · rename_i heq
    cases heq
  · rename_i heq
    exact absurd (Option.some.inj heq) hne
  · rename_i text' heq
    cases heq
    rw [htext]

theorem verifyAdminHeader_of_none (verify : String → Option String) {header : Option String}
    (h : header.bind extractBearer = none) :
    ∃ message, verifyAdminHeader verify header = .error (.zatcaAuthError message 401) := by
  unfold verifyAdminHeader
  split
  · exact ⟨_,rfl⟩
  · exact ⟨_,rfl⟩
  · rename_i text _
    rw [show extractBearer text = none from h]
    exact ⟨_,rfl⟩

/-- The header of a key: a line within the key ends what the expression reads. -/
theorem verifyAdminHeader_key (verify : String → Option String) {raw : String}
    {entries : List AdminKeyEntry} (h : parseAdminKeys raw = .ok entries) {e : AdminKeyEntry}
    (he : e ∈ entries) {label : String} :
    verifyAdminHeader verify (some ("Bearer " ++ e.key)) = .ok label ↔
      e.key.toList.any isLineTerminator = false ∧ verify e.key = some label := by
  obtain ⟨hne,htrimmed⟩ := trimmed_key h he
  have hbearer := extractBearer_of_trimmed hne htrimmed
  cases hline : e.key.toList.any isLineTerminator with
  | true =>
    rw [hline,if_pos rfl] at hbearer
    have hheader : (some ("Bearer " ++ e.key)).bind extractBearer = none := by
      rw [Option.bind_some,hbearer]
    obtain ⟨message,hthrow⟩ := verifyAdminHeader_of_none verify hheader
    simp [hthrow]
  | false =>
    rw [hline,if_neg (by simp)] at hbearer
    have hheader : (some ("Bearer " ++ e.key)).bind extractBearer = some e.key := by
      rw [Option.bind_some,hbearer]
    rw [verifyAdminHeader_of_bearer verify hheader]
    cases verify e.key with
    | none => simp
    | some found => simp

/-! ### Attribution -/

/-- Every key of the list works and is attributed to its own label, and no other bearer is let
through. -/
structure KeysAttributed (entries : List AdminKeyEntry) (V : AdminKeyVerifier) : Prop where
  works : ∀ e ∈ entries, V.verifyHeader (some ("Bearer " ++ e.key)) = .ok e.label
  refuses : ∀ header, (∀ e ∈ entries, header.bind extractBearer ≠ some e.key) →
    ∃ message, V.verifyHeader header = .error (.zatcaAuthError message 401)

/-- The audit rows of a request carry the label of its key. -/
theorem adminFor_of_key {D : Deps} {entries : List AdminKeyEntry} {V : AdminKeyVerifier}
    (hD : D.adminVerifier = V.verifyHeader) (hV : KeysAttributed entries V) {e : AdminKeyEntry}
    (he : e ∈ entries) : adminFor D (some ("Bearer " ++ e.key)) = .ok (.admin e.label) := by
  rw [adminFor,hD,hV.works e he]
  rfl

theorem createAdminKeyVerifier_eq (sha256 : List UInt8 → List UInt8) {raw : String}
    {entries : List AdminKeyEntry} (h : parseAdminKeys raw = .ok entries) :
    createAdminKeyVerifier sha256 raw = .ok (adminKeyVerifier sha256 entries) := by
  rw [createAdminKeyVerifier,h]
  rfl

/-- A bearer that is no key is refused, whatever the list. -/
theorem verifyAdminHeader_refuses {sha256 : List UInt8 → List UInt8}
    (hsha : Function.Injective sha256) (entries : List AdminKeyEntry) (header : Option String)
    (h : ∀ e ∈ entries, header.bind extractBearer ≠ some e.key) :
    ∃ message, verifyAdminHeader (matchedLabel sha256 entries) header =
      .error (.zatcaAuthError message 401) := by
  cases hb : header.bind extractBearer with
  | none => exact verifyAdminHeader_of_none _ hb
  | some bearer =>
    have hother : ∀ e ∈ entries, e.key ≠ bearer := fun e he hkey => h e he (by rw [hb,hkey])
    rw [verifyAdminHeader_of_bearer _ hb,matchedLabel_eq_none hsha hother]
    exact ⟨_,rfl⟩

/-- The keys that the list gives must differ, since the last of two equal ones takes them all, and
must stand on one line, since the header of another is not read. -/
theorem keysAttributed_iff {sha256 : List UInt8 → List UInt8} (hsha : Function.Injective sha256)
    {raw : String} {entries : List AdminKeyEntry} {V : AdminKeyVerifier}
    (hentries : parseAdminKeys raw = .ok entries) (hV : createAdminKeyVerifier sha256 raw = .ok V) :
    KeysAttributed entries V ↔
      (keyTexts raw).Nodup ∧ ∀ key ∈ keyTexts raw, key.toList.any isLineTerminator = false := by
  rw [createAdminKeyVerifier_eq sha256 hentries] at hV
  have hverifier := Except.ok.inj hV
  subst hverifier
  obtain ⟨hkeys,hlabels,-⟩ := parseAdminKeys_eq_ok hentries
  have hheader : ∀ e ∈ entries,
      verifyAdminHeader (matchedLabel sha256 entries) (some ("Bearer " ++ e.key)) = .ok e.label ↔
        e.key.toList.any isLineTerminator = false ∧
          matchedLabel sha256 entries e.key = some e.label := by
    intro e he
    exact verifyAdminHeader_key (matchedLabel sha256 entries) hentries he
  constructor
  · intro h
    have hworks : ∀ e ∈ entries, e.key.toList.any isLineTerminator = false ∧
        matchedLabel sha256 entries e.key = some e.label := by
      intro e he
      rw [← hheader e he,← verifyHeader_adminKeyVerifier]
      exact h.works e he
    -- Two entries of one key would have one label, and no label stands twice.
    have hsame : ∀ a ∈ entries, ∀ b ∈ entries, a.key = b.key → a = b := by
      intro a ha b hb hkey
      have hla := (hworks a ha).2
      rw [hkey,(hworks b hb).2,Option.some.injEq] at hla
      exact List.inj_on_of_nodup_map hlabels ha hb hla.symm
    constructor
    · rw [← hkeys]
      exact (List.Nodup.of_map _ hlabels).map_on hsame
    · intro key hkey
      rw [← hkeys] at hkey
      obtain ⟨e,he,rfl⟩ := List.mem_map.1 hkey
      exact (hworks e he).1
  · rintro ⟨hnodup,hline⟩
    rw [← hkeys] at hnodup hline
    constructor
    · intro e he
      have hlabel : matchedLabel sha256 entries e.key = some e.label := by
        apply matchedLabel_of_mem hsha he
        intro e' he' hkey
        rw [List.inj_on_of_nodup_map hnodup he' he hkey]
      rw [verifyHeader_adminKeyVerifier,hheader e he]
      exact ⟨hline e.key (List.mem_map_of_mem he),hlabel⟩
    · exact verifyAdminHeader_refuses hsha entries

namespace Sample

def opsKey : String := "k_live_aaaaaaaaaaaaaaaaaaaaaaaaa"
def ciKey : String := "k_live_bbbbbbbbbbbbbbbbbbbbbbbbb"

/-- The digests of the two keys; whatever else is digested is only told apart. -/
def sha256 (bytes : List UInt8) : List UInt8 :=
  if bytes = utf8 opsKey then
    [243,222,222,169,95,242,106,65,141,7,243,95,127,179,117,21,
      235,33,162,216,254,149,59,39,175,124,57,65,152,228,153,71]
  else if bytes = utf8 ciKey then
    [34,167,209,80,135,21,9,185,195,83,0,190,56,178,141,221,
      46,200,67,147,118,177,12,206,60,243,186,147,192,22,193,189]
  else List.replicate 33 0 ++ bytes

theorem sha256_injective : Function.Injective sha256 := by
  have hlong : ∀ (bytes digest : List UInt8), digest.length = 32 →
      List.replicate 33 0 ++ bytes ≠ digest := by
    intro bytes digest hlen heq
    have := congrArg List.length heq
    rw [List.length_append,List.length_replicate] at this
    omega
  intro a b h
  simp only [sha256] at h
  split at h
  · split at h
    · simp_all
    · split at h
      · cases h
      · exact absurd h.symm (hlong _ _ rfl)
  · split at h
    · split at h
      · cases h
      · split at h
        · simp_all
        · exact absurd h.symm (hlong _ _ rfl)
    · split at h
      · exact absurd h (hlong _ _ rfl)
      · split at h
        · exact absurd h (hlong _ _ rfl)
        · exact List.append_cancel_left h

/-- White space around the separators is no part of a label or of a key. -/
def adminKeys : String := "ops:" ++ opsKey ++ " , ci : " ++ ciKey

/-- One key under two labels. -/
def sharedKey : String := "ops:" ++ opsKey ++ ",ci:" ++ opsKey

def sharedEntries : List AdminKeyEntry := [⟨"ops",opsKey⟩,⟨"ci",opsKey⟩]

/-- A key with a line feed inside. -/
def brokenKey : String := "k_live_aaaaaaaaaaaaaaaaaaaaaaaaa\nb"

theorem adminKeys_parsed : parseAdminKeys adminKeys = .ok [⟨"ops",opsKey⟩,⟨"ci",ciKey⟩] := by
  decide +kernel

end Sample

theorem keysAttributed_of_two_keys : KeysAttributed [⟨"ops",Sample.opsKey⟩,⟨"ci",Sample.ciKey⟩]
    (adminKeyVerifier Sample.sha256 [⟨"ops",Sample.opsKey⟩,⟨"ci",Sample.ciKey⟩]) := by
  have hkeys : (keyTexts Sample.adminKeys).Nodup ∧
      ∀ key ∈ keyTexts Sample.adminKeys, key.toList.any isLineTerminator = false := by
    rw [← (parseAdminKeys_eq_ok Sample.adminKeys_parsed).1]
    decide
  exact (keysAttributed_iff Sample.sha256_injective Sample.adminKeys_parsed
    (createAdminKeyVerifier_eq Sample.sha256 Sample.adminKeys_parsed)).2 hkeys

/-- A list is accepted with one key under two labels, and a request of the first is attributed to
the second; and with a key whose own header is refused. -/
theorem keysAttributed_fails_on_a_shared_key :
    (parseAdminKeys Sample.sharedKey = .ok Sample.sharedEntries ∧
      createAdminKeyVerifier Sample.sha256 Sample.sharedKey =
        .ok (adminKeyVerifier Sample.sha256 Sample.sharedEntries) ∧
      (adminKeyVerifier Sample.sha256 Sample.sharedEntries).verifyHeader
        (some ("Bearer " ++ Sample.opsKey)) = .ok "ci" ∧
      ¬ KeysAttributed Sample.sharedEntries (adminKeyVerifier Sample.sha256 Sample.sharedEntries)) ∧
    parseAdminKeys ("ops:" ++ Sample.brokenKey) = .ok [⟨"ops",Sample.brokenKey⟩] ∧
      (adminKeyVerifier Sample.sha256 [⟨"ops",Sample.brokenKey⟩]).verifyHeader
        (some ("Bearer " ++ Sample.brokenKey)) = .error notBearer := by
  have hparsed : parseAdminKeys Sample.sharedKey = .ok Sample.sharedEntries := by decide +kernel
  have hheader : (adminKeyVerifier Sample.sha256 Sample.sharedEntries).verifyHeader
      (some ("Bearer " ++ Sample.opsKey)) = .ok "ci" := by decide +kernel
  refine ⟨⟨hparsed,createAdminKeyVerifier_eq Sample.sha256 hparsed,hheader,?_⟩,?_,?_⟩
  · intro h
    have hops := h.works ⟨"ops",Sample.opsKey⟩ (by simp [Sample.sharedEntries])
    exact absurd (hheader.symm.trans hops) (by decide)
  · decide +kernel
  · decide +kernel

end Zatca
