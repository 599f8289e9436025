import Zatca.Core.SignTimestamp
set_option autoImplicit false

/-! The three places where a signed document says when it was issued. -/

namespace Zatca
open Digits Calendar TagLength

def issueDatePath : List String := ["Invoice","cbc:IssueDate"]
def issueTimePath : List String := ["Invoice","cbc:IssueTime"]

/-- The document has the date and the time as its texts. -/
structure CarriesIssue (doc : XMLDocument) (issueDate issueTime : String) : Prop where
  date : doc.get issueDatePath = some [.str issueDate]
  time : doc.get issueTimePath = some [.str issueTime]

/-- Signing fills in the placeholders of its copy of the document and leaves its other texts. -/
structure KeepsIssue (invoice signed : XMLDocument) : Prop where
  date : signed.get issueDatePath = invoice.get issueDatePath
  time : signed.get issueTimePath = invoice.get issueTimePath

theorem KeepsIssue.self (invoice : XMLDocument) : KeepsIssue invoice invoice := ⟨rfl,rfl⟩

/-- The date and the time of a document in one text. -/
def issueText (doc : XMLDocument) : Option String :=
  match doc.get issueDatePath,doc.get issueTimePath with
  | some [.str date],some [.str time] => some (date ++ "T" ++ time)
  | _,_ => none

/-- The value under a tag of a code. -/
def qrTag (tag : UInt8) (qr : String) : Option (List UInt8) :=
  (read (Base64.decode qr.toList)).bind fun es => (es.find? fun e => e.tag = tag).map Entry.value

/-- The signing time, tag 3 of the code and the texts of the signed document are the same. -/
def TimestampsAgree (signingTime qr : String) (signed : XMLDocument) : Prop :=
  qrTag 3 qr = some (utf8 signingTime) ∧ issueText signed = some signingTime

/-- The day is one of its month, and the hour one of the day. -/
def OnCalendar (issueDate issueTime : String) : Prop :=
  numberAt issueDate.toList 8 2 ≤
      daysInMonth (numberAt issueDate.toList 0 4) (numberAt issueDate.toList 5 2) ∧
    numberAt issueTime.toList 0 2 ≠ 24

/-! ### The code -/

theorem qrTag_timestamp {params : Phase2QRParams} {qr timestamp : String}
    (h : generatePhase2QR params = .ok qr)
    (ht : Phase2QR.readIssueTimestamp params.invoice = .ok timestamp) :
    qrTag 3 qr = some (utf8 timestamp) := by
  rw [generatePhase2QR_eq] at h
  obtain ⟨fields,hfields,h⟩ := ok_of_bind h
  obtain ⟨tlv,htlv,h⟩ := ok_of_bind h
  obtain ⟨sellerName,-,hfields⟩ := ok_of_bind hfields
  obtain ⟨vatNumber,-,hfields⟩ := ok_of_bind hfields
  obtain ⟨read3,hread3,hfields⟩ := ok_of_bind hfields
  obtain ⟨invoiceTotal,-,hfields⟩ := ok_of_bind hfields
  obtain ⟨vatTotal,-,hfields⟩ := ok_of_bind hfields
  obtain rfl := Except.ok.inj hfields
  obtain rfl : read3 = timestamp := Except.ok.inj (hread3.symm.trans ht)
  obtain ⟨es,hes,htags,hvalues⟩ := createTLV_short (short_of_createTLV htlv)
  obtain rfl : encode es = tlv := Except.ok.inj (hes.symm.trans htlv)
  obtain rfl : String.ofList (Base64.encode (encode es)) = qr := Except.ok.inj h
  rw [qrTag,String.toList_ofList,Base64.decode_encode,read_encode,Option.bind_some]
  rcases es with _ | ⟨e1,_ | ⟨e2,_ | ⟨e3,rest⟩⟩⟩
  · simp at hvalues
  · simp at hvalues
  · simp at hvalues
  · have h1 : e1.tag = 1 := List.head_eq_of_cons_eq htags
    have htags2 := List.tail_eq_of_cons_eq htags
    have h2 : e2.tag = 2 := List.head_eq_of_cons_eq htags2
    have h3 : e3.tag = 3 := List.head_eq_of_cons_eq (List.tail_eq_of_cons_eq htags2)
    have hvalue : e3.value = utf8 read3 :=
      List.head_eq_of_cons_eq (List.tail_eq_of_cons_eq (List.tail_eq_of_cons_eq hvalues))
    simp [h1,h2,h3,hvalue]

theorem readLeaf_text {invoice : XMLDocument} {path : List String} {label text : String}
    (h : invoice.get path = some [.str text]) : Phase2QR.readLeaf invoice path label = .ok text := by
  rw [Phase2QR.readLeaf,h]

/-- Nothing is dropped of a time of digits. -/
theorem dropThroughT_time {cs : List Char} (h : 'T' ∉ cs) : dropThroughT cs = cs := by
  rw [dropThroughT]
  exact if_neg fun hT => h ((List.takeWhile_sublist _).subset hT)

/-! ### The document -/

theorem Width.not_mem {n : Nat} {ds : List Char} {c : Char} (h : Width n ds) (hc : c.isDigit = false) :
    c ∉ ds := fun hmem => Bool.false_ne_true (hc.symm.trans (h.2 c hmem))

theorem getLast?_issueTime {text : String} (h : shaped "dd:dd:ddZ" text = true) :
    text.toList.getLast? = some 'Z' := by
  obtain ⟨hour,minute,second,htext,-⟩ := time_digits h
  have hsplit : text.toList = (hour ++ ':' :: (minute ++ ':' :: second)) ++ ['Z'] := by
    simp [htext]
  rw [hsplit,List.getLast?_concat]

/-- The schema's time ends in its designator once. -/
theorem shaped_ensureZatcaTimeZ {issueTime : String}
    (h : issueTimeSchema (some (.str issueTime)) = true) :
    shaped "dd:dd:ddZ" (ensureZatcaTimeZ issueTime) = true := by
  have hshapes : shaped "dd:dd:dd" issueTime = true ∨ shaped "dd:dd:ddZ" issueTime = true := by
    simpa [issueTimeSchema,Schema.string] using h
  rw [ensureZatcaTimeZ]
  rcases hshapes with hbare | hfull
  · have hm : Matches (List.replicate 2 'd' ++ ':' :: (List.replicate 2 'd' ++ ':' ::
        (List.replicate 2 'd' ++ []))) issueTime.toList := matches_of_shaped hbare (by decide)
    obtain ⟨hour,minute,second,rest,h1,hhour,hminute,hsecond,hnil⟩ := clock_digits hm
    obtain rfl := matches_nil hnil
    have hbareZ : issueTime.toList.getLast? ≠ some 'Z' := by
      intro hlast
      have hmem := List.mem_of_getLast? hlast
      simp [h1,hhour.not_mem,hminute.not_mem,hsecond.not_mem] at hmem
    have hend : Matches ['Z'] ['Z'] := .literal (by decide) ⟨rfl,rfl⟩
    have htext : (issueTime ++ "Z").toList =
        hour ++ ':' :: (minute ++ ':' :: (second ++ ['Z'])) := by
      simp [h1]
    rw [if_neg hbareZ]
    have hshape : "dd:dd:ddZ".toList = List.replicate 2 'd' ++ ':' :: (List.replicate 2 'd' ++ ':' ::
        (List.replicate 2 'd' ++ ['Z'])) := by decide
    refine shaped_of_matches hshape ?_
    rw [htext]
    exact .digits hhour (.literal (by decide) (.digits hminute (.literal (by decide)
      (.digits hsecond hend))))
  · rw [if_pos (getLast?_issueTime hfull)]
    exact hfull

theorem dropThroughT_issueTime {text : String} (h : shaped "dd:dd:ddZ" text = true) :
    dropThroughT text.toList = text.toList := by
  obtain ⟨hour,minute,second,htext,hhour,hminute,hsecond⟩ := time_digits h
  refine dropThroughT_time ?_
  rw [htext]
  simp [hhour.not_mem,hminute.not_mem,hsecond.not_mem]

/-- What the code reads of a document that carries the date and the time. -/
theorem readIssueTimestamp_eq_text {invoice : XMLDocument} {issueDate issueTime : String}
    (hc : CarriesIssue invoice issueDate issueTime) (h : shaped "dd:dd:ddZ" issueTime = true) :
    Phase2QR.readIssueTimestamp invoice = .ok (issueDate ++ "T" ++ issueTime) := by
  have hz : endsWithZ issueTime = true := decide_eq_true (getLast?_issueTime h)
  have hread : Phase2QR.readIssueTimestamp invoice = .ok (issueDate ++ "T" ++
      String.ofList (dropThroughT (if endsWithZ issueTime then issueTime else issueTime ++ "Z").toList)) := by
    have hdate : Phase2QR.readLeaf invoice ["Invoice","cbc:IssueDate"] "IssueDate" = .ok issueDate :=
      readLeaf_text hc.date
    have htime : Phase2QR.readLeaf invoice ["Invoice","cbc:IssueTime"] "IssueTime" = .ok issueTime :=
      readLeaf_text hc.time
    rw [Phase2QR.readIssueTimestamp,hdate,htime]
    rfl
  rw [hread,if_pos hz,dropThroughT_issueTime h,String.ofList_toList]

theorem signTimestamp_eq {invoice : XMLDocument} {issueDate issueTime : String}
    (hc : CarriesIssue invoice issueDate issueTime) (other : String → Option Date) (now : Date) :
    signTimestamp other now invoice = formatSignTimestamp other (.inr (issueDate ++ "T" ++ issueTime)) := by
  have hdate := hc.date
  have htime := hc.time
  rw [issueDatePath] at hdate
  rw [issueTimePath] at htime
  rw [signTimestamp,hdate,htime]
  rfl

/-- The hour of a time is the same with its designator. -/
theorem numberAt_ensureZatcaTimeZ {issueTime : String} {hour rest : List Char} (hw : Width 2 hour)
    (h : (ensureZatcaTimeZ issueTime).toList = hour ++ (rest ++ ['Z'])) :
    numberAt issueTime.toList 0 2 = value hour := by
  rw [ensureZatcaTimeZ] at h
  split at h
  · rw [h]
    exact numberAt_here _ hw
  · have htext : issueTime.toList ++ ['Z'] = (hour ++ rest) ++ ['Z'] := by
      rw [List.append_assoc,← h,String.toList_append]
      rfl
    rw [List.append_cancel_right htext]
    exact numberAt_here _ hw

theorem onCalendar_iff {issueDate issueTime : String} {year month day hour rest : List Char}
    (hdate : issueDate.toList = year ++ '-' :: (month ++ '-' :: day))
    (htime : (ensureZatcaTimeZ issueTime).toList = hour ++ (rest ++ ['Z'])) (hyear : Width 4 year)
    (hmonth : Width 2 month) (hday : Width 2 day) (hhour : Width 2 hour) :
    OnCalendar issueDate issueTime ↔
      value day ≤ daysInMonth (value year) (value month) ∧ value hour ≠ 24 := by
  have hy : numberAt issueDate.toList 0 4 = value year := by
    rw [hdate]
    exact numberAt_here _ hyear
  have hm : numberAt issueDate.toList 5 2 = value month := by
    rw [hdate]
    exact (numberAt_skip _ hyear 1 2).trans (numberAt_here _ hmonth)
  have hd : numberAt issueDate.toList 8 2 = value day := by
    have hend := numberAt_here [] hday
    rw [List.append_nil] at hend
    rw [hdate]
    exact (numberAt_skip _ hyear 4 2).trans ((numberAt_cons _ _ 3 2).trans
      ((numberAt_skip _ hmonth 1 2).trans hend))
  rw [OnCalendar,hy,hm,hd,numberAt_ensureZatcaTimeZ hhour htime]

/-- The places agree exactly when the date and the time that the schema accepted are on the
calendar. -/
theorem timestamps_agree_iff (other : String → Option Date) {issueDate issueTime : String}
    (hdate : issueDateSchema (some (.str issueDate)) = true)
    (htime : issueTimeSchema (some (.str issueTime)) = true) {params : Phase2QRParams}
    (hc : CarriesIssue params.invoice issueDate (ensureZatcaTimeZ issueTime)) {signed : XMLDocument}
    (hkeeps : KeepsIssue params.invoice signed) {now : Date} {qr signingTime : String}
    (hqr : generatePhase2QR params = .ok qr)
    (hsign : signTimestamp other now params.invoice = .ok signingTime) :
    TimestampsAgree signingTime qr signed ↔ OnCalendar issueDate issueTime := by
  have hshape := shaped_ensureZatcaTimeZ htime
  have htag := qrTag_timestamp hqr (readIssueTimestamp_eq_text hc hshape)
  have htext : issueText signed = some (issueDate ++ "T" ++ ensureZatcaTimeZ issueTime) := by
    rw [issueText,hkeeps.date,hkeeps.time,hc.date,hc.time]
  rw [signTimestamp_eq hc] at hsign
  have hagree : TimestampsAgree signingTime qr signed ↔
      signingTime = issueDate ++ "T" ++ ensureZatcaTimeZ issueTime := by
    rw [TimestampsAgree,htag,htext]
    constructor
    · rintro ⟨-,he⟩
      exact (Option.some.inj he).symm
    · rintro rfl
      exact ⟨rfl,rfl⟩
  obtain ⟨year,month,day,hd,hyear,hmonth,hday⟩ := date_digits (by
    simpa [issueDateSchema,Schema.string] using hdate)
  obtain ⟨hour,minute,second,ht,hhour,hminute,hsecond⟩ := time_digits hshape
  have hstamp : (issueDate ++ "T" ++ ensureZatcaTimeZ issueTime).toList =
      stamp year month day hour minute second := by
    rw [String.toList_append,String.toList_append,hd,ht,stamp]
    simp
  have hrest : (ensureZatcaTimeZ issueTime).toList =
      hour ++ ((':' :: (minute ++ ':' :: second)) ++ ['Z']) := by
    rw [ht]
    simp
  rw [hagree,onCalendar_iff hd hrest hyear hmonth hday hhour]
  exact formatSignTimestamp_eq_iff hyear hmonth hday hhour hminute hsecond other hstamp hsign

namespace Sample

/-- A document of the date and the time, and what its code is made of. -/
def issuedAt (issueDate issueTime : String) : Phase2QRParams where
  invoice := ⟨.obj [("Invoice",.obj [("cbc:IssueDate",.str issueDate),("cbc:IssueTime",.str issueTime),
    ("cac:AccountingSupplierParty",.obj [("cac:Party",.obj [
      ("cac:PartyTaxScheme",.obj [("cbc:CompanyID",.str "301234567890003")]),
      ("cac:PartyLegalEntity",.obj [("cbc:RegistrationName",.str "Acme LLC")])])]),
    ("cac:TaxTotal",.arr [.obj [("cbc:TaxAmount",sar (.str "15.00"))]]),
    ("cac:LegalMonetaryTotal",.obj [("cbc:TaxInclusiveAmount",sar (.str "115.00"))])])]⟩
  invoiceHash := "aGFzaA=="
  digitalSignature := "c2ln"
  publicKey := [4,1,2]
  certificateSignature := [48,3]

theorem carries_issuedAt (issueDate issueTime : String) :
    CarriesIssue (issuedAt issueDate issueTime).invoice issueDate issueTime := ⟨rfl,rfl⟩

end Sample

set_option maxRecDepth 4000 in
theorem timestamps_agree_sample : ∃ qr signingTime,
    generatePhase2QR (Sample.issuedAt "2024-02-29" "23:59:59Z") = .ok qr ∧
    signTimestamp (fun _ => none) ⟨0⟩ (Sample.issuedAt "2024-02-29" "23:59:59Z").invoice =
      .ok signingTime ∧
    TimestampsAgree signingTime qr (Sample.issuedAt "2024-02-29" "23:59:59Z").invoice := by
  have hdate : issueDateSchema (some (.str "2024-02-29")) = true := by decide
  have htime : issueTimeSchema (some (.str "23:59:59Z")) = true := by decide
  have hcalendar : OnCalendar "2024-02-29" "23:59:59Z" := by
    unfold OnCalendar
    decide
  have hsign : signTimestamp (fun _ => none) ⟨0⟩ (Sample.issuedAt "2024-02-29" "23:59:59Z").invoice =
      .ok "2024-02-29T23:59:59Z" := rfl
  exact ⟨_,_,rfl,hsign,(timestamps_agree_iff (fun _ => none) hdate htime
    (Sample.carries_issuedAt "2024-02-29" "23:59:59Z")
    (.self (Sample.issuedAt "2024-02-29" "23:59:59Z").invoice) rfl hsign).2 hcalendar⟩

set_option maxRecDepth 4000 in
/-- A document of 30 February is signed on 1 March. -/
theorem timestamps_disagree : ¬ ∀ (issueDate issueTime : String),
    issueDateSchema (some (.str issueDate)) = true → issueTimeSchema (some (.str issueTime)) = true →
    ∀ params : Phase2QRParams,
      CarriesIssue params.invoice issueDate (ensureZatcaTimeZ issueTime) →
      ∀ signed, KeepsIssue params.invoice signed → ∀ now qr signingTime,
        generatePhase2QR params = .ok qr →
        signTimestamp (fun _ => none) now params.invoice = .ok signingTime →
        TimestampsAgree signingTime qr signed := by
  intro hall
  have h := hall "2024-02-30" "12:00:00" (by decide) (by decide)
    (Sample.issuedAt "2024-02-30" "12:00:00Z") (Sample.carries_issuedAt _ _) _
    (.self _) ⟨0⟩ _ "2024-03-01T12:00:00Z" rfl rfl
  exact absurd h.2 (by decide)

end Zatca
