import Zatca.Core.Issue
import Zatca.Core.Phase1Filled
import Zatca.Core.Populated
import Zatca.Library.XmlParser
set_option autoImplicit false
namespace Zatca
open Xml Xml.Content Placeholder

/-! ### What the produced text is expected to be read as -/

/-- What an input may have or lack, and how many lines it has. -/
structure OptionalParts where
  hasCancelation : Bool
  hasBuyer : Bool
  lines : Nat

def InvoiceInput.optionalParts (input : InvoiceInput) : OptionalParts where
  hasCancelation := input.cancelation.isSome
  hasBuyer := input.buyerName.any fun buyerName => buyerName ≠ ""
  lines := input.lineItems.length

/-- The elements that carry a field of the input, with the field. -/
def Form.ownElements (f : Form) (input : InvoiceInput) : List (Path × String) :=
  (f.places.filter Slot.isText).map (fun s => (s.path,s.value input f.fallback)) ++
    input.cancelation.toList.map (fun c => (billingPath,toString c.canceledInvoiceNumber)) ++
    if f.hasBuyerPlace then
      (input.buyerName.toList.filter (· ≠ "")).map fun buyerName => (customerPath,buyerName)
    else []

/-- The places as they are when every field is empty. -/
def Form.blank (f : Form) (parts : OptionalParts) : Slot → Content Empty
  | .billingReference =>
    if parts.hasCancelation then billingReferenceContent.fill fun _ => nil else nil
  | .buyerInfo =>
    if f.hasBuyerPlace && parts.hasBuyer then buyerContent.fill fun _ => nil else nil
  | _ => nil

namespace Phase1

def documentSlots : List DocumentSlot :=
  [.invoiceSerialNumber,.issueDate,.issueTime,.typeCode,.vatName,.vatNumber,.street,.building,
    .cityName,.postalZone,.buyerName,.vatAmount,.subtotal,.total]

def lineSlots : List LineSlot := [.id,.quantity,.lineTotal,.name,.price]

def Form.ownElements (f : Form) (input : InvoiceInput) : List (Path × String) :=
  documentSlots.map (fun s =>
      (s.path,documentValue f.typeCode (f.billingReference input) input s)) ++
    (if f.isCreditNote then [(billingPath,originalInvoiceNumber input)] else []) ++
    (input.lineItems.mapIdx fun index item => lineSlots.map fun s =>
      (invoicePath ((cac "InvoiceLine",index) :: s.path),lineValue item index s)).flatten

def Form.blank (f : Form) (parts : OptionalParts) : DocumentSlot → Content Empty
  | .billingReference => if f.isCreditNote then billingContent.fill fun _ => nil else nil
  | .linesXml => filledLines (List.replicate parts.lines fun _ => [])
  | _ => nil

end Phase1

/-- Which of the two ways a document of the kind is made. -/
def InvoiceKind.phase1Form : InvoiceKind → Option Phase1.Form
  | phase1Invoice => some ⟨"388",false⟩
  | phase1CreditNote => some ⟨"381",true⟩
  | _ => none

/-- The Phase 1 constructors complete the issue time, the six functions take the input as it is. -/
def ownElements (kind : InvoiceKind) (input : InvoiceInput) : List (Path × String) :=
  match kind.phase1Form with
  | some f => f.ownElements (Phase1Builder.new input).input
  | none => kind.form.ownElements input

/-- Names, attributes and nesting, given by the kind and the optional parts only. -/
def shapeOf (kind : InvoiceKind) (parts : OptionalParts) : Elements :=
  match kind.phase1Form with
  | some f =>
    ((⟨[],Phase1.documentBody.fill (f.blank parts)⟩ : Document).elements trimChars).shape
  | none => ((⟨['\n'],kind.form.body.fill (kind.form.blank parts)⟩ : Document).elements trimChars).shape

/-- Every field is read in its own element, and around the fields stands what stands there for
every other input with the same parts. -/
def FilledIn (parse : String → Option Elements) (kind : InvoiceKind) (input : InvoiceInput) : Prop :=
  ∃ es, parse (producedXml kind input) = some es ∧
    es.shape = shapeOf kind input.optionalParts ∧
    ∀ e ∈ ownElements kind input, es.textAt e.1 = some (trimChars e.2.toList)

/-! ### The inputs that are carried -/

/-- Every value is character data, asks for no expansion and holds no placeholder that is filled
later and stands behind. -/
structure Form.Carries (f : Form) (input : InvoiceInput) : Prop where
  charData : ∀ s : Slot, s.isText = true → CharData (s.value input f.fallback).toList
  noPattern : ∀ s : Slot, s.isText = true → NoPattern (s.value input f.fallback).toList
  unexposed : ∀ u s : Slot, u.isText = true → f.Exposes u s →
    ¬ s.token <:+: (u.value input f.fallback).toList
  buyer : f.hasBuyerPlace = true → ∀ buyerName ∈ input.buyerName,
    CharData buyerName.toList ∧ NoPattern buyerName.toList

/-- The texts that a Phase 1 document prints. -/
def Phase1.printedTexts (input : InvoiceInput) : List String :=
  [input.invoiceSerialNumber,input.issueDate,input.issueTime,input.egsInfo.vatName,
    input.egsInfo.vatNumber,input.egsInfo.location.street,input.egsInfo.location.building,
    input.egsInfo.location.cityName,input.egsInfo.location.postalZone] ++
    input.buyerName.toList ++ input.lineItems.map (·.name)

def Carries (kind : InvoiceKind) (input : InvoiceInput) : Prop :=
  if kind.isPhase1 then ∀ value ∈ Phase1.printedTexts input, CharData value.toList
  else kind.form.Carries input

/-! ### The six functions -/

/-- The declaration is passed over on the way into the document. -/
theorem textAt_document (d : Document) (path : Path) :
    (d.elements trimChars).textAt (invoicePath path) =
      (Elements.follow (invoicePath path) (d.body.read trimChars)).map Prod.fst := by
  have hne : ¬ "?xml".toList = "Invoice".toList := by decide
  have hfind : (d.elements trimChars).find "Invoice".toList 0 =
      (d.body.elements trimChars).find "Invoice".toList 0 := if_neg hne
  rw [Elements.textAt,invoicePath,Elements.follow,Elements.follow,hfind]
  rfl

theorem read_text (v : List Char) : (text v nil).read trimChars = (trimChars v,.nil) := by
  simp [Content.read,chars,elements]

/-- What a fragment with one value is read as. -/
theorem follow_fragment {c : Content Unit} {path : Path}
    (h : c.slotAt (fun _ => []) path = some ()) (value : List Char) :
    Elements.follow path ((c.fill fun _ => text value nil).read trimChars) =
      some (trimChars value,.nil) := by
  rw [follow_slot (fun _ => by simp [elements,Elements.names]) h,read_text]

section sixFunctions

variable {kind : InvoiceKind} {input : InvoiceInput} {shown : Slot → List Char}

theorem textAt_slot {s : Slot} (hs : s ∈ kind.form.places) (ht : s.isText = true) :
    ((populatedDocument kind.form input shown).elements trimChars).textAt s.path =
      some (trimChars (shown s)) := by
  obtain ⟨path,hpath⟩ : ∃ path, s.path = invoicePath path := by
    cases s <;> exact ⟨_,rfl⟩
  have hslot := (form_sound kind).path s hs ht
  have hbody : (populatedDocument kind.form input shown).body =
    kind.form.body.fill (filler kind.form input shown) := rfl
  rw [hpath] at hslot ⊢
  rw [textAt_document,hbody,follow_slot (filler_adds kind.form input shown) hslot,
    filler_text _ _ _ ht,read_text]
  rfl

theorem textAt_billing {c : ZATCAInvoiceCancelation} (hc : input.cancelation = some c) :
    ((populatedDocument kind.form input shown).elements trimChars).textAt billingPath =
      some (trimChars (toString c.canceledInvoiceNumber).toList) := by
  have hfiller : filler kind.form input shown .billingReference =
      billingReferenceContent.fill fun _ => text (toString c.canceledInvoiceNumber).toList nil := by
    simp only [filler,hc]
  have hpath : billingReferenceContent.slotAt (fun _ => [])
      [(cac "BillingReference",0),(cac "InvoiceDocumentReference",0),(cbc "ID",0)] = some () := by
    decide
  have hfollow := follow_fragment hpath (toString c.canceledInvoiceNumber).toList
  rw [← hfiller] at hfollow
  have := follow_contributor (filler_adds kind.form input shown) (form_sound kind).billing hfollow
  rw [billingPath,textAt_document]
  exact congrArg (Option.map Prod.fst) this

theorem textAt_customer (hplace : kind.form.hasBuyerPlace = true) {buyerName : String}
    (hname : input.buyerName = some buyerName) (hne : buyerName ≠ "") :
    ((populatedDocument kind.form input shown).elements trimChars).textAt customerPath =
      some (trimChars buyerName.toList) := by
  have hfiller : filler kind.form input shown .buyerInfo =
      buyerContent.fill fun _ => text buyerName.toList nil := by
    simp only [filler,hname,hplace,if_neg hne]
  have hpath : buyerContent.slotAt (fun _ => [])
      [(cac "Party",0),(cac "PartyLegalEntity",0),(cbc "RegistrationName",0)] = some () := by
    decide
  have hfollow := follow_fragment hpath buyerName.toList
  rw [← hfiller] at hfollow
  have := follow_contributor (filler_adds kind.form input shown)
    ((form_sound kind).customer hplace) hfollow
  rw [customerPath,textAt_document]
  exact congrArg (Option.map Prod.fst) this

theorem populatedDocument_shape : ((populatedDocument kind.form input shown).elements trimChars).shape =
    ((⟨['\n'],kind.form.body.fill (kind.form.blank input.optionalParts)⟩ : Document).elements
      trimChars).shape := by
  have hslot : ∀ s, ((filler kind.form input shown s).elements trimChars).shape =
      ((kind.form.blank input.optionalParts s).elements trimChars).shape := by
    intro s
    cases s with
    | billingReference =>
      cases hc : input.cancelation with
      | none => simp [filler,Form.blank,InvoiceInput.optionalParts,hc]
      | some c =>
        simp only [filler,Form.blank,InvoiceInput.optionalParts,hc,Option.isSome_some,if_true]
        exact shape_fill trimChars billingReferenceContent fun _ => rfl
    | buyerInfo =>
      cases hname : input.buyerName with
      | none => simp [filler,Form.blank,InvoiceInput.optionalParts,hname]
      | some buyerName =>
        cases hplace : kind.form.hasBuyerPlace with
        | false => simp [filler,Form.blank,hname,hplace]
        | true =>
          by_cases hempty : buyerName = ""
          · simp [filler,Form.blank,InvoiceInput.optionalParts,hname,hplace,hempty]
          · simp only [filler,Form.blank,InvoiceInput.optionalParts,hname,hplace,hempty,if_false,
              Option.any_some,ne_eq,not_false_eq_true,decide_true,Bool.and_self,if_true]
            exact shape_fill trimChars buyerContent fun _ => rfl
    | _ => rfl
  simp only [Document.elements,Elements.shape,populatedDocument]
  rw [shape_fill trimChars kind.form.body hslot]

/-- What is read after the six functions, when `shown` stands in the places. -/
theorem parse_populated {parse : String → Option Elements}
    (hparse : Reads trimChars fun cs => parse (String.ofList cs)) (hkind : kind.isPhase1 = false)
    (hexpand : ∀ s : Slot, s.isText = true → ∀ found before after,
      expand found before after false (s.value input kind.form.fallback).toList = shown s)
    (hdata : ∀ s : Slot, s.isText = true → CharData (shown s))
    (hexposed : ∀ u s : Slot, u.isText = true → kind.form.Exposes u s → ¬ s.token <:+: shown u)
    (hbuyer : kind.form.hasBuyerPlace = true → ∀ buyerName ∈ input.buyerName,
      CharData buyerName.toList ∧ NoPattern buyerName.toList) :
    parse (producedXml kind input) =
      some ((populatedDocument kind.form input shown).elements trimChars) := by
  have htext := populated_toList hkind hexpand hexposed fun hplace buyerName hname =>
    (hbuyer hplace buyerName hname).2
  have hread := hparse (populatedDocument kind.form input shown)
    (populatedDocument_wellFormed hdata fun hplace buyerName hname =>
      (hbuyer hplace buyerName hname).1)
  have hprint : (populatedDocument kind.form input shown).print =
      (producedXml kind input).toList := htext.symm
  simpa only [hprint,String.ofList_toList] using hread

end sixFunctions

/-! ### The two builders -/

theorem charData_concat {cs : List Char} (h : CharData cs) {c : Char} (hc : isPlain c = true)
    (hend : c ≠ '>') : CharData (cs ++ [c]) where
  plain d hd := by
    rcases List.mem_append.1 hd with hd | hd
    · exact h.plain d hd
    · exact List.mem_singleton.1 hd ▸ hc
  noSectionEnd hs := by
    rcases List.infix_concat_iff.1 hs with hsuffix | hin
    · rcases List.suffix_concat_iff.1 hsuffix with hnil | ⟨t,ht,-⟩
      · cases hnil
      · have hlast := congrArg List.getLast? ht
        rw [List.getLast?_concat] at hlast
        exact hend (Option.some.inj hlast).symm
    · exact h.noSectionEnd hin

theorem charData_ensureZatcaTimeZ {time : String} (h : CharData time.toList) :
    CharData (ensureZatcaTimeZ time).toList := by
  rw [ensureZatcaTimeZ]
  split
  · exact h
  · rw [String.toList_append]
    exact charData_concat h (by decide) (by decide)

namespace Phase1

variable {f : Form} {input : InvoiceInput}

theorem originalInvoiceNumber_charData : CharData (originalInvoiceNumber input).toList := by
  rw [originalInvoiceNumber]
  cases input.cancelation with
  | none => exact charData_of_forall (by simp)
  | some c => exact Zatca.charData_toString c.canceledInvoiceNumber

theorem documentValue_charData (hcode : CharData f.typeCode.toList)
    (h : ∀ value ∈ printedTexts input, CharData value.toList) {s : DocumentSlot}
    (hs : s.isText = true) :
    CharData (documentValue f.typeCode (f.billingReference input) input s).toList := by
  cases s with
  | typeCode => exact hcode
  | buyerName =>
    simp only [documentValue]
    cases hname : input.buyerName with
    | none => exact charData_of_forall (forall_mem_of_all (by decide))
    | some buyerName => exact h buyerName (by simp [printedTexts,hname])
  | vatAmount => exact Number.charData_toFixed _ _
  | subtotal => exact Number.charData_toFixed _ _
  | total => exact Number.charData_toFixed _ _
  | billingReference => cases hs
  | linesXml => cases hs
  | _ => exact h _ (by simp [printedTexts,documentValue])

theorem lineValues_charData (h : ∀ value ∈ printedTexts input, CharData value.toList) :
    ∀ values ∈ lineValues input.lineItems, ∀ s, CharData (values s) := by
  intro values hvalues s
  obtain ⟨i,hi,rfl⟩ := List.mem_mapIdx.1 hvalues
  cases s with
  | id => exact Zatca.charData_toString _
  | quantity => exact Number.charData_toString _
  | lineTotal => exact Number.charData_toFixed _ _
  | price => exact Number.charData_toFixed _ _
  | name =>
    refine h _ ?_
    simp only [printedTexts,List.mem_append,List.mem_map]
    exact .inr ⟨_,List.getElem_mem hi,rfl⟩

theorem filledDocument_wellFormed (hcode : CharData f.typeCode.toList)
    (h : ∀ value ∈ printedTexts input, CharData value.toList) :
    (filledDocument f input).WellFormed where
  lead := by simp [filledDocument]
  body := by
    refine wellFormed_fill (fun s hs => ⟨_,filler_text f input hs,documentValue_charData hcode h hs⟩)
      (fun s hs => ?_) document_template
    cases s with
    | billingReference =>
      simp only [filler]
      split
      · exact fragment_wellFormed billing_template originalInvoiceNumber_charData
      · exact wellFormed_nil
    | linesXml => exact filledLines_wellFormed (lineValues_charData h)
    | _ => cases hs
  blank := by simp [filledDocument,documentBody,Ubl.line,fill,chars,isBlank]
  root := ⟨_,_,_,_,rfl⟩

theorem filler_adds (s : DocumentSlot) :
    ∀ n ∈ ((filler f input s).elements trimChars).names, n ∈ s.adds := by
  cases s with
  | billingReference =>
    simp only [filler]
    split
    · simp [billingContent,Ubl.line,Ubl.party,fill,elements,Elements.names,DocumentSlot.adds]
    · simp [elements,Elements.names]
  | linesXml => exact names_filledLines _
  | _ => simp [filler,elements,Elements.names]

theorem textAt_slot {s : DocumentSlot} (ht : s.isText = true) :
    ((filledDocument f input).elements trimChars).textAt s.path =
      some (trimChars (documentValue f.typeCode (f.billingReference input) input s).toList) := by
  obtain ⟨path,hpath⟩ : ∃ path, s.path = invoicePath path := by
    cases s <;> exact ⟨_,rfl⟩
  have hslot := document_path s ht
  have hbody : (filledDocument f input).body = documentBody.fill (filler f input) := rfl
  rw [hpath] at hslot ⊢
  rw [textAt_document,hbody,follow_slot filler_adds hslot,filler_text f input ht,read_text]
  rfl

theorem textAt_billing (hf : f.isCreditNote = true) :
    ((filledDocument f input).elements trimChars).textAt billingPath =
      some (trimChars (originalInvoiceNumber input).toList) := by
  have hfiller : filler f input .billingReference =
      billingContent.fill fun _ => text (originalInvoiceNumber input).toList nil := by
    simp only [filler,hf,if_true]
  have hpath : billingContent.slotAt (fun _ => [])
      [(cac "BillingReference",0),(cac "InvoiceDocumentReference",0),(cbc "ID",0)] = some () := by
    decide
  have hfollow := follow_fragment hpath (originalInvoiceNumber input).toList
  rw [← hfiller] at hfollow
  have := follow_contributor filler_adds document_fragment.1 hfollow
  rw [billingPath,textAt_document]
  exact congrArg (Option.map Prod.fst) this

theorem textAt_line {i : Nat} {item : ZATCAInvoiceLineItem} (hi : input.lineItems[i]? = some item)
    (s : LineSlot) : ((filledDocument f input).elements trimChars).textAt
      (invoicePath ((cac "InvoiceLine",i) :: s.path)) =
        some (trimChars (lineValue item i s).toList) := by
  have hvalues : (lineValues input.lineItems)[i]? =
      some fun s => (lineValue item i s).toList := by
    simp [lineValues,hi]
  have hline : Elements.follow ((cac "InvoiceLine",i) :: s.path)
      ((filler f input .linesXml).read trimChars) =
        some (trimChars (lineValue item i s).toList,.nil) := by
    have hfind : ((filler f input .linesXml).read trimChars).2.find (cac "InvoiceLine") i = some _ :=
      find_filledLines hvalues
    rw [Elements.follow,hfind,Option.bind_some,
      follow_slot (fun _ => by simp [elements,Elements.names]) (line_path s),read_text]
  have := follow_contributor filler_adds document_fragment.2 hline
  rw [textAt_document]
  exact congrArg (Option.map Prod.fst) this

theorem filledDocument_shape : ((filledDocument f input).elements trimChars).shape =
    ((⟨[],documentBody.fill (f.blank input.optionalParts)⟩ : Document).elements trimChars).shape := by
  have hslot : ∀ s, ((filler f input s).elements trimChars).shape =
      ((f.blank input.optionalParts s).elements trimChars).shape := by
    intro s
    cases s with
    | billingReference =>
      simp only [filler,Form.blank]
      split
      · exact shape_fill trimChars billingContent fun _ => rfl
      · rfl
    | linesXml => exact shape_filledLines (by simp [lineValues,InvoiceInput.optionalParts])
    | _ => rfl
  simp only [Document.elements,Elements.shape,filledDocument]
  rw [shape_fill trimChars documentBody hslot]

end Phase1

theorem producedXml_phase1 {kind : InvoiceKind} {f : Phase1.Form} (hf : kind.phase1Form = some f)
    (input : InvoiceInput) : (producedXml kind input).toList =
      (Phase1.filledDocument f (Phase1Builder.new input).input).print ∧
        CharData f.typeCode.toList := by
  cases kind with
  | phase1Invoice =>
    cases hf
    refine ⟨?_,charData_of_forall (forall_mem_of_all (by decide))⟩
    rw [← Phase1.filledDocument_print,producedXml,Phase1InvoiceBuilder.invoiceXml,
      Phase1.Form.billingReference,if_neg Bool.false_ne_true]
  | phase1CreditNote =>
    cases hf
    refine ⟨?_,charData_of_forall (forall_mem_of_all (by decide))⟩
    rw [← Phase1.filledDocument_print,producedXml,Phase1CreditNoteBuilder.invoiceXml,
      Phase1.Form.billingReference,if_pos rfl]
  | _ => cases hf

/-! ### The whole -/

theorem parse_phase1 {parse : String → Option Elements}
    (hparse : Reads trimChars fun cs => parse (String.ofList cs)) {kind : InvoiceKind}
    {f : Phase1.Form} (hf : kind.phase1Form = some f) {input : InvoiceInput}
    (h : ∀ value ∈ Phase1.printedTexts input, CharData value.toList) :
    parse (producedXml kind input) = some ((Phase1.filledDocument f
      (Phase1Builder.new input).input).elements trimChars) := by
  have hproduced := producedXml_phase1 hf input
  have hnew : ∀ value ∈ Phase1.printedTexts (Phase1Builder.new input).input,
      CharData value.toList := by
    intro value hv
    by_cases htime : value = ensureZatcaTimeZ input.issueTime
    · rw [htime]
      exact charData_ensureZatcaTimeZ (h _ (by simp [Phase1.printedTexts]))
    · refine h value ?_
      simp only [Phase1.printedTexts,Phase1Builder.new,List.mem_append,List.mem_cons,htime,
        false_or] at hv ⊢
      tauto
  have hread := hparse _ (Phase1.filledDocument_wellFormed hproduced.2 hnew)
  simpa only [← hproduced.1,String.ofList_toList] using hread

/-- The document that is made of an input whose texts are carried. -/
def carriedDocument (kind : InvoiceKind) (input : InvoiceInput) : Document :=
  match kind.phase1Form with
  | some f => Phase1.filledDocument f (Phase1Builder.new input).input
  | none =>
    populatedDocument kind.form input fun s => (s.value input kind.form.fallback).toList

theorem parse_carried {parse : String → Option Elements}
    (hparse : Reads trimChars fun cs => parse (String.ofList cs)) {kind : InvoiceKind}
    {input : InvoiceInput} (h : Carries kind input) :
    parse (producedXml kind input) = some ((carriedDocument kind input).elements trimChars) := by
  cases hf : kind.phase1Form with
  | some f =>
    have hphase1 : kind.isPhase1 = true := by cases kind <;> first | rfl | cases hf
    rw [Carries,if_pos hphase1] at h
    simp only [carriedDocument,hf]
    exact parse_phase1 hparse hf h
  | none =>
    have hphase2 : kind.isPhase1 = false := by cases kind <;> first | rfl | cases hf
    rw [Carries,hphase2,if_neg Bool.false_ne_true] at h
    have hexpand : ∀ s : Slot, s.isText = true → ∀ found before after,
        expand found before after false (s.value input kind.form.fallback).toList =
          (s.value input kind.form.fallback).toList := fun s hs found before after =>
      expand_of_noPattern (h.noPattern s hs) found before after
    simp only [carriedDocument,hf]
    exact parse_populated hparse hphase2 hexpand h.charData h.unexposed h.buyer

theorem shape_carried (kind : InvoiceKind) (input : InvoiceInput) :
    ((carriedDocument kind input).elements trimChars).shape = shapeOf kind input.optionalParts := by
  cases hf : kind.phase1Form with
  | some f =>
    simp only [carriedDocument,shapeOf,hf]
    exact Phase1.filledDocument_shape
  | none =>
    simp only [carriedDocument,shapeOf,hf]
    exact populatedDocument_shape

theorem textAt_carried (kind : InvoiceKind) (input : InvoiceInput) :
    ∀ e ∈ ownElements kind input,
      ((carriedDocument kind input).elements trimChars).textAt e.1 = some (trimChars e.2.toList) := by
  cases hf : kind.phase1Form with
  | some f =>
    simp only [carriedDocument,ownElements,hf,Phase1.Form.ownElements,List.mem_append,List.mem_map,
      List.mem_flatten,List.mem_mapIdx]
    rintro e ((⟨s,hs,rfl⟩ | hbilling) | ⟨l,⟨i,hi,rfl⟩,hl⟩)
    · have ht : s.isText = true := by
        have hall : ∀ s ∈ Phase1.documentSlots, s.isText = true := by decide
        exact hall s hs
      exact Phase1.textAt_slot ht
    · split at hbilling
      · rename_i hcredit
        obtain rfl := List.mem_singleton.1 hbilling
        exact Phase1.textAt_billing hcredit
      · cases hbilling
    · obtain ⟨s,-,rfl⟩ := List.mem_map.1 hl
      exact Phase1.textAt_line (List.getElem?_eq_getElem hi) s
  | none =>
    simp only [carriedDocument,ownElements,hf,Form.ownElements,List.mem_append,List.mem_map,
      List.mem_filter]
    rintro e ((⟨s,⟨hs,ht⟩,rfl⟩ | ⟨c,hc,rfl⟩) | hbuyer)
    · exact textAt_slot hs ht
    · exact textAt_billing (Option.mem_toList.1 hc)
    · split at hbuyer
      · rename_i hplace
        obtain ⟨buyerName,hname,rfl⟩ := List.mem_map.1 hbuyer
        simp only [List.mem_filter,Option.mem_toList,decide_eq_true_eq] at hname
        exact textAt_customer hplace hname.1 hname.2
      · cases hbuyer

/-- Every field is read in its own element of the same tree when its text is carried. -/
theorem filledIn_of_carries {parse : String → Option Elements}
    (hparse : Reads trimChars fun cs => parse (String.ofList cs)) (kind : InvoiceKind)
    (input : InvoiceInput) (h : Carries kind input) : FilledIn parse kind input :=
  ⟨_,parse_carried hparse h,shape_carried kind input,textAt_carried kind input⟩

/-- An invoice of a seller with the given name. -/
def Sample.invoiceOf (vatName : String) : InvoiceInput :=
  { Sample.sale with
    kind := .standardTaxInvoice
    egsInfo := { Sample.egsInfo with vatName }
    invoiceCounterNumber := 1
    invoiceSerialNumber := "INV-1"
    previousInvoiceHash := ZATCA_BASE_INVOICE_HASH }

theorem reads_xmlParse :
    Reads trimChars fun cs => Xml.parse trimChars (String.ofList cs).toList := by
  simpa only [String.toList_ofList] using reads_parse trimChars

/-- The two places that are left are not filled, so they expose nothing. -/
theorem not_exposes_left {f : Form} (hf : f.hasBuyerPlace = false) {u s : Slot}
    (hu : u = .ublExtensions ∨ u = .qrCodeData) : ¬ f.Exposes u s := by
  rintro ⟨horder,-⟩
  have hmem := horder.subset (List.mem_cons_self ..)
  rcases hu with rfl | rfl <;> simp [Form.fillOrder,Form.buyerSlots,hf] at hmem

/-- Only one place depends on the name. -/
theorem sample_value {s : Slot} (hs : s.isText = true) (hne : s ≠ .vatName) (vatName : String) :
    s.value (Sample.invoiceOf vatName) ZATCA_INVOICE_TYPES.INVOICE =
      s.value (Sample.invoiceOf "") ZATCA_INVOICE_TYPES.INVOICE := by
  cases s with
  | vatName => exact absurd rfl hne
  | billingReference => cases hs
  | buyerInfo => cases hs
  | _ => rfl

theorem sample_plain {s : Slot} (hs : s.isText = true) (hne : s ≠ .vatName) (vatName : String) :
    (∀ c ∈ (s.value (Sample.invoiceOf vatName) ZATCA_INVOICE_TYPES.INVOICE).toList,
        isPlain c = true ∧ c ≠ ']' ∧ c ≠ '$') ∧
      (s = .ublExtensions ∨ s = .qrCodeData ∨
        '_' ∉ (s.value (Sample.invoiceOf vatName) ZATCA_INVOICE_TYPES.INVOICE).toList) := by
  rw [sample_value hs hne]
  cases s with
  | vatName => exact absurd rfl hne
  | billingReference => cases hs
  | buyerInfo => cases hs
  | ublExtensions => exact ⟨forall_mem_of_all (by decide),.inl rfl⟩
  | qrCodeData => exact ⟨forall_mem_of_all (by decide),.inr (.inl rfl)⟩
  | _ => exact ⟨forall_mem_of_all (by decide),.inr (.inr (by decide +kernel))⟩

theorem sample_unexposed {u : Slot} (hu : u.isText = true) (hne : u ≠ .vatName) (vatName : String)
    {s : Slot} (hexposes : InvoiceKind.standardTaxInvoice.form.Exposes u s) : ¬ s.token <:+:
      (u.value (Sample.invoiceOf vatName) ZATCA_INVOICE_TYPES.INVOICE).toList := by
  intro htoken
  obtain hl | hq | hmark := (sample_plain hu hne vatName).2
  · exact not_exposes_left rfl (.inl hl) hexposes
  · exact not_exposes_left rfl (.inr hq) hexposes
  · exact hmark (htoken.subset (placeholder_letters s).1)

theorem filledIn_plain : Carries .standardTaxInvoice (Sample.invoiceOf "Dokhna") ∧
    FilledIn (fun s => Xml.parse trimChars s.toList) .standardTaxInvoice
      (Sample.invoiceOf "Dokhna") := by
  have hname : ∀ c ∈ "Dokhna".toList, isPlain c = true ∧ c ≠ ']' ∧ c ≠ '$' ∧ c ≠ '_' :=
    forall_mem_of_all (by decide)
  have hcarries : InvoiceKind.standardTaxInvoice.form.Carries (Sample.invoiceOf "Dokhna") :=
    { charData := by
        intro s hs
        by_cases hne : s = .vatName
        · subst hne
          exact charData_of_forall fun c hc => ⟨(hname c hc).1,(hname c hc).2.1⟩
        · have hplain := (sample_plain hs hne "Dokhna").1
          exact charData_of_forall fun c hc => ⟨(hplain c hc).1,(hplain c hc).2.1⟩
      noPattern := by
        intro s hs
        refine noPattern_of_notMem fun hmem => ?_
        by_cases hne : s = .vatName
        · subst hne
          exact (hname _ hmem).2.2.1 rfl
        · exact ((sample_plain hs hne "Dokhna").1 _ hmem).2.2 rfl
      unexposed := by
        intro u s hu hexposes htoken
        by_cases hne : u = .vatName
        · subst hne
          exact (hname _ (htoken.subset (placeholder_letters s).1)).2.2.2 rfl
        · exact sample_unexposed hu hne "Dokhna" hexposes htoken
      buyer := fun hplace => by cases hplace }
  exact ⟨hcarries,filledIn_of_carries reads_xmlParse _ _ hcarries⟩

/-- Two dollar signs in a seller's name are read back as one. -/
theorem not_filledIn : ¬ ∀ parse : String → Option Elements,
    Reads trimChars (fun cs => parse (String.ofList cs)) →
      ∀ kind input, FilledIn parse kind input := by
  intro hall
  let input := Sample.invoiceOf "Cash $$ Carry"
  let shown : Slot → List Char := fun s =>
    if s = .vatName then "Cash $ Carry".toList
    else (s.value input ZATCA_INVOICE_TYPES.INVOICE).toList
  have hshown : ∀ s, s ≠ .vatName →
      shown s = (s.value input ZATCA_INVOICE_TYPES.INVOICE).toList := fun s hs => if_neg hs
  have hname : shown .vatName = "Cash $ Carry".toList := if_pos rfl
  have hparse : Xml.parse trimChars (producedXml .standardTaxInvoice input).toList =
      some ((populatedDocument InvoiceKind.standardTaxInvoice.form input shown).elements
        trimChars) := by
    refine @parse_populated .standardTaxInvoice input shown (fun s => Xml.parse trimChars s.toList)
      reads_xmlParse rfl ?_ ?_ ?_ (fun hplace => by cases hplace)
    · intro s hs found before after
      by_cases hne : s = .vatName
      · subst hne
        rw [hname]
        simp [input,Sample.invoiceOf,Slot.value,expand]
      · rw [hshown s hne]
        have hplain := (sample_plain hs hne "Cash $$ Carry").1
        have hdollar := noPattern_of_notMem fun hmem => (hplain _ hmem).2.2 rfl
        exact expand_of_noPattern hdollar found before after
    · intro s hs
      by_cases hne : s = .vatName
      · subst hne
        rw [hname]
        exact charData_of_forall (forall_mem_of_all (by decide))
      · rw [hshown s hne]
        have hplain := (sample_plain hs hne "Cash $$ Carry").1
        exact charData_of_forall fun c hc => ⟨(hplain c hc).1,(hplain c hc).2.1⟩
    · intro u s hu hexposes htoken
      by_cases hne : u = .vatName
      · subst hne
        rw [hname] at htoken
        exact absurd (htoken.subset (placeholder_letters s).1) (by decide)
      · rw [hshown u hne] at htoken
        exact sample_unexposed hu hne _ hexposes htoken
  obtain ⟨es,hes,-,hfields⟩ := hall (fun s => Xml.parse trimChars s.toList) reads_xmlParse
    .standardTaxInvoice input
  obtain rfl := Option.some.inj (hparse.symm.trans hes)
  have hown : (Slot.path .vatName,"Cash $$ Carry") ∈ ownElements .standardTaxInvoice input := by
    simp only [ownElements,InvoiceKind.phase1Form,Form.ownElements,List.mem_append,List.mem_map,
      List.mem_filter]
    exact .inl (.inl ⟨.vatName,⟨by decide,rfl⟩,rfl⟩)
  have hplace : Slot.vatName ∈ InvoiceKind.standardTaxInvoice.form.places := by decide
  have htext := (textAt_slot hplace rfl).symm.trans (hfields _ hown)
  rw [hname] at htext
  revert htext
  decide

end Zatca
