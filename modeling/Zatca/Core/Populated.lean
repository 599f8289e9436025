import Zatca.Core.TemplateForms
set_option autoImplicit false
namespace Zatca
open Xml Xml.Content Placeholder Ubl

set_option maxRecDepth 100000 in
theorem billingReferenceTemplate_toList : billingReferenceTemplate.toList =
    billingReferenceContent.print fun _ => "SET_CANCELED_INVOICE_NUMBER".toList := by
  have h : billingReferenceTemplate.toList = _ := String.toList_ofList
  rw [h]
  decide

theorem generateInvoiceBillingReference_toList (n : Nat) :
    (generateInvoiceBillingReference n).toList =
      billingReferenceContent.print fun _ => (toString n).toList := by
  have hmark : ∀ _ : Unit, '_' ∈ "SET_CANCELED_INVOICE_NUMBER".toList := by decide
  have hletter : ∀ _ : Unit, ∀ c ∈ "SET_CANCELED_INVOICE_NUMBER".toList, isLetter c = true :=
    fun _ => forall_mem_of_all (by decide)
  have hapart : billingReferenceContent.template.isApart '_' isLetter = true := by decide
  have hslots : billingReferenceContent.template.slots = [()] := by rw [slots_template]; rfl
  have hexpand : ∀ found before after, expand found before after false (toString n).toList =
      (toString n).toList := fun found before after =>
    expand_of_noPattern (noPattern_of_notMem fun hm =>
      (plain_of_isDigit (digits_of_toString n _ hm)).2.2.1 rfl) found before after
  have hfree : ∀ u, [u,()].Sublist billingReferenceContent.template.slots →
      ¬ "SET_CANCELED_INVOICE_NUMBER".toList <:+: "SET_CANCELED_INVOICE_NUMBER".toList := by
    intro u hu
    rw [hslots] at hu
    exact absurd hu.length_le (by simp)
  have hreplace := replaceFirst_render hmark hletter hapart (by rw [hslots]; simp)
    (by rw [hslots]; simp) rfl hfree hexpand
  simp only [render_template] at hreplace
  simp only [generateInvoiceBillingReference,replace,String.toList_ofList,
    billingReferenceTemplate_toList]
  rw [hreplace]
  congr 1

/-! ### The six functions -/

/-- What a place holds afterwards; `shown` is what is read in the places of character data. -/
def filler (f : Form) (input : InvoiceInput) (shown : Slot → List Char) : Slot → Content Empty
  | .billingReference =>
    match input.cancelation with
    | some cancelation => billingReferenceContent.fill fun _ =>
        text (toString cancelation.canceledInvoiceNumber).toList nil
    | none => nil
  | .buyerInfo =>
    match input.buyerName, f.hasBuyerPlace with
    | some buyerName, true =>
      if buyerName = "" then nil else buyerContent.fill fun _ => text buyerName.toList nil
    | _, _ => nil
  | s => text (shown s) nil

theorem filler_text (f : Form) (input : InvoiceInput) (shown : Slot → List Char) {s : Slot}
    (hs : s.isText = true) : filler f input shown s = text (shown s) nil := by
  cases s <;> first | rfl | cases hs

def printed (f : Form) (input : InvoiceInput) (shown : Slot → List Char) (s : Slot) : List Char :=
  (filler f input shown s).print Empty.elim

theorem printed_text (f : Form) (input : InvoiceInput) (shown : Slot → List Char) {s : Slot}
    (hs : s.isText = true) : printed f input shown s = shown s := by
  simp [printed,filler_text f input shown hs,print]

theorem printed_billing (f : Form) (input : InvoiceInput) (shown : Slot → List Char) :
    printed f input shown .billingReference = input.billingReference.toList := by
  simp only [printed,filler,InvoiceInput.billingReference]
  cases input.cancelation with
  | none => rfl
  | some cancelation =>
    simp only [generateInvoiceBillingReference_toList,print_fill,print,List.append_nil]

theorem printed_buyer {f : Form} (hf : f.hasBuyerPlace = true) (input : InvoiceInput)
    (shown : Slot → List Char) :
    printed f input shown .buyerInfo = input.buyerFragment.toList := by
  simp only [printed,filler,InvoiceInput.buyerFragment,hf]
  cases input.buyerName with
  | none => rfl
  | some buyerName =>
    by_cases hempty : buyerName = ""
    · simp [hempty,print]
    · simp only [hempty,if_false,TemplateLiteral.render_toList,buyerLiteral_chars,
        render_template,print_fill,print,List.append_nil]

theorem noMark_billing (input : InvoiceInput) :
    '$' ∉ input.billingReference.toList ∧ '_' ∉ input.billingReference.toList := by
  simp only [InvoiceInput.billingReference]
  cases input.cancelation with
  | none => simp
  | some cancelation =>
    have hdigit := digits_of_toString cancelation.canceledInvoiceNumber
    have hlit : '$' ∉ billingReferenceContent.print (fun _ => []) ∧
        '_' ∉ billingReferenceContent.print (fun _ => []) := by decide
    rw [generateInvoiceBillingReference_toList]
    refine ⟨fun h => ?_,fun h => ?_⟩
    · rcases mem_print h with h | ⟨_,h⟩
      · exact hlit.1 h
      · exact (plain_of_isDigit (hdigit _ h)).2.2.1 rfl
    · rcases mem_print h with h | ⟨_,h⟩
      · exact hlit.2 h
      · exact (plain_of_isDigit (hdigit _ h)).2.2.2 rfl

theorem replaceEach_toList (template : String) (replacements : List (String × String)) :
    (replaceEach template replacements).toList = replacements.foldl
      (fun text r => replaceFirst r.1.toList r.2.toList text) template.toList := by
  rw [replaceEach]
  induction replacements generalizing template with
  | nil => rfl
  | cons r replacements ih =>
    simp only [List.foldl_cons,ih]
    simp [replace]

theorem producedXml_phase2 {kind : InvoiceKind} (hkind : kind.isPhase1 = false)
    (input : InvoiceInput) : producedXml kind input =
      replaceEach (invoiceTemplate kind.form.subtype
          (if kind.form.hasBuyerPlace then "SET_BUYER_INFO" else ""))
        (kind.form.fillOrder.map fun s => (s.placeholder,s.value input kind.form.fallback)) := by
  cases kind with
  | simplifiedTaxInvoice => rfl
  | standardTaxInvoice => rfl
  | simplifiedCreditNote => rfl
  | standardCreditNote => rfl
  | simplifiedDebitNote => rfl
  | standardDebitNote => rfl
  | phase1Invoice => cases hkind
  | phase1CreditNote => cases hkind

/-- What follows the name in the buyer fragment. -/
def closing : String := "</cbc:RegistrationName>
      </cac:PartyLegalEntity>
    </cac:Party>"

theorem expand_buyerFragment {input : InvoiceInput}
    (h : ∀ buyerName ∈ input.buyerName, NoPattern buyerName.toList)
    (found before after : List Char) :
    expand found before after false input.buyerFragment.toList = input.buyerFragment.toList := by
  rw [InvoiceInput.buyerFragment]
  cases hname : input.buyerName with
  | none => rfl
  | some buyerName =>
    by_cases hempty : buyerName = ""
    · simp [hempty,expand]
    · have hopening : '$' ∉ InvoiceInput.buyerLiteral.head.toList := by decide
      have hhead : closing.toList.head? = some '<' := by decide
      have hclosing : '$' ∉ closing.toList ∧ ∀ c ∈ closing.toList.head?, c ∉ patternChars := by
        rw [hhead]
        refine ⟨by decide,?_⟩
        rintro c ⟨⟩
        decide
      have hrender : (InvoiceInput.buyerLiteral.render fun _ => buyerName).toList =
          InvoiceInput.buyerLiteral.head.toList ++ (buyerName.toList ++ closing.toList) := by
        simp only [TemplateLiteral.render_toList,TemplateLiteral.chars,Template.render,
          InvoiceInput.buyerLiteral,closing,List.map_cons,List.map_nil,List.flatMap_cons,
          List.flatMap_nil,List.append_nil,-String.reduceToList]
      simp only [hempty,if_false,hrender]
      rw [expand_of_notMem _ _ _ hopening,(expand_append _ _ _ hclosing.2).1 (h buyerName hname),
        expand_of_noPattern (noPattern_of_notMem hclosing.1)]

theorem exposes_text {kind : InvoiceKind} {u s : Slot} (hu : u.isText = false)
    (h : kind.form.Exposes u s) : u = .billingReference := by
  cases u with
  | billingReference => rfl
  | buyerInfo => exact absurd h.1 ((form_sound kind).buyer s (h.2.subset (by simp)))
  | _ => cases hu

/-! ### What a form holds while it is filled -/

theorem form_template (kind : InvoiceKind) : (invoiceTemplate kind.form.subtype
    (if kind.form.hasBuyerPlace then "SET_BUYER_INFO" else "")).toList =
      (text ('\n' :: declaration) kind.form.body).template.render Slot.token := by
  have hparty : (if kind.form.hasBuyerPlace then "SET_BUYER_INFO" else "").toList =
      kind.form.customerParty.print Slot.token := by
    rw [Form.customerParty]
    cases kind.form.hasBuyerPlace with
    | false => rfl
    | true => simp [print,Slot.token,Slot.placeholder]
  rw [invoiceTemplate_toList _ hparty,render_template]
  rfl

section filling

variable {kind : InvoiceKind} {input : InvoiceInput} {shown : Slot → List Char}

/-- A place that is still open is not written out by one filled before it. -/
theorem printed_apart
    (hexposed : ∀ u s, u.isText = true → kind.form.Exposes u s → ¬ s.token <:+: shown u)
    {u s : Slot} (h : kind.form.Exposes u s) : ¬ s.token <:+: printed kind.form input shown u := by
  cases hu : u.isText with
  | true =>
    rw [printed_text _ _ _ hu]
    exact hexposed u s hu h
  | false =>
    rw [exposes_text hu h,printed_billing]
    exact fun h => (noMark_billing input).2 (h.subset (placeholder_letters s).1)

theorem expand_value
    (hexpand : ∀ s, s.isText = true → ∀ found before after, expand found before after false
      (s.value input kind.form.fallback).toList = shown s)
    (hbuyer : kind.form.hasBuyerPlace = true →
      ∀ buyerName ∈ input.buyerName, NoPattern buyerName.toList)
    {s : Slot} (hs : s ∈ kind.form.fillOrder) (found before after : List Char) :
    expand found before after false (s.value input kind.form.fallback).toList =
      printed kind.form input shown s := by
  cases ht : s.isText with
  | true => rw [printed_text _ _ _ ht,hexpand s ht]
  | false =>
    cases s with
    | billingReference =>
      rw [printed_billing]
      exact expand_of_noPattern (noPattern_of_notMem (noMark_billing input).1) _ _ _
    | buyerInfo =>
      have hplace : kind.form.hasBuyerPlace = true := by
        cases hp : kind.form.hasBuyerPlace with
        | true => rfl
        | false => simp [Form.fillOrder,Form.buyerSlots,hp] at hs
      rw [printed_buyer hplace]
      exact expand_buyerFragment (hbuyer hplace) _ _ _
    | _ => cases ht

theorem expand_placeholder (s : Slot) (found before after : List Char) :
    expand found before after false s.placeholder.toList = s.token := by
  refine expand_of_noPattern (noPattern_of_notMem fun h => ?_) _ _ _
  exact absurd ((placeholder_letters s).2 _ h) (by decide)

/-- What every place of the body holds when all calls are done. -/
theorem current_printed
    (hexpand : ∀ s, s.isText = true → ∀ found before after, expand found before after false
      (s.value input kind.form.fallback).toList = shown s)
    {s : Slot} (hs : s ∈ kind.form.places) :
    current Slot.token (printed kind.form input shown) kind.form.fillOrder s =
      printed kind.form input shown s := by
  have hleft : ∀ s : Slot, s.isText = true → s.value input kind.form.fallback = s.placeholder →
      shown s = s.token := by
    intro s hs hv
    rw [← hexpand s hs [] [] [],hv]
    exact expand_placeholder s _ _ _
  rw [current]
  split
  · rfl
  · rename_i hout
    rcases (form_sound kind).left s hs with h | rfl | rfl
    · exact absurd h hout
    · rw [printed_text _ _ _ rfl,hleft _ rfl rfl]
    · rw [printed_text _ _ _ rfl,hleft _ rfl rfl]

theorem populated_toList (hkind : kind.isPhase1 = false)
    (hexpand : ∀ s, s.isText = true → ∀ found before after, expand found before after false
      (s.value input kind.form.fallback).toList = shown s)
    (hexposed : ∀ u s, u.isText = true → kind.form.Exposes u s → ¬ s.token <:+: shown u)
    (hbuyer : kind.form.hasBuyerPlace = true →
      ∀ buyerName ∈ input.buyerName, NoPattern buyerName.toList) :
    (producedXml kind input).toList = '\n' :: (declaration ++
      (kind.form.body.fill (filler kind.form input shown)).print Empty.elim) := by
  have hsound := form_sound kind
  have hslots : (text ('\n' :: declaration) kind.form.body).template.slots = kind.form.places := by
    rw [slots_template,slots,hsound.slots]
  have hfill := foldl_replaceFirst (fun s => (placeholder_letters s).1)
    (fun s => (placeholder_letters s).2) hsound.apart (by rw [hslots]; exact hsound.places)
    (fun s hs => expand_value hexpand hbuyer hs) hsound.fillOrder
    (by rw [hslots]; exact hsound.mem_places)
    (by rw [hslots]; exact fun u s horder hplaces => printed_apart hexposed ⟨horder,hplaces⟩)
    (by rw [hslots]; exact hsound.placeholder)
  have hcurrent : ∀ s ∈ kind.form.body.slots,
      current Slot.token (printed kind.form input shown) kind.form.fillOrder s =
        printed kind.form input shown s := by
    intro s hs
    rw [hsound.slots] at hs
    exact current_printed hexpand hs
  rw [producedXml_phase2 hkind,replaceEach_toList,List.foldl_map,form_template]
  refine hfill.trans ?_
  rw [render_template,print,print_congr hcurrent,print_fill]
  simp only [List.cons_append]
  rfl

end filling

/-! ### What is read in the filled documents -/

theorem isTemplate_billing : billingReferenceContent.isTemplate (fun _ => true) = true ∧
    billingReferenceContent.isSpaced (fun _ => true) = true := by decide

theorem isTemplate_buyer : buyerContent.isTemplate (fun _ => true) = true ∧
    buyerContent.isSpaced (fun _ => true) = true := by decide

/-- A fragment with one value is well formed and brings no character data along. -/
theorem fragment_wellFormed {c : Content Unit} (hc : c.isTemplate (fun _ => true) = true ∧
    c.isSpaced (fun _ => true) = true) {value : List Char} (hvalue : CharData value) :
    (c.fill fun _ => text value nil).WellFormed ∧
      ∀ x ∈ (c.fill fun _ => text value nil).chars, isBlank x = true :=
  ⟨wellFormed_fill (fun _ _ => ⟨value,rfl,hvalue⟩) (fun _ h => by cases h) hc.1,
    blank_fill (fun _ h => by cases h) hc.2⟩

theorem wellFormed_nil : (nil : Content Empty).WellFormed ∧
    ∀ x ∈ (nil : Content Empty).chars, isBlank x = true := ⟨trivial,by simp [chars]⟩

theorem filler_markup {f : Form} {input : InvoiceInput} {shown : Slot → List Char}
    (hbuyer : f.hasBuyerPlace = true → ∀ buyerName ∈ input.buyerName, CharData buyerName.toList)
    {s : Slot} (hs : s.isText = false) : (filler f input shown s).WellFormed ∧
      ∀ x ∈ (filler f input shown s).chars, isBlank x = true := by
  cases s with
  | billingReference =>
    simp only [filler]
    cases input.cancelation with
    | none => exact wellFormed_nil
    | some cancelation => exact fragment_wellFormed isTemplate_billing (charData_toString _)
  | buyerInfo =>
    simp only [filler]
    cases hname : input.buyerName with
    | none => exact wellFormed_nil
    | some buyerName =>
      cases hplace : f.hasBuyerPlace with
      | false => exact wellFormed_nil
      | true =>
        by_cases hempty : buyerName = ""
        · simp only [hempty,if_true]
          exact wellFormed_nil
        · simp only [hempty,if_false]
          exact fragment_wellFormed isTemplate_buyer (hbuyer hplace buyerName hname)
  | _ => cases hs

/-- The document that a text of the six functions is. -/
def populatedDocument (f : Form) (input : InvoiceInput) (shown : Slot → List Char) : Document :=
  ⟨['\n'],f.body.fill (filler f input shown)⟩

theorem populatedDocument_wellFormed {kind : InvoiceKind} {input : InvoiceInput}
    {shown : Slot → List Char} (hdata : ∀ s, s.isText = true → CharData (shown s))
    (hbuyer : kind.form.hasBuyerPlace = true →
      ∀ buyerName ∈ input.buyerName, CharData buyerName.toList) :
    (populatedDocument kind.form input shown).WellFormed where
  lead := by simp [populatedDocument,isBlank]
  body := wellFormed_fill (fun s hs => ⟨shown s,filler_text _ _ _ hs,hdata s hs⟩)
    (fun s hs => filler_markup hbuyer hs) (form_sound kind).template
  blank := by simp [populatedDocument,Form.body,invoiceBody,line,fill,chars,isBlank]
  root := ⟨_,_,_,_,rfl⟩

theorem filler_adds (f : Form) (input : InvoiceInput) (shown : Slot → List Char) (s : Slot) :
    ∀ n ∈ ((filler f input shown s).elements trimChars).names, n ∈ s.adds := by
  cases s with
  | billingReference =>
    simp only [filler]
    cases input.cancelation with
    | none => simp [elements,Elements.names]
    | some cancelation =>
      simp [billingReferenceContent,line,party,fill,elements,Elements.names,Slot.adds]
  | buyerInfo =>
    simp only [filler]
    split
    · split
      · simp [elements,Elements.names]
      · simp [buyerContent,line,party,fill,elements,Elements.names,Slot.adds]
    · simp [elements,Elements.names]
  | _ => simp [filler,elements,Elements.names]

end Zatca
