import Zatca.Core.Reconcile
set_option autoImplicit false

/-! The totals of a Phase 2 document against the amounts that are printed under them. -/

namespace Zatca

/-- The subtotals of a tax total. -/
def taxSubtotals (taxTotal : XMLObject) : List XMLObject :=
  match taxTotal.field "cac:TaxSubtotal" with
  | some (.arr subtotals) => subtotals
  | _ => []

/-- The printed totals are the sums of what is printed under them: the two amounts without tax of
the amounts of the lines, every document tax of the subtotals of the first one. What is payable is
the amount with tax. -/
def LineItemFragments.AddsUp (d : LineItemFragments) : Prop :=
  ∃ lines taxes : List ℚ, ∃ payable : ℚ,
    d.invoiceLine.map (printedAmount "cbc:LineExtensionAmount") = lines.map some ∧
    (d.taxTotal.head?.map taxSubtotals).map (List.map (printedAmount "cbc:TaxAmount")) =
      some (taxes.map some) ∧
    printedAmount "cbc:LineExtensionAmount" d.legalMonetaryTotal = some lines.sum ∧
    printedAmount "cbc:TaxExclusiveAmount" d.legalMonetaryTotal = some lines.sum ∧
    (∀ t ∈ d.taxTotal, printedAmount "cbc:TaxAmount" t = some taxes.sum) ∧
    printedAmount "cbc:TaxInclusiveAmount" d.legalMonetaryTotal = some payable ∧
    printedAmount "cbc:PayableAmount" d.legalMonetaryTotal = some payable

/-- What a document prints, where its amounts are numbers. -/
structure LineItemFragments.Prints (d : LineItemFragments) (lines taxes : List ℚ)
    (total tax payable : ℚ) : Prop where
  lines : d.invoiceLine.map (printedAmount "cbc:LineExtensionAmount") = lines.map some
  taxes : (d.taxTotal.head?.map taxSubtotals).map (List.map (printedAmount "cbc:TaxAmount")) =
    some (taxes.map some)
  extension : printedAmount "cbc:LineExtensionAmount" d.legalMonetaryTotal = some total
  exclusive : printedAmount "cbc:TaxExclusiveAmount" d.legalMonetaryTotal = some total
  tax : ∀ t ∈ d.taxTotal, printedAmount "cbc:TaxAmount" t = some tax
  inclusive : printedAmount "cbc:TaxInclusiveAmount" d.legalMonetaryTotal = some payable
  payable : printedAmount "cbc:PayableAmount" d.legalMonetaryTotal = some payable

theorem LineItemFragments.Prints.addsUp_iff {d : LineItemFragments} {lines taxes : List ℚ}
    {total tax payable : ℚ} (h : d.Prints lines taxes total tax payable) :
    d.AddsUp ↔ total = lines.sum ∧ tax = taxes.sum := by
  have hsome : Function.Injective (List.map (some (α := ℚ))) :=
    List.map_injective_iff.2 (Option.some_injective ℚ)
  constructor
  · rintro ⟨lines',taxes',payable',hl,ht,htotal,-,htax,-,-⟩
    obtain rfl : lines = lines' := hsome (h.lines.symm.trans hl)
    obtain rfl : taxes = taxes' := hsome (Option.some.inj (h.taxes.symm.trans ht))
    have hhead : d.taxTotal ≠ [] := by
      intro h0
      simpa [h0] using h.taxes
    obtain ⟨t,l,hd⟩ := List.exists_cons_of_ne_nil hhead
    have hmem : t ∈ d.taxTotal := hd ▸ List.mem_cons_self
    have hsame := h.extension.symm.trans htotal
    have htaxSame := (h.tax t hmem).symm.trans (htax t hmem)
    exact ⟨Option.some.inj hsame,Option.some.inj htaxSame⟩
  · rintro ⟨rfl,rfl⟩
    exact ⟨_,_,_,h.lines,h.taxes,h.extension,h.exclusive,h.tax,h.inclusive,h.payable⟩

theorem cents_eq_self_iff {q : ℚ} (h : IsCents q) : cents q = q ↔ |q| < 10^21 := by
  constructor
  · intro he
    by_contra hge
    exact cents_ne_self h.isDecimal (not_lt.1 hge) he
  · exact cents_eq_self h

theorem taxSubtotals_obj (text : Json) (subtotals : List XMLObject) :
    taxSubtotals (.obj [("cbc:TaxAmount",text),("cac:TaxSubtotal",.arr subtotals)]) = subtotals := by
  simp [taxSubtotals,Json.field,List.lookup]

/-- The taxes of all lines, as their subtotals print them. -/
def subtotalTaxes (lineItems : List ZATCAInvoiceLineItem) : List ℚ :=
  lineItems.flatMap fun l => taxesOn (taxableAmount l) l

theorem sum_subtotalTaxes (lineItems : List ZATCAInvoiceLineItem) :
    (subtotalTaxes lineItems).sum = documentTaxes lineItems := by
  rw [documentTaxes_eq]
  induction lineItems with
  | nil => rfl
  | cons l lineItems ih =>
    simp only [subtotalTaxes,List.flatMap_cons,List.sum_append,List.map_cons,List.sum_cons]
    exact congrArg _ ih

section printed
variable {lineItems : List ZATCAInvoiceLineItem} (h : ∀ l ∈ lineItems, l.Decimal)
include h

theorem printed_subtotalTaxes :
    (documentTaxSubtotals lineItems).map (printedAmount "cbc:TaxAmount") =
      (subtotalTaxes lineItems).map some := by
  simp only [documentTaxSubtotals,subtotalTaxes,List.map_flatMap,taxesOn,List.map_map]
  refine List.flatMap_congr fun l hl => List.map_congr_left fun r hr => ?_
  have hamount : IsDecimal (r * taxableAmount l / 100) :=
    (((h l hl).rates r hr).mul (isDecimal_taxableAmount (h l hl))).percent
  have hfield : (taxSubtotal (taxableAmount l) (r * taxableAmount l / 100) r).field "cbc:TaxAmount" =
      some (sar (fixedText (r * taxableAmount l / 100))) := by
    simp [taxSubtotal,Json.field,List.lookup]
  simp only [Function.comp_apply,printedAmount_fixed hamount hfield]

theorem printed_lines {b : BaseInvoiceBuilder}
    (hb : ∀ l, (b.buildLineItemTotals l).lineItemTotalTaxExclusive = lineSubtotal l) :
    (b.fragments lineItems).invoiceLine.map (printedAmount "cbc:LineExtensionAmount") =
      (lineItems.map lineSubtotal).map some := by
  simp only [BaseInvoiceBuilder.fragments,List.map_map]
  refine List.map_congr_left fun l hl => ?_
  have hfield : (b.assembleLineItemXml l (b.buildLineItemTotals l)).field
      "cbc:LineExtensionAmount" = some (sar (fixedText (lineSubtotal l))) := by
    simp [BaseInvoiceBuilder.assembleLineItemXml,hb,Json.field,List.lookup]
  have hself : cents (lineSubtotal l) = lineSubtotal l := cents_cents (isDecimal_taxableAmount (h l hl))
  simp only [Function.comp_apply]
  rw [printedAmount_fixed (isCents_lineSubtotal (h l hl)).isDecimal hfield,hself]

theorem invoice_prints : (invoiceBuilder.fragments lineItems).Prints (lineItems.map lineSubtotal)
    (subtotalTaxes lineItems) (cents (subtotals lineItems)) (cents (documentTaxes lineItems))
    (subtotals lineItems + (lineItems.map invoiceBuilder.lineTaxes).sum) := by
  have hcs := isCents_subtotals h
  have hcd := isCents_documentTaxes h
  have hct := isCents_invoiceTotal h
  have htotal := invoice_legalMonetaryTotal h
  have hdue := nearestCents_eq_self hct
  constructor
  · exact printed_lines h fun _ => rfl
  · simp only [BaseInvoiceBuilder.fragments,invoiceBuilder,buildInvoiceTaxTotal,List.head?_cons,
      Option.map_some,taxSubtotals_obj,printed_subtotalTaxes h]
  · rw [htotal]
    exact printedAmount_fixed hcs.isDecimal rfl
  · rw [htotal]
    exact printedAmount_fixed hcs.isDecimal rfl
  · simp only [BaseInvoiceBuilder.fragments,invoiceBuilder,buildInvoiceTaxTotal,
      nearestCents_eq_self hcd,List.forall_mem_cons]
    exact ⟨printedAmount_fixed hcd.isDecimal rfl,printedAmount_fixed hcd.isDecimal rfl,
      List.forall_mem_nil _⟩
  · rw [htotal,buildInvoiceLegalMonetaryTotal,hdue]
    exact printedAmount_num hct.isDecimal rfl
  · rw [htotal,buildInvoiceLegalMonetaryTotal,hdue]
    exact printedAmount_num hct.isDecimal rfl

theorem debitNote_prints (withRoundingAmount : Bool) :
    ((debitNoteBuilder withRoundingAmount).fragments lineItems).Prints
      (lineItems.map lineSubtotal) (subtotalTaxes lineItems) (cents (subtotals lineItems))
      (cents (documentTaxes lineItems)) (cents (subtotals lineItems +
        (lineItems.map (debitNoteBuilder withRoundingAmount).lineTaxes).sum)) := by
  have hcs := isCents_subtotals h
  have hcd := isCents_documentTaxes h
  have hct := isCents_debitNoteTotal h withRoundingAmount
  have htotal := debitNote_legalMonetaryTotal h withRoundingAmount
  constructor
  · exact printed_lines h fun _ => rfl
  · simp only [BaseInvoiceBuilder.fragments,debitNoteBuilder,buildDebitNoteTaxTotal,
      List.head?_cons,Option.map_some,taxSubtotals_obj,printed_subtotalTaxes h]
  · rw [htotal]
    exact printedAmount_fixed hcs.isDecimal rfl
  · rw [htotal]
    exact printedAmount_fixed hcs.isDecimal rfl
  · simp only [BaseInvoiceBuilder.fragments,debitNoteBuilder,buildDebitNoteTaxTotal,
      List.forall_mem_cons]
    exact ⟨printedAmount_fixed hcd.isDecimal rfl,List.forall_mem_nil _⟩
  · rw [htotal]
    exact printedAmount_fixed hct.isDecimal rfl
  · rw [htotal]
    exact printedAmount_fixed hct.isDecimal rfl

theorem phase2_prints (kind : Phase2Kind) : ∃ payable,
    ((phase2Builder kind).fragments lineItems).Prints (lineItems.map lineSubtotal)
      (subtotalTaxes lineItems) (cents (subtotals lineItems)) (cents (documentTaxes lineItems))
      payable := by
  match kind with
  | ⟨.simplifiedTaxInvoice,_⟩ => exact ⟨_,invoice_prints h⟩
  | ⟨.standardTaxInvoice,_⟩ => exact ⟨_,invoice_prints h⟩
  | ⟨.simplifiedCreditNote,_⟩ => exact ⟨_,invoice_prints h⟩
  | ⟨.standardCreditNote,_⟩ => exact ⟨_,invoice_prints h⟩
  | ⟨.simplifiedDebitNote,_⟩ => exact ⟨_,debitNote_prints h false⟩
  | ⟨.standardDebitNote,_⟩ => exact ⟨_,debitNote_prints h true⟩

/-- The totals are the sums exactly where the two of them are written without an exponent. -/
theorem addsUp_iff_lt (kind : Phase2Kind) : ((phase2Builder kind).fragments lineItems).AddsUp ↔
    |subtotals lineItems| < 10^21 ∧ |documentTaxes lineItems| < 10^21 := by
  obtain ⟨payable,hprints⟩ := phase2_prints h kind
  have hcs := isCents_subtotals h
  have hcd := isCents_documentTaxes h
  rw [hprints.addsUp_iff,sum_subtotalTaxes,← cents_eq_self_iff hcs,← cents_eq_self_iff hcd]
  rfl

end printed

/-- The totals of a document add up wherever the amount of its lines and that of their taxes are
written in plain notation. -/
theorem totals_addUp (kind : Phase2Kind) (lineItems : List ZATCAInvoiceLineItem)
    (h : ∀ l ∈ lineItems, l.Decimal) (hsubtotals : Number.Plain (subtotals lineItems))
    (htaxes : Number.Plain (documentTaxes lineItems)) :
    ((phase2Builder kind).fragments lineItems).AddsUp :=
  (addsUp_iff_lt h kind).2 ⟨hsubtotals.lt,htaxes.lt⟩

theorem totals_addUp_of_even_line :
    ((phase2Builder ⟨.simplifiedTaxInvoice,rfl⟩).fragments [Sample.evenLine]).AddsUp :=
  totals_addUp ⟨.simplifiedTaxInvoice,rfl⟩ [Sample.evenLine] Sample.evenLine_decimal
    (by decide +kernel) (by decide +kernel)

end Zatca
