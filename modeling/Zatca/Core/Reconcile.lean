import Zatca.Core.Totals
set_option autoImplicit false

/-! The totals of a document against each other: what is due with tax, without tax, and the tax. -/

namespace Zatca

/-! ### Decimals -/

namespace IsDecimal
variable {a b : ℚ}

theorem add (ha : IsDecimal a) (hb : IsDecimal b) : IsDecimal (a + b) := by
  rw [Number.isDecimal_iff] at *
  obtain ⟨k,x,hx⟩ := ha
  obtain ⟨l,y,hy⟩ := hb
  refine ⟨k+l,x * 10^l + y * 10^k,?_⟩
  push_cast
  rw [← hx,← hy,pow_add]
  ring

theorem mul (ha : IsDecimal a) (hb : IsDecimal b) : IsDecimal (a * b) := by
  rw [Number.isDecimal_iff] at *
  obtain ⟨k,x,hx⟩ := ha
  obtain ⟨l,y,hy⟩ := hb
  refine ⟨k+l,x * y,?_⟩
  push_cast
  rw [← hx,← hy,pow_add]
  ring

theorem neg (ha : IsDecimal a) : IsDecimal (-a) := by
  rw [Number.isDecimal_iff] at *
  obtain ⟨k,x,hx⟩ := ha
  exact ⟨k,-x,by push_cast; rw [neg_mul,hx]⟩

theorem sub (ha : IsDecimal a) (hb : IsDecimal b) : IsDecimal (a - b) := by
  rw [sub_eq_add_neg]
  exact ha.add hb.neg

theorem percent (ha : IsDecimal a) : IsDecimal (a / 100) := by
  rw [Number.isDecimal_iff] at *
  obtain ⟨k,x,hx⟩ := ha
  refine ⟨k+2,x,?_⟩
  rw [← hx,pow_add]
  ring

theorem zero : IsDecimal 0 := isCents_zero.isDecimal

theorem natCast (n : ℕ) : IsDecimal n := Number.isDecimal_iff.2 ⟨0,n,by simp⟩

theorem sum {l : List ℚ} (h : ∀ a ∈ l, IsDecimal a) : IsDecimal l.sum := by
  induction l with
  | nil => exact zero
  | cons a l ih =>
    rw [List.sum_cons]
    exact (h a List.mem_cons_self).add (ih fun b hb => h b (List.mem_cons_of_mem _ hb))

end IsDecimal

theorem parseFloat_fixedText {q : ℚ} (h : IsDecimal q) :
    Number.parseFloat (toFixedNoRounding q 2) = some (cents q) := by
  rw [cents,Number.parseFloat_toFixedNoRounding h (by decide),Option.getD_some]

theorem field_sar (text : Json) : (sar text).field "#text" = some text := by
  simp [sar,Json.field,List.lookup]

theorem printedAmount_fixed {q : ℚ} (h : IsDecimal q) {name : String} {fragment : XMLObject}
    (hf : fragment.field name = some (sar (fixedText q))) :
    printedAmount name fragment = some (cents q) := by
  simp only [printedAmount,hf,Option.bind_some,field_sar,fixedText,Json.printed]
  exact parseFloat_fixedText h

theorem printedAmount_num {q : ℚ} (h : IsDecimal q) {name : String} {fragment : XMLObject}
    (hf : fragment.field name = some (sar (.num q))) :
    printedAmount name fragment = some q := by
  simp only [printedAmount,hf,Option.bind_some,field_sar,Json.printed]
  exact Number.parseFloat_toString h

theorem cents_zero : cents 0 = 0 := cents_eq_self isCents_zero (by norm_num)

theorem cents_cents {q : ℚ} (h : IsDecimal q) : cents (cents q) = cents q :=
  cents_eq_self (isCents_cents h) (abs_cents_lt h)

theorem foldl_add {α : Type} (f : α → ℚ) (l : List α) (a : ℚ) :
    l.foldl (fun t x => t + f x) a = a + (l.map f).sum := by
  induction l generalizing a with
  | nil => simp
  | cons x l ih =>
    rw [List.foldl_cons,ih,List.map_cons,List.sum_cons]
    ring

theorem abs_sum_le (l : List ℚ) : |l.sum| ≤ (l.map abs).sum := by
  induction l with
  | nil => simp
  | cons a l ih =>
    rw [List.map_cons,List.sum_cons,List.sum_cons]
    have h := abs_add_le a l.sum
    linarith

/-! ### One line -/

/-- The numbers of the line, each with finitely many places. -/
structure ZATCAInvoiceLineItem.Decimal (lineItem : ZATCAInvoiceLineItem) : Prop where
  quantity : IsDecimal lineItem.quantity
  price : IsDecimal lineItem.taxExclusivePrice
  rates : ∀ r ∈ rates lineItem, IsDecimal r
  discounts : ∀ d ∈ lineItem.discounts, IsDecimal d.amount

theorem rates_isDecimal {lineItem : ZATCAInvoiceLineItem} (hvat : IsDecimal lineItem.vatPercent)
    (hother : ∀ r ∈ lineItem.otherTaxes, IsDecimal r) : ∀ r ∈ rates lineItem, IsDecimal r :=
  List.forall_mem_cons.2 ⟨hvat,hother⟩

/-- The taxes of a line on a base, each truncated to cents. -/
def taxesOn (base : ℚ) (lineItem : ZATCAInvoiceLineItem) : List ℚ :=
  (rates lineItem).map (fun percent => cents (percent * base / 100))

section line
variable {lineItem : ZATCAInvoiceLineItem} (h : lineItem.Decimal)
include h

theorem isDecimal_taxableAmount : IsDecimal (taxableAmount lineItem) := by
  have hdiscounts : IsDecimal (totalDiscounts lineItem) := by
    rw [totalDiscounts,foldl_add]
    refine IsDecimal.zero.add (IsDecimal.sum fun a ha => ?_)
    obtain ⟨d,hd,rfl⟩ := List.mem_map.1 ha
    exact h.discounts d hd
  exact (h.price.mul h.quantity).sub hdiscounts

theorem isCents_lineSubtotal : IsCents (lineSubtotal lineItem) :=
  isCents_cents (isDecimal_taxableAmount h)

theorem isCents_taxesOn {base : ℚ} (hb : IsDecimal base) : ∀ t ∈ taxesOn base lineItem, IsCents t := by
  intro t ht
  obtain ⟨percent,hp,rfl⟩ := List.mem_map.1 ht
  exact isCents_cents ((h.rates percent hp).mul hb).percent

theorem lineVat_eq : lineVat lineItem = cents (lineItem.vatPercent * lineSubtotal lineItem / 100) := by
  have hvat := h.rates lineItem.vatPercent List.mem_cons_self
  have hx : IsDecimal (lineItem.vatPercent * lineSubtotal lineItem / 100) :=
    (hvat.mul (isCents_lineSubtotal h).isDecimal).percent
  rw [lineVat,cents_zero,zero_add,mul_comm (lineSubtotal lineItem),cents_cents hx]

theorem taxesOn_lineSubtotal : taxesOn (lineSubtotal lineItem) lineItem = lineVat lineItem ::
    lineItem.otherTaxes.map (fun percent => cents (percent * lineSubtotal lineItem / 100)) := by
  rw [lineVat_eq h]
  rfl

/-- Whatever the loop meets, the taxes of a line are cents below the limit. -/
theorem invoiceLineTaxes_isCents : ∃ q, IsDecimal q ∧ invoiceLineTaxes lineItem = cents q := by
  have hs := (isCents_lineSubtotal h).isDecimal
  have hvat := h.rates lineItem.vatPercent List.mem_cons_self
  have hfold (l : List ℚ) (hl : ∀ r ∈ l, IsDecimal r) (t : ℚ) (ht : ∃ q, IsDecimal q ∧ t = cents q) :
      ∃ q, IsDecimal q ∧ l.foldl (fun totalTaxes percentAmount =>
        cents (cents totalTaxes + cents (percentAmount * lineSubtotal lineItem / 100))) t =
          cents q := by
    induction l generalizing t with
    | nil => exact ht
    | cons r l ih =>
      obtain ⟨q,hq,rfl⟩ := ht
      refine ih (fun r' hr' => hl r' (List.mem_cons_of_mem _ hr')) _ ⟨_,?_,rfl⟩
      have hr := ((hl r List.mem_cons_self).mul hs).percent
      exact (isCents_cents (isCents_cents hq).isDecimal).isDecimal.add (isCents_cents hr).isDecimal
  refine hfold _ (fun r hr => h.rates r (List.mem_cons_of_mem _ hr)) _ ⟨_,?_,lineVat_eq h⟩
  exact (hvat.mul hs).percent

theorem debitNoteLineTaxes_eq :
    debitNoteLineTaxes lineItem = cents (taxesOn (lineSubtotal lineItem) lineItem).sum := by
  rw [debitNoteLineTaxes,foldl_add,taxesOn_lineSubtotal h,List.sum_cons]
  simp only [mul_comm (lineSubtotal lineItem)]

theorem isDecimal_sum_taxesOn {base : ℚ} (hb : IsDecimal base) :
    IsDecimal (taxesOn base lineItem).sum :=
  (IsCents.sum (isCents_taxesOn h hb)).isDecimal

/-- Below the limit the truncations of the loop change nothing. -/
theorem invoiceLineTaxes_eq (hlt : ((taxesOn (lineSubtotal lineItem) lineItem).map abs).sum < 10^21) :
    invoiceLineTaxes lineItem = (taxesOn (lineSubtotal lineItem) lineItem).sum := by
  have hcents := isCents_taxesOn h (isCents_lineSubtotal h).isDecimal
  rw [taxesOn_lineSubtotal h] at hlt hcents ⊢
  have hfold (l : List ℚ) (t : ℚ) (ht : IsCents t)
      (hl : ∀ x ∈ l.map (fun percent => cents (percent * lineSubtotal lineItem / 100)), IsCents x)
      (hsum : |t| + ((l.map (fun percent => cents (percent * lineSubtotal lineItem / 100))).map
        abs).sum < 10^21) :
      l.foldl (fun totalTaxes percentAmount =>
        cents (cents totalTaxes + cents (percentAmount * lineSubtotal lineItem / 100))) t =
          t + (l.map (fun percent => cents (percent * lineSubtotal lineItem / 100))).sum := by
    induction l generalizing t with
    | nil => simp
    | cons r l ih =>
      simp only [List.map_cons,List.sum_cons,List.forall_mem_cons] at hsum hl
      have hrest : 0 ≤ ((l.map (fun percent => cents (percent * lineSubtotal lineItem / 100))).map
          abs).sum := List.sum_nonneg (by simp)
      have hadd := abs_add_le t (cents (r * lineSubtotal lineItem / 100))
      have hself : cents t = t := cents_eq_self ht (by
        have := abs_nonneg (cents (r * lineSubtotal lineItem / 100))
        linarith)
      have hnext : cents (t + cents (r * lineSubtotal lineItem / 100)) =
          t + cents (r * lineSubtotal lineItem / 100) :=
        cents_eq_self (ht.add hl.1) (by linarith)
      rw [List.foldl_cons,hself,hnext,ih _ (ht.add hl.1) hl.2 (by linarith)]
      simp only [List.map_cons,List.sum_cons]
      ring
  rw [List.forall_mem_cons] at hcents
  rw [List.map_cons,List.sum_cons] at hlt
  rw [List.sum_cons]
  exact hfold _ _ hcents.1 hcents.2 hlt

end line

/-! ### The totals -/

/-- `TaxInclusiveAmount` is `TaxExclusiveAmount` and the first document tax, and that tax is the
sum of the taxes of the lines, all as they are printed. -/
def LineItemFragments.Reconciles (d : LineItemFragments) : Prop :=
  ∃ exclusive inclusive tax : ℚ, ∃ lineTaxes : List ℚ,
    printedAmount "cbc:TaxExclusiveAmount" d.legalMonetaryTotal = some exclusive ∧
    printedAmount "cbc:TaxInclusiveAmount" d.legalMonetaryTotal = some inclusive ∧
    d.taxTotal.head?.bind (printedAmount "cbc:TaxAmount") = some tax ∧
    d.invoiceLine.map (fun line => (line.field "cac:TaxTotal").bind (printedAmount "cbc:TaxAmount")) =
      lineTaxes.map some ∧
    inclusive = exclusive + tax ∧ tax = lineTaxes.sum

/-- The printed amounts, where they are numbers. -/
theorem LineItemFragments.reconciles_iff {d : LineItemFragments} {exclusive inclusive tax : ℚ}
    {lineTaxes : List ℚ}
    (hexclusive : printedAmount "cbc:TaxExclusiveAmount" d.legalMonetaryTotal = some exclusive)
    (hinclusive : printedAmount "cbc:TaxInclusiveAmount" d.legalMonetaryTotal = some inclusive)
    (htax : d.taxTotal.head?.bind (printedAmount "cbc:TaxAmount") = some tax)
    (hlines : d.invoiceLine.map (fun line =>
      (line.field "cac:TaxTotal").bind (printedAmount "cbc:TaxAmount")) = lineTaxes.map some) :
    d.Reconciles ↔ inclusive = exclusive + tax ∧ tax = lineTaxes.sum := by
  constructor
  · rintro ⟨exclusive',inclusive',tax',lineTaxes',h₁,h₂,h₃,h₄,h₅,h₆⟩
    cases hexclusive.symm.trans h₁
    cases hinclusive.symm.trans h₂
    cases htax.symm.trans h₃
    have hsame : lineTaxes = lineTaxes' :=
      List.map_injective_iff.2 (Option.some_injective ℚ) (hlines.symm.trans h₄)
    exact ⟨h₅,hsame ▸ h₆⟩
  · rintro ⟨h₅,h₆⟩
    exact ⟨_,_,_,_,hexclusive,hinclusive,htax,hlines,h₅,h₆⟩

def subtotals (lineItems : List ZATCAInvoiceLineItem) : ℚ := (lineItems.map lineSubtotal).sum

theorem documentTaxes_eq (lineItems : List ZATCAInvoiceLineItem) : documentTaxes lineItems =
    (lineItems.map (fun l => (taxesOn (taxableAmount l) l).sum)).sum := by
  have hline (t : ℚ) (l : ZATCAInvoiceLineItem) : (rates l).foldl (fun totalTaxes percent =>
      totalTaxes + cents (percent * taxableAmount l / 100)) t =
        t + (taxesOn (taxableAmount l) l).sum := foldl_add _ _ _
  simp only [documentTaxes,hline]
  rw [foldl_add,zero_add]

section truncated
variable {lineItems : List ZATCAInvoiceLineItem} {f : ZATCAInvoiceLineItem → ℚ}
  (hf : ∀ l ∈ lineItems, ∃ q, IsDecimal q ∧ f l = cents q)
include hf

theorem cents_of_truncated : ∀ l ∈ lineItems, cents (f l) = f l := by
  intro l hl
  obtain ⟨q,hq,he⟩ := hf l hl
  rw [he,cents_cents hq]

theorem isCents_sum_of_truncated : IsCents (lineItems.map f).sum := by
  refine IsCents.sum fun a ha => ?_
  obtain ⟨l,hl,rfl⟩ := List.mem_map.1 ha
  obtain ⟨q,hq,he⟩ := hf l hl
  rw [he]
  exact isCents_cents hq

theorem nearestCents_total :
    nearestCents (lineItems.foldl (fun total l => total + cents (f l)) 0) = (lineItems.map f).sum := by
  rw [foldl_add,zero_add,List.map_congr_left (cents_of_truncated hf)]
  exact nearestCents_eq_self (isCents_sum_of_truncated hf)

end truncated

/-- What a builder takes for the tax of a line. -/
def BaseInvoiceBuilder.lineTaxes (b : BaseInvoiceBuilder) (lineItem : ZATCAInvoiceLineItem) : ℚ :=
  (b.buildLineItemTotals lineItem).lineItemTotalTaxes

theorem field_cacTaxTotal (b : BaseInvoiceBuilder) (lineItem : ZATCAInvoiceLineItem)
    (totals : LineItemTotals) :
    (b.assembleLineItemXml lineItem totals).field "cac:TaxTotal" = some totals.cacTaxTotal := by
  simp [BaseInvoiceBuilder.assembleLineItemXml,Json.field,List.lookup]

theorem printed_lineTaxes {lineItems : List ZATCAInvoiceLineItem} {b : BaseInvoiceBuilder}
    (hb : ∀ l ∈ lineItems, ∃ q, IsDecimal q ∧ b.lineTaxes l = cents q)
    (hfield : ∀ l, (b.buildLineItemTotals l).cacTaxTotal.field "cbc:TaxAmount" =
      some (sar (fixedText (b.lineTaxes l)))) :
    (b.fragments lineItems).invoiceLine.map (fun line =>
      (line.field "cac:TaxTotal").bind (printedAmount "cbc:TaxAmount")) =
        (lineItems.map b.lineTaxes).map some := by
  simp only [BaseInvoiceBuilder.fragments,List.map_map]
  refine List.map_congr_left fun l hl => ?_
  obtain ⟨q,hq,he⟩ := hb l hl
  have hdec : IsDecimal (b.lineTaxes l) := he ▸ (isCents_cents hq).isDecimal
  simp only [Function.comp_apply,field_cacTaxTotal,Option.bind_some]
  rw [printedAmount_fixed hdec (hfield l),cents_of_truncated hb l hl]

section document
variable {lineItems : List ZATCAInvoiceLineItem} (h : ∀ l ∈ lineItems, l.Decimal)
include h

theorem lineSubtotal_truncated : ∀ l ∈ lineItems, ∃ q, IsDecimal q ∧ lineSubtotal l = cents q :=
  fun l hl => ⟨_,isDecimal_taxableAmount (h l hl),rfl⟩

theorem isCents_subtotals : IsCents (subtotals lineItems) :=
  isCents_sum_of_truncated (lineSubtotal_truncated h)

theorem isCents_documentTaxes : IsCents (documentTaxes lineItems) := by
  rw [documentTaxes_eq]
  refine IsCents.sum fun a ha => ?_
  obtain ⟨l,hl,rfl⟩ := List.mem_map.1 ha
  exact IsCents.sum (isCents_taxesOn (h l hl) (isDecimal_taxableAmount (h l hl)))

theorem invoiceTaxes_truncated :
    ∀ l ∈ lineItems, ∃ q, IsDecimal q ∧ invoiceBuilder.lineTaxes l = cents q :=
  fun l hl => invoiceLineTaxes_isCents (h l hl)

theorem isCents_invoiceTotal :
    IsCents (subtotals lineItems + (lineItems.map invoiceBuilder.lineTaxes).sum) :=
  (isCents_subtotals h).add (isCents_sum_of_truncated (invoiceTaxes_truncated h))

/-- The builder sums what is in whole hundredths already. -/
theorem invoice_legalMonetaryTotal : (invoiceBuilder.fragments lineItems).legalMonetaryTotal =
    buildInvoiceLegalMonetaryTotal (subtotals lineItems)
      (lineItems.map invoiceBuilder.lineTaxes).sum := by
  have hsub : invoiceBuilder.totalSubtotal lineItems = subtotals lineItems :=
    nearestCents_total (lineSubtotal_truncated h)
  have htax : invoiceBuilder.totalTaxes lineItems = (lineItems.map invoiceBuilder.lineTaxes).sum :=
    nearestCents_total (invoiceTaxes_truncated h)
  rw [← hsub,← htax]
  rfl

theorem invoice_reconciles :
    (invoiceBuilder.fragments lineItems).Reconciles ↔
      subtotals lineItems + (lineItems.map invoiceBuilder.lineTaxes).sum =
          cents (subtotals lineItems) + cents (documentTaxes lineItems) ∧
        cents (documentTaxes lineItems) = (lineItems.map invoiceBuilder.lineTaxes).sum := by
  have hcd := isCents_documentTaxes h
  have hdue := isCents_invoiceTotal h
  refine LineItemFragments.reconciles_iff ?_ ?_ ?_
    (printed_lineTaxes (invoiceTaxes_truncated h) fun l => ?_)
  · rw [invoice_legalMonetaryTotal h]
    exact printedAmount_fixed (isCents_subtotals h).isDecimal rfl
  · rw [invoice_legalMonetaryTotal h,buildInvoiceLegalMonetaryTotal,nearestCents_eq_self hdue]
    exact printedAmount_num hdue.isDecimal rfl
  · simp only [BaseInvoiceBuilder.fragments,invoiceBuilder,buildInvoiceTaxTotal,List.head?_cons,
      Option.bind_some,nearestCents_eq_self hcd]
    exact printedAmount_fixed hcd.isDecimal (by simp [Json.field,List.lookup])
  · simp [BaseInvoiceBuilder.lineTaxes,invoiceBuilder,buildInvoiceLineItemTotals,Json.field,
      List.lookup]

theorem debitNoteTaxes_truncated (withRoundingAmount : Bool) : ∀ l ∈ lineItems,
    ∃ q, IsDecimal q ∧ (debitNoteBuilder withRoundingAmount).lineTaxes l = cents q :=
  fun l hl => ⟨_,isDecimal_sum_taxesOn (h l hl) (isCents_lineSubtotal (h l hl)).isDecimal,
    debitNoteLineTaxes_eq (h l hl)⟩

theorem isCents_debitNoteTotal (withRoundingAmount : Bool) : IsCents (subtotals lineItems +
    (lineItems.map (debitNoteBuilder withRoundingAmount).lineTaxes).sum) :=
  (isCents_subtotals h).add (isCents_sum_of_truncated (debitNoteTaxes_truncated h withRoundingAmount))

theorem debitNote_legalMonetaryTotal (withRoundingAmount : Bool) :
    ((debitNoteBuilder withRoundingAmount).fragments lineItems).legalMonetaryTotal =
      buildDebitNoteLegalMonetaryTotal (subtotals lineItems)
        (lineItems.map (debitNoteBuilder withRoundingAmount).lineTaxes).sum := by
  have hsub : (debitNoteBuilder withRoundingAmount).totalSubtotal lineItems = subtotals lineItems :=
    nearestCents_total (lineSubtotal_truncated h)
  have htax : (debitNoteBuilder withRoundingAmount).totalTaxes lineItems =
      (lineItems.map (debitNoteBuilder withRoundingAmount).lineTaxes).sum :=
    nearestCents_total (debitNoteTaxes_truncated h withRoundingAmount)
  rw [← hsub,← htax]
  rfl

theorem debitNote_reconciles (withRoundingAmount : Bool) :
    ((debitNoteBuilder withRoundingAmount).fragments lineItems).Reconciles ↔
      cents (subtotals lineItems +
          (lineItems.map (debitNoteBuilder withRoundingAmount).lineTaxes).sum) =
          cents (subtotals lineItems) + cents (documentTaxes lineItems) ∧
        cents (documentTaxes lineItems) =
          (lineItems.map (debitNoteBuilder withRoundingAmount).lineTaxes).sum := by
  have hcd := isCents_documentTaxes h
  refine LineItemFragments.reconciles_iff ?_ ?_ ?_
    (printed_lineTaxes (debitNoteTaxes_truncated h withRoundingAmount) fun l => ?_)
  · rw [debitNote_legalMonetaryTotal h]
    exact printedAmount_fixed (isCents_subtotals h).isDecimal rfl
  · rw [debitNote_legalMonetaryTotal h]
    exact printedAmount_fixed (isCents_debitNoteTotal h withRoundingAmount).isDecimal rfl
  · simp only [BaseInvoiceBuilder.fragments,debitNoteBuilder,buildDebitNoteTaxTotal,List.head?_cons,
      Option.bind_some]
    exact printedAmount_fixed hcd.isDecimal (by simp [Json.field,List.lookup])
  · simp [BaseInvoiceBuilder.lineTaxes,debitNoteBuilder,buildDebitNoteLineItemTotals,Json.field,
      List.lookup]

end document

/-! ### When the totals agree -/

/-- What is printed of the amount that is due with tax: the debit notes cut it as they do the
others, the other documents print the number. -/
def printedInclusive : Phase2Kind → ℚ → ℚ
  | ⟨.simplifiedDebitNote,_⟩ => cents
  | ⟨.standardDebitNote,_⟩ => cents
  | _ => id

def totalTax (kind : Phase2Kind) (lineItems : List ZATCAInvoiceLineItem) : ℚ :=
  (lineItems.map (phase2Builder kind).lineTaxes).sum

theorem totals_reconcile (kind : Phase2Kind) {lineItems : List ZATCAInvoiceLineItem}
    (h : ∀ l ∈ lineItems, l.Decimal) :
    ((phase2Builder kind).fragments lineItems).Reconciles ↔
      printedInclusive kind (subtotals lineItems + totalTax kind lineItems) =
          cents (subtotals lineItems) + cents (documentTaxes lineItems) ∧
        cents (documentTaxes lineItems) = totalTax kind lineItems := by
  match kind with
  | ⟨.simplifiedTaxInvoice,_⟩ => exact invoice_reconciles h
  | ⟨.standardTaxInvoice,_⟩ => exact invoice_reconciles h
  | ⟨.simplifiedCreditNote,_⟩ => exact invoice_reconciles h
  | ⟨.standardCreditNote,_⟩ => exact invoice_reconciles h
  | ⟨.simplifiedDebitNote,_⟩ => exact debitNote_reconciles h false
  | ⟨.standardDebitNote,_⟩ => exact debitNote_reconciles h true

/-- The cents by which the tax of a line at a rate differs when the amount of the line is cut to
cents before it is taxed. -/
def lostCents (lineItem : ZATCAInvoiceLineItem) (percent : ℚ) : ℚ :=
  cents (percent * taxableAmount lineItem / 100) - cents (percent * lineSubtotal lineItem / 100)

def totalLost (lineItems : List ZATCAInvoiceLineItem) : ℚ :=
  (lineItems.map fun l => ((rates l).map (lostCents l)).sum).sum

/-- The riyals that the amounts of a line and its taxes come to. -/
def lineRiyals (lineItem : ZATCAInvoiceLineItem) : ℚ :=
  |lineSubtotal lineItem| + ((taxesOn (lineSubtotal lineItem) lineItem).map abs).sum +
    ((taxesOn (taxableAmount lineItem) lineItem).map abs).sum

/-- The amounts are written without an exponent. -/
def BelowLimit (lineItems : List ZATCAInvoiceLineItem) : Prop :=
  (lineItems.map lineRiyals).sum < 10^21

/-- The totals agree in what `toFixedNoRounding` leaves of them: of a number with an exponent, the
digits before it. -/
def MantissasAgree (kind : Phase2Kind) (lineItems : List ZATCAInvoiceLineItem) : Prop :=
  printedInclusive kind (subtotals lineItems + totalTax kind lineItems) =
      cents (subtotals lineItems) + totalTax kind lineItems ∧
    cents (documentTaxes lineItems) = totalTax kind lineItems

theorem sum_lostCents (lineItem : ZATCAInvoiceLineItem) :
    ((rates lineItem).map (lostCents lineItem)).sum =
      (taxesOn (taxableAmount lineItem) lineItem).sum -
        (taxesOn (lineSubtotal lineItem) lineItem).sum := by
  unfold taxesOn
  induction rates lineItem with
  | nil => simp
  | cons r l ih =>
    simp only [List.map_cons,List.sum_cons,ih,lostCents]
    ring

theorem sum_map_abs_nonneg (l : List ℚ) : 0 ≤ (l.map abs).sum := List.sum_nonneg (by simp)

theorem lineRiyals_nonneg (lineItem : ZATCAInvoiceLineItem) : 0 ≤ lineRiyals lineItem := by
  have hsubtotal := abs_nonneg (lineSubtotal lineItem)
  have hcut := sum_map_abs_nonneg (taxesOn (lineSubtotal lineItem) lineItem)
  have hwhole := sum_map_abs_nonneg (taxesOn (taxableAmount lineItem) lineItem)
  unfold lineRiyals
  linarith

theorem abs_sum_map_le {α : Type} (f g : α → ℚ) (l : List α) (h : ∀ a ∈ l, |f a| ≤ g a) :
    |(l.map f).sum| ≤ (l.map g).sum := by
  induction l with
  | nil => simp
  | cons a l ih =>
    simp only [List.map_cons,List.sum_cons]
    have hadd := abs_add_le (f a) (l.map f).sum
    have ha := h a List.mem_cons_self
    have hl := ih fun b hb => h b (List.mem_cons_of_mem _ hb)
    linarith

theorem sum_map_add {α : Type} (f g : α → ℚ) (l : List α) :
    (l.map f).sum + (l.map g).sum = (l.map fun a => f a + g a).sum := by
  induction l with
  | nil => simp
  | cons a l ih =>
    simp only [List.map_cons,List.sum_cons,← ih]
    ring

section limit
variable {lineItems : List ZATCAInvoiceLineItem} (h : ∀ l ∈ lineItems, l.Decimal)
  (hlt : BelowLimit lineItems)

include hlt in
omit h in
theorem lineRiyals_lt : ∀ l ∈ lineItems, lineRiyals l < 10^21 := by
  intro l hl
  refine lt_of_le_of_lt (List.single_le_sum ?_ _ (List.mem_map_of_mem hl)) hlt
  intro a ha
  obtain ⟨l',-,rfl⟩ := List.mem_map.1 ha
  exact lineRiyals_nonneg l'

include h hlt

/-- Below the limit a line has the same tax in all documents. -/
theorem lineTaxes_eq (kind : Phase2Kind) : ∀ l ∈ lineItems,
    (phase2Builder kind).lineTaxes l = (taxesOn (lineSubtotal l) l).sum := by
  intro l hl
  have hl' := lineRiyals_lt hlt l hl
  have hsubtotal := abs_nonneg (lineSubtotal l)
  have hwhole := sum_map_abs_nonneg (taxesOn (taxableAmount l) l)
  have hcut : ((taxesOn (lineSubtotal l) l).map abs).sum < 10^21 := by
    unfold lineRiyals at hl'
    linarith
  have hcents := isCents_taxesOn (h l hl) (isCents_lineSubtotal (h l hl)).isDecimal
  have hinvoice := invoiceLineTaxes_eq (h l hl) hcut
  have hdebit : debitNoteLineTaxes l = (taxesOn (lineSubtotal l) l).sum := by
    rw [debitNoteLineTaxes_eq (h l hl)]
    exact cents_eq_self (IsCents.sum hcents) ((abs_sum_le _).trans_lt hcut)
  match kind with
  | ⟨.simplifiedTaxInvoice,_⟩ => exact hinvoice
  | ⟨.standardTaxInvoice,_⟩ => exact hinvoice
  | ⟨.simplifiedCreditNote,_⟩ => exact hinvoice
  | ⟨.standardCreditNote,_⟩ => exact hinvoice
  | ⟨.simplifiedDebitNote,_⟩ => exact hdebit
  | ⟨.standardDebitNote,_⟩ => exact hdebit

theorem totalTax_eq (kind : Phase2Kind) :
    totalTax kind lineItems = (lineItems.map fun l => (taxesOn (lineSubtotal l) l).sum).sum := by
  rw [totalTax,List.map_congr_left (lineTaxes_eq h hlt kind)]

theorem isCents_totalTax (kind : Phase2Kind) : IsCents (totalTax kind lineItems) := by
  rw [totalTax_eq h hlt]
  refine IsCents.sum fun a ha => ?_
  obtain ⟨l,hl,rfl⟩ := List.mem_map.1 ha
  exact IsCents.sum (isCents_taxesOn (h l hl) (isCents_lineSubtotal (h l hl)).isDecimal)

theorem printedInclusive_eq (kind : Phase2Kind) :
    printedInclusive kind (subtotals lineItems + totalTax kind lineItems) =
      subtotals lineItems + totalTax kind lineItems := by
  have hlim : |subtotals lineItems + totalTax kind lineItems| < 10^21 := by
    rw [totalTax_eq h hlt,subtotals,sum_map_add]
    refine lt_of_le_of_lt (abs_sum_map_le _ lineRiyals _ fun l _ => ?_) hlt
    have hadd := abs_add_le (lineSubtotal l) (taxesOn (lineSubtotal l) l).sum
    have hsum := abs_sum_le (taxesOn (lineSubtotal l) l)
    have hwhole := sum_map_abs_nonneg (taxesOn (taxableAmount l) l)
    unfold lineRiyals
    linarith
  have hcents := (isCents_subtotals h).add (isCents_totalTax h hlt kind)
  have hself := cents_eq_self hcents hlim
  match kind with
  | ⟨.simplifiedTaxInvoice,_⟩ => rfl
  | ⟨.standardTaxInvoice,_⟩ => rfl
  | ⟨.simplifiedCreditNote,_⟩ => rfl
  | ⟨.standardCreditNote,_⟩ => rfl
  | ⟨.simplifiedDebitNote,_⟩ => exact hself
  | ⟨.standardDebitNote,_⟩ => exact hself

theorem cents_subtotals : cents (subtotals lineItems) = subtotals lineItems := by
  refine cents_eq_self (isCents_subtotals h) ?_
  refine lt_of_le_of_lt (abs_sum_map_le _ lineRiyals _ fun l _ => ?_) hlt
  have hcut := sum_map_abs_nonneg (taxesOn (lineSubtotal l) l)
  have hwhole := sum_map_abs_nonneg (taxesOn (taxableAmount l) l)
  unfold lineRiyals
  linarith

theorem cents_documentTaxes : cents (documentTaxes lineItems) = documentTaxes lineItems := by
  refine cents_eq_self (isCents_documentTaxes h) ?_
  rw [documentTaxes_eq]
  refine lt_of_le_of_lt (abs_sum_map_le _ lineRiyals _ fun l _ => ?_) hlt
  have hsubtotal := abs_nonneg (lineSubtotal l)
  have hcut := sum_map_abs_nonneg (taxesOn (lineSubtotal l) l)
  have hsum := abs_sum_le (taxesOn (taxableAmount l) l)
  unfold lineRiyals
  linarith

theorem totalLost_eq (kind : Phase2Kind) :
    totalLost lineItems = documentTaxes lineItems - totalTax kind lineItems := by
  have hsum := sum_map_add (fun l => ((rates l).map (lostCents l)).sum)
    (fun l => (taxesOn (lineSubtotal l) l).sum) lineItems
  simp only [sum_lostCents,sub_add_cancel] at hsum
  rw [documentTaxes_eq,totalTax_eq h hlt]
  simp only [totalLost,sum_lostCents]
  linarith

end limit

/-- The line has no amount below zero, and none that is written with an exponent. -/
structure ZATCAInvoiceLineItem.Ordinary (lineItem : ZATCAInvoiceLineItem) : Prop
    extends lineItem.Decimal where
  covered : 0 ≤ taxableAmount lineItem
  positive : ∀ r ∈ Zatca.rates lineItem, 0 ≤ r
  amount : Number.Plain (taxableAmount lineItem)
  onWhole : ∀ r ∈ Zatca.rates lineItem, Number.Plain (r * taxableAmount lineItem / 100)
  onCut : ∀ r ∈ Zatca.rates lineItem, Number.Plain (r * lineSubtotal lineItem / 100)

theorem cents_of_nonneg {q : ℚ} (h : IsDecimal q) (hp : Number.Plain q) (h0 : 0 ≤ q) :
    cents q = ⌊q * 100⌋₊ / 100 := by
  rw [cents_of_plain h hp,abs_of_nonneg h0,Number.signed,if_neg (not_lt.2 h0)]

section ordinary
variable {lineItem : ZATCAInvoiceLineItem} (h : lineItem.Ordinary)
include h

theorem lineSubtotal_nonneg : 0 ≤ lineSubtotal lineItem := by
  rw [lineSubtotal,cents_of_nonneg (isDecimal_taxableAmount h.toDecimal) h.amount h.covered]
  positivity

theorem lineSubtotal_le : lineSubtotal lineItem ≤ taxableAmount lineItem := by
  rw [lineSubtotal,cents_of_nonneg (isDecimal_taxableAmount h.toDecimal) h.amount h.covered]
  have hfloor := Nat.floor_le (show 0 ≤ taxableAmount lineItem * 100 by linarith [h.covered])
  linarith

theorem lostCents_eq {percent : ℚ} (hr : percent ∈ rates lineItem) :
    lostCents lineItem percent =
      ((⌊percent * taxableAmount lineItem⌋₊ : ℚ) - ⌊percent * lineSubtotal lineItem⌋₊) / 100 := by
  have hrate := h.rates percent hr
  have hwhole := (hrate.mul (isDecimal_taxableAmount h.toDecimal)).percent
  have hcut := (hrate.mul (isCents_lineSubtotal h.toDecimal).isDecimal).percent
  have hpos := h.positive percent hr
  have hsub := lineSubtotal_nonneg h
  have hcovered := h.covered
  rw [lostCents,cents_of_nonneg hwhole (h.onWhole percent hr) (by positivity),
    cents_of_nonneg hcut (h.onCut percent hr) (by positivity),div_mul_cancel₀ _ (by norm_num),
    div_mul_cancel₀ _ (by norm_num),sub_div]

theorem lostCents_nonneg : ∀ r ∈ rates lineItem, 0 ≤ lostCents lineItem r := by
  intro r hr
  have hmono : ⌊r * lineSubtotal lineItem⌋₊ ≤ ⌊r * taxableAmount lineItem⌋₊ :=
    Nat.floor_mono (mul_le_mul_of_nonneg_left (lineSubtotal_le h) (h.positive r hr))
  have hcast : (⌊r * lineSubtotal lineItem⌋₊ : ℚ) ≤ ⌊r * taxableAmount lineItem⌋₊ := by
    exact_mod_cast hmono
  rw [lostCents_eq h hr]
  linarith

/-- Nothing is lost where the amount of the line and its whole cents come to the same cents of
tax. -/
theorem lostCents_eq_zero_iff {r : ℚ} (hr : r ∈ rates lineItem) : lostCents lineItem r = 0 ↔
    ⌊r * taxableAmount lineItem⌋₊ = ⌊r * (⌊taxableAmount lineItem * 100⌋₊ / 100)⌋₊ := by
  have hsubtotal : lineSubtotal lineItem = ⌊taxableAmount lineItem * 100⌋₊ / 100 :=
    cents_of_nonneg (isDecimal_taxableAmount h.toDecimal) h.amount h.covered
  rw [lostCents_eq h hr,hsubtotal,div_eq_zero_iff,sub_eq_zero,Nat.cast_inj]
  norm_num

end ordinary

/-- Two sums over one list, the one nowhere above the other, are equal only member by member. -/
theorem sum_map_eq_iff_of_le {α : Type} {f g : α → ℚ} {l : List α} (hle : ∀ a ∈ l, f a ≤ g a) :
    (l.map f).sum = (l.map g).sum ↔ ∀ a ∈ l, f a = g a := by
  induction l with
  | nil => simp
  | cons a l ih =>
    obtain ⟨ha,hl⟩ := List.forall_mem_cons.1 hle
    have hsums := List.sum_le_sum hl
    simp only [List.map_cons,List.sum_cons,List.forall_mem_cons,← ih hl]
    constructor
    · intro heq
      constructor
      · linarith
      · linarith
    · rintro ⟨hhead,hrest⟩
      rw [hhead,hrest]

theorem sum_map_eq_zero_iff {α : Type} {f : α → ℚ} {l : List α} (h : ∀ a ∈ l, 0 ≤ f a) :
    (l.map f).sum = 0 ↔ ∀ a ∈ l, f a = 0 := by
  have hzero : (l.map fun _ => (0 : ℚ)).sum = 0 := by simp
  calc (l.map f).sum = 0
      ↔ (l.map fun _ => (0 : ℚ)).sum = (l.map f).sum := by rw [hzero,eq_comm]
    _ ↔ ∀ a ∈ l, 0 = f a := sum_map_eq_iff_of_le h
    _ ↔ ∀ a ∈ l, f a = 0 := forall₂_congr fun a _ => eq_comm

/-- Where no amount is below zero nothing makes up for a lost cent. -/
theorem totalLost_eq_zero_iff {lineItems : List ZATCAInvoiceLineItem}
    (h : ∀ l ∈ lineItems, l.Ordinary) : totalLost lineItems = 0 ↔
      ∀ l ∈ lineItems, ∀ r ∈ rates l,
        ⌊r * taxableAmount l⌋₊ = ⌊r * (⌊taxableAmount l * 100⌋₊ / 100)⌋₊ := by
  have hline (l : ZATCAInvoiceLineItem) (hl : l ∈ lineItems) :
      0 ≤ ((rates l).map (lostCents l)).sum := by
    refine List.sum_nonneg fun a ha => ?_
    obtain ⟨r,hr,rfl⟩ := List.mem_map.1 ha
    exact lostCents_nonneg (h l hl) r hr
  rw [totalLost,sum_map_eq_zero_iff hline]
  refine forall₂_congr fun l hl => ?_
  rw [sum_map_eq_zero_iff (lostCents_nonneg (h l hl))]
  exact forall₂_congr fun r hr => lostCents_eq_zero_iff (h l hl) hr

namespace Sample

/-- Two pieces at 10 riyals, with VAT. -/
def evenLine : ZATCAInvoiceLineItem :=
  { id := "1",name := "pen",quantity := 2,taxExclusivePrice := 10,vatPercent := 15 }

/-- One piece at 6.669 riyals: cut to 6.66 it is below the price at which the VAT reaches a riyal. -/
def oddLine : ZATCAInvoiceLineItem :=
  { id := "1",name := "pen",quantity := 1,taxExclusivePrice := 6669/1000,vatPercent := 15 }

theorem evenLine_decimal : ∀ l ∈ [evenLine], l.Decimal := by
  intro l hl
  obtain rfl := List.mem_singleton.1 hl
  exact
    { quantity := .natCast 2
      price := .natCast 10
      rates := rates_isDecimal (.natCast 15) nofun
      discounts := nofun }

end Sample

end Zatca
