import Zatca.Core.NonnegativeAmounts
import Zatca.Core.Templates
set_option autoImplicit false

/-! What is owed by the totals of each phase. -/

namespace Zatca

/-! ### The Phase 2 line arithmetic -/

namespace Phase2
variable (cut : ℚ → ℚ)

/-- The arithmetic of `buildInvoiceLineItemTotals` with `cut` for its truncations to cents. -/
def lineSubtotal (lineItem : ZATCAInvoiceLineItem) : ℚ := cut (taxableAmount lineItem)

def lineVat (lineItem : ZATCAInvoiceLineItem) : ℚ :=
  cut (cut 0 + cut (lineSubtotal cut lineItem * lineItem.vatPercent / 100))

def lineTaxes (lineItem : ZATCAInvoiceLineItem) : ℚ :=
  lineItem.otherTaxes.foldl (fun totalTaxes percentAmount =>
    cut (cut totalTaxes + cut (percentAmount * lineSubtotal cut lineItem / 100)))
    (lineVat cut lineItem)

/-- The lines summed as `build` sums them. -/
def computeTotals (lineItems : List ZATCAInvoiceLineItem) : Phase1.Totals where
  subtotal := lineItems.foldl (fun total lineItem => total + cut (lineSubtotal cut lineItem)) 0
  vatAmount := lineItems.foldl (fun total lineItem => total + cut (lineTaxes cut lineItem)) 0

end Phase2

/-- With the truncations of the code these are the totals of the code. -/
theorem phase2_computeTotals_cents (lineItems : List ZATCAInvoiceLineItem) :
    invoiceBuilder.totalSubtotal lineItems =
        nearestCents (Phase2.computeTotals cents lineItems).subtotal ∧
      invoiceBuilder.totalTaxes lineItems =
        nearestCents (Phase2.computeTotals cents lineItems).vatAmount := ⟨rfl,rfl⟩

/-- The same tax-exclusive total, tax total and grand total. -/
def Phase1.Totals.Agrees (t t' : Phase1.Totals) : Prop :=
  t.subtotal = t'.subtotal ∧ t.vatAmount = t'.vatAmount ∧ t.total = t'.total

/-- No line has anything off, and a line that is not free no tax besides the VAT. -/
def NothingBesideVat (lineItems : List ZATCAInvoiceLineItem) : Prop :=
  ∀ l ∈ lineItems, (∀ d ∈ l.discounts, d.amount = 0) ∧
    (0 < l.taxExclusivePrice → ∀ r ∈ l.otherTaxes, r = 0)

/-! ### The sums -/

def lineTotals (lineItems : List ZATCAInvoiceLineItem) : List ℚ :=
  lineItems.map fun l => l.taxExclusivePrice * l.quantity

def lineVats (lineItems : List ZATCAInvoiceLineItem) : List ℚ :=
  lineItems.map fun l => l.taxExclusivePrice * l.quantity * l.vatPercent / 100

theorem phase1_computeTotals_foldl (lineItems : List ZATCAInvoiceLineItem) (t : Phase1.Totals) :
    lineItems.foldl (fun t item =>
        { subtotal := t.subtotal + item.taxExclusivePrice * item.quantity
          vatAmount := t.vatAmount +
            item.taxExclusivePrice * item.quantity * item.vatPercent / 100 }) t =
      { subtotal := t.subtotal + (lineTotals lineItems).sum
        vatAmount := t.vatAmount + (lineVats lineItems).sum } := by
  induction lineItems generalizing t with
  | nil => simp [lineTotals,lineVats]
  | cons l lineItems ih =>
    rw [List.foldl_cons,ih]
    simp only [lineTotals,lineVats,List.map_cons,List.sum_cons,add_assoc]

theorem phase1_computeTotals (lineItems : List ZATCAInvoiceLineItem) :
    Phase1.computeTotals lineItems =
      { subtotal := (lineTotals lineItems).sum
        vatAmount := (lineVats lineItems).sum } := by
  have h := phase1_computeTotals_foldl lineItems ⟨0,0⟩
  simp only [zero_add] at h
  exact h

/-- What is asked of a line in full: the VAT and the other taxes on what is left of its price. -/
theorem phase2_lineTaxes_id (lineItem : ZATCAInvoiceLineItem) :
    Phase2.lineTaxes id lineItem = taxableAmount lineItem * lineItem.vatPercent / 100 +
      (lineItem.otherTaxes.map fun r => r * taxableAmount lineItem / 100).sum := by
  simp only [Phase2.lineTaxes,Phase2.lineVat,Phase2.lineSubtotal,id_eq,zero_add]
  exact foldl_add _ _ _

theorem phase2_computeTotals_id (lineItems : List ZATCAInvoiceLineItem) :
    Phase2.computeTotals id lineItems =
      { subtotal := (lineItems.map taxableAmount).sum
        vatAmount := (lineItems.map (Phase2.lineTaxes id)).sum } := by
  simp only [Phase2.computeTotals,Phase2.lineSubtotal,id_eq,foldl_add,zero_add]

/-! ### Where the phases agree -/

section accepted
variable {lineItem : ZATCAInvoiceLineItem} (h : lineItem.Accepted)
include h

theorem totalDiscounts_eq_zero_iff :
    totalDiscounts lineItem = 0 ↔ ∀ d ∈ lineItem.discounts, d.amount = 0 := by
  rw [totalDiscounts,foldl_add,zero_add,sum_map_eq_zero_iff h.amount_nonneg]

theorem otherTaxes_nonneg : ∀ r ∈ lineItem.otherTaxes, 0 ≤ r :=
  fun r hr => h.rate_nonneg r (List.mem_cons_of_mem _ hr)

theorem lineTotal_nonneg : 0 ≤ lineItem.taxExclusivePrice * lineItem.quantity :=
  mul_nonneg h.price_nonneg h.quantity_pos.le

/-- The other taxes of a line come to nothing when its price or all their rates are zero. -/
theorem otherTaxes_eq_zero_iff :
    (lineItem.otherTaxes.map fun r =>
        r * (lineItem.taxExclusivePrice * lineItem.quantity) / 100).sum = 0 ↔
      (0 < lineItem.taxExclusivePrice → ∀ r ∈ lineItem.otherTaxes, r = 0) := by
  have hline := lineTotal_nonneg h
  have hquantity := h.quantity_pos.ne'
  rw [sum_map_eq_zero_iff fun r hr =>
    div_nonneg (mul_nonneg (otherTaxes_nonneg h r hr) hline) (by norm_num)]
  constructor
  · intro hall hprice r hr
    have hzero := hall r hr
    simpa [hprice.ne',hquantity] using hzero
  · intro hall r hr
    rcases h.price_nonneg.eq_or_lt with hfree | hprice
    · rw [← hfree,zero_mul,mul_zero,zero_div]
    · rw [hall hprice r hr,zero_mul,zero_div]

end accepted

/-- Phase 1 asks for what Phase 2 asks for exactly when there is nothing that Phase 1 leaves out. -/
theorem phaseTotals_agree_iff (lineItems : List ZATCAInvoiceLineItem)
    (h : ∀ l ∈ lineItems, l.Accepted) :
    (Phase1.computeTotals lineItems).Agrees (Phase2.computeTotals id lineItems) ↔
      NothingBesideVat lineItems := by
  rw [Phase1.Totals.Agrees,phase1_computeTotals,phase2_computeTotals_id]
  have hsubtotal : (lineTotals lineItems).sum =
      (lineItems.map taxableAmount).sum ↔ ∀ l ∈ lineItems, ∀ d ∈ l.discounts, d.amount = 0 := by
    have hle (l) (hl : l ∈ lineItems) : taxableAmount l ≤ l.taxExclusivePrice * l.quantity :=
      sub_le_self _ (h l hl).totalDiscounts_nonneg
    rw [lineTotals,eq_comm,sum_map_eq_iff_of_le hle]
    refine forall₂_congr fun l hl => ?_
    rw [← totalDiscounts_eq_zero_iff (h l hl),taxableAmount,sub_eq_self]
  -- without discounts the taxes of the two phases differ by the other taxes
  have htaxes (hnone : ∀ l ∈ lineItems, ∀ d ∈ l.discounts, d.amount = 0) :
      (lineVats lineItems).sum = (lineItems.map (Phase2.lineTaxes id)).sum ↔
      ∀ l ∈ lineItems, 0 < l.taxExclusivePrice → ∀ r ∈ l.otherTaxes, r = 0 := by
    have hline (l) (hl : l ∈ lineItems) : Phase2.lineTaxes id l =
        l.taxExclusivePrice * l.quantity * l.vatPercent / 100 +
          (l.otherTaxes.map fun r => r * (l.taxExclusivePrice * l.quantity) / 100).sum := by
      rw [phase2_lineTaxes_id,taxableAmount,
        (totalDiscounts_eq_zero_iff (h l hl)).2 (hnone l hl),sub_zero]
    rw [lineVats,sum_map_eq_iff_of_le]
    · refine forall₂_congr fun l hl => ?_
      rw [hline l hl,left_eq_add,otherTaxes_eq_zero_iff (h l hl)]
    · intro l hl
      rw [hline l hl]
      refine le_add_of_nonneg_right (List.sum_nonneg fun a ha => ?_)
      obtain ⟨r,hr,rfl⟩ := List.mem_map.1 ha
      have hr0 := otherTaxes_nonneg (h l hl) r hr
      have hl0 := lineTotal_nonneg (h l hl)
      positivity
  constructor
  · rintro ⟨hs,hv,-⟩
    have hnone := hsubtotal.1 hs
    exact fun l hl => ⟨hnone l hl,(htaxes hnone).1 hv l hl⟩
  · intro hnothing
    have hnone := fun l hl => (hnothing l hl).1
    have hs := hsubtotal.2 hnone
    have hv := (htaxes hnone).2 fun l hl => (hnothing l hl).2
    exact ⟨hs,hv,by simp only [Phase1.Totals.total,hs,hv]⟩

theorem phaseTotals_agree_on_even_line :
    (Phase1.computeTotals [Sample.evenLine]).Agrees (Phase2.computeTotals id [Sample.evenLine]) := by
  refine (phaseTotals_agree_iff [Sample.evenLine] Sample.evenLine_accepted).2 fun l hl => ?_
  obtain rfl := List.mem_singleton.1 hl
  exact ⟨nofun,fun _ => nofun⟩

namespace Sample

/-- A pen at 10 riyals with 1 riyal off. -/
def discounted : ZATCAInvoiceLineItem :=
  { id := "1",name := "pen",quantity := 1,taxExclusivePrice := 10,vatPercent := 15
    discounts := [⟨1,"sale"⟩] }

/-- A pen at 10 riyals with an excise of 50 percent. -/
def excised : ZATCAInvoiceLineItem :=
  { id := "1",name := "pen",quantity := 1,taxExclusivePrice := 10,vatPercent := 15
    otherTaxes := [50] }

theorem discounted_accepted : ∀ l ∈ [discounted], l.Accepted := by
  intro l hl
  obtain rfl := List.mem_singleton.1 hl
  exact
    { quantity := .natCast 1
      price := .natCast 10
      rates := rates_isDecimal (.natCast 15) nofun
      discounts := by
        intro d hd
        obtain rfl := List.mem_singleton.1 hd
        exact .natCast 1
      schema := by decide }

theorem excised_accepted : ∀ l ∈ [excised], l.Accepted := by
  intro l hl
  obtain rfl := List.mem_singleton.1 hl
  exact
    { quantity := .natCast 1
      price := .natCast 10
      rates := rates_isDecimal (.natCast 15) (by
        intro r hr
        obtain rfl := List.mem_singleton.1 hr
        exact .natCast 50)
      discounts := nofun
      schema := by decide }

end Sample

/-- Phase 1 asks for the riyal that is off, and not for the excise. -/
theorem phaseTotals_disagree :
    ((∀ l ∈ [Sample.discounted], l.Accepted) ∧
      ¬ (Phase1.computeTotals [Sample.discounted]).Agrees
        (Phase2.computeTotals id [Sample.discounted])) ∧
    (∀ l ∈ [Sample.excised], l.Accepted) ∧
      ¬ (Phase1.computeTotals [Sample.excised]).Agrees
        (Phase2.computeTotals id [Sample.excised]) := by
  refine ⟨⟨Sample.discounted_accepted,?_⟩,Sample.excised_accepted,?_⟩
  · rintro ⟨hsubtotal,-,-⟩
    norm_num [Phase1.computeTotals,Phase2.computeTotals,Phase2.lineSubtotal,taxableAmount,
      totalDiscounts,Sample.discounted] at hsubtotal
  · rintro ⟨-,htax,-⟩
    norm_num [Phase1.computeTotals,Phase2.computeTotals,Phase2.lineTaxes,Phase2.lineVat,
      Phase2.lineSubtotal,taxableAmount,totalDiscounts,Sample.excised] at htax

end Zatca
