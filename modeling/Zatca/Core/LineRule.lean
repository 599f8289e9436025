import Zatca.Core.NonnegativeAmounts
set_option autoImplicit false

/-! The printed amount of a line against the figures that are printed with it. -/

namespace Zatca
open Number

/-- The number toward zero in whole cents. -/
def truncateCents (q : ℚ) : ℚ := signed q (⌊|q| * 100⌋₊ / 100)

/-- The charges of a line, which stand under its price or beside it. -/
def allowanceCharges (line : XMLObject) : List XMLObject :=
  let beside := line.field "cac:AllowanceCharge"
  let under := (line.field "cac:Price").bind (Json.field "cac:AllowanceCharge")
  match beside, under with
  | some (.arr charges), _ => charges
  | none, some (.arr charges) => charges
  | _, _ => []

/-- The printed amount of a line is its printed quantity at its printed price less the printed
charges, in whole cents. -/
def LineReconciles (line : XMLObject) : Prop := ∃ extension quantity price : ℚ, ∃ charges : List ℚ,
  printedAmount "cbc:LineExtensionAmount" line = some extension ∧
  printedAmount "cbc:InvoicedQuantity" line = some quantity ∧
  (line.field "cac:Price").bind (printedAmount "cbc:PriceAmount") = some price ∧
  (allowanceCharges line).map (printedAmount "cbc:Amount") = charges.map some ∧
  extension = truncateCents (quantity * price - charges.sum)

/-! ### What printing changes -/

namespace BaseInvoiceBuilder
variable (b : BaseInvoiceBuilder)

def printedQuantity (lineItem : ZATCAInvoiceLineItem) : ℚ :=
  if b.includeInvoiceQuantityFraction then cents lineItem.quantity else lineItem.quantity

def printedPrice (lineItem : ZATCAInvoiceLineItem) : ℚ :=
  if b.formatPriceAmountText then cents lineItem.taxExclusivePrice else lineItem.taxExclusivePrice

def printedDiscounts (lineItem : ZATCAInvoiceLineItem) : List ℚ :=
  lineItem.discounts.map fun discount => cents discount.amount

/-- How far the amount of a line moves when its factors and discounts are cut for printing. -/
def drift (lineItem : ZATCAInvoiceLineItem) : ℚ :=
  (b.printedQuantity lineItem * b.printedPrice lineItem - lineItem.taxExclusivePrice * lineItem.quantity) +
    (totalDiscounts lineItem - (printedDiscounts lineItem).sum)

end BaseInvoiceBuilder

/-- `z` is in the cent of `y`, which toward zero reaches to both sides of it. -/
def SameCent (y z : ℚ) : Prop :=
  ⌊|y| * 100⌋₊ ≤ |z| * 100 ∧ |z| * 100 < ⌊|y| * 100⌋₊ + 1 ∧ (⌊|y| * 100⌋₊ = 0 ∨ (y < 0 ↔ z < 0))

/-- A number as its text starts, which for one written with an exponent is the mantissa. -/
def writtenFigure (q : ℚ) : ℚ := if Plain q then q else signed q (numeral q).magnitude

/-- What is cut for printing leaves the amount of the line in the cent that its text starts with. -/
def DriftStaysInCent (b : BaseInvoiceBuilder) (lineItem : ZATCAInvoiceLineItem) : Prop :=
  SameCent (writtenFigure (taxableAmount lineItem)) (taxableAmount lineItem + b.drift lineItem)

theorem truncateCents_eq_iff (y z : ℚ) : truncateCents y = truncateCents z ↔ SameCent y z := by
  have hfloor : ⌊|z| * 100⌋₊ = ⌊|y| * 100⌋₊ ↔
      (⌊|y| * 100⌋₊ : ℚ) ≤ |z| * 100 ∧ |z| * 100 < ⌊|y| * 100⌋₊ + 1 :=
    Nat.floor_eq_iff (by positivity)
  rw [SameCent,← and_assoc,← hfloor]
  unfold truncateCents signed
  generalize ⌊|y| * 100⌋₊ = k
  generalize ⌊|z| * 100⌋₊ = k'
  have hk : (0 : ℚ) ≤ k := Nat.cast_nonneg k
  have hk' : (0 : ℚ) ≤ k' := Nat.cast_nonneg k'
  have hsame : (k : ℚ) / 100 = k' / 100 ↔ k' = k := by
    rw [div_left_inj' (by norm_num),Nat.cast_inj]
    exact eq_comm
  have hopposite : (k : ℚ) / 100 = -(k' / 100) ↔ k' = k ∧ k = 0 := by
    constructor
    · intro he
      have hz : (k : ℚ) = 0 := by linarith
      have hz' : (k' : ℚ) = 0 := by linarith
      rw [Nat.cast_eq_zero] at hz hz'
      exact ⟨hz'.trans hz.symm,hz⟩
    · rintro ⟨rfl,rfl⟩
      norm_num
  by_cases hy : y < 0
  · by_cases hz : z < 0
    · simp [hy,hz,hsame]
    · have hneg : -((k : ℚ) / 100) = k' / 100 ↔ k' = k ∧ k = 0 := by
        rw [← hopposite]
        constructor
        · intro he
          linarith
        · intro he
          linarith
      simp [hy,hz,hneg]
  · by_cases hz : z < 0
    · simp [hy,hz,hopposite]
    · simp [hy,hz,hsame]

theorem truncateCents_writtenFigure {q : ℚ} (h : IsDecimal q) :
    truncateCents (writtenFigure q) = cents q := by
  by_cases hp : Plain q
  · rw [writtenFigure,if_pos hp,cents_of_plain h hp,truncateCents]
  · have hm := one_le_magnitude h hp
    have habs : |signed q (numeral q).magnitude| = (numeral q).magnitude := by
      unfold signed
      split
      · rw [abs_neg,abs_of_nonneg (by linarith)]
      · exact abs_of_nonneg (by linarith)
    have hsign : signed q (numeral q).magnitude < 0 ↔ q < 0 := by
      unfold signed
      split
      · next hq =>
        simp only [hq,iff_true]
        linarith
      · next hq =>
        simp only [hq,iff_false]
        linarith
    rw [writtenFigure,if_neg hp,truncateCents,habs,cents_eq h]
    simp only [signed] at hsign ⊢
    simp only [hsign]

/-- Where the factors are printed in full only the discounts can drift. -/
theorem drift_of_full {b : BaseInvoiceBuilder} (hq : b.includeInvoiceQuantityFraction = false)
    (hp : b.formatPriceAmountText = false) (lineItem : ZATCAInvoiceLineItem) :
    b.drift lineItem =
      totalDiscounts lineItem - (BaseInvoiceBuilder.printedDiscounts lineItem).sum := by
  simp only [BaseInvoiceBuilder.drift,BaseInvoiceBuilder.printedQuantity,
    BaseInvoiceBuilder.printedPrice,hq,hp,Bool.false_eq_true,if_false]
  ring

/-! ### One line -/

section line
variable {b : BaseInvoiceBuilder} {lineItem : ZATCAInvoiceLineItem} {totals : LineItemTotals}

/-- A figure is printed in full or cut to cents. -/
theorem read_figure {q : ℚ} (h : IsDecimal q) (cut : Bool) :
    ((if cut then fixedText q else .num q : Json).printed).bind Number.parseFloat =
      some (if cut then cents q else q) := by
  cases cut with
  | true =>
    simp only [if_true,fixedText,Json.printed,Option.bind_some]
    exact parseFloat_fixedText h
  | false =>
    simp only [Bool.false_eq_true,if_false,Json.printed,Option.bind_some]
    exact parseFloat_toString h

theorem printed_quantity (h : IsDecimal lineItem.quantity) :
    printedAmount "cbc:InvoicedQuantity" (b.assembleLineItemXml lineItem totals) =
      some (b.printedQuantity lineItem) := by
  have hfield : (b.assembleLineItemXml lineItem totals).field "cbc:InvoicedQuantity" =
      some (.obj [("@_unitCode",.str "PCE"),("#text",if b.includeInvoiceQuantityFraction then
        fixedText lineItem.quantity else .num lineItem.quantity)]) := by
    simp [BaseInvoiceBuilder.assembleLineItemXml,Json.field,List.lookup]
  have hread := read_figure h b.includeInvoiceQuantityFraction
  rw [printedAmount,hfield]
  simpa [Json.field,List.lookup,BaseInvoiceBuilder.printedQuantity] using hread

theorem printed_price (h : IsDecimal lineItem.taxExclusivePrice) :
    ((b.assembleLineItemXml lineItem totals).field "cac:Price").bind (printedAmount "cbc:PriceAmount") =
      some (b.printedPrice lineItem) := by
  have hread := read_figure h b.formatPriceAmountText
  simpa [BaseInvoiceBuilder.assembleLineItemXml,Json.field,List.lookup,printedAmount,sar,
    BaseInvoiceBuilder.printedPrice] using hread

theorem printed_extension (h : IsDecimal totals.lineItemTotalTaxExclusive) :
    printedAmount "cbc:LineExtensionAmount" (b.assembleLineItemXml lineItem totals) =
      some (cents totals.lineItemTotalTaxExclusive) :=
  printedAmount_fixed h (by simp [BaseInvoiceBuilder.assembleLineItemXml,Json.field,List.lookup])

/-- The charges are found wherever the builder puts them. -/
theorem allowanceCharges_line :
    allowanceCharges (b.assembleLineItemXml lineItem totals) = totals.cacAllowanceCharges := by
  cases htop : b.allowanceChargeAtLineTop with
  | false =>
    cases hbase : b.includePriceBaseQuantity <;>
      simp [allowanceCharges,BaseInvoiceBuilder.assembleLineItemXml,Json.field,List.lookup,htop,hbase]
  | true =>
    cases hcharges : totals.cacAllowanceCharges with
    | nil =>
      cases hbase : b.includePriceBaseQuantity <;>
        simp [allowanceCharges,BaseInvoiceBuilder.assembleLineItemXml,Json.field,List.lookup,htop,
          hbase,hcharges]
    | cons charge charges =>
      simp [allowanceCharges,BaseInvoiceBuilder.assembleLineItemXml,Json.field,List.lookup,htop,
        hcharges]

theorem printed_charges (h : ∀ d ∈ lineItem.discounts, IsDecimal d.amount) :
    (lineItem.discounts.map allowanceCharge).map (printedAmount "cbc:Amount") =
      (BaseInvoiceBuilder.printedDiscounts lineItem).map some := by
  simp only [BaseInvoiceBuilder.printedDiscounts,List.map_map]
  refine List.map_congr_left fun d hd => ?_
  have hfield : (allowanceCharge d).field "cbc:Amount" = some (sar (fixedText d.amount)) := by
    simp [allowanceCharge,Json.field,List.lookup]
  rw [Function.comp_apply,Function.comp_apply,printedAmount_fixed (h d hd) hfield]

end line

/-- The overrides of every builder compute the amount and the charges of a line alike. -/
theorem phase2_line (kind : Phase2Kind) (lineItem : ZATCAInvoiceLineItem) :
    ((phase2Builder kind).buildLineItemTotals lineItem).lineItemTotalTaxExclusive =
        lineSubtotal lineItem ∧
      ((phase2Builder kind).buildLineItemTotals lineItem).cacAllowanceCharges =
        lineItem.discounts.map allowanceCharge := by
  obtain ⟨kind,hkind⟩ := kind
  cases kind with
  | phase1Invoice => cases hkind
  | phase1CreditNote => cases hkind
  | _ => exact ⟨rfl,rfl⟩

theorem lineReconciles_iff (kind : Phase2Kind) {lineItem : ZATCAInvoiceLineItem}
    (h : lineItem.Decimal) :
    LineReconciles ((phase2Builder kind).assembleLineItemXml lineItem
      ((phase2Builder kind).buildLineItemTotals lineItem)) ↔
      DriftStaysInCent (phase2Builder kind) lineItem := by
  generalize hb : phase2Builder kind = b
  obtain ⟨hext,hcharges⟩ := hb ▸ phase2_line kind lineItem
  have hdecimal := isDecimal_taxableAmount h
  have hextension : printedAmount "cbc:LineExtensionAmount"
      (b.assembleLineItemXml lineItem (b.buildLineItemTotals lineItem)) = some (lineSubtotal lineItem) := by
    rw [printed_extension (by rw [hext]; exact (isCents_lineSubtotal h).isDecimal),hext]
    exact congrArg some (cents_cents hdecimal)
  have hallowance : (allowanceCharges (b.assembleLineItemXml lineItem
      (b.buildLineItemTotals lineItem))).map (printedAmount "cbc:Amount") =
        (BaseInvoiceBuilder.printedDiscounts lineItem).map some := by
    rw [allowanceCharges_line,hcharges,printed_charges h.discounts]
  have hmoved : b.printedQuantity lineItem * b.printedPrice lineItem -
      (BaseInvoiceBuilder.printedDiscounts lineItem).sum = taxableAmount lineItem + b.drift lineItem := by
    rw [taxableAmount,BaseInvoiceBuilder.drift]
    ring
  have hreconciles : LineReconciles (b.assembleLineItemXml lineItem (b.buildLineItemTotals lineItem)) ↔
      lineSubtotal lineItem = truncateCents (taxableAmount lineItem + b.drift lineItem) := by
    constructor
    · rintro ⟨extension,quantity,price,charges,he,hq,hp,hc,heq⟩
      obtain rfl := Option.some.inj (hextension.symm.trans he)
      obtain rfl := Option.some.inj ((printed_quantity h.quantity).symm.trans hq)
      obtain rfl := Option.some.inj ((printed_price h.price).symm.trans hp)
      obtain rfl := List.map_injective_iff.2 (Option.some_injective ℚ) (hallowance.symm.trans hc)
      rw [heq,hmoved]
    · intro heq
      exact ⟨_,_,_,_,hextension,printed_quantity h.quantity,printed_price h.price,hallowance,
        by rw [heq,hmoved]⟩
  rw [hreconciles,DriftStaysInCent,← truncateCents_eq_iff,truncateCents_writtenFigure hdecimal,
    lineSubtotal]

namespace Sample

/-- Eight pens at an eighth of a riyal. -/
def eighthLine : ZATCAInvoiceLineItem :=
  { id := "1",name := "pen",quantity := 8,taxExclusivePrice := 1/8,vatPercent := 15 }

/-- A pen at one riyal, with half a halala off twice. -/
def halalaLine : ZATCAInvoiceLineItem :=
  { id := "1",name := "pen",quantity := 1,taxExclusivePrice := 1,vatPercent := 15
    discounts := [⟨1/200,"sale"⟩,⟨1/200,"loyalty"⟩] }

theorem eighthLine_accepted : ∀ l ∈ [eighthLine], l.Accepted := by
  intro l hl
  obtain rfl := List.mem_singleton.1 hl
  exact
    { quantity := .natCast 8
      price := isDecimal_iff.2 ⟨3,125,by norm_num [eighthLine]⟩
      rates := rates_isDecimal (.natCast 15) nofun
      discounts := nofun
      schema := (ZATCAInvoiceLineItem.schema_iff _).2 (by
        norm_num [eighthLine]
        decide) }

theorem halalaLine_accepted : ∀ l ∈ [halalaLine], l.Accepted := by
  have hhalf : IsDecimal (1/200) := isDecimal_iff.2 ⟨3,5,by norm_num⟩
  intro l hl
  obtain rfl := List.mem_singleton.1 hl
  exact
    { quantity := .natCast 1
      price := .natCast 1
      rates := rates_isDecimal (.natCast 15) nofun
      discounts := by
        intro d hd
        obtain rfl | rfl : d = ⟨1/200,"sale"⟩ ∨ d = ⟨1/200,"loyalty"⟩ := by
          simpa [halalaLine] using hd
        · exact hhalf
        · exact hhalf
      schema := (ZATCAInvoiceLineItem.schema_iff _).2 (by
        norm_num [halalaLine]
        decide) }

end Sample

end Zatca
