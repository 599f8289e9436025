import Zatca.Core.AcceptedLines
import Zatca.Core.FixedNoRounding
set_option autoImplicit false

/-! The signs of the amounts that a Phase 2 document prints. -/

namespace Zatca

mutual
/-- The texts of the elements that have a currency, in a fragment. -/
def Json.amounts : Json → List Json
  | .obj fields =>
    (if (fields.lookup "@_currencyID").isSome then (fields.lookup "#text").toList else []) ++
      amountsOfFields fields
  | .arr xs => amountsOfArray xs
  | _ => []
def Json.amountsOfArray : List Json → List Json
  | [] => []
  | x :: xs => x.amounts ++ Json.amountsOfArray xs
def Json.amountsOfFields : List (String × Json) → List Json
  | [] => []
  | (_,x) :: fields => x.amounts ++ Json.amountsOfFields fields
end

/-- Everything that `build` prints with a currency. -/
def LineItemFragments.amounts (d : LineItemFragments) : List Json :=
  Json.amountsOfArray d.taxTotal ++ d.legalMonetaryTotal.amounts ++ Json.amountsOfArray d.invoiceLine

/-- The value prints a number that is not below zero, and not as `-0.00`. -/
def PrintsNonneg (v : Json) : Prop := ∃ text q, v.printed = some text ∧
  Number.parseFloat text = some q ∧ 0 ≤ q ∧ text ≠ "-0.00"

def LineItemFragments.AmountsNonneg (d : LineItemFragments) : Prop := ∀ v ∈ d.amounts, PrintsNonneg v

/-! ### One amount -/

namespace Number
variable {q : ℚ}

theorem signed_of_nonneg (h : 0 ≤ q) (m : ℚ) : signed q m = m := if_neg (not_lt.2 h)

theorem signed_of_neg (h : q < 0) (m : ℚ) : signed q m = -m := if_pos h

/-- A numeral without a sign starts with a digit. -/
theorem chars_ne_negative {n : Numeral} (h : n.WellFormed) (hn : n.negative = false) (rest : List Char) :
    String.ofList (n.chars ++ rest) ≠ "-0.00" := by
  intro he
  have hchars := congrArg String.toList he
  rw [String.toList_ofList,Numeral.chars,hn] at hchars
  cases hw : n.whole with
  | nil => exact h.nonempty hw
  | cons c whole =>
    rw [hw] at hchars
    have hc : c = '-' := by
      have hhead := congrArg List.head? hchars
      simpa [Numeral.sign] using hhead
    have hdigit := h.whole c (by rw [hw]; exact List.mem_cons_self)
    rw [hc] at hdigit
    exact absurd hdigit (by decide)

end Number

open Number

theorem cents_nonneg {q : ℚ} (h : IsDecimal q) (hq : 0 ≤ q) : 0 ≤ cents q := by
  rw [cents_eq h,signed_of_nonneg hq]
  positivity

theorem printsNonneg_fixedText {q : ℚ} (h : IsDecimal q) (hq : 0 ≤ q) : PrintsNonneg (fixedText q) := by
  refine ⟨toFixedNoRounding q 2,cents q,rfl,parseFloat_fixedText h,cents_nonneg h hq,?_⟩
  have hne := chars_ne_negative ((numeral_wellFormed h).fitted 2)
    (show ((numeral q).fitted 2).negative = false by
      rw [Numeral.fitted,negative_numeral]
      simpa using hq) []
  rwa [List.append_nil,← toFixedNoRounding_eq h (by decide)] at hne

theorem printsNonneg_num {q : ℚ} (h : IsDecimal q) (hq : 0 ≤ q) : PrintsNonneg (.num q) := by
  refine ⟨Number.toString q,q,rfl,parseFloat_toString h,hq,?_⟩
  refine chars_ne_negative (numeral_wellFormed h) ?_ _
  rw [negative_numeral]
  simpa using hq

/-- A number below zero is printed with its sign. -/
theorem not_printsNonneg_fixedText {q : ℚ} (h : IsDecimal q) (hq : q < 0) :
    ¬ PrintsNonneg (fixedText q) := by
  rintro ⟨text,a,htext,hread,ha,hne⟩
  obtain rfl : toFixedNoRounding q 2 = text := Option.some.inj htext
  have hcents := (parseFloat_fixedText h).symm.trans hread
  obtain rfl := Option.some.inj hcents
  rw [cents_eq h,signed_of_neg hq] at ha
  have hfloor : ⌊(numeral q).magnitude * 100⌋₊ = 0 := by
    by_contra hpos
    have hone : (1 : ℚ) ≤ ⌊(numeral q).magnitude * 100⌋₊ := by exact_mod_cast Nat.one_le_iff_ne_zero.2 hpos
    linarith
  by_cases hp : Plain q
  · rw [toFixedNoRounding_of_plain h hp (by decide),truncated,← magnitude_plain h hp] at hne
    norm_num at hne
    rw [hfloor] at hne
    simp only [hq,decide_true] at hne
    exact hne rfl
  · have hone := one_le_magnitude h hp
    have hge : 100 ≤ ⌊(numeral q).magnitude * 100⌋₊ := Nat.le_floor (by push_cast; linarith)
    omega

theorem printsNonneg_toFixed {q : ℚ} (h : IsDecimal q) (hq : 0 ≤ q) :
    PrintsNonneg (.str (toFixed q 2)) := by
  by_cases hlarge : 10^21 ≤ |q|
  · have htext : toFixed q 2 = Number.toString q := if_pos hlarge
    obtain ⟨text,a,hprinted,hread,ha,hne⟩ := printsNonneg_num h hq
    exact ⟨text,a,by rw [htext]; exact hprinted,hread,ha,hne⟩
  · have htext : toFixed q 2 = String.ofList (Numeral.ofScaled (q < 0) ⌊|q| * 10^2 + 1/2⌋.toNat 2).chars :=
      if_neg hlarge
    have hwf := Numeral.wellFormed_ofScaled (q < 0) ⌊|q| * 10^2 + 1/2⌋.toNat 2
    have hnegative : (Numeral.ofScaled (decide (q < 0)) ⌊|q| * 10^2 + 1/2⌋.toNat 2).negative = false := by
      simpa [Numeral.ofScaled] using hq
    have hread := parseFloat_ofScaled q ⌊|q| * 10^2 + 1/2⌋.toNat 2
    have hne := chars_ne_negative hwf hnegative []
    rw [List.append_nil] at hne
    rw [signed_of_nonneg hq] at hread
    refine ⟨toFixed q 2,_,rfl,by rw [htext]; exact hread,?_,by rwa [htext]⟩
    positivity

/-! ### The amounts of the fragments -/

@[simp] theorem amounts_fixedText (q : ℚ) : (fixedText q).amounts = [] := rfl

@[simp] theorem amounts_fixed (q : ℚ) : (sar (fixedText q)).amounts = [fixedText q] := by
  simp [sar,Json.amounts,Json.amountsOfFields,List.lookup,fixedText]

@[simp] theorem amounts_num (q : ℚ) : (sar (.num q)).amounts = [.num q] := by
  simp [sar,Json.amounts,Json.amountsOfFields,List.lookup]

@[simp] theorem amounts_str (s : String) : (sar (.str s)).amounts = [.str s] := by
  simp [sar,Json.amounts,Json.amountsOfFields,List.lookup]

@[simp] theorem amountsOfArray_append (xs ys : List Json) :
    Json.amountsOfArray (xs ++ ys) = Json.amountsOfArray xs ++ Json.amountsOfArray ys := by
  induction xs with
  | nil => rfl
  | cons x xs ih => simp only [List.cons_append,Json.amountsOfArray,ih,List.append_assoc]

theorem mem_amountsOfArray {v : Json} {xs : List Json} :
    v ∈ Json.amountsOfArray xs ↔ ∃ x ∈ xs, v ∈ x.amounts := by
  induction xs with
  | nil => simp [Json.amountsOfArray]
  | cons x xs ih => simp [Json.amountsOfArray,ih]

theorem amounts_taxSubtotal (taxable taxAmount percent : ℚ) :
    (taxSubtotal taxable taxAmount percent).amounts = [fixedText taxable,fixedText taxAmount] := by
  have hcategory : (taxCategory percent).amounts = [] := by
    unfold taxCategory taxScheme5153
    split <;> simp [Json.amounts,Json.amountsOfFields,List.lookup,fixedText]
  simp [taxSubtotal,Json.amounts,Json.amountsOfFields,List.lookup,hcategory]

theorem amounts_allowanceCharge (discount : ZATCAInvoiceLineItemDiscount) :
    (allowanceCharge discount).amounts = [fixedText discount.amount] := by
  simp [allowanceCharge,Json.amounts,Json.amountsOfFields,List.lookup]

theorem amounts_vatEntry (lineItem : ZATCAInvoiceLineItem) : (vatEntry lineItem).amounts = [] := by
  unfold vatEntry
  split <;> simp [Json.amounts,Json.amountsOfFields,List.lookup,fixedText]

theorem amounts_otherTaxEntry (percent : ℚ) : (otherTaxEntry percent).amounts = [] := by
  simp [otherTaxEntry,Json.amounts,Json.amountsOfFields,List.lookup,fixedText]

theorem amounts_allowanceCharges (discounts : List ZATCAInvoiceLineItemDiscount) :
    Json.amountsOfArray (discounts.map allowanceCharge) =
      discounts.map fun discount => fixedText discount.amount := by
  induction discounts with
  | nil => rfl
  | cons d discounts ih => simp [Json.amountsOfArray,amounts_allowanceCharge,ih]

theorem amounts_categories (lineItem : ZATCAInvoiceLineItem) (rates : List ℚ) :
    Json.amountsOfArray (vatEntry lineItem :: rates.map otherTaxEntry) = [] := by
  rw [Json.amountsOfArray,amounts_vatEntry,List.nil_append]
  induction rates with
  | nil => rfl
  | cons r rates ih => rw [List.map_cons,Json.amountsOfArray,amounts_otherTaxEntry,ih,List.append_nil]

theorem amounts_invoiceLine (lineItem : ZATCAInvoiceLineItem) :
    (invoiceBuilder.assembleLineItemXml lineItem (buildInvoiceLineItemTotals lineItem)).amounts =
      [fixedText (lineSubtotal lineItem),fixedText (invoiceLineTaxes lineItem),
        .str (toFixed (cents (lineSubtotal lineItem) + cents (invoiceLineTaxes lineItem)) 2),
        .num lineItem.taxExclusivePrice] ++
        lineItem.discounts.map fun discount => fixedText discount.amount := by
  simp [BaseInvoiceBuilder.assembleLineItemXml,invoiceBuilder,buildInvoiceLineItemTotals,
    roundingAmount,Json.amounts,Json.amountsOfFields,List.lookup,amounts_categories,
    amounts_allowanceCharges]

theorem amounts_debitNoteLine (lineItem : ZATCAInvoiceLineItem) (withRoundingAmount : Bool) :
    ((debitNoteBuilder withRoundingAmount).assembleLineItemXml lineItem
      (buildDebitNoteLineItemTotals lineItem withRoundingAmount)).amounts =
      [fixedText (lineSubtotal lineItem),fixedText (debitNoteLineTaxes lineItem)] ++
      (if withRoundingAmount then
        [.str (toFixed (cents (lineSubtotal lineItem) + cents (debitNoteLineTaxes lineItem)) 2)] else []) ++
      [fixedText (lineSubtotal lineItem),
        fixedText (lineSubtotal lineItem * lineItem.vatPercent / 100),
        fixedText lineItem.taxExclusivePrice] ++
        lineItem.discounts.map fun discount => fixedText discount.amount := by
  cases hd : lineItem.discounts with
  | nil =>
    cases withRoundingAmount <;>
      simp [BaseInvoiceBuilder.assembleLineItemXml,debitNoteBuilder,buildDebitNoteLineItemTotals,
        roundingAmount,Json.amounts,Json.amountsOfFields,Json.amountsOfArray,List.lookup,
        amounts_vatEntry,amounts_taxSubtotal,hd,fixedText]
  | cons d discounts =>
    cases withRoundingAmount <;>
      simp [BaseInvoiceBuilder.assembleLineItemXml,debitNoteBuilder,buildDebitNoteLineItemTotals,
        roundingAmount,Json.amounts,Json.amountsOfFields,Json.amountsOfArray,List.lookup,
        amounts_vatEntry,amounts_taxSubtotal,amounts_allowanceCharge,amounts_allowanceCharges,hd]

theorem amounts_invoiceMonetaryTotal (s t : ℚ) : (buildInvoiceLegalMonetaryTotal s t).amounts =
    [fixedText s,fixedText s,.num (nearestCents (s + t)),.num 0,.num 0,.num (nearestCents (s + t))] := by
  simp [buildInvoiceLegalMonetaryTotal,Json.amounts,Json.amountsOfFields,List.lookup]

theorem amounts_debitNoteMonetaryTotal (s t : ℚ) : (buildDebitNoteLegalMonetaryTotal s t).amounts =
    [fixedText s,fixedText s,fixedText (s + t),.str "0.00",.str "0.00",fixedText (s + t)] := by
  simp [buildDebitNoteLegalMonetaryTotal,Json.amounts,Json.amountsOfFields,List.lookup]

theorem prints_zero : PrintsNonneg (.str "0.00") := by
  refine ⟨"0.00",0,rfl,?_,le_rfl,by decide⟩
  have hread := parseFloat_ofScaled 0 0 2
  have hzero : signed 0 ((0 : ℕ) / 10^2) = 0 := by simp [signed]
  simp only [hzero,lt_irrefl,decide_false] at hread
  exact hread

/-! ### Numbers that are not below zero -/

/-- A decimal that is not below zero. -/
def NonnegDecimal (q : ℚ) : Prop := IsDecimal q ∧ 0 ≤ q

namespace NonnegDecimal
variable {a b : ℚ}

theorem zero : NonnegDecimal 0 := ⟨IsDecimal.zero,le_rfl⟩

theorem add (ha : NonnegDecimal a) (hb : NonnegDecimal b) : NonnegDecimal (a + b) :=
  ⟨ha.1.add hb.1,add_nonneg ha.2 hb.2⟩

theorem mul (ha : NonnegDecimal a) (hb : NonnegDecimal b) : NonnegDecimal (a * b) :=
  ⟨ha.1.mul hb.1,mul_nonneg ha.2 hb.2⟩

theorem percent (ha : NonnegDecimal a) : NonnegDecimal (a / 100) :=
  ⟨ha.1.percent,div_nonneg ha.2 (by norm_num)⟩

theorem cents (ha : NonnegDecimal a) : NonnegDecimal (cents a) :=
  ⟨(isCents_cents ha.1).isDecimal,cents_nonneg ha.1 ha.2⟩

theorem sum {l : List ℚ} (h : ∀ a ∈ l, NonnegDecimal a) : NonnegDecimal l.sum :=
  ⟨IsDecimal.sum fun a ha => (h a ha).1,List.sum_nonneg fun a ha => (h a ha).2⟩

theorem foldl {α : Type} {f : ℚ → α → ℚ} {l : List α}
    (hf : ∀ t, NonnegDecimal t → ∀ x ∈ l, NonnegDecimal (f t x)) (ha : NonnegDecimal a) :
    NonnegDecimal (l.foldl f a) := by
  induction l generalizing a with
  | nil => exact ha
  | cons x l ih =>
    have hx : NonnegDecimal (f a x) := hf a ha x List.mem_cons_self
    exact ih (fun t ht y hy => hf t ht y (List.mem_cons_of_mem _ hy)) hx

theorem prints (ha : NonnegDecimal a) : PrintsNonneg (fixedText a) := printsNonneg_fixedText ha.1 ha.2

theorem prints_num (ha : NonnegDecimal a) : PrintsNonneg (.num a) := printsNonneg_num ha.1 ha.2

end NonnegDecimal

/-- The discounts of the line are not above its price. -/
def ZATCAInvoiceLineItem.Covered (lineItem : ZATCAInvoiceLineItem) : Prop :=
  totalDiscounts lineItem ≤ lineItem.taxExclusivePrice * lineItem.quantity

section line
variable {lineItem : ZATCAInvoiceLineItem} (h : lineItem.Accepted) (hc : lineItem.Covered)
include h

theorem nonneg_rate {r : ℚ} (hr : r ∈ rates lineItem) : NonnegDecimal r := ⟨h.rates r hr,h.rate_nonneg r hr⟩

include hc

theorem nonneg_taxableAmount : NonnegDecimal (taxableAmount lineItem) :=
  ⟨isDecimal_taxableAmount h.toDecimal,sub_nonneg.2 hc⟩

theorem nonneg_lineSubtotal : NonnegDecimal (lineSubtotal lineItem) := (nonneg_taxableAmount h hc).cents

theorem nonneg_lineVat : NonnegDecimal (lineVat lineItem) := by
  have hvat := nonneg_rate h (r := lineItem.vatPercent) List.mem_cons_self
  exact (NonnegDecimal.zero.cents.add ((nonneg_lineSubtotal h hc).mul hvat).percent.cents).cents

theorem nonneg_invoiceLineTaxes : NonnegDecimal (invoiceLineTaxes lineItem) := by
  refine NonnegDecimal.foldl (fun t ht r hr => ?_) (nonneg_lineVat h hc)
  have hrate := nonneg_rate h (r := r) (List.mem_cons_of_mem _ hr)
  exact (ht.cents.add (hrate.mul (nonneg_lineSubtotal h hc)).percent.cents).cents

theorem nonneg_debitNoteLineTaxes : NonnegDecimal (debitNoteLineTaxes lineItem) := by
  refine (NonnegDecimal.foldl (fun t ht r hr => ?_) (nonneg_lineVat h hc)).cents
  have hrate := nonneg_rate h (r := r) (List.mem_cons_of_mem _ hr)
  exact ht.add ((nonneg_lineSubtotal h hc).mul hrate).percent.cents

theorem nonneg_rounding {t : ℚ} (ht : NonnegDecimal t) :
    PrintsNonneg (.str (toFixed (cents (lineSubtotal lineItem) + cents t) 2)) :=
  have hsum := (nonneg_lineSubtotal h hc).cents.add ht.cents
  printsNonneg_toFixed hsum.1 hsum.2

omit hc in
theorem prints_discounts :
    ∀ v ∈ lineItem.discounts.map fun discount => fixedText discount.amount, PrintsNonneg v := by
  intro v hv
  obtain ⟨d,hd,rfl⟩ := List.mem_map.1 hv
  exact printsNonneg_fixedText (h.discounts d hd) (h.amount_nonneg d hd)

theorem prints_invoiceLine : ∀ v ∈
    (invoiceBuilder.assembleLineItemXml lineItem (buildInvoiceLineItemTotals lineItem)).amounts,
    PrintsNonneg v := by
  have hs := nonneg_lineSubtotal h hc
  have ht := nonneg_invoiceLineTaxes h hc
  have hprice : NonnegDecimal lineItem.taxExclusivePrice := ⟨h.price,h.price_nonneg⟩
  rw [amounts_invoiceLine]
  simp only [List.forall_mem_append,List.forall_mem_cons]
  exact ⟨⟨hs.prints,ht.prints,nonneg_rounding h hc ht,hprice.prints_num,nofun⟩,prints_discounts h⟩

theorem prints_debitNoteLine (withRoundingAmount : Bool) : ∀ v ∈
    ((debitNoteBuilder withRoundingAmount).assembleLineItemXml lineItem
      (buildDebitNoteLineItemTotals lineItem withRoundingAmount)).amounts, PrintsNonneg v := by
  have hs := nonneg_lineSubtotal h hc
  have ht := nonneg_debitNoteLineTaxes h hc
  have hvat := nonneg_rate h (r := lineItem.vatPercent) List.mem_cons_self
  have hprice : NonnegDecimal lineItem.taxExclusivePrice := ⟨h.price,h.price_nonneg⟩
  rw [amounts_debitNoteLine]
  simp only [List.forall_mem_append,List.forall_mem_cons]
  refine ⟨⟨⟨⟨hs.prints,ht.prints,nofun⟩,?_⟩,hs.prints,(hs.mul hvat).percent.prints,hprice.prints,
    nofun⟩,prints_discounts h⟩
  cases withRoundingAmount with
  | true => simpa using nonneg_rounding h hc ht
  | false => simp

end line

section document
variable {lineItems : List ZATCAInvoiceLineItem} (h : ∀ l ∈ lineItems, l.Accepted)
  (hc : ∀ l ∈ lineItems, l.Covered)
include h hc

theorem prints_documentTaxSubtotals :
    ∀ v ∈ Json.amountsOfArray (documentTaxSubtotals lineItems), PrintsNonneg v := by
  intro v hv
  obtain ⟨x,hx,hv⟩ := mem_amountsOfArray.1 hv
  obtain ⟨l,hl,hx⟩ := List.mem_flatMap.1 hx
  obtain ⟨r,hr,rfl⟩ := List.mem_map.1 hx
  have htaxable := nonneg_taxableAmount (h l hl) (hc l hl)
  have hrate := nonneg_rate (h l hl) hr
  rw [amounts_taxSubtotal,List.mem_cons,List.mem_singleton] at hv
  rcases hv with rfl | rfl
  · exact htaxable.prints
  · exact (hrate.mul htaxable).percent.prints

theorem nonneg_documentTaxes : NonnegDecimal (documentTaxes lineItems) := by
  refine NonnegDecimal.foldl (fun t ht l hl => ?_) NonnegDecimal.zero
  refine NonnegDecimal.foldl (fun t ht r hr => ?_) ht
  have hrate := nonneg_rate (h l hl) hr
  exact ht.add (hrate.mul (nonneg_taxableAmount (h l hl) (hc l hl))).percent.cents

theorem nonneg_subtotals : NonnegDecimal (subtotals lineItems) := by
  refine NonnegDecimal.sum fun a ha => ?_
  obtain ⟨l,hl,rfl⟩ := List.mem_map.1 ha
  exact nonneg_lineSubtotal (h l hl) (hc l hl)

omit h hc in
theorem nonneg_lineTaxes {b : BaseInvoiceBuilder}
    (hb : ∀ l ∈ lineItems, NonnegDecimal (b.lineTaxes l)) :
    NonnegDecimal (lineItems.map b.lineTaxes).sum := by
  refine NonnegDecimal.sum fun a ha => ?_
  obtain ⟨l,hl,rfl⟩ := List.mem_map.1 ha
  exact hb l hl

theorem invoice_nonneg : (invoiceBuilder.fragments lineItems).AmountsNonneg := by
  have hdecimal : ∀ l ∈ lineItems, l.Decimal := fun l hl => (h l hl).toDecimal
  have hdocument := nearestCents_eq_self (isCents_documentTaxes hdecimal)
  have hdue := nearestCents_eq_self (isCents_invoiceTotal hdecimal)
  have hs := nonneg_subtotals h hc
  have ht := nonneg_documentTaxes h hc
  have hpay := hs.add (nonneg_lineTaxes (b := invoiceBuilder) fun l hl =>
    nonneg_invoiceLineTaxes (h l hl) (hc l hl))
  intro v hv
  simp only [LineItemFragments.amounts,List.mem_append] at hv
  rcases hv with (hv | hv) | hv
  · have hamounts : Json.amountsOfArray (invoiceBuilder.fragments lineItems).taxTotal =
        fixedText (documentTaxes lineItems) :: (Json.amountsOfArray (documentTaxSubtotals lineItems) ++
          [fixedText (documentTaxes lineItems)]) := by
      simp [BaseInvoiceBuilder.fragments,invoiceBuilder,buildInvoiceTaxTotal,hdocument,Json.amounts,
        Json.amountsOfFields,Json.amountsOfArray,List.lookup]
    rw [hamounts,List.mem_cons,List.mem_append,List.mem_singleton] at hv
    rcases hv with rfl | hv | rfl
    · exact ht.prints
    · exact prints_documentTaxSubtotals h hc v hv
    · exact ht.prints
  · rw [invoice_legalMonetaryTotal hdecimal] at hv
    have hamounts := amounts_invoiceMonetaryTotal (subtotals lineItems)
      (lineItems.map invoiceBuilder.lineTaxes).sum
    rw [hdue] at hamounts
    have hmem := hamounts ▸ hv
    simp only [List.mem_cons,List.not_mem_nil,or_false] at hmem
    rcases hmem with rfl | rfl | rfl | rfl | rfl | rfl
    · exact hs.prints
    · exact hs.prints
    · exact hpay.prints_num
    · exact NonnegDecimal.zero.prints_num
    · exact NonnegDecimal.zero.prints_num
    · exact hpay.prints_num
  · obtain ⟨x,hx,hv⟩ := mem_amountsOfArray.1 hv
    obtain ⟨l,hl,rfl⟩ := List.mem_map.1 hx
    exact prints_invoiceLine (h l hl) (hc l hl) v hv

theorem debitNote_nonneg (withRoundingAmount : Bool) :
    ((debitNoteBuilder withRoundingAmount).fragments lineItems).AmountsNonneg := by
  have hdecimal : ∀ l ∈ lineItems, l.Decimal := fun l hl => (h l hl).toDecimal
  have hs := nonneg_subtotals h hc
  have ht := nonneg_documentTaxes h hc
  have hpay := hs.add (nonneg_lineTaxes (b := debitNoteBuilder withRoundingAmount) fun l hl =>
    nonneg_debitNoteLineTaxes (h l hl) (hc l hl))
  intro v hv
  simp only [LineItemFragments.amounts,List.mem_append] at hv
  rcases hv with (hv | hv) | hv
  · have hamounts : Json.amountsOfArray
          ((debitNoteBuilder withRoundingAmount).fragments lineItems).taxTotal =
        fixedText (documentTaxes lineItems) :: Json.amountsOfArray (documentTaxSubtotals lineItems) := by
      simp [BaseInvoiceBuilder.fragments,debitNoteBuilder,buildDebitNoteTaxTotal,Json.amounts,
        Json.amountsOfFields,Json.amountsOfArray,List.lookup]
    rw [hamounts,List.mem_cons] at hv
    rcases hv with rfl | hv
    · exact ht.prints
    · exact prints_documentTaxSubtotals h hc v hv
  · rw [debitNote_legalMonetaryTotal hdecimal] at hv
    have hmem := amounts_debitNoteMonetaryTotal (subtotals lineItems)
      (lineItems.map (debitNoteBuilder withRoundingAmount).lineTaxes).sum ▸ hv
    simp only [List.mem_cons,List.not_mem_nil,or_false] at hmem
    rcases hmem with rfl | rfl | rfl | rfl | rfl | rfl
    · exact hs.prints
    · exact hs.prints
    · exact hpay.prints
    · exact prints_zero
    · exact prints_zero
    · exact hpay.prints
  · obtain ⟨x,hx,hv⟩ := mem_amountsOfArray.1 hv
    obtain ⟨l,hl,rfl⟩ := List.mem_map.1 hx
    exact prints_debitNoteLine (h l hl) (hc l hl) withRoundingAmount v hv

end document

/-! ### The taxable amounts of the document -/

theorem taxable_mem {lineItems : List ZATCAInvoiceLineItem} {l : ZATCAInvoiceLineItem}
    (hl : l ∈ lineItems) :
    fixedText (taxableAmount l) ∈ Json.amountsOfArray (documentTaxSubtotals lineItems) := by
  refine mem_amountsOfArray.2 ⟨_,List.mem_flatMap.2 ⟨l,hl,List.mem_map_of_mem List.mem_cons_self⟩,?_⟩
  rw [amounts_taxSubtotal]
  exact List.mem_cons_self

/-- Both families print the subtotals in their first tax total. -/
theorem taxSubtotals_mem (kind : Phase2Kind) {lineItems : List ZATCAInvoiceLineItem} {v : Json}
    (hv : v ∈ Json.amountsOfArray (documentTaxSubtotals lineItems)) :
    v ∈ ((phase2Builder kind).fragments lineItems).amounts := by
  have hinvoice : v ∈ (invoiceBuilder.fragments lineItems).amounts := by
    simp [LineItemFragments.amounts,BaseInvoiceBuilder.fragments,invoiceBuilder,buildInvoiceTaxTotal,
      Json.amounts,Json.amountsOfFields,Json.amountsOfArray,List.lookup,hv]
  have hdebit : ∀ withRoundingAmount,
      v ∈ ((debitNoteBuilder withRoundingAmount).fragments lineItems).amounts := fun _ => by
    simp [LineItemFragments.amounts,BaseInvoiceBuilder.fragments,debitNoteBuilder,
      buildDebitNoteTaxTotal,Json.amounts,Json.amountsOfFields,Json.amountsOfArray,List.lookup,hv]
  obtain ⟨kind,hkind⟩ := kind
  cases kind with
  | phase1Invoice => cases hkind
  | phase1CreditNote => cases hkind
  | simplifiedDebitNote => exact hdebit false
  | standardDebitNote => exact hdebit true
  | _ => exact hinvoice

namespace Sample

theorem evenLine_accepted : ∀ l ∈ [evenLine], l.Accepted := by
  intro l hl
  have hdecimal := evenLine_decimal l hl
  obtain rfl := List.mem_singleton.1 hl
  exact ⟨hdecimal,by decide⟩

/-- A pen at 10 riyals with 11 riyals off. -/
def overDiscounted : ZATCAInvoiceLineItem :=
  { id := "1",name := "pen",quantity := 1,taxExclusivePrice := 10,vatPercent := 15
    discounts := [⟨11,"sale"⟩] }

theorem overDiscounted_accepted : ∀ l ∈ [overDiscounted], l.Accepted := by
  intro l hl
  obtain rfl := List.mem_singleton.1 hl
  exact
    { quantity := .natCast 1
      price := .natCast 10
      rates := rates_isDecimal (.natCast 15) nofun
      discounts := by
        intro d hd
        obtain rfl := List.mem_singleton.1 hd
        exact .natCast 11
      schema := by decide }

end Sample

end Zatca
