import Zatca.Core.PhaseTotals
set_option autoImplicit false

/-! The figures that a Phase 1 document prints. -/

namespace Zatca
open Number

/-! ### Rounding to the nearest cent -/

/-- What rounding half up to cents takes off a number. -/
def takenOff (q : ℚ) : ℚ := if q < 10^21 then (Int.fract (q * 100 + 1/2) - 1/2) / 100 else 0

/-- What is taken off the numbers is less than what would move their sum to another cent. A sum
that is not rounded may not move at all. -/
def StaysInSum (xs : List ℚ) : Prop :=
  if xs.sum < 10^21 then -(1/200) ≤ (xs.map takenOff).sum ∧ (xs.map takenOff).sum < 1/200
  else (xs.map takenOff).sum = 0

section nearest
variable {q : ℚ}

theorem parseFloat_toFixed_of_lt (h0 : 0 ≤ q) (hlt : q < 10^21) :
    parseFloat (toFixed q 2) = some ((⌊q * 100 + 1/2⌋ : ℚ) / 100) := by
  have habs : |q| = q := abs_of_nonneg h0
  have hfloor : 0 ≤ ⌊q * 100 + 1/2⌋ := Int.floor_nonneg.2 (by positivity)
  have htext : toFixed q 2 =
      String.ofList (Numeral.ofScaled (q < 0) ⌊q * 100 + 1/2⌋.toNat 2).chars := by
    rw [toFixed,habs,if_neg (not_le.2 hlt)]
    norm_num
  have hcast : ((⌊q * 100 + 1/2⌋.toNat : ℕ) : ℚ) = (⌊q * 100 + 1/2⌋ : ℤ) := by
    exact_mod_cast Int.toNat_of_nonneg hfloor
  rw [htext,parseFloat_ofScaled,hcast,signed_of_nonneg h0]
  norm_num

/-- The cent that is printed is the number less what is taken off. -/
theorem parseFloat_toFixed (h : IsDecimal q) (h0 : 0 ≤ q) :
    parseFloat (toFixed q 2) = some (q - takenOff q) := by
  by_cases hlt : q < 10^21
  · have hfract := Int.floor_add_fract (q * 100 + 1/2)
    rw [parseFloat_toFixed_of_lt h0 hlt,takenOff,if_pos hlt]
    congr 1
    linarith
  · have htext : toFixed q 2 = Number.toString q := by
      rw [toFixed,abs_of_nonneg h0,if_pos (not_lt.1 hlt)]
    rw [htext,parseFloat_toString h,takenOff,if_neg hlt,sub_zero]

theorem isCents_sub_takenOff (hlt : q < 10^21) : IsCents (q - takenOff q) := by
  refine ⟨⌊q * 100 + 1/2⌋,?_⟩
  have hfract := Int.floor_add_fract (q * 100 + 1/2)
  rw [takenOff,if_pos hlt]
  linarith

/-- A number is rounded to the cent that it is half a cent above or less than that below. -/
theorem sub_takenOff_eq_iff {c : ℚ} (hc : IsCents c) (hlt : q < 10^21) :
    q - takenOff q = c ↔ -(1/200) ≤ q - c ∧ q - c < 1/200 := by
  obtain ⟨z,hz⟩ := hc
  have hfract := Int.floor_add_fract (q * 100 + 1/2)
  have hcent : q - takenOff q = c ↔ ⌊q * 100 + 1/2⌋ = z := by
    rw [takenOff,if_pos hlt,← Int.cast_inj (α := ℚ),← hz]
    constructor
    · intro he
      linarith
    · intro he
      linarith
  rw [hcent,Int.floor_eq_iff,← hz]
  constructor
  · rintro ⟨hle,hgt⟩
    constructor
    · linarith
    · linarith
  · rintro ⟨hle,hgt⟩
    constructor
    · linarith
    · linarith

end nearest

theorem sum_map_sub_takenOff (xs : List ℚ) :
    (xs.map fun x => x - takenOff x).sum = xs.sum - (xs.map takenOff).sum := by
  induction xs with
  | nil => simp
  | cons x xs ih =>
    simp only [List.map_cons,List.sum_cons,ih]
    ring

/-- The sum of numbers is rounded to the sum of the rounded numbers when what is taken off stays
within it. -/
theorem sum_sub_takenOff_iff {xs : List ℚ} (h0 : ∀ x ∈ xs, 0 ≤ x) :
    xs.sum - takenOff xs.sum = (xs.map fun x => x - takenOff x).sum ↔ StaysInSum xs := by
  unfold StaysInSum
  by_cases hlt : xs.sum < 10^21
  · have hcents : IsCents (xs.map fun x => x - takenOff x).sum := by
      refine IsCents.sum fun a ha => ?_
      obtain ⟨x,hx,rfl⟩ := List.mem_map.1 ha
      exact isCents_sub_takenOff ((List.single_le_sum h0 x hx).trans_lt hlt)
    rw [if_pos hlt,sub_takenOff_eq_iff hcents hlt,sum_map_sub_takenOff,sub_sub_cancel]
  · rw [if_neg hlt,sum_map_sub_takenOff,takenOff,if_neg hlt,sub_right_inj,eq_comm]

/-! ### The documents -/

/-- The values that stand in the text of an invoice. -/
def Phase1InvoiceBuilder.values (b : Phase1Builder) : Phase1.DocumentSlot → String :=
  Phase1.documentValue "388" "" b.input

/-- The values that stand in the text of a credit note. -/
def Phase1CreditNoteBuilder.values (b : Phase1Builder) : Phase1.DocumentSlot → String :=
  Phase1.documentValue "381"
    (Phase1.billingLiteral.render fun _ => Phase1.originalInvoiceNumber b.input) b.input

/-- The values that stand in the texts of the lines. -/
def Phase1.lineTexts (lineItems : List ZATCAInvoiceLineItem) : List (Phase1.LineSlot → String) :=
  lineItems.mapIdx fun index item => lineValue item index

theorem phase1_invoiceXml (b : Phase1Builder) :
    Phase1InvoiceBuilder.invoiceXml b =
        Phase1.documentLiteral.render (Phase1InvoiceBuilder.values b) ∧
      Phase1CreditNoteBuilder.invoiceXml b =
        Phase1.documentLiteral.render (Phase1CreditNoteBuilder.values b) := ⟨rfl,rfl⟩

theorem phase1_linesXml (lineItems : List ZATCAInvoiceLineItem) : Phase1.linesXml lineItems =
    ((Phase1.lineTexts lineItems).map Phase1.lineLiteral.render).foldl (· ++ ·) "" := by
  rw [Phase1.linesXml,Phase1.lineTexts]
  congr 1
  exact List.ext_getElem (by simp) (by simp)

/-- The inclusive amount is the exclusive amount and the tax, and the amount of the document, which
is printed from the same value as the exclusive amount, is that of its lines. -/
def Phase1FiguresAddUp (values : Phase1.DocumentSlot → String)
    (lines : List (Phase1.LineSlot → String)) : Prop :=
  ∃ exclusive tax inclusive : ℚ, ∃ extensions : List ℚ,
    parseFloat (values .subtotal) = some exclusive ∧
    parseFloat (values .vatAmount) = some tax ∧
    parseFloat (values .total) = some inclusive ∧
    lines.map (fun line => parseFloat (line .lineTotal)) = extensions.map some ∧
    inclusive = exclusive + tax ∧ exclusive = extensions.sum

/-- Rounding moves neither the sum of the lines nor that of the amount and its tax. -/
def RoundsTogether (lineItems : List ZATCAInvoiceLineItem) : Prop :=
  StaysInSum [(lineTotals lineItems).sum,(lineVats lineItems).sum] ∧ StaysInSum (lineTotals lineItems)

section accepted
variable {lineItems : List ZATCAInvoiceLineItem} (h : ∀ l ∈ lineItems, l.Accepted)
include h

theorem lineTotals_nonneg : ∀ x ∈ lineTotals lineItems, IsDecimal x ∧ 0 ≤ x := by
  intro x hx
  obtain ⟨l,hl,rfl⟩ := List.mem_map.1 hx
  exact ⟨(h l hl).price.mul (h l hl).quantity,lineTotal_nonneg (h l hl)⟩

theorem lineVats_nonneg : ∀ x ∈ lineVats lineItems, IsDecimal x ∧ 0 ≤ x := by
  intro x hx
  obtain ⟨l,hl,rfl⟩ := List.mem_map.1 hx
  have hrate : l.vatPercent ∈ rates l := List.mem_cons_self
  have htotal := lineTotal_nonneg (h l hl)
  have hvat := (h l hl).rate_nonneg _ hrate
  exact ⟨(((h l hl).price.mul (h l hl).quantity).mul ((h l hl).rates _ hrate)).percent,by positivity⟩

/-- The figures of the lines, as they are printed. -/
theorem parseFloat_lineTotals :
    (Phase1.lineTexts lineItems).map (fun line => parseFloat (line .lineTotal)) =
      ((lineTotals lineItems).map fun x => x - takenOff x).map some := by
  refine List.ext_getElem (by simp [Phase1.lineTexts,lineTotals]) fun i hi _ => ?_
  have hi : i < lineItems.length := by simpa [Phase1.lineTexts] using hi
  obtain ⟨hdecimal,h0⟩ := lineTotals_nonneg h _ (List.mem_map_of_mem (List.getElem_mem hi))
  have hread := parseFloat_toFixed hdecimal h0
  simpa [Phase1.lineTexts,Phase1.lineValue,lineTotals] using hread

theorem phase1FiguresAddUp_iff {values : Phase1.DocumentSlot → String}
    (hsubtotal : values .subtotal = toFixed (Phase1.computeTotals lineItems).subtotal 2)
    (hvat : values .vatAmount = toFixed (Phase1.computeTotals lineItems).vatAmount 2)
    (htotal : values .total = toFixed (Phase1.computeTotals lineItems).total 2) :
    Phase1FiguresAddUp values (Phase1.lineTexts lineItems) ↔ RoundsTogether lineItems := by
  have hlines := lineTotals_nonneg h
  have hvats := lineVats_nonneg h
  have hs0 := List.sum_nonneg fun x hx => (hlines x hx).2
  have hv0 := List.sum_nonneg fun x hx => (hvats x hx).2
  have hsd := IsDecimal.sum fun x hx => (hlines x hx).1
  have hvd := IsDecimal.sum fun x hx => (hvats x hx).1
  rw [phase1_computeTotals] at hsubtotal hvat htotal
  rw [Phase1.Totals.total] at htotal
  have hexclusive := hsubtotal ▸ parseFloat_toFixed hsd hs0
  have htax := hvat ▸ parseFloat_toFixed hvd hv0
  have hinclusive := htotal ▸ parseFloat_toFixed (hsd.add hvd) (add_nonneg hs0 hv0)
  have hextensions := parseFloat_lineTotals h
  have hpair : ∀ x ∈ [(lineTotals lineItems).sum,(lineVats lineItems).sum], 0 ≤ x := by
    simp [hs0,hv0]
  rw [RoundsTogether,← sum_sub_takenOff_iff hpair,
    ← sum_sub_takenOff_iff fun x hx => (hlines x hx).2]
  simp only [List.map_cons,List.map_nil,List.sum_cons,List.sum_nil,add_zero]
  constructor
  · rintro ⟨exclusive,tax,inclusive,extensions,he,ht,hi,hl,hinclusiveSum,hexclusiveSum⟩
    obtain rfl := Option.some.inj (hexclusive.symm.trans he)
    obtain rfl := Option.some.inj (htax.symm.trans ht)
    obtain rfl := Option.some.inj (hinclusive.symm.trans hi)
    obtain rfl := List.map_injective_iff.2 (Option.some_injective ℚ) (hextensions.symm.trans hl)
    exact ⟨hinclusiveSum,hexclusiveSum⟩
  · rintro ⟨hinclusiveSum,hexclusiveSum⟩
    exact ⟨_,_,_,_,hexclusive,htax,hinclusive,hextensions,hinclusiveSum,hexclusiveSum⟩

end accepted

namespace Sample

/-- A document of the kind for the line items. -/
def documentFor (kind : InvoiceKind) (lineItems : List ZATCAInvoiceLineItem) : InvoiceInput :=
  { Sample.sale with
    kind
    lineItems
    egsInfo := Sample.egsInfo
    invoiceCounterNumber := 1
    invoiceSerialNumber := "INV-1"
    previousInvoiceHash := ZATCA_BASE_INVOICE_HASH }

/-- A pen at 224 thousandths of a riyal. -/
def fineLine : ZATCAInvoiceLineItem :=
  { id := "1",name := "pen",quantity := 1,taxExclusivePrice := 224/1000,vatPercent := 15 }

theorem fineLine_accepted : fineLine.Accepted where
  quantity := .natCast 1
  price := isDecimal_iff.2 ⟨3,224,by norm_num [fineLine]⟩
  rates := rates_isDecimal (.natCast 15) nofun
  discounts := nofun
  schema := (ZATCAInvoiceLineItem.schema_iff _).2 (by
    norm_num [fineLine]
    decide)

end Sample

end Zatca
