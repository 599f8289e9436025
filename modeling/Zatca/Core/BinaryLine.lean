import Zatca.Core.LineRule
import Zatca.Library.ShortestDecimal
set_option autoImplicit false
namespace Zatca
open Number BinaryRounding ShortestDecimal

/-! The amount of a line in the numbers of JS, which have 53 significant bits. -/

namespace Binary

/-- The JS number that is nearest to `q`. -/
def number (q : ℚ) : ℚ := roundTo 53 q

/-- The numbers that JS has. -/
abbrev IsNumber (x : ℚ) : Prop := Representable 53 x

/-- The decimal that `toString` writes for a JS number. -/
def written (x : ℚ) : ℚ := shortest 53 x

def toFixedNoRounding (value : ℚ) (n : ℕ) : String := Zatca.toFixedNoRounding (written value) n

def parseFloat (text : String) : Option ℚ := (Number.parseFloat text).map number

def totalDiscounts (lineItem : ZATCAInvoiceLineItem) : ℚ :=
  lineItem.discounts.foldl (fun total discount => number (total + number discount.amount)) 0

def taxableAmount (lineItem : ZATCAInvoiceLineItem) : ℚ :=
  number (number (number lineItem.taxExclusivePrice * number lineItem.quantity) -
    totalDiscounts lineItem)

def lineSubtotal (lineItem : ZATCAInvoiceLineItem) : ℚ :=
  (parseFloat (toFixedNoRounding (taxableAmount lineItem) 2)).getD 0

/-- `lineItemTotalTaxExclusive` of `buildInvoiceLineItemTotals`. -/
def invoiceLineSubtotal (lineItem : ZATCAInvoiceLineItem) : ℚ := lineSubtotal lineItem

/-- `lineItemTotalTaxExclusive` of `buildDebitNoteLineItemTotals`. -/
def debitNoteLineSubtotal (lineItem : ZATCAInvoiceLineItem) : ℚ := lineSubtotal lineItem

/-- The text of `LineExtensionAmount`. -/
def lineExtension (subtotal : ℚ) : String := toFixedNoRounding subtotal 2

/-! ### The numbers of JS -/

variable {q r x c : ℚ}

theorem isNumber_number (q : ℚ) : IsNumber (number q) := representable_roundTo (by decide) q

theorem number_eq_self (h : IsNumber x) : number x = x := roundTo_eq_self (by decide) h

theorem isNumber_intCast {z : ℤ} (h : |z| ≤ 2^53) : IsNumber z := ⟨z,0,h,by norm_num⟩

@[simp] theorem number_zero : number 0 = 0 := roundTo_zero 53

@[simp] theorem number_neg (q : ℚ) : number (-q) = -number q := roundTo_neg 53 q

theorem number_mono (h : q ≤ r) : number q ≤ number r := roundTo_mono (by decide) h

theorem lt_of_number_lt (h : number q < number r) : q < r := lt_of_roundTo_lt (by decide) h

theorem number_pos (h : 0 < q) : 0 < number q := roundTo_pos (by decide) h

theorem number_neg_iff : number q < 0 ↔ q < 0 := by
  constructor
  · intro h
    rw [← number_zero] at h
    exact lt_of_number_lt h
  · intro h
    have hpos := number_pos (neg_pos.2 h)
    rwa [number_neg,neg_pos] at hpos

theorem number_written (h : IsNumber x) : number (written x) = x := roundTo_shortest (by decide) h

theorem written_neg_iff (h : IsNumber x) : written x < 0 ↔ x < 0 := by
  rw [← number_neg_iff,number_written h]

theorem written_zero : written 0 = 0 := by
  have hzero : number (written 0) = 0 := number_written ⟨0,0,by norm_num,by norm_num⟩
  rcases lt_trichotomy (written 0) 0 with hneg | heq | hpos
  · exact absurd (number_neg_iff.2 hneg) (by rw [hzero]; exact lt_irrefl 0)
  · exact heq
  · exact absurd (number_pos hpos) (by rw [hzero]; exact lt_irrefl 0)

theorem written_neg (x : ℚ) : written (-x) = -written x := by
  rcases lt_trichotomy x 0 with hneg | rfl | hpos
  · have h := shortest_neg 53 (-x) (neg_pos.2 hneg)
    rw [neg_neg] at h
    rw [written,written,h,neg_neg]
  · rw [neg_zero,written_zero,neg_zero]
  · exact shortest_neg 53 x hpos

theorem abs_written (h : IsNumber x) : |written x| = written |x| := by
  rcases lt_or_ge x 0 with hneg | hpos
  · rw [abs_of_neg ((written_neg_iff h).2 hneg),abs_of_neg hneg,written_neg]
  · have hw : ¬ written x < 0 := fun hw => absurd ((written_neg_iff h).1 hw) (not_lt.2 hpos)
    rw [abs_of_nonneg (not_lt.1 hw),abs_of_nonneg hpos]

theorem isDecimal_written (h : IsNumber x) : IsDecimal (written x) := by
  obtain ⟨n,i,hn⟩ := exists_shortest_eq (by decide) h
  refine isDecimal_iff.2 ⟨(-i).toNat,n * 10^(i + (-i).toNat).toNat,?_⟩
  rw [written,hn]
  push_cast
  rw [mul_assoc,← zpow_natCast,← zpow_natCast,← zpow_add₀ (by norm_num)]
  congr 2
  omega

/-! ### Cents in binary -/

theorem number_large : number (2^46) = 2^46 :=
  number_eq_self (by exact_mod_cast representable_two_zpow 53 46)

theorem abs_number_sub_le (hnonneg : 0 ≤ q) (h : q ≤ 2^46) : |number q - q| ≤ 1/2^8 := by
  rcases h.lt_or_eq with hlt | rfl
  · have hbound : |q| < 2^(46 : ℤ) := by
      rw [abs_of_nonneg hnonneg]
      exact_mod_cast hlt
    calc |number q - q| ≤ 2^((46 : ℤ) - 1 - (53 : ℕ)) := abs_roundTo_sub_le_of_lt hbound
      _ = 1/2^8 := by norm_num
  · rw [number_large,sub_self,abs_zero]
    norm_num

/-- Two amounts in cents, of which one is up to `2^46`, are different numbers. -/
theorem number_lt_of_cents {a b : ℚ} (ha : IsCents a) (hb : IsCents b) (h0 : 0 ≤ a) (hle : a ≤ 2^46)
    (h : a < b) : number a < number b := by
  have hgap := ha.add_hundredth_le hb h
  have herror := abs_le.1 (abs_number_sub_le h0 hle)
  rcases le_or_gt b (2^46) with hb46 | hb46
  · have herror' := abs_le.1 (abs_number_sub_le (h0.trans h.le) hb46)
    linarith
  · have hlarge : IsCents (2^46 : ℚ) := by exact_mod_cast isCents_natCast (2^46)
    have hnext : (2 : ℚ)^46 + 1/100 ≤ b := hlarge.add_hundredth_le hb hb46
    have hlt : |(2 : ℚ)^46 + 1/100| < 2^(47 : ℤ) := by norm_num
    have herror' : |number (2^46 + 1/100) - (2^46 + 1/100)| ≤ 1/2^7 := by
      calc |number (2^46 + 1/100) - (2^46 + 1/100)| ≤ 2^((47 : ℤ) - 1 - (53 : ℕ)) :=
            abs_roundTo_sub_le_of_lt hlt
        _ = 1/2^7 := by norm_num
    have habove := (abs_le.1 herror').1
    have hle46 : number a ≤ 2^46 := by
      have hmono := number_mono hle
      rwa [number_large] at hmono
    have hmono := number_mono hnext
    linarith

/-- The number of a cent is a little more than it. -/
theorem hundredth_le_number : 1/100 ≤ number (1/100) := by
  have hround : number (1/100) = (5764607523034235 : ℤ) * 2^(-59 : ℤ) := by
    refine roundTo_eq_of_mantissa (by norm_num) (by norm_num) (by norm_num) (.inl ?_)
    rw [abs_lt]
    norm_num
  rw [hround]
  norm_num

theorem log_of_cents (hc : IsCents c) (h0 : 0 ≤ c) (h : number c = x) : -2 ≤ Int.log 10 x := by
  rcases h0.eq_or_lt with rfl | hpos
  · rw [← h,number_zero,Int.log_zero_right]
    norm_num
  · have hmin := isCents_zero.add_hundredth_le hc hpos
    rw [zero_add] at hmin
    have hx : 1/100 ≤ x := by
      rw [← h]
      exact hundredth_le_number.trans (number_mono hmin)
    refine (Int.zpow_le_iff_le_log (b := 10) (by decide) (by linarith)).1 ?_
    norm_num
    linarith

/-- A number that an amount in cents is rounded to is written with two places at most. -/
theorem isCents_written_of_number (hc : IsCents c) (h0 : 0 ≤ c) : IsCents (written (number c)) := by
  obtain ⟨z,hz⟩ := hc
  have hfigure : c = z * 10^(-2 : ℤ) := by
    rw [← hz]
    norm_num
    ring
  have hnonneg : 0 ≤ number c := by
    rcases h0.eq_or_lt with rfl | hpos
    · rw [number_zero]
    · exact (number_pos hpos).le
  obtain ⟨z',hz'⟩ := shortest_multiple (p := 53) (by decide) (isNumber_number c) hnonneg
    (log_of_cents ⟨z,hz⟩ h0 rfl) (congrArg number hfigure.symm)
  refine ⟨z',?_⟩
  rw [written,hz']
  norm_num
  ring

/-- Up to `2^46` JS writes an amount in cents as it is. -/
theorem written_number (hc : IsCents c) (h0 : 0 ≤ c) (hle : c ≤ 2^46) : written (number c) = c := by
  have hs := isCents_written_of_number hc h0
  have hround := number_written (isNumber_number c)
  have hnonneg : 0 ≤ written (number c) := by
    rw [← not_lt,← number_neg_iff,hround,number_neg_iff,not_lt]
    exact h0
  rcases lt_trichotomy (written (number c)) c with hlt | heq | hgt
  · have h := number_lt_of_cents hs hc hnonneg (hlt.le.trans hle) hlt
    rw [hround] at h
    exact absurd h (lt_irrefl _)
  · exact heq
  · have h := number_lt_of_cents hc hs h0 hle hgt
    rw [hround] at h
    exact absurd h (lt_irrefl _)

/-- From `2^46` on the numbers are so far apart that two places write all of them. -/
theorem isCents_written_of_large (hx : IsNumber x) (hlarge : 2^46 ≤ x) : IsCents (written x) := by
  have hnear := (isNearest_nearestEven (x * 100)).within_half
  have hge : (2^46 * 100 : ℤ) ≤ nearestEven (x * 100) := le_nearestEven (by push_cast; linarith)
  have hgeq : (2^46 * 100 : ℚ) ≤ nearestEven (x * 100) := by exact_mod_cast hge
  generalize nearestEven (x * 100) = z at hnear hgeq
  obtain ⟨c,hc⟩ : ∃ c : ℚ, c * 100 = z := ⟨z / 100,by ring⟩
  have hclarge : (2 : ℚ)^46 ≤ c := by linarith
  have hdist : |x - c| ≤ 1/200 := by
    rw [← hc,← sub_mul,abs_mul] at hnear
    norm_num at hnear
    linarith
  have hcpos : 0 < c := lt_of_lt_of_le (by norm_num) hclarge
  have hnearest : |number c - c| ≤ |x - c| := abs_roundTo_sub_le_abs (by decide) hcpos hx
  have hsum : |number c - x| ≤ |number c - c| + |x - c| := by
    rw [abs_sub_comm x c]
    exact abs_sub_le _ _ _
  have hround : number c = x := by
    refine (isNumber_number c).eq_of_abs_sub_lt (by decide) hx (n := 46) ?_ (by exact_mod_cast hlarge) ?_
    · have hmono := number_mono hclarge
      rw [number_large] at hmono
      exact_mod_cast hmono
    · norm_num
      linarith
  rw [← hround]
  exact isCents_written_of_number ⟨z,hc⟩ hcpos.le

/-- The order of what is written and an amount in cents is that of their numbers. -/
theorem written_lt_iff (hx : IsNumber x) (hc : IsCents c) (h0 : 0 ≤ c) (hle : c ≤ 2^46) :
    written x < c ↔ x < number c := by
  have hround := number_written hx
  constructor
  · intro h
    have hmono := number_mono h.le
    rw [hround] at hmono
    refine hmono.lt_of_ne ?_
    rintro rfl
    rw [written_number hc h0 hle] at h
    exact lt_irrefl _ h
  · intro h
    rw [← hround] at h
    exact lt_of_number_lt h

/-! ### What is printed -/

theorem abs_cents_le (h : IsDecimal q) (hp : Plain q) : |cents q| ≤ |q| := by
  have hfloor : (⌊|q| * 100⌋₊ : ℚ) ≤ |q| * 100 := Nat.floor_le (by positivity)
  rw [cents_of_plain h hp,abs_signed q (by positivity)]
  linarith

theorem abs_cents_lt_ten (h : IsDecimal q) (hp : ¬ Plain q) : |cents q| < 10 := by
  have hpos : 0 ≤ (numeral q).magnitude := le_trans (by norm_num) (one_le_magnitude h hp)
  have hfloor : (⌊(numeral q).magnitude * 100⌋₊ : ℚ) ≤ (numeral q).magnitude * 100 :=
    Nat.floor_le (by positivity)
  have hlt := magnitude_lt_ten h hp
  rw [cents_eq h,abs_signed q (by positivity)]
  linarith

theorem isCents_of_abs (h : IsCents |q|) : IsCents q := by
  rcases abs_choice q with he | he
  · rwa [he] at h
  · rw [he] at h
    simpa using h.neg

theorem written_number_of_abs (hc : IsCents c) (hle : |c| ≤ 2^46) : written (number c) = c := by
  rcases lt_or_ge c 0 with hneg | hpos
  · rw [abs_of_neg hneg] at hle
    have h := written_number hc.neg (neg_nonneg.2 hneg.le) hle
    rw [number_neg,written_neg] at h
    exact neg_inj.1 h
  · rw [abs_of_nonneg hpos] at hle
    exact written_number hc hpos hle

theorem large_of_abs_written (hx : IsNumber x) (h : 2^46 ≤ |written x|) : IsCents (written x) := by
  have habs : IsNumber |x| := by
    rcases abs_choice x with he | he
    · rwa [he]
    · rw [he]
      exact hx.neg
  rw [abs_written hx] at h
  have hmono := number_mono h
  rw [number_large,number_written habs] at hmono
  refine isCents_of_abs ?_
  rw [abs_written hx]
  exact isCents_written_of_large habs hmono

/-- The amount that was read back is printed as it was. -/
theorem cents_written_number (hx : IsNumber x) :
    cents (written (number (cents (written x)))) = cents (written x) := by
  have hdecimal := isDecimal_written hx
  have hcents := isCents_cents hdecimal
  rcases le_or_gt |cents (written x)| (2^46) with hle | hgt
  · rw [written_number_of_abs hcents hle,cents_eq_self hcents (abs_cents_lt hdecimal)]
  · -- so large an amount was not cut at all
    have hplain : Plain (written x) := by
      by_contra hp
      have hlt := abs_cents_lt_ten hdecimal hp
      linarith
    have hlarge := hgt.le.trans (abs_cents_le hdecimal hplain)
    have hself : cents (written x) = written x :=
      cents_eq_self (large_of_abs_written hx hlarge) hplain.lt
    rw [hself,number_written hx,hself]

theorem isNumber_taxableAmount (lineItem : ZATCAInvoiceLineItem) : IsNumber (taxableAmount lineItem) :=
  isNumber_number _

theorem lineSubtotal_eq (lineItem : ZATCAInvoiceLineItem) :
    lineSubtotal lineItem = number (cents (written (taxableAmount lineItem))) := by
  have hdecimal := isDecimal_written (isNumber_taxableAmount lineItem)
  have hread := parseFloat_fixedText hdecimal
  rw [lineSubtotal,parseFloat,toFixedNoRounding,hread]
  rfl

theorem parseFloat_lineExtension (lineItem : ZATCAInvoiceLineItem) :
    Number.parseFloat (lineExtension (lineSubtotal lineItem)) =
      some (cents (written (taxableAmount lineItem))) := by
  have hx := isNumber_taxableAmount lineItem
  rw [lineExtension,toFixedNoRounding,lineSubtotal_eq,
    parseFloat_fixedText (isDecimal_written (isNumber_number _)),cents_written_number hx]

/-! ### The cent of a number -/

/-- `x` is in the cent of `c`: it is not below the number of `c`, and below that of the next cent. From
`2^46` on numbers are further apart than cents, and `c` has to be the decimal of its number. -/
def InCent (c x : ℚ) : Prop :=
  if c = 0 then |x| < number (1/100)
  else if c < 2^46 then number c ≤ x ∧ x < number (c + 1/100)
  else x = number c ∧ written (number c) = c

/-- Where `x` is written with an exponent, what is before the exponent is in the cent. -/
def KeepsCent (c x : ℚ) : Prop :=
  if Plain (written x) then InCent c x
  else 0 < x ∧ c ≤ (numeral (written x)).magnitude ∧ (numeral (written x)).magnitude < c + 1/100

/-- The cents of an amount are those of the cent that it is in. -/
theorem floor_cents_eq_iff (hc : IsCents c) (h0 : 0 ≤ c) {m : ℚ} (hm : 0 ≤ m) :
    (⌊m * 100⌋₊ / 100 : ℚ) = c ↔ c ≤ m ∧ m < c + 1/100 := by
  obtain ⟨k,hk⟩ := hc.natAbs
  rw [abs_of_nonneg h0] at hk
  rw [div_eq_iff (by norm_num),hk,Nat.cast_inj,Nat.floor_eq_iff (by positivity),← hk]
  constructor
  · rintro ⟨hlow,hhigh⟩
    exact ⟨by linarith,by linarith⟩
  · rintro ⟨hlow,hhigh⟩
    exact ⟨by linarith,by linarith⟩

theorem cents_eq_iff_of_pos (h : IsDecimal q) (hp : Plain q) (hc : IsCents c) (hpos : 0 < c) :
    cents q = c ↔ c ≤ q ∧ q < c + 1/100 := by
  rw [cents_of_plain h hp]
  rcases lt_or_ge q 0 with hneg | hnonneg
  · rw [signed_of_neg hneg]
    have hfloor : (0 : ℚ) ≤ ⌊|q| * 100⌋₊ / 100 := by positivity
    constructor
    · intro he
      linarith
    · rintro ⟨hle,-⟩
      linarith
  · rw [signed_of_nonneg hnonneg,abs_of_nonneg hnonneg]
    exact floor_cents_eq_iff hc hpos.le hnonneg

theorem cents_eq_zero_iff (h : IsDecimal q) (hp : Plain q) : cents q = 0 ↔ |q| < 1/100 := by
  have hfloor : (⌊|q| * 100⌋₊ / 100 : ℚ) = 0 ↔ |q| < 1/100 := by
    rw [floor_cents_eq_iff isCents_zero le_rfl (abs_nonneg q),zero_add]
    simp
  rw [cents_of_plain h hp,← hfloor]
  unfold signed
  split
  · exact neg_eq_zero
  · rfl

theorem cents_eq_iff_of_not_plain (h : IsDecimal q) (hp : ¬ Plain q) (hc : IsCents c) (h0 : 0 ≤ c) :
    cents q = c ↔ 0 < q ∧ c ≤ (numeral q).magnitude ∧ (numeral q).magnitude < c + 1/100 := by
  have hone := one_le_magnitude h hp
  rw [cents_eq h]
  rcases lt_or_ge q 0 with hneg | hnonneg
  · have hfloor : (1 : ℚ) ≤ ⌊(numeral q).magnitude * 100⌋₊ := by
      exact_mod_cast (Nat.one_le_floor_iff _).2 (by linarith)
    rw [signed_of_neg hneg]
    constructor
    · intro he
      linarith
    · rintro ⟨hpos,-⟩
      linarith
  · have hpos : 0 < q := hnonneg.lt_of_ne (not_plain_ne_zero hp).symm
    rw [signed_of_nonneg hnonneg,floor_cents_eq_iff hc h0 (by linarith)]
    simp [hpos]

theorem inCent_iff (hx : IsNumber x) (hp : Plain (written x)) (hc : IsCents c) (h0 : 0 ≤ c) :
    cents (written x) = c ↔ InCent c x := by
  have hdecimal := isDecimal_written hx
  unfold InCent
  split
  · next hzero =>
    have habs : IsNumber |x| := by
      rcases abs_choice x with he | he
      · rwa [he]
      · rw [he]
        exact hx.neg
    have hcent : IsCents (1/100) := ⟨1,by norm_num⟩
    rw [hzero,cents_eq_zero_iff hdecimal hp,abs_written hx,
      written_lt_iff habs hcent (by norm_num) (by norm_num)]
  · next hzero =>
    have hpos : 0 < c := h0.lt_of_ne (Ne.symm hzero)
    split
    · next hlt =>
      have hlarge : IsCents (2^46 : ℚ) := by exact_mod_cast isCents_natCast (2^46)
      have hnext : IsCents (c + 1/100) := hc.add ⟨1,by norm_num⟩
      rw [cents_eq_iff_of_pos hdecimal hp hc hpos,← not_lt,written_lt_iff hx hc h0 hlt.le,
        written_lt_iff hx hnext (by linarith) (hc.add_hundredth_le hlarge hlt),not_lt]
    · next hge =>
      have hround := number_written hx
      constructor
      · intro he
        have hle : c ≤ |written x| := by
          rw [← he]
          exact (le_abs_self _).trans (abs_cents_le hdecimal hp)
        have hself : written x = c := by
          rw [← he]
          exact (cents_eq_self (large_of_abs_written hx ((not_lt.1 hge).trans hle)) hp.lt).symm
        have hnumber : number c = x := by rw [← hself,hround]
        exact ⟨hnumber.symm,by rw [hnumber,hself]⟩
      · rintro ⟨rfl,hself⟩
        rw [hself] at hp ⊢
        exact cents_eq_self hc hp.lt

theorem keepsCent_iff (hx : IsNumber x) (hc : IsCents c) (h0 : 0 ≤ c) :
    cents (written x) = c ↔ KeepsCent c x := by
  have hdecimal := isDecimal_written hx
  unfold KeepsCent
  split
  · next hp => exact inCent_iff hx hp hc h0
  · next hp =>
    have hsign : 0 < written x ↔ 0 < x := by
      have hneg := written_neg_iff hx.neg
      rwa [written_neg,neg_lt_zero,neg_lt_zero] at hneg
    rw [cents_eq_iff_of_not_plain hdecimal hp hc h0,hsign]

/-! ### A line -/

/-- A price and discounts with two places at most, for a number of whole things, and not more off
than the things cost. -/
structure MoneyShaped (lineItem : ZATCAInvoiceLineItem) : Prop where
  price : IsCents lineItem.taxExclusivePrice
  quantity : ∃ n : ℕ, lineItem.quantity = n
  discounts : ∀ d ∈ lineItem.discounts, IsCents d.amount
  notAbove : Zatca.totalDiscounts lineItem ≤ lineItem.taxExclusivePrice * lineItem.quantity

/-- What the price, the product and the sum of the discounts are off by in binary. -/
def drift (lineItem : ZATCAInvoiceLineItem) : ℚ :=
  (number (number lineItem.taxExclusivePrice * number lineItem.quantity) -
      lineItem.taxExclusivePrice * lineItem.quantity) -
    (totalDiscounts lineItem - Zatca.totalDiscounts lineItem)

/-- With its drift the amount of the line is rounded to a number that is in the cent of the amount. -/
def DriftKeepsCent (lineItem : ZATCAInvoiceLineItem) : Prop :=
  KeepsCent (Zatca.taxableAmount lineItem) (number (Zatca.taxableAmount lineItem + drift lineItem))

/-- The amount of the line is printed as it is, on every kind of document. -/
def PrintsAmount (lineItem : ZATCAInvoiceLineItem) : Prop :=
  Number.parseFloat (lineExtension (invoiceLineSubtotal lineItem)) =
      some (Zatca.taxableAmount lineItem) ∧
    Number.parseFloat (lineExtension (debitNoteLineSubtotal lineItem)) =
      some (Zatca.taxableAmount lineItem)

theorem taxableAmount_eq (lineItem : ZATCAInvoiceLineItem) :
    taxableAmount lineItem = number (Zatca.taxableAmount lineItem + drift lineItem) := by
  rw [taxableAmount,Zatca.taxableAmount,drift]
  congr 1
  ring

section line
variable {lineItem : ZATCAInvoiceLineItem} (h : MoneyShaped lineItem)
include h

theorem MoneyShaped.isCents_taxableAmount : IsCents (Zatca.taxableAmount lineItem) := by
  obtain ⟨z,hz⟩ := h.price
  obtain ⟨n,hn⟩ := h.quantity
  have hproduct : IsCents (lineItem.taxExclusivePrice * lineItem.quantity) := by
    refine ⟨z * n,?_⟩
    rw [hn]
    push_cast
    rw [← hz]
    ring
  have hsum : IsCents (Zatca.totalDiscounts lineItem) := by
    rw [Zatca.totalDiscounts,foldl_add,zero_add]
    refine IsCents.sum fun a ha => ?_
    obtain ⟨d,hd,rfl⟩ := List.mem_map.1 ha
    exact h.discounts d hd
  rw [Zatca.taxableAmount,sub_eq_add_neg]
  exact hproduct.add hsum.neg

theorem MoneyShaped.taxableAmount_nonneg : 0 ≤ Zatca.taxableAmount lineItem :=
  sub_nonneg.2 h.notAbove

theorem printsAmount_iff_keepsCent : PrintsAmount lineItem ↔
    KeepsCent (Zatca.taxableAmount lineItem) (taxableAmount lineItem) := by
  rw [PrintsAmount,invoiceLineSubtotal,debitNoteLineSubtotal,and_self,parseFloat_lineExtension,
    Option.some_inj]
  exact keepsCent_iff (isNumber_taxableAmount _) h.isCents_taxableAmount h.taxableAmount_nonneg

/-- No cent of a line is lost exactly when what binary numbers are off by leaves the amount in its
cent. -/
theorem printsAmount_iff : PrintsAmount lineItem ↔ DriftKeepsCent lineItem := by
  rw [printsAmount_iff_keepsCent h,DriftKeepsCent,taxableAmount_eq]

end line

/-- The number of an amount is in its cent. -/
theorem keepsCent_number (hc : IsCents c) (h0 : 0 ≤ c) (hle : c ≤ 2^46) : KeepsCent c (number c) := by
  have hlt : |c| < 10^21 := by
    rw [abs_of_nonneg h0]
    linarith
  rw [← keepsCent_iff (isNumber_number c) hc h0,written_number hc h0 hle]
  exact cents_eq_self hc hlt

/-- Then JS prints what the exact amount would. -/
theorem lineExtension_eq {lineItem : ZATCAInvoiceLineItem} (h : MoneyShaped lineItem)
    (hlt : Zatca.taxableAmount lineItem < 10^21) (hkeeps : DriftKeepsCent lineItem) :
    Number.parseFloat (lineExtension (lineSubtotal lineItem)) = some (Zatca.lineSubtotal lineItem) := by
  rw [DriftKeepsCent,← taxableAmount_eq] at hkeeps
  have hself : Zatca.lineSubtotal lineItem = Zatca.taxableAmount lineItem := by
    refine cents_eq_self h.isCents_taxableAmount ?_
    rwa [abs_of_nonneg h.taxableAmount_nonneg]
  rw [hself]
  exact ((printsAmount_iff_keepsCent h).2 hkeeps).1

namespace Sample

/-- Two pens at ten riyals. -/
def wholeLine : ZATCAInvoiceLineItem :=
  { id := "1",name := "pen",quantity := 2,taxExclusivePrice := 10,vatPercent := 15 }

/-- Three pens at 1.15. -/
def shortLine : ZATCAInvoiceLineItem :=
  { id := "1",name := "pen",quantity := 3,taxExclusivePrice := 23/20,vatPercent := 15 }

theorem wholeLine_money : MoneyShaped wholeLine where
  price := ⟨1000,by norm_num [wholeLine]⟩
  quantity := ⟨2,rfl⟩
  discounts := nofun
  notAbove := by norm_num [Zatca.totalDiscounts,wholeLine]

theorem shortLine_money : MoneyShaped shortLine where
  price := ⟨115,by norm_num [shortLine]⟩
  quantity := ⟨3,rfl⟩
  discounts := nofun
  notAbove := by norm_num [Zatca.totalDiscounts,shortLine]

end Sample

theorem printsAmount_wholeLine : PrintsAmount Sample.wholeLine := by
  refine (printsAmount_iff Sample.wholeLine_money).2 ?_
  have hprice : number 10 = 10 := number_eq_self (isNumber_intCast (z := 10) (by norm_num))
  have hquantity : number 2 = 2 := number_eq_self (isNumber_intCast (z := 2) (by norm_num))
  have hproduct : number 20 = 20 := number_eq_self (isNumber_intCast (z := 20) (by norm_num))
  have hdrift : drift Sample.wholeLine = 0 := by
    norm_num [drift,totalDiscounts,Zatca.totalDiscounts,Sample.wholeLine,hprice,hquantity,hproduct]
  have hamount : Zatca.taxableAmount Sample.wholeLine = 20 := by
    norm_num [Zatca.taxableAmount,Zatca.totalDiscounts,Sample.wholeLine]
  rw [DriftKeepsCent,hdrift,add_zero,hamount]
  exact keepsCent_number ⟨2000,by norm_num⟩ (by norm_num) (by norm_num)

/-- Three pens at 1.15 come to 3.4499999999999997, so 3.44 is printed. -/
theorem printsAmount_fails : ¬ PrintsAmount Sample.shortLine := by
  intro h
  have hprice : number (23/20) = (5179139571476070 : ℤ) * 2^(-52 : ℤ) := by
    refine roundTo_eq_of_mantissa (by norm_num) (by norm_num) (by norm_num) (.inl ?_)
    rw [abs_lt]
    norm_num
  have hquantity : number 3 = 3 := number_eq_self (isNumber_intCast (z := 3) (by norm_num))
  have hproduct : (5179139571476070 : ℤ) * 2^(-52 : ℤ) * 3 = ((7768709357214105 : ℤ) * 2^(-51 : ℤ) : ℚ) := by
    norm_num
  have hnumber : IsNumber ((7768709357214105 : ℤ) * 2^(-51 : ℤ)) := ⟨_,_,by norm_num,rfl⟩
  have hcent : number (69/20) = (7768709357214106 : ℤ) * 2^(-51 : ℤ) := by
    refine roundTo_eq_of_mantissa (by norm_num) (by norm_num) (by norm_num) (.inl ?_)
    rw [abs_lt]
    norm_num
  have htaxable : taxableAmount Sample.shortLine = (7768709357214105 : ℤ) * 2^(-51 : ℤ) := by
    rw [taxableAmount,Sample.shortLine,hprice,hquantity,hproduct,number_eq_self hnumber]
    simp only [totalDiscounts,List.foldl_nil,sub_zero]
    exact number_eq_self hnumber
  have hamount : Zatca.taxableAmount Sample.shortLine = 69/20 := by
    norm_num [Zatca.taxableAmount,Zatca.totalDiscounts,Sample.shortLine]
  rw [printsAmount_iff_keepsCent Sample.shortLine_money,htaxable,hamount,
    ← keepsCent_iff hnumber ⟨345,by norm_num⟩ (by norm_num)] at h
  have hbelow : written ((7768709357214105 : ℤ) * 2^(-51 : ℤ)) < 69/20 := by
    rw [written_lt_iff hnumber ⟨345,by norm_num⟩ (by norm_num) (by norm_num),hcent]
    norm_num
  have habove : 1 ≤ written ((7768709357214105 : ℤ) * 2^(-51 : ℤ)) := by
    have hone : number 1 = 1 := number_eq_self (isNumber_intCast (z := 1) (by norm_num))
    rw [← not_lt,written_lt_iff hnumber ⟨100,by norm_num⟩ (by norm_num) (by norm_num),hone]
    norm_num
  have hplain : Plain (written ((7768709357214105 : ℤ) * 2^(-51 : ℤ))) := by
    right
    rw [abs_of_nonneg (le_trans (by norm_num) habove)]
    exact ⟨le_trans (by norm_num) habove,hbelow.trans (by norm_num)⟩
  have hcut := abs_cents_le (isDecimal_written hnumber) hplain
  rw [h,abs_of_nonneg (by norm_num),abs_of_nonneg (le_trans (by norm_num) habove)] at hcut
  exact absurd hbelow (not_lt.2 hcut)

end Binary

end Zatca
