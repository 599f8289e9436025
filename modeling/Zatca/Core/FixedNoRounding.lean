import Zatca.Core.Number
set_option autoImplicit false

/-! What `toFixedNoRounding` does with the text of a number. -/

namespace Zatca
open Digits

/-! ### The match and its padding -/

/-- The match of the expression `^-?\d+(?:\.\d{0,n})?`. -/
def matchNumber (n : Nat) (text : List Char) : Option (List Char) :=
  let unsigned := if text.head? = some '-' then text.tail else text
  let digits := unsigned.takeWhile Char.isDigit
  if digits = [] then none
  else
    let afterDigits := unsigned.dropWhile Char.isDigit
    let fraction :=
      if afterDigits.head? = some '.' then '.' :: (afterDigits.tail.takeWhile Char.isDigit).take n
      else []
    some (Numeral.sign (text.head? = some '-') ++ digits ++ fraction)

/-- The function on the text of `value.toString()`. -/
def toFixedNoRoundingText (text : List Char) (n : Nat) : List Char :=
  match matchNumber n text with
  | some a =>
    let dot := a.idxOf '.'
    if '.' ∉ a then a ++ '.' :: List.replicate n '0'
    else
      let b : ℤ := n - (a.length - dot) + 1
      if b > 0 then a ++ List.replicate b.toNat '0' else a
  | none => "0.00".toList

theorem idxOf_point {xs ys : List Char} (h : '.' ∉ xs) : (xs ++ '.' :: ys).idxOf '.' = xs.length := by
  rw [List.idxOf_append_of_notMem h,List.idxOf_cons_self,Nat.add_zero]

theorem point_notMem_digits {ds : List Char} (h : IsDigits ds) : '.' ∉ ds := fun hm =>
  absurd (h _ hm) (by decide)

theorem point_notMem_sign (negative : Bool) : '.' ∉ Numeral.sign negative := by
  cases negative <;> decide

/-- The padding fills the fraction of a match up. -/
theorem pad_point {before fraction : List Char} (h : '.' ∉ before) (n : Nat) :
    (let a := before ++ '.' :: fraction.take n
     let b : ℤ := n - (a.length - a.idxOf '.') + 1
     if b > 0 then a ++ List.replicate b.toNat '0' else a) = before ++ '.' :: fit n fraction := by
  have hlen : ((before ++ '.' :: fraction.take n).length : ℤ) = before.length + min n fraction.length + 1 := by
    simp [add_assoc]
  simp only [idxOf_point h,hlen,fit]
  split
  · have hcount : ((n : ℤ) - (before.length + min n fraction.length + 1 - before.length) + 1).toNat =
        n - fraction.length := by omega
    rw [hcount,List.append_assoc,List.cons_append]
  · have hnone : n - fraction.length = 0 := by omega
    rw [hnone,List.replicate_zero,List.append_nil]

/-- The model of the function computes what the match and the padding do. -/
theorem toFixedNoRounding_eq_text (value : ℚ) (n : Nat) : toFixedNoRounding value n =
    String.ofList (toFixedNoRoundingText (Number.toString value).toList n) := by
  unfold toFixedNoRounding toFixedNoRoundingText matchNumber Numeral.scan
  generalize (Number.toString value).toList = text
  dsimp only
  generalize (if text.head? = some '-' then text.tail else text) = unsigned
  have hdigits : IsDigits (unsigned.takeWhile Char.isDigit) := fun c hc =>
    List.all_eq_true.1 List.all_takeWhile c hc
  generalize unsigned.takeWhile Char.isDigit = digits at hdigits
  generalize unsigned.dropWhile Char.isDigit = afterDigits
  by_cases hnil : digits = []
  · simp only [hnil,if_true]
    rfl
  · have hbefore : '.' ∉ Numeral.sign (decide (text.head? = some '-')) ++ digits := by
      rw [List.mem_append,not_or]
      exact ⟨point_notMem_sign _,point_notMem_digits hdigits⟩
    by_cases hpoint : afterDigits.head? = some '.'
    · have hmem : '.' ∈ Numeral.sign (decide (text.head? = some '-')) ++ digits ++
          '.' :: (afterDigits.tail.takeWhile Char.isDigit).take n := by simp
      simp only [hnil,hpoint,if_true,if_false,hmem,not_true_eq_false]
      rw [pad_point hbefore]
    · simp only [hnil,hpoint,if_false,List.append_nil,hbefore,not_false_eq_true,if_true]
      simp [fit]

/-! ### Truncation -/

/-- The plain notation of the number with what is behind `n` places left out. -/
def truncated (v : ℚ) (n : Nat) : String := String.ofList (Numeral.ofScaled (v < 0) ⌊|v| * 10^n⌋₊ n).chars

namespace Number
variable {q : ℚ}

theorem one_le_magnitude (h : IsDecimal q) (hp : ¬ Plain q) : 1 ≤ (numeral q).magnitude := by
  have hne := significant_ne_nil h (not_plain_ne_zero hp)
  have hlen : 0 < (significant q).length := List.length_pos_iff.2 hne
  obtain ⟨k,hvalue,hdigits⟩ := length_digits q
  have hu : unscaled q ≠ 0 := fun hz => not_plain_ne_zero hp ((unscaled_eq_zero h).1 hz)
  have hle := pow_le_value_toDigits hu
  have hsplit : 10^((significant q).length + k - 1) = 10^((significant q).length - 1) * 10^k := by
    rw [← pow_add]
    congr 1
    omega
  rw [hdigits,hvalue,hsplit] at hle
  have hsig : 10^((significant q).length - 1) ≤ value (significant q) :=
    Nat.le_of_mul_le_mul_right hle (Nat.pow_pos (by decide))
  rw [magnitude_not_plain hp,le_div_iff₀ (by positivity),one_mul]
  exact_mod_cast hsig

/-- In exponent notation the digits before the exponent have another size than the number. -/
theorem floor_magnitude_ne (h : IsDecimal q) (hp : ¬ Plain q) (n : Nat) :
    ⌊(numeral q).magnitude * 10^n⌋₊ ≠ ⌊|q| * 10^n⌋₊ := by
  have hpow : (0 : ℚ) < 10^n := by positivity
  have hone := one_le_magnitude h hp
  have hten := magnitude_lt_ten h hp
  have hlow : 10^n ≤ ⌊(numeral q).magnitude * 10^n⌋₊ := by
    refine Nat.le_floor ?_
    push_cast
    nlinarith
  have hhigh : ⌊(numeral q).magnitude * 10^n⌋₊ < 10 * 10^n := by
    rw [Nat.floor_lt (by positivity)]
    push_cast
    nlinarith
  intro he
  rw [he] at hlow hhigh
  have hq : q ≠ 0 := not_plain_ne_zero hp
  rcases lt_or_ge |q| (1/10^6) with hsmall | hlarge
  · have hlt : ⌊|q| * 10^n⌋₊ < 10^n := by
      rw [Nat.floor_lt (by positivity)]
      push_cast
      nlinarith
    omega
  · have hbig : 10^21 ≤ |q| := by
      by_contra hlt
      exact hp (.inr ⟨hlarge,not_le.1 hlt⟩)
    have hge : 10 * 10^n ≤ ⌊|q| * 10^n⌋₊ := by
      refine Nat.le_floor ?_
      push_cast
      nlinarith
    omega

/-- The digits behind the point of a scaled number, as a number. -/
theorem fraction_ofScaled (negative : Bool) (m places : Nat) :
    value (Numeral.ofScaled negative m places).fraction = m % 10^places ∧
      (Numeral.ofScaled negative m places).fraction.length = places := by
  unfold Numeral.ofScaled
  by_cases hz : places = 0
  · simp [hz,value,Nat.mod_one]
  · have hlen : (padTo places (Nat.toDigits 10 (m % 10^places))).length = places :=
      length_padTo (length_toDigits_le (by omega) (Nat.mod_lt _ (Nat.pow_pos (by decide))))
    simp only [hz,if_false]
    exact ⟨by rw [value_padTo,value,Nat.ofDigitChars_ten_toDigits],hlen⟩

/-- A numeral that is cut is the numeral of the cut number. -/
theorem fitted_ofScaled (negative : Bool) (m places n : Nat) :
    (Numeral.ofScaled negative m places).fitted n =
      .ofScaled negative ⌊(Numeral.ofScaled negative m places).magnitude * 10^n⌋₊ n := by
  have hn : 0 < 10^n := Nat.pow_pos (by decide)
  have hp : 0 < 10^places := Nat.pow_pos (by decide)
  have hcut : ⌊(Numeral.ofScaled negative m places).magnitude * 10^n⌋₊ = m * 10^n / 10^places := by
    have hq : (m : ℚ) / 10^places * 10^n = ((m * 10^n : ℕ) : ℚ) / ((10^places : ℕ) : ℚ) := by
      push_cast
      ring
    rw [Numeral.magnitude_ofScaled,hq,Nat.floor_div_eq_div]
  have hwhole : m * 10^n / 10^places / 10^n = m / 10^places := by
    rw [Nat.div_div_eq_div_mul,Nat.mul_div_mul_right _ _ hn]
  have hrest : m * 10^n / 10^places % 10^n = m % 10^places * 10^n / 10^places := by
    have hm : m * 10^n = 10^places * (m / 10^places * 10^n) + m % 10^places * 10^n := by
      conv_lhs => rw [← Nat.div_add_mod m (10^places)]
      ring
    have hlt : m % 10^places * 10^n / 10^places < 10^n := by
      rw [Nat.div_lt_iff_lt_mul hp,Nat.mul_comm]
      exact Nat.mul_lt_mul_of_pos_left (Nat.mod_lt _ hp) hn
    rw [hm,Nat.mul_add_div hp,Nat.mul_add_mod_self_right,Nat.mod_eq_of_lt hlt]
  have hwf := Numeral.wellFormed_ofScaled negative m places
  obtain ⟨hvalue,hlen⟩ := fraction_ofScaled negative m places
  obtain ⟨hvalue',hlen'⟩ := fraction_ofScaled negative (m * 10^n / 10^places) n
  have hfraction : fit n (Numeral.ofScaled negative m places).fraction =
      (Numeral.ofScaled negative (m * 10^n / 10^places) n).fraction := by
    refine eq_of_value_eq (isDigits_fit n hwf.fraction)
      (Numeral.wellFormed_ofScaled negative _ n).fraction ?_ ?_
    · rw [length_fit,hlen']
    · rw [value_fit n hwf.fraction,hvalue,hlen,hvalue',hrest]
  rw [hcut,Numeral.fitted,hfraction]
  simp only [Numeral.ofScaled,hwhole]

/-- In plain notation the text is cut behind its `n` places. -/
theorem toFixedNoRounding_of_plain (h : IsDecimal q) (hp : Plain q) {n : Nat} (hn : 0 < n) :
    toFixedNoRounding q n = truncated q n := by
  have hmagnitude := magnitude_plain h hp
  rw [toFixedNoRounding_eq h hn,truncated,← hmagnitude]
  rw [numeral,if_pos hp,fitted_ofScaled]

theorem parseFloat_truncated (q : ℚ) (n : Nat) :
    parseFloat (truncated q n) = some (signed q (⌊|q| * 10^n⌋₊ / 10^n)) := by
  rw [truncated,parseFloat_ofScaled]

theorem signed_inj {a b : ℚ} (h : signed q a = signed q b) : a = b := by
  unfold signed at h
  split at h
  · exact neg_injective h
  · exact h

/-- In exponent notation the digits in front of the exponent are cut instead. -/
theorem toFixedNoRounding_ne (h : IsDecimal q) (hp : ¬ Plain q) {n : Nat} (hn : 0 < n) :
    toFixedNoRounding q n ≠ truncated q n := by
  intro he
  have hread := parseFloat_toFixedNoRounding h hn
  rw [he,parseFloat_truncated] at hread
  have hsame := signed_inj (Option.some.inj hread)
  have hpow : (10 : ℚ)^n ≠ 0 := by positivity
  rw [div_left_inj' hpow] at hsame
  exact floor_magnitude_ne h hp n (by exact_mod_cast hsame.symm)

end Number

/-- The function truncates exactly the numbers that are written without an exponent. -/
theorem toFixedNoRounding_truncates_iff {v : ℚ} (h : IsDecimal v) {n : Nat} (hn : 0 < n) :
    String.ofList (toFixedNoRoundingText (Number.toString v).toList n) = truncated v n ↔
      Number.Plain v := by
  rw [← toFixedNoRounding_eq_text]
  constructor
  · intro he
    by_contra hp
    exact Number.toFixedNoRounding_ne h hp hn he
  · intro hp
    exact Number.toFixedNoRounding_of_plain h hp hn

theorem toFixedNoRounding_truncates_sample :
    String.ofList (toFixedNoRoundingText (Number.toString (-3149/1000)).toList 2) =
      truncated (-3149/1000) 2 :=
  (toFixedNoRounding_truncates_iff (Number.isDecimal_iff.2 ⟨3,-3149,by norm_num⟩) (by decide)).2
    (.inr ⟨by norm_num [abs_of_neg],by norm_num [abs_of_neg]⟩)

/-- Half a millionth is written with the digit of its mantissa in front of the point. -/
theorem toFixedNoRounding_not_truncates : ¬ ∀ (v : ℚ), IsDecimal v → ∀ n, 0 < n →
    String.ofList (toFixedNoRoundingText (Number.toString v).toList n) = truncated v n := by
  intro h
  have hd : IsDecimal (5/10^7) := Number.isDecimal_iff.2 ⟨7,5,by norm_num⟩
  have hp : ¬ Number.Plain (5/10^7) := by
    unfold Number.Plain
    norm_num [abs_of_pos]
  have he := h (5/10^7) hd 2 (by decide)
  rw [← toFixedNoRounding_eq_text] at he
  exact Number.toFixedNoRounding_ne hd hp (by decide) he

example : toFixedNoRoundingText "20.5".toList 2 = "20.50".toList := by decide
example : toFixedNoRoundingText "5e-7".toList 2 = "5.00".toList := by decide

end Zatca
