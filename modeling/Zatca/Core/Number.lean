import Mathlib.Data.Nat.Prime.Basic
import Mathlib.Data.Rat.Floor
import Mathlib.Tactic.NormNum
import Zatca.Library.Digits
set_option autoImplicit false

/-! Numbers as text. A number is the exact decimal that it denotes. -/

namespace Zatca
open Digits

/-- A number with finitely many decimal places. -/
def IsDecimal (q : ℚ) : Prop := ∃ k, q.den ∣ 10^k

namespace Number

/-- The first power of ten from `k` on that the denominator divides. -/
def placesFrom (den : Nat) : Nat → Nat → Nat
  | 0, k => k
  | fuel + 1, k => if den ∣ 10^k then k else placesFrom den fuel (k+1)

/-- The least number of places that `q` can be written with. -/
def places (q : ℚ) : Nat := placesFrom q.den q.den 0

/-- `q` without its sign and its point. -/
def unscaled (q : ℚ) : Nat := q.num.natAbs * (10^places q / q.den)

/-- Numbers that are written without an exponent. -/
def Plain (q : ℚ) : Prop := q = 0 ∨ (1/10^6 ≤ |q| ∧ |q| < 10^21)

instance (q : ℚ) : Decidable (Plain q) := inferInstanceAs (Decidable (_ ∨ _))

/-- The digits of `q` up to the last one that is not zero. -/
def significant (q : ℚ) : List Char :=
  ((Nat.toDigits 10 (unscaled q)).reverse.dropWhile (fun c => c = '0')).reverse

def numeral (q : ℚ) : Numeral :=
  if Plain q then .ofScaled (q < 0) (unscaled q) (places q)
  else
    { negative := q < 0
      whole := (significant q).take 1
      fraction := (significant q).drop 1 }

def exponent (q : ℚ) : ℤ := (Nat.toDigits 10 (unscaled q)).length - places q - 1

def exponentChars (q : ℚ) : List Char :=
  if Plain q then []
  else 'e' :: (if exponent q < 0 then '-' else '+') :: Nat.toDigits 10 (exponent q).natAbs

/-- `value.toString()` -/
def toString (q : ℚ) : String := String.ofList ((numeral q).chars ++ exponentChars q)

/-- What `parseFloat` makes of the text after the digits. -/
def parseExponent : List Char → ℤ
  | e :: '-' :: ds => if e = 'e' ∨ e = 'E' then -(value (ds.takeWhile Char.isDigit)) else 0
  | e :: '+' :: ds => if e = 'e' ∨ e = 'E' then value (ds.takeWhile Char.isDigit) else 0
  | e :: ds => if e = 'e' ∨ e = 'E' then value (ds.takeWhile Char.isDigit) else 0
  | [] => 0

/-- `Number.parseFloat` of a text that starts with its numeral; none is `NaN`. -/
def parseFloat (text : String) : Option ℚ :=
  let read := Numeral.scan text.toList
  if read.1.whole = [] ∧ read.1.fraction = [] then none
  else some (read.1.value * 10^parseExponent read.2)

/-- `value.toFixed(n)`, half away from zero. -/
def toFixed (q : ℚ) (n : Nat) : String :=
  if 10^21 ≤ |q| then toString q
  else
    String.ofList (Numeral.ofScaled (q < 0) ⌊|q| * 10^n + 1/2⌋.toNat n).chars

/-! ### What the texts say -/

theorem den_dvd_iff {q : ℚ} {k : Nat} : q.den ∣ 10^k ↔ ∃ z : ℤ, q * 10^k = z := by
  constructor
  · rintro ⟨c,hc⟩
    refine ⟨q.num * c,?_⟩
    have hden : (q.den : ℚ) ≠ 0 := by exact_mod_cast q.den_nz
    have hcast : (10 : ℚ)^k = q.den * c := by exact_mod_cast hc
    rw [hcast,← mul_assoc,Rat.mul_den_eq_num]
    push_cast
    ring
  · rintro ⟨z,hz⟩
    have hq : q = (z : ℚ) / (10^k : ℕ) := by
      push_cast
      rw [← hz]
      field_simp
    have hdvd : (q.den : ℤ) ∣ ((10^k : ℕ) : ℤ) := by
      rw [hq]
      exact_mod_cast Rat.den_dvd z ((10^k : ℕ) : ℤ)
    exact_mod_cast hdvd

theorem isDecimal_iff {q : ℚ} : IsDecimal q ↔ ∃ k, ∃ z : ℤ, q * 10^k = z := by
  simp only [IsDecimal,den_dvd_iff]

/-- A power of ten that has a divisor has one with as many zeros as the divisor's size. -/
theorem dvd_pow_self_of_dvd {d k : Nat} (h : d ∣ 10^k) : d ∣ 10^d := by
  have hpow : (10 : ℕ)^k = 2^k * 5^k := by rw [← Nat.mul_pow]
  rw [hpow,Nat.dvd_mul] at h
  obtain ⟨x,y,hx,hy,rfl⟩ := h
  obtain ⟨a,-,rfl⟩ := (Nat.dvd_prime_pow Nat.prime_two).1 hx
  obtain ⟨b,-,rfl⟩ := (Nat.dvd_prime_pow Nat.prime_five).1 hy
  have ha : a ≤ 2^a * 5^b :=
    (Nat.lt_two_pow_self).le.trans (Nat.le_mul_of_pos_right _ (Nat.pow_pos (by decide)))
  have hb : b ≤ 2^a * 5^b :=
    (Nat.lt_pow_self (by decide)).le.trans (Nat.le_mul_of_pos_left _ (Nat.pow_pos (by decide)))
  have hten : (10 : ℕ)^(2^a * 5^b) = 2^(2^a * 5^b) * 5^(2^a * 5^b) := by
    rw [← Nat.mul_pow]
  rw [hten]
  exact Nat.mul_dvd_mul (Nat.pow_dvd_pow 2 ha) (Nat.pow_dvd_pow 5 hb)

theorem dvd_placesFrom {den fuel k : Nat} (h : den ∣ 10^(k+fuel)) :
    den ∣ 10^placesFrom den fuel k := by
  induction fuel generalizing k with
  | zero => exact h
  | succ fuel ih =>
    rw [placesFrom]
    split
    · assumption
    · refine ih ?_
      rwa [Nat.add_right_comm,Nat.add_assoc]

variable {q : ℚ}

theorem den_dvd_places (h : IsDecimal q) : q.den ∣ 10^places q := by
  obtain ⟨k,hk⟩ := h
  refine dvd_placesFrom ?_
  rw [Nat.zero_add]
  exact dvd_pow_self_of_dvd hk

theorem unscaled_eq (h : IsDecimal q) : (unscaled q : ℚ) = |q| * 10^places q := by
  obtain ⟨c,hc⟩ := den_dvd_places h
  have hden : 0 < q.den := q.den_pos
  have hdiv : 10^places q / q.den = c := by rw [hc,Nat.mul_div_cancel_left _ hden]
  have hcast : (10 : ℚ)^places q = q.den * c := by exact_mod_cast hc
  have habs : |q| * q.den = (q.num.natAbs : ℚ) := by
    have hd : |(q.den : ℚ)| = q.den := abs_of_nonneg (by positivity)
    rw [← hd,← abs_mul,Rat.mul_den_eq_num,Nat.cast_natAbs,Int.cast_abs]
  rw [unscaled,hdiv,Nat.cast_mul,← habs,hcast]
  ring

theorem unscaled_eq_zero (h : IsDecimal q) : unscaled q = 0 ↔ q = 0 := by
  have hu := unscaled_eq h
  constructor
  · intro h0
    rw [h0,Nat.cast_zero] at hu
    have hpow : (10 : ℚ)^places q ≠ 0 := by positivity
    simpa [hpow] using hu.symm
  · rintro rfl
    rfl

theorem exists_significant (q : ℚ) : ∃ k,
    Nat.toDigits 10 (unscaled q) = significant q ++ List.replicate k '0' := by
  let ds := (Nat.toDigits 10 (unscaled q)).reverse
  let zeros := ds.takeWhile (fun c => c = '0')
  have hzeros : zeros = List.replicate zeros.length '0' := by
    rw [List.eq_replicate_iff]
    refine ⟨rfl,fun c hc => ?_⟩
    simpa using List.all_eq_true.1 List.all_takeWhile c hc
  refine ⟨zeros.length,?_⟩
  calc Nat.toDigits 10 (unscaled q) = ds.reverse := (List.reverse_reverse _).symm
    _ = (zeros ++ ds.dropWhile (fun c => c = '0')).reverse := by
      rw [List.takeWhile_append_dropWhile]
    _ = significant q ++ List.replicate zeros.length '0' := by
      rw [List.reverse_append,significant,hzeros,List.reverse_replicate,List.length_replicate]

theorem isDigits_significant (q : ℚ) : IsDigits (significant q) := by
  obtain ⟨k,hk⟩ := exists_significant q
  intro c hc
  exact isDigits_toDigits (unscaled q) c (hk ▸ List.mem_append_left _ hc)

theorem significant_ne_nil (h : IsDecimal q) (hq : q ≠ 0) : significant q ≠ [] := by
  obtain ⟨k,hk⟩ := exists_significant q
  intro hnil
  have hvalue := congrArg value hk
  rw [hnil,List.nil_append,value_zeros,value,Nat.ofDigitChars_ten_toDigits] at hvalue
  exact hq ((unscaled_eq_zero h).1 hvalue)

theorem not_plain_ne_zero (hp : ¬ Plain q) : q ≠ 0 := fun h => hp (.inl h)

theorem numeral_wellFormed (h : IsDecimal q) : (numeral q).WellFormed := by
  unfold numeral
  split
  · exact Numeral.wellFormed_ofScaled _ _ _
  · rename_i hp
    have hne := significant_ne_nil h (not_plain_ne_zero hp)
    refine ⟨?_,(isDigits_significant q).take 1,(isDigits_significant q).drop 1⟩
    simpa using hne

theorem stops_exponentChars (q : ℚ) : Numeral.Stops (exponentChars q) := by
  intro c hc
  unfold exponentChars at hc
  split at hc
  · cases hc
  · cases hc
    decide

theorem scan_toString (h : IsDecimal q) :
    Numeral.scan (toString q).toList = (numeral q,exponentChars q) := by
  rw [toString,String.toList_ofList]
  exact Numeral.scan_chars (numeral_wellFormed h) (stops_exponentChars q)

theorem parseFloat_chars {n : Numeral} (h : n.WellFormed) {rest : List Char}
    (hr : Numeral.Stops rest) :
    parseFloat (String.ofList (n.chars ++ rest)) = some (n.value * 10^parseExponent rest) := by
  unfold parseFloat
  rw [String.toList_ofList,Numeral.scan_chars h hr]
  simp [h.nonempty]

theorem parseFloat_numeral {n : Numeral} (h : n.WellFormed) :
    parseFloat (String.ofList n.chars) = some n.value := by
  have hread := parseFloat_chars h Numeral.stops_nil
  rwa [List.append_nil,parseExponent,zpow_zero,mul_one] at hread

/-! ### The value of a text -/

theorem magnitude_plain (h : IsDecimal q) (hp : Plain q) : (numeral q).magnitude = |q| := by
  have hpow : (0 : ℚ) < 10^places q := by positivity
  rw [numeral,if_pos hp,Numeral.magnitude_ofScaled,unscaled_eq h]
  field_simp

theorem negative_numeral (q : ℚ) : (numeral q).negative = decide (q < 0) := by
  unfold numeral
  split
  · rfl
  · rfl

/-- The sign of a number on its magnitude. -/
def signed (q m : ℚ) : ℚ := if q < 0 then -m else m

theorem signed_abs (q : ℚ) : signed q |q| = q := by
  unfold signed
  split
  · rename_i h
    rw [abs_of_neg h,neg_neg]
  · rename_i h
    exact abs_of_nonneg (not_lt.1 h)

theorem value_numeral (q : ℚ) : (numeral q).value = signed q (numeral q).magnitude := by
  rw [Numeral.value,negative_numeral,signed]
  by_cases hq : q < 0
  · simp [hq]
  · simp [hq]

/-- The value of digits with `n` places behind the point. -/
theorem parseFloat_ofScaled (q : ℚ) (m n : Nat) :
    parseFloat (String.ofList (Numeral.ofScaled (q < 0) m n).chars) = some (signed q (m / 10^n)) := by
  rw [parseFloat_numeral (Numeral.wellFormed_ofScaled (q < 0) m n),Numeral.value,
    Numeral.magnitude_ofScaled]
  simp [signed,Numeral.ofScaled]

theorem Plain.lt (hp : Plain q) : |q| < 10^21 := by
  rcases hp with rfl | h
  · norm_num
  · exact h.2

/-- In exponent notation the digits have one place before the point. -/
theorem magnitude_not_plain (hp : ¬ Plain q) : (numeral q).magnitude =
    (value (significant q) : ℚ) / 10^((significant q).length - 1) := by
  have hcut := value_append ((significant q).take 1) ((significant q).drop 1)
  rw [List.take_append_drop,List.length_drop] at hcut
  rw [numeral,if_neg hp,Numeral.magnitude]
  simp only [List.length_drop]
  rw [hcut]
  push_cast
  field_simp

theorem length_digits (q : ℚ) : ∃ k, unscaled q = value (significant q) * 10^k ∧
    (Nat.toDigits 10 (unscaled q)).length = (significant q).length + k := by
  obtain ⟨k,hk⟩ := exists_significant q
  have hvalue := congrArg value hk
  rw [value_append,value_zeros,List.length_replicate,Nat.add_zero,value,
    Nat.ofDigitChars_ten_toDigits] at hvalue
  exact ⟨k,hvalue,by rw [hk,List.length_append,List.length_replicate]⟩

theorem magnitude_mul_exponent (h : IsDecimal q) (hp : ¬ Plain q) :
    (numeral q).magnitude * 10^exponent q = |q| := by
  have hne := significant_ne_nil h (not_plain_ne_zero hp)
  have hlen : 0 < (significant q).length := List.length_pos_iff.2 hne
  obtain ⟨k,hvalue,hdigits⟩ := length_digits q
  have hu := unscaled_eq h
  rw [hvalue] at hu
  push_cast at hu
  have hexp : exponent q = (((significant q).length - 1 : ℕ) : ℤ) + (k : ℤ) - (places q : ℤ) := by
    rw [exponent,hdigits]
    push_cast [Nat.cast_sub hlen]
    ring
  have hten : (10 : ℚ) ≠ 0 := by norm_num
  rw [magnitude_not_plain hp,hexp,zpow_sub₀ hten,zpow_add₀ hten,zpow_natCast,zpow_natCast,
    zpow_natCast]
  field_simp
  linarith

theorem magnitude_lt_ten (h : IsDecimal q) (hp : ¬ Plain q) : (numeral q).magnitude < 10 := by
  have hne := significant_ne_nil h (not_plain_ne_zero hp)
  have hlen : 0 < (significant q).length := List.length_pos_iff.2 hne
  have hlt : (value (significant q) : ℚ) < 10^(significant q).length := by
    exact_mod_cast value_lt (isDigits_significant q)
  have hsucc : (10 : ℚ)^(significant q).length = 10 * 10^((significant q).length - 1) := by
    rw [← pow_succ']
    congr 1
    omega
  rw [magnitude_not_plain hp,div_lt_iff₀ (by positivity),← hsucc]
  exact hlt

theorem parseExponent_exponentChars (q : ℚ) :
    parseExponent (exponentChars q) = if Plain q then 0 else exponent q := by
  unfold exponentChars
  split
  · rfl
  · have hall : (Nat.toDigits 10 (exponent q).natAbs).takeWhile Char.isDigit =
        Nat.toDigits 10 (exponent q).natAbs := by
      have hread := (Numeral.takeWhile_digits (isDigits_toDigits (exponent q).natAbs)
        (show ∀ c ∈ ([] : List Char).head?, c.isDigit = false from nofun)).1
      rwa [List.append_nil] at hread
    by_cases hneg : exponent q < 0
    · simp only [hneg,if_true,parseExponent,hall,value,Nat.ofDigitChars_ten_toDigits]
      rw [if_pos (.inl trivial)]
      omega
    · simp only [hneg,if_false,parseExponent,hall,value,Nat.ofDigitChars_ten_toDigits]
      rw [if_pos (.inl trivial)]
      omega

/-- A number can be read back from its text. -/
theorem parseFloat_toString (h : IsDecimal q) : parseFloat (toString q) = some q := by
  rw [toString,parseFloat_chars (numeral_wellFormed h) (stops_exponentChars q),
    parseExponent_exponentChars,value_numeral]
  by_cases hp : Plain q
  · rw [if_pos hp,magnitude_plain h hp,signed_abs,zpow_zero,mul_one]
  · rw [if_neg hp]
    have hm := magnitude_mul_exponent h hp
    congr 1
    unfold signed
    split
    · rename_i hneg
      rw [neg_mul,hm,abs_of_neg hneg,neg_neg]
    · rename_i hpos
      rw [hm,abs_of_nonneg (not_lt.1 hpos)]

end Number

/-- The text of the number up to `n` places, with zeros where there are fewer. -/
def toFixedNoRounding (value : ℚ) (n : Nat) : String :=
  let read := Numeral.scan (Number.toString value).toList
  if read.1.whole = [] then "0.00"
  else String.ofList (Numeral.sign read.1.negative ++ read.1.whole ++ '.' :: fit n read.1.fraction)

namespace Number

variable {q : ℚ}

theorem toFixedNoRounding_eq (h : IsDecimal q) {n : Nat} (hn : 0 < n) :
    toFixedNoRounding q n = String.ofList ((numeral q).fitted n).chars := by
  have hne : fit n (numeral q).fraction ≠ [] := by
    intro hnil
    have hlen := length_fit n (numeral q).fraction
    rw [hnil,List.length_nil] at hlen
    omega
  unfold toFixedNoRounding
  rw [scan_toString h]
  simp [(numeral_wellFormed h).nonempty,Numeral.chars,Numeral.fitted,hne]

/-- The text is a numeral: what is before the exponent of `toString`, rounded toward zero. -/
theorem parseFloat_toFixedNoRounding (h : IsDecimal q) {n : Nat} (hn : 0 < n) :
    parseFloat (toFixedNoRounding q n) =
      some (signed q (⌊(numeral q).magnitude * 10^n⌋₊ / 10^n)) := by
  have hneg : ((numeral q).fitted n).negative = decide (q < 0) := negative_numeral q
  rw [toFixedNoRounding_eq h hn,parseFloat_numeral ((numeral_wellFormed h).fitted n),Numeral.value,
    ← Numeral.magnitude_fitted (numeral_wellFormed h) n]
  simp [hneg,signed]

end Number

/-- `Number.parseFloat(toFixedNoRounding(value, 2))`; the text is never `NaN`. -/
def cents (value : ℚ) : ℚ := (Number.parseFloat (toFixedNoRounding value 2)).getD 0

/-- `Number.parseFloat(value.toFixed(2))`; the text is never `NaN`. -/
def nearestCents (value : ℚ) : ℚ := (Number.parseFloat (Number.toFixed value 2)).getD 0

/-- A whole number of cents. -/
def IsCents (q : ℚ) : Prop := ∃ z : ℤ, q * 100 = z

section cents
open Number
variable {q : ℚ}

theorem IsCents.isDecimal (h : IsCents q) : IsDecimal q := by
  obtain ⟨z,hz⟩ := h
  exact isDecimal_iff.2 ⟨2,z,by rw [← hz]; norm_num⟩

theorem IsCents.natAbs (h : IsCents q) : ∃ m : ℕ, |q| * 100 = m := by
  obtain ⟨z,hz⟩ := h
  refine ⟨z.natAbs,?_⟩
  have h100 : |(100 : ℚ)| = 100 := abs_of_nonneg (by norm_num)
  rw [Nat.cast_natAbs,Int.cast_abs,← hz,abs_mul,h100]

theorem isCents_zero : IsCents 0 := ⟨0,by norm_num⟩

theorem IsCents.add {a b : ℚ} (ha : IsCents a) (hb : IsCents b) : IsCents (a + b) := by
  obtain ⟨x,hx⟩ := ha
  obtain ⟨y,hy⟩ := hb
  exact ⟨x + y,by push_cast; rw [add_mul,hx,hy]⟩

theorem IsCents.add_hundredth_le {a b : ℚ} (ha : IsCents a) (hb : IsCents b) (h : a < b) :
    a + 1/100 ≤ b := by
  obtain ⟨i,hi⟩ := ha
  obtain ⟨j,hj⟩ := hb
  have hij : i + 1 ≤ j := by
    have hlt : (i : ℚ) < j := by linarith
    exact_mod_cast hlt
  have hcast : (i : ℚ) + 1 ≤ j := by exact_mod_cast hij
  linarith

theorem IsCents.neg {a : ℚ} (h : IsCents a) : IsCents (-a) := by
  obtain ⟨z,hz⟩ := h
  exact ⟨-z,by push_cast; linarith⟩

theorem isCents_natCast (n : ℕ) : IsCents n := ⟨n * 100,by push_cast; rfl⟩

theorem IsCents.sum {l : List ℚ} (h : ∀ a ∈ l, IsCents a) : IsCents l.sum := by
  induction l with
  | nil => exact isCents_zero
  | cons a l ih =>
    rw [List.sum_cons]
    exact (h a List.mem_cons_self).add (ih fun b hb => h b (List.mem_cons_of_mem _ hb))

theorem cents_eq (h : IsDecimal q) :
    cents q = signed q (⌊(numeral q).magnitude * 100⌋₊ / 100) := by
  rw [cents,parseFloat_toFixedNoRounding h (by decide),Option.getD_some]
  norm_num

/-- In plain notation the cents are those of the number, rounded toward zero. -/
theorem cents_of_plain (h : IsDecimal q) (hp : Plain q) : cents q = signed q (⌊|q| * 100⌋₊ / 100) := by
  rw [cents_eq h,magnitude_plain h hp]

theorem isCents_cents (h : IsDecimal q) : IsCents (cents q) := by
  rw [cents_eq h]
  unfold signed
  split
  · exact ⟨-⌊(numeral q).magnitude * 100⌋₊,by push_cast; field_simp⟩
  · exact ⟨⌊(numeral q).magnitude * 100⌋₊,by push_cast; field_simp⟩

theorem abs_signed (q : ℚ) {m : ℚ} (hm : 0 ≤ m) : |signed q m| = m := by
  unfold signed
  split
  · rw [abs_neg,abs_of_nonneg hm]
  · exact abs_of_nonneg hm

theorem abs_cents_lt (h : IsDecimal q) : |cents q| < 10^21 := by
  have hpos : 0 ≤ (numeral q).magnitude := by
    rw [← Numeral.abs_value]
    exact abs_nonneg _
  have hfloor : (⌊(numeral q).magnitude * 100⌋₊ : ℚ) ≤ (numeral q).magnitude * 100 :=
    Nat.floor_le (by positivity)
  have hlt : (numeral q).magnitude < 10^21 := by
    by_cases hp : Plain q
    · rw [magnitude_plain h hp]
      exact hp.lt
    · exact (magnitude_lt_ten h hp).trans (by norm_num)
  rw [cents_eq h,abs_signed q (by positivity)]
  linarith

theorem plain_of_cents (h : IsCents q) (hlt : |q| < 10^21) : Plain q := by
  obtain ⟨m,hm⟩ := h.natAbs
  rcases Nat.eq_zero_or_pos m with rfl | hpos
  · left
    rw [Nat.cast_zero] at hm
    have habs : |q| = 0 := by linarith
    exact abs_eq_zero.1 habs
  · have hone : (1 : ℚ) ≤ m := by exact_mod_cast hpos
    exact .inr ⟨by linarith,hlt⟩

theorem cents_eq_self (h : IsCents q) (hlt : |q| < 10^21) : cents q = q := by
  obtain ⟨m,hm⟩ := h.natAbs
  have hdiv : (m : ℚ) / 100 = |q| := by linarith
  rw [cents_of_plain h.isDecimal (plain_of_cents h hlt),hm,Nat.floor_natCast,hdiv,signed_abs]

/-- From `10^21` on only the digits of the mantissa are left. -/
theorem cents_ne_self (h : IsDecimal q) (hge : 10^21 ≤ |q|) : cents q ≠ q := by
  intro he
  have hlt := abs_cents_lt h
  rw [he] at hlt
  linarith

theorem nearestCents_eq_self (h : IsCents q) : nearestCents q = q := by
  unfold nearestCents toFixed
  by_cases hge : 10^21 ≤ |q|
  · rw [if_pos hge,parseFloat_toString h.isDecimal,Option.getD_some]
  · obtain ⟨m,hm⟩ := h.natAbs
    have hround : ⌊|q| * 10^2 + 1/2⌋.toNat = m := by
      have hfloor : ⌊|q| * 10^2 + 1/2⌋ = (m : ℤ) := by
        rw [Int.floor_eq_iff]
        push_cast
        constructor
        · linarith
        · linarith
      rw [hfloor,Int.toNat_natCast]
    have hdiv : (m : ℚ) / 10^2 = |q| := by linarith
    rw [if_neg hge,hround,parseFloat_ofScaled,Option.getD_some,hdiv,signed_abs]

end cents

-- From here on only the lemmas above say what the cents of a number are.
attribute [irreducible] cents nearestCents

example : toFixedNoRounding 20 2 = "20.00" := by decide +kernel
example : toFixedNoRounding (3149/1000) 2 = "3.14" := by decide +kernel
example : toFixedNoRounding (-3149/1000) 2 = "-3.14" := by decide +kernel
example : Number.toString (5/10^7) = "5e-7" := by decide +kernel
example : Number.toFixed (1005/1000) 2 = "1.01" := by decide +kernel
example : Number.toString (12*10^20) = "1.2e+21" := by decide +kernel

end Zatca
