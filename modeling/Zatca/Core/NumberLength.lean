import Zatca.Core.BinaryLine
import Zatca.Core.FixedNoRounding
set_option autoImplicit false
namespace Zatca
open Digits Number ShortestDecimal

/-! How long the texts of an amount get. What JS writes of a number has 17 digits, whatever the
size of the number. -/

/-- The decimals that JS writes: no number is as large as `10^309`, and none but zero is below
`10^(-324)`. -/
structure IsWritten (w : ℚ) : Prop where
  digits : HasDigits 17 |w|
  large : |w| < 10^309
  small : w = 0 ∨ 10^(-324 : ℤ) ≤ |w|

namespace Number

variable {q : ℚ} {k : ℕ}

/-! ### Places -/

theorem placesFrom_le {den n : ℕ} (h : den ∣ 10^n) (fuel : ℕ) {start : ℕ} (hstart : start ≤ n) :
    placesFrom den fuel start ≤ n := by
  induction fuel generalizing start with
  | zero => exact hstart
  | succ fuel ih =>
    unfold placesFrom
    split
    · exact hstart
    · rename_i hno
      have hne : start ≠ n := fun he => hno (he ▸ h)
      exact ih (by omega)

theorem exists_int_of_abs {n : ℕ} {z : ℤ} (h : |q| * 10^n = z) : ∃ z : ℤ, q * 10^n = z := by
  rcases abs_choice q with he | he
  · exact ⟨z,by rw [← h,he]⟩
  · exact ⟨-z,by rw [Int.cast_neg,← h,he]; ring⟩

theorem places_le {n : ℕ} {z : ℤ} (h : |q| * 10^n = z) : places q ≤ n :=
  placesFrom_le (den_dvd_iff.2 (exists_int_of_abs h)) _ (Nat.zero_le n)

theorem isDecimal_of_hasDigits (h : HasDigits k |q|) : IsDecimal q := by
  obtain ⟨m,e,-,hq⟩ := h
  have hscaled : |q| * 10^(-e).toNat = ((m * 10^(e + (-e).toNat).toNat : ℤ) : ℚ) := by
    push_cast
    rw [hq,mul_assoc,← zpow_natCast,← zpow_natCast,← zpow_add₀ (by norm_num)]
    congr 2
    omega
  exact isDecimal_iff.2 ⟨_,exists_int_of_abs hscaled⟩

/-- A number in plain notation has 17 digits behind the zeros of its fraction. -/
theorem places_le_of_plain (h : HasDigits 17 |q|) (hp : Plain q) : places q ≤ 22 := by
  obtain ⟨m,e,hm,hq⟩ := h
  rcases hp with rfl | ⟨hge,-⟩
  · exact places_le (z := 0) (by simp)
  · have hmq : (m : ℚ) < 10^(17 : ℤ) := by exact_mod_cast hm
    have hlt : (10 : ℚ)^(-6 : ℤ) < 10^(17 + e) := by
      calc (10 : ℚ)^(-6 : ℤ) = 1/10^6 := by norm_num
        _ ≤ m * 10^e := by rwa [← hq]
        _ < 10^(17 : ℤ) * 10^e := mul_lt_mul_of_pos_right hmq (by positivity)
        _ = 10^(17 + e) := (zpow_add₀ (by norm_num) _ _).symm
    have he : -6 < 17 + e := (zpow_lt_zpow_iff_right₀ (by norm_num)).1 hlt
    refine places_le (z := m * 10^(e + 22).toNat) ?_
    push_cast
    rw [hq,mul_assoc,← zpow_natCast,← zpow_natCast,← zpow_add₀ (by norm_num)]
    congr 2
    omega

/-! ### Digits -/

theorem length_dropWhile_digits_le (p : Char → Bool) (hk : 0 < k) {n : ℕ} (h : n < 10^k) :
    ((Nat.toDigits 10 n).reverse.dropWhile p).length ≤ k := by
  calc _ ≤ (Nat.toDigits 10 n).reverse.length := (List.dropWhile_suffix p).length_le
    _ ≤ k := by
      rw [List.length_reverse]
      exact length_toDigits_le hk h

/-- The zeros at the end do not count. -/
theorem length_significant_le (hk : 0 < k) (h : HasDigits k |q|) : (significant q).length ≤ k := by
  have hdecimal := isDecimal_of_hasDigits h
  obtain ⟨m,e,hm,hq⟩ := h
  have hunscaled : (unscaled q : ℚ) = m * 10^(e + places q) := by
    rw [unscaled_eq hdecimal,hq,mul_assoc,← zpow_natCast,← zpow_add₀ (by norm_num)]
  rcases Nat.eq_zero_or_pos m with rfl | hpos
  · have hzero : unscaled q = 0 := by
      rw [Nat.cast_zero,zero_mul] at hunscaled
      exact_mod_cast hunscaled
    simp [significant,hzero]
  · rcases le_or_gt 0 (e + places q) with hnonneg | hneg
    · have hvalue : unscaled q = m * 10^(e + places q).toNat := by
        have hcast : (unscaled q : ℚ) = (m * 10^(e + places q).toNat : ℕ) := by
          rw [hunscaled]
          push_cast
          rw [← zpow_natCast,Int.toNat_of_nonneg hnonneg]
        exact_mod_cast hcast
      have hzeros : ∀ c ∈ List.replicate (e + places q).toNat '0', decide (c = '0') = true := by
        simp
      rw [significant,hvalue,toDigits_mul_pow hpos,List.reverse_append,List.reverse_replicate,
        List.dropWhile_append_of_pos hzeros,List.length_reverse]
      exact length_dropWhile_digits_le _ hk hm
    · have hle : (unscaled q : ℚ) ≤ m := by
        rw [hunscaled]
        exact mul_le_of_le_one_right (by positivity) (zpow_le_one_of_nonpos₀ (by norm_num) hneg.le)
      have hlt : unscaled q < 10^k := lt_of_le_of_lt (by exact_mod_cast hle) hm
      rw [significant,List.length_reverse]
      exact length_dropWhile_digits_le _ hk hlt

/-! ### Texts -/

variable {w : ℚ}

theorem length_whole_le (h : IsDecimal q) : (numeral q).whole.length ≤ 21 := by
  unfold numeral
  split
  · rename_i hp
    have hlt : (unscaled q : ℚ) < 10^places q * 10^21 := by
      rw [unscaled_eq h,mul_comm]
      exact mul_lt_mul_of_pos_left hp.lt (by positivity)
    exact Numeral.length_whole_ofScaled_le _ (by decide) (by exact_mod_cast hlt)
  · simp

theorem length_fraction_le (h : IsWritten w) : (numeral w).fraction.length ≤ 22 := by
  unfold numeral
  split
  · rename_i hp
    rw [Numeral.length_fraction_ofScaled]
    exact places_le_of_plain h.digits hp
  · have hlen := length_significant_le (by decide) h.digits
    simp
    omega

theorem natAbs_exponent_lt (h : IsWritten w) (hp : ¬ Plain w) : (exponent w).natAbs < 10^3 := by
  have hdecimal := isDecimal_of_hasDigits h.digits
  have hsmall : 10^(-324 : ℤ) ≤ |w| := h.small.resolve_left (not_plain_ne_zero hp)
  have hmul := magnitude_mul_exponent hdecimal hp
  have hone := one_le_magnitude hdecimal hp
  have hten := magnitude_lt_ten hdecimal hp
  have hpow : (0 : ℚ) < 10^exponent w := by positivity
  have hupper : (10 : ℚ)^exponent w < 10^(309 : ℤ) := by
    calc (10 : ℚ)^exponent w ≤ (numeral w).magnitude * 10^exponent w :=
          le_mul_of_one_le_left hpow.le hone
      _ = |w| := hmul
      _ < 10^(309 : ℤ) := by exact_mod_cast h.large
  have hlower : (10 : ℚ)^(-324 : ℤ) < 10^(1 + exponent w) := by
    calc (10 : ℚ)^(-324 : ℤ) ≤ |w| := hsmall
      _ = (numeral w).magnitude * 10^exponent w := hmul.symm
      _ < 10 * 10^exponent w := mul_lt_mul_of_pos_right hten hpow
      _ = 10^(1 + exponent w) := (zpow_one_add₀ (by norm_num) _).symm
  have hu : exponent w < 309 := (zpow_lt_zpow_iff_right₀ (by norm_num)).1 hupper
  have hl : -324 < 1 + exponent w := (zpow_lt_zpow_iff_right₀ (by norm_num)).1 hlower
  omega

theorem length_exponentChars_le (h : IsWritten w) : (exponentChars w).length ≤ 5 := by
  unfold exponentChars
  split
  · simp
  · rename_i hp
    have hlen := length_toDigits_le (by decide) (natAbs_exponent_lt h hp)
    simp
    omega

theorem length_toString_le (h : IsWritten w) : (toString w).length ≤ 50 := by
  have hchars := Numeral.length_chars_le (numeral w)
  have hwhole := length_whole_le (isDecimal_of_hasDigits h.digits)
  have hfraction := length_fraction_le h
  have hexponent := length_exponentChars_le h
  rw [toString,String.length_ofList,List.length_append]
  omega

theorem length_toFixedNoRounding_le (h : IsWritten w) : (toFixedNoRounding w 2).length ≤ 50 := by
  have hdecimal := isDecimal_of_hasDigits h.digits
  have hchars := Numeral.length_chars_le ((numeral w).fitted 2)
  have hwhole : ((numeral w).fitted 2).whole.length ≤ 21 := length_whole_le hdecimal
  have hfraction : ((numeral w).fitted 2).fraction.length = 2 := length_fit 2 _
  rw [toFixedNoRounding_eq hdecimal (by decide),String.length_ofList]
  omega

/-- Below `10^21` the places that are rounded away are not written. -/
theorem length_toFixed_le (hlt : |q| < 10^21) : (toFixed q 2).length ≤ 50 := by
  have hround : ⌊|q| * 10^2 + 1/2⌋.toNat < 10^2 * 10^22 := by
    have hfloor : (⌊|q| * 10^2 + 1/2⌋ : ℚ) ≤ |q| * 10^2 + 1/2 := Int.floor_le _
    have hcast : (⌊|q| * 10^2 + 1/2⌋ : ℚ) < (10^2 * 10^22 : ℤ) := by
      push_cast
      linarith
    have hint : ⌊|q| * 10^2 + 1/2⌋ < 10^2 * 10^22 := by exact_mod_cast hcast
    omega
  have hchars := Numeral.length_chars_le (.ofScaled (q < 0) ⌊|q| * 10^2 + 1/2⌋.toNat 2)
  have hwhole := Numeral.length_whole_ofScaled_le (q < 0) (by decide) hround
  have hfraction := Numeral.length_fraction_ofScaled (q < 0) ⌊|q| * 10^2 + 1/2⌋.toNat 2
  rw [toFixed,if_neg (not_le.2 hlt),String.length_ofList]
  omega

end Number

/-! ### The numbers of JS -/

namespace Binary
open BinaryRounding

variable {x : ℚ}

theorem number_le_of_le_two_zpow {q : ℚ} {n : ℤ} (h : q ≤ 2^n) : number q ≤ 2^n := by
  have hmono := number_mono h
  rwa [number_eq_self (representable_two_zpow 53 n)] at hmono

theorem two_zpow_le_number {q : ℚ} {n : ℤ} (h : 2^n ≤ q) : 2^n ≤ number q := by
  have hmono := number_mono h
  rwa [number_eq_self (representable_two_zpow 53 n)] at hmono

theorem isNumber_abs (hx : IsNumber x) : IsNumber |x| := by
  rcases abs_choice x with he | he
  · rwa [he]
  · rw [he]
    exact hx.neg

theorem two_pow_1024_le : (2 : ℚ)^(1024 : ℤ) ≤ 10^309 := by
  calc (2 : ℚ)^(1024 : ℤ) = (2^256)^4 := by rw [← pow_mul]; rfl
    _ ≤ (12 * 10^76)^4 := pow_le_pow_left₀ (by norm_num) (by norm_num) 4
    _ = 12^4 * 10^304 := by rw [mul_pow,← pow_mul]
    _ ≤ 10^5 * 10^304 := by gcongr; norm_num
    _ = 10^309 := by rw [← pow_add]

theorem two_pow_1075_le : (2 : ℚ)^1075 ≤ 10^324 := by
  calc (2 : ℚ)^1075 = (2^43)^25 := by rw [← pow_mul]
    _ ≤ (88 * 10^11)^25 := pow_le_pow_left₀ (by norm_num) (by norm_num) 25
    _ = 88^25 * 10^275 := by rw [mul_pow,← pow_mul]
    _ ≤ 10^49 * 10^275 := by gcongr; norm_num
    _ = 10^324 := by rw [← pow_add]

/-- Between the largest number and the least one `toString` writes such a decimal. -/
theorem isWritten_written (hx : IsNumber x) (hlarge : |x| < 2^(1024 : ℤ))
    (hsmall : x = 0 ∨ 2^(-1074 : ℤ) ≤ |x|) : IsWritten (written x) := by
  have hread : number (written |x|) = |x| := number_written (isNumber_abs hx)
  constructor
  · rcases eq_or_ne x 0 with rfl | hne
    · rw [written_zero,abs_zero]
      exact ⟨0,0,by norm_num,by simp⟩
    · rw [abs_written hx]
      exact hasDigits_shortest (by decide) (isNumber_abs hx) (abs_pos.2 hne) (by decide)
  · by_contra hge
    rw [abs_written hx,not_lt] at hge
    have hnumber := two_zpow_le_number (two_pow_1024_le.trans hge)
    rw [hread] at hnumber
    linarith
  · rcases hsmall with rfl | hle
    · exact .inl written_zero
    · right
      by_contra hlt
      rw [abs_written hx,not_le] at hlt
      have hbound : (10 : ℚ)^(-324 : ℤ) ≤ 2^(-1075 : ℤ) := by
        rw [zpow_neg,zpow_neg]
        exact inv_anti₀ (by positivity) (by exact_mod_cast two_pow_1075_le)
      have hnumber := number_le_of_le_two_zpow (hlt.le.trans hbound)
      rw [hread] at hnumber
      have hstep : (2 : ℚ)^(-1075 : ℤ) < 2^(-1074 : ℤ) :=
        zpow_lt_zpow_right₀ (by norm_num) (by norm_num)
      linarith

end Binary

theorem isWritten_natCast {n : ℕ} (h : n < 10^17) : IsWritten n := by
  have hn : (n : ℚ) < 10^17 := by exact_mod_cast h
  have habs : |(n : ℚ)| = n := abs_of_nonneg (by positivity)
  constructor
  · exact ⟨n,0,h,by simp [habs]⟩
  · rw [habs]
    exact hn.trans (pow_lt_pow_right₀ (by norm_num) (by norm_num))
  · rcases Nat.eq_zero_or_pos n with rfl | hpos
    · exact .inl Nat.cast_zero
    · right
      rw [habs]
      calc (10 : ℚ)^(-324 : ℤ) ≤ 1 := zpow_le_one_of_nonpos₀ (by norm_num) (by norm_num)
        _ ≤ n := by exact_mod_cast hpos

/-- A number of JS. A finite one comes with the decimal that is written for it. -/
inductive JsNumber where
  | finite (x w : ℚ) (h : IsWritten w)
  | infinite (negative : Bool)
  | nan

namespace JsNumber

def toString : JsNumber → String
  | finite _ w _ => Number.toString w
  | infinite negative => if negative then "-Infinity" else "Infinity"
  | nan => "NaN"

/-- `value.toFixed(n)`: from `10^21` on it is `value.toString()`. -/
def toFixed (value : JsNumber) (n : ℕ) : String :=
  match value with
  | finite x w _ => if 10^21 ≤ |x| then Number.toString w else Number.toFixed x n
  | value => value.toString

def toFixedNoRounding (value : JsNumber) (n : ℕ) : String :=
  match value with
  | finite _ w _ => Zatca.toFixedNoRounding w n
  | _ => "0.00"

/-- The number as a value; what is not finite is given by its text, which is all that is read of it. -/
def toJson : JsNumber → Json
  | finite _ w _ => .num w
  | value => .str value.toString

theorem length_toString_le (value : JsNumber) : value.toString.length ≤ 50 := by
  cases value with
  | finite x w h => exact Number.length_toString_le h
  | infinite negative => cases negative <;> decide
  | nan => decide

theorem length_toFixed_le (value : JsNumber) : (value.toFixed 2).length ≤ 50 := by
  cases value with
  | finite x w h =>
    rw [toFixed]
    split
    · exact Number.length_toString_le h
    · rename_i hlt
      exact Number.length_toFixed_le (not_le.1 hlt)
  | infinite negative => exact length_toString_le (infinite negative)
  | nan => exact length_toString_le nan

theorem length_toFixedNoRounding_le (value : JsNumber) :
    (value.toFixedNoRounding 2).length ≤ 50 := by
  cases value with
  | finite x w h => exact Number.length_toFixedNoRounding_le h
  | infinite negative => exact (by decide : "0.00".length ≤ 50)
  | nan => exact (by decide : "0.00".length ≤ 50)

end JsNumber

end Zatca
