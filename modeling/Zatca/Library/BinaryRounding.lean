import Mathlib.Algebra.Order.Field.Power
import Mathlib.Data.Int.Log
import Mathlib.Data.Rat.Floor
import Mathlib.Tactic.FieldSimp
import Mathlib.Tactic.Linarith
import Mathlib.Tactic.Positivity
import Mathlib.Tactic.Ring
set_option autoImplicit false
namespace BinaryRounding

/-! Rational numbers rounded to a number of significant bits. -/

/-! ### Whole numbers -/

/-- The whole number that is nearest to `q`, of two the even one. -/
def nearestEven (q : ℚ) : ℤ :=
  if q - ⌊q⌋ < 1/2 ∨ (q - ⌊q⌋ = 1/2 ∧ Even ⌊q⌋) then ⌊q⌋ else ⌊q⌋ + 1

/-- What determines the nearest number. -/
def IsNearest (q : ℚ) (n : ℤ) : Prop := |q - n| < 1/2 ∨ (|q - n| = 1/2 ∧ Even n)

variable {q r : ℚ} {m n : ℤ}

theorem isNearest_nearestEven (q : ℚ) : IsNearest q (nearestEven q) := by
  have hle : (⌊q⌋ : ℚ) ≤ q := Int.floor_le q
  have hlt : q < ⌊q⌋ + 1 := Int.lt_floor_add_one q
  have hbelow : |q - ⌊q⌋| = q - ⌊q⌋ := abs_of_nonneg (by linarith)
  have habove : |q - (⌊q⌋ + 1 : ℤ)| = ⌊q⌋ + 1 - q := by
    push_cast
    rw [abs_of_nonpos (by linarith),neg_sub]
  unfold nearestEven
  split
  · next h => simpa only [IsNearest,hbelow] using h
  · next h =>
    rw [not_or,not_and,not_lt] at h
    obtain ⟨hge,heven⟩ := h
    rw [IsNearest,habove]
    rcases hge.eq_or_lt with heq | hgt
    · exact .inr ⟨by linarith,(Int.not_even_iff_odd.1 (heven heq.symm)).add_odd odd_one⟩
    · exact .inl (by linarith)

theorem IsNearest.within_half (h : IsNearest q n) : |q - n| ≤ 1/2 := by
  rcases h with h | h
  · exact h.le
  · exact h.1.le

theorem IsNearest.mono (hm : IsNearest q m) (hn : IsNearest r n) (h : q ≤ r) : m ≤ n := by
  by_contra hlt
  have hstep : (n : ℚ) + 1 ≤ m := by exact_mod_cast not_le.1 hlt
  have hq := abs_le.1 hm.within_half
  have hr := abs_le.1 hn.within_half
  -- both are halfway between, so both of the neighbours would be even
  have hqm : q - m = -(1/2) := by linarith
  have hrn : r - n = 1/2 := by linarith
  have hsucc : m = n + 1 := by
    have hcast : (m : ℚ) = ((n + 1 : ℤ) : ℚ) := by
      push_cast
      linarith
    exact_mod_cast hcast
  have hhalf : |(1 : ℚ)/2| = 1/2 := abs_of_pos (by norm_num)
  have hem : Even m := by
    rcases hm with hm | hm
    · rw [hqm,abs_neg,hhalf] at hm
      exact absurd hm (lt_irrefl _)
    · exact hm.2
  have hen : Even n := by
    rcases hn with hn | hn
    · rw [hrn,hhalf] at hn
      exact absurd hn (lt_irrefl _)
    · exact hn.2
  rw [hsucc] at hem
  exact Int.not_even_iff_odd.2 (hen.add_odd odd_one) hem

theorem nearestEven_eq (h : IsNearest q n) : nearestEven q = n :=
  le_antisymm ((isNearest_nearestEven q).mono h le_rfl) (h.mono (isNearest_nearestEven q) le_rfl)

theorem nearestEven_mono (h : q ≤ r) : nearestEven q ≤ nearestEven r :=
  (isNearest_nearestEven q).mono (isNearest_nearestEven r) h

@[simp] theorem nearestEven_intCast (n : ℤ) : nearestEven n = n :=
  nearestEven_eq (.inl (by norm_num))

theorem nearestEven_neg (q : ℚ) : nearestEven (-q) = -nearestEven q := by
  refine nearestEven_eq ?_
  have hdist : |-q - (-nearestEven q : ℤ)| = |q - nearestEven q| := by
    rw [← abs_neg]
    congr 1
    push_cast
    ring
  rw [IsNearest,hdist,even_neg]
  exact isNearest_nearestEven q

theorem le_nearestEven (h : (n : ℚ) ≤ q) : n ≤ nearestEven q := by
  simpa using nearestEven_mono h

theorem nearestEven_le (h : q ≤ n) : nearestEven q ≤ n := by
  simpa using nearestEven_mono h

/-- No whole number is nearer. -/
theorem abs_sub_nearestEven_le (q : ℚ) (n : ℤ) : |q - nearestEven q| ≤ |q - n| := by
  by_cases heq : nearestEven q = n
  · rw [heq]
  · have hnear := (isNearest_nearestEven q).within_half
    have hapart : (1 : ℚ) ≤ |(nearestEven q : ℚ) - n| := by
      exact_mod_cast Int.one_le_abs (sub_ne_zero.2 heq)
    have htriangle : |(nearestEven q : ℚ) - n| ≤ |nearestEven q - q| + |q - n| := abs_sub_le _ _ _
    rw [abs_sub_comm _ q] at htriangle
    linarith

/-- The distance to a multiple, in units. -/
theorem abs_mul_sub {u : ℚ} (hu : 0 < u) (q : ℚ) (z : ℤ) : |z * u - q| = |q / u - z| * u := by
  have hscale : |q / u - z| * u = |(q / u - z) * u| := by rw [abs_mul,abs_of_pos hu]
  rw [hscale,abs_sub_comm]
  congr 1
  field_simp

/-! ### Significant bits -/

/-- The last of the `p` significant bits of `q`. -/
def quantum (p : ℕ) (q : ℚ) : ℚ := 2^(Int.log 2 |q| + 1 - p)

/-- `q` rounded to `p` significant bits. -/
def roundTo (p : ℕ) (q : ℚ) : ℚ := nearestEven (q / quantum p q) * quantum p q

/-- The numbers that `p` significant bits hold. -/
def Representable (p : ℕ) (x : ℚ) : Prop := ∃ m j : ℤ, |m| ≤ 2^p ∧ x = m * 2^j

variable {p : ℕ} {x y : ℚ}

theorem quantum_pos (p : ℕ) (q : ℚ) : 0 < quantum p q := zpow_pos (by norm_num) _

@[simp] theorem quantum_neg (p : ℕ) (q : ℚ) : quantum p (-q) = quantum p q := by
  rw [quantum,abs_neg,quantum]

@[simp] theorem roundTo_zero (p : ℕ) : roundTo p 0 = 0 := by
  have hzero : nearestEven 0 = 0 := by exact_mod_cast nearestEven_intCast 0
  rw [roundTo,zero_div,hzero,Int.cast_zero,zero_mul]

@[simp] theorem roundTo_neg (p : ℕ) (q : ℚ) : roundTo p (-q) = -roundTo p q := by
  rw [roundTo,quantum_neg,neg_div,nearestEven_neg,Int.cast_neg,neg_mul,roundTo]

theorem abs_roundTo_sub_le (p : ℕ) (q : ℚ) : |roundTo p q - q| ≤ quantum p q / 2 := by
  have hpos := quantum_pos p q
  rw [roundTo,abs_mul_sub hpos]
  calc |q / quantum p q - nearestEven (q / quantum p q)| * quantum p q
      ≤ 1/2 * quantum p q := mul_le_mul_of_nonneg_right (isNearest_nearestEven _).within_half hpos.le
    _ = quantum p q / 2 := by ring

theorem two_zpow_log_le (h : 0 < q) : (2 : ℚ)^Int.log 2 q ≤ q := by
  exact_mod_cast Int.zpow_log_le_self (b := 2) (by decide) h

theorem lt_two_zpow_log (q : ℚ) : q < (2 : ℚ)^(Int.log 2 q + 1) := by
  exact_mod_cast Int.lt_zpow_succ_log_self (b := 2) (by decide) q

theorem quantum_of_pos (p : ℕ) (h : 0 < q) : quantum p q = 2^(Int.log 2 q + 1 - p) := by
  rw [quantum,abs_of_pos h]

/-- A power of two is a whole number of smaller ones. -/
theorem zpow_mul_of_le {i j : ℤ} (h : j ≤ i) : ∃ z : ℤ, (2 : ℚ)^i = z * 2^j := by
  refine ⟨2^(i-j).toNat,?_⟩
  push_cast
  rw [← zpow_natCast,Int.toNat_of_nonneg (by omega),← zpow_add₀ (by norm_num)]
  congr 1
  omega

/-- A number with at most `p` bits from the place `j` on is held as it is. -/
theorem quantum_le_of_abs_lt {j : ℤ} (hm : m ≠ 0) (hlt : |m| < 2^p) :
    ∃ z : ℤ, (m * 2^j : ℚ) = z * quantum p (m * 2^j) := by
  have hmpos : (0 : ℚ) < |(m : ℚ)| := abs_pos.2 (by exact_mod_cast hm)
  have hj : (0 : ℚ) < 2^j := zpow_pos (by norm_num) j
  have habs : |(m * 2^j : ℚ)| = |(m : ℚ)| * 2^j := by rw [abs_mul,abs_of_pos hj]
  have hsize : |(m : ℚ)| * 2^j < 2^((p : ℤ) + j) := by
    rw [zpow_add₀ (by norm_num),zpow_natCast]
    exact mul_lt_mul_of_pos_right (by exact_mod_cast hlt) hj
  have hlog : Int.log 2 (|(m : ℚ)| * 2^j) < p + j :=
    (Int.lt_zpow_iff_log_lt (by decide) (by positivity)).1 (by exact_mod_cast hsize)
  obtain ⟨z,hz⟩ := zpow_mul_of_le
    (show Int.log 2 (|(m : ℚ)| * 2^j) + 1 - p ≤ j by omega)
  refine ⟨m * z,?_⟩
  rw [quantum,habs]
  push_cast
  rw [mul_assoc,← hz]

theorem roundTo_of_quantum {z : ℤ} (h : q = z * quantum p q) : roundTo p q = q := by
  have hdiv : q / quantum p q = z := by rw [div_eq_iff (quantum_pos p q).ne',← h]
  rw [roundTo,hdiv,nearestEven_intCast,← h]

theorem Representable.neg (h : Representable p x) : Representable p (-x) := by
  obtain ⟨m,j,hm,rfl⟩ := h
  exact ⟨-m,j,by rwa [abs_neg],by push_cast; ring⟩

theorem representable_two_zpow (p : ℕ) (j : ℤ) : Representable p (2^j) :=
  ⟨1,j,by rw [abs_one]; exact_mod_cast Nat.one_le_two_pow,by norm_num⟩

theorem roundTo_eq_self (hp : 0 < p) (h : Representable p x) : roundTo p x = x := by
  obtain ⟨m,j,hm,rfl⟩ := h
  rcases eq_or_ne m 0 with rfl | hne
  · simp
  rcases hm.lt_or_eq with hlt | heq
  · obtain ⟨z,hz⟩ := quantum_le_of_abs_lt (j := j) hne hlt
    exact roundTo_of_quantum hz
  · -- `2^p` itself has one bit
    have hone : |(1 : ℤ)| < 2^p := by
      rw [abs_one]
      exact_mod_cast Nat.one_lt_two_pow hp.ne'
    obtain ⟨z,hz⟩ := quantum_le_of_abs_lt (j := p + j) one_ne_zero hone
    have hpower : (2 : ℚ)^p * 2^j = (1 : ℤ) * 2^((p : ℤ) + j) := by
      rw [Int.cast_one,one_mul,zpow_add₀ (by norm_num),zpow_natCast]
    rcases abs_eq (by positivity) |>.1 heq with rfl | rfl
    · push_cast
      rw [hpower]
      exact roundTo_of_quantum hz
    · push_cast
      rw [neg_mul,roundTo_neg,hpower]
      rw [roundTo_of_quantum hz]

/-- A positive number stays between the powers of two that it is between. -/
theorem div_quantum_bounds (hp : 0 < p) (h : 0 < q) :
    (2^(p-1) : ℤ) ≤ q / quantum p q ∧ q / quantum p q < (2^p : ℤ) := by
  have hpos := quantum_pos p q
  have htwo : (2 : ℚ) ≠ 0 := by norm_num
  push_cast
  rw [le_div_iff₀ hpos,div_lt_iff₀ hpos,quantum_of_pos p h,← zpow_natCast,← zpow_natCast,
    ← zpow_add₀ htwo,← zpow_add₀ htwo]
  have hlow : ((p - 1 : ℕ) : ℤ) + (Int.log 2 q + 1 - p) = Int.log 2 q := by omega
  have hhigh : (p : ℤ) + (Int.log 2 q + 1 - p) = Int.log 2 q + 1 := by omega
  rw [hlow,hhigh]
  exact ⟨two_zpow_log_le h,lt_two_zpow_log q⟩

theorem mantissa_bounds (hp : 0 < p) (h : 0 < q) :
    (2^(p-1) : ℤ) ≤ nearestEven (q / quantum p q) ∧ nearestEven (q / quantum p q) ≤ (2^p : ℤ) := by
  obtain ⟨hlow,hhigh⟩ := div_quantum_bounds hp h
  exact ⟨le_nearestEven hlow,nearestEven_le hhigh.le⟩

theorem representable_roundTo (hp : 0 < p) (q : ℚ) : Representable p (roundTo p q) := by
  have hpositive : ∀ {r : ℚ}, 0 < r → Representable p (roundTo p r) := by
    intro r hr
    obtain ⟨hlow,hhigh⟩ := mantissa_bounds hp hr
    have hnonneg : 0 ≤ nearestEven (r / quantum p r) := le_trans (by positivity) hlow
    exact ⟨_,_,by rwa [abs_of_nonneg hnonneg],rfl⟩
  rcases lt_trichotomy q 0 with hneg | rfl | hpos
  · have h := (hpositive (neg_pos.2 hneg)).neg
    rwa [roundTo_neg,neg_neg] at h
  · rw [roundTo_zero]
    exact ⟨0,0,by positivity,by norm_num⟩
  · exact hpositive hpos

/-- A number with its size lies between two powers of two, and so does what it is rounded to. -/
theorem roundTo_bounds (hp : 0 < p) (h : 0 < q) :
    2^Int.log 2 q ≤ roundTo p q ∧ roundTo p q ≤ 2^(Int.log 2 q + 1) := by
  obtain ⟨hlow,hhigh⟩ := mantissa_bounds hp h
  have hpos := quantum_pos p q
  have htwo : (2 : ℚ) ≠ 0 := by norm_num
  have hstart : (2 : ℚ)^Int.log 2 q = ((2^(p-1) : ℤ) : ℚ) * quantum p q := by
    push_cast
    rw [quantum_of_pos p h,← zpow_natCast,← zpow_add₀ htwo]
    congr 1
    omega
  have hend : (2 : ℚ)^(Int.log 2 q + 1) = ((2^p : ℤ) : ℚ) * quantum p q := by
    push_cast
    rw [quantum_of_pos p h,← zpow_natCast,← zpow_add₀ htwo]
    congr 1
    omega
  rw [hstart,hend,roundTo]
  exact ⟨mul_le_mul_of_nonneg_right (by exact_mod_cast hlow) hpos.le,
    mul_le_mul_of_nonneg_right (by exact_mod_cast hhigh) hpos.le⟩

theorem roundTo_pos (hp : 0 < p) (h : 0 < q) : 0 < roundTo p q :=
  lt_of_lt_of_le (zpow_pos (by norm_num) _) (roundTo_bounds hp h).1

theorem roundTo_mono_of_pos (hp : 0 < p) (hq : 0 < q) (h : q ≤ r) : roundTo p q ≤ roundTo p r := by
  have hr : 0 < r := hq.trans_le h
  have hlog : Int.log 2 q ≤ Int.log 2 r := Int.log_mono_right hq h
  rcases hlog.lt_or_eq with hlt | heq
  · calc roundTo p q ≤ 2^(Int.log 2 q + 1) := (roundTo_bounds hp hq).2
      _ ≤ 2^Int.log 2 r := zpow_le_zpow_right₀ (by norm_num) hlt
      _ ≤ roundTo p r := (roundTo_bounds hp hr).1
  · have hquantum : quantum p r = quantum p q := by rw [quantum_of_pos p hr,quantum_of_pos p hq,heq]
    have hpos := quantum_pos p q
    rw [roundTo,roundTo,hquantum]
    refine mul_le_mul_of_nonneg_right ?_ hpos.le
    exact_mod_cast nearestEven_mono (div_le_div_of_nonneg_right h hpos.le)

theorem roundTo_mono (hp : 0 < p) (h : q ≤ r) : roundTo p q ≤ roundTo p r := by
  have hnonneg : ∀ {a : ℚ}, 0 ≤ a → 0 ≤ roundTo p a := by
    intro a ha
    rcases ha.eq_or_lt with rfl | hpos
    · rw [roundTo_zero]
    · exact (roundTo_pos hp hpos).le
  rcases lt_or_ge 0 q with hq | hq
  · exact roundTo_mono_of_pos hp hq h
  rcases lt_or_ge r 0 with hr | hr
  · have hneg := roundTo_mono_of_pos hp (neg_pos.2 hr) (neg_le_neg h)
    rwa [roundTo_neg,roundTo_neg,neg_le_neg_iff] at hneg
  · have hleft := hnonneg (neg_nonneg.2 hq)
    rw [roundTo_neg,neg_nonneg] at hleft
    exact hleft.trans (hnonneg hr)

theorem lt_of_roundTo_lt (hp : 0 < p) (h : roundTo p q < roundTo p r) : q < r := by
  by_contra hge
  exact absurd (roundTo_mono hp (not_lt.1 hge)) (not_le.2 h)

/-- The numbers from `2^n` on that are held have no place below the last one there. -/
theorem Representable.multiple (hp : 0 < p) (h : Representable p x) {n : ℤ} (hn : 2^n ≤ x) :
    ∃ z : ℤ, x = z * 2^(n + 1 - p) := by
  have hpos : 0 < x := lt_of_lt_of_le (zpow_pos (by norm_num) n) hn
  have hlog : n ≤ Int.log 2 x := (Int.zpow_le_iff_le_log (by decide) hpos).1 (by exact_mod_cast hn)
  obtain ⟨z,hz⟩ := zpow_mul_of_le (show n + 1 - p ≤ Int.log 2 x + 1 - p by omega)
  refine ⟨nearestEven (x / quantum p x) * z,?_⟩
  rw [Int.cast_mul,mul_assoc,← hz,← quantum_of_pos p hpos]
  exact (roundTo_eq_self hp h).symm

/-- Two of them that are nearer than the last place are the same. -/
theorem Representable.eq_of_abs_sub_lt (hp : 0 < p) (hx : Representable p x) (hy : Representable p y)
    {n : ℤ} (hnx : 2^n ≤ x) (hny : 2^n ≤ y) (h : |x - y| < 2^(n + 1 - p)) : x = y := by
  have hpos : (0 : ℚ) < 2^(n + 1 - p) := zpow_pos (by norm_num) _
  obtain ⟨z,rfl⟩ := hx.multiple hp hnx
  obtain ⟨z',rfl⟩ := hy.multiple hp hny
  rw [← sub_mul,abs_mul,abs_of_pos hpos,mul_lt_iff_lt_one_left hpos] at h
  have hsmall : |z - z'| < 1 := by exact_mod_cast h
  rw [sub_eq_zero.1 (Int.abs_lt_one_iff.1 hsmall)]

/-- No number that is held is nearer. -/
theorem abs_roundTo_sub_le_abs (hp : 0 < p) (hq : 0 < q) (h : Representable p y) :
    |roundTo p q - q| ≤ |y - q| := by
  have hpos := quantum_pos p q
  have hwhole : ∀ z : ℤ, |roundTo p q - q| ≤ |z * quantum p q - q| := by
    intro z
    rw [roundTo,abs_mul_sub hpos,abs_mul_sub hpos]
    exact mul_le_mul_of_nonneg_right (abs_sub_nearestEven_le _ z) hpos.le
  -- outside of the two powers of two the nearer of them is nearer than `y`
  have hpowers : ∀ k : ℕ, ∃ z : ℤ, (2 : ℚ)^(Int.log 2 q + 1 - p + k) = z * quantum p q := by
    intro k
    rw [quantum_of_pos p hq]
    exact zpow_mul_of_le (by omega)
  rcases lt_or_ge y (2^Int.log 2 q) with hlow | hge
  · obtain ⟨z,hz⟩ := hpowers (p-1)
    have hexp : Int.log 2 q + 1 - p + (p - 1 : ℕ) = Int.log 2 q := by omega
    rw [hexp] at hz
    have hle := two_zpow_log_le hq
    have hpower : |2^Int.log 2 q - q| ≤ |y - q| := by
      rw [abs_of_nonpos (by linarith),abs_of_nonpos (by linarith)]
      linarith
    exact (hz ▸ hwhole z).trans hpower
  rcases le_or_gt y (2^(Int.log 2 q + 1)) with hle | hhigh
  · obtain ⟨z,hz⟩ := h.multiple hp hge
    rw [hz,← quantum_of_pos p hq]
    exact hwhole z
  · obtain ⟨z,hz⟩ := hpowers p
    have hexp : Int.log 2 q + 1 - p + p = Int.log 2 q + 1 := by omega
    rw [hexp] at hz
    have hlt := lt_two_zpow_log q
    have hpower : |2^(Int.log 2 q + 1) - q| ≤ |y - q| := by
      rw [abs_of_nonneg (by linarith),abs_of_nonneg (by linarith)]
      linarith
    exact (hz ▸ hwhole z).trans hpower

/-- Below `2^n` the error is half of the last place there. -/
theorem abs_roundTo_sub_le_of_lt {n : ℤ} (h : |q| < 2^n) : |roundTo p q - q| ≤ 2^(n - 1 - p) := by
  rcases eq_or_ne q 0 with rfl | hne
  · rw [roundTo_zero,sub_zero,abs_zero]
    exact (zpow_pos (by norm_num) _).le
  · have hlog : Int.log 2 |q| < n :=
      (Int.lt_zpow_iff_log_lt (by decide) (abs_pos.2 hne)).1 (by exact_mod_cast h)
    calc |roundTo p q - q| ≤ quantum p q / 2 := abs_roundTo_sub_le p q
      _ = 2^(Int.log 2 |q| - p) := by
        have hexp : Int.log 2 |q| + 1 - p = Int.log 2 |q| - p + 1 := by ring
        rw [quantum,hexp,zpow_add_one₀ (by norm_num)]
        ring
      _ ≤ 2^(n - 1 - p) := zpow_le_zpow_right₀ (by norm_num) (by omega)

/-- A number is rounded to the mantissa that it is nearest to. -/
theorem roundTo_eq_of_mantissa {e : ℤ} (hq : 0 < q) (hlow : 2^(p + e - 1) ≤ q) (hhigh : q < 2^(p + e))
    (hnear : IsNearest (q / 2^e) m) : roundTo p q = m * 2^e := by
  have hlog : Int.log 2 q = p + e - 1 := by
    refine le_antisymm ?_ ?_
    · have hlt := (Int.lt_zpow_iff_log_lt (b := 2) (by decide) hq).1 (by exact_mod_cast hhigh)
      omega
    · exact (Int.zpow_le_iff_le_log (by decide) hq).1 (by exact_mod_cast hlow)
  have hquantum : quantum p q = 2^e := by
    rw [quantum_of_pos p hq,hlog]
    congr 1
    ring
  rw [roundTo,hquantum,nearestEven_eq hnear]

end BinaryRounding
