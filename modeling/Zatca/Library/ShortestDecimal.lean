import Zatca.Library.BinaryRounding
set_option autoImplicit false
namespace ShortestDecimal
open BinaryRounding

/-! The decimal with the fewest digits that is rounded to a number of `p` bits. -/

/-- The multiple of `unit` that is nearest to `x`, of those that are rounded to `x`. -/
def candidate (p : ℕ) (x unit : ℚ) : Option ℚ :=
  if roundTo p (⌊x / unit⌋ * unit) = x then
    if roundTo p ((⌊x / unit⌋ + 1 : ℤ) * unit) = x then some (nearestEven (x / unit) * unit)
    else some (⌊x / unit⌋ * unit)
  else if roundTo p ((⌊x / unit⌋ + 1 : ℤ) * unit) = x then some ((⌊x / unit⌋ + 1 : ℤ) * unit)
  else none

/-- The place of the last of the `k` digits that follow the first one of `x`. -/
def unitAt (x : ℚ) (k : ℕ) : ℚ := 10^(Int.log 10 x - k)

/-- The first candidate from `k` digits after the first one on. -/
def search (p : ℕ) (x : ℚ) : ℕ → ℕ → ℚ
  | 0, _ => x
  | fuel + 1, k =>
    match candidate p x (unitAt x k) with
    | some s => s
    | none => search p x fuel (k+1)

/-- A number with `p` bits needs no more digits than bits. -/
def shortest (p : ℕ) (x : ℚ) : ℚ := if x < 0 then -search p (-x) (p+1) 0 else search p x (p+1) 0

variable {p : ℕ} {x s u : ℚ}

/-! ### One number of digits -/

theorem unitAt_pos (x : ℚ) (k : ℕ) : 0 < unitAt x k := zpow_pos (by norm_num) _

theorem floor_mul_le (x : ℚ) (hu : 0 < u) : ⌊x / u⌋ * u ≤ x := by
  have hle := Int.floor_le (x / u)
  rwa [le_div_iff₀ hu] at hle

theorem le_floor_add_one_mul (x : ℚ) (hu : 0 < u) : x ≤ (⌊x / u⌋ + 1 : ℤ) * u := by
  have hlt := Int.lt_floor_add_one (x / u)
  rw [div_lt_iff₀ hu] at hlt
  push_cast
  exact hlt.le

theorem nearestEven_rounds (hlow : roundTo p (⌊x / u⌋ * u) = x)
    (hhigh : roundTo p ((⌊x / u⌋ + 1 : ℤ) * u) = x) : roundTo p (nearestEven (x / u) * u) = x := by
  unfold nearestEven
  split
  · exact hlow
  · exact hhigh

section candidate
variable (hp : 0 < p) (hx : roundTo p x = x) (hu : 0 < u)
include hp hx hu

/-- What is between a number and one that is rounded to it is rounded to it too, so one of the two
neighbours is. -/
theorem neighbour_rounds {n : ℤ} (h : roundTo p (n * u) = x) :
    (n ≤ ⌊x / u⌋ ∧ roundTo p (⌊x / u⌋ * u) = x) ∨
      (⌊x / u⌋ + 1 ≤ n ∧ roundTo p ((⌊x / u⌋ + 1 : ℤ) * u) = x) := by
  rcases le_or_gt n ⌊x / u⌋ with hle | hgt
  · have hmul : (n : ℚ) * u ≤ ⌊x / u⌋ * u := mul_le_mul_of_nonneg_right (by exact_mod_cast hle) hu.le
    have hlow := roundTo_mono hp hmul
    have hhigh := roundTo_mono hp (floor_mul_le x hu)
    rw [h] at hlow
    rw [hx] at hhigh
    exact .inl ⟨hle,le_antisymm hhigh hlow⟩
  · have hmul : ((⌊x / u⌋ + 1 : ℤ) : ℚ) * u ≤ n * u :=
      mul_le_mul_of_nonneg_right (by exact_mod_cast hgt) hu.le
    have hlow := roundTo_mono hp (le_floor_add_one_mul x hu)
    have hhigh := roundTo_mono hp hmul
    rw [h] at hhigh
    rw [hx] at hlow
    exact .inr ⟨hgt,le_antisymm hhigh hlow⟩

theorem candidate_ne_none {n : ℤ} (h : roundTo p (n * u) = x) : candidate p x u ≠ none := by
  unfold candidate
  rcases neighbour_rounds hp hx hu h with ⟨-,hlow⟩ | ⟨-,hhigh⟩
  · rw [if_pos hlow]
    split
    · exact Option.some_ne_none _
    · exact Option.some_ne_none _
  · split
    · exact Option.some_ne_none _
    · exact Option.some_ne_none _

/-- A candidate is rounded to the number, and no other multiple that is is nearer. -/
theorem candidate_spec (h : candidate p x u = some s) :
    roundTo p s = x ∧ (∃ n : ℤ, s = n * u) ∧
      ∀ n : ℤ, roundTo p (n * u) = x → |s - x| ≤ |n * u - x| := by
  have hfloor := floor_mul_le x hu
  have hceil := le_floor_add_one_mul x hu
  unfold candidate at h
  split at h
  · next hlow =>
    split at h
    · next hhigh =>
      obtain rfl := Option.some.inj h
      refine ⟨nearestEven_rounds hlow hhigh,⟨_,rfl⟩,fun n _ => ?_⟩
      rw [abs_mul_sub hu,abs_mul_sub hu]
      exact mul_le_mul_of_nonneg_right (abs_sub_nearestEven_le _ n) hu.le
    · next hhigh =>
      obtain rfl := Option.some.inj h
      refine ⟨hlow,⟨_,rfl⟩,fun n hn => ?_⟩
      rcases neighbour_rounds hp hx hu hn with ⟨hle,-⟩ | ⟨-,habove⟩
      · have hmul : (n : ℚ) * u ≤ ⌊x / u⌋ * u :=
          mul_le_mul_of_nonneg_right (by exact_mod_cast hle) hu.le
        rw [abs_of_nonpos (by linarith),abs_of_nonpos (by linarith)]
        linarith
      · exact absurd habove hhigh
  · next hlow =>
    split at h
    · next hhigh =>
      obtain rfl := Option.some.inj h
      refine ⟨hhigh,⟨_,rfl⟩,fun n hn => ?_⟩
      rcases neighbour_rounds hp hx hu hn with ⟨-,hbelow⟩ | ⟨hge,-⟩
      · exact absurd hbelow hlow
      · have hmul : ((⌊x / u⌋ + 1 : ℤ) : ℚ) * u ≤ n * u :=
          mul_le_mul_of_nonneg_right (by exact_mod_cast hge) hu.le
        rw [abs_of_nonneg (by linarith),abs_of_nonneg (by linarith)]
        linarith
    · cases h

end candidate

/-! ### The search -/

/-- The search stops at the first number of digits with a candidate. -/
theorem search_spec (p : ℕ) (x : ℚ) (fuel k : ℕ)
    (h : ∃ j, k ≤ j ∧ j < k + fuel ∧ candidate p x (unitAt x j) ≠ none) :
    ∃ j, k ≤ j ∧ candidate p x (unitAt x j) = some (search p x fuel k) ∧
      ∀ i, k ≤ i → i < j → candidate p x (unitAt x i) = none := by
  induction fuel generalizing k with
  | zero =>
    obtain ⟨j,hk,hj,-⟩ := h
    omega
  | succ fuel ih =>
    obtain ⟨j,hk,hj,hsome⟩ := h
    cases hc : candidate p x (unitAt x k) with
    | some s =>
      refine ⟨k,le_rfl,?_,fun i hi hlt => absurd hlt (not_lt.2 hi)⟩
      rw [search,hc]
    | none =>
      have hne : k ≠ j := by
        rintro rfl
        exact hsome hc
      obtain ⟨j',hk',hfound,hnone⟩ := ih (k+1) ⟨j,by omega,by omega,hsome⟩
      refine ⟨j',by omega,?_,fun i hi hlt => ?_⟩
      · rw [search,hc]
        exact hfound
      · rcases hi.eq_or_lt with rfl | hgt
        · exact hc
        · exact hnone i hgt hlt

/-! ### Enough digits -/

theorem ten_zpow_log_le (h : 0 < x) : (10 : ℚ)^Int.log 10 x ≤ x := by
  exact_mod_cast Int.zpow_log_le_self (b := 10) (by decide) h

theorem lt_ten_zpow_log (x : ℚ) : x < (10 : ℚ)^(Int.log 10 x + 1) := by
  exact_mod_cast Int.lt_zpow_succ_log_self (b := 10) (by decide) x

theorem unitAt_mul_pow (x : ℚ) (k : ℕ) : unitAt x k * 10^k = 10^Int.log 10 x := by
  rw [unitAt,← zpow_natCast,← zpow_add₀ (by norm_num)]
  congr 1
  ring

/-- There is a candidate where the digits tell more numbers apart than the bits. -/
theorem exists_candidate (hp : 0 < p) (hpos : 0 < x) (hx : Representable p x) {k : ℕ}
    (hk : 2^p < 10^k) : candidate p x (unitAt x k) ≠ none := by
  have hu := unitAt_pos x k
  have hkq : (2 : ℚ)^p < 10^k := by exact_mod_cast hk
  have htwop : (2 : ℚ) ≤ 2^p := by
    calc (2 : ℚ) = 2^1 := (pow_one 2).symm
      _ ≤ 2^p := pow_le_pow_right₀ (by norm_num) hp
  have hunit := unitAt_mul_pow x k
  have hlog := ten_zpow_log_le hpos
  -- the unit is smaller than the last bit of every number of the size of `x`
  have hsmall : ∀ {n : ℤ}, x < 2^n → unitAt x k < 2^(n - p) := by
    intro n hn
    rw [zpow_sub₀ (by norm_num),zpow_natCast,lt_div_iff₀ (by positivity)]
    calc unitAt x k * 2^p < unitAt x k * 10^k := mul_lt_mul_of_pos_left hkq hu
      _ ≤ x := by rwa [hunit]
      _ < 2^n := hn
  have hnear : |nearestEven (x / unitAt x k) * unitAt x k - x| ≤ unitAt x k / 2 := by
    rw [abs_mul_sub hu]
    calc |x / unitAt x k - nearestEven (x / unitAt x k)| * unitAt x k
        ≤ 1/2 * unitAt x k := mul_le_mul_of_nonneg_right (isNearest_nearestEven _).within_half hu.le
      _ = unitAt x k / 2 := by ring
  have hunitx : unitAt x k * 2 ≤ x := by
    calc unitAt x k * 2 ≤ unitAt x k * 10^k := mul_le_mul_of_nonneg_left (htwop.trans hkq.le) hu.le
      _ ≤ x := by rwa [hunit]
  refine candidate_ne_none hp (roundTo_eq_self hp hx) hu (n := nearestEven (x / unitAt x k)) ?_
  generalize (nearestEven (x / unitAt x k) : ℚ) * unitAt x k = d at hnear
  have hd := abs_le.1 hnear
  have hdpos : 0 < d := by linarith
  have hround : |roundTo p d - d| ≤ unitAt x k / 2 := by
    calc |roundTo p d - d| ≤ |x - d| := abs_roundTo_sub_le_abs hp hdpos hx
      _ ≤ unitAt x k / 2 := by rwa [abs_sub_comm]
  have hclose := abs_le.1 hround
  have hdist : |roundTo p d - x| ≤ unitAt x k := abs_le.2 ⟨by linarith,by linarith⟩
  have hy := representable_roundTo hp d
  have hlow := two_zpow_log_le hpos
  have hlast := hsmall (lt_two_zpow_log x)
  rcases le_or_gt (2^Int.log 2 x) (roundTo p d) with hge | hlt
  · exact hy.eq_of_abs_sub_lt hp hx hge hlow (hdist.trans_lt hlast)
  · -- what is rounded to less than a power of two is below it, and only the power itself is so near
    have hbelow : d < 2^Int.log 2 x := by
      refine lt_of_roundTo_lt hp ?_
      rwa [roundTo_eq_self hp (representable_two_zpow p _)]
    have hpower : x = 2^Int.log 2 x := by
      refine hx.eq_of_abs_sub_lt hp (representable_two_zpow p _) hlow le_rfl ?_
      rw [abs_of_nonneg (by linarith)]
      linarith
    have hhalf : (2 : ℚ)^(Int.log 2 x - 1) = x / 2 := by
      rw [zpow_sub_one₀ (by norm_num),← hpower]
      ring
    have hlast' : unitAt x k < 2^(Int.log 2 x - 1 + 1 - p) := by
      have hbit : (2 : ℚ)^(Int.log 2 x - 1 + 1 - p) = x / 2^p := by
        rw [zpow_sub₀ (by norm_num),sub_add_cancel,← hpower,zpow_natCast]
      rw [hbit,lt_div_iff₀ (by positivity)]
      calc unitAt x k * 2^p < unitAt x k * 10^k := mul_lt_mul_of_pos_left hkq hu
        _ ≤ x := by rwa [hunit]
    exact hy.eq_of_abs_sub_lt hp hx (by linarith) (by linarith) (hdist.trans_lt hlast')

/-! ### The shortest decimal -/

section shortest
variable (hp : 0 < p) (hx : Representable p x)
include hp hx

theorem shortest_spec (hnonneg : 0 ≤ x) : ∃ j, candidate p x (unitAt x j) = some (shortest p x) ∧
    ∀ i, i < j → candidate p x (unitAt x i) = none := by
  have hsome : candidate p x (unitAt x p) ≠ none := by
    rcases hnonneg.eq_or_lt with rfl | hpos
    · refine candidate_ne_none hp (roundTo_zero p) (unitAt_pos 0 p) (n := 0) ?_
      simp
    · exact exists_candidate hp hpos hx (Nat.pow_lt_pow_left (by decide) hp.ne')
  obtain ⟨j,-,hfound,hnone⟩ := search_spec p x (p+1) 0 ⟨p,by omega,by omega,hsome⟩
  refine ⟨j,?_,fun i => hnone i (Nat.zero_le i)⟩
  rwa [shortest,if_neg (not_lt.2 hnonneg)]

omit hp hx in
theorem shortest_neg (p : ℕ) (x : ℚ) (hpos : 0 < x) : shortest p (-x) = -shortest p x := by
  rw [shortest,if_pos (neg_neg_of_pos hpos),neg_neg,shortest,if_neg (not_lt.2 hpos.le)]

/-- The number can be read back from its text. -/
theorem roundTo_shortest : roundTo p (shortest p x) = x := by
  have hnonneg : ∀ {y : ℚ}, Representable p y → 0 ≤ y → roundTo p (shortest p y) = y := by
    intro y hy h
    obtain ⟨j,hfound,-⟩ := shortest_spec hp hy h
    exact (candidate_spec hp (roundTo_eq_self hp hy) (unitAt_pos y j) hfound).1
  rcases le_or_gt 0 x with h | hneg
  · exact hnonneg hx h
  · have hopposite := hnonneg hx.neg (neg_nonneg.2 hneg.le)
    have hshort := shortest_neg p (-x) (neg_pos.2 hneg)
    rw [neg_neg] at hshort
    rw [hshort,roundTo_neg,hopposite,neg_neg]

/-- It is a decimal. -/
theorem exists_shortest_eq : ∃ n i : ℤ, shortest p x = n * 10^i := by
  have hnonneg : ∀ {y : ℚ}, Representable p y → 0 ≤ y → ∃ n i : ℤ, shortest p y = n * 10^i := by
    intro y hy h
    obtain ⟨j,hfound,-⟩ := shortest_spec hp hy h
    obtain ⟨-,⟨n,hn⟩,-⟩ := candidate_spec hp (roundTo_eq_self hp hy) (unitAt_pos y j) hfound
    exact ⟨n,_,hn⟩
  rcases le_or_gt 0 x with h | hneg
  · exact hnonneg hx h
  · obtain ⟨n,i,hn⟩ := hnonneg hx.neg (neg_nonneg.2 hneg.le)
    have hshort := shortest_neg p (-x) (neg_pos.2 hneg)
    rw [neg_neg] at hshort
    refine ⟨-n,i,?_⟩
    rw [hshort,hn]
    push_cast
    ring

omit hp hx in
theorem multiple_of_le {i j : ℤ} (h : j ≤ i) (n : ℤ) : ∃ z : ℤ, (n * 10^i : ℚ) = z * 10^j := by
  refine ⟨n * 10^(i-j).toNat,?_⟩
  push_cast
  rw [mul_assoc,← zpow_natCast,Int.toNat_of_nonneg (by omega),← zpow_add₀ (by norm_num)]
  congr 2
  omega

/-- Where a multiple of a place is rounded to the number, no later place is needed. -/
theorem shortest_multiple (hnonneg : 0 ≤ x) {n i : ℤ} (hi : i ≤ Int.log 10 x)
    (h : roundTo p (n * 10^i) = x) : ∃ z : ℤ, shortest p x = z * 10^i := by
  obtain ⟨j,hfound,hnone⟩ := shortest_spec hp hx hnonneg
  have hself := roundTo_eq_self hp hx
  have hunit : unitAt x (Int.log 10 x - i).toNat = 10^i := by
    rw [unitAt,Int.toNat_of_nonneg (by omega)]
    congr 1
    ring
  have hle : j ≤ (Int.log 10 x - i).toNat := by
    by_contra hlt
    refine candidate_ne_none hp hself (unitAt_pos x _) (n := n) ?_ (hnone _ (not_le.1 hlt))
    rw [hunit]
    exact h
  obtain ⟨-,⟨z,hz⟩,-⟩ := candidate_spec hp hself (unitAt_pos x j) hfound
  obtain ⟨z',hz'⟩ := multiple_of_le (show i ≤ Int.log 10 x - j by omega) z
  exact ⟨z',hz.trans hz'⟩

end shortest

/-- A number that `k` decimal digits write. -/
def HasDigits (k : ℕ) (d : ℚ) : Prop := ∃ (m : ℕ) (e : ℤ), m < 10^k ∧ d = m * 10^e

/-- What a printer of shortest decimals has to find. -/
structure IsShortest (p : ℕ) (x s : ℚ) (k : ℕ) : Prop where
  rounds : roundTo p s = x
  digits : HasDigits k s
  fewest : ∀ i, i < k → ∀ d, HasDigits i d → roundTo p d ≠ x
  nearest : ∀ d, HasDigits k d → roundTo p d = x → |s - x| ≤ |d - x|

/-- The decimals with some digits are multiples of the last place, or too small to be the nearest. -/
theorem exists_multiple (hp : 0 < p) (hself : roundTo p x = x) (hpos : 0 < x) {d : ℚ} {i : ℕ}
    (hd : HasDigits (i+1) d) (h : roundTo p d = x) :
    ∃ n : ℤ, roundTo p (n * unitAt x i) = x ∧ |n * unitAt x i - x| ≤ |d - x| := by
  obtain ⟨m,e,hm,rfl⟩ := hd
  have hlog := ten_zpow_log_le hpos
  rcases le_or_gt ((10 : ℚ)^Int.log 10 x) (m * 10^e) with hge | hlt
  · have hsize : (m : ℚ) * 10^e < 10^((i + 1 : ℕ) + e) := by
      rw [zpow_add₀ (by norm_num),zpow_natCast]
      exact mul_lt_mul_of_pos_right (by exact_mod_cast hm) (zpow_pos (by norm_num) e)
    have hexp : Int.log 10 x < (i + 1 : ℕ) + e :=
      (zpow_lt_zpow_iff_right₀ (by norm_num)).1 (hge.trans_lt hsize)
    obtain ⟨z,hz⟩ := multiple_of_le (show Int.log 10 x - i ≤ e by omega) m
    rw [Int.cast_natCast] at hz
    refine ⟨z,?_,?_⟩
    · rw [unitAt,← hz,h]
    · rw [unitAt,← hz]
  · have hfirst : ((10^i : ℤ) : ℚ) * unitAt x i = 10^Int.log 10 x := by
      push_cast
      rw [mul_comm,unitAt_mul_pow]
    have hbelow := roundTo_mono hp hlog
    have habove := roundTo_mono hp hlt.le
    rw [hself] at hbelow
    rw [h] at habove
    refine ⟨10^i,?_,?_⟩
    · rw [hfirst]
      exact le_antisymm hbelow habove
    · rw [hfirst,abs_of_nonpos (by linarith),abs_of_nonpos (by linarith)]
      linarith

/-- Of the digits of a candidate one is the first. -/
theorem hasDigits_of_candidate (hp : 0 < p) (hx : Representable p x) (hpos : 0 < x) {j : ℕ}
    (hfound : candidate p x (unitAt x j) = some s) : HasDigits (j+1) s := by
  have hself := roundTo_eq_self hp hx
  have hu := unitAt_pos x j
  obtain ⟨hrounds,⟨n,hn⟩,hnearest⟩ := candidate_spec hp hself hu hfound
  have hend : ((10^(j+1) : ℤ) : ℚ) * unitAt x j = 10^(Int.log 10 x + 1) := by
    push_cast
    rw [pow_succ,zpow_add_one₀ (by norm_num),← unitAt_mul_pow x j]
    ring
  have hspos : 0 < s := by
    refine lt_of_roundTo_lt hp ?_
    rwa [roundTo_zero,hrounds]
  have hnpos : 0 < n := by
    rw [hn] at hspos
    exact_mod_cast pos_of_mul_pos_left hspos hu.le
  have hnle : n ≤ 10^(j+1) := by
    by_contra hgt
    have hxlt := lt_ten_zpow_log x
    have hmul : ((10^(j+1) : ℤ) : ℚ) * unitAt x j < n * unitAt x j :=
      mul_lt_mul_of_pos_right (by exact_mod_cast not_le.1 hgt) hu
    -- the next power of ten is between the number and the candidate
    have hbelow := roundTo_mono hp hmul.le
    have habove := roundTo_mono hp hxlt.le
    rw [← hn,hrounds] at hbelow
    rw [hself,← hend] at habove
    have hpower : roundTo p ((10^(j+1) : ℤ) * unitAt x j) = x := le_antisymm hbelow habove
    have hfar := hnearest _ hpower
    rw [hn,abs_of_nonneg (by linarith),abs_of_nonneg (by linarith)] at hfar
    linarith
  rcases hnle.lt_or_eq with hlt | rfl
  · lift n to ℕ using hnpos.le
    exact ⟨n,_,by exact_mod_cast hlt,by rw [hn,unitAt,Int.cast_natCast]⟩
  · exact ⟨1,Int.log 10 x + 1,Nat.one_lt_pow (by omega) (by decide),by rw [hn,hend]; norm_num⟩

theorem HasDigits.mono {j k : ℕ} {d : ℚ} (h : HasDigits j d) (hle : j ≤ k) : HasDigits k d := by
  obtain ⟨m,e,hm,rfl⟩ := h
  exact ⟨m,e,hm.trans_le (Nat.pow_le_pow_right (by decide) hle),rfl⟩

/-- Where the digits tell more numbers apart than the bits, one more digit is enough. -/
theorem hasDigits_shortest (hp : 0 < p) (hx : Representable p x) (hpos : 0 < x) {k : ℕ}
    (hk : 2^p < 10^k) : HasDigits (k+1) (shortest p x) := by
  obtain ⟨j,hfound,hnone⟩ := shortest_spec hp hx hpos.le
  have hle : j ≤ k := by
    by_contra hlt
    exact exists_candidate hp hpos hx hk (hnone k (not_le.1 hlt))
  exact (hasDigits_of_candidate hp hx hpos hfound).mono (by omega)

/-- The search finds it. -/
theorem isShortest_shortest (hp : 0 < p) (hx : Representable p x) (hpos : 0 < x) :
    ∃ k, IsShortest p x (shortest p x) k := by
  obtain ⟨j,hfound,hnone⟩ := shortest_spec hp hx hpos.le
  have hself := roundTo_eq_self hp hx
  obtain ⟨hrounds,-,hnearest⟩ := candidate_spec hp hself (unitAt_pos x j) hfound
  refine ⟨j+1,hrounds,hasDigits_of_candidate hp hx hpos hfound,?_,?_⟩
  · intro i hi d hd hround
    cases i with
    | zero =>
      obtain ⟨m,e,hm,rfl⟩ := hd
      obtain rfl : m = 0 := by omega
      rw [Nat.cast_zero,zero_mul,roundTo_zero] at hround
      exact hpos.ne hround
    | succ i =>
      obtain ⟨z,hz,-⟩ := exists_multiple hp hself hpos hd hround
      exact candidate_ne_none hp hself (unitAt_pos x i) hz (hnone i (by omega))
  · intro d hd hround
    obtain ⟨z,hz,hle⟩ := exists_multiple hp hself hpos hd hround
    exact (hnearest z hz).trans hle

end ShortestDecimal
