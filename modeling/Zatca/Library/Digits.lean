import Mathlib.Algebra.Order.Field.Basic
import Mathlib.Algebra.Order.Field.Rat
import Mathlib.Algebra.Order.Floor.Semifield
import Mathlib.Data.Rat.Floor
import Mathlib.Tactic.FieldSimp
import Mathlib.Tactic.Linarith
import Mathlib.Tactic.Positivity
import Mathlib.Tactic.Ring
set_option autoImplicit false

/-! Decimal digits and the numerals written with them. -/

namespace Digits

/-- The text has digits only. -/
def IsDigits (ds : List Char) : Prop := ∀ c ∈ ds, c.isDigit = true

abbrev value (ds : List Char) : Nat := Nat.ofDigitChars 10 ds 0

theorem isDigits_toDigits (n : Nat) : IsDigits (Nat.toDigits 10 n) :=
  fun _ hc => Nat.isDigit_of_mem_toDigits (by decide) (by decide) hc

theorem isDigits_replicate (n : Nat) : IsDigits (List.replicate n '0') := by
  intro c hc
  rw [List.eq_of_mem_replicate hc]
  decide

theorem IsDigits.append {xs ys : List Char} (hx : IsDigits xs) (hy : IsDigits ys) :
    IsDigits (xs ++ ys) := by
  intro c hc
  rcases List.mem_append.1 hc with h | h
  · exact hx c h
  · exact hy c h

theorem IsDigits.take {ds : List Char} (h : IsDigits ds) (n : Nat) : IsDigits (ds.take n) :=
  fun c hc => h c (List.mem_of_mem_take hc)

theorem IsDigits.drop {ds : List Char} (h : IsDigits ds) (n : Nat) : IsDigits (ds.drop n) :=
  fun c hc => h c (List.mem_of_mem_drop hc)

theorem value_append (xs ys : List Char) :
    value (xs ++ ys) = value xs * 10^ys.length + value ys := by
  rw [value,Nat.ofDigitChars_append,Nat.ofDigitChars_eq_ofDigitChars_zero,Nat.mul_comm]

theorem value_zeros (n : Nat) : value (List.replicate n '0') = 0 := by
  rw [value,Nat.ofDigitChars_replicate_zero,Nat.mul_zero]

theorem value_digit {c : Char} (h : c.isDigit = true) : value [c] < 10 := by
  simp only [Char.isDigit,Bool.and_eq_true,decide_eq_true_eq] at h
  have hle : c.toNat ≤ '9'.toNat := UInt32.le_iff_toNat_le.1 h.2
  have h9 : '9'.toNat = 57 := rfl
  have h0 : '0'.toNat = 48 := rfl
  simp only [value,Nat.ofDigitChars_cons,Nat.ofDigitChars_nil]
  omega

theorem value_lt {ds : List Char} (h : IsDigits ds) : value ds < 10^ds.length := by
  induction ds with
  | nil => decide
  | cons c ds ih =>
    have hds : value ds < 10^ds.length := ih fun c' hc' => h c' (List.mem_cons_of_mem _ hc')
    have hc : value [c] < 10 := value_digit (h c List.mem_cons_self)
    have hcons : value (c :: ds) = value [c] * 10^ds.length + value ds := value_append [c] ds
    have hmul : value [c] * 10^ds.length ≤ 9 * 10^ds.length :=
      Nat.mul_le_mul_right _ (Nat.le_of_lt_succ hc)
    rw [hcons,List.length_cons,pow_succ]
    omega

/-- Zeros in front, up to a width. -/
def padTo (n : Nat) (ds : List Char) : List Char := List.replicate (n - ds.length) '0' ++ ds

theorem value_padTo (n : Nat) (ds : List Char) : value (padTo n ds) = value ds := by
  rw [padTo,value_append,value_zeros,Nat.zero_mul,Nat.zero_add]

theorem isDigits_padTo (n : Nat) {ds : List Char} (h : IsDigits ds) : IsDigits (padTo n ds) :=
  (isDigits_replicate _).append h

theorem length_padTo {n : Nat} {ds : List Char} (h : ds.length ≤ n) : (padTo n ds).length = n := by
  rw [padTo,List.length_append,List.length_replicate]
  omega

theorem length_toDigits_le {n k : Nat} (hk : 0 < k) (h : n < 10^k) :
    (Nat.toDigits 10 n).length ≤ k := (Nat.length_toDigits_le_iff (by decide) hk).2 h

/-- The first digits after the point, and zeros where there are not enough. -/
def fit (n : Nat) (ds : List Char) : List Char := ds.take n ++ List.replicate (n - ds.length) '0'

theorem length_fit (n : Nat) (ds : List Char) : (fit n ds).length = n := by
  rw [fit,List.length_append,List.length_take,List.length_replicate]
  omega

theorem isDigits_fit (n : Nat) {ds : List Char} (h : IsDigits ds) : IsDigits (fit n ds) :=
  (h.take n).append (isDigits_replicate _)

/-- Fitting to a width drops what is below its last place. -/
theorem value_fit (n : Nat) {ds : List Char} (h : IsDigits ds) :
    value (fit n ds) = value ds * 10^n / 10^ds.length := by
  rcases Nat.le_total ds.length n with hn | hn
  · have hsplit : 10^n = 10^(n - ds.length) * 10^ds.length := by
      rw [← pow_add]
      congr 1
      omega
    rw [fit,List.take_of_length_le hn,value_append,value_zeros,List.length_replicate,Nat.add_zero,
      hsplit,← Nat.mul_assoc,Nat.mul_div_cancel _ (Nat.pow_pos (by decide))]
  · have htail : value (ds.drop n) < 10^(ds.length - n) := by
      have hlt := value_lt (h.drop n)
      rwa [List.length_drop] at hlt
    have hsplit : 10^ds.length = 10^(ds.length - n) * 10^n := by
      rw [← pow_add]
      congr 1
      omega
    have hvalue : value ds = value (ds.take n) * 10^(ds.length - n) + value (ds.drop n) := by
      have hcut := value_append (ds.take n) (ds.drop n)
      rwa [List.take_append_drop,List.length_drop] at hcut
    have hnone : n - ds.length = 0 := by omega
    rw [fit,hnone,List.replicate_zero,List.append_nil,hsplit,
      Nat.mul_div_mul_right _ _ (Nat.pow_pos (by decide)),hvalue,
      Nat.mul_comm,Nat.mul_add_div (Nat.pow_pos (by decide)),Nat.div_eq_of_lt htail,Nat.add_zero]

theorem eq_of_value_digit {c d : Char} (hc : c.isDigit = true) (hd : d.isDigit = true)
    (h : value [c] = value [d]) : c = d := by
  simp only [Char.isDigit,Bool.and_eq_true,decide_eq_true_eq] at hc hd
  have hc0 : '0'.toNat ≤ c.toNat := UInt32.le_iff_toNat_le.1 hc.1
  have hd0 : '0'.toNat ≤ d.toNat := UInt32.le_iff_toNat_le.1 hd.1
  simp only [value,Nat.ofDigitChars_cons,Nat.ofDigitChars_nil] at h
  exact Char.toNat_inj.1 (by omega)

/-- Texts of digits with one length are told apart by their values. -/
theorem eq_of_value_eq {xs ys : List Char} (hx : IsDigits xs) (hy : IsDigits ys)
    (hl : xs.length = ys.length) (hv : value xs = value ys) : xs = ys := by
  induction xs generalizing ys with
  | nil => exact (List.length_eq_zero_iff.1 hl.symm).symm
  | cons c xs ih =>
    cases ys with
    | nil => cases hl
    | cons d ys =>
      have hxs : IsDigits xs := fun a ha => hx a (List.mem_cons_of_mem _ ha)
      have hys : IsDigits ys := fun a ha => hy a (List.mem_cons_of_mem _ ha)
      have hlen : xs.length = ys.length := Nat.succ.inj hl
      have hcx : value (c :: xs) = value [c] * 10^xs.length + value xs := value_append [c] xs
      have hdy : value (d :: ys) = value [d] * 10^ys.length + value ys := value_append [d] ys
      have hltx := value_lt hxs
      have hlty := value_lt hys
      rw [hcx,hdy,hlen] at hv
      rw [hlen] at hltx
      have hpos : 0 < 10^ys.length := Nat.pow_pos (by decide)
      have hdigit : value [c] = value [d] := by
        have hdiv := congrArg (· / 10^ys.length) hv
        simp only [Nat.mul_comm (value [c]),Nat.mul_comm (value [d]),Nat.mul_add_div hpos,
          Nat.div_eq_of_lt hltx,Nat.div_eq_of_lt hlty,Nat.add_zero] at hdiv
        exact hdiv
      rw [hdigit] at hv
      rw [eq_of_value_digit (hx c List.mem_cons_self) (hy d List.mem_cons_self) hdigit,
        ih hxs hys hlen (by omega)]

theorem pow_le_value_toDigits {n : Nat} (h : n ≠ 0) : 10^((Nat.toDigits 10 n).length - 1) ≤ n := by
  rcases Nat.eq_zero_or_pos ((Nat.toDigits 10 n).length - 1) with hz | hpos
  · rw [hz]
    omega
  · by_contra hlt
    have hle := length_toDigits_le hpos (not_le.1 hlt)
    omega

theorem toDigits_mul_pow {m : Nat} (h : 0 < m) (j : Nat) :
    Nat.toDigits 10 (m * 10^j) = Nat.toDigits 10 m ++ List.replicate j '0' := by
  induction j with
  | zero => simp
  | succ j ih =>
    have hpos : 0 < m * 10^j := by positivity
    have hlast := Nat.toDigits_append_toDigits (b := 10) (n := m * 10^j) (d := 0) (by decide) hpos
      (by decide)
    have hsucc : m * 10^(j+1) = 10 * (m * 10^j) + 0 := by ring
    rw [hsucc,← hlast,ih,List.replicate_succ',Nat.toDigits_zero,List.append_assoc]

end Digits

open Digits

/-- A numeral in plain notation. -/
structure Numeral where
  negative : Bool
  whole : List Char
  fraction : List Char
  deriving DecidableEq

namespace Numeral

def sign (negative : Bool) : List Char := if negative then ['-'] else []

def chars (n : Numeral) : List Char :=
  sign n.negative ++ n.whole ++ if n.fraction = [] then [] else '.' :: n.fraction

theorem length_chars_le (n : Numeral) : n.chars.length ≤ n.whole.length + n.fraction.length + 2 := by
  have hsign : (sign n.negative).length ≤ 1 := by cases n.negative <;> simp [sign]
  unfold chars
  split
  · simp
    omega
  · simp
    omega

def magnitude (n : Numeral) : ℚ :=
  (Digits.value n.whole : ℚ) + (Digits.value n.fraction : ℚ) / 10^n.fraction.length

def value (n : Numeral) : ℚ := if n.negative then -n.magnitude else n.magnitude

/-- Reads as much of the text as is a numeral, and says what is left of it. -/
def scan (cs : List Char) : Numeral × List Char :=
  let unsigned := if cs.head? = some '-' then cs.tail else cs
  let afterWhole := unsigned.dropWhile Char.isDigit
  let afterPoint := if afterWhole.head? = some '.' then afterWhole.tail else []
  (⟨cs.head? = some '-',unsigned.takeWhile Char.isDigit,afterPoint.takeWhile Char.isDigit⟩,
    if afterWhole.head? = some '.' then afterPoint.dropWhile Char.isDigit else afterWhole)

structure WellFormed (n : Numeral) : Prop where
  nonempty : n.whole ≠ []
  whole : IsDigits n.whole
  fraction : IsDigits n.fraction

/-- The text goes on with neither a digit nor a point. -/
def Stops (rest : List Char) : Prop := ∀ c ∈ rest.head?, c.isDigit = false ∧ c ≠ '.'

theorem stops_nil : Stops [] := nofun

theorem takeWhile_digits {ds rest : List Char} (hd : IsDigits ds)
    (hr : ∀ c ∈ rest.head?, c.isDigit = false) :
    (ds ++ rest).takeWhile Char.isDigit = ds ∧ (ds ++ rest).dropWhile Char.isDigit = rest := by
  rw [List.takeWhile_append_of_pos hd,List.dropWhile_append_of_pos hd]
  cases rest with
  | nil => simp
  | cons c rest =>
    have hc : c.isDigit = false := hr c rfl
    simp [hc]

theorem scan_chars {n : Numeral} (h : n.WellFormed) {rest : List Char} (hr : Stops rest) :
    scan (n.chars ++ rest) = (n,rest) := by
  obtain ⟨negative,whole,fraction⟩ := n
  obtain ⟨hne,hw,hf⟩ := h
  simp only at hne hw hf
  have hrest : ∀ c ∈ rest.head?, c.isDigit = false := fun c hc => (hr c hc).1
  have hhead : whole.head? ≠ some '-' := by
    intro hc
    exact absurd (hw _ (List.mem_of_head? hc)) (by decide)
  -- What follows the whole part, with a point or without.
  let tail := (if fraction = [] then [] else '.' :: fraction) ++ rest
  have hchars : (chars ⟨negative,whole,fraction⟩) ++ rest = sign negative ++ (whole ++ tail) := by
    simp [chars,tail]
  have hunsigned : (if (sign negative ++ (whole ++ tail)).head? = some '-' then
      (sign negative ++ (whole ++ tail)).tail else sign negative ++ (whole ++ tail)) =
        whole ++ tail := by
    cases negative with
    | true => simp [sign]
    | false =>
      cases whole with
      | nil => exact absurd rfl hne
      | cons c whole => simpa [sign] using hhead
  have hsign : decide ((sign negative ++ (whole ++ tail)).head? = some '-') = negative := by
    cases negative with
    | true => simp [sign]
    | false =>
      cases whole with
      | nil => exact absurd rfl hne
      | cons c whole => simpa [sign] using hhead
  have htail : ∀ c ∈ tail.head?, c.isDigit = false := by
    intro c hc
    by_cases hfr : fraction = []
    · exact hrest c (by simpa [tail,hfr] using hc)
    · have hdot : c = '.' := by simpa [tail,hfr,eq_comm] using hc
      rw [hdot]
      decide
  have hwhole := takeWhile_digits hw htail
  unfold scan
  rw [hchars]
  simp only [hunsigned,hsign,hwhole.1,hwhole.2]
  by_cases hfr : fraction = []
  · have hno : rest.head? ≠ some '.' := fun hc => (hr _ hc).2 rfl
    simp [tail,hfr,hno]
  · have hfraction := takeWhile_digits hf hrest
    simp [tail,hfr,hfraction]

theorem abs_value (n : Numeral) : |n.value| = n.magnitude := by
  have hpos : 0 ≤ n.magnitude := by
    unfold magnitude
    positivity
  unfold value
  split
  · rw [abs_neg,abs_of_nonneg hpos]
  · exact abs_of_nonneg hpos

/-- The numeral of `m` units of the last of `places` places. -/
def ofScaled (negative : Bool) (m places : Nat) : Numeral where
  negative
  whole := Nat.toDigits 10 (m / 10^places)
  fraction := if places = 0 then [] else padTo places (Nat.toDigits 10 (m % 10^places))

theorem wellFormed_ofScaled (negative : Bool) (m places : Nat) :
    (ofScaled negative m places).WellFormed := by
  refine ⟨Nat.toDigits_ne_nil,isDigits_toDigits _,?_⟩
  unfold ofScaled
  dsimp only
  split
  · exact fun c hc => absurd hc (by simp)
  · exact isDigits_padTo _ (isDigits_toDigits _)

theorem length_places {m places : Nat} (h : places ≠ 0) :
    (padTo places (Nat.toDigits 10 (m % 10^places))).length = places :=
  length_padTo (length_toDigits_le (by omega) (Nat.mod_lt _ (Nat.pow_pos (by decide))))

theorem length_fraction_ofScaled (negative : Bool) (m places : Nat) :
    (ofScaled negative m places).fraction.length = places := by
  unfold ofScaled
  by_cases hz : places = 0
  · simp [hz]
  · simp only [hz,if_false]
    exact length_places hz

theorem length_whole_ofScaled_le (negative : Bool) {m places n : Nat} (hn : 0 < n)
    (h : m < 10^places * 10^n) : (ofScaled negative m places).whole.length ≤ n :=
  length_toDigits_le hn (Nat.div_lt_of_lt_mul h)

theorem magnitude_ofScaled (negative : Bool) (m places : Nat) :
    (ofScaled negative m places).magnitude = m / 10^places := by
  have hsplit : (m : ℚ) = (m / 10^places : ℕ) * 10^places + (m % 10^places : ℕ) := by
    exact_mod_cast (Nat.div_add_mod' _ _).symm
  unfold ofScaled magnitude
  by_cases hz : places = 0
  · simp [hz,Digits.value]
  · simp only [hz,if_false,length_places hz,value_padTo,Digits.value,Nat.ofDigitChars_ten_toDigits]
    have hpow : (0 : ℚ) < 10^places := by positivity
    field_simp
    linarith

/-- The numeral with its fraction cut or filled up to `n` places. -/
def fitted (num : Numeral) (n : Nat) : Numeral := { num with fraction := fit n num.fraction }

theorem WellFormed.fitted {num : Numeral} (h : num.WellFormed) (n : Nat) :
    (num.fitted n).WellFormed := ⟨h.nonempty,h.whole,isDigits_fit n h.fraction⟩

/-- Fitting rounds the magnitude down. -/
theorem magnitude_fitted {num : Numeral} (h : num.WellFormed) (n : Nat) :
    (num.fitted n).magnitude = ⌊num.magnitude * 10^n⌋₊ / 10^n := by
  have hpow : (0 : ℚ) < 10^n := by positivity
  have hfloor : ⌊num.magnitude * 10^n⌋₊ = Digits.value num.whole * 10^n +
      Digits.value num.fraction * 10^n / 10^num.fraction.length := by
    have hsum : num.magnitude * 10^n =
        ((Digits.value num.fraction * 10^n : ℕ) : ℚ) / ((10^num.fraction.length : ℕ) : ℚ) +
          ((Digits.value num.whole * 10^n : ℕ) : ℚ) := by
      unfold magnitude
      push_cast
      field_simp
      ring
    rw [hsum,Nat.floor_add_natCast (by positivity),Nat.floor_div_eq_div,Nat.add_comm]
  rw [hfloor,magnitude,Numeral.fitted]
  simp only [length_fit,value_fit n h.fraction]
  push_cast
  field_simp

end Numeral
