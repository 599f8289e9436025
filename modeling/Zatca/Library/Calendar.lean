import Mathlib.Tactic.IntervalCases
set_option autoImplicit false

/-! The proleptic Gregorian calendar. Days are counted from the first of January 1970, and years in
eras of 400 from the first of March. -/

namespace Calendar

/-! ### From a day to its date -/

def era (day : Int) : Int := (day + 719468).fdiv 146097

def dayOfEra (day : Int) : Nat := (day + 719468 - era day * 146097).toNat

def yearOfEra (doe : Nat) : Nat := (doe - doe/1460 + doe/36524 - doe/146096) / 365

def dayOfYear (doe : Nat) : Nat :=
  doe - (365*yearOfEra doe + yearOfEra doe/4 - yearOfEra doe/100)

/-- The months from March on start every `153/5` days. -/
def monthOfYear (doy : Nat) : Nat := (5*doy+2) / 153

structure CivilDate where
  year : Int
  month : Nat
  day : Nat
  deriving DecidableEq

def civil (day : Int) : CivilDate :=
  let doe := dayOfEra day
  let doy := dayOfYear doe
  let mp := monthOfYear doy
  let month := if mp < 10 then mp + 3 else mp - 9
  { year := yearOfEra doe + era day * 400 + (if month ≤ 2 then 1 else 0)
    month
    day := doy - (153*mp+2)/5 + 1 }

/-! ### From a date to its day -/

/-- The year that starts in March. -/
def marchYear (year : Int) (month : Nat) : Int := if month ≤ 2 then year - 1 else year

/-- The number of a day; a day past the end of its month is one of the next month. -/
def dayNumber (year : Int) (month day : Nat) : Int :=
  let yoe := (marchYear year month % 400).toNat
  marchYear year month / 400 * 146097 +
    (yoe*365 + yoe/4 - yoe/100 + ((153*((month + 9) % 12) + 2)/5 + day - 1) : Nat) - 719468

def IsLeap (year : Int) : Prop := year % 4 = 0 ∧ (year % 100 ≠ 0 ∨ year % 400 = 0)

instance (year : Int) : Decidable (IsLeap year) := inferInstanceAs (Decidable (_ ∧ _))

def daysInMonth (year : Int) (month : Nat) : Nat :=
  if month = 2 then if IsLeap year then 29 else 28
  else if month = 4 ∨ month = 6 ∨ month = 9 ∨ month = 11 then 30 else 31

/-! ### There and back -/

/-- A year of an era by its century, its group of four and its place in the group. -/
theorem yearOfEra_eq {doe doy c q r : Nat} (hc : c < 4) (hq : q < 25) (hr : r < 4)
    (hdoe : doe = 36524*c + 1461*q + 365*r + doy)
    (hdoy : doy < 365 ∨ (doy = 365 ∧ r = 3 ∧ (q < 24 ∨ c = 3))) :
    yearOfEra doe = 100*c + 4*q + r := by
  have hera : doe/146096 = doe/36524/4 := by omega
  have hcentury : doe/36524 = c + if c = 3 ∧ q = 24 ∧ r = 3 ∧ doy = 365 then 1 else 0 := by
    split
    · omega
    · omega
  have hgroup : doe/1460 = 25*c + q + if 1460 ≤ 365*r + doy + 24*c + q then 1 else 0 := by
    split
    · omega
    · omega
  rw [yearOfEra,hera,hcentury,hgroup]
  split <;> split <;> omega

section date
variable {year : Int} {month day : Nat} (hm : 1 ≤ month ∧ month ≤ 12)
  (hd : 1 ≤ day ∧ day ≤ daysInMonth year month)
include hd

theorem day_le : day ≤ 31 ∧ (month = 2 → day ≤ 29 ∧ (day = 29 → IsLeap year)) ∧
    (month = 4 ∨ month = 6 ∨ month = 9 ∨ month = 11 → day ≤ 30) := by
  obtain ⟨-,hlast⟩ := hd
  unfold daysInMonth at hlast
  split at hlast
  · split at hlast
    · next hleap => exact ⟨by omega,fun _ => ⟨hlast,fun _ => hleap⟩,fun _ => by omega⟩
    · exact ⟨by omega,fun _ => ⟨by omega,fun h => by omega⟩,fun _ => by omega⟩
  · next hfeb =>
    split at hlast
    · exact ⟨by omega,fun h => absurd h hfeb,fun _ => hlast⟩
    · next hlong => exact ⟨hlast,fun h => absurd h hfeb,fun h => absurd h hlong⟩

include hm

theorem monthOfYear_eq :
    monthOfYear ((153*((month + 9) % 12) + 2)/5 + day - 1) = (month + 9) % 12 := by
  obtain ⟨h31,hfeb,hshort⟩ := day_le hd
  obtain ⟨h1,h12⟩ := hm
  unfold monthOfYear
  interval_cases month <;> omega

/-- Only the leap day is the last day of a long year. -/
theorem dayOfYear_lt : (153*((month + 9) % 12) + 2)/5 + day - 1 < 365 ∨
    ((153*((month + 9) % 12) + 2)/5 + day - 1 = 365 ∧ month = 2 ∧ IsLeap year) := by
  obtain ⟨h31,hfeb,hshort⟩ := day_le hd
  obtain ⟨h1,h12⟩ := hm
  by_cases h29 : month = 2 ∧ day = 29
  · obtain ⟨rfl,rfl⟩ := h29
    exact .inr ⟨rfl,rfl,(hfeb rfl).2 rfl⟩
  · left
    interval_cases month <;> omega

/-- A date that is on the calendar is the date of its day. -/
theorem civil_dayNumber : civil (dayNumber year month day) = ⟨year,month,day⟩ := by
  have hlong := dayOfYear_lt hm hd
  have hmp := monthOfYear_eq hm hd
  have hpos := hd.1
  generalize hdoy : (153*((month + 9) % 12) + 2)/5 + day - 1 = doy at hlong hmp
  generalize hyoe : (marchYear year month % 400).toNat = yoe
  have hlt : yoe < 400 := by omega
  have hnum : dayNumber year month day + 719468 = marchYear year month / 400 * 146097 +
      (yoe*365 + yoe/4 - yoe/100 + doy : Nat) := by
    simp only [dayNumber,hyoe,hdoy]
    omega
  have hera : era (dayNumber year month day) = marchYear year month / 400 := by
    rw [era,hnum,Int.fdiv_eq_ediv_of_nonneg _ (by decide)]
    omega
  have hdoe : dayOfEra (dayNumber year month day) = yoe*365 + yoe/4 - yoe/100 + doy := by
    rw [dayOfEra,hera,hnum]
    omega
  have hleap : doy < 365 ∨ (doy = 365 ∧ yoe%4 = 3 ∧ (yoe%100/4 < 24 ∨ yoe/100 = 3)) := by
    rcases hlong with h | ⟨h,rfl,hyear⟩
    · exact .inl h
    · have hmarch : marchYear year 2 = year - 1 := rfl
      unfold IsLeap at hyear
      rw [hmarch] at hyoe
      right
      omega
  have hyearOfEra : yearOfEra (yoe*365 + yoe/4 - yoe/100 + doy) = yoe := by
    rw [yearOfEra_eq (by omega : yoe/100 < 4) (by omega : yoe%100/4 < 25) (by omega : yoe%4 < 4)
      (by omega) hleap]
    omega
  have hdayOfYear : dayOfYear (yoe*365 + yoe/4 - yoe/100 + doy) = doy := by
    rw [dayOfYear,hyearOfEra]
    omega
  have hmonth : (if (month + 9) % 12 < 10 then (month + 9) % 12 + 3 else (month + 9) % 12 - 9) =
      month := by
    split <;> omega
  have hyear : (yoe : Int) + marchYear year month / 400 * 400 + (if month ≤ 2 then 1 else 0) = year := by
    unfold marchYear at hyoe ⊢
    split at hyoe <;> split <;> omega
  have hday : doy - (153*((month + 9) % 12) + 2)/5 + 1 = day := by omega
  simp only [civil,hdoe,hera,hdayOfYear,hmp,hmonth,hyearOfEra,hyear,hday]

end date

/-- The days past the end of a month are the first days of the next one. -/
theorem dayNumber_past {year : Int} {month day : Nat} (hm : 1 ≤ month ∧ month ≤ 11)
    (hd : daysInMonth year month < day) :
    dayNumber year month day = dayNumber year (month + 1) (day - daysInMonth year month) := by
  obtain ⟨h1,h11⟩ := hm
  by_cases hfeb : month = 2
  · subst hfeb
    -- the year that starts in March begins between the two months
    have hbefore : marchYear year 2 = year - 1 := rfl
    have hafter : marchYear year 3 = year := rfl
    by_cases hleap : IsLeap year
    · simp only [daysInMonth,if_true,hleap] at hd ⊢
      simp only [dayNumber,hbefore,hafter]
      unfold IsLeap at hleap
      omega
    · simp only [daysInMonth,if_true,hleap,if_false] at hd ⊢
      simp only [dayNumber,hbefore,hafter]
      unfold IsLeap at hleap
      omega
  · have hsame : marchYear year (month + 1) = marchYear year month := by
      unfold marchYear
      split <;> split <;> omega
    simp only [dayNumber,hsame]
    rw [daysInMonth,if_neg hfeb] at hd ⊢
    interval_cases month <;> simp at hd hfeb ⊢ <;> omega

theorem dayNumber_succ (year : Int) (month : Nat) {day : Nat} (hd : 1 ≤ day) :
    dayNumber year month (day + 1) = dayNumber year month day + 1 := by
  simp only [dayNumber]
  omega

theorem dayNumber_newYear (year : Int) : dayNumber year 12 32 = dayNumber (year + 1) 1 1 := by
  have hmarch : marchYear (year + 1) 1 = marchYear year 12 := by
    unfold marchYear
    norm_num
  simp only [dayNumber,hmarch]

/-- A day up to one past the longest month is on the calendar somewhere. -/
theorem exists_dayNumber {year : Int} {month day : Nat} (hm : 1 ≤ month ∧ month ≤ 12)
    (hd : 1 ≤ day ∧ day ≤ 32) : ∃ year' month' day', (1 ≤ month' ∧ month' ≤ 12) ∧
      (1 ≤ day' ∧ day' ≤ daysInMonth year' month') ∧
      dayNumber year month day = dayNumber year' month' day' ∧ (year' = year ∨ year' = year + 1) := by
  by_cases hlast : day ≤ daysInMonth year month
  · exact ⟨year,month,day,hm,⟨hd.1,hlast⟩,rfl,.inl rfl⟩
  · by_cases hdecember : month = 12
    · subst hdecember
      have h31 : daysInMonth year 12 = 31 := rfl
      have hjanuary : daysInMonth (year + 1) 1 = 31 := rfl
      obtain rfl : day = 32 := by omega
      exact ⟨year + 1,1,1,by decide,by omega,dayNumber_newYear year,.inr rfl⟩
    · have hnext : 28 ≤ daysInMonth year month ∧ 28 ≤ daysInMonth year (month + 1) := by
        unfold daysInMonth
        constructor <;> split <;> split <;> omega
      exact ⟨year,month + 1,day - daysInMonth year month,by omega,by omega,
        dayNumber_past (by omega) (by omega),.inl rfl⟩

end Calendar
