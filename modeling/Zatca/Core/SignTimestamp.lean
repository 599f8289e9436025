import Zatca.Core.FixedNoRounding
import Zatca.Core.QrCode
import Zatca.Core.Schemas
import Zatca.Core.Templates
import Zatca.Library.Calendar
set_option autoImplicit false

/-! The time of signing and the time of issue. -/

namespace Zatca
open Digits Calendar

/-- The number that stands in a text at a place. -/
def numberAt (cs : List Char) (i n : Nat) : Nat := value ((cs.drop i).take n)

/-- The numbers that the engine takes for a month, a day and a time. It takes 31 days for every
month, and 24:00:00. -/
def InRange (month day hour minute second : Nat) : Prop :=
  (1 ≤ month ∧ month ≤ 12) ∧ (1 ≤ day ∧ day ≤ 31) ∧ minute ≤ 59 ∧ second ≤ 59 ∧
    (hour ≤ 23 ∨ hour = 24 ∧ minute = 0 ∧ second = 0)

instance (month day hour minute second : Nat) : Decidable (InRange month day hour minute second) :=
  inferInstanceAs (Decidable (_ ∧ _))

/-- A day past the end of its month is one of the next month. -/
def Date.ofNumbers (year month day hour minute second : Nat) : Date :=
  ⟨dayNumber year month day * 86400000 + ((hour * 3600 + minute * 60 + second) * 1000 : Nat)⟩

/-- `new Date(text)`; texts of another form are read by `other`. -/
def Date.parse (other : String → Option Date) (text : String) : Option Date :=
  if shaped "dddd-dd-ddTdd:dd:ddZ" text then
    let number (i n : Nat) : Nat := numberAt text.toList i n
    if InRange (number 5 2) (number 8 2) (number 11 2) (number 14 2) (number 17 2) then
      some (.ofNumbers (number 0 4) (number 5 2) (number 8 2) (number 11 2) (number 14 2)
        (number 17 2))
    else none
  else other text

section signing
variable (other : String → Option Date)

def toDate : Date ⊕ String → Except Thrown Date
  | .inl d => .ok d
  | .inr input =>
    match Date.parse other input with
    | some d => .ok d
    | none => .error (.typeError ("Invalid date input: " ++ input))

def formatZatcaDateTime (input : Date ⊕ String) : Except Thrown String := do
  let d ← toDate other input
  return String.ofList (d.toISOString.toList.take 19)

def formatSignTimestamp (input : Date ⊕ String) : Except Thrown String := do
  let text ← formatZatcaDateTime other input
  return text ++ "Z"

/-- The signing time that `generateSignedXMLString` puts into the signed properties; `now` is what
its clock says. -/
def signTimestamp (now : Date) (invoice_xml : XMLDocument) : Except Thrown String :=
  let issue_date := (invoice_xml.get ["Invoice","cbc:IssueDate"]).bind List.head?
  let issue_time := (invoice_xml.get ["Invoice","cbc:IssueTime"]).bind List.head?
  let datetime := match issue_date,issue_time with
    | some (.str date),some (.str time) => .inr (date ++ "T" ++ time)
    | _,_ => .inl now
  formatSignTimestamp other datetime

end signing

/-! ### The texts -/

/-- A point in time in digits. -/
def stamp (year month day hour minute second : List Char) : List Char :=
  year ++ '-' :: (month ++ '-' :: (day ++ 'T' :: (hour ++ ':' :: (minute ++ ':' :: (second ++ ['Z'])))))

/-- Digits of a fixed width. -/
def Width (n : Nat) (ds : List Char) : Prop := ds.length = n ∧ IsDigits ds

section numberAt
variable {k : Nat} {ds : List Char} (rest : List Char)

theorem numberAt_here (h : Width k ds) : numberAt (ds ++ rest) 0 k = value ds := by
  rw [numberAt,List.drop_zero,List.take_left' h.1]

theorem numberAt_skip (h : Width k ds) (i n : Nat) : numberAt (ds ++ rest) (k + i) n = numberAt rest i n := by
  rw [numberAt,← h.1,← List.drop_drop,List.drop_left,numberAt]

theorem numberAt_cons (c : Char) (i n : Nat) : numberAt (c :: rest) (i + 1) n = numberAt rest i n := rfl

end numberAt

/-- The members of a text that match a shape. -/
def Matches (shape cs : List Char) : Prop :=
  cs.length = shape.length ∧ (shape.zip cs).all (fun (p,c) => if p = 'd' then c.isDigit else c = p) = true

theorem matches_of_shaped {shape text : String} {cs : List Char} (h : shaped shape text = true)
    (hs : shape.toList = cs) : Matches cs text.toList := by
  rw [shaped,Bool.and_eq_true,decide_eq_true_eq,hs] at h
  exact h

theorem shaped_of_matches {shape text : String} {cs : List Char} (hs : shape.toList = cs)
    (h : Matches cs text.toList) : shaped shape text = true := by
  rw [shaped,Bool.and_eq_true,decide_eq_true_eq,hs]
  exact h

theorem matches_nil {cs : List Char} (h : Matches [] cs) : cs = [] := List.eq_nil_of_length_eq_zero h.1

theorem matches_literal {p : Char} {shape cs : List Char} (h : Matches (p :: shape) cs) (hp : p ≠ 'd') :
    ∃ rest, cs = p :: rest ∧ Matches shape rest := by
  cases cs with
  | nil => cases h.1
  | cons c rest =>
    obtain ⟨hlen,hall⟩ := h
    simp only [List.zip_cons_cons,List.all_cons,if_neg hp,Bool.and_eq_true,decide_eq_true_eq] at hall
    obtain ⟨rfl,hrest⟩ := hall
    exact ⟨rest,rfl,Nat.succ.inj hlen,hrest⟩

theorem matches_digits {n : Nat} {shape cs : List Char} (h : Matches (List.replicate n 'd' ++ shape) cs) :
    ∃ ds rest, cs = ds ++ rest ∧ Width n ds ∧ Matches shape rest := by
  induction n generalizing cs with
  | zero => exact ⟨[],cs,rfl,⟨rfl,nofun⟩,h⟩
  | succ n ih =>
    cases cs with
    | nil => cases h.1
    | cons c rest =>
      obtain ⟨hlen,hall⟩ := h
      rw [List.replicate_succ,List.cons_append] at hlen hall
      simp only [List.zip_cons_cons,List.all_cons,if_true,Bool.and_eq_true] at hall
      obtain ⟨hdigit,hrest⟩ := hall
      obtain ⟨ds,tail,rfl,⟨hds,hdigits⟩,htail⟩ := ih ⟨Nat.succ.inj hlen,hrest⟩
      exact ⟨c :: ds,tail,rfl,⟨congrArg Nat.succ hds,List.forall_mem_cons.2 ⟨hdigit,hdigits⟩⟩,htail⟩

theorem date_digits {text : String} (h : shaped "dddd-dd-dd" text = true) :
    ∃ year month day, text.toList = year ++ '-' :: (month ++ '-' :: day) ∧
      Width 4 year ∧ Width 2 month ∧ Width 2 day := by
  have h : Matches (List.replicate 4 'd' ++ '-' :: (List.replicate 2 'd' ++ '-' ::
      (List.replicate 2 'd' ++ []))) text.toList := matches_of_shaped h (by decide)
  obtain ⟨year,r1,h1,hyear,hm1⟩ := matches_digits h
  obtain ⟨r2,rfl,hm2⟩ := matches_literal hm1 (by decide)
  obtain ⟨month,r3,rfl,hmonth,hm3⟩ := matches_digits hm2
  obtain ⟨r4,rfl,hm4⟩ := matches_literal hm3 (by decide)
  obtain ⟨day,r5,rfl,hday,hm5⟩ := matches_digits hm4
  obtain rfl := matches_nil hm5
  exact ⟨year,month,day,by rw [h1,List.append_nil],hyear,hmonth,hday⟩

/-- A time of day, and what follows it. -/
theorem clock_digits {shape cs : List Char} (h : Matches (List.replicate 2 'd' ++ ':' ::
    (List.replicate 2 'd' ++ ':' :: (List.replicate 2 'd' ++ shape))) cs) :
    ∃ hour minute second rest, cs = hour ++ ':' :: (minute ++ ':' :: (second ++ rest)) ∧
      Width 2 hour ∧ Width 2 minute ∧ Width 2 second ∧ Matches shape rest := by
  obtain ⟨hour,r1,h1,hhour,hm1⟩ := matches_digits h
  obtain ⟨r2,rfl,hm2⟩ := matches_literal hm1 (by decide)
  obtain ⟨minute,r3,rfl,hminute,hm3⟩ := matches_digits hm2
  obtain ⟨r4,rfl,hm4⟩ := matches_literal hm3 (by decide)
  obtain ⟨second,r5,rfl,hsecond,hm5⟩ := matches_digits hm4
  exact ⟨hour,minute,second,r5,h1,hhour,hminute,hsecond,hm5⟩

theorem time_digits {text : String} (h : shaped "dd:dd:ddZ" text = true) :
    ∃ hour minute second, text.toList = hour ++ ':' :: (minute ++ ':' :: (second ++ ['Z'])) ∧
      Width 2 hour ∧ Width 2 minute ∧ Width 2 second := by
  have h : Matches (List.replicate 2 'd' ++ ':' :: (List.replicate 2 'd' ++ ':' ::
      (List.replicate 2 'd' ++ ['Z']))) text.toList := matches_of_shaped h (by decide)
  obtain ⟨hour,minute,second,rest,htext,hhour,hminute,hsecond,hrest⟩ := clock_digits h
  obtain ⟨r,rfl,hnil⟩ := matches_literal hrest (by decide)
  obtain rfl := matches_nil hnil
  exact ⟨hour,minute,second,htext,hhour,hminute,hsecond⟩

theorem Matches.literal {p : Char} {shape rest : List Char} (hp : p ≠ 'd') (h : Matches shape rest) :
    Matches (p :: shape) (p :: rest) := by
  refine ⟨congrArg Nat.succ h.1,?_⟩
  simp [hp,h.2]

theorem Matches.digits {n : Nat} {shape ds rest : List Char} (hd : Width n ds) (h : Matches shape rest) :
    Matches (List.replicate n 'd' ++ shape) (ds ++ rest) := by
  obtain ⟨rfl,hdigits⟩ := hd
  induction ds with
  | nil => exact h
  | cons c ds ih =>
    obtain ⟨hc,hds⟩ := List.forall_mem_cons.1 hdigits
    obtain ⟨hlen,hall⟩ := ih hds
    refine ⟨congrArg Nat.succ hlen,?_⟩
    rw [List.length_cons,List.replicate_succ,List.cons_append,List.cons_append,List.zip_cons_cons,
      List.all_cons,hall,Bool.and_true]
    exact hc

section stamp
variable {year month day hour minute second : List Char} (hyear : Width 4 year)
  (hmonth : Width 2 month) (hday : Width 2 day) (hhour : Width 2 hour) (hminute : Width 2 minute)
  (hsecond : Width 2 second)
include hyear hmonth hday hhour hminute hsecond

theorem shaped_stamp {text : String} (h : text.toList = stamp year month day hour minute second) :
    shaped "dddd-dd-ddTdd:dd:ddZ" text = true := by
  have hend : Matches ['Z'] ['Z'] := .literal (by decide) ⟨rfl,rfl⟩
  have htime : Matches (List.replicate 2 'd' ++ ':' :: (List.replicate 2 'd' ++ ':' ::
      (List.replicate 2 'd' ++ ['Z']))) (hour ++ ':' :: (minute ++ ':' :: (second ++ ['Z']))) :=
    .digits hhour (.literal (by decide) (.digits hminute (.literal (by decide) (.digits hsecond hend))))
  have hmatch : Matches (List.replicate 4 'd' ++ '-' :: (List.replicate 2 'd' ++ '-' ::
      (List.replicate 2 'd' ++ 'T' :: (List.replicate 2 'd' ++ ':' :: (List.replicate 2 'd' ++ ':' ::
        (List.replicate 2 'd' ++ ['Z'])))))) text.toList := by
    rw [h]
    exact .digits hyear (.literal (by decide) (.digits hmonth (.literal (by decide)
      (.digits hday (.literal (by decide) htime)))))
  exact shaped_of_matches (by decide) hmatch

/-- A point in time with digits of fixed widths is read as its numbers. -/
theorem parse_stamp (other : String → Option Date) {text : String}
    (h : text.toList = stamp year month day hour minute second) : Date.parse other text =
      if InRange (value month) (value day) (value hour) (value minute) (value second) then
        some (.ofNumbers (value year) (value month) (value day) (value hour) (value minute)
          (value second))
      else none := by
  have hy : numberAt text.toList 0 4 = value year := by
    rw [h]
    exact numberAt_here _ hyear
  -- from here on the places are those behind the year and its hyphen
  have hskip (i : Nat) : numberAt text.toList (4 + (i + 1)) 2 = numberAt (month ++ '-' :: (day ++ 'T' ::
      (hour ++ ':' :: (minute ++ ':' :: (second ++ ['Z']))))) i 2 := by
    rw [h]
    exact (numberAt_skip _ hyear _ _).trans (numberAt_cons _ _ _ _)
  have hmo : numberAt text.toList 5 2 = value month := (hskip 0).trans (numberAt_here _ hmonth)
  have hskip' (i : Nat) : numberAt text.toList (4 + (2 + (i + 1) + 1)) 2 = numberAt (day ++ 'T' ::
      (hour ++ ':' :: (minute ++ ':' :: (second ++ ['Z'])))) i 2 :=
    (hskip _).trans ((numberAt_skip _ hmonth _ _).trans (numberAt_cons _ _ _ _))
  have hd : numberAt text.toList 8 2 = value day := (hskip' 0).trans (numberAt_here _ hday)
  have htime (i : Nat) : numberAt text.toList (4 + (2 + (2 + (i + 1) + 1) + 1)) 2 =
      numberAt (hour ++ ':' :: (minute ++ ':' :: (second ++ ['Z']))) i 2 :=
    (hskip' _).trans ((numberAt_skip _ hday _ _).trans (numberAt_cons _ _ _ _))
  have hh : numberAt text.toList 11 2 = value hour := (htime 0).trans (numberAt_here _ hhour)
  have hmi : numberAt text.toList 14 2 = value minute :=
    (htime (2 + (0 + 1))).trans ((numberAt_skip _ hhour _ _).trans
      ((numberAt_cons _ _ _ _).trans (numberAt_here _ hminute)))
  have hs : numberAt text.toList 17 2 = value second :=
    (htime (2 + (2 + (0 + 1) + 1))).trans ((numberAt_skip _ hhour _ _).trans
      ((numberAt_cons _ _ _ _).trans ((numberAt_skip _ hminute _ _).trans
        ((numberAt_cons _ _ _ _).trans (numberAt_here _ hsecond)))))
  rw [Date.parse,if_pos (shaped_stamp hyear hmonth hday hhour hminute hsecond h)]
  simp only [hy,hmo,hd,hh,hmi,hs]

end stamp

/-- A number in digits of a fixed width. -/
def inDigits (width n : Nat) : List Char := padTo width (Nat.toDigits 10 n)

theorem width_inDigits {width n : Nat} (hw : 0 < width) (h : n < 10^width) :
    Width width (inDigits width n) :=
  ⟨length_padTo (length_toDigits_le hw h),isDigits_padTo _ (isDigits_toDigits n)⟩

theorem value_inDigits (width n : Nat) : value (inDigits width n) = n := by
  rw [inDigits,value_padTo]
  exact Nat.ofDigitChars_ten_toDigits

theorem toList_padStart (n width : Nat) :
    (padStart (toString n) width '0').toList = inDigits width n := by
  have hlist : (toString n).toList = Nat.toDigits 10 n := by
    simp [Nat.toString_eq_repr,Nat.repr]
  rw [padStart,String.toList_append,String.toList_ofList,inDigits,padTo,hlist,← String.length_toList,
    hlist]

/-- The time of day in milliseconds. -/
def Date.timeOfDay (d : Date) : Nat := (d.getTime.fmod 86400000).toNat

theorem Date.timeOfDay_lt (d : Date) : d.timeOfDay < 86400000 := by
  rw [Date.timeOfDay,Int.fmod_eq_emod_of_nonneg _ (by decide)]
  omega

/-- The first 19 characters of a point in time of a year with four digits. -/
theorem slice_toISOString {d : Date} {year month day : Nat}
    (h : civil (d.getTime.fdiv 86400000) = ⟨year,month,day⟩) (hy : year ≤ 9999) (hm : month ≤ 12)
    (hd : day ≤ 31) : d.toISOString.toList.take 19 ++ ['Z'] =
      stamp (inDigits 4 year) (inDigits 2 month) (inDigits 2 day)
        (inDigits 2 (d.timeOfDay/3600000)) (inDigits 2 (d.timeOfDay/60000 % 60))
        (inDigits 2 (d.timeOfDay/1000 % 60)) := by
  have hyear : d.getUTCFullYear = year := congrArg CivilDate.year h
  have hmonth : d.utcMonth = month := congrArg CivilDate.month h
  have hday : d.dayOfMonth = day := congrArg CivilDate.day h
  have hyearText : toString ((year : Nat) : Int) = toString year := rfl
  have hlt := d.timeOfDay_lt
  have hwyear := (width_inDigits (by decide) (by omega : year < 10^4)).1
  have hwmonth := (width_inDigits (by decide) (by omega : month < 10^2)).1
  have hwday := (width_inDigits (by decide) (by omega : day < 10^2)).1
  have hwhour := (width_inDigits (by decide) (by omega : d.timeOfDay/3600000 < 10^2)).1
  have hwminute := (width_inDigits (by decide) (by omega : d.timeOfDay/60000 % 60 < 10^2)).1
  have hwsecond := (width_inDigits (by decide) (by omega : d.timeOfDay/1000 % 60 < 10^2)).1
  have htext : d.toISOString.toList = (inDigits 4 year ++ '-' :: (inDigits 2 month ++ '-' ::
      (inDigits 2 day ++ 'T' :: (inDigits 2 (d.timeOfDay/3600000) ++ ':' ::
        (inDigits 2 (d.timeOfDay/60000 % 60) ++ ':' :: inDigits 2 (d.timeOfDay/1000 % 60)))))) ++
      ('.' :: (inDigits 3 (d.timeOfDay % 1000) ++ ['Z'])) := by
    have hrange : (0 : Int) ≤ year ∧ (year : Int) ≤ 9999 := by omega
    rw [Date.toISOString,hyear,if_pos hrange,hmonth,hday,hyearText]
    simp only [String.toList_append,toList_padStart,List.append_assoc,List.cons_append,
      Date.timeOfDay]
    rfl
  rw [htext,List.take_left' (by simp [hwyear,hwmonth,hwday,hwhour,hwminute,hwsecond])]
  simp [stamp]

/-- A later year is written with a sign. -/
theorem head?_toISOString {d : Date} (h : 9999 < d.getUTCFullYear) :
    (d.toISOString.toList.take 19).head? = some '+' := by
  have hrange : ¬ (0 ≤ d.getUTCFullYear ∧ d.getUTCFullYear ≤ 9999) := by omega
  have hsign : ¬ d.getUTCFullYear < 0 := by omega
  rw [Date.toISOString,if_neg hrange,if_neg hsign]
  simp

section stamp
variable {year month day hour minute second : List Char} (hyear : Width 4 year)
  (hmonth : Width 2 month) (hday : Width 2 day) (hhour : Width 2 hour) (hminute : Width 2 minute)
  (hsecond : Width 2 second)
include hyear hmonth hday hhour hminute hsecond

theorem stamp_inj {year' month' day' hour' minute' second' : List Char} (hy : Width 4 year')
    (hmo : Width 2 month') (hd : Width 2 day') (hh : Width 2 hour') (hmi : Width 2 minute')
    (hs : Width 2 second') : stamp year month day hour minute second =
        stamp year' month' day' hour' minute' second' ↔
      value year = value year' ∧ value month = value month' ∧ value day = value day' ∧
        value hour = value hour' ∧ value minute = value minute' ∧ value second = value second' := by
  have hdigits {n : Nat} {ds ds' : List Char} (h : Width n ds) (h' : Width n ds') :
      value ds = value ds' ↔ ds = ds' :=
    ⟨eq_of_value_eq h.2 h'.2 (h.1.trans h'.1.symm),congrArg value⟩
  have hcut {n : Nat} {ds ds' rest rest' : List Char} (c : Char) (h : Width n ds) (h' : Width n ds') :
      ds ++ c :: rest = ds' ++ c :: rest' ↔ ds = ds' ∧ rest = rest' := by
    constructor
    · intro he
      obtain ⟨hds,hrest⟩ := List.append_inj he (h.1.trans h'.1.symm)
      exact ⟨hds,List.tail_eq_of_cons_eq hrest⟩
    · rintro ⟨rfl,rfl⟩
      rfl
  rw [hdigits hyear hy,hdigits hmonth hmo,hdigits hday hd,hdigits hhour hh,hdigits hminute hmi,
    hdigits hsecond hs,stamp,stamp,hcut _ hyear hy,hcut _ hmonth hmo,hcut _ hday hd,hcut _ hhour hh,
    hcut _ hminute hmi,hcut _ hsecond hs]
  simp only [and_true]

/-- A point in time is written with the given digits when they are its numbers. -/
theorem slice_eq_stamp_iff {d : Date} {year' : Int} {month' day' : Nat}
    (h : civil (d.getTime.fdiv 86400000) = ⟨year',month',day'⟩) (hy : 0 ≤ year') (hm : month' ≤ 12)
    (hd : day' ≤ 31) : d.toISOString.toList.take 19 ++ ['Z'] =
        stamp year month day hour minute second ↔
      year' = value year ∧ month' = value month ∧ day' = value day ∧
        d.timeOfDay/3600000 = value hour ∧ d.timeOfDay/60000 % 60 = value minute ∧
        d.timeOfDay/1000 % 60 = value second := by
  have hyear4 := value_lt hyear.2
  rw [hyear.1] at hyear4
  by_cases hlate : year' ≤ 9999
  · lift year' to ℕ using hy
    have hlt := d.timeOfDay_lt
    rw [slice_toISOString h (by omega) hm hd,stamp_inj (width_inDigits (by decide) (by omega))
      (width_inDigits (by decide) (by omega)) (width_inDigits (by decide) (by omega))
      (width_inDigits (by decide) (by omega)) (width_inDigits (by decide) (by omega))
      (width_inDigits (by decide) (by omega)) hyear hmonth hday hhour hminute hsecond]
    simp only [value_inDigits,Int.natCast_inj]
  · have hfull : 9999 < d.getUTCFullYear := by
      have hyear' : d.getUTCFullYear = year' := congrArg CivilDate.year h
      omega
    constructor
    · intro he
      have hhead := congrArg List.head? he
      rw [List.head?_append,head?_toISOString hfull] at hhead
      cases year with
      | nil => cases hyear.1
      | cons c ds =>
        obtain rfl : '+' = c := by simpa [stamp] using hhead
        cases hyear.2 '+' List.mem_cons_self
    · rintro ⟨he,-⟩
      omega

omit hyear hmonth hday hhour hminute hsecond

/-- The date and the time of day of the numbers, before the day has ended. -/
theorem ofNumbers_within {y mo d h mi s : Nat} (hr : InRange mo d h mi s) (hh : h ≤ 23) :
    (Date.ofNumbers y mo d h mi s).getTime.fdiv 86400000 = dayNumber y mo d ∧
      (Date.ofNumbers y mo d h mi s).timeOfDay = (h * 3600 + mi * 60 + s) * 1000 := by
  obtain ⟨-,-,hmi,hs,-⟩ := hr
  rw [Date.timeOfDay,Int.fdiv_eq_ediv_of_nonneg _ (by decide),Int.fmod_eq_emod_of_nonneg _ (by decide)]
  simp only [Date.ofNumbers]
  omega

theorem ofNumbers_end {y mo d h mi s : Nat} (hr : InRange mo d h mi s) (hh : ¬ h ≤ 23) :
    (Date.ofNumbers y mo d h mi s).getTime.fdiv 86400000 = dayNumber y mo (d + 1) ∧
      (Date.ofNumbers y mo d h mi s).timeOfDay = 0 := by
  obtain ⟨-,hd,-,-,h24 | ⟨rfl,rfl,rfl⟩⟩ := hr
  · exact absurd h24 hh
  · rw [Date.timeOfDay,Int.fdiv_eq_ediv_of_nonneg _ (by decide),
      Int.fmod_eq_emod_of_nonneg _ (by decide),dayNumber_succ _ _ hd.1]
    simp only [Date.ofNumbers]
    omega

include hyear hmonth hday hhour hminute hsecond

/-- What is signed is the given point in time exactly when that is on the calendar and its day has
not ended. -/
theorem formatSignTimestamp_eq_iff (other : String → Option Date) {text signingTime : String}
    (h : text.toList = stamp year month day hour minute second)
    (hs : formatSignTimestamp other (.inr text) = .ok signingTime) : signingTime = text ↔
      value day ≤ daysInMonth (value year) (value month) ∧ value hour ≠ 24 := by
  obtain ⟨sliced,hsliced,hs⟩ := ok_of_bind hs
  obtain ⟨d,hd,hsliced⟩ := ok_of_bind hsliced
  obtain rfl : sliced ++ "Z" = signingTime := Except.ok.inj hs
  obtain rfl : String.ofList (d.toISOString.toList.take 19) = sliced := Except.ok.inj hsliced
  have hparse : Date.parse other text = some d := by
    rw [toDate] at hd
    split at hd
    · next d' hd' => rw [hd',Except.ok.inj hd]
    · cases hd
  rw [parse_stamp hyear hmonth hday hhour hminute hsecond other h] at hparse
  by_cases hvalid : InRange (value month) (value day) (value hour) (value minute) (value second)
  · rw [if_pos hvalid] at hparse
    have htext : String.ofList (d.toISOString.toList.take 19) ++ "Z" = text ↔
        d.toISOString.toList.take 19 ++ ['Z'] = stamp year month day hour minute second := by
      rw [← h,← String.toList_inj,String.toList_append,String.toList_ofList]
      rfl
    rw [htext]
    obtain rfl := Option.some.inj hparse
    by_cases hh : value hour ≤ 23
    · obtain ⟨hdate,htime⟩ := ofNumbers_within (y := value year) hvalid hh
      obtain ⟨y,mo,d,hmo,hd,hsame,hyears⟩ := @exists_dayNumber (value year) _ _ hvalid.1
        ⟨hvalid.2.1.1,hvalid.2.1.2.trans (by decide)⟩
      rw [hsame] at hdate
      have hcivil := civil_dayNumber hmo hd
      rw [slice_eq_stamp_iff hyear hmonth hday hhour hminute hsecond (hdate ▸ hcivil) (by omega) hmo.2
        (day_le hd).1,htime]
      constructor
      · rintro ⟨rfl,rfl,rfl,-⟩
        exact ⟨hd.2,by omega⟩
      · rintro ⟨hlast,-⟩
        have hself := @civil_dayNumber (value year) _ _ hvalid.1 ⟨hvalid.2.1.1,hlast⟩
        rw [hsame,hcivil] at hself
        obtain ⟨-,-,hminute59,hsecond59,-⟩ := hvalid
        cases hself
        refine ⟨rfl,rfl,rfl,?_,?_,?_⟩ <;> omega
    · obtain ⟨hdate,htime⟩ := ofNumbers_end (y := value year) hvalid hh
      obtain ⟨y,mo,d,hmo,hd,hsame,hyears⟩ := @exists_dayNumber (value year) _ _ hvalid.1
        ⟨Nat.le_add_left 1 _,Nat.succ_le_succ hvalid.2.1.2⟩
      rw [hsame] at hdate
      rw [slice_eq_stamp_iff hyear hmonth hday hhour hminute hsecond
        (hdate ▸ civil_dayNumber hmo hd) (by omega) hmo.2 (day_le hd).1,htime]
      constructor
      · rintro ⟨-,-,-,hzero,-⟩
        omega
      · rintro ⟨-,hne⟩
        obtain ⟨-,-,-,-,h23 | ⟨h24,-⟩⟩ := hvalid
        · exact absurd h23 hh
        · exact absurd h24 hne
  · rw [if_neg hvalid] at hparse
    cases hparse

end stamp

example : Date.parse (fun _ => none) "2024-02-30T24:00:00Z" = some ⟨1709337600000⟩ := by decide

end Zatca
