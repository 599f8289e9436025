import Mathlib.Data.Rat.Defs
import Zatca.Library.Trim
set_option autoImplicit false

/-! The values of the language the library is written in, as far as its logic looks into them. -/

namespace Zatca

/-- An object keeps the order in which its keys were written. -/
inductive Json where
  | null
  | bool (b : Bool)
  | num (q : ℚ)
  | str (s : String)
  | arr (xs : List Json)
  | obj (fields : List (String × Json))

namespace Json

mutual
def decEq : (a b : Json) → Decidable (a = b)
  | .null, .null => isTrue rfl
  | .bool a, .bool b => decidable_of_iff (a = b) (by simp)
  | .num a, .num b => decidable_of_iff (a = b) (by simp)
  | .str a, .str b => decidable_of_iff (a = b) (by simp)
  | .arr a, .arr b => @decidable_of_iff _ (a = b) (by simp) (decEqList a b)
  | .obj a, .obj b => @decidable_of_iff _ (a = b) (by simp) (decEqFields a b)
  | .null, .bool _ | .null, .num _ | .null, .str _ | .null, .arr _ | .null, .obj _
  | .bool _, .null | .bool _, .num _ | .bool _, .str _ | .bool _, .arr _ | .bool _, .obj _
  | .num _, .null | .num _, .bool _ | .num _, .str _ | .num _, .arr _ | .num _, .obj _
  | .str _, .null | .str _, .bool _ | .str _, .num _ | .str _, .arr _ | .str _, .obj _
  | .arr _, .null | .arr _, .bool _ | .arr _, .num _ | .arr _, .str _ | .arr _, .obj _
  | .obj _, .null | .obj _, .bool _ | .obj _, .num _ | .obj _, .str _ | .obj _, .arr _ =>
      isFalse (by simp)
def decEqList : (a b : List Json) → Decidable (a = b)
  | [], [] => isTrue rfl
  | [], _ :: _ | _ :: _, [] => isFalse (by simp)
  | a :: as, b :: bs =>
      @decidable_of_iff _ (a = b ∧ as = bs) (by simp)
        (@instDecidableAnd _ _ (decEq a b) (decEqList as bs))
def decEqFields : (a b : List (String × Json)) → Decidable (a = b)
  | [], [] => isTrue rfl
  | [], _ :: _ | _ :: _, [] => isFalse (by simp)
  | (k,a) :: as, (l,b) :: bs =>
      @decidable_of_iff _ (k = l ∧ a = b ∧ as = bs) (by simp [and_assoc])
        (@instDecidableAnd _ _ inferInstance (@instDecidableAnd _ _ (decEq a b) (decEqFields as bs)))
end

instance : DecidableEq Json := decEq

/-- A field of an object; other values have none. -/
def field (name : String) : Json → Option Json
  | .obj fields => fields.lookup name
  | _ => none

end Json

/-- A field that is left out when it is `undefined`. -/
def optionalField (key : String) (value : Option Json) : List (String × Json) :=
  value.toList.map (fun v => (key,v))

/-- A valid `Date`: milliseconds since the epoch, UTC. -/
structure Date where
  getTime : Int
  deriving DecidableEq, Repr

namespace Date

/-- Proleptic Gregorian year and month, counted in eras of 400 years from the first of March. -/
def civil (d : Date) : Int × Nat :=
  let z := d.getTime.fdiv 86400000 + 719468
  let era := z.fdiv 146097
  let doe := (z - era*146097).toNat
  let yoe := (doe - doe/1460 + doe/36524 - doe/146096)/365
  let doy := doe - (365*yoe + yoe/4 - yoe/100)
  let mp := (5*doy+2)/153
  let m := if mp < 10 then mp+3 else mp-9
  (yoe + era*400 + (if m ≤ 2 then 1 else 0),m)

def getUTCFullYear (d : Date) : Int := d.civil.1

/-- `getUTCMonth() + 1`. -/
def utcMonth (d : Date) : Nat := d.civil.2

def addMs (d : Date) (ms : Nat) : Date := ⟨d.getTime + ms⟩

/-- Day of the month; the months from March on start every `153/5` days. -/
def dayOfMonth (d : Date) : Nat :=
  let z := d.getTime.fdiv 86400000 + 719468
  let doe := (z - z.fdiv 146097 * 146097).toNat
  let yoe := (doe - doe/1460 + doe/36524 - doe/146096)/365
  let doy := doe - (365*yoe + yoe/4 - yoe/100)
  doy - (153*((5*doy+2)/153)+2)/5 + 1

example : (Date.mk 1778668800000).civil = (2026,5) := by decide
example : (Date.mk (-1)).civil = (1969,12) := by decide

end Date

theorem toString_nat_inj {m n : Nat} (h : toString m = toString n) : m = n := by
  have hd : Nat.toDigits 10 m = Nat.toDigits 10 n := by
    simpa [Nat.toString_eq_repr,Nat.repr] using congrArg String.toList h
  rw [← Nat.ofDigitChars_ten_toDigits (n := m),hd,Nat.ofDigitChars_ten_toDigits]

def padStart (s : String) (n : Nat) (c : Char) : String :=
  String.ofList (List.replicate (n - s.length) c) ++ s

/-- `s.length`: code units of UTF-16. -/
def utf16Length (s : String) : Nat :=
  s.toList.foldl (fun n c => n + if c.val > 0xFFFF then 2 else 1) 0

/-- The white space and line terminators of ECMAScript. -/
def isJsSpace (c : Char) : Bool :=
  c.val ∈ [0x9,0xA,0xB,0xC,0xD,0x20,0xA0,0x1680,0x2028,0x2029,0x202F,0x205F,0x3000,0xFEFF] ||
    (0x2000 ≤ c.val && c.val ≤ 0x200A)

/-- Between the blank and the no-break space there is no white space. -/
theorem isJsSpace_of_bounds {c : Char} (h : 0x20 < c.val ∧ c.val < 0xA0) : isJsSpace c = false := by
  have hlist : ∀ v ∈ ([0x9,0xA,0xB,0xC,0xD,0x20,0xA0,0x1680,0x2028,0x2029,0x202F,0x205F,0x3000,
      0xFEFF] : List UInt32), ¬ (0x20 < v ∧ v < 0xA0) := by simp
  rw [isJsSpace,Bool.or_eq_false_iff,decide_eq_false_iff_not]
  refine ⟨fun hm => hlist _ hm h,?_⟩
  have hlow : ¬ 0x2000 ≤ c.val := UInt32.not_le.2 (UInt32.lt_trans h.2 (by decide))
  simp [hlow]

theorem charBounds_of_le {a b c : Char} (ha : 0x20 < a.val) (hb : b.val < 0xA0)
    (h : a ≤ c ∧ c ≤ b) : 0x20 < c.val ∧ c.val < 0xA0 :=
  ⟨UInt32.lt_of_lt_of_le ha h.1,UInt32.lt_of_le_of_lt h.2 hb⟩

/-- What is decided at each character of a text, and not at each character there is. -/
theorem forall_mem_of_all {p : Char → Prop} [DecidablePred p] {cs : List Char}
    (h : cs.all (fun c => decide (p c)) = true) : ∀ c ∈ cs, p c := by
  simpa only [List.all_eq_true,decide_eq_true_eq] using h

def isLineTerminator (c : Char) : Bool := c.val ∈ [0xA,0xD,0x2028,0x2029]

def trimChars (cs : List Char) : List Char :=
  ((cs.dropWhile isJsSpace).reverse.dropWhile isJsSpace).reverse

def trim (s : String) : String := String.ofList (trimChars s.toList)

theorem trimChars_of_trimmed {cs : List Char} (h : Trim.Trimmed isJsSpace cs) : trimChars cs = cs :=
  Trim.trim_of_trimmed h

theorem trimmed_trimChars (cs : List Char) : Trim.Trimmed isJsSpace (trimChars cs) :=
  Trim.trimmed_trim cs

/-- Years outside of four digits are written with a sign and six. -/
def Date.toISOString (d : Date) : String :=
  let two (n : Nat) : String := padStart (toString n) 2 '0'
  let year := d.getUTCFullYear
  let yearText :=
    if 0 ≤ year ∧ year ≤ 9999 then padStart (toString year) 4 '0'
    else (if year < 0 then "-" else "+") ++ padStart (toString year.natAbs) 6 '0'
  let ms := (d.getTime.fmod 86400000).toNat
  yearText ++ "-" ++ two d.utcMonth ++ "-" ++ two d.dayOfMonth ++ "T" ++ two (ms/3600000) ++ ":" ++
    two (ms/60000 % 60) ++ ":" ++ two (ms/1000 % 60) ++ "." ++ padStart (toString (ms % 1000)) 3 '0' ++
    "Z"

example : (Date.mk 1778673600123).toISOString = "2026-05-13T12:00:00.123Z" := by decide
example : (Date.mk (-1)).toISOString = "1969-12-31T23:59:59.999Z" := by decide

end Zatca
