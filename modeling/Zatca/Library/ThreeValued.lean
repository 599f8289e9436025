import Mathlib.Logic.Basic
set_option autoImplicit false

/-! Conditions on columns that may be null: what is compared with null is neither true nor false,
and a row is taken only where the condition is true. -/

namespace ThreeValued

inductive Truth where
  | no
  | unknown
  | yes
  deriving DecidableEq, Repr

namespace Truth

variable {α β : Type}

def and : Truth → Truth → Truth
  | .no, _ | _, .no => .no
  | .yes, .yes => .yes
  | _, _ => .unknown

def or : Truth → Truth → Truth
  | .yes, _ | _, .yes => .yes
  | .no, .no => .no
  | _, _ => .unknown

def ofBool : Bool → Truth
  | true => .yes
  | false => .no

def compare (p : α → β → Bool) : Option α → Option β → Truth
  | some a, some b => ofBool (p a b)
  | _, _ => .unknown

def isNull (a : Option α) : Truth := ofBool a.isNone

/-- The row is taken. -/
def holds : Truth → Bool
  | .yes => true
  | _ => false

@[simp] theorem holds_and (a b : Truth) : (a.and b).holds = (a.holds && b.holds) := by
  cases a <;> cases b <;> rfl

@[simp] theorem holds_or (a b : Truth) : (a.or b).holds = (a.holds || b.holds) := by
  cases a <;> cases b <;> rfl

@[simp] theorem holds_ofBool (b : Bool) : (ofBool b).holds = b := by cases b <;> rfl

@[simp] theorem holds_isNull (a : Option α) : (isNull a).holds = a.isNone := holds_ofBool _

@[simp] theorem holds_compare_some (p : α → β → Bool) (a : α) (b : β) :
    (compare p (some a) (some b)).holds = p a b := holds_ofBool _

@[simp] theorem holds_compare_none (p : α → β → Bool) (b : Option β) :
    (compare p none b).holds = false := by cases b <;> rfl

end Truth
end ThreeValued
