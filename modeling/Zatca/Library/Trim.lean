import Mathlib.Data.List.DropRight
set_option autoImplicit false

/-! Lists without the elements of a kind at both ends. -/

namespace Trim

variable {α : Type} (p : α → Bool)

/-- Neither end is of the kind. -/
def Trimmed (xs : List α) : Prop :=
  (∀ x ∈ xs.head?, p x = false) ∧ ∀ x ∈ xs.getLast?, p x = false

abbrev trim (xs : List α) : List α := (xs.dropWhile p).rdropWhile p

variable {p}

theorem dropWhile_of_head {xs : List α} (h : ∀ x ∈ xs.head?, p x = false) :
    xs.dropWhile p = xs := by
  cases xs with
  | nil => rfl
  | cons x xs => exact List.dropWhile_cons_of_neg (by simp [h x rfl])

theorem trim_of_trimmed {xs : List α} (h : Trimmed p xs) : trim p xs = xs := by
  rw [trim,dropWhile_of_head h.1,List.rdropWhile_eq_self_iff]
  intro hne
  simp [h.2 _ (List.getLast?_eq_some_getLast hne)]

theorem trim_leads (xs : List α) : trim p xs <+: xs.dropWhile p := List.rdropWhile_prefix p _

theorem mem_of_mem_trim {x : α} {xs : List α} (h : x ∈ trim p xs) : x ∈ xs :=
  (List.dropWhile_suffix p).subset ((trim_leads xs).subset h)

theorem trim_ne_nil {x : α} {xs : List α} (h : p x = false) : trim p (x :: xs) ≠ [] := by
  rw [trim,List.dropWhile_cons_of_neg (by simp [h]),ne_eq,List.rdropWhile_eq_nil_iff]
  intro hall
  simp [hall x List.mem_cons_self] at h

theorem trimmed_trim (xs : List α) : Trimmed p (trim p xs) := by
  constructor
  · intro x hx
    have hhead : (xs.dropWhile p).head? = some x := by
      obtain ⟨rest,hrest⟩ := trim_leads (p := p) xs
      rw [← hrest,List.head?_append,hx]
      rfl
    have hnot := List.head?_dropWhile_not p xs
    rwa [hhead] at hnot
  · intro x hx
    obtain ⟨rest,hrest⟩ := List.getLast?_eq_some_iff.1 hx
    have hkept : (rest ++ [x]).rdropWhile p = rest ++ [x] := by
      rw [← hrest]
      exact List.rdropWhile_idempotent p _
    have hnot := List.rdropWhile_eq_self_iff.1 hkept (by simp)
    simpa using hnot

theorem Trimmed.of_forall {xs : List α} (h : ∀ x ∈ xs, p x = false) : Trimmed p xs :=
  ⟨fun x hx => h x (List.mem_of_mem_head? hx),fun x hx => h x (List.mem_of_mem_getLast? hx)⟩

end Trim
