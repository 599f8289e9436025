import Mathlib.Data.List.Chain
import Mathlib.Data.List.Nodup
import Mathlib.Data.List.Sort
set_option autoImplicit false

/-! Documents that commit to their predecessor's digest. -/

namespace HashChain

variable {α H : Type} (prev hash : α → H) (base : H)

/-- The first document names the base digest, every later one the digest of the one before. -/
def Linked (l : List α) : Prop :=
  (∀ a ∈ l.head?, prev a = base) ∧ l.IsChain (fun a b => prev b = hash a)

instance [DecidableEq H] (l : List α) : Decidable (Linked prev hash base l) :=
  inferInstanceAs (Decidable (_ ∧ _))

def head (l : List α) : H := (l.getLast?.map hash).getD base

@[simp] theorem head_nil : head hash base [] = base := rfl

@[simp] theorem head_concat (l : List α) (a : α) : head hash base (l ++ [a]) = hash a := by
  simp [head]

@[simp] theorem linked_nil : Linked prev hash base [] := by simp [Linked]

/-- A chain grows by the documents that name its head. -/
theorem linked_concat (l : List α) (a : α) :
    Linked prev hash base (l ++ [a]) ↔ Linked prev hash base l ∧ prev a = head hash base l := by
  rcases List.eq_nil_or_concat l with rfl | ⟨l,b,rfl⟩
  · simp [Linked]
  · simp only [List.concat_eq_append,Linked,head_concat]
    rw [List.isChain_append]
    simp [and_assoc]

theorem dropLast_cons_map (l : List α) :
    (base :: l.map hash).dropLast ++ [head hash base l] = base :: l.map hash := by
  rcases List.eq_nil_or_concat l with rfl | ⟨l,b,rfl⟩
  · rfl
  · rw [List.concat_eq_append,head_concat,List.map_append,List.map_singleton,← List.cons_append,
      List.dropLast_concat]

/-- The digests a chain names are the base digest and its own digests, one place later. -/
theorem map_prev_of_linked {l : List α} (h : Linked prev hash base l) :
    l.map prev = (base :: l.map hash).dropLast := by
  induction l using List.reverseRecOn with
  | nil => rfl
  | append_singleton l c ih =>
    rw [linked_concat] at h
    rw [List.map_append,ih h.1,List.map_singleton,h.2,dropLast_cons_map,List.map_append,
      List.map_singleton,← List.cons_append,List.dropLast_concat]

/-- Without digest collisions no digest is named twice: a chain does not fork. -/
theorem nodup_prev_of_linked {l : List α} (h : Linked prev hash base l)
    (hinj : (l.map hash).Nodup) (hbase : ∀ a ∈ l, hash a ≠ base) : (l.map prev).Nodup := by
  rw [map_prev_of_linked prev hash base h]
  refine List.Nodup.sublist (List.dropLast_sublist _) (List.nodup_cons.2 ⟨?_,hinj⟩)
  intro hm
  obtain ⟨a,ha,hab⟩ := List.mem_map.1 hm
  exact hbase a ha hab

end HashChain
