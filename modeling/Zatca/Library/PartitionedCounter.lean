import Mathlib.Data.List.Basic
import Mathlib.Logic.Function.Basic
set_option autoImplicit false

/-! A counter kept in partitions: every partition counts for itself, from one, while the numbers
fit. Over the whole counter the numbers ascend only if a single partition is used. -/

namespace PartitionedCounter

variable {κ : Type} [DecidableEq κ] (fits : Nat → Bool)

def tick (k : κ) (c : κ → Nat) : Option Nat × (κ → Nat) :=
  if fits (c k + 1) then (some (c k + 1),Function.update c k (c k + 1)) else (none,c)

/-- The numbers handed out, in the order of the calls. -/
def run : List κ → (κ → Nat) → List Nat
  | [], _ => []
  | k :: ks, c => (tick fits k c).1.toList ++ run ks (tick fits k c).2

variable {fits} {k : κ} {ks : List κ} {c : κ → Nat}

theorem run_of_fits (h : fits (c k + 1)) :
    run fits (k :: ks) c = (c k + 1) :: run fits ks (Function.update c k (c k + 1)) := by
  simp [run,tick,h]

theorem run_of_full (h : fits (c k + 1) = false) : run fits (k :: ks) c = run fits ks c := by
  simp [run,tick,h]

/-- One partition hands its numbers out in ascending order, above the last one. -/
theorem run_ascending (hk : ∀ l ∈ ks, l = k) :
    (run fits ks c).Pairwise (· < ·) ∧ ∀ n ∈ run fits ks c, c k < n := by
  induction ks generalizing c with
  | nil => simp [run]
  | cons l ks ih =>
    have hl : l = k := hk l List.mem_cons_self
    subst hl
    have ih (c' : κ → Nat) := @ih c' (fun l' hl' => hk l' (List.mem_cons_of_mem _ hl'))
    cases hf : fits (c l + 1) with
    | false =>
      rw [run_of_full hf]
      exact ih c
    | true =>
      have hnext := ih (Function.update c l (c l + 1))
      rw [Function.update_self] at hnext
      rw [run_of_fits hf]
      constructor
      · exact List.pairwise_cons.2 ⟨hnext.2,hnext.1⟩
      · intro n hn
        rcases List.mem_cons.1 hn with rfl | hn
        · omega
        · have := hnext.2 n hn
          omega

/-- A partition that has not counted yet starts from one, wherever its first call stands. -/
theorem one_mem_run (h1 : fits 1) (hk : k ∈ ks) (hc : c k = 0) : 1 ∈ run fits ks c := by
  induction ks generalizing c with
  | nil => cases hk
  | cons l ks ih =>
    by_cases hl : l = k
    · subst hl
      rw [run_of_fits (by rw [hc]; exact h1),hc]
      exact List.mem_cons_self
    · have hmem : k ∈ ks := (List.mem_cons.1 hk).resolve_left (Ne.symm hl)
      cases hf : fits (c l + 1) with
      | false =>
        rw [run_of_full hf]
        exact ih hmem hc
      | true =>
        rw [run_of_fits hf]
        refine List.mem_cons_of_mem _ (ih hmem ?_)
        rw [Function.update_of_ne (Ne.symm hl)]
        exact hc

/-- From the start, the numbers ascend over the whole run if and only if all calls are on one
partition. -/
theorem run_ascending_iff (h1 : fits 1) (hc : ∀ k, c k = 0) :
    (run fits ks c).Pairwise (· < ·) ↔ ∀ k ∈ ks, ∀ l ∈ ks, k = l := by
  cases ks with
  | nil => simp [run]
  | cons k ks =>
    have hone : fits (c k + 1) := by rw [hc]; exact h1
    constructor
    · intro h
      rw [run_of_fits hone,hc,List.pairwise_cons] at h
      have hall : ∀ l ∈ k :: ks, l = k := by
        intro l hl
        by_contra hne
        have hmem : l ∈ ks := (List.mem_cons.1 hl).resolve_left hne
        have hl1 := @one_mem_run _ _ fits l ks (Function.update c k (0+1)) h1 hmem
          (by rw [Function.update_of_ne hne]; exact hc l)
        have := h.1 1 hl1
        omega
      intro l hl l' hl'
      rw [hall l hl,hall l' hl']
    · intro h
      exact (run_ascending (k := k) fun l hl => h l hl k List.mem_cons_self).1

end PartitionedCounter
