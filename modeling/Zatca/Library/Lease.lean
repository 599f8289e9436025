import Mathlib.Data.Option.Basic
set_option autoImplicit false

/-! Timed claims on one slot. The slot knows when its entry expires and not whose entry it is; the
log of the calls on it does. -/

namespace Lease

inductive Act where
  | grant (expires : Int)
  /-- Overwrites the entry under a new expiry. -/
  | renew (expires : Int)
  | drop
  deriving DecidableEq, Repr

/-- Who did what, newest first. -/
abbrev Log := List (Nat × Act)

def Act.expiry : Act → Option Int
  | grant e | renew e => some e
  | drop => none

/-- When the entry that `p` wrote last would expire. -/
def tenure (p : Nat) : Log → Option Int
  | [] => none
  | (q,a) :: log => if q = p then a.expiry else tenure p log

/-- The last expiry that `p` was granted or renewed, whether it has dropped the entry since or not. -/
def window (p : Nat) : Log → Option Int
  | [] => none
  | (q,a) :: log => if q = p then a.expiry <|> window p log else window p log

/-- The claim that `p` was granted and has neither renewed nor dropped. -/
def claim (p : Nat) : Log → Option Int
  | [] => none
  | (q,a) :: log =>
      if q = p then (match a with | .grant e => some e | _ => none) else claim p log

/-- Who was granted the slot last. -/
def latest : Log → Option Nat
  | [] => none
  | (q,.grant _) :: _ => some q
  | (_,.renew _) :: log | (_,.drop) :: log => latest log

theorem tenure_of_claim {p : Nat} {e : Int} {log : Log} (h : claim p log = some e) :
    tenure p log = some e := by
  induction log with
  | nil => cases h
  | cons l log ih =>
    obtain ⟨q,a⟩ := l
    simp only [claim,tenure] at h ⊢
    split at h
    · rename_i hq
      rw [if_pos hq]
      cases a with
      | grant e' => exact h
      | renew e' => cases h
      | drop => cases h
    · rename_i hq
      rw [if_neg hq]
      exact ih h

theorem tenure_eq_window {p : Nat} {log : Log} (h : (p,.drop) ∉ log) :
    tenure p log = window p log := by
  induction log with
  | nil => rfl
  | cons l log ih =>
    obtain ⟨q,a⟩ := l
    simp only [List.mem_cons,not_or] at h
    simp only [tenure,window,ih h.2]
    split
    · rename_i hq
      subst hq
      cases a with
      | grant e => rfl
      | renew e => rfl
      | drop => exact absurd rfl h.1
    · rfl

/-- A tenure that has not run out is the entry in the slot, and its holder the last grantee. -/
def Fenced (slot : Option Int) (now : Int) (log : Log) : Prop :=
  ∀ p e, tenure p log = some e → now < e → latest log = some p ∧ slot = some e

/-- Whoever acts on the slot then acts on an entry of its own, or on none. -/
def MayAct (slot : Option Int) (now : Int) (log : Log) (p : Nat) : Prop :=
  (∃ e ∈ tenure p log, now < e) ∨ latest log = some p ∨ slot = none

instance (slot : Option Int) (now : Int) (log : Log) (p : Nat) :
    Decidable (MayAct slot now log p) := by
  unfold MayAct
  infer_instance

namespace Fenced

variable {slot slot' : Option Int} {now now' : Int} {log : Log} {p q : Nat} {e e' : Int}

theorem nil (slot : Option Int) (now : Int) : Fenced slot now [] := by
  intro p e h
  cases h

theorem later (h : Fenced slot now log) (hn : now ≤ now') : Fenced slot now' log := by
  intro p e hp he
  exact h p e hp (by omega)

theorem holder_unique (h : Fenced slot now log) (hp : tenure p log = some e)
    (hq : tenure q log = some e') (he : now < e) (he' : now < e') : p = q := by
  have h₁ := (h p e hp he).1
  have h₂ := (h q e' hq he').1
  simpa [h₁] using h₂

/-- Where the slot is free, every tenure has run out. -/
theorem expired (h : Fenced slot now log) (hfree : ∀ e ∈ slot, e ≤ now)
    (hp : tenure p log = some e) : e ≤ now := by
  by_contra hlt
  have := hfree e (h p e hp (by omega)).2
  omega

theorem grant (h : Fenced slot now log) (hfree : ∀ e ∈ slot, e ≤ now) :
    Fenced (some e) now ((p,.grant e) :: log) := by
  intro q e' hq he'
  simp only [tenure] at hq
  split at hq
  · rename_i hpq
    subst hpq
    cases hq
    exact ⟨rfl,rfl⟩
  · have := h.expired hfree hq
    omega

theorem own_or_none (h : Fenced slot now log) (hp : MayAct slot now log p) :
    latest log = some p ∨ slot = none := by
  rcases hp with ⟨e,he,hlt⟩ | hp
  · exact .inl (h p e he hlt).1
  · exact hp

theorem renew (h : Fenced slot now log) (hp : latest log = some p) :
    Fenced (some e) now ((p,.renew e) :: log) := by
  intro q e' hq he'
  simp only [tenure] at hq
  split at hq
  · rename_i hpq
    subst hpq
    cases hq
    exact ⟨hp,rfl⟩
  · rename_i hpq
    have := (h q e' hq he').1
    rw [hp,Option.some.injEq] at this
    exact absurd this hpq

theorem drop (h : Fenced slot now log) (hp : latest log = some p ∨ slot = none) :
    Fenced slot' now ((p,.drop) :: log) := by
  intro q e' hq he'
  simp only [tenure] at hq
  split at hq
  · cases hq
  · rename_i hpq
    obtain ⟨h₁,h₂⟩ := h q e' hq he'
    rcases hp with hp | hp
    · rw [hp,Option.some.injEq] at h₁
      exact absurd h₁ hpq
    · rw [hp] at h₂
      cases h₂

end Fenced
end Lease
