import Mathlib.Data.Finset.Card
set_option autoImplicit false

/-! Places that are handed out by ticket: a ticket may be given back any number of times, and only
the first time counts. -/

namespace Pool

/-- A state that hands out numbered tickets and takes them back. -/
structure Dispenser (σ : Type) where
  take : σ → Option Nat × σ
  giveBack : Nat → σ → σ

inductive Event where
  | take (ticket : Option Nat)
  | giveBack (ticket : Nat)
  deriving DecidableEq, Repr

variable {σ τ : Type}

/-- Any calls in any order, of which only tickets that were handed out can be given back. -/
inductive Runs (d : Dispenser σ) (s₀ : σ) : List Event → σ → Prop
  | start : Runs d s₀ [] s₀
  | take {es : List Event} {s : σ} : Runs d s₀ es s →
      Runs d s₀ (es ++ [.take (d.take s).1]) (d.take s).2
  | giveBack {es : List Event} {s : σ} {t : Nat} : Runs d s₀ es s → .take (some t) ∈ es →
      Runs d s₀ (es ++ [.giveBack t]) (d.giveBack t s)

/-- A dispenser that another one follows step by step has no events that the other has not. -/
theorem Runs.simulated {d : Dispenser σ} {d' : Dispenser τ} (R : σ → τ → Prop) {s₀ : σ} {t₀ : τ}
    (h₀ : R s₀ t₀) (htake : ∀ s t, R s t → (d.take s).1 = (d'.take t).1 ∧ R (d.take s).2 (d'.take t).2)
    (hgive : ∀ n s t, R s t → R (d.giveBack n s) (d'.giveBack n t)) {es : List Event} {s : σ}
    (h : Runs d s₀ es s) : ∃ t, Runs d' t₀ es t ∧ R s t := by
  induction h with
  | start => exact ⟨t₀,.start,h₀⟩
  | take _ ih =>
    obtain ⟨t,ht,hR⟩ := ih
    obtain ⟨hticket,hnext⟩ := htake _ _ hR
    rw [hticket]
    exact ⟨_,.take ht,hnext⟩
  | giveBack _ hmem ih =>
    obtain ⟨t,ht,hR⟩ := ih
    exact ⟨_,.giveBack ht hmem,hgive _ _ _ hR⟩

/-- The tickets that were handed out. -/
def granted (es : List Event) : List Nat :=
  es.filterMap fun e => match e with
    | .take ticket => ticket
    | .giveBack _ => none

/-- Those that have not been given back. -/
def outstanding (es : List Event) : List Nat := (granted es).filter fun t => .giveBack t ∉ es

@[simp] theorem mem_granted {es : List Event} {t : Nat} : t ∈ granted es ↔ .take (some t) ∈ es := by
  rw [granted,List.mem_filterMap]
  constructor
  · rintro ⟨e,he,ht⟩
    cases e with
    | take ticket =>
      cases ht
      exact he
    | giveBack n => cases ht
  · intro h
    exact ⟨_,h,rfl⟩

theorem mem_outstanding {es : List Event} {t : Nat} :
    t ∈ outstanding es ↔ .take (some t) ∈ es ∧ .giveBack t ∉ es := by
  simp [outstanding]

theorem granted_append (es es' : List Event) : granted (es ++ es') = granted es ++ granted es' :=
  List.filterMap_append

@[simp] theorem granted_take (es : List Event) (ticket : Option Nat) :
    granted (es ++ [.take ticket]) = granted es ++ ticket.toList := by
  rw [granted_append]
  cases ticket with
  | none => rfl
  | some t => rfl

@[simp] theorem granted_giveBack (es : List Event) (t : Nat) :
    granted (es ++ [.giveBack t]) = granted es := by
  rw [granted_append]
  exact List.append_nil _

end Pool

/-- A pool with places for `capacity` tickets at a time. -/
structure Pool where
  capacity : Nat
  next : Nat
  held : Finset Nat
  fits : held.card ≤ capacity
  old : ∀ t ∈ held, t < next

namespace Pool

def empty (capacity : Nat) : Pool where
  capacity
  next := 0
  held := ∅
  fits := Nat.zero_le _
  old := by simp

def take (p : Pool) : Option Nat × Pool :=
  if h : p.held.card < p.capacity then
    (some p.next,
      { capacity := p.capacity
        next := p.next + 1
        held := insert p.next p.held
        fits := by
          have hcard := Finset.card_insert_le p.next p.held
          omega
        old := by
          intro t ht
          rcases Finset.mem_insert.1 ht with rfl | hmem
          · omega
          · have := p.old t hmem
            omega })
  else (none,p)

def giveBack (t : Nat) (p : Pool) : Pool where
  capacity := p.capacity
  next := p.next
  held := p.held.erase t
  fits := (Finset.card_erase_le).trans p.fits
  old := fun n hn => p.old n (Finset.mem_of_mem_erase hn)

def dispenser : Dispenser Pool := ⟨take,giveBack⟩

theorem take_of_lt {p : Pool} (h : p.held.card < p.capacity) : p.take.1 = some p.next ∧
    p.take.2.held = insert p.next p.held ∧ p.take.2.next = p.next + 1 := by
  simp [take,h]

theorem take_of_full {p : Pool} (h : ¬ p.held.card < p.capacity) : p.take = (none,p) := by
  simp [take,h]

theorem next_notMem (p : Pool) : p.next ∉ p.held := fun h => Nat.lt_irrefl _ (p.old _ h)

@[simp] theorem capacity_take (p : Pool) : p.take.2.capacity = p.capacity := by
  unfold take
  split <;> rfl

/-- What a run knows of the tickets: they were handed out in turn, and those that are held are
those that are outstanding. -/
structure Kept (capacity : Nat) (es : List Event) (p : Pool) : Prop where
  capacity_eq : p.capacity = capacity
  nodup : (granted es).Nodup
  below : ∀ t ∈ granted es, t < p.next
  given : ∀ t, .giveBack t ∈ es → t < p.next
  held : ∀ t, t ∈ p.held ↔ t ∈ outstanding es

theorem Kept.take {capacity : Nat} {es : List Event} {p : Pool} (h : Kept capacity es p) :
    Kept capacity (es ++ [.take p.take.1]) p.take.2 := by
  by_cases hfree : p.held.card < p.capacity
  · obtain ⟨hticket,hheld,hnext⟩ := take_of_lt hfree
    have hnew : p.next ∉ granted es := fun hm => Nat.lt_irrefl _ (h.below _ hm)
    have hback : .giveBack p.next ∉ es := fun hm => Nat.lt_irrefl _ (h.given _ hm)
    have hgranted : granted (es ++ [.take p.take.1]) = granted es ++ [p.next] := by
      rw [granted_take,hticket]
      rfl
    constructor
    · rw [capacity_take,h.capacity_eq]
    · rw [hgranted]
      exact h.nodup.append (List.nodup_singleton _) (List.disjoint_singleton.2 hnew)
    · intro t ht
      rw [hgranted,List.mem_append,List.mem_singleton] at ht
      rw [hnext]
      rcases ht with ht | rfl
      · have := h.below t ht
        omega
      · omega
    · intro t ht
      have hmem : .giveBack t ∈ es := by simpa using ht
      have := h.given t hmem
      omega
    · intro t
      rw [hheld,Finset.mem_insert,h.held,mem_outstanding,mem_outstanding,hticket]
      by_cases ht : t = p.next
      · subst ht
        simp [hback]
      · simp [ht]
  · rw [take_of_full hfree]
    constructor
    · exact h.capacity_eq
    · simpa using h.nodup
    · simpa using h.below
    · simpa using h.given
    · intro t
      rw [h.held,mem_outstanding,mem_outstanding]
      simp

theorem Kept.giveBack {capacity : Nat} {es : List Event} {p : Pool} (h : Kept capacity es p)
    {t : Nat} (ht : .take (some t) ∈ es) : Kept capacity (es ++ [.giveBack t]) (p.giveBack t) := by
  constructor
  · exact h.capacity_eq
  · rw [granted_giveBack]
    exact h.nodup
  · rw [granted_giveBack]
    exact h.below
  · intro n hn
    rw [List.mem_append,List.mem_singleton,Event.giveBack.injEq] at hn
    rcases hn with hn | rfl
    · exact h.given n hn
    · exact h.below n (mem_granted.2 ht)
  · intro n
    simp only [Pool.giveBack,Finset.mem_erase,h.held,mem_outstanding,List.mem_append,
      List.mem_singleton,Event.giveBack.injEq,reduceCtorEq,or_false,not_or]
    tauto

theorem Runs.kept {capacity : Nat} {es : List Event} {p : Pool}
    (h : Runs dispenser (empty capacity) es p) : Kept capacity es p := by
  induction h with
  | start =>
    constructor
    · rfl
    · simp [granted]
    · simp [granted]
    · simp
    · simp [empty,outstanding,granted]
  | take _ ih => exact ih.take
  | giveBack _ hmem ih => exact ih.giveBack hmem

/-- The places taken are the tickets outstanding. -/
theorem card_held {capacity : Nat} {es : List Event} {p : Pool}
    (h : Runs dispenser (empty capacity) es p) : p.held.card = (outstanding es).length := by
  have hkept := h.kept
  have hheld : p.held = (outstanding es).toFinset := by
    ext t
    rw [hkept.held,List.mem_toFinset]
  rw [hheld,outstanding,List.toFinset_card_of_nodup (hkept.nodup.filter _)]

end Pool
