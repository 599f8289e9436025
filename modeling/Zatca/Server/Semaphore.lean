import Zatca.Core.NumberLength
import Zatca.Library.Pool
set_option autoImplicit false

/-! The counting semaphore in front of the onboarding routes. -/

namespace Zatca
open Pool (Dispenser Event Runs outstanding)

/-- The variables that the methods close over, and for every release function that was returned
its own `released`. Grants are counted exactly. -/
structure Semaphore where
  capacity : Nat
  positive : 0 < capacity
  count : Int
  released : List Bool

def badCapacity (capacity : JsNumber) : Thrown :=
  .error ("Semaphore capacity must be a positive integer; got " ++ capacity.toString ++ ".")

theorem toNat_num_pos {x : ℚ} (h : 0 < x ∧ x.den = 1) : 0 < x.num.toNat := by
  have hnum := Rat.num_pos.2 h.1
  omega

def createSemaphore (capacity : JsNumber) : Except Thrown Semaphore :=
  match capacity with
  | .finite x _ _ =>
      if h : 0 < x ∧ x.den = 1 then
        .ok
          { capacity := x.num.toNat
            positive := toNat_num_pos h
            count := 0
            released := [] }
      else .error (badCapacity capacity)
  | _ => .error (badCapacity capacity)

namespace Semaphore

/-- The number of a release function is its place among those that were returned. -/
def tryAcquire (s : Semaphore) : Option Nat × Semaphore :=
  if s.count ≥ s.capacity then (none,s)
  else (some s.released.length,{ s with count := s.count + 1, released := s.released ++ [false] })

def release (fn : Nat) (s : Semaphore) : Semaphore :=
  if s.released[fn]? = some false then
    { s with count := s.count - 1, released := s.released.set fn true }
  else s

def inFlight (s : Semaphore) : Int := s.count

def dispenser : Dispenser Semaphore := ⟨tryAcquire,release⟩

/-- The semaphore as a pool: it counts the tickets held, and a function is released when its
ticket is not held. -/
structure Represents (s : Semaphore) (p : Pool) : Prop where
  capacity : s.capacity = p.capacity
  count : s.count = p.held.card
  next : s.released.length = p.next
  released : ∀ fn, s.released[fn]? = some false ↔ fn ∈ p.held

theorem Represents.free_iff {s : Semaphore} {p : Pool} (h : Represents s p) :
    ¬ s.count ≥ s.capacity ↔ p.held.card < p.capacity := by
  rw [h.count,h.capacity]
  omega

theorem Represents.tryAcquire {s : Semaphore} {p : Pool} (h : Represents s p) :
    s.tryAcquire.1 = p.take.1 ∧ Represents s.tryAcquire.2 p.take.2 := by
  by_cases hfull : s.count ≥ s.capacity
  · have hpool : ¬ p.held.card < p.capacity := fun hlt => h.free_iff.2 hlt hfull
    rw [Semaphore.tryAcquire,if_pos hfull,Pool.take_of_full hpool]
    exact ⟨rfl,h⟩
  · obtain ⟨hticket,hheld,hnext⟩ := Pool.take_of_lt (h.free_iff.1 hfull)
    rw [Semaphore.tryAcquire,if_neg hfull]
    refine ⟨by rw [hticket,h.next],?_,?_,?_,?_⟩
    · rw [Pool.capacity_take]
      exact h.capacity
    · have hcard := Finset.card_insert_of_notMem p.next_notMem
      have hcount := h.count
      rw [hheld]
      simp only
      omega
    · have hlength := h.next
      rw [hnext]
      simp [hlength]
    · intro fn
      rw [hheld,Finset.mem_insert,← h.next,← h.released]
      by_cases hlt : fn < s.released.length
      · have hne : fn ≠ s.released.length := by omega
        simp [List.getElem?_append_left hlt,hne]
      · rw [List.getElem?_append_right (by omega),List.getElem?_eq_none (by omega : _ ≤ fn)]
        by_cases heq : fn = s.released.length
        · simp [heq]
        · have hpos : fn - s.released.length ≠ 0 := by omega
          simp [heq,hpos]

theorem Represents.release {s : Semaphore} {p : Pool} (h : Represents s p) (fn : Nat) :
    Represents (s.release fn) (p.giveBack fn) := by
  by_cases hheld : fn ∈ p.held
  · have hcard := Finset.card_erase_of_mem hheld
    have hpos := Finset.card_pos.2 ⟨fn,hheld⟩
    have hcount := h.count
    have hlt : fn < s.released.length := (List.getElem?_eq_some_iff.1 ((h.released fn).2 hheld)).1
    rw [Semaphore.release,if_pos ((h.released fn).2 hheld)]
    constructor
    · exact h.capacity
    · simp only [Pool.giveBack]
      omega
    · simp only [List.length_set]
      exact h.next
    · intro n
      simp only [Pool.giveBack,Finset.mem_erase,← h.released]
      by_cases hn : n = fn
      · subst hn
        simp [hlt]
      · have hne : fn ≠ n := fun heq => hn heq.symm
        simp [hn,hne]
  · rw [Semaphore.release,if_neg (fun hopen => hheld ((h.released fn).1 hopen))]
    constructor
    · exact h.capacity
    · simp only [Pool.giveBack,Finset.erase_eq_of_notMem hheld]
      exact h.count
    · exact h.next
    · simp only [Pool.giveBack,Finset.erase_eq_of_notMem hheld]
      exact h.released

/-- The capacity of a semaphore is the number it was made with. -/
theorem createSemaphore_eq_ok {capacity : JsNumber} {s : Semaphore}
    (h : createSemaphore capacity = .ok s) : ∃ w hw, capacity = .finite s.capacity w hw := by
  unfold createSemaphore at h
  split at h
  · rename_i x w hw
    split at h
    · rename_i hwhole
      cases h
      have hnum := Rat.num_pos.2 hwhole.1
      have hx : ((x.num.toNat : ℕ) : ℚ) = x := by
        rw [← Int.cast_natCast,Int.toNat_of_nonneg (by omega)]
        exact (Rat.den_eq_one_iff x).1 hwhole.2
      exact ⟨w,hw,by rw [hx]⟩
    · cases h
  · cases h

theorem represents_create {capacity : JsNumber} {s : Semaphore}
    (h : createSemaphore capacity = .ok s) : Represents s (Pool.empty s.capacity) := by
  unfold createSemaphore at h
  split at h
  · split at h
    · cases h
      exact ⟨rfl,rfl,rfl,by simp [Pool.empty]⟩
    · cases h
  · cases h

/-- Every run of the semaphore is one of the pool. -/
theorem runs_represents {s₀ s : Semaphore} {p₀ : Pool} (h₀ : Represents s₀ p₀) {es : List Event}
    (h : Runs dispenser s₀ es s) : ∃ p, Runs Pool.dispenser p₀ es p ∧ Represents s p :=
  h.simulated Represents h₀ (fun _ _ hR => hR.tryAcquire) fun fn _ _ hR => hR.release fn

/-- The count is the number of grants that are not released, within the capacity, and the next
call is granted exactly when it is below. -/
theorem accounts {capacity : JsNumber} {s₀ s : Semaphore} (h₀ : createSemaphore capacity = .ok s₀)
    {es : List Event} (h : Runs dispenser s₀ es s) :
    s.inFlight = (outstanding es).length ∧ 0 ≤ s.inFlight ∧ s.inFlight ≤ s₀.capacity ∧
      (s.tryAcquire.1.isSome ↔ (outstanding es).length < s₀.capacity) := by
  obtain ⟨p,hruns,hrep⟩ := runs_represents (represents_create h₀) h
  have hcard := Pool.card_held hruns
  have hcapacity : p.capacity = s₀.capacity := hruns.kept.capacity_eq
  have hcount := hrep.count
  have hfits := p.fits
  have hgrant : s.tryAcquire.1.isSome ↔ p.held.card < p.capacity := by
    rw [hrep.tryAcquire.1]
    by_cases hfree : p.held.card < p.capacity
    · simp [(Pool.take_of_lt hfree).1,hfree]
    · simp [Pool.take_of_full hfree,hfree]
  rw [hgrant,inFlight,hcard,hcapacity]
  refine ⟨by omega,by omega,by omega,Iff.rfl⟩

end Semaphore
end Zatca
