import Zatca.Library.Program
set_option autoImplicit false

/-! Programs that leave the state as it was unless they return. -/

namespace Interaction.Program

variable {S : Signature} {ε α β σ χ : Type} {h : Handler S ε σ χ}

/-- No run of the program moves the state. -/
def ReadOnly (p : Program S ε α) (h : Handler S ε σ χ) : Prop :=
  ∀ script s, (p.exec h script s).2 = s

/-- A run that throws leaves the state as it found it. -/
def Atomic (p : Program S ε α) (h : Handler S ε σ χ) : Prop :=
  ∀ script s e s', p.exec h script s = (.error e,s') → s' = s

theorem ReadOnly.exec_eq {p : Program S ε α} (hp : p.ReadOnly h) {script : Nat → χ} {s s' : σ}
    {r : Except ε α} (he : p.exec h script s = (r,s')) : s' = s := by
  have hs := hp script s
  rw [he] at hs
  exact hs

theorem readOnly_ofExcept (x : Except ε α) : (ofExcept x : Program S ε α).ReadOnly h := by
  intro script s
  simp

theorem readOnly_perform {o : S.Op} (ho : ∀ c s, (h o c s).2 = s) : (perform o).ReadOnly h := by
  intro script s
  rw [exec_perform]
  exact ho _ _

theorem atomic_perform {o : S.Op} (ho : ∀ c s e s', h o c s = (.error e,s') → s' = s) :
    (perform o).Atomic h := by
  intro script s e s' he
  rw [exec_perform] at he
  exact ho _ _ _ _ he

theorem ReadOnly.bind_atomic {p : Program S ε α} {f : α → Program S ε β} (hp : p.ReadOnly h)
    (hf : ∀ a, (f a).Atomic h) : (p.bind f).Atomic h := by
  intro script s e s' he
  rw [exec_bind] at he
  cases hx : p.exec h script s with
  | mk r t =>
    have ht : t = s := hp.exec_eq hx
    rw [hx,ht] at he
    cases r with
    | error e' =>
      cases he
      rfl
    | ok a => exact hf a _ _ _ _ he

/-- What comes after the last effect must not throw. -/
theorem Atomic.map {p : Program S ε α} (hp : p.Atomic h) (f : α → β) :
    (p.bind (fun a => .ret (f a))).Atomic h := by
  intro script s e s' he
  rw [exec_bind] at he
  cases hx : p.exec h script s with
  | mk r t =>
    rw [hx] at he
    cases r with
    | error e' =>
      cases he
      exact hp _ _ _ _ hx
    | ok a => cases he

end Interaction.Program
