import Zatca.Library.Program
set_option autoImplicit false

/-! Calls on an interface one after the other, each answered before the next is made. -/

namespace Interaction.Handler

variable {S : Signature} {ε σ χ : Type} (h : Handler S ε σ χ)

def steps : List (S.Op × χ) → σ → σ
  | [], s => s
  | (o,x) :: l, s => steps l (h o x s).2

@[simp] theorem steps_nil (s : σ) : steps h [] s = s := rfl
@[simp] theorem steps_cons (o : S.Op) (x : χ) (l : List (S.Op × χ)) (s : σ) :
    steps h ((o,x) :: l) s = steps h l (h o x s).2 := rfl

@[simp] theorem steps_append (l m : List (S.Op × χ)) (s : σ) :
    steps h (l ++ m) s = steps h m (steps h l s) := by
  induction l generalizing s with
  | nil => rfl
  | cons c l ih => exact ih _

/-- The call `o` is somewhere in the sequence and is answered there by `a`. -/
def Answered (l : List (S.Op × χ)) (s : σ) (o : S.Op) (a : Except ε (S.Ret o)) : Prop :=
  ∃ pre x post, l = pre ++ (o,x) :: post ∧ (h o x (steps h pre s)).1 = a

variable {h}

/-- What every call of the sequence preserves, the sequence preserves. -/
theorem steps_invariant {I : σ → Prop} {l : List (S.Op × χ)}
    (hI : ∀ o x s, (o,x) ∈ l → I s → I (h o x s).2) {s : σ} (hs : I s) : I (steps h l s) := by
  induction l generalizing s with
  | nil => exact hs
  | cons c l ih =>
    obtain ⟨o,x⟩ := c
    exact ih (fun o x s hc => hI o x s (List.mem_cons_of_mem _ hc)) (hI o x s List.mem_cons_self hs)

/-- What a call answered so establishes holds at the end, if no call of the sequence undoes it. -/
theorem holds_of_answered {I : σ → Prop} {l : List (S.Op × χ)} {s : σ} {o : S.Op}
    {a : Except ε (S.Ret o)} (ha : Answered h l s o a)
    (hset : ∀ x s, (h o x s).1 = a → I (h o x s).2) (hI : ∀ o x s, I s → I (h o x s).2) :
    I (steps h l s) := by
  obtain ⟨pre,x,post,rfl,hx⟩ := ha
  rw [steps_append,steps_cons]
  exact steps_invariant (fun o x s _ => hI o x s) (hset x _ hx)

/-! ### Two implementations of one interface -/

/-- The implementation with its errors seen from outside. -/
def mapError {ε' : Type} (f : ε → ε') (h : Handler S ε σ χ) : Handler S ε' σ χ
  | o, x, s => ((h o x s).1.mapError f,(h o x s).2)

/-- What the calls of a sequence are answered. -/
def answers (h : Handler S ε σ χ) : List (S.Op × χ) → σ → List (Σ o, Except ε (S.Ret o))
  | [], _ => []
  | (o,x) :: l, s => ⟨o,(h o x s).1⟩ :: answers h l (h o x s).2

/-- Implementations whose states stay related give the same answers. -/
theorem answers_eq {τ : Type} {k : Handler S ε τ χ} {R : σ → τ → Prop}
    (hstep : ∀ o x s t, R s t → (h o x s).1 = (k o x t).1 ∧ R (h o x s).2 (k o x t).2)
    (l : List (S.Op × χ)) {s : σ} {t : τ} (hs : R s t) : answers h l s = answers k l t := by
  induction l generalizing s t with
  | nil => rfl
  | cons c l ih =>
    obtain ⟨o,x⟩ := c
    obtain ⟨hanswer,hnext⟩ := hstep o x s t hs
    simp only [answers,hanswer,ih hnext]

end Interaction.Handler
