import Zatca.Library.Sequence
set_option autoImplicit false

/-! Two sequences of calls on one state that make the same calls of one party. What the party is
told is the same in both, when its calls read and move a view of the state that the calls of the
others leave alone. -/

namespace Interaction.Handler

variable {S : Signature} {ε σ τ χ : Type}

/-- The answers to the calls of the party, in their order. -/
def observed (h : Handler S ε σ χ) (own : S.Op → Bool) :
    List (S.Op × χ) → σ → List ((o : S.Op) × Except ε (S.Ret o))
  | [], _ => []
  | (o,x) :: l, s =>
    if own o then ⟨o,(h o x s).1⟩ :: observed h own l (h o x s).2 else observed h own l (h o x s).2

theorem observed_of_foreign {h : Handler S ε σ χ} {own : S.Op → Bool} {l : List (S.Op × χ)}
    (hl : ∀ c ∈ l, own c.1 = false) (s : σ) : observed h own l s = [] := by
  induction l generalizing s with
  | nil => rfl
  | cons c l ih =>
    have ho : own c.1 = false := hl c List.mem_cons_self
    have htail : ∀ c ∈ l, own c.1 = false := fun c hc => hl c (List.mem_cons_of_mem _ hc)
    simp only [observed,ho,Bool.false_eq_true,if_false,ih htail]

/-- What the calls of the party see and do is in the view, and the view is theirs alone. -/
structure Unwinding (h : Handler S ε σ χ) (own dom : S.Op → Bool) (view : σ → τ) : Prop where
  output : ∀ o x s t, own o = true → view s = view t → (h o x s).1 = (h o x t).1
  step : ∀ o x s t, own o = true → view s = view t → view (h o x s).2 = view (h o x t).2
  respect : ∀ o x s, own o = false → dom o = true → view (h o x s).2 = view s

variable {h : Handler S ε σ χ} {own dom : S.Op → Bool} {view : σ → τ}

/-- The calls of the others can be left out. -/
theorem Unwinding.observed_filter (hu : Unwinding h own dom view) {l : List (S.Op × χ)}
    (hl : ∀ c ∈ l, dom c.1 = true) {s t : σ} (hv : view s = view t) :
    observed h own l s = observed h own (l.filter fun c => own c.1) t := by
  induction l generalizing s t with
  | nil => rfl
  | cons c l ih =>
    obtain ⟨o,x⟩ := c
    have htail : ∀ c ∈ l, dom c.1 = true := fun c hc => hl c (List.mem_cons_of_mem _ hc)
    cases ho : own o with
    | true =>
      have hstep := hu.step o x s t ho hv
      simp only [List.filter_cons,ho,if_true,observed,hu.output o x s t ho hv,ih htail hstep]
    | false =>
      have hrespect := hu.respect o x s ho (hl (o,x) List.mem_cons_self)
      simp only [List.filter_cons,ho,Bool.false_eq_true,if_false,observed]
      exact ih htail (hrespect.trans hv)

theorem Unwinding.noninterference (hu : Unwinding h own dom view) {l l' : List (S.Op × χ)}
    (hl : ∀ c ∈ l, dom c.1 = true) (hl' : ∀ c ∈ l', dom c.1 = true)
    (hsame : (l.filter fun c => own c.1) = l'.filter fun c => own c.1) (s : σ) :
    observed h own l s = observed h own l' s := by
  rw [hu.observed_filter hl rfl,hsame,← hu.observed_filter hl' rfl]

end Interaction.Handler
