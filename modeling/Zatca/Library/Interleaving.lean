import Zatca.Library.Program
set_option autoImplicit false

/-! Any number of programs on one shared state. A step lets one program make its next call; the
scheduler and the environment are free in everything else. -/

namespace Interaction

variable {S : Signature} {ε α σ χ ρ : Type}

/-- A call that was made: by whom, with which answer, and between which shared states. -/
structure Event (S : Signature) (ε σ : Type) where
  pid : Nat
  op : S.Op
  result : Except ε (S.Ret op)
  before : σ
  after : σ

/-- The newest event of the history comes first. -/
structure Config (S : Signature) (ε α σ : Type) where
  shared : σ
  procs : Nat → Program S ε α
  history : List (Event S ε σ) := []

namespace Config

/-- What the call `o` of process `p`, with continuation `k`, leaves. -/
def after (h : Handler S ε σ χ) (c : Config S ε α σ) (p : Nat) (o : S.Op)
    (k : Except ε (S.Ret o) → Program S ε α) (x : χ) : Config S ε α σ where
  shared := (h o x c.shared).2
  procs := Function.update c.procs p (k (h o x c.shared).1)
  history := ⟨p,o,(h o x c.shared).1,c.shared,(h o x c.shared).2⟩ :: c.history

def step (h : Handler S ε σ χ) (c : Config S ε α σ) (p : Nat) (x : χ) : Option (Config S ε α σ) :=
  match c.procs p with
  | .call o k => some (c.after h p o k x)
  | _ => none

theorem step_eq_some {h : Handler S ε σ χ} {c c' : Config S ε α σ} {p : Nat} {x : χ}
    (hs : c.step h p x = some c') : ∃ o k, c.procs p = .call o k ∧ c' = c.after h p o k x := by
  unfold step at hs
  cases hp : c.procs p with
  | ret a => simp [hp] at hs
  | throw e => simp [hp] at hs
  | call o k =>
    simp only [hp,Option.some.injEq] at hs
    exact ⟨o,k,rfl,hs.symm⟩

@[simp] theorem after_procs_self (h : Handler S ε σ χ) (c : Config S ε α σ) (p : Nat) (o : S.Op)
    (k : Except ε (S.Ret o) → Program S ε α) (x : χ) :
    (c.after h p o k x).procs p = k (h o x c.shared).1 := Function.update_self ..

theorem after_procs_ne (h : Handler S ε σ χ) (c : Config S ε α σ) {p q : Nat} (o : S.Op)
    (k : Except ε (S.Ret o) → Program S ε α) (x : χ) (hq : q ≠ p) :
    (c.after h p o k x).procs q = c.procs q := Function.update_of_ne hq ..

/-- Runs a schedule, as long as its steps meet `ok`. -/
def run (h : Handler S ε σ χ) (ok : Config S ε α σ → Nat → χ → Prop)
    [∀ c p x, Decidable (ok c p x)] (c : Config S ε α σ) :
    List (Nat × χ) → Option (Config S ε α σ)
  | [] => some c
  | (p,x) :: ls => if ok c p x then (c.step h p x).bind (fun c' => c'.run h ok ls) else none

end Config

/-- The configurations that runs reach whose every step meets `ok`. -/
inductive Reach (h : Handler S ε σ χ) (ok : Config S ε α σ → Nat → χ → Prop)
    (c₀ : Config S ε α σ) : Config S ε α σ → Prop
  | init : Reach h ok c₀ c₀
  | step {c c' : Config S ε α σ} {p : Nat} {x : χ} :
      Reach h ok c₀ c → ok c p x → c.step h p x = some c' → Reach h ok c₀ c'

namespace Reach

variable {h : Handler S ε σ χ} {ok ok' : Config S ε α σ → Nat → χ → Prop}
  {c₀ c : Config S ε α σ}

theorem mono (hok : ∀ c p x, ok c p x → ok' c p x) (hc : Reach h ok c₀ c) : Reach h ok' c₀ c := by
  induction hc with
  | init => exact .init
  | step _ hstep hs ih => exact .step ih (hok _ _ _ hstep) hs

theorem of_run [∀ c p x, Decidable (ok c p x)] {c₁ c₂ : Config S ε α σ} (ls : List (Nat × χ))
    (hc : Reach h ok c₀ c₁) (hr : c₁.run h ok ls = some c₂) : Reach h ok c₀ c₂ := by
  induction ls generalizing c₁ with
  | nil =>
    simp only [Config.run,Option.some.injEq] at hr
    exact hr ▸ hc
  | cons l ls ih =>
    obtain ⟨p,x⟩ := l
    simp only [Config.run] at hr
    split at hr
    · rename_i hok
      obtain ⟨c',hs,hr⟩ := Option.bind_eq_some_iff.1 hr
      exact ih (.step hc hok hs) hr
    · cases hr

theorem invariant {I : Config S ε α σ → Prop} (h₀ : I c₀)
    (hI : ∀ c p x o k, I c → c.procs p = .call o k → ok c p x → I (c.after h p o k x))
    (hc : Reach h ok c₀ c) : I c := by
  induction hc with
  | init => exact h₀
  | step _ hok hs ih =>
    obtain ⟨o,k,hp,rfl⟩ := Config.step_eq_some hs
    exact hI _ _ _ _ _ ih hp hok

/-- What the programs may call at the start bounds what they may call ever after. -/
theorem calls {P : Nat → S.Op → Prop} (h₀ : ∀ p, (c₀.procs p).Calls (P p))
    (hc : Reach h ok c₀ c) : ∀ p, (c.procs p).Calls (P p) := by
  refine Reach.invariant (I := fun c => ∀ p, (c.procs p).Calls (P p)) h₀ ?_ hc
  intro c p x o k hI hp _ q
  by_cases hq : q = p
  · subst hq
    have := hI q
    rw [hp] at this
    simpa using this.2 _
  · rw [Config.after_procs_ne _ _ _ _ _ hq]
    exact hI q

end Reach

/-- Entries that meet the predicates, in their order, are among the entries. -/
def InOrder {β : Type} : List (β → Prop) → List β → Prop
  | [], _ => True
  | P :: Ps, es => ∃ pre e post, es = pre ++ e :: post ∧ P e ∧ InOrder Ps post

theorem InOrder.push {β : Type} {P : β → Prop} {Ps : List (β → Prop)} {e : β} {es : List β}
    (hP : P e) (h : InOrder Ps es) : InOrder (P :: Ps) (e :: es) := ⟨[],e,es,rfl,hP,h⟩

theorem InOrder.cons {β : Type} {Ps : List (β → Prop)} (e : β) {es : List β} (h : InOrder Ps es) :
    InOrder Ps (e :: es) := by
  cases Ps with
  | nil => trivial
  | cons P Ps =>
    obtain ⟨pre,e',post,rfl,hP,hrest⟩ := h
    exact ⟨e :: pre,e',post,rfl,hP,hrest⟩

theorem inOrder_singleton {β : Type} {P : β → Prop} {es : List β} :
    InOrder [P] es ↔ ∃ e ∈ es, P e := by
  constructor
  · rintro ⟨pre,e,post,rfl,hP,-⟩
    exact ⟨e,by simp,hP⟩
  · rintro ⟨e,he,hP⟩
    obtain ⟨pre,post,rfl⟩ := List.append_of_mem he
    exact ⟨pre,e,post,rfl,hP,trivial⟩

namespace Event

variable [DecidableEq S.Op]

/-- What has been called since the process last made the call. -/
def since (p : Nat) (o : S.Op) (history : List (Event S ε σ)) : List (Event S ε σ) :=
  history.takeWhile fun e => ¬ (e.pid = p ∧ e.op = o)

theorem since_self {p : Nat} {o : S.Op} {e : Event S ε σ} (hp : e.pid = p) (ho : e.op = o)
    (history : List (Event S ε σ)) : since p o (e :: history) = [] := by
  rw [since,List.takeWhile_cons_of_neg]
  simp [hp,ho]

theorem since_cons {p : Nat} {o : S.Op} {e : Event S ε σ} (h : ¬ (e.pid = p ∧ e.op = o))
    (history : List (Event S ε σ)) : since p o (e :: history) = e :: since p o history := by
  rw [since,List.takeWhile_cons_of_pos]
  · rfl
  · exact decide_eq_true h

end Event

/-- What a process has done so far, as far as its partners rely on it: the calls it may make
next and how the answers move it. -/
structure Typestate (S : Signature) (ε ρ : Type) where
  allows : ρ → S.Op → Prop
  next : ρ → (o : S.Op) → Except ε (S.Ret o) → ρ

namespace Typestate

def semantics (T : Typestate S ε ρ) : Semantics S ε ρ where
  allows := T.allows
  step r o a r' := r' = T.next r o a

/-- The program makes the typestate's calls only, in its order, and ends in `Q`. -/
def Conforms (T : Typestate S ε ρ) (Q : Except ε α → ρ → Prop) (p : Program S ε α) (r : ρ) : Prop :=
  p.wp T.semantics Q r

variable {T : Typestate S ε ρ} {Q : Except ε α → ρ → Prop}

theorem conforms_call {o : S.Op} {k : Except ε (S.Ret o) → Program S ε α} {r : ρ} :
    T.Conforms Q (.call o k) r ↔ T.allows r o ∧ ∀ a, T.Conforms Q (k a) (T.next r o a) := by
  constructor
  · intro hp
    exact ⟨hp.1,fun a => hp.2 a _ rfl⟩
  · rintro ⟨ha,hk⟩
    refine ⟨ha,?_⟩
    rintro a r' rfl
    exact hk a

theorem conforms_perform_bind {o : S.Op} {f : S.Ret o → Program S ε α} {r : ρ} :
    T.Conforms Q ((Program.perform o).bind f) r ↔
      T.allows r o ∧ ∀ a, T.Conforms Q ((Program.ofExcept a).bind f) (T.next r o a) :=
  conforms_call

/-- Calls that are allowed and leave the typestate as it is. -/
theorem wp_of_calls {p : Program S ε α} {r : ρ}
    (hp : p.Calls (fun o => T.allows r o ∧ ∀ a, T.next r o a = r)) :
    p.wp T.semantics (fun _ r' => r' = r) r := by
  induction p with
  | ret a => rfl
  | throw e => rfl
  | call o k ih =>
    refine ⟨hp.1.1,?_⟩
    rintro a r' rfl
    rw [show T.next r o a = r from hp.1.2 a]
    exact ih a (hp.2 a)

/-- The calls of a run, taken in turn, lead from the one typestate to the other. -/
def Follows (T : Typestate S ε ρ) : ρ → List ((o : S.Op) × Except ε (S.Ret o)) → ρ → Prop
  | r, [], r' => r' = r
  | r, c :: cs, r' => T.allows r c.1 ∧ T.Follows (T.next r c.1 c.2) cs r'

theorem Conforms.follows {p : Program S ε α} {r : ρ} (hp : T.Conforms Q p r)
    (h : Handler S ε σ χ) (script : Nat → χ) (s : σ) :
    ∃ r', T.Follows r (p.trace h script s) r' ∧ Q (p.exec h script s).1 r' := by
  induction p generalizing r script s with
  | ret a => exact ⟨r,rfl,hp⟩
  | throw e => exact ⟨r,rfl,hp⟩
  | call o k ih =>
    rw [conforms_call] at hp
    obtain ⟨r',hfollows,hQ⟩ := ih _ (hp.2 (h o (script 0) s).1) (fun i => script (i+1))
      (h o (script 0) s).2
    exact ⟨r',⟨hp.1,hfollows⟩,hQ⟩

/-- Programs that conform to a typestate may be replaced by it: an invariant of the machine
whose processes are typestates is one of the machine whose processes are the programs. -/
theorem reach_invariant {h : Handler S ε σ χ} {ok : Config S ε α σ → Nat → χ → Prop}
    {c₀ c : Config S ε α σ} (I : Config S ε α σ → (Nat → ρ) → Prop) {t₀ : Nat → ρ}
    (hI₀ : I c₀ t₀) (hT₀ : ∀ q, T.Conforms Q (c₀.procs q) (t₀ q))
    (hI : ∀ c t p x o k, I c t → (∀ q, T.Conforms Q (c.procs q) (t q)) → c.procs p = .call o k →
      T.allows (t p) o → ok c p x →
      I (c.after h p o k x) (Function.update t p (T.next (t p) o (h o x c.shared).1)))
    (hc : Reach h ok c₀ c) : ∃ t, I c t ∧ ∀ q, T.Conforms Q (c.procs q) (t q) := by
  induction hc with
  | init => exact ⟨t₀,hI₀,hT₀⟩
  | @step c c' p x _ hok hs ih =>
    obtain ⟨t,hIc,hTc⟩ := ih
    obtain ⟨o,k,hp,rfl⟩ := Config.step_eq_some hs
    have hcall := hTc p
    rw [hp,conforms_call] at hcall
    refine ⟨_,hI c t p x o k hIc hTc hp hcall.1 hok,fun q => ?_⟩
    by_cases hq : q = p
    · subst hq
      simpa using hcall.2 _
    · rw [Config.after_procs_ne _ _ _ _ _ hq,Function.update_of_ne hq]
      exact hTc q

end Typestate
end Interaction
