import Zatca.Library.Interleaving
import Zatca.Library.Interpret
set_option autoImplicit false

/-! Calls that are each carried out by a program on another interface, while other programs make
theirs: every run is one in which each call is carried out at once. A call takes effect at one of
the calls of its program. What the program goes by before and after that must be something that no
call undoes. -/

namespace Interaction

variable {S T : Signature} {ε α β σ τ χ ψ : Type}

/-- No call makes the condition false. -/
def Handler.Keeps (h : Handler T ε σ χ) (J : σ → Prop) : Prop := ∀ o x s, J s → J (h o x s).2

theorem Handler.keeps_true (h : Handler T ε σ χ) : h.Keeps fun _ => True := fun _ _ _ h => h

namespace Program

/-- From where the condition holds, the program leaves what is seen of the state as it is, and ends
in the result. -/
def Settled (h : Handler T ε σ χ) (abs : σ → τ) (r : Except ε β) :
    Program T ε β → (σ → Prop) → Prop
  | .ret a, _ => r = .ok a
  | .throw e, _ => r = .error e
  | .call c k, J => ∀ x s, J s → abs (h c x s).2 = abs s ∧
      ∃ J', h.Keeps J' ∧ J' (h c x s).2 ∧ (k (h c x s).1).Settled h abs r J'

/-- From where the condition holds, one of the calls of the program does to what is seen of the
state what `o` does, the others leave it as it is, and the program ends in what `o` is answered. -/
def Pending (h : Handler T ε σ χ) (A : Handler S ε τ ψ) (abs : σ → τ) (o : S.Op) :
    Program T ε (S.Ret o) → (σ → Prop) → Prop
  | .ret _, _ => False
  | .throw _, _ => False
  | .call c k, J => ∀ x s, J s →
      (abs (h c x s).2 = abs s ∧
        ∃ J', h.Keeps J' ∧ J' (h c x s).2 ∧ (k (h c x s).1).Pending h A abs o J') ∨
      ∃ r y J', A o y (abs s) = (r,abs (h c x s).2) ∧ h.Keeps J' ∧ J' (h c x s).2 ∧
        (k (h c x s).1).Settled h abs r J'

section rules
variable {h : Handler T ε σ χ} {A : Handler S ε τ ψ} {abs : σ → τ}

theorem settled_ofExcept (r : Except ε β) (J : σ → Prop) : (ofExcept r).Settled h abs r J := by
  cases r with
  | ok a => rfl
  | error e => rfl

variable {o : S.Op} {J : σ → Prop} {c : T.Op} {k : Except ε (T.Ret c) → Program T ε (S.Ret o)}

/-- The call is the last, and the one that takes effect. -/
theorem pending_last (hk : ∀ x s, J s → ∃ y, k (h c x s).1 = ofExcept (A o y (abs s)).1 ∧
    (A o y (abs s)).2 = abs (h c x s).2) : (call c k).Pending h A abs o J := by
  intro x s hs
  obtain ⟨y,hr,ha⟩ := hk x s hs
  refine .inr ⟨(A o y (abs s)).1,y,fun _ => True,Prod.ext rfl ha,h.keeps_true,trivial,?_⟩
  rw [hr]
  exact settled_ofExcept _ _

end rules
end Program

/-! ### Readings -/

/-- What the program may read of its surroundings, such as of a clock. -/
abbrev Signature.reading (ι : Type) : Signature := ⟨Unit,fun _ => ι⟩

variable {ι : Type}

/-- Any reading is possible at any time. -/
def Handler.withReading (h : Handler T ε σ χ) : Handler (T.sum (.reading ι)) ε σ (ι × χ)
  | .inl o, x, s => h o x.2 s
  | .inr _, x, s => (.ok x.1,s)

theorem Handler.Keeps.withReading {h : Handler T ε σ χ} {J : σ → Prop} (hJ : h.Keeps J) :
    (h.withReading (ι := ι)).Keeps J := by
  intro o x s hs
  cases o with
  | inl o => exact hJ o x.2 s hs
  | inr o => exact hs

namespace Program

variable {h : Handler T ε σ χ} {A : Handler S ε τ ψ} {abs : σ → τ} {J : σ → Prop}

theorem Settled.withReading {r : Except ε β} {p : Program T ε β} (hp : p.Settled h abs r J) :
    (p.embed (T.left (.reading ι))).Settled h.withReading abs r J := by
  induction p generalizing J with
  | ret a => exact hp
  | throw e => exact hp
  | call c k ih =>
    intro x s hs
    obtain ⟨habs,J',hJ',hs',hk⟩ := hp x.2 s hs
    refine ⟨habs,J',hJ'.withReading,hs',?_⟩
    show ((k ((h c x.2 s).1.map fun a => a)).embed _).Settled _ _ _ _
    rw [map_self]
    exact ih _ hk

theorem Pending.withReading {o : S.Op} {p : Program T ε (S.Ret o)} (hp : p.Pending h A abs o J) :
    (p.embed (T.left (.reading ι))).Pending h.withReading A abs o J := by
  induction p generalizing J with
  | ret a => exact hp
  | throw e => exact hp
  | call c k ih =>
    intro x s hs
    rcases hp x.2 s hs with ⟨habs,J',hJ',hs',hk⟩ | ⟨r,y,J',ha,hJ',hs',hk⟩
    · refine .inl ⟨habs,J',hJ'.withReading,hs',?_⟩
      show ((k ((h c x.2 s).1.map fun a => a)).embed _).Pending _ _ _ _ _
      rw [map_self]
      exact ih _ hk
    · refine .inr ⟨r,y,J',ha,hJ'.withReading,hs',?_⟩
      show ((k ((h c x.2 s).1.map fun a => a)).embed _).Settled _ _ _ _
      rw [map_self]
      exact hk.withReading

def readFirst (m : ι → Program T ε β) : Program (T.sum (.reading ι)) ε β :=
  (perform (S := T.sum (.reading ι)) (.inr ())).bind fun i => (m i).embed (T.left (.reading ι))

theorem pending_readFirst {o : S.Op} {m : ι → Program T ε (S.Ret o)}
    (hm : ∀ i, (m i).Pending h A abs o fun _ => True) :
    (readFirst m).Pending h.withReading A abs o fun _ => True := by
  intro x s _
  exact .inl ⟨rfl,fun _ => True,Handler.keeps_true _,trivial,(hm x.1).withReading⟩

end Program

section refinement
variable (h : Handler T ε σ χ) (A : Handler S ε τ ψ) (abs : σ → τ) (I : (o : S.Op) → Program T ε (S.Ret o))

/-- A program that is carried out by way of `I` in the state, beside the program itself. -/
inductive CarriesOut (s : σ) : Program S ε α → Program T ε α → Prop
  | ret (a : α) : CarriesOut s (.ret a) (.ret a)
  | throw (e : ε) : CarriesOut s (.throw e) (.throw e)
  | pending {o : S.Op} (k : Except ε (S.Ret o) → Program S ε α) {rest : Program T ε (S.Ret o)}
      {J : σ → Prop} : h.Keeps J → J s → rest.Pending h A abs o J →
        CarriesOut s (.call o k) (rest.attempt.bind fun r => (k r).interpret I)
  | settled {β : Type} (f : Except ε β → Program S ε α) {r : Except ε β} {c : T.Op}
      {k : Except ε (T.Ret c) → Program T ε β} {J : σ → Prop} : h.Keeps J → J s →
        (Program.call c k).Settled h abs r J →
        CarriesOut s (f r) ((Program.call c k).attempt.bind fun r => (f r).interpret I)

variable {h A abs I} {s : σ} {p : Program S ε α} {p' : Program T ε α}

theorem carriesOut_interpret (hI : ∀ o, (I o).Pending h A abs o fun _ => True) (p : Program S ε α)
    (s : σ) : CarriesOut h A abs I s p (p.interpret I) := by
  cases p with
  | ret a => exact .ret a
  | throw e => exact .throw e
  | call o k => exact .pending k h.keeps_true trivial (hI o)

theorem carriesOut_settled (hI : ∀ o, (I o).Pending h A abs o fun _ => True)
    (f : Except ε β → Program S ε α) {r : Except ε β} {rest : Program T ε β} {J : σ → Prop}
    (hJ : h.Keeps J) (hs : J s) (hrest : rest.Settled h abs r J) :
    CarriesOut h A abs I s (f r) (rest.attempt.bind fun r => (f r).interpret I) := by
  cases rest with
  | ret a =>
    obtain rfl : r = .ok a := hrest
    exact carriesOut_interpret hI _ s
  | throw e =>
    obtain rfl : r = .error e := hrest
    exact carriesOut_interpret hI _ s
  | call c k => exact .settled f hJ hs hrest

/-- The calls of others do not stand in the way. -/
theorem CarriesOut.later (hp : CarriesOut h A abs I s p p') (c : T.Op) (x : χ) :
    CarriesOut h A abs I (h c x s).2 p p' := by
  cases hp with
  | ret a => exact .ret a
  | throw e => exact .throw e
  | pending k hJ hs hrest => exact .pending k hJ (hJ c x s hs) hrest
  | settled f hJ hs hrest => exact .settled f hJ (hJ c x s hs) hrest

/-- One call of the program that carries out: it is not to be seen, or it is the call. -/
theorem CarriesOut.step (hI : ∀ o, (I o).Pending h A abs o fun _ => True) {c : T.Op}
    {k : Except ε (T.Ret c) → Program T ε α} (hp : CarriesOut h A abs I s p (.call c k)) (x : χ) :
    (abs (h c x s).2 = abs s ∧ CarriesOut h A abs I (h c x s).2 p (k (h c x s).1)) ∨
      ∃ o k' y, p = .call o k' ∧ (A o y (abs s)).2 = abs (h c x s).2 ∧
        CarriesOut h A abs I (h c x s).2 (k' (A o y (abs s)).1) (k (h c x s).1) := by
  generalize hcall : Program.call c k = p' at hp
  cases hp with
  | ret a => cases hcall
  | throw e => cases hcall
  | @pending o k' rest J hJ hs hrest =>
    cases rest with
    | ret a => exact hrest.elim
    | throw e => exact hrest.elim
    | call c' k₀ =>
      cases hcall
      rcases hrest x s hs with ⟨habs,J',hJ',hs',hnext⟩ | ⟨r,y,J',ha,hJ',hs',hnext⟩
      · exact .inl ⟨habs,.pending k' hJ' hs' hnext⟩
      · refine .inr ⟨o,k',y,rfl,by rw [ha],?_⟩
        rw [ha]
        exact carriesOut_settled hI k' hJ' hs' hnext
  | @settled _ f r c' k₀ J hJ hs hrest =>
    cases hcall
    obtain ⟨habs,J',hJ',hs',hnext⟩ := hrest x s hs
    exact .inl ⟨habs,carriesOut_settled hI f hJ' hs' hnext⟩

theorem CarriesOut.ends (hp : CarriesOut h A abs I s p p') {r : Except ε α}
    (hr : p' = .ofExcept r) : p = .ofExcept r := by
  have hcall {c : T.Op} {k : Except ε (T.Ret c) → Program T ε α} :
      (.call c k : Program T ε α) ≠ .ofExcept r := by
    cases r with
    | ok a => exact nofun
    | error e => exact nofun
  cases hp with
  | ret a =>
    cases r with
    | ok b =>
      cases hr
      rfl
    | error e => cases hr
  | throw e =>
    cases r with
    | ok b => cases hr
    | error e' =>
      cases hr
      rfl
  | @pending o k rest J _ _ hrest =>
    cases rest with
    | ret a => exact hrest.elim
    | throw e => exact hrest.elim
    | call c k₀ => exact absurd hr hcall
  | settled f _ _ _ => exact absurd hr hcall

/-- What programs come to by way of `I`, however the calls that carry theirs out interleave, they
come to when each of theirs is answered at once. -/
theorem Reach.carriesOut (hI : ∀ o, (I o).Pending h A abs o fun _ => True) {s₀ : σ}
    {procs : Nat → Program S ε α} {c : Config T ε α σ}
    (hc : Reach h (fun _ _ _ => True) ⟨s₀,fun q => (procs q).interpret I,[]⟩ c) :
    ∃ a : Config S ε α τ, Reach A (fun _ _ _ => True) ⟨abs s₀,procs,[]⟩ a ∧
      a.shared = abs c.shared ∧ ∀ q, CarriesOut h A abs I c.shared (a.procs q) (c.procs q) := by
  induction hc with
  | init => exact ⟨_,.init,rfl,fun q => carriesOut_interpret hI _ _⟩
  | @step c c' p x _ _ hs ih =>
    obtain ⟨a,ha,hshared,hprocs⟩ := ih
    obtain ⟨o,k,hp,rfl⟩ := Config.step_eq_some hs
    have hcarries := hprocs p
    rw [hp] at hcarries
    rcases hcarries.step hI x with ⟨habs,hnext⟩ | ⟨o',k',y,ho',hA,hnext⟩
    · refine ⟨a,ha,by rw [hshared,Config.after,habs],fun q => ?_⟩
      by_cases hq : q = p
      · subst hq
        rw [Config.after_procs_self]
        exact hnext
      · rw [Config.after_procs_ne _ _ _ _ _ hq]
        exact (hprocs q).later o x
    · have hstep : a.step A p y = some (a.after A p o' k' y) := by rw [Config.step,ho']
      refine ⟨a.after A p o' k' y,.step ha trivial hstep,?_,fun q => ?_⟩
      · simp only [Config.after,hshared,hA]
      · by_cases hq : q = p
        · subst hq
          rw [Config.after_procs_self,Config.after_procs_self,hshared]
          exact hnext
        · rw [Config.after_procs_ne _ _ _ _ _ hq,Config.after_procs_ne _ _ _ _ _ hq]
          exact (hprocs q).later o x

end refinement
end Interaction
