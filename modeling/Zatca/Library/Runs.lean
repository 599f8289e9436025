import Mathlib.Data.List.Forall2
import Zatca.Library.Interleaving
set_option autoImplicit false

/-! What a program can come to do, whatever its environment answers: the calls that it makes, with
their answers, and how it ends or what it calls next. -/

namespace Interaction

/-- A call with its answer. -/
abbrev Answered (S : Signature) (ε : Type) := (o : S.Op) × Except ε (S.Ret o)

namespace Program

variable {S S' : Signature} {ε α β : Type}

/-- The program can make these calls, so answered, and end in the result. -/
inductive Runs : Program S ε α → List (Answered S ε) → Except ε α → Prop
  | ret (a : α) : Runs (.ret a) [] (.ok a)
  | throw (e : ε) : Runs (.throw e) [] (.error e)
  | call {o : S.Op} {k : Except ε (S.Ret o) → Program S ε α} (a : Except ε (S.Ret o))
      {cs : List (Answered S ε)} {r : Except ε α} : Runs (k a) cs r → Runs (.call o k) (⟨o,a⟩ :: cs) r

/-- The program can make these calls, so answered, and then the call. -/
inductive Comes : Program S ε α → List (Answered S ε) → S.Op → Prop
  | here {o : S.Op} {k : Except ε (S.Ret o) → Program S ε α} : Comes (.call o k) [] o
  | call {o o' : S.Op} {k : Except ε (S.Ret o) → Program S ε α} (a : Except ε (S.Ret o))
      {cs : List (Answered S ε)} : Comes (k a) cs o' → Comes (.call o k) (⟨o,a⟩ :: cs) o'

variable {p : Program S ε α} {f : α → Program S ε β} {cs : List (Answered S ε)}

@[simp] theorem runs_ret {a : α} {r : Except ε α} :
    (ret a : Program S ε α).Runs cs r ↔ cs = [] ∧ r = .ok a := by
  constructor
  · intro h
    cases h
    exact ⟨rfl,rfl⟩
  · rintro ⟨rfl,rfl⟩
    exact .ret a

@[simp] theorem runs_throw {e : ε} {r : Except ε α} :
    (throw e : Program S ε α).Runs cs r ↔ cs = [] ∧ r = .error e := by
  constructor
  · intro h
    cases h
    exact ⟨rfl,rfl⟩
  · rintro ⟨rfl,rfl⟩
    exact .throw e

@[simp] theorem runs_ofExcept {x r : Except ε α} :
    (ofExcept x : Program S ε α).Runs cs r ↔ cs = [] ∧ r = x := by
  cases x with
  | ok a => exact runs_ret
  | error e => exact runs_throw

@[simp] theorem not_comes_ret {a : α} {o : S.Op} : ¬ (ret a : Program S ε α).Comes cs o := by
  intro h
  cases h

@[simp] theorem not_comes_throw {e : ε} {o : S.Op} : ¬ (throw e : Program S ε α).Comes cs o := by
  intro h
  cases h

@[simp] theorem not_comes_ofExcept {x : Except ε α} {o : S.Op} :
    ¬ (ofExcept x : Program S ε α).Comes cs o := by
  cases x with
  | ok a => exact not_comes_ret
  | error e => exact not_comes_throw

theorem runs_perform {o : S.Op} {r : Except ε (S.Ret o)} :
    (perform o).Runs cs r ↔ cs = [⟨o,r⟩] := by
  constructor
  · intro h
    cases h with
    | call a h =>
      obtain ⟨rfl,rfl⟩ := runs_ofExcept.1 h
      rfl
  · rintro rfl
    exact .call r (runs_ofExcept.2 ⟨rfl,rfl⟩)

/-- A split whose first part is empty is no split. -/
theorem exists_nil_append {γ δ : Type} {P : δ → List γ → Prop} {l : List γ} {d : δ} :
    (∃ l₁ l₂ x, l = l₁ ++ l₂ ∧ (l₁ = [] ∧ x = d) ∧ P x l₂) ↔ P d l := by
  constructor
  · rintro ⟨_,_,_,rfl,⟨rfl,rfl⟩,h⟩
    exact h
  · intro h
    exact ⟨[],l,d,rfl,⟨rfl,rfl⟩,h⟩

theorem runs_bind {r : Except ε β} : (p.bind f).Runs cs r ↔
    (∃ e, p.Runs cs (.error e) ∧ r = .error e) ∨
      ∃ cs₁ cs₂ a, cs = cs₁ ++ cs₂ ∧ p.Runs cs₁ (.ok a) ∧ (f a).Runs cs₂ r := by
  induction p generalizing cs with
  | ret a =>
    simp only [ret_bind,runs_ret,reduceCtorEq,and_false,false_and,exists_false,false_or,
      Except.ok.injEq]
    exact (exists_nil_append (P := fun x cs => (f x).Runs cs r)).symm
  | throw e =>
    simp only [throw_bind,runs_throw,Except.error.injEq]
    constructor
    · rintro ⟨rfl,rfl⟩
      exact .inl ⟨e,⟨rfl,rfl⟩,rfl⟩
    · rintro (⟨_,⟨rfl,rfl⟩,rfl⟩ | ⟨_,_,a,_,⟨_,ha⟩,_⟩)
      · exact ⟨rfl,rfl⟩
      · cases ha
  | call o k ih =>
    constructor
    · intro h
      cases h with
      | call a h =>
        rcases (ih a).1 h with ⟨e,he,rfl⟩ | ⟨cs₁,cs₂,b,rfl,h₁,h₂⟩
        · exact .inl ⟨e,.call a he,rfl⟩
        · exact .inr ⟨⟨o,a⟩ :: cs₁,cs₂,b,rfl,.call a h₁,h₂⟩
    · rintro (⟨e,he,rfl⟩ | ⟨cs₁,cs₂,b,rfl,h₁,h₂⟩)
      · cases he with
        | call a he => exact .call a ((ih a).2 (.inl ⟨e,he,rfl⟩))
      · cases h₁ with
        | call a h₁ => exact .call a ((ih a).2 (.inr ⟨_,cs₂,b,rfl,h₁,h₂⟩))

/-- A program that returns has passed through both parts. -/
theorem runs_bind_ok {b : β} : (p.bind f).Runs cs (.ok b) ↔
    ∃ cs₁ cs₂ a, cs = cs₁ ++ cs₂ ∧ p.Runs cs₁ (.ok a) ∧ (f a).Runs cs₂ (.ok b) := by
  rw [runs_bind]
  exact or_iff_right fun ⟨_,_,he⟩ => nomatch he

theorem runs_tryCatch {g : ε → Program S ε α} {r : Except ε α} : (p.tryCatch g).Runs cs r ↔
    (∃ a, p.Runs cs (.ok a) ∧ r = .ok a) ∨
      ∃ cs₁ cs₂ e, cs = cs₁ ++ cs₂ ∧ p.Runs cs₁ (.error e) ∧ (g e).Runs cs₂ r := by
  induction p generalizing cs with
  | ret a =>
    simp only [tryCatch,runs_ret,Except.ok.injEq]
    constructor
    · rintro ⟨rfl,rfl⟩
      exact .inl ⟨a,⟨rfl,rfl⟩,rfl⟩
    · rintro (⟨_,⟨rfl,rfl⟩,rfl⟩ | ⟨_,_,e,_,⟨_,he⟩,_⟩)
      · exact ⟨rfl,rfl⟩
      · cases he
  | throw e =>
    simp only [tryCatch,runs_throw,reduceCtorEq,and_false,false_and,exists_false,false_or,
      Except.error.injEq]
    exact (exists_nil_append (P := fun x cs => (g x).Runs cs r)).symm
  | call o k ih =>
    constructor
    · intro h
      cases h with
      | call a h =>
        rcases (ih a).1 h with ⟨b,hb,rfl⟩ | ⟨cs₁,cs₂,e,rfl,h₁,h₂⟩
        · exact .inl ⟨b,.call a hb,rfl⟩
        · exact .inr ⟨⟨o,a⟩ :: cs₁,cs₂,e,rfl,.call a h₁,h₂⟩
    · rintro (⟨b,hb,rfl⟩ | ⟨cs₁,cs₂,e,rfl,h₁,h₂⟩)
      · cases hb with
        | call a hb => exact .call a ((ih a).2 (.inl ⟨b,hb,rfl⟩))
      · cases h₁ with
        | call a h₁ => exact .call a ((ih a).2 (.inr ⟨_,cs₂,e,rfl,h₁,h₂⟩))

theorem comes_bind {o : S.Op} : (p.bind f).Comes cs o ↔ p.Comes cs o ∨
    ∃ cs₁ cs₂ a, cs = cs₁ ++ cs₂ ∧ p.Runs cs₁ (.ok a) ∧ (f a).Comes cs₂ o := by
  induction p generalizing cs with
  | ret a =>
    simp only [ret_bind,runs_ret,not_comes_ret,false_or,Except.ok.injEq]
    exact (exists_nil_append (P := fun x cs => (f x).Comes cs o)).symm
  | throw e => simp
  | call o' k ih =>
    constructor
    · intro h
      cases h with
      | here => exact .inl .here
      | call a h =>
        rcases (ih a).1 h with h | ⟨cs₁,cs₂,b,rfl,h₁,h₂⟩
        · exact .inl (.call a h)
        · exact .inr ⟨⟨o',a⟩ :: cs₁,cs₂,b,rfl,.call a h₁,h₂⟩
    · rintro (h | ⟨cs₁,cs₂,b,rfl,h₁,h₂⟩)
      · cases h with
        | here => exact .here
        | call a h => exact .call a ((ih a).2 (.inl h))
      · cases h₁ with
        | call a h₁ => exact .call a ((ih a).2 (.inr ⟨_,cs₂,b,rfl,h₁,h₂⟩))

theorem comes_tryCatch {g : ε → Program S ε α} {o : S.Op} : (p.tryCatch g).Comes cs o ↔
    p.Comes cs o ∨ ∃ cs₁ cs₂ e, cs = cs₁ ++ cs₂ ∧ p.Runs cs₁ (.error e) ∧ (g e).Comes cs₂ o := by
  induction p generalizing cs with
  | ret a => simp [tryCatch]
  | throw e =>
    simp only [tryCatch,runs_throw,not_comes_throw,false_or,Except.error.injEq]
    exact (exists_nil_append (P := fun x cs => (g x).Comes cs o)).symm
  | call o' k ih =>
    constructor
    · intro h
      cases h with
      | here => exact .inl .here
      | call a h =>
        rcases (ih a).1 h with h | ⟨cs₁,cs₂,e,rfl,h₁,h₂⟩
        · exact .inl (.call a h)
        · exact .inr ⟨⟨o',a⟩ :: cs₁,cs₂,e,rfl,.call a h₁,h₂⟩
    · rintro (h | ⟨cs₁,cs₂,e,rfl,h₁,h₂⟩)
      · cases h with
        | here => exact .here
        | call a h => exact .call a ((ih a).2 (.inl h))
      · cases h₁ with
        | call a h₁ => exact .call a ((ih a).2 (.inr ⟨_,cs₂,e,rfl,h₁,h₂⟩))

theorem Calls.comes {P : S.Op → Prop} (hp : p.Calls P) {o : S.Op} (h : p.Comes cs o) : P o := by
  induction h with
  | here => exact hp.1
  | call a _ ih => exact ih (hp.2 a)

theorem Calls.runs {P : S.Op → Prop} (hp : p.Calls P) {r : Except ε α} (h : p.Runs cs r) :
    ∀ c ∈ cs, P c.1 := by
  induction h with
  | ret a => simp
  | throw e => simp
  | call a _ ih => exact List.forall_mem_cons.2 ⟨hp.1,ih (hp.2 a)⟩

section embed
variable (φ : Signature.Hom S S')

/-- The call as the program sees it that is embedded. -/
def SeenAs (c : Answered S ε) (c' : Answered S' ε) : Prop :=
  ∃ a, c' = ⟨φ.op c.1,a⟩ ∧ c.2 = a.map (φ.ret c.1)

variable {φ}

theorem runs_embed {cs' : List (Answered S' ε)} {r : Except ε α} (h : (p.embed φ).Runs cs' r) :
    ∃ cs, p.Runs cs r ∧ List.Forall₂ (SeenAs φ) cs cs' := by
  induction p generalizing cs' with
  | ret a =>
    obtain ⟨rfl,rfl⟩ := runs_ret.1 h
    exact ⟨[],.ret a,.nil⟩
  | throw e =>
    obtain ⟨rfl,rfl⟩ := runs_throw.1 h
    exact ⟨[],.throw e,.nil⟩
  | call o k ih =>
    cases h with
    | call a h =>
      obtain ⟨cs,hr,hs⟩ := ih _ h
      exact ⟨_,.call (a.map (φ.ret o)) hr,.cons ⟨a,rfl,rfl⟩ hs⟩

theorem SeenAs.mem {cs : List (Answered S ε)} {cs' : List (Answered S' ε)}
    (h : List.Forall₂ (SeenAs φ) cs cs') {c : Answered S ε} (hc : c ∈ cs) :
    ∃ a, (⟨φ.op c.1,a⟩ : Answered S' ε) ∈ cs' ∧ c.2 = a.map (φ.ret c.1) := by
  induction h with
  | nil => cases hc
  | cons hcc _ ih =>
    rcases List.mem_cons.1 hc with rfl | hc
    · obtain ⟨a,rfl,ha⟩ := hcc
      exact ⟨a,List.mem_cons_self,ha⟩
    · obtain ⟨a,hmem,ha⟩ := ih hc
      exact ⟨a,List.mem_cons_of_mem _ hmem,ha⟩

end embed

/-! ### What a call rests on -/

/-- Each call that the program can come to stands in the relation to the calls before it. -/
def RestsOn (Q : List (Answered S ε) → S.Op → Prop) (p : Program S ε α) : Prop :=
  ∀ ⦃cs : List (Answered S ε)⦄ ⦃o : S.Op⦄, p.Comes cs o → Q cs o

section rests
variable {Q : List (Answered S ε) → S.Op → Prop}

theorem Calls.restsOn {P : S.Op → Prop} (hp : p.Calls P) (h : ∀ cs o, P o → Q cs o) : p.RestsOn Q :=
  fun cs o hcomes => h cs o (hp.comes hcomes)

theorem restsOn_ret (a : α) : (ret a : Program S ε α).RestsOn Q := fun _ _ h => absurd h not_comes_ret

theorem restsOn_throw (e : ε) : (throw e : Program S ε α).RestsOn Q :=
  fun _ _ h => absurd h not_comes_throw

theorem restsOn_bind (hp : p.RestsOn Q) (hf : ∀ cs a, p.Runs cs (.ok a) →
    (f a).RestsOn fun cs' o => Q (cs ++ cs') o) : (p.bind f).RestsOn Q := by
  intro cs o h
  rcases comes_bind.1 h with h | ⟨cs₁,cs₂,a,rfl,hr,h⟩
  · exact hp h
  · exact hf cs₁ a hr h

theorem restsOn_tryCatch {g : ε → Program S ε α} (hp : p.RestsOn Q)
    (hg : ∀ cs e, (g e).RestsOn fun cs' o => Q (cs ++ cs') o) : (p.tryCatch g).RestsOn Q := by
  intro cs o h
  rcases comes_tryCatch.1 h with h | ⟨cs₁,cs₂,e,rfl,-,h⟩
  · exact hp h
  · exact hg cs₁ e h

/-- What rests on some of the calls rests on all of them. -/
theorem RestsOn.later (hQ : ∀ cs₁ cs₂ o, Q cs₂ o → Q (cs₁ ++ cs₂) o) (hp : p.RestsOn Q)
    (cs : List (Answered S ε)) : p.RestsOn fun cs' o => Q (cs ++ cs') o :=
  fun cs' o h => hQ cs cs' o (hp h)

end rests

/-- A scripted execution is one of the runs. -/
theorem runs_exec {σ χ : Type} (h : Handler S ε σ χ) (p : Program S ε α) (script : Nat → χ) (s : σ) :
    p.Runs (p.trace h script s) (p.exec h script s).1 := by
  induction p generalizing script s with
  | ret a => exact .ret a
  | throw e => exact .throw e
  | call o k ih => exact .call _ (ih _ _ _)

end Program

section interleaving
variable {S : Signature} {ε α σ χ : Type} {h : Handler S ε σ χ} {ok : Config S ε α σ → Nat → χ → Prop}
  {c₀ c : Config S ε α σ}

/-- The calls of a process in the order in which it made them. -/
def callsOf (p : Nat) (history : List (Event S ε σ)) : List (Answered S ε) :=
  ((history.filter fun e => e.pid = p).map fun e => ⟨e.op,e.result⟩).reverse

theorem callsOf_cons (p : Nat) (e : Event S ε σ) (history : List (Event S ε σ)) :
    callsOf p (e :: history) =
      if e.pid = p then callsOf p history ++ [⟨e.op,e.result⟩] else callsOf p history := by
  unfold callsOf
  by_cases hp : e.pid = p
  · simp [hp]
  · simp [hp]

theorem mem_callsOf {p : Nat} {a : Answered S ε} {history : List (Event S ε σ)} :
    a ∈ callsOf p history ↔ ∃ s s', (⟨p,a.1,a.2,s,s'⟩ : Event S ε σ) ∈ history := by
  simp only [callsOf,List.mem_reverse,List.mem_map,List.mem_filter,decide_eq_true_eq]
  constructor
  · rintro ⟨e,⟨he,rfl⟩,rfl⟩
    exact ⟨e.before,e.after,he⟩
  · rintro ⟨s,s',he⟩
    exact ⟨_,⟨he,rfl⟩,rfl⟩

/-- What is left of a process goes on from the calls that it has made. -/
theorem Reach.residual (h₀ : c₀.history = []) (hc : Reach h ok c₀ c) (q : Nat) :
    (∀ cs o, (c.procs q).Comes cs o → (c₀.procs q).Comes (callsOf q c.history ++ cs) o) ∧
      ∀ cs r, (c.procs q).Runs cs r → (c₀.procs q).Runs (callsOf q c.history ++ cs) r := by
  induction hc with
  | init => simp [h₀,callsOf]
  | @step c c' p x _ _ hs ih =>
    obtain ⟨o,k,hp,rfl⟩ := Config.step_eq_some hs
    simp only [Config.after,callsOf_cons]
    by_cases hq : p = q
    · subst hq
      simp only [Function.update_self,if_true,List.append_assoc,List.singleton_append]
      rw [hp] at ih
      exact ⟨fun cs o' hcomes => ih.1 _ _ (.call _ hcomes),fun cs r hruns => ih.2 _ _ (.call _ hruns)⟩
    · simp only [hq,if_false,Function.update_of_ne (Ne.symm hq)]
      exact ih

/-- The call that a process is about to make is one that it could come to. -/
theorem Reach.pending (h₀ : c₀.history = []) (hc : Reach h ok c₀ c) {p : Nat} {o : S.Op}
    {k : Except ε (S.Ret o) → Program S ε α} (hp : c.procs p = .call o k) :
    (c₀.procs p).Comes (callsOf p c.history) o := by
  have hres := (hc.residual h₀ p).1 [] o (by rw [hp]; exact .here)
  simpa using hres

/-- Each call of the history is one that its process could come to after the calls it had made. -/
theorem Reach.comes (h₀ : c₀.history = []) (hc : Reach h ok c₀ c) {after before : List (Event S ε σ)}
    {e : Event S ε σ} (he : c.history = after ++ e :: before) :
    (c₀.procs e.pid).Comes (callsOf e.pid before) e.op := by
  induction hc generalizing after with
  | init => simp [h₀] at he
  | @step c c' p x hreach _ hs ih =>
    obtain ⟨o,k,hp,rfl⟩ := Config.step_eq_some hs
    rcases List.cons_eq_append_iff.1 he with ⟨rfl,hcons⟩ | ⟨after',rfl,hrest⟩
    · obtain ⟨rfl,rfl⟩ := List.cons.inj hcons
      exact hreach.pending h₀ hp
    · exact ih hrest

/-- An invariant whose steps start in configurations that are reached. -/
theorem Reach.invariant_reached {I : Config S ε α σ → Prop} (hI₀ : I c₀)
    (hI : ∀ c p x o k, Reach h ok c₀ c → I c → c.procs p = .call o k → ok c p x →
      I (c.after h p o k x)) (hc : Reach h ok c₀ c) : I c := by
  induction hc with
  | init => exact hI₀
  | step hreach hok hs ih =>
    obtain ⟨o,k,hp,rfl⟩ := Config.step_eq_some hs
    exact hI _ _ _ _ _ hreach ih hp hok

/-- The step that an event of the history records, and what followed it. -/
theorem Reach.exists_step (h₀ : c₀.history = []) (hc : Reach h ok c₀ c)
    {after before : List (Event S ε σ)} {e : Event S ε σ} (he : c.history = after ++ e :: before) :
    ∃ c' p o k x, Reach h ok c₀ c' ∧ c'.procs p = .call o k ∧ ok c' p x ∧
      (c'.after h p o k x).history = e :: before ∧ Reach h ok (c'.after h p o k x) c := by
  induction hc generalizing after with
  | init => simp [h₀] at he
  | @step c c' p x hreach hok hs ih =>
    obtain ⟨o,k,hp,rfl⟩ := Config.step_eq_some hs
    rcases List.cons_eq_append_iff.1 he with ⟨rfl,hcons⟩ | ⟨after',rfl,hrest⟩
    · exact ⟨c,p,o,k,x,hreach,hp,hok,hcons.symm,.init⟩
    · obtain ⟨c₁,p₁,o₁,k₁,x₁,hc₁,hp₁,hok₁,hhist,hlater⟩ := ih hrest
      exact ⟨c₁,p₁,o₁,k₁,x₁,hc₁,hp₁,hok₁,hhist,.step hlater hok hs⟩

/-- What an event brings about, and no call undoes, holds from then on. -/
theorem Reach.keeps_of_event {J : σ → Prop} (hJ : ∀ o x s, J s → J (h o x s).2)
    (h₀ : c₀.history = []) (hc : Reach h ok c₀ c) {e : Event S ε σ} (he : e ∈ c.history)
    (hset : ∀ x s, (h e.op x s).1 = e.result → J (h e.op x s).2) : J c.shared := by
  obtain ⟨after,before,he⟩ := List.append_of_mem he
  obtain ⟨c',p,o,k,x,-,-,-,hhist,hlater⟩ := hc.exists_step h₀ he
  obtain ⟨rfl,-⟩ := List.cons.inj hhist
  exact Reach.invariant (I := fun c => J c.shared) (hset x c'.shared rfl)
    (fun _ _ _ _ _ hs _ _ => hJ _ _ _ hs) hlater

/-- A process that has ended made one of its runs. -/
theorem Reach.runs (h₀ : c₀.history = []) (hc : Reach h ok c₀ c) {q : Nat} {r : Except ε α}
    (hq : c.procs q = .ofExcept r) : (c₀.procs q).Runs (callsOf q c.history) r := by
  have hres := (hc.residual h₀ q).2 [] r (by rw [hq]; exact Program.runs_ofExcept.2 ⟨rfl,rfl⟩)
  simpa using hres

end interleaving

/-- The calls of a program lead to a typestate in which the next one is allowed. -/
theorem Typestate.Conforms.comes {S : Signature} {ε α ρ : Type} {T : Typestate S ε ρ}
    {Q : Except ε α → ρ → Prop} {p : Program S ε α} {r : ρ} (hp : T.Conforms Q p r)
    {cs : List (Answered S ε)} {o : S.Op} (h : p.Comes cs o) :
    ∃ r', T.Follows r cs r' ∧ T.allows r' o := by
  induction h generalizing r with
  | here => exact ⟨r,rfl,(conforms_call.1 hp).1⟩
  | call a _ ih =>
    obtain ⟨r',hfollows,ha⟩ := ih ((conforms_call.1 hp).2 a)
    exact ⟨r',⟨(conforms_call.1 hp).1,hfollows⟩,ha⟩

/-- What each call keeps up with the calls before it holds of the typestate that they lead to. -/
theorem Typestate.Follows.invariant {S : Signature} {ε ρ : Type} {T : Typestate S ε ρ}
    {I : List (Answered S ε) → ρ → Prop}
    (hI : ∀ cs r (c : Answered S ε), I cs r → T.allows r c.1 → I (cs ++ [c]) (T.next r c.1 c.2))
    {cs : List (Answered S ε)} {r r' : ρ} (h : T.Follows r cs r') (hr : I [] r) : I cs r' := by
  have hmore (cs : List (Answered S ε)) : ∀ pre r, T.Follows r cs r' → I pre r → I (pre ++ cs) r' := by
    induction cs with
    | nil =>
      rintro pre r rfl hr
      rwa [List.append_nil]
    | cons c cs ih =>
      intro pre r h hr
      have := ih _ _ h.2 (hI pre r c hr h.1)
      rwa [List.append_assoc] at this
  exact hmore cs [] r h hr

end Interaction
