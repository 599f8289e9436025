import Mathlib.Logic.Function.Basic
set_option autoImplicit false

/-! Sequential code whose only effects are calls on an interface: an `await` is a `call`, a
rejected promise is an `Except.error` handed to the continuation, and what stands between two
calls is pure. -/

namespace Interaction

structure Signature where
  Op : Type
  Ret : Op → Type

/-- Every call of `S` is a call of `S'`. -/
structure Signature.Hom (S S' : Signature) where
  op : S.Op → S'.Op
  ret : (o : S.Op) → S'.Ret (op o) → S.Ret o

def Signature.Hom.refl (S : Signature) : Signature.Hom S S := ⟨id,fun _ r => r⟩

/-- A call that fails resumes the program with the error, so `try`/`catch` is a function on
programs and needs no effect of its own. -/
inductive Program (S : Signature) (ε α : Type) : Type where
  | ret : α → Program S ε α
  | throw : ε → Program S ε α
  | call : (o : S.Op) → (Except ε (S.Ret o) → Program S ε α) → Program S ε α

/-- A call that is embedded as it is has its answer left as it is. -/
theorem map_self {ε α : Type} (r : Except ε α) : r.map (fun a => a) = r := congrFun Except.map_id r

namespace Program

variable {S S' : Signature} {ε α β : Type}

def bind : Program S ε α → (α → Program S ε β) → Program S ε β
  | .ret a, f => f a
  | .throw e, _ => .throw e
  | .call o k, f => .call o (fun r => (k r).bind f)

def tryCatch : Program S ε α → (ε → Program S ε α) → Program S ε α
  | .ret a, _ => .ret a
  | .throw e, h => h e
  | .call o k, h => .call o (fun r => (k r).tryCatch h)

/-- What the block ends with stands, unless the finalizer throws. -/
def tryFinally (p : Program S ε α) (f : Program S ε Unit) : Program S ε α :=
  (p.tryCatch fun e => f.bind fun _ => .throw e).bind fun a => f.bind fun _ => .ret a

def ofExcept : Except ε α → Program S ε α
  | .ok a => .ret a
  | .error e => .throw e

def perform (o : S.Op) : Program S ε (S.Ret o) := .call o ofExcept

/-- Runs a program of the interface `S` on an interface that contains it. -/
def embed (φ : Signature.Hom S S') : Program S ε α → Program S' ε α
  | .ret a => .ret a
  | .throw e => .throw e
  | .call o k => .call (φ.op o) (fun r => (k (r.map (φ.ret o))).embed φ)

instance : Monad (Program S ε) where
  pure := .ret
  bind := bind

@[simp] theorem pure_eq (a : α) : (pure a : Program S ε α) = .ret a := rfl
@[simp] theorem bind_eq (p : Program S ε α) (f : α → Program S ε β) : (p >>= f) = p.bind f := rfl
@[simp] theorem ret_bind (a : α) (f : α → Program S ε β) : (ret a).bind f = f a := rfl
@[simp] theorem throw_bind (e : ε) (f : α → Program S ε β) :
    (throw e : Program S ε α).bind f = .throw e := rfl
@[simp] theorem call_bind (o : S.Op) (k : Except ε (S.Ret o) → Program S ε α)
    (f : α → Program S ε β) : (call o k).bind f = .call o (fun r => (k r).bind f) := rfl

theorem ofExcept_bind (x : Except ε α) (f : α → Program S ε β) :
    (ofExcept x).bind f = match x with
      | .ok a => f a
      | .error e => .throw e := by
  cases x with
  | ok a => rfl
  | error e => rfl

theorem embed_refl (p : Program S ε α) : p.embed (Signature.Hom.refl S) = p := by
  induction p with
  | ret a => rfl
  | throw e => rfl
  | call o k ih =>
    have hk : (fun r => (k (r.map (fun a => a))).embed (Signature.Hom.refl S)) = k := by
      funext r
      rw [map_self,ih]
    exact congrArg (call o) hk

theorem bind_assoc {γ : Type} (p : Program S ε α) (f : α → Program S ε β)
    (g : β → Program S ε γ) : (p.bind f).bind g = p.bind (fun a => (f a).bind g) := by
  induction p with
  | ret a => rfl
  | throw e => rfl
  | call o k ih => simp only [call_bind,ih]

/-- A program that has neither returned nor thrown. -/
def live : Program S ε α → Bool
  | .call _ _ => true
  | _ => false

def nextOp : Program S ε α → Option S.Op
  | .call o _ => some o
  | _ => none

/-- Every call the program can come to make, whatever it is answered, meets `P`. -/
def Calls (P : S.Op → Prop) : Program S ε α → Prop
  | .ret _ | .throw _ => True
  | .call o k => P o ∧ ∀ r, (k r).Calls P

theorem calls_bind {P : S.Op → Prop} {p : Program S ε α} {f : α → Program S ε β}
    (hp : p.Calls P) (hf : ∀ a, (f a).Calls P) : (p.bind f).Calls P := by
  induction p with
  | ret a => exact hf a
  | throw e => trivial
  | call o k ih => exact ⟨hp.1,fun r => ih r (hp.2 r)⟩

@[simp] theorem calls_ofExcept (P : S.Op → Prop) (x : Except ε α) :
    (ofExcept x : Program S ε α).Calls P := by
  cases x with
  | ok a => trivial
  | error e => trivial

theorem Calls.mono {P Q : S.Op → Prop} {p : Program S ε α} (hp : p.Calls P)
    (h : ∀ o, P o → Q o) : p.Calls Q := by
  induction p with
  | ret a => trivial
  | throw e => trivial
  | call o k ih => exact ⟨h o hp.1,fun r => ih r (hp.2 r)⟩

theorem calls_perform {P : S.Op → Prop} {o : S.Op} (h : P o) :
    (perform o : Program S ε (S.Ret o)).Calls P := ⟨h,calls_ofExcept P⟩

theorem calls_tryCatch {P : S.Op → Prop} {p : Program S ε α} {f : ε → Program S ε α}
    (hp : p.Calls P) (hf : ∀ e, (f e).Calls P) : (p.tryCatch f).Calls P := by
  induction p with
  | ret a => trivial
  | throw e => exact hf e
  | call o k ih => exact ⟨hp.1,fun r => ih r (hp.2 r)⟩

theorem Calls.embed {P : S'.Op → Prop} {φ : Signature.Hom S S'} {p : Program S ε α}
    (hp : p.Calls fun o => P (φ.op o)) : (p.embed φ).Calls P := by
  induction p with
  | ret a => trivial
  | throw e => trivial
  | call o k ih => exact ⟨hp.1,fun r => ih _ (hp.2 _)⟩

theorem calls_of_forall {P : S.Op → Prop} (h : ∀ o, P o) (p : Program S ε α) : p.Calls P := by
  induction p with
  | ret a => trivial
  | throw e => trivial
  | call o k ih => exact ⟨h o,ih⟩

theorem calls_embed {P : S'.Op → Prop} {φ : Signature.Hom S S'} (h : ∀ o, P (φ.op o))
    (p : Program S ε α) : (p.embed φ).Calls P := (calls_of_forall h p).embed

end Program

/-- What the environment may answer: `step s o r s'` says that a call `o` in state `s` can
answer `r` and leave `s'`; `allows s o` that the caller may make the call there at all. -/
structure Semantics (S : Signature) (ε σ : Type) where
  allows : σ → S.Op → Prop
  step : σ → (o : S.Op) → Except ε (S.Ret o) → σ → Prop

namespace Program

variable {S S' : Signature} {ε α β σ : Type}

/-- Every run of the program from the state makes allowed calls only and ends in `Q`. -/
def wp (M : Semantics S ε σ) : Program S ε α → (Except ε α → σ → Prop) → σ → Prop
  | .ret a, Q, s => Q (.ok a) s
  | .throw e, Q, s => Q (.error e) s
  | .call o k, Q, s => M.allows s o ∧ ∀ r s', M.step s o r s' → (k r).wp M Q s'

variable {M : Semantics S ε σ} {Q Q' : Except ε α → σ → Prop}

@[simp] theorem wp_ret (a : α) (s : σ) : (ret a : Program S ε α).wp M Q s ↔ Q (.ok a) s := Iff.rfl
@[simp] theorem wp_throw (e : ε) (s : σ) :
    (throw e : Program S ε α).wp M Q s ↔ Q (.error e) s := Iff.rfl
theorem wp_call (o : S.Op) (k : Except ε (S.Ret o) → Program S ε α) (s : σ) :
    (call o k).wp M Q s ↔ M.allows s o ∧ ∀ r s', M.step s o r s' → (k r).wp M Q s' := Iff.rfl

theorem wp_mono (p : Program S ε α) {s : σ} (h : ∀ r s, Q r s → Q' r s) (hp : p.wp M Q s) :
    p.wp M Q' s := by
  induction p generalizing s with
  | ret a => exact h _ _ hp
  | throw e => exact h _ _ hp
  | call o k ih => exact ⟨hp.1,fun r s' hs => ih r (hp.2 r s' hs)⟩

/-- The postcondition a program must meet for the program after it. -/
def andThen (M : Semantics S ε σ) (f : α → Program S ε β) (Q : Except ε β → σ → Prop) :
    Except ε α → σ → Prop
  | .ok a, s => (f a).wp M Q s
  | .error e, s => Q (.error e) s

@[simp] theorem andThen_ok (f : α → Program S ε β) (Q : Except ε β → σ → Prop) (a : α) (s : σ) :
    andThen M f Q (.ok a) s ↔ (f a).wp M Q s := Iff.rfl
@[simp] theorem andThen_error (f : α → Program S ε β) (Q : Except ε β → σ → Prop) (e : ε) (s : σ) :
    andThen M f Q (.error e) s ↔ Q (.error e) s := Iff.rfl

theorem wp_bind (p : Program S ε α) (f : α → Program S ε β) (Q : Except ε β → σ → Prop) (s : σ) :
    (p.bind f).wp M Q s ↔ p.wp M (andThen M f Q) s := by
  induction p generalizing s with
  | ret a => exact Iff.rfl
  | throw e => exact Iff.rfl
  | call o k ih => simp only [call_bind,wp_call,ih]

/-- The postcondition a program must meet for the handler around it. -/
def orElse (M : Semantics S ε σ) (h : ε → Program S ε α) (Q : Except ε α → σ → Prop) :
    Except ε α → σ → Prop
  | .ok a, s => Q (.ok a) s
  | .error e, s => (h e).wp M Q s

@[simp] theorem orElse_ok (h : ε → Program S ε α) (a : α) (s : σ) :
    orElse M h Q (.ok a) s ↔ Q (.ok a) s := Iff.rfl
@[simp] theorem orElse_error (h : ε → Program S ε α) (e : ε) (s : σ) :
    orElse M h Q (.error e) s ↔ (h e).wp M Q s := Iff.rfl

theorem wp_tryCatch (p : Program S ε α) (h : ε → Program S ε α) (s : σ) :
    (p.tryCatch h).wp M Q s ↔ p.wp M (orElse M h Q) s := by
  induction p generalizing s with
  | ret a => exact Iff.rfl
  | throw e => exact Iff.rfl
  | call o k ih => simp only [tryCatch,wp_call,ih]

@[simp] theorem wp_ofExcept (x : Except ε α) (s : σ) :
    (ofExcept x : Program S ε α).wp M Q s ↔ Q x s := by
  cases x with
  | ok a => exact Iff.rfl
  | error e => exact Iff.rfl

/-- The finalizer runs once, from wherever the block ends. -/
theorem wp_tryFinally {p : Program S ε α} {f : Program S ε Unit} {s : σ}
    (hp : p.wp M (fun r s' => f.wp M (fun r' s'' => Q (r'.bind fun _ => r) s'') s') s) :
    (p.tryFinally f).wp M Q s := by
  rw [tryFinally,wp_bind,wp_tryCatch]
  apply wp_mono p _ hp
  intro r s' hf
  cases r with
  | ok a =>
    rw [orElse_ok,andThen_ok,wp_bind]
    apply wp_mono f _ hf
    intro r' s'' hQ
    cases r' with
    | ok _ => exact hQ
    | error e => exact hQ
  | error e =>
    rw [orElse_error,wp_bind]
    apply wp_mono f _ hf
    intro r' s'' hQ
    cases r' with
    | ok _ => exact hQ
    | error e' => exact hQ

end Program

/-- An executable environment: the choice `c` decides what the environment is free to decide. -/
abbrev Handler (S : Signature) (ε σ χ : Type) :=
  (o : S.Op) → χ → σ → Except ε (S.Ret o) × σ

/-- The environment as the calls that `φ` embeds meet it. -/
def Handler.pullback {S S' : Signature} {ε σ χ : Type} (φ : Signature.Hom S S')
    (h : Handler S' ε σ χ) : Handler S ε σ χ
  | o, c, s => ((h (φ.op o) c s).1.map (φ.ret o),(h (φ.op o) c s).2)

def Handler.semantics {S : Signature} {ε σ χ : Type} (h : Handler S ε σ χ) : Semantics S ε σ where
  allows _ _ := True
  step s o r s' := ∃ c, h o c s = (r,s')

namespace Program

variable {S : Signature} {ε α β σ χ : Type} {h : Handler S ε σ χ} {Q : Except ε α → σ → Prop}

/-- The `i`-th call of the run is answered under the `i`-th choice of the script. -/
def exec (h : Handler S ε σ χ) : Program S ε α → (Nat → χ) → σ → Except ε α × σ
  | .ret a, _, s => (.ok a,s)
  | .throw e, _, s => (.error e,s)
  | .call o k, script, s =>
      (k (h o (script 0) s).1).exec h (fun i => script (i+1)) (h o (script 0) s).2

@[simp] theorem exec_ret (a : α) (script : Nat → χ) (s : σ) :
    (ret a : Program S ε α).exec h script s = (.ok a,s) := rfl
@[simp] theorem exec_throw (e : ε) (script : Nat → χ) (s : σ) :
    (throw e : Program S ε α).exec h script s = (.error e,s) := rfl
theorem exec_call (o : S.Op) (k : Except ε (S.Ret o) → Program S ε α) (script : Nat → χ) (s : σ) :
    (call o k).exec h script s =
      (k (h o (script 0) s).1).exec h (fun i => script (i+1)) (h o (script 0) s).2 := rfl

/-- The choices that the run leaves for whatever follows it. -/
def rest (h : Handler S ε σ χ) : Program S ε α → (Nat → χ) → σ → Nat → χ
  | .ret _, script, _ => script
  | .throw _, script, _ => script
  | .call o k, script, s =>
      (k (h o (script 0) s).1).rest h (fun i => script (i+1)) (h o (script 0) s).2

@[simp] theorem rest_ret (a : α) (script : Nat → χ) (s : σ) :
    (ret a : Program S ε α).rest h script s = script := rfl
@[simp] theorem rest_throw (e : ε) (script : Nat → χ) (s : σ) :
    (throw e : Program S ε α).rest h script s = script := rfl
theorem rest_call (o : S.Op) (k : Except ε (S.Ret o) → Program S ε α) (script : Nat → χ) (s : σ) :
    (call o k).rest h script s =
      (k (h o (script 0) s).1).rest h (fun i => script (i+1)) (h o (script 0) s).2 := rfl

/-- The calls of the run with their answers, the first call first. -/
def trace (h : Handler S ε σ χ) :
    Program S ε α → (Nat → χ) → σ → List ((o : S.Op) × Except ε (S.Ret o))
  | .ret _, _, _ => []
  | .throw _, _, _ => []
  | .call o k, script, s =>
      ⟨o,(h o (script 0) s).1⟩ ::
        (k (h o (script 0) s).1).trace h (fun i => script (i+1)) (h o (script 0) s).2

@[simp] theorem trace_ret (a : α) (script : Nat → χ) (s : σ) :
    (ret a : Program S ε α).trace h script s = [] := rfl
@[simp] theorem trace_throw (e : ε) (script : Nat → χ) (s : σ) :
    (throw e : Program S ε α).trace h script s = [] := rfl
theorem trace_call (o : S.Op) (k : Except ε (S.Ret o) → Program S ε α) (script : Nat → χ) (s : σ) :
    (call o k).trace h script s = ⟨o,(h o (script 0) s).1⟩ ::
      (k (h o (script 0) s).1).trace h (fun i => script (i+1)) (h o (script 0) s).2 := rfl

/-- A run leaves the script from where its own calls end. -/
theorem rest_eq_drop (p : Program S ε α) (script : Nat → χ) (s : σ) :
    p.rest h script s = fun i => script (i + (p.trace h script s).length) := by
  induction p generalizing script s with
  | ret a => rfl
  | throw e => rfl
  | call o k ih =>
    simp only [rest_call,ih,trace_call,List.length_cons]
    rfl

theorem trace_calls {P : S.Op → Prop} {p : Program S ε α} (hp : p.Calls P) (script : Nat → χ)
    (s : σ) : ∀ c ∈ p.trace h script s, P c.1 := by
  induction p generalizing script s with
  | ret a => simp
  | throw e => simp
  | call o k ih =>
    intro c hc
    rw [trace_call,List.mem_cons] at hc
    rcases hc with rfl | hc
    · exact hp.1
    · exact ih _ (hp.2 _) _ _ c hc

theorem exec_bind (p : Program S ε α) (f : α → Program S ε β) (script : Nat → χ) (s : σ) :
    (p.bind f).exec h script s = match p.exec h script s with
      | (.ok a,s') => (f a).exec h (p.rest h script s) s'
      | (.error e,s') => (.error e,s') := by
  induction p generalizing script s with
  | ret a => rfl
  | throw e => rfl
  | call o k ih => exact ih _ _ _

theorem rest_bind (p : Program S ε α) (f : α → Program S ε β) (script : Nat → χ) (s : σ) :
    (p.bind f).rest h script s = match p.exec h script s with
      | (.ok a,s') => (f a).rest h (p.rest h script s) s'
      | (.error _,_) => p.rest h script s := by
  induction p generalizing script s with
  | ret a => rfl
  | throw e => rfl
  | call o k ih => exact ih _ _ _

theorem trace_bind (p : Program S ε α) (f : α → Program S ε β) (script : Nat → χ) (s : σ) :
    (p.bind f).trace h script s = p.trace h script s ++ match p.exec h script s with
      | (.ok a,s') => (f a).trace h (p.rest h script s) s'
      | (.error _,_) => [] := by
  induction p generalizing script s with
  | ret a => rfl
  | throw e => rfl
  | call o k ih => exact congrArg (List.cons _) (ih _ _ _)

/-- What is done to the value makes no calls. -/
theorem trace_bind_ret (p : Program S ε α) (f : α → β) (script : Nat → χ) (s : σ) :
    (p.bind fun a => .ret (f a)).trace h script s = p.trace h script s := by
  rw [trace_bind]
  split
  · exact List.append_nil _
  · exact List.append_nil _

/-- A call that the second program never makes was made by the first. -/
theorem mem_trace_bind_left {P : S.Op → Prop} {p : Program S ε α} {f : α → Program S ε β}
    {script : Nat → χ} {s : σ} (hf : ∀ a, (f a).Calls P) {c : (o : S.Op) × Except ε (S.Ret o)}
    (hc : ¬ P c.1) (hm : c ∈ (p.bind f).trace h script s) : c ∈ p.trace h script s := by
  rw [trace_bind,List.mem_append] at hm
  rcases hm with hm | hm
  · exact hm
  · split at hm
    · exact absurd (trace_calls (hf _) _ _ c hm) hc
    · cases hm

/-- A call that the first program never makes was made by the second. -/
theorem mem_trace_bind_right {P : S.Op → Prop} {p : Program S ε α} {f : α → Program S ε β}
    {script : Nat → χ} {s : σ} (hp : p.Calls P) {c : (o : S.Op) × Except ε (S.Ret o)}
    (hc : ¬ P c.1) (hm : c ∈ (p.bind f).trace h script s) :
    ∃ a s', p.exec h script s = (.ok a,s') ∧ c ∈ (f a).trace h (p.rest h script s) s' := by
  rw [trace_bind,List.mem_append] at hm
  rcases hm with hm | hm
  · exact absurd (trace_calls hp _ _ c hm) hc
  · cases hx : p.exec h script s with
    | mk r s' =>
      cases r with
      | error e => simp [hx] at hm
      | ok a => exact ⟨a,s',rfl,by simpa [hx] using hm⟩

theorem exec_bind_of_ok {p : Program S ε α} {f : α → Program S ε β} {script : Nat → χ} {s s' : σ}
    {a : α} (hx : p.exec h script s = (.ok a,s')) :
    (p.bind f).exec h script s = (f a).exec h (p.rest h script s) s' := by
  rw [exec_bind,hx]

/-- A run that returns has passed through both parts. -/
theorem exec_bind_eq_ok {p : Program S ε α} {f : α → Program S ε β} {script : Nat → χ} {s s' : σ}
    {b : β} (hb : (p.bind f).exec h script s = (.ok b,s')) :
    ∃ a s₁, p.exec h script s = (.ok a,s₁) ∧
      (f a).exec h (p.rest h script s) s₁ = (.ok b,s') := by
  rw [exec_bind] at hb
  cases hx : p.exec h script s with
  | mk answer s₁ =>
    rw [hx] at hb
    cases answer with
    | error e => cases hb
    | ok a => exact ⟨a,s₁,rfl,hb⟩

theorem exec_tryCatch (p : Program S ε α) (f : ε → Program S ε α) (script : Nat → χ) (s : σ) :
    (p.tryCatch f).exec h script s = match p.exec h script s with
      | (.ok a,s') => (.ok a,s')
      | (.error e,s') => (f e).exec h (p.rest h script s) s' := by
  induction p generalizing script s with
  | ret a => rfl
  | throw e => rfl
  | call o k ih => exact ih _ _ _

theorem rest_tryCatch (p : Program S ε α) (f : ε → Program S ε α) (script : Nat → χ) (s : σ) :
    (p.tryCatch f).rest h script s = match p.exec h script s with
      | (.ok _,_) => p.rest h script s
      | (.error e,s') => (f e).rest h (p.rest h script s) s' := by
  induction p generalizing script s with
  | ret a => rfl
  | throw e => rfl
  | call o k ih => exact ih _ _ _

theorem trace_tryCatch (p : Program S ε α) (f : ε → Program S ε α) (script : Nat → χ) (s : σ) :
    (p.tryCatch f).trace h script s = p.trace h script s ++ match p.exec h script s with
      | (.ok _,_) => []
      | (.error e,s') => (f e).trace h (p.rest h script s) s' := by
  induction p generalizing script s with
  | ret a => rfl
  | throw e => rfl
  | call o k ih => exact congrArg (List.cons _) (ih _ _ _)

theorem mem_trace_tryCatch_left {P : S.Op → Prop} {p : Program S ε α} {f : ε → Program S ε α}
    {script : Nat → χ} {s : σ} (hf : ∀ e, (f e).Calls P) {c : (o : S.Op) × Except ε (S.Ret o)}
    (hc : ¬ P c.1) (hm : c ∈ (p.tryCatch f).trace h script s) : c ∈ p.trace h script s := by
  rw [trace_tryCatch,List.mem_append] at hm
  rcases hm with hm | hm
  · exact hm
  · split at hm
    · cases hm
    · exact absurd (trace_calls (hf _) _ _ c hm) hc

@[simp] theorem exec_ofExcept (x : Except ε α) (script : Nat → χ) (s : σ) :
    (ofExcept x : Program S ε α).exec h script s = (x,s) := by
  cases x with
  | ok a => rfl
  | error e => rfl

@[simp] theorem rest_ofExcept (x : Except ε α) (script : Nat → χ) (s : σ) :
    (ofExcept x : Program S ε α).rest h script s = script := by
  cases x with
  | ok a => rfl
  | error e => rfl

@[simp] theorem trace_ofExcept (x : Except ε α) (script : Nat → χ) (s : σ) :
    (ofExcept x : Program S ε α).trace h script s = [] := by
  cases x with
  | ok a => rfl
  | error e => rfl

/-- Every run that returns makes `n` calls. -/
def Takes (n : Nat) (p : Program S ε α) (h : Handler S ε σ χ) : Prop :=
  ∀ script s a s', p.exec h script s = (.ok a,s') → (p.trace h script s).length = n

theorem takes_ret (a : α) : (ret a : Program S ε α).Takes 0 h := by
  intro script s a s' _
  rfl

theorem takes_throw (n : Nat) (e : ε) : (throw e : Program S ε α).Takes n h := by
  intro script s a s' he
  cases he

theorem takes_perform (o : S.Op) : (perform o).Takes 1 h := by
  intro script s a s' _
  simp [perform,trace_call]

theorem Takes.bind {m n : Nat} {p : Program S ε α} {f : α → Program S ε β} (hp : p.Takes m h)
    (hf : ∀ a, (f a).Takes n h) : (p.bind f).Takes (m+n) h := by
  intro script s b s' he
  rw [exec_bind] at he
  rw [trace_bind,List.length_append]
  cases hx : p.exec h script s with
  | mk r t =>
    cases r with
    | error e => simp [hx] at he
    | ok a =>
      rw [hx] at he
      have h₁ := hp script s a t hx
      have h₂ := hf a _ t b s' he
      simp only [h₁,h₂]

theorem exec_perform (o : S.Op) (script : Nat → χ) (s : σ) :
    (perform o).exec h script s = h o (script 0) s := by
  simp [perform,exec_call]

section embed
variable {S' : Signature} {φ : Signature.Hom S S'} {h : Handler S' ε σ χ}

theorem exec_embed (p : Program S ε α) (script : Nat → χ) (s : σ) :
    (p.embed φ).exec h script s = p.exec (h.pullback φ) script s := by
  induction p generalizing script s with
  | ret a => rfl
  | throw e => rfl
  | call o k ih => exact ih _ _ _

/-- What an embedded program calls is what the program calls. -/
theorem ops_embed (p : Program S ε α) (script : Nat → χ) (s : σ) :
    ((p.embed φ).trace h script s).map Sigma.fst =
      (p.trace (h.pullback φ) script s).map fun c => φ.op c.1 := by
  induction p generalizing script s with
  | ret a => rfl
  | throw e => rfl
  | call o k ih => exact congrArg (List.cons _) (ih _ _ _)

end embed

/-- What no call of a program changes is after a run what it was before. -/
theorem exec_keeps {β : Type} {P : S.Op → Prop} (f : σ → β)
    (hf : ∀ o c s, P o → f (h o c s).2 = f s) {p : Program S ε α} (hp : p.Calls P)
    (script : Nat → χ) (s : σ) : f (p.exec h script s).2 = f s := by
  induction p generalizing script s with
  | ret a => rfl
  | throw e => rfl
  | call o k ih => rw [exec_call,ih _ (hp.2 _),hf _ _ _ hp.1]

/-- Two environments whose answers to the calls of a program keep a relation between their states. -/
theorem exec_related {τ : Type} {h' : Handler S ε τ χ} {R : σ → τ → Prop} {P : S.Op → Prop}
    (hsim : ∀ o c s t, P o → R s t →
      (h o c s).1 = (h' o c t).1 ∧ R (h o c s).2 (h' o c t).2)
    {p : Program S ε α} (hp : p.Calls P) (script : Nat → χ) {s : σ} {t : τ} (hR : R s t) :
    (p.exec h script s).1 = (p.exec h' script t).1 ∧
      R (p.exec h script s).2 (p.exec h' script t).2 := by
  induction p generalizing script s t with
  | ret a => exact ⟨rfl,hR⟩
  | throw e => exact ⟨rfl,hR⟩
  | call o k ih =>
    have hs := hsim o (script 0) s t hp.1 hR
    simp only [exec_call]
    rw [← hs.1]
    exact ih _ (hp.2 _) _ hs.2

/-- Two environments that agree, through `abs`, on the calls of a program agree on its runs. -/
theorem exec_simulation {τ : Type} {h' : Handler S ε τ χ} (abs : σ → τ) {P : S.Op → Prop}
    (hsim : ∀ o c s, P o →
      (h o c s).1 = (h' o c (abs s)).1 ∧ abs (h o c s).2 = (h' o c (abs s)).2)
    {p : Program S ε α} (hp : p.Calls P) (script : Nat → χ) (s : σ) :
    (p.exec h script s).1 = (p.exec h' script (abs s)).1 ∧
      abs (p.exec h script s).2 = (p.exec h' script (abs s)).2 := by
  refine exec_related (R := fun s t => abs s = t) ?_ hp script rfl
  rintro o c s _ ho rfl
  exact hsim o c s ho

theorem wp_call_handler (o : S.Op) (k : Except ε (S.Ret o) → Program S ε α) (s : σ) :
    (call o k).wp h.semantics Q s ↔ ∀ c, (k (h o c s).1).wp h.semantics Q (h o c s).2 := by
  constructor
  · intro hp c
    exact hp.2 _ _ ⟨c,rfl⟩
  · intro hp
    refine ⟨trivial,?_⟩
    rintro r s' ⟨c,hc⟩
    have := hp c
    rwa [hc] at this

/-- The weakest precondition is exactly what every scripted execution meets. -/
theorem wp_iff_exec [Inhabited χ] (p : Program S ε α) (s : σ) :
    p.wp h.semantics Q s ↔ ∀ script, Q (p.exec h script s).1 (p.exec h script s).2 := by
  induction p generalizing s with
  | ret a => exact ⟨fun hp _ => hp,fun hp => hp (fun _ => default)⟩
  | throw e => exact ⟨fun hp _ => hp,fun hp => hp (fun _ => default)⟩
  | call o k ih =>
    rw [wp_call_handler]
    constructor
    · intro hp script
      exact (ih _ _).1 (hp (script 0)) _
    · intro hp c
      rw [ih]
      intro script
      exact hp (fun i => Nat.casesOn i c script)

end Program
end Interaction
