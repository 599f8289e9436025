import Zatca.Library.Absorb
set_option autoImplicit false

/-! A program of one interface on another: every call is replaced by a program there. -/

namespace Interaction

variable {S T : Signature} {ε α β : Type}

namespace Program

@[simp] theorem embed_ofExcept (φ : Signature.Hom S T) (x : Except ε α) :
    (ofExcept x : Program S ε α).embed φ = ofExcept x := by
  cases x with
  | ok a => rfl
  | error e => rfl

theorem attempt_bind_ofExcept (p : Program S ε α) : p.attempt.bind ofExcept = p := by
  induction p with
  | ret a => rfl
  | throw e => rfl
  | call o k ih => simp only [attempt,call_bind,ih]

/-- What is done with an outcome is under the handler, finding it out is not. -/
theorem attempt_bind_tryCatch (p : Program S ε α) (f : Except ε α → Program S ε β)
    (g : ε → Program S ε β) :
    (p.attempt.bind f).tryCatch g = p.attempt.bind fun r => (f r).tryCatch g := by
  induction p with
  | ret a => rfl
  | throw e => rfl
  | call o k ih => simp only [attempt,call_bind,tryCatch,ih]

def interpret (I : (o : S.Op) → Program T ε (S.Ret o)) : Program S ε α → Program T ε α
  | .ret a => .ret a
  | .throw e => .throw e
  | .call o k => (I o).attempt.bind fun r => (k r).interpret I

variable {I : (o : S.Op) → Program T ε (S.Ret o)}

@[simp] theorem interpret_ret (a : α) : (ret a : Program S ε α).interpret I = .ret a := rfl
@[simp] theorem interpret_throw (e : ε) : (throw e : Program S ε α).interpret I = .throw e := rfl

@[simp] theorem interpret_ofExcept (x : Except ε α) :
    (ofExcept x : Program S ε α).interpret I = ofExcept x := by
  cases x with
  | ok a => rfl
  | error e => rfl

@[simp] theorem interpret_perform (o : S.Op) :
    (perform o : Program S ε (S.Ret o)).interpret I = I o := by
  simp only [perform,interpret,interpret_ofExcept,attempt_bind_ofExcept]

@[simp] theorem interpret_bind (p : Program S ε α) (f : α → Program S ε β) :
    (p.bind f).interpret I = (p.interpret I).bind fun a => (f a).interpret I := by
  induction p with
  | ret a => rfl
  | throw e => rfl
  | call o k ih => simp only [call_bind,interpret,bind_assoc,ih]

@[simp] theorem interpret_tryCatch (p : Program S ε α) (f : ε → Program S ε α) :
    (p.tryCatch f).interpret I = (p.interpret I).tryCatch fun e => (f e).interpret I := by
  induction p with
  | ret a => rfl
  | throw e => rfl
  | call o k ih => simp only [tryCatch,interpret,attempt_bind_tryCatch,ih]

@[simp] theorem interpret_tryFinally (p : Program S ε α) (f : Program S ε Unit) :
    (p.tryFinally f).interpret I = (p.interpret I).tryFinally (f.interpret I) := by
  simp only [tryFinally,interpret_bind,interpret_tryCatch,interpret_throw,interpret_ret]

/-- Calls that stand for themselves are left as they are. -/
theorem interpret_left {I : (o : (S.sum T).Op) → Program S ε ((S.sum T).Ret o)}
    (hI : ∀ o, I (.inl o) = perform o) (p : Program S ε α) :
    (p.embed (S.left T)).interpret I = p := by
  induction p with
  | ret a => rfl
  | throw e => rfl
  | call o k ih =>
    simp only [embed,interpret,hI,perform,attempt,attempt_ofExcept,call_bind,ret_bind,map_self,ih]

end Program
end Interaction
