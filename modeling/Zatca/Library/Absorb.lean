import Zatca.Library.Program
set_option autoImplicit false

/-! A program of two interfaces, one of which it answers itself from a state of its own. -/

namespace Interaction

/-- The calls of either interface. -/
abbrev Signature.sum (S T : Signature) : Signature where
  Op := S.Op ⊕ T.Op
  Ret
    | .inl o => S.Ret o
    | .inr o => T.Ret o

abbrev Signature.left (S T : Signature) : Signature.Hom S (S.sum T) := ⟨.inl,fun _ r => r⟩
abbrev Signature.right (S T : Signature) : Signature.Hom T (S.sum T) := ⟨.inr,fun _ r => r⟩

variable {S T : Signature} {ε α β σ τ χ : Type}

/-- Each interface is answered from its own part of the state. -/
def Handler.sum (h : Handler S ε σ Unit) (h' : Handler T ε τ χ) :
    Handler (S.sum T) ε (σ × τ) χ
  | .inl o, _, (s,t) => ((h o () s).1,((h o () s).2,t))
  | .inr o, x, (s,t) => ((h' o x t).1,(s,(h' o x t).2))

namespace Program

/-- What came of the program, an error included. -/
def attempt : Program S ε α → Program S ε (Except ε α)
  | .ret a => .ret (.ok a)
  | .throw e => .ret (.error e)
  | .call o k => .call o fun r => (k r).attempt

theorem calls_attempt {P : S.Op → Prop} {p : Program S ε α} (hp : p.Calls P) :
    p.attempt.Calls P := by
  induction p with
  | ret a => trivial
  | throw e => trivial
  | call o k ih => exact ⟨hp.1,fun r => ih r (hp.2 r)⟩

theorem attempt_bind (p : Program S ε α) (f : α → Program S ε β) :
    (p.bind f).attempt = p.attempt.bind fun
      | .ok a => (f a).attempt
      | .error e => .ret (.error e) := by
  induction p with
  | ret a => rfl
  | throw e => rfl
  | call o k ih => simp only [attempt,call_bind,ih]

/-- A handler that does not throw turns the outcome into a value. -/
theorem attempt_tryCatch (p : Program S ε α) (f : ε → α) :
    p.tryCatch (fun e => .ret (f e)) = p.attempt.bind fun
      | .ok a => .ret a
      | .error e => .ret (f e) := by
  induction p with
  | ret a => rfl
  | throw e => rfl
  | call o k ih => simp only [tryCatch,attempt,call_bind,ih]

@[simp] theorem attempt_ofExcept (x : Except ε α) :
    (ofExcept x : Program S ε α).attempt = .ret x := by
  cases x with
  | ok a => rfl
  | error e => rfl

theorem bind_attempt (p : Program S ε α) (f : α → Program S ε β) :
    p.bind f = p.attempt.bind fun
      | .ok a => f a
      | .error e => .throw e := by
  induction p with
  | ret a => rfl
  | throw e => rfl
  | call o k ih => simp only [attempt,call_bind,ih]

theorem exec_attempt (h : Handler S ε σ χ) (p : Program S ε α) (script : Nat → χ) (s : σ) :
    p.attempt.exec h script s = (.ok (p.exec h script s).1,(p.exec h script s).2) := by
  induction p generalizing script s with
  | ret a => rfl
  | throw e => rfl
  | call o k ih => exact ih _ _ _

/-- The calls of the first interface are answered from the state, which the program carries. -/
def absorb (h : Handler S ε σ Unit) : Program (S.sum T) ε α → σ → Program T ε (Except ε α × σ)
  | .ret a, s => .ret (.ok a,s)
  | .throw e, s => .ret (.error e,s)
  | .call (.inl o) k, s => (k (h o () s).1).absorb h (h o () s).2
  | .call (.inr o) k, s => .call o fun r => (k r).absorb h s

variable {h : Handler S ε σ Unit}

theorem absorb_bind (p : Program (S.sum T) ε α) (f : α → Program (S.sum T) ε β) (s : σ) :
    (p.bind f).absorb h s = (p.absorb h s).bind fun
      | (.ok a,s') => (f a).absorb h s'
      | (.error e,s') => .ret (.error e,s') := by
  induction p generalizing s with
  | ret a => rfl
  | throw e => rfl
  | call o k ih =>
    cases o with
    | inl o => exact ih _ _
    | inr o => simp only [call_bind,absorb,ih]

@[simp] theorem absorb_ofExcept (x : Except ε α) (s : σ) :
    (ofExcept x : Program (S.sum T) ε α).absorb h s = .ret (x,s) := by
  cases x with
  | ok a => rfl
  | error e => rfl

theorem absorb_attempt (p : Program (S.sum T) ε α) (s : σ) :
    p.attempt.absorb h s = (p.absorb h s).bind fun r => .ret (.ok r.1,r.2) := by
  induction p generalizing s with
  | ret a => rfl
  | throw e => rfl
  | call o k ih =>
    cases o with
    | inl o => exact ih _ _
    | inr o => simp only [attempt,call_bind,absorb,ih]

/-- What only calls the first interface is run. -/
theorem absorb_left (p : Program S ε α) (s : σ) :
    (p.embed (S.left T)).absorb h s = .ret (p.exec h (fun _ => ()) s) := by
  induction p generalizing s with
  | ret a => rfl
  | throw e => rfl
  | call o k ih =>
    simp only [embed,absorb,map_self,ih,exec_call]

/-- What only calls the second is left as it is. -/
theorem absorb_right (p : Program T ε α) (s : σ) :
    (p.embed (S.right T)).absorb h s = p.attempt.bind fun r => .ret (r,s) := by
  induction p generalizing s with
  | ret a => rfl
  | throw e => rfl
  | call o k ih =>
    simp only [embed,absorb,attempt,call_bind,map_self,ih]

/-- The script that answers one more call before the others. -/
def before (x : χ) (script : Nat → χ) : Nat → χ
  | 0 => x
  | i+1 => script i

/-- A run of the program on the second interface is one on both, and makes its calls there. -/
theorem exec_absorb (h' : Handler T ε τ χ) (p : Program (S.sum T) ε α) (script : Nat → χ) (s : σ)
    (t : τ) : ∃ script' r s' t', (p.absorb h s).exec h' script t = (.ok (r,s'),t') ∧
      p.exec (h.sum h') script' (s,t) = (r,(s',t')) ∧
      ((p.absorb h s).trace h' script t).map Sigma.fst =
        ((p.trace (h.sum h') script' (s,t)).map Sigma.fst).filterMap Sum.getRight? := by
  induction p generalizing script s t with
  | ret a => exact ⟨script,_,_,_,rfl,rfl,rfl⟩
  | throw e => exact ⟨script,_,_,_,rfl,rfl,rfl⟩
  | call o k ih =>
    cases o with
    | inl o =>
      obtain ⟨script',r,s',t',hexec,hboth,htrace⟩ := ih (h o () s).1 script (h o () s).2 t
      refine ⟨before (script 0) script',r,s',t',hexec,hboth,?_⟩
      rw [trace_call,List.map_cons,List.filterMap_cons]
      exact htrace
    | inr o =>
      obtain ⟨script',r,s',t',hexec,hboth,htrace⟩ :=
        ih (h' o (script 0) t).1 (fun i => script (i+1)) s (h' o (script 0) t).2
      refine ⟨before (script 0) script',r,s',t',hexec,hboth,?_⟩
      simp only [absorb,trace_call,List.map_cons,List.filterMap_cons,htrace]
      rfl

end Program
end Interaction
