import Zatca.Library.Program
set_option autoImplicit false

/-! The calls that took effect in a run. -/

namespace Interaction

variable {S S' : Signature} {ε α β σ χ O : Type}

/-- Keeps the calls that succeeded, in order, beside the state. -/
def Handler.journal (h : Handler S ε σ χ) : Handler S ε (σ × List S.Op) χ := fun o x s =>
  ((h o x s.1).1,((h o x s.1).2,if (h o x s.1).1.isOk then s.2 ++ [o] else s.2))

/-- Among the calls that succeeded is one of the sort. -/
def TookEffect (P : O → Prop) (log : List O) : Prop := ∃ o ∈ log, P o

theorem not_tookEffect_nil (P : O → Prop) : ¬ TookEffect P [] := by simp [TookEffect]

theorem tookEffect_append {P : O → Prop} {log new : List O} :
    TookEffect P (log ++ new) ↔ TookEffect P log ∨ TookEffect P new := by
  simp [TookEffect,or_and_right,exists_or]

/-- Since the first state a call of the one sort took effect if and only if one of the other did. -/
def Paired (P Q : O → Prop) (s t : σ × List O) : Prop :=
  ∃ new, t.2 = s.2 ++ new ∧ (TookEffect P new ↔ TookEffect Q new)

namespace Paired
variable {P Q : O → Prop}

theorem refl (s : σ × List O) : Paired P Q s s :=
  ⟨[],by simp,by simp [not_tookEffect_nil]⟩

theorem trans {s t u : σ × List O} (h₁ : Paired P Q s t) (h₂ : Paired P Q t u) :
    Paired P Q s u := by
  obtain ⟨new₁,he₁,hiff₁⟩ := h₁
  obtain ⟨new₂,he₂,hiff₂⟩ := h₂
  refine ⟨new₁ ++ new₂,by rw [he₂,he₁,List.append_assoc],?_⟩
  rw [tookEffect_append,tookEffect_append,hiff₁,hiff₂]

theorem of_neither {P Q : S.Op → Prop} {h : Handler S ε σ χ} {o : S.Op} (hP : ¬ P o) (hQ : ¬ Q o) (x : χ)
    (s : σ × List S.Op) : Paired P Q s (h.journal o x s).2 := by
  refine ⟨if (h o x s.1).1.isOk then [o] else [],?_,?_⟩
  · simp only [Handler.journal]
    split
    · rfl
    · simp
  · split
    · simp [TookEffect,hP,hQ]
    · simp [not_tookEffect_nil]

/-- Both took effect, in a row. -/
theorem of_both {s t : σ × List O} {new : List O} (he : t.2 = s.2 ++ new)
    (hP : TookEffect P new) (hQ : TookEffect Q new) : Paired P Q s t :=
  ⟨new,he,iff_of_true hP hQ⟩

end Paired

namespace Program
variable {h : Handler S ε σ χ} {P : S.Op → Prop}

/-- The first call of a complete run took effect. -/
theorem exec_journal_ok {o : S.Op} {f : S.Ret o → Program S ε α} {script : Nat → χ}
    {s t : σ × List S.Op} {a : α}
    (hrun : ((perform o).bind f).exec h.journal script s = (.ok a,t)) :
    ∃ r script' s', (f r).exec h.journal script' (s',s.2 ++ [o]) = (.ok a,t) := by
  rw [exec_bind,exec_perform] at hrun
  cases hr : (h o (script 0) s.1).1 with
  | error e => simp [Handler.journal,hr] at hrun
  | ok r =>
    simp only [Handler.journal,hr,Except.isOk,Except.toBool,if_true] at hrun
    exact ⟨r,_,_,hrun⟩

theorem exec_journal_perform {o : S.Op} {script : Nat → χ} {s t : σ × List S.Op} {a : S.Ret o}
    (hrun : (perform o).exec h.journal script s = (.ok a,t)) : t.2 = s.2 ++ [o] := by
  rw [exec_perform] at hrun
  have hok : (h o (script 0) s.1).1 = .ok a := congrArg Prod.fst hrun
  have ht : (h.journal o (script 0) s).2 = t := congrArg Prod.snd hrun
  rw [← ht]
  simp [Handler.journal,hok,Except.isOk,Except.toBool]

theorem tookEffect_of_quiet {p : Program S ε α} (hp : p.Calls (fun o => ¬ P o))
    (script : Nat → χ) (s : σ × List S.Op) :
    TookEffect P (p.exec h.journal script s).2.2 ↔ TookEffect P s.2 := by
  induction p generalizing script s with
  | ret a => rfl
  | throw e => rfl
  | call o k ih =>
    rw [exec_call,ih _ (hp.2 _)]
    simp only [Handler.journal]
    split
    · rw [tookEffect_append]
      simp [TookEffect,hp.1]
    · rfl

/-- The program returns right after a call of the sort, if that succeeds, and makes no other. -/
def EndsWith (P : S.Op → Prop) : Program S ε α → Prop
  | .ret _ => False
  | .throw _ => True
  | .call o k => (¬ P o ∧ ∀ r, EndsWith P (k r)) ∨
      (P o ∧ (∀ a, ∃ b, k (.ok a) = .ret b) ∧ ∀ e, ∃ e', k (.error e) = .throw e')

theorem endsWith_perform {o : S.Op} (ho : P o) (g : S.Ret o → α) :
    ((perform o : Program S ε _).bind (fun a => .ret (g a))).EndsWith P :=
  .inr ⟨ho,fun a => ⟨g a,rfl⟩,fun e => ⟨e,rfl⟩⟩

theorem endsWith_bind {p : Program S ε α} {f : α → Program S ε β}
    (hp : p.Calls (fun o => ¬ P o)) (hf : ∀ a, (f a).EndsWith P) : (p.bind f).EndsWith P := by
  induction p with
  | ret a => exact hf a
  | throw e => trivial
  | call o k ih => exact .inl ⟨hp.1,fun r => ih r (hp.2 r)⟩

theorem EndsWith.map {p : Program S ε α} (hp : p.EndsWith P) (g : α → β) :
    (p.bind (fun a => .ret (g a))).EndsWith P := by
  induction p with
  | ret a => exact hp
  | throw e => trivial
  | call o k ih =>
    rcases hp with ⟨ho,hk⟩ | ⟨ho,hok,herror⟩
    · exact .inl ⟨ho,fun r => ih r (hk r)⟩
    · refine .inr ⟨ho,fun a => ?_,fun e => ?_⟩
      · obtain ⟨b,hb⟩ := hok a
        exact ⟨g b,by simp only [hb,ret_bind]⟩
      · obtain ⟨e',he⟩ := herror e
        exact ⟨e',by simp only [he,throw_bind]⟩

theorem EndsWith.embed {φ : Signature.Hom S S'} {P : S'.Op → Prop} {p : Program S ε α}
    (hp : p.EndsWith (fun o => P (φ.op o))) : (p.embed φ).EndsWith P := by
  induction p with
  | ret a => exact hp
  | throw e => trivial
  | call o k ih =>
    rcases hp with ⟨ho,hk⟩ | ⟨ho,hok,herror⟩
    · exact .inl ⟨ho,fun r => ih _ (hk _)⟩
    · refine .inr ⟨ho,fun a => ?_,fun e => ?_⟩
      · obtain ⟨b,hb⟩ := hok (φ.ret o a)
        exact ⟨b,by simp only [Except.map]; rw [hb]; rfl⟩
      · obtain ⟨e',he⟩ := herror e
        exact ⟨e',by simp only [Except.map]; rw [he]; rfl⟩

/-- Such a program returns if and only if the call took effect. -/
theorem EndsWith.tookEffect_iff {p : Program S ε α} (hp : p.EndsWith P) (script : Nat → χ)
    {s : σ × List S.Op} (hs : ¬ TookEffect P s.2) :
    TookEffect P (p.exec h.journal script s).2.2 ↔ ∃ a, (p.exec h.journal script s).1 = .ok a := by
  induction p generalizing script s with
  | ret a => exact False.elim hp
  | throw e => simpa using hs
  | call o k ih =>
    rw [exec_call]
    rcases hp with ⟨ho,hk⟩ | ⟨ho,hok,herror⟩
    · refine ih _ (hk _) _ ?_
      simp only [Handler.journal]
      split
      · rw [tookEffect_append]
        simpa [TookEffect,ho] using hs
      · exact hs
    · cases hr : (h o (script 0) s.1).1 with
      | ok r =>
        obtain ⟨b,hb⟩ := hok r
        simp only [Handler.journal,hr,hb,exec_ret]
        refine iff_of_true ?_ ⟨b,rfl⟩
        simp [TookEffect,ho,Except.isOk,Except.toBool]
      | error e =>
        obtain ⟨e',he⟩ := herror e
        simp only [Handler.journal,hr,he,exec_throw]
        simpa [Except.isOk,Except.toBool] using hs

end Program
end Interaction
