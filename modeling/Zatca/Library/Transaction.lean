import Zatca.Library.Program
set_option autoImplicit false

/-! Code on a database with transactions: statements that stand for themselves, and batches that
are committed as a whole or not at all. -/

namespace Interaction

variable {S : Signature} {ε α β σ χ : Type}

inductive TxOp (S : Signature) where
  /-- A statement that is its own transaction. -/
  | query (o : S.Op)
  /-- Checks a client out of the pool. -/
  | connect
  | begin
  /-- A statement on the client. -/
  | inTx (o : S.Op)
  | commit
  | rollback

abbrev TxOp.Ret : TxOp S → Type
  | .query o => S.Ret o
  | .inTx o => S.Ret o
  | .connect | .begin | .commit | .rollback => Unit

abbrev Transactional (S : Signature) : Signature := ⟨TxOp S,TxOp.Ret⟩

abbrev onPool : Signature.Hom S (Transactional S) := ⟨.query,fun _ r => r⟩
abbrev onClient : Signature.Hom S (Transactional S) := ⟨.inTx,fun _ r => r⟩

/-- What is durable, and what the open transaction would make durable. -/
structure Database (σ : Type) where
  durable : σ
  uncommitted : Option σ := none

/-- `control` says whether a statement of the protocol fails; a commit that fails commits nothing. -/
def Database.handle (h : Handler S ε σ χ) (control : χ → Option ε) :
    Handler (Transactional S) ε (Database σ) χ
  | .query o, x, d => ((h o x d.durable).1,{ d with durable := (h o x d.durable).2 })
  | .connect, x, d => match control x with
      | some e => (.error e,d)
      | none => (.ok (),d)
  | .begin, x, d => match control x with
      | some e => (.error e,d)
      | none => (.ok (),{ d with uncommitted := some d.durable })
  | .inTx o, x, d => match d.uncommitted with
      | some s => ((h o x s).1,{ d with uncommitted := some (h o x s).2 })
      | none => ((h o x d.durable).1,{ d with durable := (h o x d.durable).2 })
  | .commit, x, d => match control x with
      | some e => (.error e,d)
      | none => (.ok (),⟨d.uncommitted.getD d.durable,none⟩)
  | .rollback, x, d => match control x with
      | some e => (.error e,{ d with uncommitted := none })
      | none => (.ok (),{ d with uncommitted := none })

/-- A batch between `BEGIN` and `COMMIT`. -/
def committed (batch : Program S ε α) : Program (Transactional S) ε α := do
  Program.perform (S := Transactional S) .begin
  let result ← batch.embed onClient
  Program.perform (S := Transactional S) .commit
  return result

/-- An error of the rollback does not mask the one that led to it. -/
def rolledBack (err : ε) : Program (Transactional S) ε α := do
  Program.tryCatch (Program.perform (S := Transactional S) .rollback) (fun _ => .ret ())
  Program.throw err

/-- Runs a batch on one client; a batch that throws is rolled back. -/
def withTransaction (batch : Program S ε α) : Program (Transactional S) ε α := do
  Program.perform (S := Transactional S) .connect
  Program.tryCatch (committed batch) rolledBack

namespace Program

variable (h : Handler S ε σ χ) (control : χ → Option ε)

/-- On an open transaction a batch works on the uncommitted state only. -/
theorem exec_onClient (p : Program S ε α) (script : Nat → χ) (d s : σ) :
    (p.embed onClient).exec (Database.handle h control) script ⟨d,some s⟩ =
      ((p.exec h script s).1,⟨d,some (p.exec h script s).2⟩) := by
  induction p generalizing script s with
  | ret a => rfl
  | throw e => rfl
  | call o k ih =>
    simp only [embed,exec_call,Database.handle]
    rw [map_self]
    exact ih _ _ _

theorem exec_onPool (p : Program S ε α) (script : Nat → χ) (s : σ) (u : Option σ) :
    (p.embed onPool).exec (Database.handle h control) script ⟨s,u⟩ =
      ((p.exec h script s).1,⟨(p.exec h script s).2,u⟩) := by
  induction p generalizing script s with
  | ret a => rfl
  | throw e => rfl
  | call o k ih =>
    simp only [embed,exec_call,Database.handle]
    rw [map_self]
    exact ih _ _ _

/-- A run from a closed database leads to a closed one, and what is durable before and after is
related. -/
def Durably (R : σ → σ → Prop) (p : Program (Transactional S) ε α) : Prop :=
  ∀ script s, ∃ t, (p.exec (Database.handle h control) script ⟨s,none⟩).2 = ⟨t,none⟩ ∧ R s t

variable {h control} {R : σ → σ → Prop}

section rules
variable (hrefl : ∀ s, R s s)
include hrefl

theorem durably_ret (a : α) : (ret a : Program (Transactional S) ε α).Durably h control R :=
  fun _ s => ⟨s,rfl,hrefl s⟩

theorem durably_throw (e : ε) : (throw e : Program (Transactional S) ε α).Durably h control R :=
  fun _ s => ⟨s,rfl,hrefl s⟩

theorem durably_ofExcept (x : Except ε α) :
    (ofExcept x : Program (Transactional S) ε α).Durably h control R := by
  cases x with
  | ok a => exact durably_ret hrefl a
  | error e => exact durably_throw hrefl e

end rules

section compose
variable (htrans : ∀ {s t u}, R s t → R t u → R s u)
include htrans

theorem Durably.bind {p : Program (Transactional S) ε α} {f : α → Program (Transactional S) ε β}
    (hp : p.Durably h control R) (hf : ∀ a, (f a).Durably h control R) :
    (p.bind f).Durably h control R := by
  intro script s
  obtain ⟨t,ht,hR⟩ := hp script s
  rw [exec_bind]
  cases hx : p.exec (Database.handle h control) script ⟨s,none⟩ with
  | mk r d =>
    rw [hx] at ht
    subst ht
    cases r with
    | error e => exact ⟨t,rfl,hR⟩
    | ok a =>
      obtain ⟨u,hu,hR'⟩ := hf a (p.rest (Database.handle h control) script ⟨s,none⟩) t
      exact ⟨u,hu,htrans hR hR'⟩

theorem Durably.tryCatch {p : Program (Transactional S) ε α}
    {f : ε → Program (Transactional S) ε α} (hp : p.Durably h control R)
    (hf : ∀ e, (f e).Durably h control R) : (p.tryCatch f).Durably h control R := by
  intro script s
  obtain ⟨t,ht,hR⟩ := hp script s
  rw [exec_tryCatch]
  cases hx : p.exec (Database.handle h control) script ⟨s,none⟩ with
  | mk r d =>
    rw [hx] at ht
    subst ht
    cases r with
    | ok a => exact ⟨t,rfl,hR⟩
    | error e =>
      obtain ⟨u,hu,hR'⟩ := hf e (p.rest (Database.handle h control) script ⟨s,none⟩) t
      exact ⟨u,hu,htrans hR hR'⟩

end compose

/-- Statements that stand for themselves are durable one by one. -/
theorem durably_onPool {P : S.Op → Prop} (hrefl : ∀ s, R s s)
    (htrans : ∀ {s t u}, R s t → R t u → R s u) (hop : ∀ o x s, P o → R s (h o x s).2)
    {p : Program S ε α} (hp : p.Calls P) : (p.embed onPool).Durably h control R := by
  induction p with
  | ret a => exact durably_ret hrefl a
  | throw e => exact durably_throw hrefl e
  | call o k ih =>
    intro script s
    obtain ⟨t,ht,hR⟩ := ih ((h o (script 0) s).1.map (fun r => r)) (hp.2 _)
      (fun i => script (i+1)) (h o (script 0) s).2
    exact ⟨t,ht,htrans (hop o (script 0) s hp.1) hR⟩

theorem exec_rolledBack (err : ε) (script : Nat → χ) (s : σ) (u : Option σ) :
    ((rolledBack err : Program (Transactional S) ε α).exec (Database.handle h control) script
      ⟨s,u⟩).2 = ⟨s,none⟩ := by
  cases hc : control (script 0) with
  | none => simp [rolledBack,perform,tryCatch,exec_call,Database.handle,hc,ofExcept]
  | some e => simp [rolledBack,perform,tryCatch,exec_call,Database.handle,hc,ofExcept]

/-- A batch that is committed has run to its end; otherwise nothing is durable yet. -/
theorem exec_committed (batch : Program S ε α) (script : Nat → χ) (s : σ) :
    (∃ script' a t, batch.exec h script' s = (.ok a,t) ∧
      (committed batch).exec (Database.handle h control) script ⟨s,none⟩ = (.ok a,⟨t,none⟩)) ∨
    ∃ e u, (committed batch).exec (Database.handle h control) script ⟨s,none⟩ =
      (.error e,⟨s,u⟩) := by
  simp only [committed,bind_eq]
  rw [exec_bind,exec_perform]
  cases hbegin : control (script 0) with
  | some e => exact .inr ⟨e,none,by simp [Database.handle,hbegin]⟩
  | none =>
    simp only [Database.handle,hbegin]
    rw [exec_bind,exec_onClient]
    generalize (perform (S := Transactional S) TxOp.begin).rest _ script _ = script'
    cases hbatch : batch.exec h script' s with
    | mk r t =>
      cases r with
      | error e => exact .inr ⟨e,some t,rfl⟩
      | ok a =>
        dsimp only
        rw [exec_bind,exec_perform]
        generalize (batch.embed onClient).rest _ script' _ = script''
        cases hcommit : control (script'' 0) with
        | some e => exact .inr ⟨e,some t,by simp [Database.handle,hcommit]⟩
        | none => exact .inl ⟨script',a,t,hbatch,by simp [Database.handle,hcommit]⟩

/-- All of a batch is durable or nothing is: it is enough that complete runs are related. -/
theorem durably_withTransaction {batch : Program S ε α} (hrefl : ∀ s, R s s)
    (hbatch : ∀ script s a t, batch.exec h script s = (.ok a,t) → R s t) :
    (withTransaction batch).Durably h control R := by
  intro script s
  simp only [withTransaction,bind_eq]
  rw [exec_bind,exec_perform]
  cases hconnect : control (script 0) with
  | some e => exact ⟨s,by simp [Database.handle,hconnect],hrefl s⟩
  | none =>
    simp only [Database.handle,hconnect]
    generalize (perform (S := Transactional S) TxOp.connect).rest _ script _ = script₁
    rw [exec_tryCatch]
    have hcommitted := @exec_committed _ _ _ _ _ h control batch script₁ s
    rcases hcommitted with ⟨script',a,t,hrun,he⟩ | ⟨e,u,he⟩
    · rw [he]
      exact ⟨t,rfl,hbatch script' s a t hrun⟩
    · rw [he]
      exact ⟨s,exec_rolledBack e _ s u,hrefl s⟩

end Program
end Interaction
