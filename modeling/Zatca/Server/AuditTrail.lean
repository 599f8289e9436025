import Zatca.Library.Journal
import Zatca.Server.AdminRoutes
set_option autoImplicit false

/-! Mutations and their audit rows on the Postgres registry, whatever statement fails: what of a
request is durable when it has ended. -/

namespace Zatca
open Interaction

/-- An onboarding is complete with the credentials, their expiry and the state. -/
def CompletesOnboarding : ServerOp → Prop
  | .vault (.put _ _) => True
  | .tenants (.setProductionExpiry _ _) => True
  | .tenants (.setState _ .productionReady _) => True
  | _ => False

inductive MutatingRequest where
  | createTenant (authHeader : Option String) (body : Option CreateTenantBody)
  | patchTenant (authHeader : Option String) (tenantRef : String)
      (body : Option PatchableTenantFields)
  | deleteTenant (authHeader : Option String) (tenantRef : String)
  | issueKey (authHeader : Option String) (tenantRef : String) (body : Option String)
  | revokeKey (authHeader : Option String) (tenantRef tokenId : String)
  | unlock (authHeader : Option String) (tenantRef : String) (body : Option UnlockBody)
  | onboard (req : OnboardRequest)
  | rotate (req : OnboardRequest)
  | issueInvoice (req : IssueRequest)

namespace MutatingRequest

/-- The storage of the invoices has no part in the unit of work. -/
def program (D : Deps) : MutatingRequest → Program (Transactional Server) Thrown Reply
  | .createTenant authHeader body => createTenantRoute D postgresUnitOfWork authHeader body
  | .patchTenant authHeader tenantRef body =>
      patchTenantRoute D postgresUnitOfWork authHeader tenantRef body
  | .deleteTenant authHeader tenantRef => deleteTenantRoute D postgresUnitOfWork authHeader tenantRef
  | .issueKey authHeader tenantRef body =>
      issueKeyRoute D postgresUnitOfWork authHeader tenantRef body
  | .revokeKey authHeader tenantRef tokenId =>
      revokeKeyRoute D postgresUnitOfWork authHeader tenantRef tokenId
  | .unlock authHeader tenantRef body => unlockRoute D postgresUnitOfWork authHeader tenantRef body
  | .onboard req => onboardRoute D postgresUnitOfWork req
  | .rotate req => rotateRoute D postgresUnitOfWork req
  | .issueInvoice req => (issueRoute D req).embed onPool

/-- The statements that make the mutation. -/
def Mutates : MutatingRequest → ServerOp → Prop
  | .createTenant _ _, .tenants (.create _) => True
  | .patchTenant _ _ _, .tenants (.patch _ _) => True
  | .deleteTenant _ _, .tenants (.softDelete _) => True
  | .deleteTenant _ _, .apiKeys (.revokeAllForTenant _) => True
  | .issueKey _ _ _, .apiKeys (.issue _ _) => True
  | .revokeKey _ _ _, .apiKeys (.revoke _ _) => True
  | .unlock _ _ _, .tenants (.setState _ .failed _) => True
  | .issueInvoice _, .storage (.recordInvoice _ _) => True
  | .onboard _, o => CompletesOnboarding o
  | .rotate _, o => CompletesOnboarding o
  | _, _ => False

def action : MutatingRequest → AuditAction
  | .createTenant _ _ => .tenantCreated
  | .patchTenant _ _ _ => .tenantPatched
  | .deleteTenant _ _ => .tenantSoftDeleted
  | .issueKey _ _ _ => .apiKeyIssued
  | .revokeKey _ _ _ => .apiKeyRevoked
  | .unlock _ _ _ => .tenantUnlocked
  | .onboard _ => .tenantOnboarded
  | .rotate _ => .tenantCredentialsRotated
  | .issueInvoice _ => .invoiceIssued

/-- The results that the row of a mutation may state. The one row of an issued document is written
when the mutation has been made, and states the verdict of the gateway. -/
def Closes : MutatingRequest → AuditResult → Prop
  | .issueInvoice _, _ => True
  | _, result => result = .ok

/-- The statement writes the row of the request's success. -/
def Audits (r : MutatingRequest) (o : ServerOp) : Prop :=
  ∃ e : AuditEntryInput, o = .audit e ∧ e.action = r.action ∧ r.Closes e.result

theorem closes_ok (r : MutatingRequest) : r.Closes .ok := by
  cases r with
  | issueInvoice req => trivial
  | _ => rfl

end MutatingRequest

/-- The server with the statements that took effect. -/
def journaled (D : Deps) : Handler Server Thrown (World × List ServerOp) Choice :=
  (World.handle D).journal

/-- The statements of the request that are durable when it has ended. -/
def durableStatements (D : Deps) (r : MutatingRequest) (w : World) (script : Nat → Choice) :
    List ServerOp :=
  ((r.program D).exec (Database.handle (journaled D) Choice.failure) script
    ⟨(w,[]),none⟩).2.durable.2

/-- The mutation is durable if and only if the row of its success is. -/
def AuditComplete (D : Deps) (r : MutatingRequest) (w : World) (script : Nat → Choice) : Prop :=
  TookEffect r.Mutates (durableStatements D r w script) ↔
    TookEffect r.Audits (durableStatements D r w script)

/-! ### Units of work -/

section units
variable (D : Deps) (r : MutatingRequest)

/-- Whatever happens in the request, mutation and row are durable together or not at all. -/
def Audited {α : Type} (p : Program (Transactional Server) Thrown α) : Prop :=
  p.Durably (journaled D) Choice.failure (Paired r.Mutates r.Audits)

variable {D r}

theorem Audited.bind {α β : Type} {p : Program (Transactional Server) Thrown α}
    {f : α → Program (Transactional Server) Thrown β} (hp : Audited D r p)
    (hf : ∀ a, Audited D r (f a)) : Audited D r (p.bind f) :=
  Program.Durably.bind Paired.trans hp hf

theorem Audited.tryCatch {α : Type} {p : Program (Transactional Server) Thrown α}
    {f : Thrown → Program (Transactional Server) Thrown α} (hp : Audited D r p)
    (hf : ∀ e, Audited D r (f e)) : Audited D r (p.tryCatch f) :=
  Program.Durably.tryCatch Paired.trans hp hf

theorem audited_ret {α : Type} (a : α) :
    Audited D r (.ret a : Program (Transactional Server) Thrown α) :=
  Program.durably_ret Paired.refl a

theorem audited_throw {α : Type} (e : Thrown) :
    Audited D r (.throw e : Program (Transactional Server) Thrown α) :=
  Program.durably_throw Paired.refl e

theorem audited_ofExcept {α : Type} (x : Except Thrown α) :
    Audited D r (Program.ofExcept x : Program (Transactional Server) Thrown α) :=
  Program.durably_ofExcept Paired.refl x

/-- Statements that neither mutate nor audit may stand by themselves. -/
theorem audited_onPool {α : Type} {p : Program Server Thrown α}
    (hp : p.Calls (fun o => ¬ r.Mutates o ∧ ¬ r.Audits o)) : Audited D r (p.embed onPool) :=
  Program.durably_onPool Paired.refl Paired.trans (fun _ x s ho => Paired.of_neither ho.1 ho.2 x s)
    hp

theorem audited_perform {o : ServerOp} (hm : ¬ r.Mutates o) (ha : ¬ r.Audits o) :
    Audited D r (postgresUnitOfWork.perform o) :=
  audited_onPool (Program.calls_perform ⟨hm,ha⟩)

theorem not_audits {o : ServerOp} (h : ∀ e, o ≠ .audit e) : ¬ r.Audits o := by
  rintro ⟨e,he,-⟩
  exact h e he

theorem audits_successRow (actor : AuditActor) (tenantRef targetId : String) :
    r.Audits (.audit (successRow actor r.action tenantRef targetId)) := ⟨_,rfl,rfl,r.closes_ok⟩

/-- A batch is audited if its complete runs make the mutation and write the row. -/
theorem audited_batch {α : Type} {batch : Program Server Thrown α}
    (h : ∀ script s a t, batch.exec (journaled D) script s = (.ok a,t) →
      ∃ new, t.2 = s.2 ++ new ∧ TookEffect r.Mutates new ∧ TookEffect r.Audits new) :
    Audited D r (postgresUnitOfWork.run batch) := by
  refine Program.durably_withTransaction Paired.refl fun script s a t hrun => ?_
  obtain ⟨new,he,hm,ha⟩ := h script s a t hrun
  exact .of_both he hm ha

/-- The batches of one mutation and its row. -/
theorem audited_pair {β : Type} {o : ServerOp} {row : o.Ret → AuditEntryInput} {g : o.Ret → β}
    (hm : r.Mutates o) (ha : ∀ a, r.Audits (.audit (row a))) :
    Audited D r (postgresUnitOfWork.run ((Program.perform (S := Server) o).bind fun a =>
      (Program.perform (S := Server) (.audit (row a))).bind fun _ => .ret (g a))) := by
  refine audited_batch fun script s b t hrun => ?_
  obtain ⟨a,script₁,s₁,hrun⟩ := Program.exec_journal_ok hrun
  obtain ⟨u,script₂,s₂,hrun⟩ := Program.exec_journal_ok hrun
  cases hrun
  exact ⟨[o,.audit (row a)],by simp,⟨o,by simp,hm⟩,⟨_,by simp,ha a⟩⟩

end units

/-! ### The routes of the administrators -/

section routes
variable (D : Deps)

theorem audited_createTenant (authHeader : Option String) (body : Option CreateTenantBody) :
    Audited D (.createTenant authHeader body)
      (createTenantRoute D postgresUnitOfWork authHeader body) := by
  refine (audited_ofExcept _).bind fun actor => (audited_ofExcept _).bind fun body => ?_
  refine (audited_ofExcept _).bind fun input => Audited.bind ?_ fun created => audited_ret _
  exact audited_pair trivial fun created => audits_successRow _ _ _

theorem audited_patchTenant (authHeader : Option String) (tenantRef : String)
    (body : Option PatchableTenantFields) : Audited D (.patchTenant authHeader tenantRef body)
      (patchTenantRoute D postgresUnitOfWork authHeader tenantRef body) := by
  refine (audited_ofExcept _).bind fun actor => (audited_ofExcept _).bind fun patch => ?_
  refine Audited.bind ?_ fun updated => audited_ret _
  exact audited_pair trivial fun updated => audits_successRow _ _ _

theorem audited_deleteTenant (authHeader : Option String) (tenantRef : String) :
    Audited D (.deleteTenant authHeader tenantRef)
      (deleteTenantRoute D postgresUnitOfWork authHeader tenantRef) := by
  refine (audited_ofExcept _).bind fun actor => Audited.bind ?_ fun _ => audited_ret _
  refine audited_batch fun script s a t hrun => ?_
  obtain ⟨_,script₁,s₁,hrun⟩ := Program.exec_journal_ok hrun
  obtain ⟨_,script₂,s₂,hrun⟩ := Program.exec_journal_ok hrun
  have ht := Program.exec_journal_perform hrun
  refine ⟨[.tenants (.softDelete tenantRef),.apiKeys (.revokeAllForTenant tenantRef),
    .audit (successRow actor .tenantSoftDeleted tenantRef tenantRef)],by simp [ht],?_,?_⟩
  · exact ⟨.tenants (.softDelete tenantRef),by simp,trivial⟩
  · exact ⟨.audit (successRow actor .tenantSoftDeleted tenantRef tenantRef),by simp,
      audits_successRow actor tenantRef tenantRef⟩

theorem audited_issueKey (authHeader : Option String) (tenantRef : String) (body : Option String) :
    Audited D (.issueKey authHeader tenantRef body)
      (issueKeyRoute D postgresUnitOfWork authHeader tenantRef body) := by
  refine (audited_ofExcept _).bind fun actor => (audited_ofExcept _).bind fun label => ?_
  refine Audited.bind (audited_perform id (not_audits (by rintro e ⟨⟩))) fun tenant => ?_
  cases tenant with
  | none => exact audited_throw _
  | some tenant =>
    refine Audited.bind ?_ fun issued => audited_ret _
    exact audited_pair trivial fun issued => audits_successRow _ _ _

theorem audited_revokeKey (authHeader : Option String) (tenantRef tokenId : String) :
    Audited D (.revokeKey authHeader tenantRef tokenId)
      (revokeKeyRoute D postgresUnitOfWork authHeader tenantRef tokenId) := by
  refine (audited_ofExcept _).bind fun actor => Audited.bind ?_ fun _ => audited_ret _
  refine audited_batch fun script s a t hrun => ?_
  obtain ⟨revoked,script₁,s₁,hrun⟩ := Program.exec_journal_ok hrun
  cases revoked with
  | false => cases hrun
  | true =>
    have ht := Program.exec_journal_perform hrun
    refine ⟨[.apiKeys (.revoke tenantRef tokenId),
      .audit (successRow actor .apiKeyRevoked tenantRef tokenId)],by simp [ht],?_,?_⟩
    · exact ⟨.apiKeys (.revoke tenantRef tokenId),by simp,trivial⟩
    · exact ⟨.audit (successRow actor .apiKeyRevoked tenantRef tokenId),by simp,
        audits_successRow actor tenantRef tokenId⟩

theorem audited_unlock (authHeader : Option String) (tenantRef : String)
    (body : Option UnlockBody) : Audited D (.unlock authHeader tenantRef body)
      (unlockRoute D postgresUnitOfWork authHeader tenantRef body) := by
  refine (audited_ofExcept _).bind fun actor => (audited_ofExcept _).bind fun body => ?_
  refine Audited.bind (audited_perform id (not_audits (by rintro e ⟨⟩))) fun record => ?_
  cases record with
  | none => exact audited_throw _
  | some record =>
    simp only
    split
    · exact audited_throw _
    · refine Audited.bind ?_ fun _ => Audited.bind ?_ fun updated => audited_ret _
      · cases record.claimExpiresAt with
        | none => exact audited_ret _
        | some claimExpiresAt =>
          refine Audited.bind (audited_perform id (not_audits (by rintro e ⟨⟩))) fun now => ?_
          split
          · exact audited_throw _
          · exact audited_ret _
      · exact audited_pair trivial fun updated => audits_successRow _ _ _

/-! ### Onboarding and rotation -/

section onboarding
variable {D} {r : MutatingRequest} (hm : ∀ o, r.Mutates o ↔ CompletesOnboarding o)
include hm

theorem quiet_claim {args : RunOnboardingArgs} {o : ServerOp} (h : RunCall args .claim o) :
    ¬ r.Mutates o ∧ ¬ r.Audits o := by
  rw [hm]
  cases h with
  | _ => exact ⟨id,not_audits (by rintro e ⟨⟩)⟩

theorem quiet_handshake {args : RunOnboardingArgs} {o : ServerOp} (h : RunCall args .handshake o) :
    ¬ r.Mutates o ∧ ¬ r.Audits o := by
  rw [hm]
  cases h with
  | _ => exact ⟨id,not_audits (by rintro e ⟨⟩)⟩

/-- The row of a failed run is no row of success. -/
theorem quiet_failure (hc : ¬ r.Closes .error) {args : RunOnboardingArgs} {o : ServerOp} (h : RunCall args .failure o) :
    ¬ r.Mutates o ∧ ¬ r.Audits o := by
  rw [hm]
  cases h with
  | markFailed message => exact ⟨id,not_audits (by rintro e ⟨⟩)⟩
  | auditFailure =>
    refine ⟨id,?_⟩
    rintro ⟨e,he,-,hresult⟩
    cases he
    exact hc hresult

theorem quiet_idempotency {o : ServerOp} (h : o.isIdempotency) :
    ¬ r.Mutates o ∧ ¬ r.Audits o := by
  rw [hm]
  cases o with
  | idempotency o => exact ⟨id,not_audits (by rintro e ⟨⟩)⟩
  | _ => exact False.elim h

theorem audited_persist {args : RunOnboardingArgs} (ha : args.auditAction = r.action)
    (result : OnboardingResult) (productionExpiry : Date) :
    Audited D r (postgresUnitOfWork.run (persist args result productionExpiry)) := by
  refine audited_batch fun script s record t hrun => ?_
  obtain ⟨_,script₁,s₁,hrun⟩ := Program.exec_journal_ok hrun
  obtain ⟨_,script₂,s₂,hrun⟩ := Program.exec_journal_ok hrun
  obtain ⟨_,script₃,s₃,hrun⟩ := Program.exec_journal_ok hrun
  obtain ⟨_,script₄,s₄,hrun⟩ := Program.exec_journal_ok hrun
  cases hrun
  refine ⟨[.vault (.put args.tenantRef (signerMaterial result)),
    .tenants (.setProductionExpiry args.tenantRef productionExpiry),
    .tenants (.setState args.tenantRef .productionReady {}),.audit (onboardingAudit args .ok)],
    by simp,?_,?_⟩
  · exact ⟨.vault (.put args.tenantRef (signerMaterial result)),by simp,(hm _).2 trivial⟩
  · exact ⟨.audit (onboardingAudit args .ok),by simp,_,rfl,ha,r.closes_ok⟩

theorem audited_runOnboarding (hc : ¬ r.Closes .error) {args : RunOnboardingArgs}
    (ha : args.auditAction = r.action) : Audited D r (runOnboardingWith D postgresUnitOfWork args) := by
  refine Audited.bind (audited_onPool (claimTenant_calls.mono fun o ho => quiet_claim hm ho))
    fun existing => ?_
  refine Audited.tryCatch ?_ fun err =>
    audited_onPool ((onFailure_calls err).mono fun o ho => quiet_failure hm hc ho)
  refine Audited.bind (audited_onPool ((handshake_calls existing).mono
    fun o ho => quiet_handshake hm ho)) fun handed => ?_
  exact (audited_persist hm ha _ _).bind fun record => audited_ret _

theorem audited_onboardWork (hc : ¬ r.Closes .error) (req : OnboardRequest)
    {auditAction : AuditAction} (ha : auditAction = r.action) (actor : AuditActor) (body : OnboardBody)
    (cacheKey : Option String) :
    Audited D r (onboardWork D postgresUnitOfWork req auditAction actor body cacheKey) := by
  refine Audited.bind (audited_perform (by rw [hm]; exact id) (not_audits (by rintro e ⟨⟩)))
    fun tenant => ?_
  cases tenant with
  | none => exact audited_throw _
  | some tenant =>
    refine (audited_runOnboarding hm hc ha).bind fun result => ?_
    refine Audited.bind (audited_onPool ((commitIdempotency_cached D cacheKey _).mono
      fun o ho => quiet_idempotency hm ho)) fun _ => audited_ret _

theorem audited_onboardWith (hc : ¬ r.Closes .error) (req : OnboardRequest)
    {auditAction : AuditAction} (ha : auditAction = r.action) (route : String) :
    Audited D r (onboardWith D postgresUnitOfWork auditAction route req) := by
  have hrelease : Audited D r (postgresUnitOfWork.perform .releaseSlot) :=
    audited_perform (by rw [hm]; exact id) (not_audits (by rintro e ⟨⟩))
  refine Audited.bind (audited_perform (by rw [hm]; exact id) (not_audits (by rintro e ⟨⟩)))
    fun acquired => ?_
  cases acquired with
  | false => exact audited_ret _
  | true =>
    refine Audited.bind (Audited.tryCatch ?_ fun err => hrelease.bind fun _ => audited_throw _)
      fun reply => hrelease.bind fun _ => audited_ret _
    refine (audited_ofExcept _).bind fun actor => (audited_ofExcept _).bind fun body => ?_
    refine (audited_ofExcept _).bind fun idemKey => Audited.bind (audited_onPool
      ((beginIdempotency_cached D idemKey _ _).mono fun o ho => quiet_idempotency hm ho))
      fun slot => ?_
    cases slot with
    | answered reply => exact audited_ret _
    | proceed cacheKey =>
      refine (audited_onboardWork hm hc req ha actor body cacheKey).tryCatch fun err => ?_
      refine Audited.bind (audited_onPool ((releaseIdempotency_cached cacheKey).mono
        fun o ho => quiet_idempotency hm ho)) fun _ => audited_throw _

end onboarding

/-- The routes of the administrators keep the law, whatever statement fails. -/
theorem audited_admin (r : MutatingRequest) (h : ∀ req, r ≠ .issueInvoice req) :
    Audited D r (r.program D) := by
  cases r with
  | createTenant authHeader body => exact audited_createTenant D authHeader body
  | patchTenant authHeader tenantRef body => exact audited_patchTenant D authHeader tenantRef body
  | deleteTenant authHeader tenantRef => exact audited_deleteTenant D authHeader tenantRef
  | issueKey authHeader tenantRef body => exact audited_issueKey D authHeader tenantRef body
  | revokeKey authHeader tenantRef tokenId => exact audited_revokeKey D authHeader tenantRef tokenId
  | unlock authHeader tenantRef body => exact audited_unlock D authHeader tenantRef body
  | onboard req => exact audited_onboardWith (fun _ => Iff.rfl) (by rintro ⟨⟩) req rfl _
  | rotate req => exact audited_onboardWith (fun _ => Iff.rfl) (by rintro ⟨⟩) req rfl _
  | issueInvoice req => exact absurd rfl (h req)

theorem auditComplete_of_audited {r : MutatingRequest} (h : Audited D r (r.program D)) (w : World)
    (script : Nat → Choice) : AuditComplete D r w script := by
  obtain ⟨t,ht,new,hnew,hiff⟩ := h script (w,[])
  unfold AuditComplete durableStatements
  rw [ht]
  simpa [hnew] using hiff

end routes

/-! ### Issuing

The record goes to the storage of the invoices, and the row follows it by itself. -/

/-- The route up to the record of the document; none if the slot has answered. -/
def issueToRecord (D : Deps) (req : IssueRequest) :
    Program Server Thrown (Option (AuthenticatedTenant × Issued × Bool)) := do
  let auth ← authTenant req.authHeader req.tenantRef
  let body ← Program.ofExcept (parseBody req.body)
  let idemKey ← Program.ofExcept (readIdempotencyKey req.idempotencyKey)
  let slot ← beginIdempotency D idemKey req.tenantRef invoicesRoute
  match slot with
  | .answered _ => return none
  | .proceed _ => do
      Program.ofExcept (checkKind (body.submit.getD true) body.input)
      let issued ← issueFromBody D auth req.host body.input
      return some (auth,issued,body.submit.getD true)

/-- The submission and the report of its verdict succeed, and the statement after them does not
fail. -/
def Settles (D : Deps) (auth : AuthenticatedTenant) (issued : Issued) (submit : Bool)
    (script : Nat → Choice) (s : World × List ServerOp) : Prop :=
  ∃ outcome s', (submitIssued D auth issued submit).exec (journaled D) script s =
      (.ok outcome,s') ∧
    ((submitIssued D auth issued submit).rest (journaled D) script s 0).failure = none

/-- If the document is recorded then what is left to do before the row succeeds, and so does the
row. -/
def AuditFollows (D : Deps) (req : IssueRequest) (w : World) (script : Nat → Choice) : Prop :=
  ∀ auth issued submit s,
    (issueToRecord D req).exec (journaled D) script (w,[]) = (.ok (some (auth,issued,submit)),s) →
      Settles D auth issued submit ((issueToRecord D req).rest (journaled D) script (w,[])) s

section issue
variable {D : Deps} {req : IssueRequest}

theorem issueInvoice_endsWith (B : Builders) (args : IssueInvoiceArgs) :
    (issueInvoice B args).EndsWith (fun o => (MutatingRequest.issueInvoice req).Mutates
      (.storage o)) := by
  have hphase2 (kind : InvoiceKind) (args : IssueArgs) : (issuePhase2 B kind args).EndsWith
      (fun o => (MutatingRequest.issueInvoice req).Mutates (.storage o)) := by
    refine Program.endsWith_bind (Program.calls_ofExcept _ _) fun _ => ?_
    refine Program.endsWith_bind (Program.calls_perform id) fun counter => ?_
    refine Program.endsWith_bind (Program.calls_perform id) fun prev => ?_
    refine Program.endsWith_bind (Program.calls_ofExcept _ _) fun built => ?_
    exact Program.endsWith_perform trivial _
  have hphase1 (kind : InvoiceKind) (args : IssuePhase1Args) : (issuePhase1 B kind args).EndsWith
      (fun o => (MutatingRequest.issueInvoice req).Mutates (.storage o)) := by
    refine Program.endsWith_bind (Program.calls_ofExcept _ _) fun _ => ?_
    refine Program.endsWith_bind (Program.calls_perform id) fun counter => ?_
    refine Program.endsWith_bind (Program.calls_ofExcept _ _) fun built => ?_
    exact Program.endsWith_perform trivial _
  unfold issueInvoice
  cases args.signing with
  | none =>
    cases args.input.kind with
    | phase1Invoice => exact (hphase1 _ _).map _
    | phase1CreditNote => exact (hphase1 _ _).map _
    | _ => trivial
  | some signing =>
    cases args.input.kind with
    | phase1Invoice => exact (hphase1 _ _).map _
    | phase1CreditNote => exact (hphase1 _ _).map _
    | _ => exact (hphase2 _ _).map _

theorem issueFromBody_endsWith (auth : AuthenticatedTenant) (host : HostValues) (input : RawInput) :
    (issueFromBody D auth host input).EndsWith (MutatingRequest.issueInvoice req).Mutates := by
  cases input with
  | invoice input => exact (issueInvoice_endsWith _ _).embed
  | unhandled value => trivial
  | nullish => trivial

theorem submitIssued_quiet (auth : AuthenticatedTenant) (issued : Issued) (submit : Bool) :
    (submitIssued D auth issued submit).Calls (fun o =>
      ¬ (MutatingRequest.issueInvoice req).Mutates o ∧
        ¬ (MutatingRequest.issueInvoice req).Audits o) := by
  match issued, submit with
  | .phase1 _, _ => trivial
  | .phase2 _, false => trivial
  | .phase2 _, true =>
    refine Program.calls_bind (Program.calls_embed ?_ _) fun outcome => ?_
    · intro o
      exact ⟨id,not_audits (by rintro e ⟨⟩)⟩
    · refine Program.calls_bind (Program.calls_perform ?_) fun _ => trivial
      exact ⟨id,not_audits (by rintro e ⟨⟩)⟩

theorem conclude_unmutated (auth : AuthenticatedTenant) (issued : Issued) (cacheKey : Option String)
    (outcome : SubmissionOutcome) : (conclude D auth issued cacheKey outcome).Calls
      (fun o => ¬ (MutatingRequest.issueInvoice req).Mutates o) := by
  refine Program.calls_bind (Program.calls_perform id) fun _ => Program.calls_bind ?_ fun _ => trivial
  refine (commitIdempotency_cached D cacheKey _).mono fun o ho => ?_
  cases o with
  | idempotency o => exact id
  | _ => exact False.elim ho

theorem quiet_cached {o : ServerOp} (h : o.isIdempotency) :
    ¬ (MutatingRequest.issueInvoice req).Mutates o ∧
      ¬ (MutatingRequest.issueInvoice req).Audits o := by
  cases o with
  | idempotency o => exact ⟨id,not_audits (by rintro e ⟨⟩)⟩
  | _ => exact False.elim h

/-- The row of the request is its next statement. -/
theorem conclude_audits (auth : AuthenticatedTenant) (issued : Issued) (cacheKey : Option String)
    (outcome : SubmissionOutcome) (script : Nat → Choice) {s : World × List ServerOp}
    (hs : ¬ TookEffect (MutatingRequest.issueInvoice req).Audits s.2) :
    TookEffect (MutatingRequest.issueInvoice req).Audits
        ((conclude D auth issued cacheKey outcome).exec (journaled D) script s).2.2 ↔
      (script 0).failure = none := by
  have hrow : (MutatingRequest.issueInvoice req).Audits
      (.audit (issuedAudit auth issued outcome)) := ⟨_,rfl,rfl,trivial⟩
  have hquiet : ((commitIdempotency D cacheKey
      { statusCode := 200, headers := jsonContentType :: requestIdHeader outcome
        body := D.runtime.stringify (issuedBody issued outcome) }).bind fun _ =>
      (.ret { statusCode := 200, headers := requestIdHeader outcome
              body := issuedBody issued outcome } : Program Server Thrown Reply)).Calls
      (fun o => ¬ (MutatingRequest.issueInvoice req).Audits o) := by
    refine Program.calls_bind ?_ fun _ => trivial
    exact (commitIdempotency_cached D cacheKey _).mono fun o ho => (quiet_cached ho).2
  have hsplit : conclude D auth issued cacheKey outcome =
      (Program.perform (S := Server) (.audit (issuedAudit auth issued outcome))).bind fun _ =>
        (commitIdempotency D cacheKey
          { statusCode := 200, headers := jsonContentType :: requestIdHeader outcome
            body := D.runtime.stringify (issuedBody issued outcome) }).bind fun _ =>
          .ret { statusCode := 200, headers := requestIdHeader outcome
                 body := issuedBody issued outcome } := rfl
  rw [hsplit,Program.exec_bind,Program.exec_perform]
  cases hf : (script 0).failure with
  | some e =>
    have hfail : journaled D (.audit (issuedAudit auth issued outcome)) (script 0) s =
        (.error e,({ s.1 with now := (script 0).now },s.2)) := by
      simp [journaled,Handler.journal,World.handle,World.fallible,hf,Except.isOk,Except.toBool]
    rw [hfail]
    simpa using hs
  | none =>
    have hok : ∃ w', journaled D (.audit (issuedAudit auth issued outcome)) (script 0) s =
        (.ok (),(w',s.2 ++ [.audit (issuedAudit auth issued outcome)])) := by
      simp [journaled,Handler.journal,World.handle,World.serve,hf,Except.isOk,Except.toBool]
    obtain ⟨w',hok⟩ := hok
    rw [hok]
    dsimp only
    rw [journaled,Program.tookEffect_of_quiet hquiet,tookEffect_append,or_iff_right hs]
    simp [TookEffect,hrow]

/-- The work under the slot up to the record. -/
def documentOf (D : Deps) (req : IssueRequest) (auth : AuthenticatedTenant) (body : IssueBody) :
    Program Server Thrown Issued := do
  Program.ofExcept (checkKind (body.submit.getD true) body.input)
  issueFromBody D auth req.host body.input

theorem documentOf_endsWith (auth : AuthenticatedTenant) (body : IssueBody) :
    (documentOf D req auth body).EndsWith (MutatingRequest.issueInvoice req).Mutates :=
  Program.endsWith_bind (Program.calls_ofExcept _ _) fun _ => issueFromBody_endsWith _ _ _

theorem documentOf_unaudited (auth : AuthenticatedTenant) (body : IssueBody) :
    (documentOf D req auth body).Calls
      (fun o => ¬ (MutatingRequest.issueInvoice req).Audits o) := by
  refine Program.calls_bind (Program.calls_ofExcept _ _) fun _ => ?_
  cases body.input with
  | invoice input =>
    refine Program.calls_embed (fun o => ?_) _
    exact not_audits (by rintro e ⟨⟩)
  | unhandled value => trivial
  | nullish => trivial

/-- What is done under a slot records the document if and only if it gets past the record, and
writes the row of success if and only if what follows the record settles. -/
theorem issueWork_effects (auth : AuthenticatedTenant) (body : IssueBody) (cacheKey : Option String)
    (script : Nat → Choice) {s : World × List ServerOp}
    (hm : ¬ TookEffect (MutatingRequest.issueInvoice req).Mutates s.2)
    (ha : ¬ TookEffect (MutatingRequest.issueInvoice req).Audits s.2) :
    let t := ((issueWork D auth req.host body.input (body.submit.getD true) cacheKey).exec
      (journaled D) script s).2
    let document := (documentOf D req auth body).exec (journaled D) script s
    let script₁ := (documentOf D req auth body).rest (journaled D) script s
    (TookEffect (MutatingRequest.issueInvoice req).Mutates t.2 ↔ ∃ issued, document.1 = .ok issued) ∧
      (TookEffect (MutatingRequest.issueInvoice req).Audits t.2 ↔ ∃ issued, document.1 = .ok issued ∧
        Settles D auth issued (body.submit.getD true) script₁ document.2) := by
  intro t document script₁
  have hsplit : issueWork D auth req.host body.input (body.submit.getD true) cacheKey =
      (documentOf D req auth body).bind fun issued =>
        (submitIssued D auth issued (body.submit.getD true)).bind
          (conclude D auth issued cacheKey) := by
    rw [issueWork_eq,documentOf,Program.bind_eq,Program.bind_assoc]
  have hends : (documentOf D req auth body).EndsWith (MutatingRequest.issueInvoice req).Mutates :=
    documentOf_endsWith auth body
  have hunaudited : (documentOf D req auth body).Calls
      (fun o => ¬ (MutatingRequest.issueInvoice req).Audits o) := documentOf_unaudited auth body
  have hmutated := hends.tookEffect_iff (h := World.handle D) script hm
  have haudited := Program.tookEffect_of_quiet (h := World.handle D) hunaudited script s
  have ht : t = (((documentOf D req auth body).bind fun issued =>
      (submitIssued D auth issued (body.submit.getD true)).bind
        (conclude D auth issued cacheKey)).exec (journaled D) script s).2 := by rw [← hsplit]
  rw [ht,Program.exec_bind]
  change TookEffect _ document.2.2 ↔ ∃ a, document.1 = .ok a at hmutated
  change TookEffect _ document.2.2 ↔ _ at haudited
  have hexec : (documentOf D req auth body).exec (journaled D) script s =
    (document.1,document.2) := rfl
  rw [hexec]
  cases hd : document.1 with
  | error e =>
    rw [hd] at hmutated
    exact ⟨by simpa using hmutated,by simpa using haudited.not.2 ha⟩
  | ok issued =>
    rw [hd] at hmutated
    dsimp only
    have htail : ((submitIssued D auth issued (body.submit.getD true)).bind
        (conclude D auth issued cacheKey)).Calls
          (fun o => ¬ (MutatingRequest.issueInvoice req).Mutates o) :=
      Program.calls_bind ((submitIssued_quiet auth issued _).mono fun o ho => ho.1)
        fun outcome => conclude_unmutated auth issued cacheKey outcome
    refine ⟨(Program.tookEffect_of_quiet htail script₁ document.2).trans hmutated,?_⟩
    have hunaudited : (submitIssued D auth issued (body.submit.getD true)).Calls
        (fun o => ¬ (MutatingRequest.issueInvoice req).Audits o) :=
      (submitIssued_quiet auth issued _).mono fun o ho => ho.2
    have hsubmit := Program.tookEffect_of_quiet (h := World.handle D) hunaudited script₁ document.2
    simp only [Except.ok.injEq,exists_eq_left',Settles]
    rw [Program.exec_bind]
    cases hx : (submitIssued D auth issued (body.submit.getD true)).exec (journaled D) script₁
        document.2 with
    | mk result s' =>
      change TookEffect _ ((submitIssued D auth issued (body.submit.getD true)).exec (journaled D)
        script₁ document.2).2.2 ↔ _ at hsubmit
      rw [hx,haudited] at hsubmit
      cases result with
      | error e => simpa using hsubmit.not.2 ha
      | ok outcome =>
        dsimp only
        rw [conclude_audits auth issued cacheKey outcome _ (hsubmit.not.2 ha)]
        simp [script₁]

/-- The part of the request that neither mutates nor audits. -/
def issuePrelude (D : Deps) (req : IssueRequest) :
    Program Server Thrown (AuthenticatedTenant × IssueBody × IdempotencySlot) := do
  let auth ← authTenant req.authHeader req.tenantRef
  let body ← Program.ofExcept (parseBody req.body)
  let idemKey ← Program.ofExcept (readIdempotencyKey req.idempotencyKey)
  let slot ← beginIdempotency D idemKey req.tenantRef invoicesRoute
  return (auth,body,slot)

theorem issuePrelude_quiet : (issuePrelude D req).Calls (fun o =>
    ¬ (MutatingRequest.issueInvoice req).Mutates o ∧
      ¬ (MutatingRequest.issueInvoice req).Audits o) := by
  refine Program.calls_bind ((authTenant_reads _ _).mono fun o ho => ?_) fun auth => ?_
  · cases ho with
    | _ => exact ⟨id,not_audits (by rintro e ⟨⟩)⟩
  · refine Program.calls_bind (Program.calls_ofExcept _ _) fun body => ?_
    refine Program.calls_bind (Program.calls_ofExcept _ _) fun idemKey => ?_
    refine Program.calls_bind ((beginIdempotency_cached D _ _ _).mono fun o ho => quiet_cached ho)
      fun slot => trivial

theorem issueRoute_prelude : issueRoute D req = (issuePrelude D req).bind fun p =>
    issueUnderSlot D p.1 req.host p.2.1 p.2.2 := by
  simp only [issueRoute_eq,issuePrelude,Program.bind_eq,Program.bind_assoc,Program.pure_eq,
    Program.ret_bind]

/-- What `issueToRecord` does after the prelude. -/
def recordUnderSlot (D : Deps) (req : IssueRequest) (auth : AuthenticatedTenant)
    (body : IssueBody) : IdempotencySlot →
      Program Server Thrown (Option (AuthenticatedTenant × Issued × Bool))
  | .answered _ => .ret none
  | .proceed _ => (documentOf D req auth body).bind fun issued =>
      .ret (some (auth,issued,body.submit.getD true))

theorem issueToRecord_prelude : issueToRecord D req = (issuePrelude D req).bind fun p =>
    recordUnderSlot D req p.1 p.2.1 p.2.2 := by
  simp only [issueToRecord,issuePrelude,Program.bind_eq,Program.bind_assoc,Program.pure_eq,
    Program.ret_bind]
  congr 1
  funext auth
  congr 1
  funext body
  congr 1
  funext idemKey
  congr 1
  funext slot
  cases slot with
  | answered reply => rfl
  | proceed cacheKey =>
    simp only [recordUnderSlot,documentOf,Program.bind_eq,Program.bind_assoc]

/-- A slot that is released changes nothing about what took effect. -/
theorem underSlot_effects {P : ServerOp → Prop} (hP : ∀ o : ServerOp, o.isIdempotency → ¬ P o)
    (cacheKey : Option String) (work : Program Server Thrown Reply) (script : Nat → Choice)
    (s : World × List ServerOp) :
    TookEffect P ((underSlot cacheKey work).exec (journaled D) script s).2.2 ↔
      TookEffect P (work.exec (journaled D) script s).2.2 := by
  rw [underSlot,Program.exec_tryCatch]
  cases hx : work.exec (journaled D) script s with
  | mk r t =>
    cases r with
    | ok reply => rfl
    | error err =>
      have hquiet : ((releaseIdempotency cacheKey).bind fun _ =>
          (.throw err : Program Server Thrown Reply)).Calls (fun o => ¬ P o) :=
        Program.calls_bind ((releaseIdempotency_cached cacheKey).mono hP) fun _ => trivial
      exact Program.tookEffect_of_quiet hquiet _ t

/-- The whole request: the calls that authenticate it and look up its key are neither mutations nor
rows. -/
theorem issueRoute_effects (req : IssueRequest) (w : World) (script : Nat → Choice) :
    (TookEffect (MutatingRequest.issueInvoice req).Mutates
        (durableStatements D (.issueInvoice req) w script) ↔
      ∃ x s, (issueToRecord D req).exec (journaled D) script (w,[]) = (.ok (some x),s)) ∧
    (TookEffect (MutatingRequest.issueInvoice req).Audits
        (durableStatements D (.issueInvoice req) w script) ↔
      ∃ auth issued submit s, (issueToRecord D req).exec (journaled D) script (w,[]) =
          (.ok (some (auth,issued,submit)),s) ∧
        Settles D auth issued submit ((issueToRecord D req).rest (journaled D) script (w,[])) s) := by
  have hdurable : durableStatements D (.issueInvoice req) w script =
      ((issueRoute D req).exec (journaled D) script (w,[])).2.2 := by
    unfold durableStatements MutatingRequest.program
    rw [Program.exec_onPool]
  have hquiet : (issuePrelude D req).Calls (fun o =>
      ¬ (MutatingRequest.issueInvoice req).Mutates o ∧
        ¬ (MutatingRequest.issueInvoice req).Audits o) := issuePrelude_quiet
  have hm₀ := Program.tookEffect_of_quiet (h := World.handle D)
    (hquiet.mono fun o ho => ho.1) script (w,[])
  have ha₀ := Program.tookEffect_of_quiet (h := World.handle D)
    (hquiet.mono fun o ho => ho.2) script (w,[])
  change TookEffect _ ((issuePrelude D req).exec (journaled D) script (w,[])).2.2 ↔ _ at hm₀ ha₀
  rw [hdurable,issueRoute_prelude,issueToRecord_prelude,Program.exec_bind,Program.exec_bind,
    Program.rest_bind]
  generalize (issuePrelude D req).rest (journaled D) script (w,[]) = script₁
  cases hx : (issuePrelude D req).exec (journaled D) script (w,[]) with
  | mk r s =>
    rw [hx] at hm₀ ha₀
    have hm := hm₀.not.2 (not_tookEffect_nil _)
    have ha := ha₀.not.2 (not_tookEffect_nil _)
    cases r with
    | error e => simpa using ⟨hm,ha⟩
    | ok p =>
      obtain ⟨auth,body,slot⟩ := p
      cases slot with
      | answered reply => simpa [issueUnderSlot,recordUnderSlot] using ⟨hm,ha⟩
      | proceed cacheKey =>
        have heffects := issueWork_effects (D := D) auth body cacheKey script₁ hm ha
        dsimp only [issueUnderSlot,recordUnderSlot]
        rw [underSlot_effects fun o ho => (quiet_cached ho).1,
          underSlot_effects fun o ho => (quiet_cached ho).2,Program.exec_bind,Program.rest_bind,
          heffects.1,heffects.2]
        cases hd : (documentOf D req auth body).exec (journaled D) script₁ s with
        | mk result t =>
          cases result with
          | error e => simp
          | ok issued =>
            refine ⟨by simp,?_⟩
            constructor
            · rintro ⟨issued',he,hsettles⟩
              cases he
              exact ⟨auth,issued,_,t,rfl,hsettles⟩
            · rintro ⟨auth',issued',submit,s',he,hsettles⟩
              cases he
              exact ⟨issued,rfl,hsettles⟩

/-- An administrator's mutation is durable if and only if its row is, whatever fails; a document if
and only if nothing goes wrong between its record and its row. -/
theorem auditComplete_iff (D : Deps) (r : MutatingRequest) (w : World) (script : Nat → Choice) :
    AuditComplete D r w script ↔ ∀ req, r = .issueInvoice req → AuditFollows D req w script := by
  by_cases h : ∃ req, r = .issueInvoice req
  · obtain ⟨req,rfl⟩ := h
    have heffects := issueRoute_effects (D := D) req w script
    unfold AuditComplete
    rw [heffects.1,heffects.2]
    constructor
    · rintro hiff req' hreq auth issued submit s hrun
      cases hreq
      obtain ⟨auth',issued',submit',s',hrun',hsettles⟩ := hiff.1 ⟨_,_,hrun⟩
      cases hrun.symm.trans hrun'
      exact hsettles
    · intro hfollows
      constructor
      · rintro ⟨⟨auth,issued,submit⟩,s,hrun⟩
        exact ⟨auth,issued,submit,s,hrun,hfollows req rfl auth issued submit s hrun⟩
      · rintro ⟨auth,issued,submit,s,hrun,-⟩
        exact ⟨_,_,hrun⟩
  · have hadmin := audited_admin D r fun req hreq => h ⟨req,hreq⟩
    refine iff_of_true (auditComplete_of_audited D hadmin w script) fun req hreq => ?_
    exact absurd ⟨req,hreq⟩ h

end issue

namespace Sample

/-- A sale that is not submitted. -/
def localSale : IssueRequest :=
  { issueRequest none with body := some { input := .invoice invoice, submit := some false } }

/-- Everything succeeds but the seventh call, which is the row of the local sale. -/
def rowFails (i : Nat) : Choice :=
  if i = 6 then { accepted with failure := some (.error "connection lost") } else accepted

def isRecord : ServerOp → Bool
  | .storage (.recordInvoice _ _) => true
  | _ => false

def isRow : ServerOp → Bool
  | .audit _ => true
  | _ => false

end Sample

theorem mutates_of_isRecord {req : IssueRequest} {o : ServerOp} (h : Sample.isRecord o) :
    (MutatingRequest.issueInvoice req).Mutates o := by
  cases o with
  | storage o =>
    cases o with
    | recordInvoice scope record => trivial
    | _ => cases h
  | _ => cases h

theorem not_auditComplete {D : Deps} {req : IssueRequest} {w : World} {script : Nat → Choice}
    (hrecord : (durableStatements D (.issueInvoice req) w script).any Sample.isRecord)
    (hrow : (durableStatements D (.issueInvoice req) w script).all (fun o => !Sample.isRow o)) :
    ¬ AuditComplete D (.issueInvoice req) w script := by
  intro hiff
  obtain ⟨o,ho,hr⟩ := List.any_eq_true.1 hrecord
  obtain ⟨o',ho',haudits⟩ := hiff.1 ⟨o,ho,mutates_of_isRecord hr⟩
  obtain ⟨e,rfl,-⟩ := haudits
  have hnone := List.all_eq_true.1 hrow _ ho'
  simp [Sample.isRow] at hnone

/-- The document is recorded and its row is lost; with a submission the row is lost without any
failure, for the report of the verdict does not find the document. -/
theorem auditComplete_fails_on_issue :
    ¬ AuditComplete Sample.deps (.issueInvoice Sample.localSale) Sample.world Sample.rowFails ∧
    ¬ AuditComplete Sample.deps (.issueInvoice (Sample.issueRequest none)) Sample.world
      (fun _ => Sample.accepted) := by
  constructor
  · have hrecord : (durableStatements Sample.deps (.issueInvoice Sample.localSale) Sample.world
        Sample.rowFails).any Sample.isRecord = true := by decide +kernel
    have hrow : (durableStatements Sample.deps (.issueInvoice Sample.localSale) Sample.world
        Sample.rowFails).all (fun o => !Sample.isRow o) = true := by decide +kernel
    exact not_auditComplete hrecord hrow
  · have hrecord : (durableStatements Sample.deps (.issueInvoice (Sample.issueRequest none))
        Sample.world (fun _ => Sample.accepted)).any Sample.isRecord = true := by decide +kernel
    have hrow : (durableStatements Sample.deps (.issueInvoice (Sample.issueRequest none))
        Sample.world (fun _ => Sample.accepted)).all (fun o => !Sample.isRow o) = true := by
      decide +kernel
    exact not_auditComplete hrecord hrow

end Zatca
