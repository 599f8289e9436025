import Zatca.Core.OnboardingGate
import Zatca.Library.Runs
import Zatca.Server.Warrants
set_option autoImplicit false

/-! Where the credentials come from under which a tenant's documents are sent: the vault holds what a
gateway answered to an onboarding of the same tenant. -/

namespace Zatca
open Interaction

/-! ### The answer that carries the credentials -/

section gateway
variable {R : Runtime}

/-- A successful answer of the address, with its decoded body. -/
inductive AnsweredAt (url : String) (parsed : Option Json) : Answered HttpClient Thrown → Prop
  | mk {init : RequestInit} {response : Response} : isSuccess response.status = true →
      readBody response = .ok parsed → AnsweredAt url parsed ⟨.fetch url init,.ok response⟩

/-- The gateway of the environment answers a request for production credentials with these. -/
def IssuesCsids (R : Runtime) (environment : ZatcaEnvironment) (credentials : IssuedCredentials)
    (c : Answered HttpClient Thrown) : Prop :=
  ∃ parsed, AnsweredAt ((getZatcaEndpoints environment).base ++ (getZatcaEndpoints environment).csids)
    parsed c ∧ requireBody R "CSIDS" R.fromBase64 parsed = .ok credentials

theorem not_backoff_runs {attempt : Nat} {retries : RetryOptions} {parsed : Option Json}
    {cs : List (Answered HttpClient Thrown)} : ¬ ((backoff attempt retries).bind fun _ =>
      (.ret none : Program HttpClient Thrown (Option (Option Json)))).Runs cs
      (.ok (some parsed)) := by
  intro h
  obtain ⟨_,_,_,-,-,h⟩ := Program.runs_bind_ok.1 h
  cases (Program.runs_ret.1 h).2

variable {url : String} {init : RequestInit} {timeoutMs : Nat} {retries : RetryOptions}
  {cs : List (Answered HttpClient Thrown)}

theorem requestAttempt_runs {attempt : Nat} {last : Bool} {parsed : Option Json}
    (h : (requestAttempt R url init timeoutMs retries attempt last).Runs cs (.ok (some parsed))) :
    ∃ c ∈ cs, AnsweredAt url parsed c := by
  rcases Program.runs_tryCatch.1 h with ⟨a,hbody,ha⟩ | ⟨_,_,err,-,-,h⟩
  · cases ha
    obtain ⟨cs₁,cs₂,response,rfl,hfetch,hrest⟩ := Program.runs_bind_ok.1 hbody
    cases Program.runs_perform.1 hfetch
    split at hrest
    · rename_i hsuccess
      obtain ⟨_,_,_,-,hread,hrest⟩ := Program.runs_bind_ok.1 hrest
      obtain ⟨-,hread⟩ := Program.runs_ofExcept.1 hread
      cases (Program.runs_ret.1 hrest).2
      exact ⟨_,List.mem_append_left _ List.mem_cons_self,.mk hsuccess hread.symm⟩
    · split at hrest
      · exact absurd hrest not_backoff_runs
      · obtain ⟨_,_,_,-,-,hrest⟩ := Program.runs_bind_ok.1 hrest
        cases (Program.runs_throw.1 hrest).2
  · unfold requestCatch at h
    split at h
    · cases (Program.runs_throw.1 h).2
    · split at h
      · exact absurd h not_backoff_runs
      · cases (Program.runs_throw.1 h).2

/-- What a request returns is what one of its attempts was answered. -/
theorem requestLoop_runs {left attempt : Nat} {parsed : Option Json}
    (h : (requestLoop R url init timeoutMs retries left attempt).Runs cs (.ok parsed)) :
    ∃ c ∈ cs, AnsweredAt url parsed c := by
  induction left generalizing attempt cs with
  | zero =>
    obtain ⟨cs₁,cs₂,answer,rfl,hattempt,h⟩ := Program.runs_bind_ok.1 h
    cases answer with
    | none => cases (Program.runs_throw.1 h).2
    | some parsed' =>
      cases (Program.runs_ret.1 h).2
      obtain ⟨c,hc,ha⟩ := requestAttempt_runs hattempt
      exact ⟨c,List.mem_append_left _ hc,ha⟩
  | succ left ih =>
    obtain ⟨cs₁,cs₂,answer,rfl,hattempt,h⟩ := Program.runs_bind_ok.1 h
    cases answer with
    | none =>
      obtain ⟨c,hc,ha⟩ := ih h
      exact ⟨c,List.mem_append_right _ hc,ha⟩
    | some parsed' =>
      cases (Program.runs_ret.1 h).2
      obtain ⟨c,hc,ha⟩ := requestAttempt_runs hattempt
      exact ⟨c,List.mem_append_left _ hc,ha⟩

theorem issueCSIDS_runs {params : IssueCSIDSParams} {credentials : IssuedCredentials}
    (h : (issueCSIDS R params).Runs cs (.ok credentials)) :
    ∃ c ∈ cs, IssuesCsids R params.environment credentials c := by
  obtain ⟨_,cs₁,_,rfl,-,h⟩ := Program.runs_bind_ok.1 h
  obtain ⟨cs₂,_,raw,rfl,hcall,h⟩ := Program.runs_bind_ok.1 h
  obtain ⟨rfl,hraw⟩ := Program.runs_ofExcept.1 h
  unfold callGateway at hcall
  obtain ⟨_,cs₃,_,rfl,-,hrequest⟩ := Program.runs_bind_ok.1 hcall
  obtain ⟨c,hc,ha⟩ := requestLoop_runs hrequest
  exact ⟨c,by simp [hc],raw,ha,hraw.symm⟩

end gateway

/-! ### What an onboarding returns -/

/-- The three production secrets are those of the credentials. -/
structure SignerMaterial.Carries (m : SignerMaterial) (credentials : IssuedCredentials) : Prop where
  certificate : m.productionCertificate = credentials.issuedCertificate
  token : m.productionBinarySecurityToken = credentials.binarySecurityToken
  secret : m.productionApiSecret = credentials.apiSecret

/-- Among the calls there is the answer that gives the credentials. -/
def CsidsIssued (R : Runtime) (environment : ZatcaEnvironment) (credentials : IssuedCredentials)
    (cs : List (Answered Server Thrown)) : Prop :=
  ∃ c : Answered HttpClient Thrown, IssuesCsids R environment credentials c ∧
    (⟨.http c.1,c.2⟩ : Answered Server Thrown) ∈ cs

theorem CsidsIssued.append_left {R : Runtime} {environment : ZatcaEnvironment}
    {credentials : IssuedCredentials} {cs₂ : List (Answered Server Thrown)}
    (h : CsidsIssued R environment credentials cs₂) (cs₁ : List (Answered Server Thrown)) :
    CsidsIssued R environment credentials (cs₁ ++ cs₂) := by
  obtain ⟨c,hc,hmem⟩ := h
  exact ⟨c,hc,List.mem_append_right _ hmem⟩

theorem CsidsIssued.append_right {R : Runtime} {environment : ZatcaEnvironment}
    {credentials : IssuedCredentials} {cs₁ : List (Answered Server Thrown)}
    (h : CsidsIssued R environment credentials cs₁) (cs₂ : List (Answered Server Thrown)) :
    CsidsIssued R environment credentials (cs₁ ++ cs₂) := by
  obtain ⟨c,hc,hmem⟩ := h
  exact ⟨c,hc,List.mem_append_left _ hmem⟩

theorem map_self {ε α : Type} (a : Except ε α) : a.map (fun r => r) = a := by
  cases a with
  | error e => rfl
  | ok r => rfl

section onboarding
variable {D : Deps} {R : Runtime} {B : Builders}

/-- What onboarding returns as production credentials is an answer of the environment's gateway. -/
theorem onboard_runs {args : OnboardArgs} {cs : List (Answered OnboardHost Thrown)}
    {result : OnboardingResult} (h : (onboard R B args).Runs cs (.ok result)) :
    ∃ credentials, (signerMaterial result).Carries credentials ∧
      ∃ c : Answered HttpClient Thrown, IssuesCsids R args.environment credentials c ∧
        (⟨.http c.1,c.2⟩ : Answered OnboardHost Thrown) ∈ cs := by
  rw [onboard_eq] at h
  obtain ⟨_,cs₁,⟨privateKey,csr,compliance⟩,rfl,-,h⟩ := Program.runs_bind_ok.1 h
  obtain ⟨_,cs₂,report,rfl,-,h⟩ := Program.runs_bind_ok.1 h
  unfold certify at h
  split at h
  · cases (Program.runs_throw.1 h).2
  · obtain ⟨cs₃,_,credentials,rfl,hcsids,h⟩ := Program.runs_bind_ok.1 h
    obtain ⟨rfl,hresult⟩ := Program.runs_ret.1 h
    cases hresult
    obtain ⟨cs₄,hissue,hseen⟩ := Program.runs_embed hcsids
    obtain ⟨c,hc,hissued⟩ := issueCSIDS_runs hissue
    obtain ⟨a,ha,hca⟩ := Program.SeenAs.mem hseen hc
    rw [map_self] at hca
    subst hca
    exact ⟨credentials,⟨rfl,rfl,rfl⟩,c,hissued,by simp [ha]⟩

theorem handshake_runs {args : RunOnboardingArgs} (hfn : args.onboardFn = none)
    {existing : TenantRecord} {cs : List (Answered Server Thrown)}
    {result : OnboardingResult} {expiry : Date}
    (h : (handshake D args existing).Runs cs (.ok (result,expiry))) :
    ∃ credentials, (signerMaterial result).Carries credentials ∧
      CsidsIssued D.runtime args.environment credentials cs := by
  obtain ⟨cs₁,cs₂,result',rfl,honboard,h⟩ := Program.runs_bind_ok.1 h
  have hresult : result' = result := by
    split at h
    · cases (Program.runs_throw.1 h).2
    · split at h
      · cases (Program.runs_throw.1 h).2
      · cases (Program.runs_ret.1 h).2
        rfl
  subst hresult
  rw [hfn] at honboard
  obtain ⟨cs₃,honboard,hseen⟩ := Program.runs_embed honboard
  obtain ⟨credentials,hcarries,c,hc,hmem⟩ := onboard_runs honboard
  obtain ⟨a,ha,hca⟩ := Program.SeenAs.mem hseen hmem
  rw [map_self] at hca
  refine ⟨credentials,hcarries,c,hc,?_⟩
  simp only at ha hca
  rw [← hca] at ha
  exact List.mem_append_left _ ha

end onboarding

/-! ### What the calls that complete an onboarding rest on -/

/-- The request onboards the tenant with the gateway of the environment. -/
def ServerRequest.Onboards (tenantRef : String) (environment : ZatcaEnvironment) :
    ServerRequest → Prop
  | .onboard req | .rotate req =>
      req.tenantRef = tenantRef ∧ ∃ body, req.body = some body ∧ body.resolved = environment
  | _ => False

/-- The calls that put a tenant's credentials in place. -/
def ServerOp.completes : ServerOp → Bool
  | .vault (.put _ _) | .vault (.delete _) | .tenants (.setState _ .productionReady _) => true
  | _ => false

/-- Credentials are stored once they are issued to an onboarding of the tenant, and a tenant is ready
once they and their expiry are stored. -/
inductive CompletionRests (D : Deps) (r : ServerRequest) (cs : List (Answered Server Thrown)) :
    ServerOp → Prop
  | other {o : ServerOp} : o.completes = false → CompletionRests D r cs o
  | put {tenantRef : String} {m : SignerMaterial} {environment : ZatcaEnvironment}
      {credentials : IssuedCredentials} : r.Onboards tenantRef environment → m.Carries credentials →
      CsidsIssued D.runtime environment credentials cs →
      CompletionRests D r cs (.vault (.put tenantRef m))
  | promote {tenantRef : String} {m : SignerMaterial} {d : Date} {options : SetStateOptions} :
      (⟨.vault (.put tenantRef m),.ok ()⟩ : Answered Server Thrown) ∈ cs →
      (⟨.tenants (.setProductionExpiry tenantRef d),.ok ()⟩ : Answered Server Thrown) ∈ cs →
      CompletionRests D r cs (.tenants (.setState tenantRef .productionReady options))

section completion
variable {D : Deps} {r : ServerRequest}

theorem CompletionRests.later (cs₁ cs₂ : List (Answered Server Thrown)) (o : ServerOp)
    (h : CompletionRests D r cs₂ o) : CompletionRests D r (cs₁ ++ cs₂) o := by
  cases h with
  | other ho => exact .other ho
  | put hr hm hissued => exact .put hr hm (hissued.append_left cs₁)
  | promote hput hexpiry =>
    exact .promote (List.mem_append_right _ hput) (List.mem_append_right _ hexpiry)

theorem restsOn_other {α : Type} {p : Program Server Thrown α}
    (hp : p.Calls fun o : ServerOp => o.completes = false)
    (Q : List (Answered Server Thrown) → List (Answered Server Thrown)) :
    p.RestsOn fun cs o => CompletionRests D r (Q cs) o :=
  hp.restsOn fun _ _ ho => .other ho

theorem runCall_completes {args : RunOnboardingArgs} {phase : RunPhase} {o : ServerOp}
    (h : RunCall args phase o) (hphase : phase ≠ .persist) : o.completes = false := by
  cases h with
  | put | expiry | promote | audit => exact absurd rfl hphase
  | _ => rfl

theorem cached_completes {o : ServerOp} (h : o.isIdempotency) : o.completes = false := by
  cases o with
  | idempotency o => rfl
  | _ => cases h

variable {args : RunOnboardingArgs}

/-- The final batch, after the exchange with the gateway. -/
theorem persist_restsOn {result : OnboardingResult} {expiry : Date}
    {credentials : IssuedCredentials} {cs : List (Answered Server Thrown)}
    (hr : r.Onboards args.tenantRef args.environment)
    (hcarries : (signerMaterial result).Carries credentials)
    (hissued : CsidsIssued D.runtime args.environment credentials cs) :
    (persist args result expiry).RestsOn fun cs' o => CompletionRests D r (cs ++ cs') o := by
  refine Program.restsOn_bind ?_ fun cs₁ a hput => ?_
  · refine (Program.calls_perform (S := Server) (P := fun o => o = .vault (.put args.tenantRef
      (signerMaterial result))) rfl).restsOn fun cs' o ho => ?_
    subst ho
    exact .put hr hcarries (hissued.append_right cs')
  obtain rfl := Program.runs_perform.1 hput
  refine Program.restsOn_bind (restsOn_other (Program.calls_perform rfl) fun cs' =>
    cs ++ (_ ++ cs')) fun cs₂ a hexpiry => ?_
  obtain rfl := Program.runs_perform.1 hexpiry
  refine Program.restsOn_bind ?_ fun cs₃ a _ => ?_
  · refine (Program.calls_perform (S := Server) (P := fun o => o = .tenants (.setState args.tenantRef
      .productionReady {})) rfl).restsOn fun cs' o ho => ?_
    subst ho
    exact .promote (m := signerMaterial result) (d := expiry) (by simp) (by simp)
  · refine restsOn_other ?_ fun cs' => cs ++ (_ ++ (_ ++ (_ ++ cs')))
    exact Program.calls_bind (Program.calls_perform rfl) fun _ => trivial

theorem runOnboarding_restsOn (hfn : args.onboardFn = none)
    (hr : r.Onboards args.tenantRef args.environment) :
    (runOnboarding D args).RestsOn (CompletionRests D r) := by
  refine Program.restsOn_bind (restsOn_other (claimTenant_calls.mono fun o ho =>
    runCall_completes ho nofun) id) fun cs₁ existing _ => ?_
  refine Program.RestsOn.later CompletionRests.later ?_ cs₁
  refine Program.restsOn_tryCatch ?_ fun cs₂ err =>
    restsOn_other ((onFailure_calls err).mono fun o ho => runCall_completes ho nofun) _
  refine Program.restsOn_bind (restsOn_other ((handshake_calls existing).mono fun o ho =>
    runCall_completes ho nofun) id) fun cs₂ ⟨result,expiry⟩ hhandshake => ?_
  obtain ⟨credentials,hcarries,hissued⟩ := handshake_runs hfn hhandshake
  exact Program.restsOn_bind (persist_restsOn hr hcarries hissued) fun _ _ _ => Program.restsOn_ret _

theorem onboardWork_restsOn (auditAction : AuditAction) {actor : AuditActor} {req : OnboardRequest}
    {body : OnboardBody} (cacheKey : Option String) (hr : r.Onboards req.tenantRef body.resolved) :
    (onboardWork D passThroughUnitOfWork req auditAction actor body cacheKey).RestsOn
      (CompletionRests D r) := by
  refine Program.restsOn_bind (restsOn_other (calls_passThrough rfl) id) fun cs₁ tenant _ => ?_
  refine Program.RestsOn.later CompletionRests.later ?_ cs₁
  cases tenant with
  | none => exact Program.restsOn_throw _
  | some tenant =>
    simp only [runOnboardingWith_passThrough]
    refine Program.restsOn_bind (runOnboarding_restsOn rfl hr) fun cs₂ result _ => ?_
    refine restsOn_other ?_ fun cs' => cs₂ ++ cs'
    refine Program.calls_bind ?_ fun _ => trivial
    exact ((commitIdempotency_cached D cacheKey _).mono fun o => cached_completes).embed

theorem onboardInPlace_restsOn (auditAction : AuditAction) (route : String) {req : OnboardRequest}
    (hr : ∀ body, req.body = some body → r.Onboards req.tenantRef body.resolved) :
    (onboardInPlace D passThroughUnitOfWork req auditAction route).RestsOn
      (CompletionRests D r) := by
  refine Program.restsOn_bind (restsOn_other (Program.calls_ofExcept _ _) id) fun cs₁ actor _ => ?_
  refine Program.RestsOn.later CompletionRests.later ?_ cs₁
  refine Program.restsOn_bind (restsOn_other (Program.calls_ofExcept _ _) id) fun cs₂ body hbody => ?_
  refine Program.RestsOn.later CompletionRests.later ?_ cs₂
  have hbody : req.body = some body := by
    have hparse := (Program.runs_ofExcept.1 hbody).2
    cases hreq : req.body with
    | none =>
      rw [hreq] at hparse
      cases hparse
    | some body' =>
      rw [hreq] at hparse
      cases hparse
      rfl
  refine Program.restsOn_bind (restsOn_other (Program.calls_ofExcept _ _) id) fun cs₃ idemKey _ => ?_
  refine Program.RestsOn.later CompletionRests.later ?_ cs₃
  refine Program.restsOn_bind (restsOn_other ((beginIdempotency_cached D _ _ _).mono
    fun o => cached_completes).embed id) fun cs₄ slot _ => ?_
  refine Program.RestsOn.later CompletionRests.later ?_ cs₄
  cases slot with
  | answered reply => exact Program.restsOn_ret _
  | proceed cacheKey =>
    refine Program.restsOn_tryCatch (onboardWork_restsOn auditAction cacheKey (hr body hbody))
      fun cs₅ err => restsOn_other ?_ fun cs' => cs₅ ++ cs'
    refine Program.calls_bind ?_ fun _ => trivial
    exact ((releaseIdempotency_cached cacheKey).mono fun o => cached_completes).embed

theorem onboardWith_restsOn (auditAction : AuditAction) (route : String) {req : OnboardRequest}
    (hr : ∀ body, req.body = some body → r.Onboards req.tenantRef body.resolved) :
    (onboardWith D passThroughUnitOfWork auditAction route req).RestsOn (CompletionRests D r) := by
  refine Program.restsOn_bind (restsOn_other (calls_passThrough rfl) id) fun cs₁ acquired _ => ?_
  refine Program.RestsOn.later CompletionRests.later ?_ cs₁
  cases acquired with
  | false => exact Program.restsOn_ret _
  | true =>
    refine Program.restsOn_bind (Program.restsOn_tryCatch
      (onboardInPlace_restsOn auditAction route hr) fun cs₂ err => restsOn_other ?_ fun cs' => cs₂ ++ cs')
      fun cs₂ reply _ => restsOn_other ?_ fun cs' => cs₂ ++ cs'
    · exact Program.calls_bind (calls_passThrough rfl) fun _ => trivial
    · exact Program.calls_bind (calls_passThrough rfl) fun _ => trivial

/-- A request that does not onboard completes nothing. -/
theorem allows_completes {s : CallerPhase} {o : ServerOp} (ha : (authority D).allows s o)
    (hs : ∀ header about, s.caller ≠ .admin header about true) : o.completes = false := by
  cases s with
  | admin header about onboards =>
    cases onboards with
    | true => exact absurd rfl (hs header about)
    | false =>
      rcases ha with hslot | ⟨actor,-,hcall⟩
      · cases o with
        | acquireSlot | releaseSlot => rfl
        | _ => cases hslot
      · cases hcall <;> rfl
  | tenant tenantRef phase => cases ha <;> rfl

theorem serverRequest_restsOn (D : Deps) (r : ServerRequest) :
    (r.program D).RestsOn (CompletionRests D r) := by
  have hother (h : ∀ header about, r.caller ≠ .admin header about true) :
      (r.program D).RestsOn (CompletionRests D r) := by
    intro cs o hcomes
    obtain ⟨s,hfollows,ha⟩ := (serverRequest_conforms D r).comes hcomes
    have hs : s.caller = r.caller := hfollows.invariant (I := fun _ s => s.caller = r.caller)
      (fun _ s c hs _ => (authority_next_caller D s c.1 c.2).trans hs) (Caller.caller_phase _)
    exact .other (allows_completes ha (hs ▸ h))
  cases r with
  | onboard req => exact onboardWith_restsOn _ _ fun body hbody => ⟨rfl,body,hbody,rfl⟩
  | rotate req => exact onboardWith_restsOn _ _ fun body hbody => ⟨rfl,body,hbody,rfl⟩
  | _ => exact hother (by simp [ServerRequest.caller])

end completion

/-! ### What the vault holds -/

/-- The material is stored for the tenant. -/
inductive StoresMaterial (tenantRef : String) (m : SignerMaterial) : ServerEvent → Prop
  | mk {q : Nat} {w w' : World} : StoresMaterial tenantRef m ⟨q,.vault (.put tenantRef m),.ok (),w,w'⟩

/-- The gateway of the environment issues the credentials to the request. -/
inductive GatewayIssues (R : Runtime) (environment : ZatcaEnvironment)
    (credentials : IssuedCredentials) (q : Nat) : ServerEvent → Prop
  | mk {c : Answered HttpClient Thrown} {w w' : World} : IssuesCsids R environment credentials c →
      GatewayIssues R environment credentials q ⟨q,.http c.1,c.2,w,w'⟩

section vault
variable {D : Deps} {requests : Nat → ServerRequest} {w₀ : World} {c : ServerConfig Reply}
  {ok : ServerConfig Reply → Nat → Choice → Prop}

/-- Each row was sealed from material that was stored for the tenant. -/
def RowsStored (C : SecretCipher) (v : MemoryCredentialVault) (history : List ServerEvent) : Prop :=
  ∀ tenantRef row, v.rows.get tenantRef = some row → ∃ m iv,
    row = MemoryCredentialVault.sealMaterial C iv m ∧ ∃ e ∈ history, StoresMaterial tenantRef m e

theorem RowsStored.cons {C : SecretCipher} {v : MemoryCredentialVault} {history : List ServerEvent}
    (h : RowsStored C v history) (e : ServerEvent) : RowsStored C v (e :: history) := by
  intro tenantRef row hrow
  obtain ⟨m,iv,hm,e',he',hstores⟩ := h tenantRef row hrow
  exact ⟨m,iv,hm,e',List.mem_cons_of_mem e he',hstores⟩

theorem rowsStored_step {o : ServerOp} {p : Nat} {x : Choice} {w : World}
    {history : List ServerEvent} (h : RowsStored D.cipher w.vault history) :
    RowsStored D.cipher (World.handle D o x w).2.vault
      (⟨p,o,(World.handle D o x w).1,w,(World.handle D o x w).2⟩ :: history) := by
  by_cases ho : o.store = some .vault
  · cases o with
    | vault o =>
      rcases World.handle_cases D (.vault o) x w with ⟨e,-,-,hw⟩ | hw
      · rw [hw]
        exact h.cons _
      · rw [hw]
        cases o with
        | put ref m =>
          intro tenantRef row hrow
          simp only [World.serve,MemoryCredentialVault.handle,MemoryCredentialVault.put,
            JsMap.get_set] at hrow
          split at hrow
          · rename_i href
            subst href
            cases hrow
            exact ⟨m,x.iv,rfl,_,List.mem_cons_self,.mk⟩
          · exact h.cons _ tenantRef row hrow
        | get ref => exact h.cons _
        | delete ref =>
          intro tenantRef row hrow
          simp only [World.serve,MemoryCredentialVault.handle,JsMap.get_delete] at hrow
          split at hrow
          · cases hrow
          · exact h.cons _ tenantRef row hrow
    | _ => cases ho
  · rw [(World.handle_frame D o x w).vault ho]
    exact h.cons _

theorem vault_rowsStored (hvault : w₀.vault = .empty)
    (hc : Reach (World.handle D) ok (startRequests D w₀ requests) c) :
    RowsStored D.cipher c.shared.vault c.history := by
  refine Reach.invariant (I := fun c => RowsStored D.cipher c.shared.vault c.history) ?_
    (fun c p x o k h _ _ => rowsStored_step h) hc
  intro tenantRef row hrow
  simp [startRequests,hvault,MemoryCredentialVault.empty] at hrow

/-- What the vault opens for a tenant was stored for it. -/
theorem stores_of_opens (hvault : w₀.vault = .empty)
    (hc : Reach (World.handle D) ok (startRequests D w₀ requests) c) {tenantRef : String}
    {m : SignerMaterial} {p : Nat} {e : ServerEvent} {after before : List ServerEvent}
    (he : c.history = after ++ e :: before) (hopens : OpensVault p tenantRef m e) :
    ∃ e' ∈ before, StoresMaterial tenantRef m e' := by
  obtain ⟨c',q,o,k,x,hreach,-,-,hhist,-⟩ := hc.exists_step rfl he
  obtain ⟨rfl,rfl⟩ := List.cons.inj hhist
  have hrows := vault_rowsStored hvault hreach
  generalize hanswer : (World.handle D o x c'.shared).1 = a at hopens
  cases hopens with
  | mk =>
    rcases World.handle_cases D (.vault (.get tenantRef)) x c'.shared with ⟨e,-,-,hw⟩ | hw
    · rw [hw] at hanswer
      cases hanswer
    · rw [hw] at hanswer
      simp only [World.serve,MemoryCredentialVault.handle,MemoryCredentialVault.get] at hanswer
      cases hrow : c'.shared.vault.rows.get tenantRef with
      | none =>
        rw [hrow] at hanswer
        cases hanswer
      | some row =>
        obtain ⟨m',iv,rfl,e',he',hstores⟩ := hrows tenantRef row hrow
        simp only [hrow,MemoryCredentialVault.openMaterial_sealMaterial,Except.ok.injEq,
          Option.some.injEq] at hanswer
        subst hanswer
        exact ⟨e',he',hstores⟩

/-- What is stored for a tenant was issued to the request that stores it. -/
theorem issued_of_stores (hc : Reach (World.handle D) ok (startRequests D w₀ requests) c)
    {tenantRef : String} {m : SignerMaterial} {e : ServerEvent} {after before : List ServerEvent}
    (he : c.history = after ++ e :: before) (hstores : StoresMaterial tenantRef m e) :
    ∃ environment credentials, (requests e.pid).Onboards tenantRef environment ∧
      m.Carries credentials ∧
      ∃ e' ∈ before, GatewayIssues D.runtime environment credentials e.pid e' := by
  have hcomes := hc.comes rfl he
  cases hstores with
  | mk =>
    cases serverRequest_restsOn D _ hcomes with
    | other h => cases h
    | @put _ _ environment credentials honboards hcarries hissued =>
      obtain ⟨call,hcall,hmem⟩ := hissued
      obtain ⟨s,s',hevent⟩ := mem_callsOf.1 hmem
      exact ⟨environment,credentials,honboards,hcarries,_,hevent,.mk hcall⟩

/-- What the tenant's request has learnt is what it was answered. -/
def Learnt (tenantRef : String) (cs : List (Answered Server Thrown)) : CallerPhase → Prop
  | .tenant ref (.found _ tenant) => ref = tenantRef ∧ tenant.state = .productionReady ∧
      (⟨.tenants (.get tenantRef),.ok (some tenant)⟩ : Answered Server Thrown) ∈ cs
  | .tenant ref (.ready _ tenant signing) => ref = tenantRef ∧ tenant.state = .productionReady ∧
      (⟨.tenants (.get tenantRef),.ok (some tenant)⟩ : Answered Server Thrown) ∈ cs ∧
      (⟨.vault (.get tenantRef),.ok (some signing)⟩ : Answered Server Thrown) ∈ cs
  | .tenant ref _ => ref = tenantRef
  | .admin _ _ _ => True

theorem Learnt.append {tenantRef : String} {cs : List (Answered Server Thrown)} {s : CallerPhase}
    (h : Learnt tenantRef cs s) (c : Answered Server Thrown) : Learnt tenantRef (cs ++ [c]) s := by
  cases s with
  | admin header about onboards => trivial
  | tenant ref phase =>
    cases phase with
    | anonymous => exact h
    | resolved tokenId => exact h
    | found tokenId tenant => exact ⟨h.1,h.2.1,List.mem_append_left _ h.2.2⟩
    | ready tokenId tenant signing =>
      exact ⟨h.1,h.2.1,List.mem_append_left _ h.2.2.1,List.mem_append_left _ h.2.2.2⟩

theorem learnt_next {tenantRef : String} {cs : List (Answered Server Thrown)} {s : CallerPhase}
    {c : Answered Server Thrown} (h : Learnt tenantRef cs s) (ha : (authority D).allows s c.1) :
    Learnt tenantRef (cs ++ [c]) ((authority D).next s c.1 c.2) := by
  obtain ⟨o,a⟩ := c
  cases s with
  | admin header about onboards => trivial
  | tenant ref phase =>
    cases ha with
    | resolve bearer =>
      cases a with
      | error e => exact h
      | ok key =>
        cases key with
        | none => exact h
        | some key =>
          simp only [authority,TenantPhase.next]
          split
          · exact h
          · exact h
    | tenant =>
      cases a with
      | error e => exact h
      | ok record =>
        cases record with
        | none => exact h
        | some record =>
          obtain rfl : ref = tenantRef := h
          simp only [authority,TenantPhase.next]
          split
          · rename_i hready
            exact ⟨rfl,hready,by simp⟩
          · exact rfl
    | vault =>
      cases a with
      | error e => exact h.append _
      | ok signing =>
        cases signing with
        | none => exact h.append _
        | some signing =>
          obtain ⟨rfl,hready,hread⟩ := h
          exact ⟨rfl,hready,List.mem_append_left _ hread,by simp⟩
    | storage _ | idempotency _ | http _ | audit _ _ =>
      simpa [authority,TenantPhase.next] using h.append _

/-- What a tenant's request has learnt when it comes to a call, which this allows. -/
theorem learnt_of_comes {D : Deps} {r : ServerRequest} {tenantRef : String}
    (hcaller : r.caller = .tenant tenantRef) {cs : List (Answered Server Thrown)} {o : ServerOp}
    (hcomes : (r.program D).Comes cs o) : ∃ phase, TenantCall D.runtime tenantRef phase o ∧
      Learnt tenantRef cs (.tenant tenantRef phase) := by
  obtain ⟨s,hfollows,ha⟩ := (serverRequest_conforms D r).comes hcomes
  have hlearnt : Learnt tenantRef cs s :=
    hfollows.invariant (fun cs s c => learnt_next) (by rw [hcaller]; exact rfl)
  have hs : s.caller = .tenant tenantRef := by
    refine hfollows.invariant (I := fun _ s => s.caller = .tenant tenantRef)
      (fun _ s c hs _ => (authority_next_caller D s c.1 c.2).trans hs) ?_
    rw [hcaller]
    rfl
  cases s with
  | admin header about onboards => cases hs
  | tenant ref phase =>
    cases hs
    exact ⟨phase,ha,hlearnt⟩

/-- A message of a tenant's request goes to the gateway that the record names, under what the vault
opened, both as the request was answered before. -/
theorem message_learnt (hc : Reach (World.handle D) ok (startRequests D w₀ requests) c)
    {e : ServerEvent} {after before : List ServerEvent} (he : c.history = after ++ e :: before)
    {tenantRef : String} (hcaller : (requests e.pid).caller = .tenant tenantRef) {o : HttpOp}
    (ho : e.op = .http o) : ∃ tenant signing, o.SentUnder D.runtime tenant.environment signing ∧
      (⟨.tenants (.get tenantRef),.ok (some tenant)⟩ : Answered Server Thrown) ∈
        callsOf e.pid before ∧
      (⟨.vault (.get tenantRef),.ok (some signing)⟩ : Answered Server Thrown) ∈
        callsOf e.pid before := by
  have hcomes := hc.comes rfl he
  rw [ho] at hcomes
  obtain ⟨phase,ha,hlearnt⟩ := learnt_of_comes hcaller hcomes
  cases ha with
  | @http tokenId tenant signing o hsent => exact ⟨tenant,signing,hsent,hlearnt.2.2⟩

theorem binds_of_reach {c₀ : ServerConfig Reply} {tenantRef : String} {i : TenantIdentity}
    (h : c₀.shared.tenants.Binds tenantRef i) (hc : Reach (World.handle D) ok c₀ c) :
    c.shared.tenants.Binds tenantRef i :=
  Reach.invariant (I := fun c => c.shared.tenants.Binds tenantRef i) h
    (fun _ _ _ _ _ h _ _ => binds_handle h) hc

/-- The tenant that a request was answered is the one that is bound. -/
theorem binds_of_answered (hc : Reach (World.handle D) ok (startRequests D w₀ requests) c)
    {tenantRef : String} {tenant : TenantRecord} {q : Nat} {w w' : World}
    (he : (⟨q,.tenants (.get tenantRef),.ok (some tenant),w,w'⟩ : ServerEvent) ∈ c.history) :
    c.shared.tenants.Binds tenantRef tenant.identity := by
  obtain ⟨after,before,he⟩ := List.append_of_mem he
  obtain ⟨c',p,o,k,x,-,-,-,hhist,hlater⟩ := hc.exists_step rfl he
  obtain ⟨hevent,-⟩ := List.cons.inj hhist
  simp only [Event.mk.injEq] at hevent
  obtain ⟨-,rfl,hanswer,-,-⟩ := hevent
  exact binds_of_reach (binds_handle (binds_of_answer (eq_of_heq hanswer))) hlater

/-- The material goes back, through the vault, to an answer of the environment's gateway to a request
that onboards the tenant. -/
def IssuedFor (R : Runtime) (requests : Nat → ServerRequest) (p : Nat) (tenantRef : String)
    (environment : ZatcaEnvironment) (signing : SignerMaterial) (before : List ServerEvent) : Prop :=
  ∃ q credentials, (requests q).Onboards tenantRef environment ∧ signing.Carries credentials ∧
    InOrder [OpensVault p tenantRef signing,StoresMaterial tenantRef signing,
      GatewayIssues R environment credentials q] before

/-- Each message of a tenant's request is sent under credentials that a gateway issued to an
onboarding of the tenant, and to the gateway that the tenant is registered with. -/
theorem messages_traced (hvault : w₀.vault = .empty)
    (hc : Reach (World.handle D) ok (startRequests D w₀ requests) c) {e : ServerEvent}
    {after before : List ServerEvent} (he : c.history = after ++ e :: before) {tenantRef : String}
    (hcaller : (requests e.pid).caller = .tenant tenantRef) {o : HttpOp} (ho : e.op = .http o) :
    ∃ i environment signing, c.shared.tenants.Binds tenantRef i ∧
      IssuedFor D.runtime requests e.pid tenantRef environment signing before ∧
      o.SentUnder D.runtime i.environment signing := by
  obtain ⟨tenant,signing,hsent,hread,hopened⟩ := message_learnt hc he hcaller ho
  obtain ⟨w,w',hread⟩ := mem_callsOf.1 hread
  obtain ⟨w₁,w₂,hopened⟩ := mem_callsOf.1 hopened
  have hbinds := binds_of_answered hc (he ▸ List.mem_append_right after (List.mem_cons_of_mem e hread))
  obtain ⟨after₁,before₁,rfl⟩ := List.append_of_mem hopened
  have he₁ : c.history = (after ++ e :: after₁) ++
      ⟨e.pid,.vault (.get tenantRef),.ok (some signing),w₁,w₂⟩ :: before₁ := by simpa using he
  obtain ⟨e₂,he₂,hstores⟩ := stores_of_opens hvault hc he₁ .mk
  obtain ⟨after₂,before₂,rfl⟩ := List.append_of_mem he₂
  have he₃ : c.history = (after ++ e :: after₁ ++
      ⟨e.pid,.vault (.get tenantRef),.ok (some signing),w₁,w₂⟩ :: after₂) ++ e₂ :: before₂ := by
    simpa using he₁
  obtain ⟨environment,credentials,honboards,hcarries,hissued⟩ := issued_of_stores hc he₃ hstores
  refine ⟨tenant.identity,environment,signing,hbinds,⟨e₂.pid,credentials,honboards,hcarries,?_⟩,hsent⟩
  exact ⟨after₁,_,_,rfl,.mk,after₂,e₂,before₂,rfl,hstores,inOrder_singleton.2 hissued⟩

end vault

/-- As long as each onboarding names the environment that its tenant is registered with, a message of
a tenant's request goes to the gateway that issued its credentials, whatever requests there are and
however they interleave. -/
theorem messages_toTheirIssuer (D : Deps) (w₀ : World) (requests : Nat → ServerRequest)
    (c : ServerConfig Reply) (hvault : w₀.vault = .empty)
    (hc : Reach (World.handle D) (fun _ _ _ => True) (startRequests D w₀ requests) c)
    (hnames : ∀ q tenantRef environment i, (requests q).Onboards tenantRef environment →
      c.shared.tenants.Binds tenantRef i → environment = i.environment)
    (after : List ServerEvent) (e : ServerEvent) (before : List ServerEvent)
    (he : c.history = after ++ e :: before) (tenantRef : String)
    (hcaller : (requests e.pid).caller = .tenant tenantRef) (o : HttpOp) (ho : e.op = .http o) :
    ∃ environment signing,
      IssuedFor D.runtime requests e.pid tenantRef environment signing before ∧
      o.SentUnder D.runtime environment signing := by
  obtain ⟨i,environment,signing,hbinds,hissued,hsent⟩ := messages_traced hvault hc he hcaller ho
  obtain ⟨q,credentials,honboards,-⟩ := id hissued
  obtain rfl := hnames q tenantRef environment i honboards hbinds
  exact ⟨i.environment,signing,hissued,hsent⟩

namespace Sample

/-- The tenant is registered, and has no credentials. -/
def unsignedWorld : World := { world with vault := .empty }

def csids : Json := .obj [("binarySecurityToken",.str "issued token"),
  ("secret",.str "issued secret"),("requestID",.str "7")]

/-- The gateway answers every message with credentials. -/
def issuing : Choice where
  now := clock
  reply := .ok ⟨200,[],.ok (.json csids)⟩
  cryptoText := "text"

def onboardRequest : OnboardRequest where
  authHeader := some "Bearer admin"
  tenantRef
  body := some { otp := "123456", solutionName := "pos", environment := some .production }
  host _ := ⟨"id",clock⟩

def onboardAndIssue : Nat → ServerRequest
  | 0 => .onboard onboardRequest
  | _ + 1 => .issueInvoice (issueRequest none)

/-- The onboarding comes to its end, and the document is sent. -/
def onboardAndIssueRun : List (Nat × Choice) :=
  (List.replicate 29 0 ++ List.replicate 7 1).map fun p => (p,issuing)

end Sample

set_option maxRecDepth 20000 in
theorem messages_toTheirIssuer_of_an_onboarding : ∃ c e before o,
    (startRequests Sample.deps Sample.unsignedWorld Sample.onboardAndIssue).run
      (World.handle Sample.deps) (fun _ _ _ => True) Sample.onboardAndIssueRun = some c ∧
    c.history = [] ++ e :: before ∧ e.op = .http o ∧
    ∃ environment signing, IssuedFor Sample.runtime Sample.onboardAndIssue e.pid Sample.tenantRef
        environment signing before ∧ o.SentUnder Sample.runtime environment signing := by
  obtain ⟨c,e,before,o,hrun,he,hpid,ho⟩ : ∃ c e before o,
      (startRequests Sample.deps Sample.unsignedWorld Sample.onboardAndIssue).run
        (World.handle Sample.deps) (fun _ _ _ => True) Sample.onboardAndIssueRun = some c ∧
      c.history = [] ++ e :: before ∧ e.pid = 1 ∧ e.op = .http o :=
    ⟨_,_,_,_,rfl,rfl,rfl,rfl⟩
  have hc := Reach.of_run Sample.onboardAndIssueRun .init hrun
  refine ⟨c,e,before,o,hrun,he,ho,?_⟩
  refine messages_toTheirIssuer Sample.deps Sample.unsignedWorld Sample.onboardAndIssue c rfl hc ?_
    [] e before he Sample.tenantRef (by rw [hpid]; rfl) o ho
  intro q tenantRef environment i honboards hbinds
  cases q with
  | zero =>
    obtain ⟨rfl,body,hbody,rfl⟩ := honboards
    cases hbody
    have hstart : (startRequests Sample.deps Sample.unsignedWorld
        Sample.onboardAndIssue).shared.tenants.Binds Sample.tenantRef Sample.tenant.identity := rfl
    rw [hbinds.unique (binds_of_reach hstart hc)]
    rfl
  | succ q => cases honboards

end Zatca
