import Zatca.Server.AdminRoutes
set_option autoImplicit false

/-! Every request of the server, and the authority under which it makes each of its calls: the
administrator that the header names, or a tenant that its bearer has been resolved to. -/

namespace Zatca
open Interaction

section routes
variable (D : Deps) {T : Signature} (U : UnitOfWork T)

/-- `GET /v1/tenants/:ref` -/
def getTenantRoute (authHeader : Option String) (tenantRef : String) : Program T Thrown Reply := do
  let _ ← Program.ofExcept (adminFor D authHeader)
  let record ← U.perform (.tenants (.get tenantRef))
  match record with
  | none => return { statusCode := 404
                     body := errorBody "ZatcaRegistryError" ("Unknown tenant '" ++ tenantRef ++ "'.") }
  | some record => return { statusCode := 200, body := record.toJson }

def tenantStatusBody (record : TenantRecord) : Json :=
  .obj ([("tenantRef",.str record.tenantRef),("state",.str record.state.literal),
      ("onboardingProgress",record.onboardingProgress.toJson)] ++
    optionalField "claimedBy" (record.claimedBy.map .str) ++
    optionalField "claimExpiresAt" (record.claimExpiresAt.map Date.toJson) ++
    optionalField "productionCertificateExpiresAt"
      (record.productionCertificateExpiresAt.map Date.toJson))

/-- `GET /v1/tenants/:ref/status` -/
def tenantStatusRoute (authHeader : Option String) (tenantRef : String) :
    Program T Thrown Reply := do
  let _ ← Program.ofExcept (adminFor D authHeader)
  let record ← U.perform (.tenants (.get tenantRef))
  match record with
  | none => Program.throw (unknownTenant tenantRef)
  | some record => return { statusCode := 200, body := tenantStatusBody record }

end routes

/-- A request as its handler receives it. The two lists, of the tenants and of a tenant's keys, are
read under the same check as the other routes of the administrators and change nothing. -/
inductive ServerRequest where
  | createTenant (authHeader : Option String) (body : Option CreateTenantBody)
  | getTenant (authHeader : Option String) (tenantRef : String)
  | patchTenant (authHeader : Option String) (tenantRef : String)
      (body : Option PatchableTenantFields)
  | deleteTenant (authHeader : Option String) (tenantRef : String)
  | issueKey (authHeader : Option String) (tenantRef : String) (body : Option String)
  | revokeKey (authHeader : Option String) (tenantRef tokenId : String)
  | onboard (req : OnboardRequest)
  | rotate (req : OnboardRequest)
  | tenantStatus (authHeader : Option String) (tenantRef : String)
  | unlock (authHeader : Option String) (tenantRef : String) (body : Option UnlockBody)
  | issueInvoice (req : IssueRequest)
  | getInvoice (req : InvoiceRequest)
  | cancelInvoice (req : InvoiceRequest) (body : Option CancelBody)
  | invoiceStatus (req : InvoiceRequest) (query : Option StatusQuery)
  | checkCompliance (req : InvoiceRequest)

/-- Whom a request answers to: an administrator, for the tenant of the path if there is one and to
onboard it or not, or the tenant of the path. -/
inductive Caller where
  | admin (authHeader : Option String) (about : Option String) (onboards : Bool)
  | tenant (tenantRef : String)
  deriving DecidableEq, Repr

namespace ServerRequest

def program (D : Deps) : ServerRequest → Program Server Thrown Reply
  | .createTenant header body => createTenantRoute D passThroughUnitOfWork header body
  | .getTenant header tenantRef => getTenantRoute D passThroughUnitOfWork header tenantRef
  | .patchTenant header tenantRef body => patchTenantRoute D passThroughUnitOfWork header tenantRef body
  | .deleteTenant header tenantRef => deleteTenantRoute D passThroughUnitOfWork header tenantRef
  | .issueKey header tenantRef body => issueKeyRoute D passThroughUnitOfWork header tenantRef body
  | .revokeKey header tenantRef tokenId =>
      revokeKeyRoute D passThroughUnitOfWork header tenantRef tokenId
  | .onboard req => onboardRoute D passThroughUnitOfWork req
  | .rotate req => rotateRoute D passThroughUnitOfWork req
  | .tenantStatus header tenantRef => tenantStatusRoute D passThroughUnitOfWork header tenantRef
  | .unlock header tenantRef body => unlockRoute D passThroughUnitOfWork header tenantRef body
  | .issueInvoice req => issueRoute D req
  | .getInvoice req => getRoute req
  | .cancelInvoice req body => cancelRoute D req body
  | .invoiceStatus req query => statusRoute D req query
  | .checkCompliance req => checkComplianceRoute D req

def caller : ServerRequest → Caller
  | .createTenant header _ => .admin header none false
  | .getTenant header tenantRef | .patchTenant header tenantRef _ | .deleteTenant header tenantRef
  | .issueKey header tenantRef _ | .revokeKey header tenantRef _ | .tenantStatus header tenantRef
  | .unlock header tenantRef _ => .admin header (some tenantRef) false
  | .onboard req | .rotate req => .admin req.authHeader (some req.tenantRef) true
  | .issueInvoice req => .tenant req.tenantRef
  | .getInvoice req | .cancelInvoice req _ | .invoiceStatus req _ | .checkCompliance req =>
      .tenant req.tenantRef

end ServerRequest

/-- Any number of requests in flight at once on one server. -/
def startRequests (D : Deps) (w : World) (requests : Nat → ServerRequest) : ServerConfig Reply where
  shared := w
  procs p := (requests p).program D

/-! ### Authority -/

/-- What a tenant's request has learnt of its caller. -/
inductive TenantPhase where
  | anonymous
  | resolved (tokenId : String)
  | found (tokenId : String) (tenant : TenantRecord)
  | ready (tokenId : String) (tenant : TenantRecord) (signing : SignerMaterial)

def basicAuthorization (R : Runtime) (signing : SignerMaterial) : String :=
  "Basic " ++ R.toBase64 (signing.productionBinarySecurityToken ++ ":" ++ signing.productionApiSecret)

/-- A message, if it is one, to the gateway of the environment under the credentials. -/
def HttpOp.SentUnder (R : Runtime) (environment : ZatcaEnvironment) (signing : SignerMaterial) :
    HttpOp → Prop
  | .fetch url init => (∃ path, url = (getZatcaEndpoints environment).base ++ path) ∧
      init.headers.lookup "Authorization" = some (basicAuthorization R signing)
  | _ => True

/-- The calls of a tenant's request, by what it has learnt. -/
inductive TenantCall (R : Runtime) (tenantRef : String) : TenantPhase → ServerOp → Prop
  | resolve (bearer : String) : TenantCall R tenantRef .anonymous (.apiKeys (.resolve bearer))
  | tenant {tokenId : String} : TenantCall R tenantRef (.resolved tokenId) (.tenants (.get tenantRef))
  | vault {tokenId : String} {tenant : TenantRecord} :
      TenantCall R tenantRef (.found tokenId tenant) (.vault (.get tenantRef))
  | storage {tokenId : String} {tenant : TenantRecord} {signing : SignerMaterial} {o : StorageOp} :
      o.scope = toTenantScope tenant →
      TenantCall R tenantRef (.ready tokenId tenant signing) (.storage o)
  | idempotency {tokenId : String} {tenant : TenantRecord} {signing : SignerMaterial}
      (o : IdempotencyOp) : TenantCall R tenantRef (.ready tokenId tenant signing) (.idempotency o)
  | http {tokenId : String} {tenant : TenantRecord} {signing : SignerMaterial} {o : HttpOp} :
      o.SentUnder R tenant.environment signing →
      TenantCall R tenantRef (.ready tokenId tenant signing) (.http o)
  | audit {tokenId : String} {tenant : TenantRecord} {signing : SignerMaterial}
      {input : AuditEntryInput} : input.actor = .tenant tenantRef tokenId →
      input.tenantRef = some tenant.tenantRef →
      TenantCall R tenantRef (.ready tokenId tenant signing) (.audit input)

def TenantPhase.next (tenantRef : String) :
    TenantPhase → (o : ServerOp) → Except Thrown (ServerOp.Ret o) → TenantPhase
  | .anonymous, .apiKeys (.resolve _), .ok (some key) =>
      if key.tenantRef = tenantRef then .resolved key.tokenId else .anonymous
  | .resolved tokenId, .tenants (.get _), .ok (some tenant) =>
      if tenant.state = .productionReady then .found tokenId tenant else .resolved tokenId
  | .found tokenId tenant, .vault (.get _), .ok (some signing) => .ready tokenId tenant signing
  | phase, _, _ => phase

/-- The calls of an administrator's request once its header is accepted: on the tenant that it is
about, and only what its kind is for. -/
inductive AdminCall (actor : AuditActor) : Option String → Bool → ServerOp → Prop
  | create (input : CreateTenantInput) : AdminCall actor none false (.tenants (.create input))
  | read {tenantRef : String} {onboards : Bool} :
      AdminCall actor (some tenantRef) onboards (.tenants (.get tenantRef))
  | patch {tenantRef : String} (patch : PatchableTenantFields) :
      AdminCall actor (some tenantRef) false (.tenants (.patch tenantRef patch))
  | softDelete {tenantRef : String} :
      AdminCall actor (some tenantRef) false (.tenants (.softDelete tenantRef))
  | fail {tenantRef : String} {onboards : Bool} (message : String) :
      AdminCall actor (some tenantRef) onboards
        (.tenants (.setState tenantRef .failed { lastError := some message }))
  | claim {tenantRef : String} (expectedFrom : TenantState) (instanceId : String) (expires : Date) :
      AdminCall actor (some tenantRef) true (.tenants (.setState tenantRef .onboarding
        { expectedFrom := some expectedFrom, claimedBy := some instanceId
          claimExpiresAt := some expires }))
  | progress {tenantRef : String} (scenario : String) (passed : Bool) :
      AdminCall actor (some tenantRef) true
        (.tenants (.recordOnboardingProgress tenantRef scenario passed))
  | expiry {tenantRef : String} (expires : Date) :
      AdminCall actor (some tenantRef) true (.tenants (.setProductionExpiry tenantRef expires))
  | promote {tenantRef : String} :
      AdminCall actor (some tenantRef) true (.tenants (.setState tenantRef .productionReady {}))
  | clock {tenantRef : String} {onboards : Bool} : AdminCall actor (some tenantRef) onboards .clock
  | issue {tenantRef : String} (label : String) :
      AdminCall actor (some tenantRef) false (.apiKeys (.issue tenantRef label))
  | revoke {tenantRef : String} (tokenId : String) :
      AdminCall actor (some tenantRef) false (.apiKeys (.revoke tenantRef tokenId))
  | revokeAll {tenantRef : String} :
      AdminCall actor (some tenantRef) false (.apiKeys (.revokeAllForTenant tenantRef))
  | put {tenantRef : String} (material : SignerMaterial) :
      AdminCall actor (some tenantRef) true (.vault (.put tenantRef material))
  | idempotency {tenantRef : String} (o : IdempotencyOp) :
      AdminCall actor (some tenantRef) true (.idempotency o)
  | http {tenantRef : String} (o : HttpOp) : AdminCall actor (some tenantRef) true (.http o)
  | crypto {tenantRef : String} (o : CryptoOp) : AdminCall actor (some tenantRef) true (.crypto o)
  | audit {about : Option String} {onboards : Bool} {input : AuditEntryInput} :
      input.actor = actor → AdminCall actor about onboards (.audit input)

/-- A place of the process, which a request to onboard takes before its header is read. -/
def ServerOp.isSlot : ServerOp → Bool
  | .acquireSlot | .releaseSlot => true
  | _ => false

inductive CallerPhase where
  | admin (authHeader : Option String) (about : Option String) (onboards : Bool)
  | tenant (tenantRef : String) (phase : TenantPhase)

def Caller.phase : Caller → CallerPhase
  | .admin header about onboards => .admin header about onboards
  | .tenant tenantRef => .tenant tenantRef .anonymous

/-- Who may call what, and what they learn from the answer. -/
def authority (D : Deps) : Typestate Server Thrown CallerPhase where
  allows
    | .admin header about onboards, o =>
        o.isSlot ∨ ∃ actor, adminFor D header = .ok actor ∧ AdminCall actor about onboards o
    | .tenant tenantRef phase, o => TenantCall D.runtime tenantRef phase o
  next
    | .admin header about onboards, _, _ => .admin header about onboards
    | .tenant tenantRef phase, o, a => .tenant tenantRef (phase.next tenantRef o a)

/-! ### The requests of the administrators -/

section admin
variable {D : Deps} {header about : Option String} {onboards : Bool} {actor : AuditActor}
  {tenantRef : String}

theorem calls_authorized {f : AuditActor → Program Server Thrown Reply}
    (hf : ∀ actor, (f actor).Calls (AdminCall actor about onboards)) :
    ((Program.ofExcept (adminFor D header)).bind f).Calls
      ((authority D).allows (.admin header about onboards)) := by
  rw [Program.ofExcept_bind]
  split
  · rename_i actor hactor
    exact (hf actor).mono fun o ho => .inr ⟨actor,hactor,ho⟩
  · trivial

theorem calls_passThrough {P : ServerOp → Prop} {o : ServerOp} (h : P o) :
    (passThroughUnitOfWork.perform o).Calls P := by
  unfold UnitOfWork.perform
  exact (Program.calls_perform h).embed

theorem calls_readTenant {k : Option TenantRecord → Program Server Thrown Reply}
    (hk : ∀ record, (k record).Calls (AdminCall actor (some tenantRef) onboards)) :
    ((passThroughUnitOfWork.perform (.tenants (.get tenantRef))).bind k).Calls
      (AdminCall actor (some tenantRef) onboards) :=
  Program.calls_bind (calls_passThrough .read) hk

theorem createBatch_calls (input : CreateTenantInput) :
    (createBatch actor input).Calls (AdminCall actor none false) :=
  Program.calls_bind (Program.calls_perform (.create input)) fun _ =>
    Program.calls_bind (Program.calls_perform (.audit rfl)) fun _ => trivial

theorem patchBatch_calls (patch : PatchableTenantFields) :
    (patchBatch actor tenantRef patch).Calls (AdminCall actor (some tenantRef) false) :=
  Program.calls_bind (Program.calls_perform (.patch patch)) fun _ =>
    Program.calls_bind (Program.calls_perform (.audit rfl)) fun _ => trivial

theorem deleteBatch_calls :
    (deleteBatch actor tenantRef).Calls (AdminCall actor (some tenantRef) false) :=
  Program.calls_bind (Program.calls_perform .softDelete) fun _ =>
    Program.calls_bind (Program.calls_perform .revokeAll) fun _ =>
      Program.calls_perform (.audit rfl)

theorem issueKeyBatch_calls (label : String) :
    (issueKeyBatch actor tenantRef label).Calls (AdminCall actor (some tenantRef) false) :=
  Program.calls_bind (Program.calls_perform (.issue label)) fun _ =>
    Program.calls_bind (Program.calls_perform (.audit rfl)) fun _ => trivial

theorem revokeKeyBatch_calls (tokenId : String) :
    (revokeKeyBatch actor tenantRef tokenId).Calls (AdminCall actor (some tenantRef) false) := by
  refine Program.calls_bind (Program.calls_perform (.revoke tokenId)) fun revoked => ?_
  cases revoked with
  | false => trivial
  | true => exact Program.calls_perform (.audit rfl)

theorem unlockBatch_calls (force : Bool) :
    (unlockBatch actor tenantRef force).Calls (AdminCall actor (some tenantRef) false) :=
  Program.calls_bind (Program.calls_perform (.fail _)) fun _ =>
    Program.calls_bind (Program.calls_perform (.audit rfl)) fun _ => trivial

theorem createTenantRoute_calls (body : Option CreateTenantBody) :
    (createTenantRoute D passThroughUnitOfWork header body).Calls
      ((authority D).allows (.admin header none false)) := by
  refine calls_authorized fun actor => ?_
  refine Program.calls_bind (Program.calls_ofExcept _ _) fun body => ?_
  refine Program.calls_bind (Program.calls_ofExcept _ _) fun input => ?_
  exact Program.calls_bind (createBatch_calls input) fun created => trivial

theorem getTenantRoute_calls : (getTenantRoute D passThroughUnitOfWork header tenantRef).Calls
    ((authority D).allows (.admin header (some tenantRef) false)) := by
  refine calls_authorized fun actor => calls_readTenant fun record => ?_
  cases record with
  | none => trivial
  | some record => trivial

theorem tenantStatusRoute_calls :
    (tenantStatusRoute D passThroughUnitOfWork header tenantRef).Calls
      ((authority D).allows (.admin header (some tenantRef) false)) := by
  refine calls_authorized fun actor => calls_readTenant fun record => ?_
  cases record with
  | none => trivial
  | some record => trivial

theorem patchTenantRoute_calls (body : Option PatchableTenantFields) :
    (patchTenantRoute D passThroughUnitOfWork header tenantRef body).Calls
      ((authority D).allows (.admin header (some tenantRef) false)) := by
  refine calls_authorized fun actor => ?_
  refine Program.calls_bind (Program.calls_ofExcept _ _) fun patch => ?_
  exact Program.calls_bind (patchBatch_calls patch) fun updated => trivial

theorem deleteTenantRoute_calls :
    (deleteTenantRoute D passThroughUnitOfWork header tenantRef).Calls
      ((authority D).allows (.admin header (some tenantRef) false)) := by
  refine calls_authorized fun actor => ?_
  exact Program.calls_bind deleteBatch_calls fun _ => trivial

theorem issueKeyRoute_calls (body : Option String) :
    (issueKeyRoute D passThroughUnitOfWork header tenantRef body).Calls
      ((authority D).allows (.admin header (some tenantRef) false)) := by
  refine calls_authorized fun actor => ?_
  refine Program.calls_bind (Program.calls_ofExcept _ _) fun label => calls_readTenant fun tenant => ?_
  cases tenant with
  | none => trivial
  | some tenant => exact Program.calls_bind (issueKeyBatch_calls label) fun issued => trivial

theorem revokeKeyRoute_calls (tokenId : String) :
    (revokeKeyRoute D passThroughUnitOfWork header tenantRef tokenId).Calls
      ((authority D).allows (.admin header (some tenantRef) false)) := by
  refine calls_authorized fun actor => ?_
  exact Program.calls_bind (revokeKeyBatch_calls tokenId) fun _ => trivial

theorem unlockRoute_calls (body : Option UnlockBody) :
    (unlockRoute D passThroughUnitOfWork header tenantRef body).Calls
      ((authority D).allows (.admin header (some tenantRef) false)) := by
  refine calls_authorized fun actor => ?_
  refine Program.calls_bind (Program.calls_ofExcept _ _) fun body => calls_readTenant fun record => ?_
  cases record with
  | none => trivial
  | some record =>
    simp only
    split
    · trivial
    · refine Program.calls_bind ?_ fun _ =>
        Program.calls_bind (unlockBatch_calls _) fun updated => trivial
      cases record.claimExpiresAt with
      | none => trivial
      | some claimExpiresAt =>
        refine Program.calls_bind (calls_passThrough .clock) fun now => ?_
        split
        · trivial
        · trivial

/-- What an onboarding calls is about the tenant of its arguments. -/
theorem adminCall_of_runCall {args : RunOnboardingArgs} {phase : RunPhase} {o : ServerOp}
    (h : RunCall args phase o) : AdminCall args.actor (some args.tenantRef) true o := by
  cases h with
  | read => exact .read
  | clock => exact .clock
  | claim lockExpires expectedFrom => exact .claim expectedFrom args.instanceId lockExpires
  | http o => exact .http o
  | crypto o => exact .crypto o
  | progress scenario passed => exact .progress scenario passed
  | put material => exact .put material
  | expiry d => exact .expiry d
  | promote => exact .promote
  | audit => exact .audit rfl
  | markFailed message => exact .fail message
  | auditFailure => exact .audit rfl

theorem adminCall_of_cached {o : ServerOp} (h : o.isIdempotency) :
    AdminCall actor (some tenantRef) true o := by
  cases o with
  | idempotency o => exact .idempotency o
  | _ => cases h

theorem calls_cached {α : Type} {p : Program Server Thrown α} (hp : p.Calls ServerOp.isIdempotency) :
    (p.embed passThroughUnitOfWork.pool).Calls (AdminCall actor (some tenantRef) true) :=
  (hp.mono fun _ ho => adminCall_of_cached ho).embed

theorem onboardWork_calls (req : OnboardRequest) (auditAction : AuditAction) (body : OnboardBody)
    (cacheKey : Option String) :
    (onboardWork D passThroughUnitOfWork req auditAction actor body cacheKey).Calls
      (AdminCall actor (some req.tenantRef) true) := by
  refine calls_readTenant fun tenant => ?_
  cases tenant with
  | none => trivial
  | some tenant =>
    simp only [runOnboardingWith_passThrough]
    refine Program.calls_bind (runOnboarding_calls.mono fun o ho => ?_) fun result =>
      Program.calls_bind (calls_cached (commitIdempotency_cached D cacheKey _)) fun _ => trivial
    obtain ⟨phase,hcall⟩ := ho
    exact adminCall_of_runCall hcall

theorem onboardInPlace_calls (req : OnboardRequest) (auditAction : AuditAction) (route : String) :
    (onboardInPlace D passThroughUnitOfWork req auditAction route).Calls
      ((authority D).allows (.admin req.authHeader (some req.tenantRef) true)) := by
  refine calls_authorized fun actor => ?_
  refine Program.calls_bind (Program.calls_ofExcept _ _) fun body => ?_
  refine Program.calls_bind (Program.calls_ofExcept _ _) fun idemKey => ?_
  refine Program.calls_bind (calls_cached (beginIdempotency_cached D _ _ _)) fun slot => ?_
  cases slot with
  | answered reply => trivial
  | proceed cacheKey =>
    exact Program.calls_tryCatch (onboardWork_calls req auditAction body cacheKey) fun err =>
      Program.calls_bind (calls_cached (releaseIdempotency_cached cacheKey)) fun _ => trivial

theorem onboardWith_calls (auditAction : AuditAction) (route : String) (req : OnboardRequest) :
    (onboardWith D passThroughUnitOfWork auditAction route req).Calls
      ((authority D).allows (.admin req.authHeader (some req.tenantRef) true)) := by
  refine Program.calls_bind (calls_passThrough (.inl rfl)) fun acquired => ?_
  cases acquired with
  | false => trivial
  | true =>
    refine Program.calls_bind (Program.calls_tryCatch (onboardInPlace_calls req auditAction route)
      fun err => ?_) fun reply => ?_
    · exact Program.calls_bind (calls_passThrough (.inl rfl)) fun _ => trivial
    · exact Program.calls_bind (calls_passThrough (.inl rfl)) fun _ => trivial

end admin

/-! ### The requests of the tenants -/

/-- Every message of a request to the gateway is the one that it was composed to. -/
theorem requestLoop_calls {P : HttpOp → Prop} {url : String} {init : RequestInit}
    (hfetch : P (.fetch url init)) (hrandom : P .random) (hsleep : ∀ ms, P (.sleep ms))
    (R : Runtime) (timeoutMs : Nat) (retries : RetryOptions) (left attempt : Nat) :
    (requestLoop R url init timeoutMs retries left attempt).Calls P := by
  have hbackoff (attempt : Nat) : (backoff attempt retries).Calls P :=
    Program.calls_bind (Program.calls_perform hrandom) fun _ => Program.calls_perform (hsleep _)
  have hattempt (attempt : Nat) (last : Bool) :
      (requestAttempt R url init timeoutMs retries attempt last).Calls P := by
    refine Program.calls_tryCatch (Program.calls_bind (Program.calls_perform hfetch)
      fun response => ?_) fun err => ?_
    · split
      · exact Program.calls_bind (Program.calls_ofExcept _ _) fun _ => trivial
      · split
        · exact Program.calls_bind (hbackoff _) fun _ => trivial
        · exact Program.calls_bind (Program.calls_ofExcept _ _) fun _ => trivial
    · unfold requestCatch
      split
      · trivial
      · split
        · exact Program.calls_bind (hbackoff _) fun _ => trivial
        · trivial
  induction left generalizing attempt with
  | zero =>
    refine Program.calls_bind (hattempt _ _) fun parsed => ?_
    cases parsed with
    | none => trivial
    | some parsed => trivial
  | succ left ih =>
    refine Program.calls_bind (hattempt _ _) fun parsed => ?_
    cases parsed with
    | none => exact ih _
    | some parsed => trivial

theorem buildUrl_base (R : Runtime) (base path : String) (query : Option (List (String × String))) :
    ∃ rest, buildUrl R base path query = base ++ rest := by
  unfold buildUrl
  split
  · exact ⟨path,rfl⟩
  · simp only
    split
    · exact ⟨path ++ ("?" ++ _),by rw [String.append_assoc,String.append_assoc]⟩
    · exact ⟨path,rfl⟩

section gateway
variable {R : Runtime} {environment : ZatcaEnvironment} {signing : SignerMaterial}

/-- The headers name the credentials, also once they are merged with those of the client. -/
def Authorized (R : Runtime) (signing : SignerMaterial) (headers : List (String × String)) : Prop :=
  (mergeHeaders [] headers).lookup "Authorization" = some (basicAuthorization R signing)

theorem authorized_of_buildAuthHeaders {headers : List (String × String)}
    (h : buildAuthHeaders R signing.productionBinarySecurityToken signing.productionApiSecret =
      .ok headers) : Authorized R signing headers := by
  unfold buildAuthHeaders at h
  split at h
  · cases h
  · split at h
    · cases h
    · cases h
      rfl

theorem authorized_of_buildClearanceHeaders {headers : List (String × String)}
    (h : buildClearanceHeaders R signing.productionBinarySecurityToken signing.productionApiSecret =
      .ok headers) : Authorized R signing headers := by
  unfold buildClearanceHeaders buildAuthHeaders at h
  split at h
  · cases h
  · split at h
    · cases h
    · cases h
      rfl

theorem callGateway_sentUnder {headers : Except Thrown (List (String × String))}
    (args : ZatcaEnvironmentEndpoints → RequestArgs)
    (h : ∀ hs, headers = .ok hs → Authorized R signing hs) :
    (callGateway R environment {} headers args).Calls (HttpOp.SentUnder R environment signing) := by
  unfold callGateway
  simp only [Program.bind_eq,Program.ofExcept_bind]
  split
  · rename_i hs
    exact requestLoop_calls ⟨buildUrl_base R _ _ _,h hs rfl⟩ trivial (fun _ => trivial) ..
  · trivial

end gateway

theorem issuePhase2_scope (B : Builders) (kind : InvoiceKind) {args : IssueArgs} {scope : TenantScope}
    (h : args.scope = scope) : (issuePhase2 B kind args).Calls fun o => StorageOp.scope o = scope := by
  refine Program.calls_bind (Program.calls_ofExcept _ _) fun _ => ?_
  refine Program.calls_bind (Program.calls_perform h) fun counter => ?_
  refine Program.calls_bind (Program.calls_perform h) fun previousInvoiceHash => ?_
  refine Program.calls_bind (Program.calls_ofExcept _ _) fun built => ?_
  exact Program.calls_bind (Program.calls_perform h) fun _ => trivial

theorem issuePhase1_scope (B : Builders) (kind : InvoiceKind) {args : IssuePhase1Args}
    {scope : TenantScope} (h : args.scope = scope) :
    (issuePhase1 B kind args).Calls fun o => StorageOp.scope o = scope := by
  refine Program.calls_bind (Program.calls_ofExcept _ _) fun _ => ?_
  refine Program.calls_bind (Program.calls_perform h) fun counter => ?_
  refine Program.calls_bind (Program.calls_ofExcept _ _) fun built => ?_
  exact Program.calls_bind (Program.calls_perform h) fun _ => trivial

theorem issueInvoice_scope (B : Builders) (args : IssueInvoiceArgs) :
    (issueInvoice B args).Calls fun o => StorageOp.scope o = args.scope := by
  unfold issueInvoice
  cases args.input.kind with
  | phase1Invoice =>
    exact Program.calls_bind (issuePhase1_scope B .phase1Invoice rfl) fun _ => trivial
  | phase1CreditNote =>
    exact Program.calls_bind (issuePhase1_scope B .phase1CreditNote rfl) fun _ => trivial
  | _ =>
    simp only
    cases args.signing with
    | none => trivial
    | some signing =>
      refine Program.calls_bind trivial fun signing => ?_
      exact Program.calls_bind (issuePhase2_scope B _ rfl) fun _ => trivial

section tenant
variable {D : Deps} {tenantRef : String}

/-- The request is authenticated, and its caller known. -/
def AuthDone (tenantRef : String) : Except Thrown AuthenticatedTenant → CallerPhase → Prop
  | .ok auth, phase => ∃ tokenId, auth.actor = .tenant tenantRef tokenId ∧
      phase = .tenant tenantRef (.ready tokenId auth.tenant auth.signing)
  | .error _, _ => True

def VerifyDone (tenantRef : String) : Except Thrown ResolvedApiKey → CallerPhase → Prop
  | .ok key, phase => key.tenantRef = tenantRef ∧ phase = .tenant tenantRef (.resolved key.tokenId)
  | .error _, _ => True

theorem verifyTenant_conforms (header : Option String) :
    (authority D).Conforms (VerifyDone tenantRef) (verifyTenant header tenantRef)
      (.tenant tenantRef .anonymous) := by
  unfold verifyTenant
  split
  · trivial
  · trivial
  · split
    · trivial
    · rename_i bearer _
      refine Typestate.conforms_perform_bind.2 ⟨.resolve bearer,fun a => ?_⟩
      cases a with
      | error e => trivial
      | ok key =>
        cases key with
        | none => trivial
        | some key =>
          by_cases href : key.tenantRef = tenantRef
          · simp only [Program.ofExcept,Program.ret_bind,href,not_true_eq_false,if_false,ne_eq,
              Program.pure_eq]
            refine ⟨href,?_⟩
            simp [authority,TenantPhase.next,href]
          · simp only [Program.ofExcept,Program.ret_bind,href,not_false_eq_true,if_true,ne_eq]
            trivial

theorem authTenant_conforms (header : Option String) :
    (authority D).Conforms (AuthDone tenantRef) (authTenant header tenantRef)
      (.tenant tenantRef .anonymous) := by
  refine (Program.wp_bind _ _ _ _).2 (Program.wp_mono _ ?_ (verifyTenant_conforms header))
  intro r phase hdone
  cases r with
  | error e => trivial
  | ok key =>
    obtain ⟨href,rfl⟩ := hdone
    refine Typestate.conforms_perform_bind.2 ⟨.tenant,fun a => ?_⟩
    cases a with
    | error e => trivial
    | ok tenant =>
      cases tenant with
      | none => trivial
      | some tenant =>
        by_cases hready : tenant.state = .productionReady
        · simp only [Program.ofExcept,Program.ret_bind,hready,not_true_eq_false,if_false,ne_eq]
          have hnext : (authority D).next (.tenant tenantRef (.resolved key.tokenId))
              (.tenants (.get tenantRef)) (.ok (some tenant)) =
                .tenant tenantRef (.found key.tokenId tenant) := by
            simp [authority,TenantPhase.next,hready]
          rw [hnext]
          refine Typestate.conforms_perform_bind.2 ⟨.vault,fun a => ?_⟩
          cases a with
          | error e => trivial
          | ok signing =>
            cases signing with
            | none => trivial
            | some signing => exact ⟨key.tokenId,by rw [href],rfl⟩
        · simp only [Program.ofExcept,Program.ret_bind,hready,not_false_eq_true,if_true,ne_eq]
          trivial

/-- What a tenant's request may call once it is authenticated. -/
def AuthorizedCall (D : Deps) (tenantRef : String) (auth : AuthenticatedTenant) (o : ServerOp) : Prop :=
  ∀ tokenId, auth.actor = .tenant tenantRef tokenId →
    TenantCall D.runtime tenantRef (.ready tokenId auth.tenant auth.signing) o

theorem ready_next {tokenId : String} {tenant : TenantRecord} {signing : SignerMaterial}
    (o : ServerOp) (a : Except Thrown (ServerOp.Ret o)) :
    (TenantPhase.ready tokenId tenant signing).next tenantRef o a = .ready tokenId tenant signing := by
  simp [TenantPhase.next]

theorem conforms_authenticated {header : Option String}
    {f : AuthenticatedTenant → Program Server Thrown Reply}
    (hf : ∀ auth, (f auth).Calls (AuthorizedCall D tenantRef auth)) :
    (authority D).Conforms (fun _ _ => True) ((authTenant header tenantRef).bind f)
      (.tenant tenantRef .anonymous) := by
  refine (Program.wp_bind _ _ _ _).2 (Program.wp_mono _ ?_ (authTenant_conforms header))
  intro r phase hdone
  cases r with
  | error e => trivial
  | ok auth =>
    obtain ⟨tokenId,hactor,rfl⟩ := hdone
    refine Program.wp_mono _ (fun _ _ _ => trivial) (Typestate.wp_of_calls ((hf auth).mono ?_))
    intro o ho
    exact ⟨ho tokenId hactor,fun a => congrArg (CallerPhase.tenant tenantRef) (ready_next o a)⟩

variable {auth : AuthenticatedTenant}

theorem authorized_storage {o : StorageOp} (h : o.scope = toTenantScope auth.tenant) :
    AuthorizedCall D tenantRef auth (.storage o) := fun _ _ => .storage h

theorem authorized_cached {o : ServerOp} (h : o.isIdempotency) : AuthorizedCall D tenantRef auth o := by
  intro tokenId _
  cases o with
  | idempotency o => exact .idempotency o
  | _ => cases h

theorem authorized_http {α : Type} {p : Program HttpClient Thrown α}
    (hp : p.Calls (HttpOp.SentUnder D.runtime auth.tenant.environment auth.signing)) :
    (p.embed Server.http).Calls (AuthorizedCall D tenantRef auth) :=
  (hp.mono fun _ ho _ _ => .http ho).embed

theorem loadOwnInvoice_authorized (invoiceId : String) :
    (loadOwnInvoice (toTenantScope auth.tenant) invoiceId).Calls (AuthorizedCall D tenantRef auth) := by
  refine Program.calls_bind (Program.calls_perform (authorized_storage rfl)) fun record => ?_
  cases record with
  | none => trivial
  | some record => trivial

theorem authorized_audit {input : AuditEntryInput} (hactor : input.actor = auth.actor)
    (href : input.tenantRef = some auth.tenant.tenantRef) :
    AuthorizedCall D tenantRef auth (.audit input) :=
  fun _ h => .audit (hactor.trans h) href

theorem decideStatus_sentUnder (invoice : IssuedInvoice) :
    (decideStatus D.runtime D.invoiceTypeCode (submissionParams auth invoice)).Calls
      (HttpOp.SentUnder D.runtime auth.tenant.environment auth.signing) := by
  refine Program.calls_tryCatch (Program.calls_bind ?_ fun result => trivial) fun err => ?_
  · refine Program.calls_bind (Program.calls_ofExcept _ _) fun _ => ?_
    refine Program.calls_bind (Program.calls_ofExcept _ _) fun simplified => ?_
    refine Program.calls_bind (callGateway_sentUnder _ ?_) fun response => trivial
    exact fun hs h => authorized_of_buildClearanceHeaders h
  · cases err with
    | zatcaApiError e => trivial
    | _ => trivial

theorem submitIssued_authorized (issued : Issued) (submit : Bool) :
    (submitIssued D auth issued submit).Calls (AuthorizedCall D tenantRef auth) := by
  cases issued with
  | phase1 invoice =>
    cases submit with
    | false => trivial
    | true => trivial
  | phase2 invoice =>
    cases submit with
    | false => trivial
    | true =>
      refine Program.calls_bind (authorized_http (decideStatus_sentUnder invoice)) fun outcome => ?_
      exact Program.calls_bind (Program.calls_perform (authorized_storage rfl)) fun _ => trivial

theorem issueWork_authorized (host : HostValues) (input : RawInput) (submit : Bool)
    (cacheKey : Option String) :
    (issueWork D auth host input submit cacheKey).Calls (AuthorizedCall D tenantRef auth) := by
  refine Program.calls_bind (Program.calls_ofExcept _ _) fun _ => ?_
  refine Program.calls_bind ?_ fun issued => ?_
  · cases input with
    | invoice input =>
      exact ((issueInvoice_scope D.builders _).mono fun o ho => authorized_storage ho).embed
    | unhandled value => trivial
    | nullish => trivial
  · refine Program.calls_bind (submitIssued_authorized issued submit) fun outcome => ?_
    refine Program.calls_bind (Program.calls_perform (authorized_audit rfl rfl)) fun _ => ?_
    refine Program.calls_bind ?_ fun _ => trivial
    exact (commitIdempotency_cached D cacheKey _).mono fun o ho => authorized_cached ho

theorem issueRoute_authority (req : IssueRequest) :
    (authority D).Conforms (fun _ _ => True) (issueRoute D req)
      (.tenant req.tenantRef .anonymous) := by
  refine conforms_authenticated fun auth => ?_
  refine Program.calls_bind (Program.calls_ofExcept _ _) fun body => ?_
  refine Program.calls_bind (Program.calls_ofExcept _ _) fun idemKey => ?_
  refine Program.calls_bind ((beginIdempotency_cached D _ _ _).mono fun o ho =>
    authorized_cached ho) fun slot => ?_
  cases slot with
  | answered reply => trivial
  | proceed cacheKey =>
    refine Program.calls_tryCatch (issueWork_authorized _ _ _ _) fun err => ?_
    exact Program.calls_bind ((releaseIdempotency_cached cacheKey).mono fun o ho =>
      authorized_cached ho) fun _ => trivial

theorem getRoute_authority (req : InvoiceRequest) :
    (authority D).Conforms (fun _ _ => True) (getRoute req) (.tenant req.tenantRef .anonymous) :=
  conforms_authenticated fun _ =>
    Program.calls_bind (loadOwnInvoice_authorized req.invoiceId) fun _ => trivial

theorem cancelRoute_authority (req : InvoiceRequest) (body : Option CancelBody) :
    (authority D).Conforms (fun _ _ => True) (cancelRoute D req body)
      (.tenant req.tenantRef .anonymous) := by
  refine conforms_authenticated fun auth => ?_
  refine Program.calls_bind (Program.calls_ofExcept _ _) fun body => ?_
  refine Program.calls_bind (loadOwnInvoice_authorized req.invoiceId) fun record => ?_
  split
  · trivial
  · refine Program.calls_bind (Program.calls_tryCatch ?_ fun err => ?_) fun result => ?_
    · refine Program.calls_bind (authorized_http ?_) fun response => ?_
      · refine Program.calls_bind (Program.calls_ofExcept _ _) fun _ => callGateway_sentUnder _ ?_
        exact fun hs h => authorized_of_buildAuthHeaders h
      · exact Program.calls_bind (Program.calls_perform (authorized_storage rfl)) fun _ => trivial
    · exact Program.calls_bind (Program.calls_perform (authorized_audit rfl rfl)) fun _ => trivial
    · exact Program.calls_bind (Program.calls_perform (authorized_audit rfl rfl)) fun _ => trivial

theorem statusRoute_authority (req : InvoiceRequest) (query : Option StatusQuery) :
    (authority D).Conforms (fun _ _ => True) (statusRoute D req query)
      (.tenant req.tenantRef .anonymous) := by
  refine conforms_authenticated fun auth => ?_
  refine Program.calls_bind (loadOwnInvoice_authorized req.invoiceId) fun record => ?_
  refine Program.calls_bind (Program.calls_ofExcept _ _) fun query => ?_
  split
  · trivial
  · refine Program.calls_bind (authorized_http ?_) fun response => trivial
    refine Program.calls_bind (Program.calls_ofExcept _ _) fun _ => callGateway_sentUnder _ ?_
    exact fun hs h => authorized_of_buildAuthHeaders h

theorem checkComplianceRoute_authority (req : InvoiceRequest) :
    (authority D).Conforms (fun _ _ => True) (checkComplianceRoute D req)
      (.tenant req.tenantRef .anonymous) := by
  refine conforms_authenticated fun auth => ?_
  refine Program.calls_bind (loadOwnInvoice_authorized req.invoiceId) fun record => ?_
  refine Program.calls_bind (authorized_http ?_) fun response => trivial
  refine Program.calls_bind (Program.calls_ofExcept _ _) fun _ => callGateway_sentUnder _ ?_
  exact fun hs h => authorized_of_buildAuthHeaders h

end tenant

theorem conforms_admin {D : Deps} {header about : Option String} {onboards : Bool}
    {p : Program Server Thrown Reply}
    (hp : p.Calls ((authority D).allows (.admin header about onboards))) :
    (authority D).Conforms (fun _ _ => True) p (.admin header about onboards) :=
  Program.wp_mono _ (fun _ _ _ => trivial)
    (Typestate.wp_of_calls (hp.mono fun _ ho => ⟨ho,fun _ => rfl⟩))

/-- Every request stays within the authority of its caller, whatever it is answered. -/
theorem serverRequest_conforms (D : Deps) (r : ServerRequest) :
    (authority D).Conforms (fun _ _ => True) (r.program D) r.caller.phase := by
  cases r with
  | createTenant header body => exact conforms_admin (createTenantRoute_calls body)
  | getTenant header tenantRef => exact conforms_admin getTenantRoute_calls
  | patchTenant header tenantRef body => exact conforms_admin (patchTenantRoute_calls body)
  | deleteTenant header tenantRef => exact conforms_admin deleteTenantRoute_calls
  | issueKey header tenantRef body => exact conforms_admin (issueKeyRoute_calls body)
  | revokeKey header tenantRef tokenId => exact conforms_admin (revokeKeyRoute_calls tokenId)
  | onboard req => exact conforms_admin (onboardWith_calls _ _ req)
  | rotate req => exact conforms_admin (onboardWith_calls _ _ req)
  | tenantStatus header tenantRef => exact conforms_admin tenantStatusRoute_calls
  | unlock header tenantRef body => exact conforms_admin (unlockRoute_calls body)
  | issueInvoice req => exact issueRoute_authority req
  | getInvoice req => exact getRoute_authority req
  | cancelInvoice req body => exact cancelRoute_authority req body
  | invoiceStatus req query => exact statusRoute_authority req query
  | checkCompliance req => exact checkComplianceRoute_authority req

end Zatca
