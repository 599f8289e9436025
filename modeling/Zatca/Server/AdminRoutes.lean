import Zatca.Core.Dispatch
import Zatca.Library.Transaction
import Zatca.Server.InvoiceRoutes
import Zatca.Server.RunOnboarding
set_option autoImplicit false

/-! The routes of the administrators. Each makes its mutation and writes its audit row in one unit
of work, which a backend without transactions passes through. -/

namespace Zatca
open Interaction

/-- How the routes reach their stores: call by call, or a batch as one unit of work. -/
structure UnitOfWork (T : Signature) where
  pool : Signature.Hom Server T
  run : {α : Type} → Program Server Thrown α → Program T Thrown α

def passThroughUnitOfWork : UnitOfWork Server := ⟨.refl Server,fun batch => batch⟩

def postgresUnitOfWork : UnitOfWork (Transactional Server) := ⟨onPool,withTransaction⟩

def UnitOfWork.perform {T : Signature} (U : UnitOfWork T) (o : ServerOp) :
    Program T Thrown o.Ret :=
  (Program.perform (S := Server) o).embed U.pool

def ZatcaEnvironment.literal : ZatcaEnvironment → String
  | .sandbox => "sandbox"
  | .simulation => "simulation"
  | .production => "production"

def Date.toJson (d : Date) : Json := .str d.toISOString

def ScenarioStatus.literal : ScenarioStatus → String
  | .pending => "pending"
  | .passed => "passed"
  | .failed => "failed"

def OnboardingProgress.toJson (p : OnboardingProgress) : Json :=
  .obj (("scenarios",.obj (p.scenarios.map (fun (name,status) => (name,.str status.literal)))) ::
    optionalField "lastError" (p.lastError.map .str))

def TenantRecord.toJson (r : TenantRecord) : Json :=
  .obj ([("tenantRef",.str r.tenantRef),("vatNumber",.str r.vatNumber.1),
      ("egsUuid",.str r.egsUuid.1),("vatName",.str r.vatName),("crn",.str r.crn.1),
      ("branchName",.str r.branchName)] ++
    optionalField "branchIndustry" (r.branchIndustry.map .str) ++
    [("location",r.location.toJson),("environment",.str r.environment.literal),
      ("state",.str r.state.literal),("onboardingProgress",r.onboardingProgress.toJson)] ++
    optionalField "productionCertificateExpiresAt"
      (r.productionCertificateExpiresAt.map Date.toJson) ++
    optionalField "callbackUrl" (r.callbackUrl.map .str) ++
    optionalField "claimedBy" (r.claimedBy.map .str) ++
    optionalField "claimExpiresAt" (r.claimExpiresAt.map Date.toJson) ++
    optionalField "label" (r.label.map .str) ++
    [("createdAt",r.createdAt.toJson),("updatedAt",r.updatedAt.toJson)] ++
    optionalField "deletedAt" (r.deletedAt.map Date.toJson))

/-- The row of a mutation that succeeded; the batches write no other. -/
def successRow (actor : AuditActor) (action : AuditAction) (tenantRef targetId : String) :
    AuditEntryInput :=
  { actor, tenantRef := some tenantRef, action, targetId := some targetId, result := .ok }

/-! ### Tenants -/

structure CreateTenantBody where
  tenantRef : Option {s : String // isTenantRef s} := none
  vatNumber : String
  egsUuid : String
  vatName : String
  crn : String
  branchName : String
  branchIndustry : Option String := none
  location : EGSUnitLocation
  environment : ZatcaEnvironment
  label : Option String := none
  callbackUrl : Option String := none

def CreateTenantBody.input (body : CreateTenantBody) : Except Thrown CreateTenantInput := do
  let vatNumber ← asVATNumber body.vatNumber
  let egsUuid ← asEGSUuid body.egsUuid
  let crn ← asCommercialRegistrationNumber body.crn
  return {
    tenantRef := body.tenantRef.map (fun r => r.1)
    vatNumber, egsUuid, vatName := body.vatName, crn, branchName := body.branchName
    branchIndustry := body.branchIndustry, location := body.location
    environment := body.environment, label := body.label, callbackUrl := body.callbackUrl }

def createBatch (actor : AuditActor) (input : CreateTenantInput) :
    Program Server Thrown TenantRecord := do
  let created ← Program.perform (S := Server) (.tenants (.create input))
  Program.perform (S := Server)
    (.audit (successRow actor .tenantCreated created.tenantRef created.tenantRef))
  return created

def patchBatch (actor : AuditActor) (tenantRef : String) (patch : PatchableTenantFields) :
    Program Server Thrown TenantRecord := do
  let updated ← Program.perform (S := Server) (.tenants (.patch tenantRef patch))
  Program.perform (S := Server)
    (.audit (successRow actor .tenantPatched updated.tenantRef updated.tenantRef))
  return updated

def deleteBatch (actor : AuditActor) (tenantRef : String) : Program Server Thrown Unit := do
  Program.perform (S := Server) (.tenants (.softDelete tenantRef))
  Program.perform (S := Server) (.apiKeys (.revokeAllForTenant tenantRef))
  Program.perform (S := Server) (.audit (successRow actor .tenantSoftDeleted tenantRef tenantRef))

/-! ### Keys -/

def issueKeyBatch (actor : AuditActor) (tenantRef label : String) :
    Program Server Thrown IssuedApiKey := do
  let issued ← Program.perform (S := Server) (.apiKeys (.issue tenantRef label))
  Program.perform (S := Server) (.audit (successRow actor .apiKeyIssued tenantRef issued.tokenId))
  return issued

def unknownApiKey (tenantRef tokenId : String) : Thrown :=
  .zatcaRegistryError ("Unknown api key '" ++ tokenId ++ "' for tenant '" ++ tenantRef ++ "'.")
    .notFound

def revokeKeyBatch (actor : AuditActor) (tenantRef tokenId : String) :
    Program Server Thrown Unit := do
  let revoked ← Program.perform (S := Server) (.apiKeys (.revoke tenantRef tokenId))
  if !revoked then Program.throw (unknownApiKey tenantRef tokenId)
  else Program.perform (S := Server) (.audit (successRow actor .apiKeyRevoked tenantRef tokenId))

/-! ### Unlocking -/

def unlockMessage (force : Bool) : String :=
  if force then "Onboarding claim force-released by admin."
  else "Onboarding claim manually released by admin."

def unlockBatch (actor : AuditActor) (tenantRef : String) (force : Bool) :
    Program Server Thrown TenantRecord := do
  let updated ← Program.perform (S := Server)
    (.tenants (.setState tenantRef .failed { lastError := some (unlockMessage force) }))
  Program.perform (S := Server) (.audit (successRow actor .tenantUnlocked tenantRef tenantRef))
  return updated

structure UnlockBody where
  force : Option Bool := none

def notStale (tenantRef : String) : Thrown :=
  .zatcaValidationError ("Tenant '" ++ tenantRef ++
    "' is not in a stale-onboarding state — refusing to unlock.")

def activeClaim (tenantRef : String) (claimExpiresAt : Date) : Thrown :=
  .zatcaValidationError ("Tenant '" ++ tenantRef ++ "' has an active onboarding claim that expires "
    ++ claimExpiresAt.toISOString ++ " — pass \x7b\"force\":true\x7d to release early.")

/-! ### Onboarding -/

structure OnboardBody where
  otp : String
  solutionName : String
  environment : Option ZatcaEnvironment := none

/-- The schema fills in an environment that the body leaves out. -/
def OnboardBody.resolved (body : OnboardBody) : ZatcaEnvironment :=
  body.environment.getD .simulation

structure OnboardRequest where
  authHeader : Option String
  tenantRef : String
  body : Option OnboardBody
  idempotencyKey : Option HeaderValue := none
  host : InvoiceKind → HostValues

section routes
variable (D : Deps)

def adminFor (authHeader : Option String) : Except Thrown AuditActor :=
  (D.adminVerifier authHeader).map AuditActor.admin

def onboardingThrottled : Reply where
  statusCode := 503
  headers := [("retry-after","30")]
  body := errorBody "OnboardingThrottled" ("Server is at its onboarding concurrency cap (" ++
    toString D.onboardingMaxConcurrent ++ " in flight). Retry after a short delay.")

def runArgs (req : OnboardRequest) (auditAction : AuditAction) (actor : AuditActor)
    (body : OnboardBody) : RunOnboardingArgs where
  tenantRef := req.tenantRef
  otp := body.otp
  solutionName := body.solutionName
  environment := body.resolved
  instanceId := D.instanceId
  actor
  lockTtlMs := some D.onboardingTimeoutMs
  auditAction
  host := req.host

def onboardedBody (withStatus : Bool) (result : RunOnboardingResult) : Json :=
  .obj ([("tenantRef",.str result.tenantRef),("state",.str result.state.literal)] ++
    (if withStatus then
      [("complianceTestStatus",
        .str (if result.complianceTestStatus then "passed" else "failed"))] else []) ++
    [("productionCertificateExpiresAt",result.productionCertificateExpiresAt.toJson)] ++
    (if withStatus then [("productionRequestId",.str result.productionRequestId)] else []))

variable {T : Signature} (U : UnitOfWork T)

/-- `POST /v1/tenants` -/
def createTenantRoute (authHeader : Option String) (body : Option CreateTenantBody) :
    Program T Thrown Reply := do
  let actor ← Program.ofExcept (adminFor D authHeader)
  let body ← Program.ofExcept (parseBody body)
  let input ← Program.ofExcept body.input
  let created ← U.run (createBatch actor input)
  return { statusCode := 201, body := created.toJson }

/-- `PATCH /v1/tenants/:ref` -/
def patchTenantRoute (authHeader : Option String) (tenantRef : String)
    (body : Option PatchableTenantFields) : Program T Thrown Reply := do
  let actor ← Program.ofExcept (adminFor D authHeader)
  let patch ← Program.ofExcept (parseBody body)
  let updated ← U.run (patchBatch actor tenantRef patch)
  return { statusCode := 200, body := updated.toJson }

/-- `DELETE /v1/tenants/:ref` -/
def deleteTenantRoute (authHeader : Option String) (tenantRef : String) :
    Program T Thrown Reply := do
  let actor ← Program.ofExcept (adminFor D authHeader)
  U.run (deleteBatch actor tenantRef)
  return { statusCode := 204, body := .null }

/-- `POST /v1/tenants/:ref/api-keys`; the body is its label. -/
def issueKeyRoute (authHeader : Option String) (tenantRef : String) (body : Option String) :
    Program T Thrown Reply := do
  let actor ← Program.ofExcept (adminFor D authHeader)
  let label ← Program.ofExcept (parseBody body)
  let tenant ← U.perform (.tenants (.get tenantRef))
  match tenant with
  | none => Program.throw (unknownTenant tenantRef)
  | some _ => do
      let issued ← U.run (issueKeyBatch actor tenantRef label)
      return { statusCode := 201
               body := .obj [("token",.str issued.token),("tokenId",.str issued.tokenId),
                 ("warning",.str "This token is shown only once. Store it securely.")] }

/-- `DELETE /v1/tenants/:ref/api-keys/:tokenId` -/
def revokeKeyRoute (authHeader : Option String) (tenantRef tokenId : String) :
    Program T Thrown Reply := do
  let actor ← Program.ofExcept (adminFor D authHeader)
  U.run (revokeKeyBatch actor tenantRef tokenId)
  return { statusCode := 204, body := .null }

/-- A claim without an end can be released, one that has ended too, and any by force. -/
def checkClaim (tenantRef : String) (force : Bool) :
    Option Date → Program T Thrown Unit
  | none => .ret ()
  | some claimExpiresAt => do
      let now ← U.perform .clock
      if now.getTime < claimExpiresAt.getTime && !force then
        Program.throw (activeClaim tenantRef claimExpiresAt)
      else return ()

/-- `POST /v1/tenants/:ref/unlock` -/
def unlockRoute (authHeader : Option String) (tenantRef : String) (body : Option UnlockBody) :
    Program T Thrown Reply := do
  let actor ← Program.ofExcept (adminFor D authHeader)
  let body ← Program.ofExcept (parseBody body)
  let force := body.force.getD false
  let record ← U.perform (.tenants (.get tenantRef))
  match record with
  | none => Program.throw (unknownTenant tenantRef)
  | some record =>
      if record.state ≠ .onboarding then Program.throw (notStale tenantRef)
      else do
        checkClaim U tenantRef force record.claimExpiresAt
        let updated ← U.run (unlockBatch actor tenantRef force)
        return { statusCode := 200
                 body := .obj [("tenantRef",.str updated.tenantRef),
                   ("state",.str updated.state.literal)] }

/-- `runOnboarding` with its final batch as a unit of work. -/
def runOnboardingWith (args : RunOnboardingArgs) : Program T Thrown RunOnboardingResult := do
  let existing ← (claimTenant args).embed U.pool
  Program.tryCatch
    (do
      let (result,productionExpiry) ← (handshake D args existing).embed U.pool
      let finalRecord ← U.run (persist args result productionExpiry)
      return {
        tenantRef := args.tenantRef
        state := finalRecord.state
        complianceTestStatus := result.complianceTestReport.passed
        productionCertificateExpiresAt := productionExpiry
        productionRequestId := result.productionRequestId })
    (fun err => (onFailure D args err).embed U.pool)

/-- What a request to onboard does under its slot in the cache. -/
def onboardWork (req : OnboardRequest) (auditAction : AuditAction) (actor : AuditActor)
    (body : OnboardBody) (cacheKey : Option String) : Program T Thrown Reply := do
  let tenant ← U.perform (.tenants (.get req.tenantRef))
  match tenant with
  | none => Program.throw (unknownTenant req.tenantRef)
  | some _ => do
      let result ← runOnboardingWith D U (runArgs D req auditAction actor body)
      let responseBody := onboardedBody (auditAction = .tenantOnboarded) result
      (commitIdempotency D cacheKey
        { statusCode := 200, headers := [jsonContentType]
          body := D.runtime.stringify responseBody }).embed U.pool
      return { statusCode := 200, body := responseBody }

def onboardUnderSlot (req : OnboardRequest) (auditAction : AuditAction) (actor : AuditActor)
    (body : OnboardBody) : IdempotencySlot → Program T Thrown Reply
  | .answered reply => .ret reply
  | .proceed cacheKey => Program.tryCatch (onboardWork D U req auditAction actor body cacheKey)
      (fun err => do
        (releaseIdempotency cacheKey).embed U.pool
        Program.throw err)

/-- What a request to onboard does while it holds one of the places of the process. -/
def onboardInPlace (req : OnboardRequest) (auditAction : AuditAction) (route : String) :
    Program T Thrown Reply := do
  let actor ← Program.ofExcept (adminFor D req.authHeader)
  let body ← Program.ofExcept (parseBody req.body)
  let idemKey ← Program.ofExcept (readIdempotencyKey req.idempotencyKey)
  let slot ← (beginIdempotency D idemKey req.tenantRef route).embed U.pool
  onboardUnderSlot D U req auditAction actor body slot

/-- The place is given back however the request ends. -/
def onboardWith (auditAction : AuditAction) (route : String) (req : OnboardRequest) :
    Program T Thrown Reply := do
  let acquired ← U.perform .acquireSlot
  if !acquired then return onboardingThrottled D
  else do
    let reply ← Program.tryCatch (onboardInPlace D U req auditAction route) (fun err => do
      U.perform .releaseSlot
      Program.throw err)
    U.perform .releaseSlot
    return reply

/-- `POST /v1/tenants/:ref/onboard` -/
def onboardRoute : OnboardRequest → Program T Thrown Reply :=
  onboardWith D U .tenantOnboarded "/v1/tenants/:ref/onboard"

/-- `POST /v1/tenants/:ref/credentials/rotate` -/
def rotateRoute : OnboardRequest → Program T Thrown Reply :=
  onboardWith D U .tenantCredentialsRotated "/v1/tenants/:ref/credentials/rotate"

end routes

/-- On stores without transactions the run is the one that passes its batch through. -/
theorem runOnboardingWith_passThrough (D : Deps) (args : RunOnboardingArgs) :
    runOnboardingWith D passThroughUnitOfWork args = runOnboarding D args := by
  simp only [runOnboardingWith,passThroughUnitOfWork,Program.embed_refl]
  rfl

end Zatca
