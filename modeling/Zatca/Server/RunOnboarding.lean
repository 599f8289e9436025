import Zatca.Server.RouteHelpers
set_option autoImplicit false
namespace Zatca
open Interaction

def DEFAULT_LOCK_TTL_MS : Nat := 180000

def DEFAULT_EGS_MODEL : String := "ZATCA Standalone Server"

structure RunOnboardingArgs where
  tenantRef : String
  otp : String
  solutionName : String
  environment : ZatcaEnvironment
  instanceId : String
  actor : AuditActor
  egsCustomId : Option String := none
  egsModel : Option String := none
  lockTtlMs : Option Nat := none
  /-- In the place of the core's `onboard`. -/
  onboardFn : Option (OnboardArgs → Program OnboardHost Thrown OnboardingResult) := none
  auditAction : AuditAction := .tenantOnboarded
  /-- What the scenarios draw from the process. -/
  host : InvoiceKind → HostValues

structure RunOnboardingResult where
  tenantRef : String
  state : TenantState
  complianceTestStatus : Bool
  productionCertificateExpiresAt : Date
  productionRequestId : String
  deriving DecidableEq

def buildEgsInfo (record : TenantRecord) (egsCustomId egsModel : Option String) : EGSUnitInfo where
  uuid := record.egsUuid.1
  customId := egsCustomId.getD (record.tenantRef ++ "-pos-01")
  model := egsModel.getD DEFAULT_EGS_MODEL
  crnNumber := record.crn.1
  vatName := record.vatName
  vatNumber := record.vatNumber.1
  branchName := record.branchName
  branchIndustry := record.branchIndustry.getD "Retail"
  location := record.location

def alreadyOnboarding (tenantRef : String) (claimedBy : Option String) (claimExpiresAt : Date) :
    Thrown :=
  .zatcaServerError ("Tenant '" ++ tenantRef ++ "' is already onboarding (claimed by '" ++
    claimedBy.getD "unknown" ++ "', lock expires " ++ claimExpiresAt.toISOString ++ ").") (some 409)

def cannotBeOnboarded (tenantRef : String) (fresh : Option TenantRecord) : Thrown :=
  .zatcaServerError ("Tenant '" ++ tenantRef ++ "' cannot be onboarded from state '" ++
    ((fresh.map (fun r => r.state.literal)).getD "unknown") ++ "'.") (some 409)

def complianceTestsFailed (tenantRef : String) : Thrown :=
  .zatcaServerError ("Compliance tests failed for tenant '" ++ tenantRef ++ "'.") (some 422)

def expiryNotParsed (tenantRef : String) : Thrown :=
  .zatcaServerError ("Onboarding succeeded but production certificate expiry could not be parsed " ++
    "for '" ++ tenantRef ++ "'.") none

/-- The states a claim may start from, in the order in which they are tried. -/
def claimableStates : List TenantState := [.created,.failed,.productionReady,.onboarding]

section run
variable (D : Deps) (args : RunOnboardingArgs)

def claimOptions (lockExpires : Date) (expectedFrom : TenantState) : SetStateOptions :=
  { expectedFrom := some expectedFrom, claimedBy := some args.instanceId
    claimExpiresAt := some lockExpires }

/-- An error of the registry sends the loop to the next state. -/
def acquire (lockExpires : Date) : List TenantState → Program Server Thrown Bool
  | [] => .ret false
  | expectedFrom :: rest => Program.tryCatch
      (do
        let _ ← Program.perform (S := Server) (.tenants (.setState args.tenantRef .onboarding
          (claimOptions args lockExpires expectedFrom)))
        return true)
      (fun err => match err with
        | .zatcaRegistryError _ _ => acquire lockExpires rest
        | _ => .throw err)

/-- Refuses a claim that is visibly held; the transitions themselves are what decides. -/
def preflight (existing : TenantRecord) : Program Server Thrown Unit :=
  match existing.state, existing.claimExpiresAt with
  | .onboarding, some claimExpiresAt => do
      let now ← Program.perform (S := Server) .clock
      if now.getTime < claimExpiresAt.getTime then
        Program.throw (alreadyOnboarding args.tenantRef existing.claimedBy claimExpiresAt)
      else return ()
  | _, _ => .ret ()

/-- Claims the tenant for `lockTtlMs`, and returns its record as it was before. -/
def claimTenant : Program Server Thrown TenantRecord := do
  let existing ← Program.perform (S := Server) (.tenants (.get args.tenantRef))
  match existing with
  | none => Program.throw (unknownTenant args.tenantRef)
  | some existing => do
      preflight args existing
      let now ← Program.perform (S := Server) .clock
      let acquired ← acquire args (now.addMs (args.lockTtlMs.getD DEFAULT_LOCK_TTL_MS))
        claimableStates
      if acquired then return existing
      else
        let fresh ← Program.perform (S := Server) (.tenants (.get args.tenantRef))
        Program.throw (cannotBeOnboarded args.tenantRef fresh)

/-- The exchange with the gateway, up to the expiry of the certificate it gave. -/
def handshake (existing : TenantRecord) : Program Server Thrown (OnboardingResult × Date) := do
  let onboardFn := args.onboardFn.getD (onboard D.runtime D.builders)
  let result ← (onboardFn
    { egsInfo := buildEgsInfo existing args.egsCustomId args.egsModel, otp := args.otp
      environment := args.environment, solutionName := args.solutionName
      host := args.host }).embed (Server.onboardHost args.tenantRef)
  if !result.complianceTestReport.passed then Program.throw (complianceTestsFailed args.tenantRef)
  else match D.getExpiry result.productionCertificate with
    | .error _ => Program.throw (expiryNotParsed args.tenantRef)
    | .ok productionExpiry => return (result,productionExpiry)

def signerMaterial (result : OnboardingResult) : SignerMaterial where
  privateKey := result.privateKey
  productionCertificate := result.productionCertificate
  productionBinarySecurityToken := result.productionBinarySecurityToken
  productionApiSecret := result.productionApiSecret
  complianceCertificate := some result.complianceCertificate
  complianceBinarySecurityToken := some result.complianceBinarySecurityToken
  complianceApiSecret := some result.complianceApiSecret

def onboardingAudit (result : AuditResult) : AuditEntryInput where
  actor := args.actor
  tenantRef := some args.tenantRef
  action := args.auditAction
  targetId := some args.tenantRef
  result

/-- The final batch, under the pass-through unit of work. -/
def persist (result : OnboardingResult) (productionExpiry : Date) :
    Program Server Thrown TenantRecord := do
  Program.perform (S := Server) (.vault (.put args.tenantRef (signerMaterial result)))
  Program.perform (S := Server) (.tenants (.setProductionExpiry args.tenantRef productionExpiry))
  let promoted ← Program.perform (S := Server)
    (.tenants (.setState args.tenantRef .productionReady {}))
  Program.perform (S := Server) (.audit (onboardingAudit args .ok))
  return promoted

/-- `err instanceof Error ? err.message : String(err)` -/
def errorText (R : Runtime) : Thrown → String
  | .other value => R.stringOf value
  | err => err.message

/-- A follow-up failure does not mask the error. -/
def swallow {α : Type} (p : Program Server Thrown α) : Program Server Thrown Unit :=
  Program.tryCatch (p.bind (fun _ => .ret ())) (fun _ => .ret ())

/-- Marks the tenant failed, which releases the lock. -/
def onFailure (err : Thrown) : Program Server Thrown RunOnboardingResult := do
  swallow (Program.perform (S := Server) (.tenants (.setState args.tenantRef .failed
    { lastError := some (errorText D.runtime err) })))
  swallow (Program.perform (S := Server) (.audit (onboardingAudit args .error)))
  Program.throw err

/-- What is done under the claim. -/
def underClaim (existing : TenantRecord) : Program Server Thrown RunOnboardingResult := do
  let (result,productionExpiry) ← handshake D args existing
  let finalRecord ← persist args result productionExpiry
  return {
    tenantRef := args.tenantRef
    state := finalRecord.state
    complianceTestStatus := result.complianceTestReport.passed
    productionCertificateExpiresAt := productionExpiry
    productionRequestId := result.productionRequestId }

def runOnboarding : Program Server Thrown RunOnboardingResult := do
  let existing ← claimTenant args
  Program.tryCatch (underClaim D args existing) (onFailure D args)

end run

inductive RunPhase where
  | claim
  | handshake
  | persist
  | failure
  deriving DecidableEq, Repr

/-- The calls of a run, phase by phase. -/
inductive RunCall (args : RunOnboardingArgs) : RunPhase → ServerOp → Prop
  | read : RunCall args .claim (.tenants (.get args.tenantRef))
  | clock : RunCall args .claim .clock
  | claim (lockExpires : Date) (expectedFrom : TenantState) : RunCall args .claim
      (.tenants (.setState args.tenantRef .onboarding (claimOptions args lockExpires expectedFrom)))
  | http (o : HttpOp) : RunCall args .handshake (.http o)
  | crypto (o : CryptoOp) : RunCall args .handshake (.crypto o)
  | progress (scenario : String) (passed : Bool) : RunCall args .handshake
      (.tenants (.recordOnboardingProgress args.tenantRef scenario passed))
  | put (material : SignerMaterial) : RunCall args .persist (.vault (.put args.tenantRef material))
  | expiry (d : Date) : RunCall args .persist (.tenants (.setProductionExpiry args.tenantRef d))
  | promote : RunCall args .persist (.tenants (.setState args.tenantRef .productionReady {}))
  | audit : RunCall args .persist (.audit (onboardingAudit args .ok))
  | markFailed (message : String) : RunCall args .failure
      (.tenants (.setState args.tenantRef .failed { lastError := some message }))
  | auditFailure : RunCall args .failure (.audit (onboardingAudit args .error))

section calls
variable {D : Deps} {args : RunOnboardingArgs}

theorem acquire_calls (lockExpires : Date) (states : List TenantState) :
    (acquire args lockExpires states).Calls (RunCall args .claim) := by
  induction states with
  | nil => trivial
  | cons expectedFrom rest ih =>
    refine Program.calls_tryCatch (Program.calls_bind (Program.calls_perform (.claim _ _))
      fun _ => trivial) fun err => ?_
    cases err with
    | zatcaRegistryError message code => exact ih
    | _ => trivial

theorem claimTenant_calls : (claimTenant args).Calls (RunCall args .claim) := by
  refine Program.calls_bind (Program.calls_perform .read) fun existing => ?_
  cases existing with
  | none => trivial
  | some existing =>
    refine Program.calls_bind ?_ fun _ => ?_
    · unfold preflight
      split
      · refine Program.calls_bind (Program.calls_perform .clock) fun now => ?_
        split
        · trivial
        · trivial
      · trivial
    · refine Program.calls_bind (Program.calls_perform .clock) fun now => ?_
      refine Program.calls_bind (acquire_calls _ _) fun acquired => ?_
      cases acquired with
      | true => trivial
      | false => exact Program.calls_bind (Program.calls_perform .read) fun fresh => trivial

theorem handshake_calls (existing : TenantRecord) :
    (handshake D args existing).Calls (RunCall args .handshake) := by
  refine Program.calls_bind (Program.calls_embed ?_ _) fun result => ?_
  · intro o
    cases o with
    | http o => exact .http o
    | crypto o => exact .crypto o
    | onProgress event => exact .progress _ _
  · cases hr : result.complianceTestReport.passed with
    | false =>
      simp only [Bool.not_false,if_true]
      trivial
    | true =>
      simp only [Bool.not_true,Bool.false_eq_true,if_false]
      cases D.getExpiry result.productionCertificate with
      | error e => trivial
      | ok d => trivial

theorem persist_calls (result : OnboardingResult) (d : Date) :
    (persist args result d).Calls (RunCall args .persist) := by
  refine Program.calls_bind (Program.calls_perform (.put _)) fun _ => ?_
  refine Program.calls_bind (Program.calls_perform (.expiry _)) fun _ => ?_
  refine Program.calls_bind (Program.calls_perform .promote) fun promoted => ?_
  exact Program.calls_bind (Program.calls_perform .audit) fun _ => trivial

theorem onFailure_calls (err : Thrown) :
    (onFailure D args err).Calls (RunCall args .failure) := by
  refine Program.calls_bind ?_ fun _ => Program.calls_bind ?_ fun _ => trivial
  · exact Program.calls_tryCatch (Program.calls_bind (Program.calls_perform (.markFailed _))
      fun _ => trivial) fun _ => trivial
  · exact Program.calls_tryCatch (Program.calls_bind (Program.calls_perform .auditFailure)
      fun _ => trivial) fun _ => trivial

theorem runOnboarding_calls :
    (runOnboarding D args).Calls (fun o => ∃ phase, RunCall args phase o) := by
  refine Program.calls_bind (claimTenant_calls.mono fun o ho => ⟨_,ho⟩) fun existing => ?_
  refine Program.calls_tryCatch (Program.calls_bind ((handshake_calls existing).mono
    fun o ho => ⟨_,ho⟩) fun handed => ?_) fun err => (onFailure_calls err).mono fun o ho => ⟨_,ho⟩
  exact Program.calls_bind ((persist_calls _ _).mono fun o ho => ⟨_,ho⟩) fun _ => trivial

end calls
end Zatca
