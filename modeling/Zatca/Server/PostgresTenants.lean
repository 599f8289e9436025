import Zatca.Library.Sequence
import Zatca.Library.ThreeValued
import Zatca.Server.Tenants
set_option autoImplicit false

/-! The tenant store on `zatca_server_tenants`. The database keeps what its columns are given, and
`jsonb` gives it back as it was. -/

namespace Zatca
open Interaction ThreeValued

/-- What a tenant store on a database throws: an error of the package, or the driver's. -/
inductive TenantBackendError where
  | zatca (e : Thrown)
  | driver (code : String)
  deriving DecidableEq

/-- The columns; an absent entry is null. -/
structure TenantRow where
  tenantRef : String
  vatNumber : String
  egsUuid : String
  vatName : String
  crn : String
  branchName : String
  branchIndustry : Option String
  location : EGSUnitLocation
  environment : ZatcaEnvironment
  state : TenantState
  onboardingProgress : OnboardingProgress
  productionCertificateExpiresAt : Option Date
  callbackUrl : Option String
  claimedBy : Option String
  claimExpiresAt : Option Date
  label : Option String
  createdAt : Date
  updatedAt : Date
  deletedAt : Option Date
  deriving DecidableEq

/-- The statements on the table; but for the insert each names the primary key, and the update
answers with the row that it changed. -/
inductive TenantSqlOp where
  | insert (row : TenantRow)
  | select (tenantRef : String) (condition : TenantRow → Truth)
  | update (tenantRef : String) (condition : TenantRow → Truth) (set : TenantRow → TenantRow)

abbrev TenantSqlOp.Ret (_ : TenantSqlOp) : Type := Option TenantRow

abbrev TenantSql : Signature := ⟨TenantSqlOp,TenantSqlOp.Ret⟩

structure TenantTable where
  rows : JsMap String TenantRow

namespace TenantTable

def empty : TenantTable := ⟨.empty⟩

def find (st : TenantTable) (tenantRef : String) (condition : TenantRow → Truth) :
    Option TenantRow :=
  (st.rows.get tenantRef).filter (fun row => (condition row).holds)

def handle : Handler TenantSql TenantBackendError TenantTable Unit
  | .insert row, _, st =>
      match st.rows.get row.tenantRef with
      | some _ => (.error (.driver "23505"),st)
      | none => (.ok (some row),⟨st.rows.set row.tenantRef row⟩)
  | .select tenantRef condition, _, st => (.ok (st.find tenantRef condition),st)
  | .update tenantRef condition set, _, st =>
      match st.find tenantRef condition with
      | none => (.ok none,st)
      | some row => (.ok (some (set row)),⟨st.rows.set tenantRef (set row)⟩)

end TenantTable

/-! ### The store -/

def rowToTenant (row : TenantRow) : Except Thrown TenantRecord := do
  let vatNumber ← asVATNumber row.vatNumber
  let egsUuid ← asEGSUuid row.egsUuid
  let crn ← asCommercialRegistrationNumber row.crn
  return {
    tenantRef := row.tenantRef, vatNumber, egsUuid, vatName := row.vatName, crn
    branchName := row.branchName, branchIndustry := row.branchIndustry, location := row.location
    environment := row.environment, state := row.state
    onboardingProgress := row.onboardingProgress
    productionCertificateExpiresAt := row.productionCertificateExpiresAt
    callbackUrl := row.callbackUrl, claimedBy := row.claimedBy
    claimExpiresAt := row.claimExpiresAt, label := row.label, createdAt := row.createdAt
    updatedAt := row.updatedAt, deletedAt := row.deletedAt }

/-- A transition that the expectation refuses; without one the template prints `undefined`. -/
def cannotTransition (tenantRef : String) (state : TenantState) (expectedFrom : Option TenantState) :
    Thrown :=
  .zatcaRegistryError ("Cannot transition tenant '" ++ tenantRef ++ "' from '" ++ state.literal ++
    "' (expected '" ++ (expectedFrom.map TenantState.literal).getD "undefined" ++ "').") .conflict

def alreadyExists (tenantRef : String) : Thrown :=
  .zatcaRegistryError ("Tenant '" ++ tenantRef ++ "' already exists.") .conflict

def alreadyDeleted (tenantRef : String) : Thrown :=
  .zatcaRegistryError ("Tenant '" ++ tenantRef ++ "' is already deleted.") .conflict

def mergedProgress (existing : OnboardingProgress) (scenario : String) (passed : Bool) :
    OnboardingProgress :=
  { existing with
    scenarios := JsMap.setEntry scenario (if passed then .passed else .failed) existing.scenarios }

namespace PostgresTenantStore

def query (o : TenantSqlOp) : Program TenantSql TenantBackendError (Option TenantRow) :=
  Program.perform (S := TenantSql) o

def throwing {α : Type} (e : Thrown) : Program TenantSql TenantBackendError α := .throw (.zatca e)

def fromRow (row : TenantRow) : Program TenantSql TenantBackendError TenantRecord :=
  .ofExcept ((rowToTenant row).mapError .zatca)

def isUniqueViolation (err : TenantBackendError) : Bool := err = .driver "23505"

/-- `deleted_at IS NULL` -/
def notDeleted (row : TenantRow) : Truth := .isNull row.deletedAt

def newRow (tenantRef : String) (now : Date) (input : CreateTenantInput) : TenantRow where
  tenantRef
  vatNumber := input.vatNumber.1
  egsUuid := input.egsUuid.1
  vatName := input.vatName
  crn := input.crn.1
  branchName := input.branchName
  branchIndustry := input.branchIndustry
  location := input.location
  environment := input.environment
  state := .created
  onboardingProgress := {}
  productionCertificateExpiresAt := none
  callbackUrl := input.callbackUrl
  claimedBy := none
  claimExpiresAt := none
  label := input.label
  createdAt := now
  updatedAt := now
  deletedAt := none

def insert (tenantRef : String) (now : Date) (input : CreateTenantInput) :
    Program TenantSql TenantBackendError TenantRecord := do
  match ← query (.insert (newRow tenantRef now input)) with
  | none => throwing (.zatcaRegistryError
      ("create returned no row for tenant '" ++ tenantRef ++ "'.") .conflict)
  | some firstRow => fromRow firstRow

def create (now : Date) (generated : String) (input : CreateTenantInput) :
    Program TenantSql TenantBackendError TenantRecord :=
  let tenantRef := input.tenantRef.getD generated
  (insert tenantRef now input).tryCatch fun err =>
    if isUniqueViolation err then throwing (alreadyExists tenantRef) else .throw err

def get (tenantRef : String) : Program TenantSql TenantBackendError (Option TenantRecord) := do
  match ← query (.select tenantRef notDeleted) with
  | none => return none
  | some row => return some (← fromRow row)

/-- The assignments of a patch; a field that is not patched is not among them. -/
def patchRow (now : Date) (patch : PatchableTenantFields) (row : TenantRow) : TenantRow :=
  { row with
    vatName := patch.vatName.getD row.vatName
    branchName := patch.branchName.getD row.branchName
    branchIndustry := patch.branchIndustry <|> row.branchIndustry
    location := patch.location.getD row.location
    label := patch.label <|> row.label
    callbackUrl := patch.callbackUrl <|> row.callbackUrl
    updatedAt := now }

def patch (now : Date) (tenantRef : String) (patch : PatchableTenantFields) :
    Program TenantSql TenantBackendError TenantRecord := do
  match ← query (.update tenantRef notDeleted (patchRow now patch)) with
  | none => throwing (unknownTenant tenantRef)
  | some row => fromRow row

/-- The progress with the new error, read before the update that writes it. -/
def progressWith (tenantRef : String) : Option String →
    Program TenantSql TenantBackendError (Option OnboardingProgress)
  | none => return none
  | some lastError => do
      let current ← query (.select tenantRef notDeleted)
      let existing := (current.map TenantRow.onboardingProgress).getD {}
      return some { existing with lastError := some lastError }

/-- `(state = $7 AND $7 <> 'onboarding') OR (state = 'onboarding' AND (claim_expires_at IS NULL OR
claim_expires_at <= $3))` -/
def mayTransition (expectedFrom : TenantState) (now : Date) (row : TenantRow) : Truth :=
  ((Truth.compare (fun a b => a = b) (some row.state) (some expectedFrom)).and
    (.compare (fun a b => a ≠ b) (some expectedFrom) (some TenantState.onboarding))).or
  ((Truth.compare (fun a b => a = b) (some row.state) (some TenantState.onboarding)).and
    ((Truth.isNull row.claimExpiresAt).or
      (.compare (fun a b : Date => a.getTime ≤ b.getTime) row.claimExpiresAt (some now))))

def transitionCondition (expectedFrom : Option TenantState) (now : Date) (row : TenantRow) : Truth :=
  match expectedFrom with
  | some expectedFrom => (notDeleted row).and (mayTransition expectedFrom now row)
  | none => notDeleted row

def transitionRow (now : Date) (next : TenantState) (opts : SetStateOptions)
    (newProgress : Option OnboardingProgress) (row : TenantRow) : TenantRow :=
  { row with
    state := next
    updatedAt := now
    claimedBy := opts.claimedBy
    claimExpiresAt := opts.claimExpiresAt
    onboardingProgress := newProgress.getD row.onboardingProgress }

def setState (now : Date) (tenantRef : String) (next : TenantState) (opts : SetStateOptions) :
    Program TenantSql TenantBackendError TenantRecord := do
  let newProgress ← progressWith tenantRef opts.lastError
  match ← query (.update tenantRef (transitionCondition opts.expectedFrom now)
      (transitionRow now next opts newProgress)) with
  | some row => fromRow row
  | none =>
      match ← query (.select tenantRef notDeleted) with
      | none => throwing (unknownTenant tenantRef)
      | some row => throwing (cannotTransition tenantRef row.state opts.expectedFrom)

/-- The answer of the update is not looked at. -/
def recordOnboardingProgress (now : Date) (tenantRef scenario : String) (passed : Bool) :
    Program TenantSql TenantBackendError Unit := do
  match ← query (.select tenantRef notDeleted) with
  | none => throwing (unknownTenant tenantRef)
  | some existing =>
      let merged := mergedProgress existing.onboardingProgress scenario passed
      let _ ← query (.update tenantRef notDeleted fun row =>
        { row with onboardingProgress := merged, updatedAt := now })
      return ()

def setProductionExpiry (now : Date) (tenantRef : String) (expiresAt : Date) :
    Program TenantSql TenantBackendError Unit := do
  match ← query (.update tenantRef notDeleted fun row =>
      { row with productionCertificateExpiresAt := some expiresAt, updatedAt := now }) with
  | none => throwing (unknownTenant tenantRef)
  | some _ => return ()

def softDelete (now : Date) (tenantRef : String) : Program TenantSql TenantBackendError Unit := do
  match ← query (.update tenantRef notDeleted fun row =>
      { row with state := .revoked, deletedAt := some now, updatedAt := now }) with
  | some _ => return ()
  | none =>
      match ← query (.select tenantRef fun _ => .yes) with
      | none => throwing (unknownTenant tenantRef)
      | some _ => throwing (alreadyDeleted tenantRef)

def method (now : Date) (generated : String) :
    (o : TenantOp) → Program TenantSql TenantBackendError o.Ret
  | .create input => create now generated input
  | .get tenantRef => get tenantRef
  | .patch tenantRef fields => patch now tenantRef fields
  | .setState tenantRef next opts => setState now tenantRef next opts
  | .recordOnboardingProgress tenantRef scenario passed =>
      recordOnboardingProgress now tenantRef scenario passed
  | .setProductionExpiry tenantRef expiresAt => setProductionExpiry now tenantRef expiresAt
  | .softDelete tenantRef => softDelete now tenantRef

/-- A method call that nothing comes between; the choice is the reading of the clock and the
reference that `generateTenantRef` draws. -/
def handle : Handler TenantStore TenantBackendError TenantTable (Date × String) :=
  fun o x st => (method x.1 x.2 o).exec TenantTable.handle (fun _ => ()) st

end PostgresTenantStore

end Zatca
