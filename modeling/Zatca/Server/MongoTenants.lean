import Zatca.Server.PostgresTenants
set_option autoImplicit false

/-! The tenant store on the collection `zatca_server_tenants`, which keeps the documents that it is
given. -/

namespace Zatca
open Interaction

/-- A document; optional paths may be absent. -/
structure TenantDoc where
  _id : String
  vatNumber : String
  egsUuid : String
  vatName : String
  crn : String
  branchName : String
  branchIndustry : Option String := none
  location : EGSUnitLocation
  environment : ZatcaEnvironment
  state : TenantState
  onboardingProgress : Option OnboardingProgress := some {}
  productionCertificateExpiresAt : Option Date := none
  callbackUrl : Option String := none
  claimedBy : Option String := none
  claimExpiresAt : Option Date := none
  label : Option String := none
  createdAt : Date
  updatedAt : Date
  deletedAt : Option Date := none
  deriving DecidableEq

/-- The commands; each but `create` names the `_id`, and `updateOne` answers with
`matchedCount`. -/
inductive TenantMongoOp where
  | create (doc : TenantDoc)
  | findOne (tenantRef : String) (filter : TenantDoc → Bool)
  | findOneAndUpdate (tenantRef : String) (filter : TenantDoc → Bool)
      (update : TenantDoc → TenantDoc)
  | updateOne (tenantRef : String) (filter : TenantDoc → Bool) (update : TenantDoc → TenantDoc)
  | exists (tenantRef : String)

abbrev TenantMongoOp.Ret : TenantMongoOp → Type
  | .create _ => Unit
  | .findOne _ _ => Option TenantDoc
  | .findOneAndUpdate _ _ _ => Option TenantDoc
  | .updateOne _ _ _ => Nat
  | .exists _ => Bool

abbrev TenantMongo : Signature := ⟨TenantMongoOp,TenantMongoOp.Ret⟩

structure TenantCollection where
  docs : JsMap String TenantDoc

namespace TenantCollection

def empty : TenantCollection := ⟨.empty⟩

def find (st : TenantCollection) (tenantRef : String) (filter : TenantDoc → Bool) :
    Option TenantDoc := (st.docs.get tenantRef).filter filter

def put (st : TenantCollection) (tenantRef : String) (doc : TenantDoc) : TenantCollection :=
  ⟨st.docs.set tenantRef doc⟩

def handle : Handler TenantMongo TenantBackendError TenantCollection Unit
  | .create doc, _, st =>
      match st.docs.get doc._id with
      | some _ => (.error (.driver "11000"),st)
      | none => (.ok (),st.put doc._id doc)
  | .findOne tenantRef filter, _, st => (.ok (st.find tenantRef filter),st)
  | .findOneAndUpdate tenantRef filter update, _, st =>
      match st.find tenantRef filter with
      | none => (.ok none,st)
      | some doc => (.ok (some (update doc)),st.put tenantRef (update doc))
  | .updateOne tenantRef filter update, _, st =>
      match st.find tenantRef filter with
      | none => (.ok 0,st)
      | some doc => (.ok 1,st.put tenantRef (update doc))
  | .exists tenantRef, _, st => (.ok (st.docs.get tenantRef).isSome,st)

end TenantCollection

/-! ### The store -/

def docToTenant (doc : TenantDoc) : Except Thrown TenantRecord := do
  let vatNumber ← asVATNumber doc.vatNumber
  let egsUuid ← asEGSUuid doc.egsUuid
  let crn ← asCommercialRegistrationNumber doc.crn
  return {
    tenantRef := doc._id, vatNumber, egsUuid, vatName := doc.vatName, crn
    branchName := doc.branchName, branchIndustry := doc.branchIndustry, location := doc.location
    environment := doc.environment, state := doc.state
    onboardingProgress := doc.onboardingProgress.getD {}
    productionCertificateExpiresAt := doc.productionCertificateExpiresAt
    callbackUrl := doc.callbackUrl, claimedBy := doc.claimedBy
    claimExpiresAt := doc.claimExpiresAt, label := doc.label, createdAt := doc.createdAt
    updatedAt := doc.updatedAt, deletedAt := doc.deletedAt }

namespace MongoTenantStore

def command (o : TenantMongoOp) : Program TenantMongo TenantBackendError o.Ret :=
  Program.perform (S := TenantMongo) o

def throwing {α : Type} (e : Thrown) : Program TenantMongo TenantBackendError α := .throw (.zatca e)

def fromDoc (doc : TenantDoc) : Program TenantMongo TenantBackendError TenantRecord :=
  .ofExcept ((docToTenant doc).mapError .zatca)

def isDuplicateKeyError (err : TenantBackendError) : Bool := err = .driver "11000"

/-- `{ deletedAt: { $exists: false } }` -/
def notDeleted (doc : TenantDoc) : Bool := doc.deletedAt.isNone

def newDoc (tenantRef : String) (now : Date) (input : CreateTenantInput) : TenantDoc where
  _id := tenantRef
  vatNumber := input.vatNumber.1
  egsUuid := input.egsUuid.1
  vatName := input.vatName
  crn := input.crn.1
  branchName := input.branchName
  branchIndustry := input.branchIndustry
  location := input.location
  environment := input.environment
  state := .created
  onboardingProgress := some {}
  callbackUrl := input.callbackUrl
  label := input.label
  createdAt := now
  updatedAt := now

/-- The answer is the document as it was sent. -/
def create (now : Date) (generated : String) (input : CreateTenantInput) :
    Program TenantMongo TenantBackendError TenantRecord := do
  let tenantRef := input.tenantRef.getD generated
  let doc := newDoc tenantRef now input
  (command (.create doc)).tryCatch fun err =>
    if isDuplicateKeyError err then throwing (alreadyExists tenantRef) else .throw err
  fromDoc doc

def get (tenantRef : String) : Program TenantMongo TenantBackendError (Option TenantRecord) := do
  match ← command (.findOne tenantRef notDeleted) with
  | none => return none
  | some doc => return some (← fromDoc doc)

def patchDoc (now : Date) (patch : PatchableTenantFields) (doc : TenantDoc) : TenantDoc :=
  { doc with
    updatedAt := now
    vatName := patch.vatName.getD doc.vatName
    branchName := patch.branchName.getD doc.branchName
    branchIndustry := patch.branchIndustry <|> doc.branchIndustry
    location := patch.location.getD doc.location
    label := patch.label <|> doc.label
    callbackUrl := patch.callbackUrl <|> doc.callbackUrl }

def patch (now : Date) (tenantRef : String) (patch : PatchableTenantFields) :
    Program TenantMongo TenantBackendError TenantRecord := do
  match ← command (.findOneAndUpdate tenantRef notDeleted (patchDoc now patch)) with
  | none => throwing (unknownTenant tenantRef)
  | some doc => fromDoc doc

/-- The progress with the new error; this read takes deleted documents too. -/
def progressWith (tenantRef : String) : Option String →
    Program TenantMongo TenantBackendError (Option OnboardingProgress)
  | none => return none
  | some lastError => do
      let current ← command (.findOne tenantRef fun _ => true)
      let existing := (current.bind TenantDoc.onboardingProgress).getD {}
      return some { existing with lastError := some lastError }

/-- `{ $or: [{ claimExpiresAt: { $lte: now } }, { claimExpiresAt: null },
{ claimExpiresAt: { $exists: false } }] }`; null also matches an absent path. -/
def claimIsStale (now : Date) (doc : TenantDoc) : Bool :=
  doc.claimExpiresAt.any (fun e => e.getTime ≤ now.getTime) || doc.claimExpiresAt.isNone ||
    doc.claimExpiresAt.isNone

/-- The branches of `$or`: the first is left out where it is `onboarding` that is expected. -/
def mayTransition (expectedFrom : TenantState) (now : Date) (doc : TenantDoc) : Bool :=
  let firstBranch : List (TenantDoc → Bool) :=
    if expectedFrom = .onboarding then [] else [fun doc => doc.state = expectedFrom]
  (firstBranch ++ [fun doc => doc.state = .onboarding && claimIsStale now doc]).any
    (fun branch => branch doc)

def transitionFilter (expectedFrom : Option TenantState) (now : Date) (doc : TenantDoc) : Bool :=
  match expectedFrom with
  | some expectedFrom => notDeleted doc && mayTransition expectedFrom now doc
  | none => notDeleted doc

/-- `$set` and `$unset`: what is not given of the claim is removed. -/
def transitionDoc (now : Date) (next : TenantState) (opts : SetStateOptions)
    (newProgress : Option OnboardingProgress) (doc : TenantDoc) : TenantDoc :=
  { doc with
    state := next
    updatedAt := now
    claimedBy := opts.claimedBy
    claimExpiresAt := opts.claimExpiresAt
    onboardingProgress := newProgress <|> doc.onboardingProgress }

def setState (now : Date) (tenantRef : String) (next : TenantState) (opts : SetStateOptions) :
    Program TenantMongo TenantBackendError TenantRecord := do
  let newProgress ← progressWith tenantRef opts.lastError
  match ← command (.findOneAndUpdate tenantRef (transitionFilter opts.expectedFrom now)
      (transitionDoc now next opts newProgress)) with
  | some doc => fromDoc doc
  | none =>
      match ← command (.findOne tenantRef notDeleted) with
      | none => throwing (unknownTenant tenantRef)
      | some doc => throwing (cannotTransition tenantRef doc.state opts.expectedFrom)

def recordOnboardingProgress (now : Date) (tenantRef scenario : String) (passed : Bool) :
    Program TenantMongo TenantBackendError Unit := do
  match ← command (.findOne tenantRef notDeleted) with
  | none => throwing (unknownTenant tenantRef)
  | some existing =>
      let merged := mergedProgress (existing.onboardingProgress.getD {}) scenario passed
      let matchedCount ← command (.updateOne tenantRef notDeleted fun doc =>
        { doc with onboardingProgress := some merged, updatedAt := now })
      if matchedCount = 0 then throwing (unknownTenant tenantRef) else return ()

def setProductionExpiry (now : Date) (tenantRef : String) (expiresAt : Date) :
    Program TenantMongo TenantBackendError Unit := do
  let matchedCount ← command (.updateOne tenantRef notDeleted fun doc =>
    { doc with productionCertificateExpiresAt := some expiresAt, updatedAt := now })
  if matchedCount = 0 then throwing (unknownTenant tenantRef) else return ()

def softDelete (now : Date) (tenantRef : String) : Program TenantMongo TenantBackendError Unit := do
  let matchedCount ← command (.updateOne tenantRef notDeleted fun doc =>
    { doc with state := .revoked, deletedAt := some now, updatedAt := now })
  if matchedCount = 0 then
    if ← command (.exists tenantRef) then throwing (alreadyDeleted tenantRef)
    else throwing (unknownTenant tenantRef)
  else return ()

def method (now : Date) (generated : String) :
    (o : TenantOp) → Program TenantMongo TenantBackendError o.Ret
  | .create input => create now generated input
  | .get tenantRef => get tenantRef
  | .patch tenantRef fields => patch now tenantRef fields
  | .setState tenantRef next opts => setState now tenantRef next opts
  | .recordOnboardingProgress tenantRef scenario passed =>
      recordOnboardingProgress now tenantRef scenario passed
  | .setProductionExpiry tenantRef expiresAt => setProductionExpiry now tenantRef expiresAt
  | .softDelete tenantRef => softDelete now tenantRef

def handle : Handler TenantStore TenantBackendError TenantCollection (Date × String) :=
  fun o x st => (method x.1 x.2 o).exec TenantCollection.handle (fun _ => ()) st

end MongoTenantStore

end Zatca
