import Zatca.Core.Branded
import Zatca.Core.Gateway
import Zatca.Library.JsMap
set_option autoImplicit false

/-! The registry: who the tenants are, which credentials they hold, and which callers may act for
them. The three stores are the ones of `createMemoryRegistry`. -/

namespace Zatca
open Interaction

inductive TenantState where
  | created
  | onboarding
  | productionReady
  | failed
  | revoked
  deriving DecidableEq, Repr

def TenantState.literal : TenantState → String
  | created => "created"
  | onboarding => "onboarding"
  | productionReady => "production-ready"
  | failed => "failed"
  | revoked => "revoked"

inductive ScenarioStatus where
  | pending
  | passed
  | failed
  deriving DecidableEq, Repr

structure OnboardingProgress where
  scenarios : List (String × ScenarioStatus) := []
  lastError : Option String := none
  deriving DecidableEq, Repr

structure TenantRecord where
  tenantRef : String
  vatNumber : VATNumber
  egsUuid : EGSUuid
  vatName : String
  crn : CommercialRegistrationNumber
  branchName : String
  branchIndustry : Option String := none
  location : EGSUnitLocation
  environment : ZatcaEnvironment
  state : TenantState
  onboardingProgress : OnboardingProgress := {}
  productionCertificateExpiresAt : Option Date := none
  callbackUrl : Option String := none
  claimedBy : Option String := none
  claimExpiresAt : Option Date := none
  label : Option String := none
  createdAt : Date
  updatedAt : Date
  deletedAt : Option Date := none
  deriving DecidableEq

structure CreateTenantInput where
  tenantRef : Option String := none
  vatNumber : VATNumber
  egsUuid : EGSUuid
  vatName : String
  crn : CommercialRegistrationNumber
  branchName : String
  branchIndustry : Option String := none
  location : EGSUnitLocation
  environment : ZatcaEnvironment
  label : Option String := none
  callbackUrl : Option String := none
  deriving DecidableEq

structure PatchableTenantFields where
  vatName : Option String := none
  branchName : Option String := none
  branchIndustry : Option String := none
  location : Option EGSUnitLocation := none
  label : Option String := none
  callbackUrl : Option String := none
  deriving DecidableEq, Repr

structure SetStateOptions where
  expectedFrom : Option TenantState := none
  claimedBy : Option String := none
  claimExpiresAt : Option Date := none
  lastError : Option String := none
  deriving DecidableEq, Repr

def toTenantScope (record : TenantRecord) : TenantScope :=
  ⟨record.vatNumber.1,record.egsUuid.1⟩

inductive TenantOp where
  | create (input : CreateTenantInput)
  | get (tenantRef : String)
  | patch (tenantRef : String) (patch : PatchableTenantFields)
  | setState (tenantRef : String) (next : TenantState) (options : SetStateOptions)
  | recordOnboardingProgress (tenantRef scenario : String) (passed : Bool)
  | setProductionExpiry (tenantRef : String) (expiresAt : Date)
  | softDelete (tenantRef : String)
  deriving DecidableEq

abbrev TenantOp.Ret : TenantOp → Type
  | .create _ => TenantRecord
  | .get _ => Option TenantRecord
  | .patch _ _ => TenantRecord
  | .setState _ _ _ => TenantRecord
  | .recordOnboardingProgress _ _ _ => Unit
  | .setProductionExpiry _ _ => Unit
  | .softDelete _ => Unit

abbrev TenantStore : Signature := ⟨TenantOp,TenantOp.Ret⟩

/-- The state of `createMemoryTenantStore`. -/
structure MemoryTenantStore where
  records : JsMap String TenantRecord

def unknownTenant (tenantRef : String) : Thrown :=
  .zatcaRegistryError ("Unknown tenant '" ++ tenantRef ++ "'.") .notFound

namespace TenantRecord

def isClaimed (existing : TenantRecord) (now : Date) : Bool :=
  existing.state = .onboarding && match existing.claimExpiresAt with
    | none => false
    | some e => now.getTime < e.getTime

/-- Free or expired: an onboarding claim that is not held. -/
def lockNotHeld (existing : TenantRecord) (now : Date) : Bool :=
  existing.state = .onboarding && match existing.claimExpiresAt with
    | none => true
    | some e => e.getTime ≤ now.getTime

def mayTransitionFrom (existing : TenantRecord) (expectedFrom : TenantState) (now : Date) : Bool :=
  (existing.state = expectedFrom && expectedFrom ≠ .onboarding) || existing.lockNotHeld now

def transitionConflict (tenantRef : String) (existing : TenantRecord) (expectedFrom : TenantState) :
    Thrown :=
  .zatcaRegistryError ("Cannot transition tenant '" ++ tenantRef ++ "' from '" ++
    existing.state.literal ++ "' (expected '" ++ expectedFrom.literal ++ "').") .conflict

def withState (existing : TenantRecord) (next : TenantState) (options : SetStateOptions)
    (now : Date) : TenantRecord :=
  { existing with
    state := next
    updatedAt := now
    claimExpiresAt := options.claimExpiresAt
    claimedBy := options.claimedBy
    onboardingProgress := match options.lastError with
      | none => existing.onboardingProgress
      | some e => { existing.onboardingProgress with lastError := some e } }

/-- The new record of a state transition, which a failed expectation refuses. -/
def transition (existing : TenantRecord) (tenantRef : String) (next : TenantState) (options : SetStateOptions)
    (now : Date) : Except Thrown TenantRecord :=
  match options.expectedFrom with
  | none => .ok (existing.withState next options now)
  | some expectedFrom =>
      if existing.mayTransitionFrom expectedFrom now then .ok (existing.withState next options now)
      else .error (transitionConflict tenantRef existing expectedFrom)

def patched (existing : TenantRecord) (patch : PatchableTenantFields) (now : Date) : TenantRecord :=
  { existing with
    vatName := patch.vatName.getD existing.vatName
    branchName := patch.branchName.getD existing.branchName
    branchIndustry := patch.branchIndustry <|> existing.branchIndustry
    location := patch.location.getD existing.location
    label := patch.label <|> existing.label
    callbackUrl := patch.callbackUrl <|> existing.callbackUrl
    updatedAt := now }

def withProgress (existing : TenantRecord) (scenario : String) (passed : Bool) (now : Date) :
    TenantRecord :=
  { existing with
    onboardingProgress := { existing.onboardingProgress with
      scenarios := JsMap.setEntry scenario (if passed then .passed else .failed)
        existing.onboardingProgress.scenarios }
    updatedAt := now }

end TenantRecord

namespace MemoryTenantStore

def empty : MemoryTenantStore := ⟨.empty⟩

/-- A deleted record is hidden. -/
def get (tenantRef : String) (st : MemoryTenantStore) : Option TenantRecord :=
  (st.records.get tenantRef).filter (fun r => r.deletedAt.isNone)

/-- The methods that replace the record of a tenant. -/
def update (tenantRef : String) (f : TenantRecord → Except Thrown TenantRecord)
    (st : MemoryTenantStore) : Except Thrown (TenantRecord × MemoryTenantStore) :=
  match st.get tenantRef with
  | none => .error (unknownTenant tenantRef)
  | some existing => (f existing).map (fun r => (r,⟨st.records.set tenantRef r⟩))

def newRecord (tenantRef : String) (input : CreateTenantInput) (now : Date) : TenantRecord where
  tenantRef
  vatNumber := input.vatNumber
  egsUuid := input.egsUuid
  vatName := input.vatName
  crn := input.crn
  branchName := input.branchName
  branchIndustry := input.branchIndustry
  location := input.location
  environment := input.environment
  state := .created
  callbackUrl := input.callbackUrl
  label := input.label
  createdAt := now
  updatedAt := now

/-- A reference once given is never given again, not even after a deletion. -/
def create (now : Date) (generated : String) (input : CreateTenantInput) (st : MemoryTenantStore) :
    Except Thrown (TenantRecord × MemoryTenantStore) :=
  let tenantRef := input.tenantRef.getD generated
  match st.records.get tenantRef with
  | some _ => .error
      (.zatcaRegistryError ("Tenant '" ++ tenantRef ++ "' already exists.") .conflict)
  | none =>
      let record := newRecord tenantRef input now
      .ok (record,⟨st.records.set tenantRef record⟩)

def softDelete (now : Date) (tenantRef : String) (st : MemoryTenantStore) :
    Except Thrown (TenantRecord × MemoryTenantStore) :=
  match st.records.get tenantRef with
  | none => .error (unknownTenant tenantRef)
  | some existing =>
      match existing.deletedAt with
      | some _ => .error
          (.zatcaRegistryError ("Tenant '" ++ tenantRef ++ "' is already deleted.") .conflict)
      | none =>
          let record := { existing with state := .revoked, deletedAt := some now, updatedAt := now }
          .ok (record,⟨st.records.set tenantRef record⟩)

/-- A failed call leaves the store as it was. -/
def settle {β : Type} (st : MemoryTenantStore) (answer : TenantRecord → β) :
    Except Thrown (TenantRecord × MemoryTenantStore) → Except Thrown β × MemoryTenantStore
  | .ok (record,st') => (.ok (answer record),st')
  | .error e => (.error e,st)

/-- One method call; the choice is the reading of the clock and the reference that
`generateTenantRef` draws. -/
def handle : Handler TenantStore Thrown MemoryTenantStore (Date × String)
  | .create input, (now,generated), st => st.settle id (st.create now generated input)
  | .get tenantRef, _, st => (.ok (st.get tenantRef),st)
  | .patch tenantRef patch, (now,_), st =>
      st.settle id (st.update tenantRef (fun r => .ok (r.patched patch now)))
  | .setState tenantRef next options, (now,_), st =>
      st.settle id (st.update tenantRef (fun r => r.transition tenantRef next options now))
  | .recordOnboardingProgress tenantRef scenario passed, (now,_), st =>
      st.settle (fun _ => ())
        (st.update tenantRef (fun r => .ok (r.withProgress scenario passed now)))
  | .setProductionExpiry tenantRef expiresAt, (now,_), st =>
      st.settle (fun _ => ()) (st.update tenantRef (fun r =>
        .ok { r with productionCertificateExpiresAt := some expiresAt, updatedAt := now }))
  | .softDelete tenantRef, (now,_), st => st.settle (fun _ => ()) (st.softDelete now tenantRef)

end MemoryTenantStore

/-- The call puts the record under the reference. -/
inductive TenantWrite (st : MemoryTenantStore) (now : Date) (generated : String) :
    TenantOp → String → TenantRecord → Prop
  | create (input : CreateTenantInput) :
      st.records.get (input.tenantRef.getD generated) = none →
      TenantWrite st now generated (.create input) (input.tenantRef.getD generated)
        (MemoryTenantStore.newRecord (input.tenantRef.getD generated) input now)
  | patch {tenantRef : String} {r : TenantRecord} (patch : PatchableTenantFields) :
      st.get tenantRef = some r →
      TenantWrite st now generated (.patch tenantRef patch) tenantRef (r.patched patch now)
  | setState {tenantRef : String} {r r' : TenantRecord} (next : TenantState)
      (options : SetStateOptions) : st.get tenantRef = some r →
      r.transition tenantRef next options now = .ok r' →
      TenantWrite st now generated (.setState tenantRef next options) tenantRef r'
  | progress {tenantRef : String} {r : TenantRecord} (scenario : String) (passed : Bool) :
      st.get tenantRef = some r →
      TenantWrite st now generated (.recordOnboardingProgress tenantRef scenario passed) tenantRef
        (r.withProgress scenario passed now)
  | expiry {tenantRef : String} {r : TenantRecord} (expiresAt : Date) :
      st.get tenantRef = some r →
      TenantWrite st now generated (.setProductionExpiry tenantRef expiresAt) tenantRef
        { r with productionCertificateExpiresAt := some expiresAt, updatedAt := now }
  | softDelete {tenantRef : String} {r : TenantRecord} :
      st.records.get tenantRef = some r → r.deletedAt = none →
      TenantWrite st now generated (.softDelete tenantRef) tenantRef
        { r with state := .revoked, deletedAt := some now, updatedAt := now }

namespace MemoryTenantStore

variable {st : MemoryTenantStore} {now : Date} {generated : String}

theorem get_eq_some {tenantRef : String} {r : TenantRecord} :
    st.get tenantRef = some r ↔ st.records.get tenantRef = some r ∧ r.deletedAt = none := by
  simp [get,Option.filter_eq_some_iff]

theorem get_set_self (st : MemoryTenantStore) (tenantRef : String) {r : TenantRecord}
    (h : r.deletedAt = none) : (mk (st.records.set tenantRef r)).get tenantRef = some r :=
  get_eq_some.2 ⟨JsMap.get_set_self _ _ _,h⟩

theorem get_set_ne (st : MemoryTenantStore) {tenantRef other : String} (r : TenantRecord)
    (h : other ≠ tenantRef) : (mk (st.records.set tenantRef r)).get other = st.get other := by
  unfold get
  rw [JsMap.get_set_ne _ _ h]

theorem settle_update {β : Type} (st : MemoryTenantStore) (answer : TenantRecord → β)
    (tenantRef : String) (f : TenantRecord → Except Thrown TenantRecord) :
    (∃ e, st.settle answer (st.update tenantRef f) = (.error e,st)) ∨
      ∃ r r', st.get tenantRef = some r ∧ f r = .ok r' ∧
        st.settle answer (st.update tenantRef f) = (.ok (answer r'),⟨st.records.set tenantRef r'⟩) := by
  unfold update
  cases hg : st.get tenantRef with
  | none => exact .inl ⟨_,rfl⟩
  | some r =>
    cases hf : f r with
    | error e => exact .inl ⟨e,by simp [hf,Except.map,settle]⟩
    | ok r' => exact .inr ⟨r,r',rfl,hf,by simp [hf,Except.map,settle]⟩

/-- A call fails, or reads, or writes one record. -/
theorem handle_cases (o : TenantOp) (now : Date) (generated : String) (st : MemoryTenantStore) :
    (∃ e, handle o (now,generated) st = (.error e,st)) ∨
      (∃ tenantRef, o = .get tenantRef ∧ (handle o (now,generated) st).2 = st) ∨
      ∃ a tenantRef r, TenantWrite st now generated o tenantRef r ∧
        handle o (now,generated) st = (.ok a,⟨st.records.set tenantRef r⟩) := by
  cases o with
  | get tenantRef => exact .inr (.inl ⟨tenantRef,rfl,rfl⟩)
  | create input =>
    simp only [handle,create]
    cases hg : st.records.get (input.tenantRef.getD generated) with
    | some r => exact .inl ⟨_,rfl⟩
    | none => exact .inr (.inr ⟨_,_,_,.create input hg,rfl⟩)
  | patch tenantRef patch =>
    rcases settle_update st id tenantRef (fun r => .ok (r.patched patch now)) with h | ⟨r,r',hg,hf,h⟩
    · exact .inl h
    · cases hf
      exact .inr (.inr ⟨_,_,_,.patch patch hg,h⟩)
  | setState tenantRef next options =>
    rcases settle_update st id tenantRef (fun r => r.transition tenantRef next options now) with
      h | ⟨r,r',hg,hf,h⟩
    · exact .inl h
    · exact .inr (.inr ⟨_,_,_,.setState next options hg hf,h⟩)
  | recordOnboardingProgress tenantRef scenario passed =>
    rcases settle_update st (fun _ => ()) tenantRef (fun r =>
      .ok (r.withProgress scenario passed now)) with h | ⟨r,r',hg,hf,h⟩
    · exact .inl h
    · cases hf
      exact .inr (.inr ⟨_,_,_,.progress scenario passed hg,h⟩)
  | setProductionExpiry tenantRef expiresAt =>
    rcases settle_update st (fun _ => ()) tenantRef (fun r =>
      .ok { r with productionCertificateExpiresAt := some expiresAt, updatedAt := now }) with
      h | ⟨r,r',hg,hf,h⟩
    · exact .inl h
    · cases hf
      exact .inr (.inr ⟨_,_,_,.expiry expiresAt hg,h⟩)
  | softDelete tenantRef =>
    simp only [handle,softDelete]
    cases hg : st.records.get tenantRef with
    | none => exact .inl ⟨_,rfl⟩
    | some r =>
      cases hd : r.deletedAt with
      | some d => exact .inl ⟨_,by simp only [hd]; rfl⟩
      | none => exact .inr (.inr ⟨_,_,_,.softDelete hg hd,by simp only [hd]; rfl⟩)

end MemoryTenantStore
end Zatca
