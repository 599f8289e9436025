import Zatca.Core.Onboard
import Zatca.Library.Interleaving
import Zatca.Server.Idempotency
import Zatca.Server.Secrets
import Zatca.Storage.Ledger
set_option autoImplicit false
namespace Zatca
open Interaction

inductive AuditActor where
  | admin (label : String)
  | tenant (tenantRef tokenId : String)
  | system
  deriving DecidableEq, Repr

inductive AuditAction where
  | tenantCreated
  | tenantPatched
  | tenantSoftDeleted
  | tenantOnboarded
  | tenantCredentialsRotated
  | tenantUnlocked
  | tenantStateTransitioned
  | invoiceIssued
  | invoiceCancelled
  | invoiceStatusChecked
  | invoiceComplianceChecked
  | apiKeyIssued
  | apiKeyRevoked
  deriving DecidableEq, Repr

inductive AuditResult where
  | ok
  | error
  deriving DecidableEq, Repr

structure AuditEntryInput where
  actor : AuditActor
  tenantRef : Option String := none
  action : AuditAction
  targetId : Option String := none
  result : AuditResult
  zatcaRequestId : Option String := none
  deriving DecidableEq, Repr

structure AuditEntry extends AuditEntryInput where
  writtenAt : Date
  deriving DecidableEq, Repr

/-- Everything a route awaits, and the readings it takes of its process. -/
inductive ServerOp where
  | storage (o : StorageOp)
  | http (o : HttpOp)
  | crypto (o : CryptoOp)
  | tenants (o : TenantOp)
  | vault (o : VaultOp)
  | apiKeys (o : ApiKeyOp)
  | idempotency (o : IdempotencyOp)
  | audit (input : AuditEntryInput)
  /-- `Date.now()`. -/
  | clock
  /-- `tryAcquire` of the onboarding semaphore. -/
  | acquireSlot
  | releaseSlot
  deriving DecidableEq

abbrev ServerOp.Ret : ServerOp → Type
  | .storage o => o.Ret
  | .http o => o.Ret
  | .crypto o => o.Ret
  | .tenants o => o.Ret
  | .vault o => o.Ret
  | .apiKeys o => o.Ret
  | .idempotency o => o.Ret
  | .audit _ => Unit
  | .clock => Date
  | .acquireSlot => Bool
  | .releaseSlot => Unit

abbrev Server : Signature := ⟨ServerOp,ServerOp.Ret⟩

abbrev Server.storage : Signature.Hom StorageAdapter Server := ⟨.storage,fun _ r => r⟩
abbrev Server.http : Signature.Hom HttpClient Server := ⟨.http,fun _ r => r⟩

/-- Onboarding persists its progress on the tenant's record. -/
abbrev Server.onboardHost (tenantRef : String) : Signature.Hom OnboardHost Server where
  op
    | .http o => .http o
    | .crypto o => .crypto o
    | .onProgress event =>
        .tenants (.recordOnboardingProgress tenantRef event.scenarioName event.passed)
  ret
    | .http _, r => r
    | .crypto _, r => r
    | .onProgress _, r => r

/-- What the server is built from: its configuration and the parts that stand for other code. -/
structure Deps where
  runtime : Runtime
  builders : Builders
  invoiceTypeCode : InvoiceTypeCodeReader
  format : InvoiceNumberFormatter
  cipher : SecretCipher
  apiKeys : MemoryApiKeyStore.Options
  getExpiry : String → Except Thrown Date
  /-- `verifyHeader` of the admin keys: the label of the key in the header. -/
  adminVerifier : Option String → Except Thrown String
  idempotencyWindowMs : Int
  onboardingTimeoutMs : Nat
  onboardingMaxConcurrent : Nat
  instanceId : String

/-- The stores of one process, and the last reading of its clock. -/
structure World where
  now : Date
  storage : MemoryStorage
  tenants : MemoryTenantStore
  vault : MemoryCredentialVault
  apiKeys : MemoryApiKeyStore
  idempotency : MemoryIdempotencyStore
  audit : List AuditEntry
  onboardingInFlight : Nat

/-- What the environment decides about one call. -/
structure Choice where
  now : Date
  /-- The call fails of its own accord and does nothing. -/
  failure : Option Thrown := none
  /-- How a `fetch` settles. -/
  reply : Except Thrown Response := .error (.typeError "fetch failed")
  random : ℚ := 0
  /-- The key or the request that the command line prints. -/
  cryptoText : String := ""
  generatedRef : String := ""
  token : TokenDraw := ⟨"","",""⟩
  iv : Nat → String := fun _ => ""

namespace World

def empty (now : Date) : World where
  now
  storage := .empty
  tenants := .empty
  vault := .empty
  apiKeys := .empty
  idempotency := .empty
  audit := []
  onboardingInFlight := 0

def cryptoText (text : String) : (o : CryptoOp) → CryptoOp.Ret o
  | .ensureOpenssl => ()
  | .generateKeyPair => text
  | .generateCSR _ => text

variable (D : Deps)

/-- The calls that may fail of their own accord; a `fetch` settles as the environment says. -/
def fallible : ServerOp → Bool
  | .http _ | .clock | .acquireSlot | .releaseSlot => false
  | _ => true

/-- A call that does not fail of its own accord. -/
def serve : Handler Server Thrown World Choice
  | .storage o, x, w =>
      ((MemoryStorage.handle D.format o x.now w.storage).1,
        { w with storage := (MemoryStorage.handle D.format o x.now w.storage).2 })
  | .http (.fetch _ _), x, w => (x.reply,w)
  | .http .random, x, w => (.ok x.random,w)
  | .http (.sleep _), _, w => (.ok (),w)
  | .crypto o, x, w => (.ok (cryptoText x.cryptoText o),w)
  | .tenants o, x, w =>
      ((MemoryTenantStore.handle o (x.now,x.generatedRef) w.tenants).1,
        { w with tenants := (MemoryTenantStore.handle o (x.now,x.generatedRef) w.tenants).2 })
  | .vault o, x, w =>
      ((MemoryCredentialVault.handle D.cipher o x.iv w.vault).1,
        { w with vault := (MemoryCredentialVault.handle D.cipher o x.iv w.vault).2 })
  | .apiKeys o, x, w =>
      ((MemoryApiKeyStore.handle D.apiKeys o (x.now,x.token) w.apiKeys).1,
        { w with apiKeys := (MemoryApiKeyStore.handle D.apiKeys o (x.now,x.token) w.apiKeys).2 })
  | .idempotency o, x, w =>
      ((MemoryIdempotencyStore.handle o x.now w.idempotency).1,
        { w with idempotency := (MemoryIdempotencyStore.handle o x.now w.idempotency).2 })
  | .audit input, x, w => (.ok (),{ w with audit := w.audit ++ [⟨input,x.now⟩] })
  | .clock, x, w => (.ok x.now,w)
  | .acquireSlot, _, w =>
      if w.onboardingInFlight ≥ D.onboardingMaxConcurrent then (.ok false,w)
      else (.ok true,{ w with onboardingInFlight := w.onboardingInFlight + 1 })
  | .releaseSlot, _, w => (.ok (),{ w with onboardingInFlight := w.onboardingInFlight - 1 })

def handle : Handler Server Thrown World Choice
  | o, x, w =>
      match x.failure, fallible o with
      | some e, true => (.error e,{ w with now := x.now })
      | _, _ => serve D o x { w with now := x.now }

/-- A call fails of its own accord and does nothing, or is served. -/
theorem handle_cases (o : ServerOp) (x : Choice) (w : World) :
    (∃ e, x.failure = some e ∧ fallible o ∧ handle D o x w = (.error e,{ w with now := x.now })) ∨
      handle D o x w = serve D o x { w with now := x.now } := by
  cases hx : x.failure with
  | none => exact .inr (by simp [handle,hx])
  | some e =>
    cases ho : fallible o with
    | true => exact .inl ⟨e,rfl,rfl,by simp [handle,hx,ho]⟩
    | false => exact .inr (by simp [handle,hx,ho])

@[simp] theorem serve_now (o : ServerOp) (x : Choice) (w : World) :
    (serve D o x w).2.now = w.now := by
  cases o with
  | http o => cases o <;> rfl
  | acquireSlot =>
    simp only [serve]
    split <;> rfl
  | _ => rfl

@[simp] theorem handle_now (o : ServerOp) (x : Choice) (w : World) :
    (handle D o x w).2.now = x.now := by
  rcases handle_cases D o x w with ⟨e,-,-,h⟩ | h
  · rw [h]
  · rw [h,serve_now]

end World

abbrev ServerEvent := Event Server Thrown World
abbrev ServerConfig (α : Type) := Config Server Thrown α World

/-- The clock is not turned back. -/
def ClockKept {α : Type} (c : ServerConfig α) (_ : Nat) (x : Choice) : Prop :=
  c.shared.now.getTime ≤ x.now.getTime

instance {α : Type} (c : ServerConfig α) (p : Nat) (x : Choice) : Decidable (ClockKept c p x) := by
  unfold ClockKept
  infer_instance

/-- The stores that a call may change. -/
inductive StoreName where
  | storage
  | tenants
  | vault
  | apiKeys
  | idempotency
  deriving DecidableEq, Repr

def ServerOp.store : ServerOp → Option StoreName
  | .storage _ => some .storage
  | .tenants _ => some .tenants
  | .vault _ => some .vault
  | .apiKeys _ => some .apiKeys
  | .idempotency _ => some .idempotency
  | _ => none

/-- A call changes its own store only. -/
structure World.Frame (o : ServerOp) (w w' : World) : Prop where
  storage : o.store ≠ some .storage → w'.storage = w.storage
  tenants : o.store ≠ some .tenants → w'.tenants = w.tenants
  vault : o.store ≠ some .vault → w'.vault = w.vault
  apiKeys : o.store ≠ some .apiKeys → w'.apiKeys = w.apiKeys
  idempotency : o.store ≠ some .idempotency → w'.idempotency = w.idempotency

namespace World

variable (D : Deps)

theorem serve_frame (o : ServerOp) (x : Choice) (w : World) : Frame o w (serve D o x w).2 := by
  cases o with
  | http o => cases o <;> exact ⟨fun _ => rfl,fun _ => rfl,fun _ => rfl,fun _ => rfl,fun _ => rfl⟩
  | acquireSlot =>
    simp only [serve]
    split <;> exact ⟨fun _ => rfl,fun _ => rfl,fun _ => rfl,fun _ => rfl,fun _ => rfl⟩
  | storage o => exact ⟨fun h => absurd rfl h,fun _ => rfl,fun _ => rfl,fun _ => rfl,fun _ => rfl⟩
  | tenants o => exact ⟨fun _ => rfl,fun h => absurd rfl h,fun _ => rfl,fun _ => rfl,fun _ => rfl⟩
  | vault o => exact ⟨fun _ => rfl,fun _ => rfl,fun h => absurd rfl h,fun _ => rfl,fun _ => rfl⟩
  | apiKeys o => exact ⟨fun _ => rfl,fun _ => rfl,fun _ => rfl,fun h => absurd rfl h,fun _ => rfl⟩
  | idempotency o => exact ⟨fun _ => rfl,fun _ => rfl,fun _ => rfl,fun _ => rfl,fun h => absurd rfl h⟩
  | _ => exact ⟨fun _ => rfl,fun _ => rfl,fun _ => rfl,fun _ => rfl,fun _ => rfl⟩

theorem handle_frame (o : ServerOp) (x : Choice) (w : World) : Frame o w (handle D o x w).2 := by
  rcases handle_cases D o x w with ⟨e,-,-,h⟩ | h
  · rw [h]
    exact ⟨fun _ => rfl,fun _ => rfl,fun _ => rfl,fun _ => rfl,fun _ => rfl⟩
  · rw [h]
    have := serve_frame D o x { w with now := x.now }
    exact ⟨this.storage,this.tenants,this.vault,this.apiKeys,this.idempotency⟩

/-- A call on the registry fails, or reads, or writes one record. -/
theorem handle_tenants_cases (o : TenantOp) (x : Choice) (w : World) :
    (∃ e, handle D (.tenants o) x w = (.error e,{ w with now := x.now })) ∨
      (∃ tenantRef, o = .get tenantRef ∧
        handle D (.tenants o) x w = ((handle D (.tenants o) x w).1,{ w with now := x.now })) ∨
      ∃ a tenantRef r, TenantWrite w.tenants x.now x.generatedRef o tenantRef r ∧
        handle D (.tenants o) x w = (.ok a,
          { w with now := x.now, tenants := ⟨w.tenants.records.set tenantRef r⟩ }) := by
  rcases handle_cases D (.tenants o) x w with ⟨e,-,-,h⟩ | h
  · exact .inl ⟨e,h⟩
  · rw [h]
    simp only [serve]
    rcases MemoryTenantStore.handle_cases o x.now x.generatedRef w.tenants with
      ⟨e,hs⟩ | ⟨tenantRef,ho,hs⟩ | ⟨a,tenantRef,r,hw,hs⟩
    · exact .inl ⟨e,by rw [hs]⟩
    · exact .inr (.inl ⟨tenantRef,ho,by rw [hs]⟩)
    · exact .inr (.inr ⟨a,tenantRef,r,hw,by rw [hs]⟩)

theorem handle_clock (x : Choice) (w : World) : (handle D .clock x w).1 = .ok x.now := by
  rcases handle_cases D .clock x w with ⟨e,-,hf,-⟩ | hw
  · cases hf
  · rw [hw]
    rfl

variable {D}

/-- A record that was read is the one that is there. -/
theorem get_of_answer {x : Choice} {w : World} {tenantRef : String} {r : TenantRecord}
    (h : (handle D (.tenants (.get tenantRef)) x w).1 = .ok (some r)) :
    w.tenants.get tenantRef = some r := by
  rcases handle_cases D (.tenants (.get tenantRef)) x w with ⟨e,-,-,hw⟩ | hw
  · rw [hw] at h
    cases h
  · rw [hw] at h
    simp only [serve,MemoryTenantStore.handle] at h
    exact Except.ok.inj h

end World
end Zatca
