import Zatca.Server.Requests
import Zatca.Storage.Isolation
set_option autoImplicit false

/-! What any number of requests at once can do to each other: whom a call is made for, and whose
documents it touches. -/

namespace Zatca
open Interaction

/-! ### A reference stands for one tenant -/

/-- What a tenant is from its creation on. -/
structure TenantIdentity where
  tenantRef : String
  vatNumber : VATNumber
  egsUuid : EGSUuid
  environment : ZatcaEnvironment
  createdAt : Date
  deriving DecidableEq

def TenantIdentity.scope (i : TenantIdentity) : TenantScope := ⟨i.vatNumber.1,i.egsUuid.1⟩

theorem TenantIdentity.scope_isValid (i : TenantIdentity) : i.scope.isValid = true := by
  simp [TenantScope.isValid,scope,i.vatNumber.2,i.egsUuid.2]

def TenantRecord.identity (r : TenantRecord) : TenantIdentity :=
  ⟨r.tenantRef,r.vatNumber,r.egsUuid,r.environment,r.createdAt⟩

theorem TenantRecord.scope_identity (r : TenantRecord) : r.identity.scope = toTenantScope r := rfl

/-- The record under the reference, deleted or not, is of this tenant. -/
def MemoryTenantStore.Binds (st : MemoryTenantStore) (tenantRef : String) (i : TenantIdentity) : Prop :=
  (st.records.get tenantRef).map TenantRecord.identity = some i

theorem MemoryTenantStore.Binds.unique {st : MemoryTenantStore} {tenantRef : String}
    {i i' : TenantIdentity} (h : st.Binds tenantRef i) (h' : st.Binds tenantRef i') : i = i' :=
  Option.some.inj (h.symm.trans h')

theorem MemoryTenantStore.binds_of_get {st : MemoryTenantStore} {tenantRef : String}
    {r r' : TenantRecord} (h : st.get tenantRef = some r) (hi : r'.identity = r.identity) :
    st.Binds tenantRef r'.identity := by
  rw [Binds,(get_eq_some.1 h).1,hi]
  rfl

/-- A record is written over one of the same tenant, or under a new reference. -/
theorem TenantWrite.identity {st : MemoryTenantStore} {now : Date} {generated tenantRef : String}
    {o : TenantOp} {r : TenantRecord} (h : TenantWrite st now generated o tenantRef r) :
    st.records.get tenantRef = none ∨ st.Binds tenantRef r.identity := by
  cases h with
  | create input hfree => exact .inl hfree
  | patch patch hg => exact .inr (MemoryTenantStore.binds_of_get hg rfl)
  | setState next options hg ht =>
    right
    have hbinds := MemoryTenantStore.binds_of_get hg rfl
    unfold TenantRecord.transition at ht
    split at ht
    · cases ht
      exact hbinds
    · split at ht
      · cases ht
        exact hbinds
      · cases ht
  | progress scenario passed hg => exact .inr (MemoryTenantStore.binds_of_get hg rfl)
  | expiry expiresAt hg => exact .inr (MemoryTenantStore.binds_of_get hg rfl)
  | softDelete hg hd =>
    right
    rw [MemoryTenantStore.Binds,hg]
    rfl

section step
variable {D : Deps} {o : ServerOp} {x : Choice} {w : World}

theorem binds_handle {tenantRef : String} {i : TenantIdentity} (h : w.tenants.Binds tenantRef i) :
    (World.handle D o x w).2.tenants.Binds tenantRef i := by
  cases o with
  | tenants o =>
    rcases World.handle_tenants_cases D o x w with ⟨e,hw⟩ | ⟨ref,-,hw⟩ | ⟨a,ref,r,hwrite,hw⟩
    · rw [hw]
      exact h
    · rw [hw]
      exact h
    · rw [hw]
      rw [MemoryTenantStore.Binds,JsMap.get_set]
      split
      · rename_i href
        subst href
        rcases hwrite.identity with hfree | hbinds
        · rw [MemoryTenantStore.Binds,hfree] at h
          cases h
        · exact congrArg some (hbinds.unique h)
      · exact h
  | _ =>
    rw [(World.handle_frame D _ x w).tenants (by simp [ServerOp.store])]
    exact h

/-- A record that a call reads is of the tenant that the reference stands for. -/
theorem binds_of_answer {tenantRef : String} {r : TenantRecord}
    (h : (World.handle D (.tenants (.get tenantRef)) x w).1 = .ok (some r)) :
    w.tenants.Binds tenantRef r.identity :=
  MemoryTenantStore.binds_of_get (World.get_of_answer h) rfl

end step

/-! ### Whose documents a call touches -/

def CallerPhase.caller : CallerPhase → Caller
  | .admin header about onboards => .admin header about onboards
  | .tenant tenantRef _ => .tenant tenantRef

@[simp] theorem Caller.caller_phase (c : Caller) : c.phase.caller = c := by
  cases c with
  | admin header about onboards => rfl
  | tenant tenantRef => rfl

theorem authority_next_caller (D : Deps) (s : CallerPhase) (o : ServerOp)
    (a : Except Thrown (ServerOp.Ret o)) : ((authority D).next s o a).caller = s.caller := by
  cases s with
  | admin header about onboards => rfl
  | tenant tenantRef phase => rfl

/-- The tenant that a request has read. -/
def TenantPhase.tenant? : TenantPhase → Option TenantRecord
  | .found _ tenant | .ready _ tenant _ => some tenant
  | _ => none

/-- A request learns of a tenant from the registry only. -/
theorem TenantPhase.tenant?_next {tenantRef : String} {phase : TenantPhase} {o : ServerOp}
    {a : Except Thrown (ServerOp.Ret o)} {R : Runtime} (ha : TenantCall R tenantRef phase o)
    {tenant : TenantRecord} (h : (phase.next tenantRef o a).tenant? = some tenant) :
    phase.tenant? = some tenant ∨
      (⟨o,a⟩ : (o : ServerOp) × Except Thrown (ServerOp.Ret o)) =
        ⟨.tenants (.get tenantRef),.ok (some tenant)⟩ := by
  cases ha with
  | resolve bearer =>
    cases a with
    | error e => cases h
    | ok key =>
      cases key with
      | none => cases h
      | some key =>
        simp only [next] at h
        split at h
        · cases h
        · cases h
  | tenant =>
    cases a with
    | error e => cases h
    | ok record =>
      cases record with
      | none => cases h
      | some record =>
        simp only [next] at h
        split at h
        · cases h
          exact .inr rfl
        · cases h
  | vault =>
    cases a with
    | error e => exact .inl h
    | ok signing =>
      cases signing with
      | none => exact .inl h
      | some signing => exact .inl h
  | storage _ | idempotency _ | http _ | audit _ _ => exact .inl (by simpa [next] using h)

section binding
variable {D : Deps} {requests : Nat → ServerRequest} {c : ServerConfig Reply} {t : Nat → CallerPhase}
  {p : Nat} {o : ServerOp} {k : Except Thrown (ServerOp.Ret o) → Program Server Thrown Reply}
  {x : Choice}

/-- The call on the documents is for the tenant that is registered with their scope. -/
def ForItsTenant (requests : Nat → ServerRequest) (st : MemoryTenantStore) (e : ServerEvent) : Prop :=
  ∀ o, e.op = .storage o → ∃ tenantRef i, (requests e.pid).caller = .tenant tenantRef ∧
    st.Binds tenantRef i ∧ o.scope = i.scope

structure BindingInv (requests : Nat → ServerRequest) (c : ServerConfig Reply)
    (t : Nat → CallerPhase) : Prop where
  callers : ∀ q, (t q).caller = (requests q).caller
  known : ∀ q tenantRef phase tenant, t q = .tenant tenantRef phase → phase.tenant? = some tenant →
    c.shared.tenants.Binds tenantRef tenant.identity
  stored : ∀ e ∈ c.history, ForItsTenant requests c.shared.tenants e

theorem callers_step (h : ∀ q, (t q).caller = (requests q).caller)
    (a : Except Thrown (ServerOp.Ret o)) (q : Nat) :
    (Function.update t p ((authority D).next (t p) o a) q).caller = (requests q).caller := by
  rw [Function.update_apply]
  split
  · rename_i hq
    rw [hq,authority_next_caller,h]
  · exact h q

theorem bindingInv_step (h : BindingInv requests c t) (ha : (authority D).allows (t p) o) :
    BindingInv requests (c.after (World.handle D) p o k x)
      (Function.update t p ((authority D).next (t p) o (World.handle D o x c.shared).1)) := by
  have hkept (q : Nat) (tenantRef : String) (phase : TenantPhase) (tenant : TenantRecord)
      (hq : t q = .tenant tenantRef phase) (ht : phase.tenant? = some tenant) :
      (World.handle D o x c.shared).2.tenants.Binds tenantRef tenant.identity :=
    binds_handle (h.known q tenantRef phase tenant hq ht)
  constructor
  · exact callers_step h.callers _
  · intro q tenantRef phase tenant hq ht
    rw [Function.update_apply] at hq
    split at hq
    · cases htp : t p with
      | admin header about onboards =>
        rw [htp] at hq
        cases hq
      | tenant ref phase₀ =>
        rw [htp] at hq ha
        cases hq
        rcases TenantPhase.tenant?_next ha ht with hold | hread
        · exact hkept p tenantRef phase₀ tenant htp hold
        · obtain ⟨rfl,hread⟩ := Sigma.mk.inj hread
          exact binds_handle (binds_of_answer (eq_of_heq hread))
    · exact hkept q tenantRef phase tenant hq ht
  · intro e he so hso
    rcases List.mem_cons.1 he with rfl | he
    · simp only at hso
      subst hso
      cases htp : t p with
      | admin header about onboards =>
        rw [htp] at ha
        rcases ha with hslot | ⟨actor,-,hcall⟩
        · cases hslot
        · cases hcall
      | tenant tenantRef phase =>
        rw [htp] at ha
        have hcaller := h.callers p
        rw [htp] at hcaller
        cases ha with
        | @storage tokenId tenant signing o hscope =>
          exact ⟨tenantRef,tenant.identity,hcaller.symm,hkept p tenantRef _ tenant htp rfl,hscope⟩
    · obtain ⟨tenantRef,i,hcaller,hbinds,hscope⟩ := h.stored e he so hso
      exact ⟨tenantRef,i,hcaller,binds_handle hbinds,hscope⟩

theorem startRequests_phase (q : Nat) (tenantRef : String) (phase : TenantPhase)
    (h : (requests q).caller.phase = .tenant tenantRef phase) : phase = .anonymous := by
  cases hc : (requests q).caller with
  | admin header about onboards =>
    rw [hc] at h
    cases h
  | tenant ref =>
    rw [hc] at h
    cases h
    rfl

/-- Whatever the requests are and however they interleave, each call on the documents is made for a
tenant, and on the scope that this tenant is registered with. -/
theorem stored_forItsTenant {w₀ : World} {ok : ServerConfig Reply → Nat → Choice → Prop}
    (hc : Reach (World.handle D) ok (startRequests D w₀ requests) c) :
    ∀ e ∈ c.history, ForItsTenant requests c.shared.tenants e := by
  obtain ⟨t,hinv,-⟩ := @Typestate.reach_invariant _ _ _ _ _ _ (authority D) (fun _ _ => True) _ _ _
    _ (BindingInv requests) (fun q => (requests q).caller.phase)
    { callers := fun q => Caller.caller_phase _
      known := fun q tenantRef phase tenant hq ht => by
        rw [startRequests_phase q tenantRef phase hq] at ht
        cases ht
      stored := fun e he => by simp [startRequests] at he }
    (fun q => serverRequest_conforms D (requests q))
    (fun c t p x o k h _ _ ha _ => bindingInv_step h ha) hc
  exact hinv.stored

end binding

/-! ### The ledger of a tenant -/

/-- The calls, the newest first, account for the ledger: each was answered as the ledger of the
calls before it answers, or failed of its own accord and did nothing. -/
inductive Accounts (format : InvoiceNumberFormatter) (l₀ : Ledger) : List ServerEvent → Ledger → Prop
  | nil : Accounts format l₀ [] l₀
  | served {p : Nat} {o : StorageOp} {w w' : World} {es : List ServerEvent} {l : Ledger} :
      Accounts format l₀ es l →
      Accounts format l₀ (⟨p,.storage o,(Ledger.handle format o w'.now l).1,w,w'⟩ :: es)
        (Ledger.handle format o w'.now l).2
  | failed {p : Nat} {o : StorageOp} {e : Thrown} {w w' : World} {es : List ServerEvent} {l : Ledger} :
      Accounts format l₀ es l → Accounts format l₀ (⟨p,.storage o,.error e,w,w'⟩ :: es) l

def onScope (scope : TenantScope) (e : ServerEvent) : Bool :=
  match e.op with
  | .storage o => o.scope = scope
  | _ => false

/-- The calls that the requests of the tenant made on documents. -/
def ownStorage (requests : Nat → ServerRequest) (tenantRef : String) (e : ServerEvent) : Bool :=
  e.op.store = some .storage && (requests e.pid).caller = .tenant tenantRef

theorem onScope_of_store {scope : TenantScope} {e : ServerEvent} (h : e.op.store ≠ some .storage) :
    onScope scope e = false := by
  unfold onScope
  split
  · rename_i o ho
    rw [ho] at h
    exact absurd rfl h
  · rfl

/-- The new call of a scope is served by the scope's ledger, or fails. -/
theorem accounts_storage {D : Deps} {l₀ : Ledger} {es : List ServerEvent} {scope : TenantScope}
    (hscope : scope.isValid = true) (p : Nat) {o : StorageOp} (ho : o.scope.isValid = true) (x : Choice)
    (w : World) (h : Accounts D.format l₀ es (w.storage.ledger (scopeKey scope))) :
    Accounts D.format l₀ (if o.scope = scope then
        ⟨p,.storage o,(World.handle D (.storage o) x w).1,w,(World.handle D (.storage o) x w).2⟩ :: es
      else es) ((World.handle D (.storage o) x w).2.storage.ledger (scopeKey scope)) := by
  rcases World.handle_cases D (.storage o) x w with ⟨e,-,-,hw⟩ | hw
  · rw [hw]
    split
    · exact .failed h
    · exact h
  · rw [hw]
    have hledger := MemoryStorage.handle_ledger D.format w.storage x.now o
    split
    · rename_i hs
      subst hs
      simp only [World.serve,hledger.1,hledger.2,if_true]
      exact @Accounts.served D.format l₀ p o w
        (World.serve D (.storage o) x { w with now := x.now }).2 es _ h
    · rename_i hs
      have hkey : scopeKey scope ≠ scopeKey o.scope := by
        intro hkey
        exact hs (scopeKey_inj hscope ho hkey).symm
      simp only [World.serve,hledger.2,if_neg hkey]
      exact h

section ledger
variable {D : Deps} {requests : Nat → ServerRequest} {w₀ : World} {c : ServerConfig Reply}
  {ok : ServerConfig Reply → Nat → Choice → Prop}

/-- The ledger of a scope is what the calls on the scope have made of it. -/
theorem scopeLedger_accounts (hc : Reach (World.handle D) ok (startRequests D w₀ requests) c)
    {scope : TenantScope} (hscope : scope.isValid = true) :
    Accounts D.format (w₀.storage.ledger (scopeKey scope)) (c.history.filter (onScope scope))
      (c.shared.storage.ledger (scopeKey scope)) := by
  induction hc with
  | init => exact .nil
  | @step c c' p x hreach hok hs ih =>
    have hfor := stored_forItsTenant (.step hreach hok hs)
    obtain ⟨o,k,hp,rfl⟩ := Config.step_eq_some hs
    by_cases ho : o.store = some .storage
    · cases o with
      | storage o =>
        obtain ⟨tenantRef,i,-,-,hi⟩ := hfor _ List.mem_cons_self o rfl
        have hvalid : o.scope.isValid = true := hi ▸ i.scope_isValid
        have hstep := accounts_storage hscope p hvalid x c.shared ih
        simp only [Config.after,List.filter_cons,onScope,decide_eq_true_eq]
        exact hstep
      | _ => cases ho
    · simp only [Config.after]
      rw [List.filter_cons_of_neg (by rw [onScope_of_store ho]; exact Bool.false_ne_true),
        (World.handle_frame D o x c.shared).storage ho]
      exact ih

end ledger

namespace Sample

/-- Another branch of the same business. -/
def malazBody : CreateTenantBody where
  tenantRef := some ⟨"malaz",by decide⟩
  vatNumber := scope.vatNumber
  egsUuid := "00000000-0000-4000-8000-000000000002"
  vatName := "Dokhna"
  crn := "1010010000"
  branchName := "Malaz"
  location
  environment := .production

/-- A document of one branch, while another is being registered. -/
def issueAndCreate : Nat → ServerRequest
  | 0 => .issueInvoice (issueRequest none)
  | _ + 1 => .createTenant (some "Bearer admin") (some malazBody)

end Sample

end Zatca
