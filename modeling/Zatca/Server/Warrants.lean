import Zatca.Server.Authority
import Zatca.Server.DeletedKeys
set_option autoImplicit false

/-! The chain of authority behind a call: what a tenant's request does goes back, through what it
read and the bearer it presented, to a key that an administrator had made for this tenant. -/

namespace Zatca
open Interaction

section warrants
variable (D : Deps) (requests : Nat → ServerRequest)

/-- A request whose header names an administrator has the key made for the tenant. -/
inductive IssuesKey (tenantRef tokenId : String) : ServerEvent → Prop
  | mk {q : Nat} {header : Option String} {actor : AuditActor} {label token : String} {w w' : World} :
      (requests q).caller = .admin header (some tenantRef) false → adminFor D header = .ok actor →
      IssuesKey tenantRef tokenId ⟨q,.apiKeys (.issue tenantRef label),.ok ⟨token,tokenId⟩,w,w'⟩

inductive ResolvesKey (p : Nat) (tenantRef tokenId : String) : ServerEvent → Prop
  | mk {bearer : String} {w w' : World} : ResolvesKey p tenantRef tokenId
      ⟨p,.apiKeys (.resolve bearer),.ok (some ⟨tenantRef,tokenId⟩),w,w'⟩

inductive ReadsReady (p : Nat) (tenantRef : String) (tenant : TenantRecord) : ServerEvent → Prop
  | mk {w w' : World} : tenant.state = .productionReady →
      ReadsReady p tenantRef tenant ⟨p,.tenants (.get tenantRef),.ok (some tenant),w,w'⟩

inductive OpensVault (p : Nat) (tenantRef : String) (signing : SignerMaterial) : ServerEvent → Prop
  | mk {w w' : World} :
      OpensVault p tenantRef signing ⟨p,.vault (.get tenantRef),.ok (some signing),w,w'⟩

/-- What must have happened for a tenant's request to have come this far, the last first. -/
def TenantPhase.chain (p : Nat) (tenantRef : String) : TenantPhase → List (ServerEvent → Prop)
  | .anonymous => []
  | .resolved tokenId => [ResolvesKey p tenantRef tokenId,IssuesKey D requests tenantRef tokenId]
  | .found tokenId tenant => [ReadsReady p tenantRef tenant,ResolvesKey p tenantRef tokenId,
      IssuesKey D requests tenantRef tokenId]
  | .ready tokenId tenant signing => [OpensVault p tenantRef signing,ReadsReady p tenantRef tenant,
      ResolvesKey p tenantRef tokenId,IssuesKey D requests tenantRef tokenId]

/-- The call is within the authority of its caller, which the calls before it bear out. -/
def Warranted (e : ServerEvent) (before : List ServerEvent) : Prop :=
  match (requests e.pid).caller with
  | .admin header about onboards =>
      e.op.isSlot ∨ ∃ actor, adminFor D header = .ok actor ∧ AdminCall actor about onboards e.op
  | .tenant tenantRef => ∃ phase, TenantCall D.runtime tenantRef phase e.op ∧
      InOrder (phase.chain D requests e.pid tenantRef) before

/-- Each key in the store was made for its tenant on behalf of an administrator. -/
def KeysIssued (st : MemoryApiKeyStore) (history : List ServerEvent) : Prop :=
  ∀ id row, st.rows.get id = some row →
    ∃ e ∈ history, IssuesKey D requests row.tenantRef row.tokenId e

structure WarrantInv (c : ServerConfig Reply) (t : Nat → CallerPhase) : Prop where
  callers : ∀ q, (t q).caller = (requests q).caller
  keys : KeysIssued D requests c.shared.apiKeys c.history
  chains : ∀ q tenantRef phase, t q = .tenant tenantRef phase →
    InOrder (phase.chain D requests q tenantRef) c.history
  calls : ∀ after e before, c.history = after ++ e :: before → Warranted D requests e before

end warrants

section keys
variable {D : Deps} {requests : Nat → ServerRequest} {history : List ServerEvent}
  {st : MemoryApiKeyStore}

theorem KeysIssued.cons (h : KeysIssued D requests st history) (e : ServerEvent) :
    KeysIssued D requests st (e :: history) := by
  intro id row hrow
  obtain ⟨e',he',hissue⟩ := h id row hrow
  exact ⟨e',List.mem_cons_of_mem e he',hissue⟩

/-- A row that keeps the tenant and the name of one that is there. -/
theorem KeysIssued.set (h : KeysIssued D requests st history) {id id' : String} {row row' : ApiKeyRow}
    (hrow : st.rows.get id = some row) (href : row'.tenantRef = row.tenantRef)
    (hid : row'.tokenId = row.tokenId) : KeysIssued D requests ⟨st.rows.set id' row'⟩ history := by
  intro other r hr
  simp only [JsMap.get_set] at hr
  split at hr
  · cases hr
    rw [href,hid]
    exact h id row hrow
  · exact h other r hr

/-- The calls that do not issue keep the rows, up to their times. -/
theorem KeysIssued.handle (h : KeysIssued D requests st history) (O : MemoryApiKeyStore.Options)
    (o : ApiKeyOp) (x : Date × TokenDraw) (ho : ∀ tenantRef label, o ≠ .issue tenantRef label) :
    KeysIssued D requests (MemoryApiKeyStore.handle O o x st).2 history := by
  obtain ⟨now,draw⟩ := x
  cases o with
  | issue tenantRef label => exact absurd rfl (ho tenantRef label)
  | resolve presentedToken =>
    simp only [MemoryApiKeyStore.handle,MemoryApiKeyStore.resolve]
    split
    · exact h
    · split
      · exact h
      · split
        · exact h
        · rename_i row hfind
          obtain ⟨id,hrow⟩ := JsMap.mem_values_iff.1 (List.mem_of_find?_eq_some hfind)
          exact h.set hrow rfl rfl
  | revoke tenantRef tokenId =>
    simp only [MemoryApiKeyStore.handle,MemoryApiKeyStore.revoke]
    split
    · exact h
    · rename_i row hrow
      split
      · exact h
      · exact h.set hrow rfl rfl
  | revokeAllForTenant tenantRef =>
    intro id row hrow
    simp only [MemoryApiKeyStore.handle,get_revokeAll,Option.map_eq_some_iff] at hrow
    obtain ⟨old,hold,rfl⟩ := hrow
    split
    · exact h id old hold
    · exact h id old hold

/-- The key that a call issues. -/
theorem KeysIssued.issue (h : KeysIssued D requests st history) (O : MemoryApiKeyStore.Options)
    (now : Date) (draw : TokenDraw) {tenantRef label : String} {e : ServerEvent}
    (he : IssuesKey D requests tenantRef draw.tokenId e) :
    KeysIssued D requests (st.issue O now draw tenantRef label).2 (e :: history) := by
  intro id row hrow
  simp only [MemoryApiKeyStore.issue,JsMap.get_set] at hrow
  split at hrow
  · cases hrow
    exact ⟨e,List.mem_cons_self,he⟩
  · exact h.cons e id row hrow

/-- What a bearer resolves to is a row of the store. -/
theorem KeysIssued.resolved (h : KeysIssued D requests st history) {O : MemoryApiKeyStore.Options}
    {now : Date} {bearer : String} {key : ResolvedApiKey}
    (hr : (st.resolve O now bearer).1 = some key) :
    ∃ e ∈ history, IssuesKey D requests key.tenantRef key.tokenId e := by
  unfold MemoryApiKeyStore.resolve at hr
  split at hr
  · cases hr
  · split at hr
    · cases hr
    · split at hr
      · cases hr
      · rename_i row hfind
        cases hr
        obtain ⟨id,hrow⟩ := JsMap.mem_values_iff.1 (List.mem_of_find?_eq_some hfind)
        exact h id row hrow

end keys

section invariant
variable {D : Deps} {requests : Nat → ServerRequest} {c : ServerConfig Reply} {t : Nat → CallerPhase}
  {p : Nat} {o : ServerOp} {k : Except Thrown (ServerOp.Ret o) → Program Server Thrown Reply}
  {x : Choice}

/-- Keys are issued for administrators only. -/
theorem issuesKey_of_allows {tenantRef label : String}
    (ha : (authority D).allows (t p) (.apiKeys (.issue tenantRef label))) :
    ∃ header actor, t p = .admin header (some tenantRef) false ∧ adminFor D header = .ok actor := by
  cases htp : t p with
  | admin header about onboards =>
    rw [htp] at ha
    rcases ha with hslot | ⟨actor,hactor,hcall⟩
    · cases hslot
    · cases hcall
      exact ⟨header,actor,rfl,hactor⟩
  | tenant ref phase =>
    rw [htp] at ha
    cases ha

theorem keysIssued_step (h : WarrantInv D requests c t) (ha : (authority D).allows (t p) o) :
    KeysIssued D requests (World.handle D o x c.shared).2.apiKeys
      (⟨p,o,(World.handle D o x c.shared).1,c.shared,(World.handle D o x c.shared).2⟩ :: c.history) := by
  by_cases ho : o.store = some .apiKeys
  · cases o with
    | apiKeys o =>
      rcases World.handle_cases D (.apiKeys o) x c.shared with ⟨e,-,-,hw⟩ | hw
      · rw [hw]
        exact h.keys.cons _
      · rw [hw]
        cases o with
        | issue tenantRef label =>
          obtain ⟨header,actor,hp,hactor⟩ := issuesKey_of_allows ha
          have hcaller := h.callers p
          rw [hp] at hcaller
          exact h.keys.issue D.apiKeys x.now x.token (.mk hcaller.symm hactor)
        | _ => exact (h.keys.handle D.apiKeys _ (x.now,x.token) (by simp)).cons _
    | _ => cases ho
  · rw [(World.handle_frame D o x c.shared).apiKeys ho]
    exact h.keys.cons _

/-- A step forward of a tenant's request is borne out by the answer that it takes. -/
theorem chain_next {tenantRef : String} {phase : TenantPhase} (h : WarrantInv D requests c t)
    (ha : TenantCall D.runtime tenantRef phase o)
    (hchain : InOrder (phase.chain D requests p tenantRef) c.history) :
    InOrder ((phase.next tenantRef o (World.handle D o x c.shared).1).chain D requests p tenantRef)
      (⟨p,o,(World.handle D o x c.shared).1,c.shared,(World.handle D o x c.shared).2⟩ :: c.history) := by
  have hmore (e : ServerEvent) : InOrder (phase.chain D requests p tenantRef) (e :: c.history) :=
    hchain.cons e
  cases ha with
  | resolve bearer =>
    rcases World.handle_cases D (.apiKeys (.resolve bearer)) x c.shared with ⟨e,-,-,hw⟩ | hw
    · rw [hw]
      trivial
    · rw [hw]
      simp only [World.serve,MemoryApiKeyStore.handle]
      cases hr : (c.shared.apiKeys.resolve D.apiKeys x.now bearer).1 with
      | none => trivial
      | some key =>
        simp only [TenantPhase.next]
        split
        · rename_i href
          subst href
          exact (inOrder_singleton.2 (h.keys.resolved hr)).push .mk
        · trivial
  | tenant =>
    cases hr : (World.handle D (.tenants (.get tenantRef)) x c.shared).1 with
    | error e => exact hmore _
    | ok record =>
      cases record with
      | none => exact hmore _
      | some record =>
        simp only [TenantPhase.next]
        split
        · rename_i hready
          exact hchain.push (.mk hready)
        · exact hmore _
  | vault =>
    cases hr : (World.handle D (.vault (.get tenantRef)) x c.shared).1 with
    | error e => exact hmore _
    | ok signing =>
      cases signing with
      | none => exact hmore _
      | some signing => exact hchain.push .mk
  | storage _ | idempotency _ | http _ | audit _ _ => simpa [TenantPhase.next] using hmore _

theorem warranted_step (h : WarrantInv D requests c t) (ha : (authority D).allows (t p) o)
    (a : Except Thrown (ServerOp.Ret o)) (w w' : World) :
    Warranted D requests ⟨p,o,a,w,w'⟩ c.history := by
  have hcaller := h.callers p
  unfold Warranted
  cases htp : t p with
  | admin header about onboards =>
    rw [htp] at ha hcaller
    rw [show (requests p).caller = .admin header about onboards from hcaller.symm]
    exact ha
  | tenant tenantRef phase =>
    rw [htp] at ha hcaller
    rw [show (requests p).caller = .tenant tenantRef from hcaller.symm]
    exact ⟨phase,ha,h.chains p tenantRef phase htp⟩

theorem warrantInv_step (h : WarrantInv D requests c t) (ha : (authority D).allows (t p) o) :
    WarrantInv D requests (c.after (World.handle D) p o k x)
      (Function.update t p ((authority D).next (t p) o (World.handle D o x c.shared).1)) := by
  constructor
  · exact callers_step h.callers _
  · exact keysIssued_step h ha
  · intro q tenantRef phase hq
    rw [Function.update_apply] at hq
    split at hq
    · rename_i hqp
      subst hqp
      cases htp : t q with
      | admin header about onboards =>
        rw [htp] at hq
        cases hq
      | tenant ref phase₀ =>
        rw [htp] at hq ha
        cases hq
        exact chain_next h ha (h.chains q tenantRef phase₀ htp)
    · exact (h.chains q tenantRef phase hq).cons _
  · intro after e before he
    rcases List.cons_eq_append_iff.1 he with ⟨rfl,hcons⟩ | ⟨after',rfl,hrest⟩
    · obtain ⟨rfl,rfl⟩ := List.cons.inj hcons
      exact warranted_step h ha _ _ _
    · exact h.calls after' e before hrest

end invariant

/-- Whatever the requests are and however they interleave, each call that a request makes is within
the authority of its caller: an administrator's header was accepted, or a chain of earlier calls
leads from the tenant's request, its credentials and its record over the bearer that it presented to
a key that an administrator had made for this tenant. -/
theorem calls_warranted (D : Deps) (w₀ : World) (requests : Nat → ServerRequest)
    (c : ServerConfig Reply) (hkeys : w₀.apiKeys = .empty)
    (hc : Reach (World.handle D) (fun _ _ _ => True) (startRequests D w₀ requests) c)
    (after : List ServerEvent) (e : ServerEvent) (before : List ServerEvent)
    (he : c.history = after ++ e :: before) : Warranted D requests e before := by
  obtain ⟨t,hinv,-⟩ := @Typestate.reach_invariant _ _ _ _ _ _ (authority D) (fun _ _ => True) _ _ _
    _ (WarrantInv D requests) (fun q => (requests q).caller.phase)
    { callers := fun q => Caller.caller_phase _
      keys := fun id row hrow => by simp [startRequests,hkeys,MemoryApiKeyStore.empty] at hrow
      chains := fun q tenantRef phase hq => by
        rw [startRequests_phase q tenantRef phase hq]
        trivial
      calls := fun after e before he => by simp [startRequests] at he }
    (fun q => serverRequest_conforms D (requests q))
    (fun c t p x o k h _ _ ha _ => warrantInv_step h ha) hc
  exact hinv.calls after e before he

namespace Sample

/-- No key has been issued yet. -/
def keylessWorld : World := { world with apiKeys := .empty }

/-- A key is made for the tenant, and a document is asked for under it. -/
def keyThenRead : Nat → ServerRequest
  | 0 => .issueKey (some "Bearer admin") tenantRef (some "till")
  | _ + 1 => .getInvoice ⟨some ("Bearer " ++ token),tenantRef,"INV-1"⟩

def keyThenReadRun : List (Nat × Choice) := [0,0,0,1,1,1,1].map fun p => (p,newKey)

end Sample

theorem calls_warranted_of_a_reading : ∃ c e before,
    (startRequests Sample.deps Sample.keylessWorld Sample.keyThenRead).run
      (World.handle Sample.deps) (fun _ _ _ => True) Sample.keyThenReadRun = some c ∧
    c.history = [] ++ e :: before ∧ e.op = .storage (.loadInvoice Sample.scope "INV-1") ∧
    Warranted Sample.deps Sample.keyThenRead e before := by
  refine ⟨_,_,_,rfl,rfl,rfl,?_⟩
  exact calls_warranted Sample.deps Sample.keylessWorld Sample.keyThenRead _ rfl
    (Reach.of_run Sample.keyThenReadRun .init rfl) [] _ _ rfl

end Zatca
