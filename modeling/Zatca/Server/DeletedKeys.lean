import Zatca.Server.AdminRoutes
import Zatca.Server.Fencing
set_option autoImplicit false

/-! Requests to delete a tenant, to issue a key and to revoke one, at the same time. A key is issued
after a check that the tenant is there, and nothing holds the tenant there until the key is written. -/

namespace Zatca
open Interaction

inductive KeyRequest where
  | delete (authHeader : Option String) (tenantRef : String)
  | issue (authHeader : Option String) (tenantRef : String) (body : Option String)
  | revoke (authHeader : Option String) (tenantRef tokenId : String)

namespace KeyRequest

def program (D : Deps) : KeyRequest → Program Server Thrown Reply
  | .delete authHeader tenantRef => deleteTenantRoute D passThroughUnitOfWork authHeader tenantRef
  | .issue authHeader tenantRef body =>
      issueKeyRoute D passThroughUnitOfWork authHeader tenantRef body
  | .revoke authHeader tenantRef tokenId =>
      revokeKeyRoute D passThroughUnitOfWork authHeader tenantRef tokenId

/-- The tenant that the request is to delete. -/
def deletes : KeyRequest → Option String
  | .delete _ tenantRef => some tenantRef
  | _ => none

end KeyRequest

/-- Every key of the tenant is revoked. -/
def NoLiveKey (tenantRef : String) (st : MemoryApiKeyStore) : Prop :=
  ∀ id row, st.rows.get id = some row → row.tenantRef = tenantRef → row.revokedAt.isSome = true

/-- The call has revoked the tenant's keys. -/
def revokesAll (tenantRef : String) : ServerEvent → Bool
  | ⟨_,.apiKeys (.revokeAllForTenant ref),.ok _,_,_⟩ => ref = tenantRef
  | _ => false

/-- The tenant that a call writes a new key for. -/
def ServerOp.issuesKeyFor : ServerOp → Option String
  | .apiKeys (.issue tenantRef _) => some tenantRef
  | _ => none

/-- What has been called since the request looked for the tenant. -/
def sinceFound (p : Nat) (tenantRef : String) (history : List ServerEvent) : List ServerEvent :=
  Event.since (S := Server) p (.tenants (.get tenantRef)) history

/-- A key is written only while the tenant's keys have not been revoked since the tenant was found. -/
def KeyedInTime (c : ServerConfig Reply) (p : Nat) (_ : Choice) : Prop :=
  ∀ o ∈ (c.procs p).nextOp, ∀ tenantRef ∈ ServerOp.issuesKeyFor o,
    ∀ e ∈ sinceFound p tenantRef c.history, revokesAll tenantRef e = false

instance (c : ServerConfig Reply) (p : Nat) (x : Choice) : Decidable (KeyedInTime c p x) := by
  unfold KeyedInTime
  infer_instance

/-! ### The stores -/

section keys
variable {O : MemoryApiKeyStore.Options} {st : MemoryApiKeyStore} {tenantRef : String}

theorem NoLiveKey.set (h : NoLiveKey tenantRef st) {id : String} {row : ApiKeyRow}
    (hrow : row.tenantRef = tenantRef → row.revokedAt.isSome = true) :
    NoLiveKey tenantRef ⟨st.rows.set id row⟩ := by
  intro id' row' hget
  by_cases hid : id' = id
  · subst hid
    rw [JsMap.get_set_self] at hget
    cases hget
    exact hrow
  · rw [JsMap.get_set_ne _ _ hid] at hget
    exact h id' row' hget

theorem get_revokeAll (now : Date) (ref id : String) :
    (st.revokeAllForTenant now ref).rows.get id = (st.rows.get id).map fun row =>
      if row.tenantRef = ref && row.revokedAt.isNone then { row with revokedAt := some now }
      else row :=
  JsMap.lookup_map_snd (μ := ApiKeyRow) (fun row : ApiKeyRow =>
    if row.tenantRef = ref && row.revokedAt.isNone then { row with revokedAt := some now }
    else row) id st.rows.entries

/-- Only a key that is issued to the tenant is live where none was. -/
theorem NoLiveKey.handle (h : NoLiveKey tenantRef st) (o : ApiKeyOp) (x : Date × TokenDraw)
    (ho : ∀ label, o ≠ .issue tenantRef label) :
    NoLiveKey tenantRef (MemoryApiKeyStore.handle O o x st).2 := by
  cases o with
  | issue ref label =>
    refine h.set fun href => ?_
    exact absurd (congrArg (ApiKeyOp.issue · label) href) (ho label)
  | resolve presentedToken =>
    simp only [MemoryApiKeyStore.handle,MemoryApiKeyStore.resolve]
    split
    · exact h
    · split
      · exact h
      · split
        · exact h
        · rename_i row hfind
          obtain ⟨id,hget⟩ := JsMap.mem_values_iff.1 (List.mem_of_find?_eq_some hfind)
          exact h.set (h id row hget)
  | revoke ref tokenId =>
    simp only [MemoryApiKeyStore.handle,MemoryApiKeyStore.revoke]
    split
    · exact h
    · split
      · exact h
      · exact h.set fun _ => rfl
  | revokeAllForTenant ref =>
    intro id row hget
    simp only [MemoryApiKeyStore.handle,get_revokeAll,Option.map_eq_some_iff] at hget
    obtain ⟨row',hrow',rfl⟩ := hget
    intro href
    split at href
    · rename_i hlive
      rw [if_pos hlive]
      rfl
    · rename_i hlive
      rw [if_neg hlive]
      exact h id row' hrow' href

/-- A tenant whose keys have all been revoked has none that is live. -/
theorem noLiveKey_revokeAll (now : Date) : NoLiveKey tenantRef
    (st.revokeAllForTenant now tenantRef) := by
  intro id row hget href
  rw [get_revokeAll,Option.map_eq_some_iff] at hget
  obtain ⟨row',-,rfl⟩ := hget
  split
  · rfl
  · rename_i hlive
    rw [if_neg hlive] at href
    cases hrevoked : row'.revokedAt with
    | some d => rfl
    | none => simp [href,hrevoked] at hlive

end keys

section stores
variable {D : Deps} {o : ServerOp} {x : Choice} {w : World} {tenantRef : String}

def ServerOp.createsTenant : ServerOp → Bool
  | .tenants (.create _) => true
  | _ => false

/-- A tenant that is not there does not come back. -/
theorem get_handle_of_none (hg : w.tenants.get tenantRef = none) (ho : o.createsTenant = false) :
    (World.handle D o x w).2.tenants.get tenantRef = none := by
  have hframe := World.handle_frame D o x w
  cases o with
  | tenants o =>
    rcases World.handle_tenants_cases D o x w with ⟨e,hw⟩ | ⟨ref,-,hw⟩ | ⟨a,ref,r',hwrite,hw⟩
    · rw [hw]
      exact hg
    · rw [hw]
      exact hg
    · rw [hw]
      have hother {r : TenantRecord} (hr : w.tenants.get ref = some r) : tenantRef ≠ ref := by
        rintro rfl
        rw [hg] at hr
        cases hr
      simp only
      cases hwrite with
      | create input _ => cases ho
      | patch patch hr => rw [MemoryTenantStore.get_set_ne _ _ (hother hr),hg]
      | setState next options hr _ => rw [MemoryTenantStore.get_set_ne _ _ (hother hr),hg]
      | progress scenario passed hr => rw [MemoryTenantStore.get_set_ne _ _ (hother hr),hg]
      | expiry expiresAt hr => rw [MemoryTenantStore.get_set_ne _ _ (hother hr),hg]
      | softDelete hr hd =>
        rw [MemoryTenantStore.get_set_ne _ _ (hother (MemoryTenantStore.get_eq_some.2 ⟨hr,hd⟩)),hg]
  | _ =>
    rw [hframe.tenants nofun]
    exact hg

/-- A tenant that a request deletes is not there any more. -/
theorem get_of_softDelete {u : Unit}
    (h : (World.handle D (.tenants (.softDelete tenantRef)) x w).1 = .ok u) :
    (World.handle D (.tenants (.softDelete tenantRef)) x w).2.tenants.get tenantRef = none := by
  rcases World.handle_tenants_cases D (.softDelete tenantRef) x w with
    ⟨e,hw⟩ | ⟨ref,ho,-⟩ | ⟨a,ref,r',hwrite,hw⟩
  · rw [hw] at h
    cases h
  · cases ho
  · rw [hw]
    cases hwrite with
    | softDelete hr hd => simp [MemoryTenantStore.get]

theorem noLiveKey_handle (h : NoLiveKey tenantRef w.apiKeys)
    (ho : o.issuesKeyFor ≠ some tenantRef) :
    NoLiveKey tenantRef (World.handle D o x w).2.apiKeys := by
  have hframe := World.handle_frame D o x w
  cases o with
  | apiKeys o =>
    rcases World.handle_cases D (.apiKeys o) x w with ⟨e,-,-,hw⟩ | hw
    · rw [hw]
      exact h
    · rw [hw]
      refine h.handle o _ fun label hlabel => ho ?_
      rw [hlabel]
      rfl
  | _ =>
    rw [hframe.apiKeys nofun]
    exact h

theorem noLiveKey_of_revokeAll {u : Unit}
    (h : (World.handle D (.apiKeys (.revokeAllForTenant tenantRef)) x w).1 = .ok u) :
    NoLiveKey tenantRef
      (World.handle D (.apiKeys (.revokeAllForTenant tenantRef)) x w).2.apiKeys := by
  rcases World.handle_cases D (.apiKeys (.revokeAllForTenant tenantRef)) x w with ⟨e,-,-,hw⟩ | hw
  · rw [hw] at h
    cases h
  · rw [hw]
    exact noLiveKey_revokeAll x.now

end stores

/-! ### The requests -/

/-- Where a request stands: a deletion before its first call, once the tenant is hidden and once the
keys are revoked; an issue before it looks for the tenant and once it has found it. -/
inductive KeyPhase where
  | delete (tenantRef : String)
  | hidden (tenantRef : String)
  | revoked (tenantRef : String)
  | issue (tenantRef : String)
  | found (tenantRef : String)
  | revoke (tenantRef : String)
  /-- A call has failed. -/
  | ended (deletes : Option String)

namespace KeyPhase

def ofRequest : KeyRequest → KeyPhase
  | .delete _ tenantRef => .delete tenantRef
  | .issue _ tenantRef _ => .issue tenantRef
  | .revoke _ tenantRef _ => .revoke tenantRef

def deletes : KeyPhase → Option String
  | .delete tenantRef | .hidden tenantRef | .revoked tenantRef => some tenantRef
  | .issue _ | .found _ | .revoke _ => none
  | .ended deletes => deletes

end KeyPhase

def keyTypestate : Typestate Server Thrown KeyPhase where
  allows
    | .delete tenantRef, o => o = .tenants (.softDelete tenantRef)
    | .hidden tenantRef, o => o = .apiKeys (.revokeAllForTenant tenantRef)
    | .revoked _, o => ∃ input, o = .audit input
    | .issue tenantRef, o => o = .tenants (.get tenantRef)
    | .found tenantRef, o => (∃ label, o = .apiKeys (.issue tenantRef label)) ∨ ∃ input, o = .audit input
    | .revoke tenantRef, o =>
        (∃ tokenId, o = .apiKeys (.revoke tenantRef tokenId)) ∨ ∃ input, o = .audit input
    | .ended _, _ => False
  next
    | .delete tenantRef, .tenants (.softDelete _), .ok _ => .hidden tenantRef
    | .hidden tenantRef, .apiKeys (.revokeAllForTenant _), .ok _ => .revoked tenantRef
    | .revoked tenantRef, .audit _, .ok _ => .revoked tenantRef
    | .issue tenantRef, .tenants (.get _), .ok (some _) => .found tenantRef
    | .found tenantRef, _, _ => .found tenantRef
    | .revoke tenantRef, _, _ => .revoke tenantRef
    | s, _, _ => .ended s.deletes

/-- A deletion that returns has revoked the keys. -/
def DeletionDone : Except Thrown Reply → KeyPhase → Prop
  | .ok _, s => ∀ tenantRef, s.deletes = some tenantRef → s = .revoked tenantRef
  | .error _, _ => True

theorem keyRequest_conforms (D : Deps) (request : KeyRequest) :
    keyTypestate.Conforms DeletionDone (request.program D) (.ofRequest request) := by
  cases request with
  | delete authHeader tenantRef =>
    simp only [KeyRequest.program,deleteTenantRoute,passThroughUnitOfWork,deleteBatch,Program.bind_eq,
      Program.ofExcept_bind,Program.perform,Program.call_bind]
    cases adminFor D authHeader with
    | error e => trivial
    | ok actor =>
      refine Typestate.conforms_call.2 ⟨rfl,fun a => ?_⟩
      cases a with
      | error e => trivial
      | ok u =>
        refine Typestate.conforms_call.2 ⟨rfl,fun a => ?_⟩
        cases a with
        | error e => trivial
        | ok u =>
          refine Typestate.conforms_call.2 ⟨⟨_,rfl⟩,fun a => ?_⟩
          cases a with
          | error e => trivial
          | ok u => exact fun ref href => congrArg KeyPhase.revoked (Option.some.inj href)
  | issue authHeader tenantRef body =>
    simp only [KeyRequest.program,issueKeyRoute,passThroughUnitOfWork,UnitOfWork.perform,
      Program.embed_refl,issueKeyBatch,Program.bind_eq,Program.ofExcept_bind]
    cases adminFor D authHeader with
    | error e => trivial
    | ok actor =>
      cases body with
      | none => trivial
      | some label =>
        refine Typestate.conforms_call.2 ⟨rfl,fun a => ?_⟩
        cases a with
        | error e => trivial
        | ok tenant =>
          cases tenant with
          | none => trivial
          | some r =>
            refine Typestate.conforms_call.2 ⟨.inl ⟨_,rfl⟩,fun a => ?_⟩
            cases a with
            | error e => trivial
            | ok issued =>
              refine Typestate.conforms_call.2 ⟨.inr ⟨_,rfl⟩,fun a => ?_⟩
              cases a with
              | error e => trivial
              | ok u =>
                intro ref href
                cases href
  | revoke authHeader tenantRef tokenId =>
    simp only [KeyRequest.program,revokeKeyRoute,passThroughUnitOfWork,revokeKeyBatch,Program.bind_eq,
      Program.ofExcept_bind]
    cases adminFor D authHeader with
    | error e => trivial
    | ok actor =>
      refine Typestate.conforms_call.2 ⟨.inl ⟨_,rfl⟩,fun a => ?_⟩
      cases a with
      | error e => trivial
      | ok revoked =>
        cases revoked with
        | false => trivial
        | true =>
          refine Typestate.conforms_call.2 ⟨.inr ⟨_,rfl⟩,fun a => ?_⟩
          cases a with
          | error e => trivial
          | ok u =>
            intro ref href
            cases href

/-! ### All requests together -/

/-- What the deletions have brought about, and how far the issues are behind them. -/
structure KeyInv (requests : Nat → KeyRequest) (c : ServerConfig Reply) (t : Nat → KeyPhase) :
    Prop where
  same : ∀ p, (t p).deletes = (requests p).deletes
  hidden : ∀ p tenantRef, t p = .hidden tenantRef → c.shared.tenants.get tenantRef = none
  revoked : ∀ p tenantRef, t p = .revoked tenantRef → ∃ e ∈ c.history, revokesAll tenantRef e = true
  deleted : ∀ tenantRef, ∀ e ∈ c.history, revokesAll tenantRef e = true →
    c.shared.tenants.get tenantRef = none ∧ NoLiveKey tenantRef c.shared.apiKeys
  found : ∀ p tenantRef, t p = .found tenantRef → ∀ e ∈ c.history, revokesAll tenantRef e = true →
    e ∈ sinceFound p tenantRef c.history

section invariant
variable {D : Deps} {requests : Nat → KeyRequest} {c : ServerConfig Reply} {t : Nat → KeyPhase}
  {p : Nat} {x : Choice} {o : ServerOp} {tenantRef : String}
  {k : Except Thrown (ServerOp.Ret o) → Program Server Thrown Reply}

theorem deletes_next (s : KeyPhase) (o : ServerOp) (a : Except Thrown (ServerOp.Ret o)) :
    (keyTypestate.next s o a).deletes = s.deletes := by
  unfold keyTypestate
  dsimp only
  split
  · rfl
  · rfl
  · rfl
  · rfl
  · rfl
  · rfl
  · rfl

theorem createsTenant_of_allows {s : KeyPhase} (ha : keyTypestate.allows s o) :
    o.createsTenant = false := by
  cases s with
  | ended deletes => cases ha
  | found ref =>
    rcases ha with ⟨label,rfl⟩ | ⟨input,rfl⟩
    · rfl
    · rfl
  | revoke ref =>
    rcases ha with ⟨label,rfl⟩ | ⟨input,rfl⟩
    · rfl
    · rfl
  | revoked ref =>
    obtain ⟨input,rfl⟩ := ha
    rfl
  | _ =>
    cases ha
    rfl

/-- A key is written by an issue that has found its tenant. -/
theorem found_of_issues {s : KeyPhase} (ha : keyTypestate.allows s o)
    (ho : o.issuesKeyFor = some tenantRef) : s = .found tenantRef := by
  cases s with
  | ended deletes => cases ha
  | found ref =>
    rcases ha with ⟨label,rfl⟩ | ⟨input,rfl⟩
    · exact congrArg KeyPhase.found (Option.some.inj ho)
    · cases ho
  | revoke ref =>
    rcases ha with ⟨label,rfl⟩ | ⟨input,rfl⟩
    · cases ho
    · cases ho
  | revoked ref =>
    obtain ⟨input,rfl⟩ := ha
    cases ho
  | _ =>
    cases ha
    cases ho

/-- How a deletion gets on, and how an issue comes to have found its tenant. -/
inductive Advance : KeyPhase → (o : ServerOp) → Except Thrown (ServerOp.Ret o) → KeyPhase → Prop
  | hide (tenantRef : String) (u : Unit) : Advance (.delete tenantRef)
      (.tenants (.softDelete tenantRef)) (.ok u) (.hidden tenantRef)
  | revoke (tenantRef : String) (u : Unit) : Advance (.hidden tenantRef)
      (.apiKeys (.revokeAllForTenant tenantRef)) (.ok u) (.revoked tenantRef)
  | find (tenantRef : String) (r : TenantRecord) : Advance (.issue tenantRef)
      (.tenants (.get tenantRef)) (.ok (some r)) (.found tenantRef)
  | audited (tenantRef : String) (input : AuditEntryInput) (u : Unit) : Advance (.revoked tenantRef)
      (.audit input) (.ok u) (.revoked tenantRef)
  | stay (tenantRef : String) (o : ServerOp) (a : Except Thrown (ServerOp.Ret o))
      (ho : o ≠ .tenants (.get tenantRef)) : Advance (.found tenantRef) o a (.found tenantRef)
  | other (s s' : KeyPhase) (o : ServerOp) (a : Except Thrown (ServerOp.Ret o))
      (hs : ∀ tenantRef, s' ≠ .hidden tenantRef ∧ s' ≠ .revoked tenantRef ∧ s' ≠ .found tenantRef) :
      Advance s o a s'

theorem advance (s : KeyPhase) (o : ServerOp) (a : Except Thrown (ServerOp.Ret o))
    (ha : keyTypestate.allows s o) : Advance s o a (keyTypestate.next s o a) := by
  cases s with
  | ended deletes => cases ha
  | delete ref =>
    cases ha
    cases a with
    | error e => exact .other _ _ _ _ fun ref' => ⟨nofun,nofun,nofun⟩
    | ok u => exact .hide ref u
  | hidden ref =>
    cases ha
    cases a with
    | error e => exact .other _ _ _ _ fun ref' => ⟨nofun,nofun,nofun⟩
    | ok u => exact .revoke ref u
  | revoked ref =>
    obtain ⟨input,rfl⟩ := ha
    cases a with
    | error e => exact .other _ _ _ _ fun ref' => ⟨nofun,nofun,nofun⟩
    | ok u => exact .audited ref input u
  | issue ref =>
    cases ha
    cases a with
    | error e => exact .other _ _ _ _ fun ref' => ⟨nofun,nofun,nofun⟩
    | ok tenant =>
      cases tenant with
      | none => exact .other _ _ _ _ fun ref' => ⟨nofun,nofun,nofun⟩
      | some r => exact .find ref r
  | found ref =>
    refine .stay ref o a ?_
    rcases ha with ⟨label,rfl⟩ | ⟨input,rfl⟩
    · exact nofun
    · exact nofun
  | revoke ref =>
    exact .other _ _ _ _ fun ref' => ⟨nofun,nofun,nofun⟩

/-- The keys of a tenant are revoked after the tenant is hidden. -/
theorem hidden_of_revokesAll {s : KeyPhase} {a : Except Thrown (ServerOp.Ret o)} {w w' : World}
    (ha : keyTypestate.allows s o) (he : revokesAll tenantRef ⟨p,o,a,w,w'⟩ = true) :
    s = .hidden tenantRef ∧ ∃ u, (⟨o,a⟩ : (o : ServerOp) × Except Thrown (ServerOp.Ret o)) =
      ⟨.apiKeys (.revokeAllForTenant tenantRef),.ok u⟩ := by
  cases s with
  | ended deletes => cases ha
  | hidden ref =>
    cases ha
    cases a with
    | error e => cases he
    | ok u =>
      have href : ref = tenantRef := of_decide_eq_true he
      subst href
      exact ⟨rfl,u,rfl⟩
  | found ref =>
    rcases ha with ⟨label,rfl⟩ | ⟨input,rfl⟩
    · cases he
    · cases he
  | revoke ref =>
    rcases ha with ⟨label,rfl⟩ | ⟨input,rfl⟩
    · cases he
    · cases he
  | revoked ref =>
    obtain ⟨input,rfl⟩ := ha
    cases he
  | _ =>
    cases ha
    cases he

theorem mem_sinceFound_cons {e e' : ServerEvent} {q : Nat} {history : List ServerEvent}
    (h : ¬ (e.pid = q ∧ e.op = .tenants (.get tenantRef)))
    (he : e' ∈ history → e' ∈ sinceFound q tenantRef history) (hmem : e' ∈ e :: history) :
    e' ∈ sinceFound q tenantRef (e :: history) := by
  rw [sinceFound,Event.since_cons h]
  rcases List.mem_cons.1 hmem with rfl | hmem
  · exact List.mem_cons_self
  · exact List.mem_cons_of_mem _ (he hmem)

theorem keyInv_step (h : KeyInv requests c t) (hp : c.procs p = .call o k)
    (ha : keyTypestate.allows (t p) o) (hok : KeyedInTime c p x) :
    KeyInv requests (c.after (World.handle D) p o k x)
      (Function.update t p (keyTypestate.next (t p) o (World.handle D o x c.shared).1)) := by
  have hcreates := createsTenant_of_allows ha
  have hgone {tenantRef : String} (hg : c.shared.tenants.get tenantRef = none) :=
    @get_handle_of_none D o x c.shared tenantRef hg hcreates
  have hadvance := advance (t p) o (World.handle D o x c.shared).1 ha
  generalize hnext : keyTypestate.next (t p) o (World.handle D o x c.shared).1 = s' at hadvance
  have hdeletes : s'.deletes = (t p).deletes := by
    rw [← hnext]
    exact deletes_next _ _ _
  generalize hphase : t p = s at hadvance ha hdeletes
  generalize hanswer : (World.handle D o x c.shared).1 = a at hadvance
  simp only [Config.after,hanswer]
  constructor
  · intro q
    by_cases hq : q = p
    · subst hq
      rw [Function.update_self,hdeletes,← hphase]
      exact h.same q
    · rw [Function.update_of_ne hq]
      exact h.same q
  · intro q tenantRef hq'
    by_cases hq : q = p
    · subst hq
      rw [Function.update_self] at hq'
      subst hq'
      cases hadvance with
      | hide ref u => exact get_of_softDelete hanswer
      | other s s' o a hs => exact absurd rfl (hs tenantRef).1
    · rw [Function.update_of_ne hq] at hq'
      exact hgone (h.hidden q tenantRef hq')
  · intro q tenantRef hq'
    by_cases hq : q = p
    · subst hq
      rw [Function.update_self] at hq'
      subst hq'
      cases hadvance with
      | revoke ref u => exact ⟨_,List.mem_cons_self,decide_eq_true rfl⟩
      | audited ref input u =>
        obtain ⟨e,he,hrevokes⟩ := h.revoked q tenantRef hphase
        exact ⟨e,List.mem_cons_of_mem _ he,hrevokes⟩
      | other s s' o a hs => exact absurd rfl (hs tenantRef).2.1
    · rw [Function.update_of_ne hq] at hq'
      obtain ⟨e,he,hrevokes⟩ := h.revoked q tenantRef hq'
      exact ⟨e,List.mem_cons_of_mem _ he,hrevokes⟩
  · intro tenantRef e he hrevokes
    rcases List.mem_cons.1 he with rfl | he
    · obtain ⟨rfl,u,hcall⟩ := hidden_of_revokesAll ha hrevokes
      obtain ⟨rfl,hu⟩ := Sigma.mk.inj hcall
      cases hu
      exact ⟨hgone (h.hidden p tenantRef hphase),noLiveKey_of_revokeAll hanswer⟩
    · obtain ⟨hhidden,hnone⟩ := h.deleted tenantRef e he hrevokes
      refine ⟨hgone hhidden,noLiveKey_handle hnone fun hissues => ?_⟩
      have hfound := found_of_issues ha hissues
      have hsince := h.found p tenantRef (hphase.trans hfound) e he hrevokes
      have hlate := hok o (by rw [hp]; rfl) tenantRef hissues e hsince
      rw [hrevokes] at hlate
      cases hlate
  · intro q tenantRef hq' e he hrevokes
    by_cases hq : q = p
    · subst hq
      rw [Function.update_self] at hq'
      subst hq'
      cases hadvance with
      | find ref r =>
        exfalso
        rcases List.mem_cons.1 he with rfl | he
        · cases hrevokes
        · have hhidden := (h.deleted tenantRef e he hrevokes).1
          rw [World.get_of_answer hanswer] at hhidden
          cases hhidden
      | stay ref o a ho =>
        exact mem_sinceFound_cons (fun hget => ho hget.2)
          (fun he => h.found q tenantRef hphase e he hrevokes) he
      | other s s' o a hs => exact absurd rfl (hs tenantRef).2.2
    · rw [Function.update_of_ne hq] at hq'
      exact mem_sinceFound_cons (fun hpid => hq hpid.1.symm)
        (fun he => h.found q tenantRef hq' e he hrevokes) he

end invariant

def startKeyRequests (D : Deps) (w : World) (requests : Nat → KeyRequest) : ServerConfig Reply where
  shared := w
  procs p := (requests p).program D

/-- A tenant whose deletion has been answered has no live key. -/
def NoKeyAfterDeletion (requests : Nat → KeyRequest) (c : ServerConfig Reply) : Prop :=
  ∀ p tenantRef reply, (requests p).deletes = some tenantRef → c.procs p = .ret reply →
    NoLiveKey tenantRef c.shared.apiKeys

/-- Whatever the requests are and however they interleave. -/
theorem noKeyAfterDeletion_of_keyedInTime (D : Deps) (w : World) (requests : Nat → KeyRequest)
    (c : ServerConfig Reply)
    (hc : Reach (World.handle D) KeyedInTime (startKeyRequests D w requests) c) :
    NoKeyAfterDeletion requests c := by
  have hsame : ∀ p, (KeyPhase.ofRequest (requests p)).deletes = (requests p).deletes := by
    intro p
    cases requests p with
    | _ => rfl
  have hstart (p : Nat) (tenantRef : String) : KeyPhase.ofRequest (requests p) ≠ .hidden tenantRef ∧
      KeyPhase.ofRequest (requests p) ≠ .revoked tenantRef ∧
      KeyPhase.ofRequest (requests p) ≠ .found tenantRef := by
    cases requests p with
    | _ => exact ⟨nofun,nofun,nofun⟩
  obtain ⟨t,hinv,hconforms⟩ := @Typestate.reach_invariant _ _ _ _ _ _ keyTypestate DeletionDone _ _ _
    _ (KeyInv requests) (fun p => .ofRequest (requests p))
    { same := hsame
      hidden := fun p ref hp => absurd hp (hstart p ref).1
      revoked := fun p ref hp => absurd hp (hstart p ref).2.1
      deleted := fun ref e he => by simp [startKeyRequests] at he
      found := fun p ref hp => absurd hp (hstart p ref).2.2 }
    (fun p => keyRequest_conforms D (requests p))
    (fun c t p x o k h _ hp ha hok => keyInv_step h hp ha hok) hc
  intro p tenantRef reply hdeletes hret
  have hdone := hconforms p
  rw [hret] at hdone
  have hphase : t p = .revoked tenantRef := hdone tenantRef ((hinv.same p).trans hdeletes)
  obtain ⟨e,he,hrevokes⟩ := hinv.revoked p tenantRef hphase
  exact (hinv.deleted tenantRef e he hrevokes).2

namespace Sample

/-- One request to delete the tenant, and requests to issue keys to it. -/
def deleteAndIssue : Nat → KeyRequest
  | 0 => .delete (some "Bearer admin") tenantRef
  | _ + 1 => .issue (some "Bearer admin") tenantRef (some "till")

/-- The first request to issue a key makes its key under this name. -/
def newKey : Choice := { tick 1 with token := ⟨"ABCDEFGHIJKLMNOPQRSTUVWXYZ234567","key-2","salt"⟩ }

end Sample

/-- The key is written before the tenant's keys are revoked. -/
theorem noKeyAfterDeletion_of_early_key : ∃ c,
    (startKeyRequests Sample.deps Sample.world Sample.deleteAndIssue).run (World.handle Sample.deps)
      KeyedInTime ([1,0,1,0,1,0].map fun p => (p,Sample.newKey)) = some c ∧
    (∃ reply, c.procs 0 = .ret reply) ∧ NoLiveKey Sample.tenantRef c.shared.apiKeys := by
  refine ⟨_,rfl,⟨_,rfl⟩,?_⟩
  exact noKeyAfterDeletion_of_keyedInTime Sample.deps Sample.world Sample.deleteAndIssue _
    (Reach.of_run ([1,0,1,0,1,0].map fun p => (p,Sample.newKey)) .init rfl) 0 _ _ rfl rfl

/-- The tenant is found, then deleted, and then the key is written. -/
theorem noKeyAfterDeletion_fails_for_a_late_key :
    ¬ ∀ (D : Deps) (w : World) (requests : Nat → KeyRequest) (c : ServerConfig Reply),
      Reach (World.handle D) ClockKept (startKeyRequests D w requests) c →
      NoKeyAfterDeletion requests c := by
  intro hall
  have hnone := hall Sample.deps Sample.world Sample.deleteAndIssue _
    (Reach.of_run ([1,0,0,0,1].map fun p => (p,Sample.newKey)) .init rfl) 0 Sample.tenantRef _ rfl rfl
  have hlive := hnone "key-2" _ rfl rfl
  cases hlive

end Zatca
