import Zatca.Server.Provenance
set_option autoImplicit false

/-! The life of a tenant over whole runs: what its record can look like in each state, and that a
tenant is ready for documents only while its credentials can be opened. -/

namespace Zatca
open Interaction

/-- A claim belongs to the state of onboarding, and the time of a deletion to the state of a deleted
tenant; a record deleted under a claim keeps it. -/
structure TenantRecord.Coherent (r : TenantRecord) : Prop where
  claimed : r.state = .onboarding → r.claimedBy.isSome ∧ r.claimExpiresAt.isSome
  unclaimed : r.deletedAt = none → r.state ≠ .onboarding →
    r.claimedBy = none ∧ r.claimExpiresAt = none
  deleted : r.state = .revoked ↔ r.deletedAt.isSome

/-- The transitions of the server: into a claim, and out of it. -/
inductive ServerTransition : TenantState → SetStateOptions → Prop
  | claim (expectedFrom : TenantState) (instanceId : String) (expires : Date) :
      ServerTransition .onboarding
        { expectedFrom := some expectedFrom, claimedBy := some instanceId
          claimExpiresAt := some expires }
  | fail (message : String) : ServerTransition .failed { lastError := some message }
  | promote : ServerTransition .productionReady {}

namespace TenantRecord

theorem Coherent.not_revoked {r : TenantRecord} (h : r.Coherent) (hd : r.deletedAt = none) :
    r.state ≠ .revoked := by
  intro hs
  have := h.deleted.1 hs
  rw [hd] at this
  cases this

/-- A transition of the server, of a record that is not deleted. -/
theorem coherent_withState {r : TenantRecord} {next : TenantState} {options : SetStateOptions}
    {now : Date} (hd : r.deletedAt = none) (h : ServerTransition next options) :
    (r.withState next options now).Coherent := by
  cases h with
  | claim expectedFrom instanceId expires =>
    exact ⟨fun _ => ⟨rfl,rfl⟩,fun _ hs => absurd rfl hs,by simp [withState,hd]⟩
  | fail message => exact ⟨nofun,fun _ _ => ⟨rfl,rfl⟩,by simp [withState,hd]⟩
  | promote => exact ⟨nofun,fun _ _ => ⟨rfl,rfl⟩,by simp [withState,hd]⟩

end TenantRecord

/-- The transitions that a call asks for. -/
theorem serverTransition_of_allows {D : Deps} {s : CallerPhase} {tenantRef : String}
    {next : TenantState} {options : SetStateOptions}
    (ha : (authority D).allows s (.tenants (.setState tenantRef next options))) :
    ServerTransition next options := by
  cases s with
  | admin header about onboards =>
    rcases ha with hslot | ⟨actor,-,hcall⟩
    · cases hslot
    · cases hcall with
      | fail message => exact .fail message
      | claim expectedFrom instanceId expires => exact .claim expectedFrom instanceId expires
      | promote => exact .promote
  | tenant ref phase => cases ha

/-- A write of the server leaves a coherent record. -/
theorem TenantWrite.coherent {st : MemoryTenantStore} {now : Date} {generated tenantRef : String}
    {o : TenantOp} {r : TenantRecord} (h : TenantWrite st now generated o tenantRef r)
    (hst : ∀ ref r, st.records.get ref = some r → r.Coherent)
    (ho : ∀ ref next options, o = .setState ref next options → ServerTransition next options) :
    r.Coherent := by
  cases h with
  | create input hfree => exact ⟨nofun,fun _ _ => ⟨rfl,rfl⟩,by simp [MemoryTenantStore.newRecord]⟩
  | patch patch hg =>
    have hr := hst _ _ (MemoryTenantStore.get_eq_some.1 hg).1
    exact ⟨hr.claimed,hr.unclaimed,hr.deleted⟩
  | setState next options hg ht =>
    rw [TenantRecord.transition_eq ht]
    exact TenantRecord.coherent_withState (MemoryTenantStore.get_eq_some.1 hg).2 (ho _ _ _ rfl)
  | progress scenario passed hg =>
    have hr := hst _ _ (MemoryTenantStore.get_eq_some.1 hg).1
    exact ⟨hr.claimed,hr.unclaimed,hr.deleted⟩
  | expiry expiresAt hg =>
    have hr := hst _ _ (MemoryTenantStore.get_eq_some.1 hg).1
    exact ⟨hr.claimed,hr.unclaimed,hr.deleted⟩
  | softDelete hg hd => exact ⟨nofun,nofun,by simp⟩

/-- Once a certificate's expiry is on a record it stays there, as one date or another. -/
def MemoryTenantStore.Dated (st : MemoryTenantStore) (tenantRef : String) : Prop :=
  ∃ r, st.records.get tenantRef = some r ∧ r.productionCertificateExpiresAt.isSome

theorem TenantWrite.dated {st : MemoryTenantStore} {now : Date} {generated tenantRef : String}
    {o : TenantOp} {r : TenantRecord} (h : TenantWrite st now generated o tenantRef r)
    (hst : st.Dated tenantRef) : r.productionCertificateExpiresAt.isSome := by
  obtain ⟨old,hold,hdated⟩ := hst
  cases h with
  | create input hfree =>
    rw [hfree] at hold
    cases hold
  | patch patch hg =>
    rw [(MemoryTenantStore.get_eq_some.1 hg).1] at hold
    cases hold
    exact hdated
  | setState next options hg ht =>
    rw [(MemoryTenantStore.get_eq_some.1 hg).1] at hold
    cases hold
    rw [TenantRecord.transition_eq ht]
    exact hdated
  | progress scenario passed hg =>
    rw [(MemoryTenantStore.get_eq_some.1 hg).1] at hold
    cases hold
    exact hdated
  | expiry expiresAt hg => rfl
  | softDelete hg hd =>
    rw [hg] at hold
    cases hold
    exact hdated

/-- A tenant whose credentials can be opened. -/
def MemoryCredentialVault.Opens (C : SecretCipher) (v : MemoryCredentialVault) (tenantRef : String) :
    Prop := ∃ m, v.get C tenantRef = .ok (some m)

theorem opens_handle {D : Deps} {o : ServerOp} {x : Choice} {w : World} {tenantRef : String}
    (ho : ∀ ref, o ≠ .vault (.delete ref)) (h : w.vault.Opens D.cipher tenantRef) :
    (World.handle D o x w).2.vault.Opens D.cipher tenantRef := by
  by_cases hstore : o.store = some .vault
  · cases o with
    | vault o =>
      rcases World.handle_cases D (.vault o) x w with ⟨e,-,-,hw⟩ | hw
      · rw [hw]
        exact h
      · rw [hw]
        cases o with
        | get ref => exact h
        | delete ref => exact absurd rfl (ho ref)
        | put ref m =>
          by_cases href : tenantRef = ref
          · subst href
            exact ⟨m,MemoryCredentialVault.get_put_self _ _ _ _ _⟩
          · obtain ⟨old,hold⟩ := h
            refine ⟨old,?_⟩
            simp only [World.serve,MemoryCredentialVault.handle,MemoryCredentialVault.get,
              MemoryCredentialVault.put,JsMap.get_set_ne _ _ href]
            exact hold
    | _ => cases hstore
  · rw [(World.handle_frame D o x w).vault hstore]
    exact h

section records
variable {D : Deps} {o : ServerOp} {x : Choice} {w : World}

/-- What holds of the records stays true if the writes of the call keep it. -/
theorem records_handle {P : String → TenantRecord → Prop}
    (h : ∀ ref r, w.tenants.records.get ref = some r → P ref r)
    (hwrite : ∀ op ref r, o = .tenants op → TenantWrite w.tenants x.now x.generatedRef op ref r → P ref r) :
    ∀ ref r, (World.handle D o x w).2.tenants.records.get ref = some r → P ref r := by
  cases o with
  | tenants o =>
    rcases World.handle_tenants_cases D o x w with ⟨e,hw⟩ | ⟨ref,-,hw⟩ | ⟨a,ref,r,hwr,hw⟩
    · rw [hw]
      exact h
    · rw [hw]
      exact h
    · rw [hw]
      intro other r' hr'
      simp only [JsMap.get_set] at hr'
      split at hr'
      · rename_i hother
        subst hother
        cases hr'
        exact hwrite o other r rfl hwr
      · exact h other r' hr'
  | _ =>
    rw [(World.handle_frame D _ x w).tenants (by simp [ServerOp.store])]
    exact h

theorem dated_handle {tenantRef : String} (h : w.tenants.Dated tenantRef) :
    (World.handle D o x w).2.tenants.Dated tenantRef := by
  cases o with
  | tenants o =>
    rcases World.handle_tenants_cases D o x w with ⟨e,hw⟩ | ⟨ref,-,hw⟩ | ⟨a,ref,r,hwr,hw⟩
    · rw [hw]
      exact h
    · rw [hw]
      exact h
    · rw [hw]
      by_cases href : tenantRef = ref
      · subst href
        exact ⟨r,JsMap.get_set_self _ _ _,hwr.dated h⟩
      · obtain ⟨old,hold,hdated⟩ := h
        exact ⟨old,by rw [JsMap.get_set_ne _ _ href]; exact hold,hdated⟩
  | _ =>
    rw [(World.handle_frame D _ x w).tenants (by simp [ServerOp.store])]
    exact h

end records

/-- The expiry of the tenant's certificate is recorded. -/
inductive RecordsExpiry (tenantRef : String) : ServerEvent → Prop
  | mk {q : Nat} {d : Date} {w w' : World} :
      RecordsExpiry tenantRef ⟨q,.tenants (.setProductionExpiry tenantRef d),.ok (),w,w'⟩

/-- What a run has done for its tenants is still there, and a tenant that is ready has been seen to. -/
structure Furnished (D : Deps) (c : ServerConfig Reply) : Prop where
  stored : ∀ e ∈ c.history, ∀ tenantRef m, StoresMaterial tenantRef m e →
    c.shared.vault.Opens D.cipher tenantRef
  dated : ∀ e ∈ c.history, ∀ tenantRef, RecordsExpiry tenantRef e → c.shared.tenants.Dated tenantRef
  ready : ∀ tenantRef r, c.shared.tenants.records.get tenantRef = some r →
    r.state = .productionReady → c.shared.vault.Opens D.cipher tenantRef ∧
      r.productionCertificateExpiresAt.isSome
  seen : ∀ e ∈ c.history, ∀ p tenantRef tenant, ReadsReady p tenantRef tenant e →
    c.shared.vault.Opens D.cipher tenantRef

section step
variable {D : Deps} {p : Nat} {o : ServerOp} {x : Choice} {w : World} {tenantRef : String}

theorem opens_of_stores {m : SignerMaterial} (h : StoresMaterial tenantRef m
    ⟨p,o,(World.handle D o x w).1,w,(World.handle D o x w).2⟩) :
    (World.handle D o x w).2.vault.Opens D.cipher tenantRef := by
  generalize hanswer : (World.handle D o x w).1 = a at h
  cases h with
  | mk =>
    rcases World.handle_cases D (.vault (.put tenantRef m)) x w with ⟨e,-,-,hw⟩ | hw
    · rw [hw] at hanswer
      cases hanswer
    · rw [hw]
      exact ⟨m,MemoryCredentialVault.get_put_self _ _ _ _ _⟩

theorem dated_of_records (h : RecordsExpiry tenantRef
    ⟨p,o,(World.handle D o x w).1,w,(World.handle D o x w).2⟩) :
    (World.handle D o x w).2.tenants.Dated tenantRef := by
  generalize hanswer : (World.handle D o x w).1 = a at h
  cases h with
  | @mk _ d =>
    rcases World.handle_tenants_cases D (.setProductionExpiry tenantRef d) x w with
      ⟨e,hw⟩ | ⟨ref,ho,-⟩ | ⟨a,ref,r,hwrite,hw⟩
    · rw [hw] at hanswer
      cases hanswer
    · cases ho
    · rw [hw]
      cases hwrite with
      | expiry expiresAt hg => exact ⟨_,JsMap.get_set_self _ _ _,rfl⟩

theorem read_of_readsReady {tenant : TenantRecord} {q : Nat} (h : ReadsReady q tenantRef tenant
    ⟨p,o,(World.handle D o x w).1,w,(World.handle D o x w).2⟩) :
    w.tenants.records.get tenantRef = some tenant ∧ tenant.state = .productionReady := by
  generalize hanswer : (World.handle D o x w).1 = a at h
  cases h with
  | mk hready =>
    exact ⟨(MemoryTenantStore.get_eq_some.1 (World.get_of_answer hanswer)).1,hready⟩

end step

section runs
variable {D : Deps} {requests : Nat → ServerRequest} {w₀ : World} {c : ServerConfig Reply}
  {ok : ServerConfig Reply → Nat → Choice → Prop} {p : Nat} {o : ServerOp}
  {k : Except Thrown (ServerOp.Ret o) → Program Server Thrown Reply}

theorem pending_allowed (hc : Reach (World.handle D) ok (startRequests D w₀ requests) c)
    (hp : c.procs p = .call o k) : ∃ s, (authority D).allows s o := by
  obtain ⟨s,-,ha⟩ := (serverRequest_conforms D (requests p)).comes (hc.pending rfl hp)
  exact ⟨s,ha⟩

theorem pending_transition (hc : Reach (World.handle D) ok (startRequests D w₀ requests) c)
    (hp : c.procs p = .call o k) {ref : String} {next : TenantState} {options : SetStateOptions}
    (ho : o = .tenants (.setState ref next options)) : ServerTransition next options := by
  subst ho
  obtain ⟨s,ha⟩ := pending_allowed hc hp
  exact serverTransition_of_allows ha

theorem pending_not_delete (hc : Reach (World.handle D) ok (startRequests D w₀ requests) c)
    (hp : c.procs p = .call o k) (ref : String) : o ≠ .vault (.delete ref) := by
  rintro rfl
  cases serverRequest_restsOn D _ (hc.pending rfl hp) with
  | other h => cases h

theorem records_coherent (hempty : w₀.tenants = .empty)
    (hc : Reach (World.handle D) ok (startRequests D w₀ requests) c) :
    ∀ ref r, c.shared.tenants.records.get ref = some r → r.Coherent := by
  refine Reach.invariant_reached (I := fun c => ∀ ref r, c.shared.tenants.records.get ref = some r →
    r.Coherent) ?_ ?_ hc
  · intro ref r hr
    simp [startRequests,hempty,MemoryTenantStore.empty] at hr
  · intro c p x o k hreach hI hp _
    refine records_handle hI fun op ref r ho hwrite => hwrite.coherent hI ?_
    rintro other next options rfl
    exact pending_transition hreach hp ho

/-- A call that makes a tenant ready comes after its credentials and their expiry were stored. -/
theorem Furnished.of_promotion (hf : Furnished D c)
    (hc : Reach (World.handle D) ok (startRequests D w₀ requests) c)
    (hp : c.procs p = .call o k) {ref : String} {options : SetStateOptions}
    (ho : o = .tenants (.setState ref .productionReady options)) :
    c.shared.vault.Opens D.cipher ref ∧ c.shared.tenants.Dated ref := by
  subst ho
  cases serverRequest_restsOn D _ (hc.pending rfl hp) with
  | other h => cases h
  | promote hput hexpiry =>
    obtain ⟨w,w',hput⟩ := mem_callsOf.1 hput
    obtain ⟨w₁,w₂,hexpiry⟩ := mem_callsOf.1 hexpiry
    exact ⟨hf.stored _ hput _ _ .mk,hf.dated _ hexpiry _ .mk⟩

/-- A record that a call writes is ready only with what belongs to it. -/
theorem Furnished.write (hf : Furnished D c)
    (hc : Reach (World.handle D) ok (startRequests D w₀ requests) c)
    (hp : c.procs p = .call o k) {x : Choice} {op : TenantOp} {ref : String} {r : TenantRecord}
    (ho : o = .tenants op) (hwrite : TenantWrite c.shared.tenants x.now x.generatedRef op ref r)
    (hready : r.state = .productionReady) :
    c.shared.vault.Opens D.cipher ref ∧ r.productionCertificateExpiresAt.isSome := by
  have hold {old : TenantRecord} (hg : c.shared.tenants.get ref = some old)
      (hs : old.state = .productionReady) :
      c.shared.vault.Opens D.cipher ref ∧ r.productionCertificateExpiresAt.isSome := by
    have hrecord := (MemoryTenantStore.get_eq_some.1 hg).1
    obtain ⟨hopens,hdated⟩ := hf.ready ref old hrecord hs
    exact ⟨hopens,hwrite.dated ⟨old,hrecord,hdated⟩⟩
  cases id hwrite with
  | create input hfree => cases hready
  | patch patch hg => exact hold hg hready
  | setState next options hg ht =>
    obtain rfl : next = .productionReady := by rw [TenantRecord.transition_eq ht] at hready; exact hready
    obtain ⟨hopens,hdated⟩ := hf.of_promotion hc hp ho
    exact ⟨hopens,hwrite.dated hdated⟩
  | progress scenario passed hg => exact hold hg hready
  | expiry expiresAt hg => exact hold hg hready
  | softDelete hg hd => cases hready

theorem furnished_step (hf : Furnished D c)
    (hc : Reach (World.handle D) ok (startRequests D w₀ requests) c)
    (hp : c.procs p = .call o k) (x : Choice) : Furnished D (c.after (World.handle D) p o k x) := by
  have hkept {ref : String} (h : c.shared.vault.Opens D.cipher ref) :
      (World.handle D o x c.shared).2.vault.Opens D.cipher ref :=
    opens_handle (pending_not_delete hc hp) h
  constructor
  · intro e he tenantRef m hstores
    rcases List.mem_cons.1 he with rfl | he
    · exact opens_of_stores hstores
    · exact hkept (hf.stored e he tenantRef m hstores)
  · intro e he tenantRef hrecords
    rcases List.mem_cons.1 he with rfl | he
    · exact dated_of_records hrecords
    · exact dated_handle (hf.dated e he tenantRef hrecords)
  · refine records_handle (P := fun ref r => r.state = .productionReady →
      (World.handle D o x c.shared).2.vault.Opens D.cipher ref ∧
        r.productionCertificateExpiresAt.isSome) ?_ ?_
    · intro ref r hr hready
      obtain ⟨hopens,hdated⟩ := hf.ready ref r hr hready
      exact ⟨hkept hopens,hdated⟩
    · intro op ref r ho hwrite hready
      obtain ⟨hopens,hdated⟩ := hf.write hc hp ho hwrite hready
      exact ⟨hkept hopens,hdated⟩
  · intro e he q tenantRef tenant hreads
    rcases List.mem_cons.1 he with rfl | he
    · obtain ⟨hrecord,hready⟩ := read_of_readsReady hreads
      exact hkept (hf.ready tenantRef tenant hrecord hready).1
    · exact hkept (hf.seen e he q tenantRef tenant hreads)

theorem furnished_of_reach (hempty : w₀.tenants = .empty)
    (hc : Reach (World.handle D) ok (startRequests D w₀ requests) c) : Furnished D c := by
  refine Reach.invariant_reached (I := Furnished D) ?_
    (fun c p x o k hreach hI hp _ => furnished_step hI hreach hp x) hc
  refine ⟨fun e he => ?_,fun e he => ?_,fun ref r hr => ?_,fun e he => ?_⟩
  · simp [startRequests] at he
  · simp [startRequests] at he
  · simp [startRequests,hempty,MemoryTenantStore.empty] at hr
  · simp [startRequests] at he

/-- A tenant's request that has found its tenant ready is not told that there are no credentials. -/
theorem vault_answers (hempty : w₀.tenants = .empty)
    (hc : Reach (World.handle D) ok (startRequests D w₀ requests) c) {e : ServerEvent}
    (he : e ∈ c.history) {tenantRef : String} (hcaller : (requests e.pid).caller = .tenant tenantRef) :
    (⟨e.op,e.result⟩ : Answered Server Thrown) ≠ ⟨.vault (.get tenantRef),.ok none⟩ := by
  intro hnone
  obtain ⟨after,before,he⟩ := List.append_of_mem he
  obtain ⟨c',p,o,k,x,hreach,hp,-,hhist,-⟩ := hc.exists_step rfl he
  obtain ⟨rfl,rfl⟩ := List.cons.inj hhist
  obtain ⟨phase,ha,hlearnt⟩ := learnt_of_comes hcaller (hreach.pending rfl hp)
  obtain ⟨rfl,hanswer⟩ := Sigma.mk.inj hnone
  cases ha with
  | @vault tokenId tenant =>
    obtain ⟨-,hready,hread⟩ := hlearnt
    obtain ⟨w,w',hread⟩ := mem_callsOf.1 hread
    obtain ⟨m,hopens⟩ := (furnished_of_reach hempty hreach).seen _ hread p tenantRef tenant (.mk hready)
    rcases World.handle_cases D (.vault (.get tenantRef)) x c'.shared with ⟨err,-,-,hw⟩ | hw
    · rw [hw] at hanswer
      cases hanswer
    · rw [hw] at hanswer
      simp only [World.serve,MemoryCredentialVault.handle,hopens] at hanswer
      cases hanswer

/-- The tenant is deleted. -/
inductive DeletesTenant (tenantRef : String) : ServerEvent → Prop
  | mk {q : Nat} {w w' : World} :
      DeletesTenant tenantRef ⟨q,.tenants (.softDelete tenantRef),.ok (),w,w'⟩

/-- A deleted record is not written again. -/
theorem TenantWrite.not_deleted {st : MemoryTenantStore} {now : Date} {generated tenantRef : String}
    {o : TenantOp} {r old : TenantRecord} (h : TenantWrite st now generated o tenantRef r)
    (hold : st.records.get tenantRef = some old) : old.deletedAt = none := by
  have hlive {r' : TenantRecord} (hg : st.get tenantRef = some r') : old.deletedAt = none := by
    obtain ⟨hr',hd⟩ := MemoryTenantStore.get_eq_some.1 hg
    rw [hr'] at hold
    cases hold
    exact hd
  cases h with
  | create input hfree =>
    rw [hfree] at hold
    cases hold
  | patch patch hg => exact hlive hg
  | setState next options hg ht => exact hlive hg
  | progress scenario passed hg => exact hlive hg
  | expiry expiresAt hg => exact hlive hg
  | softDelete hg hd =>
    rw [hg] at hold
    cases hold
    exact hd

theorem deleted_handle {x : Choice} {w : World} {tenantRef : String} {r : TenantRecord}
    (hr : w.tenants.records.get tenantRef = some r) (hd : r.deletedAt ≠ none) :
    (World.handle D o x w).2.tenants.records.get tenantRef = some r := by
  cases o with
  | tenants o =>
    rcases World.handle_tenants_cases D o x w with ⟨e,hw⟩ | ⟨ref,-,hw⟩ | ⟨a,ref,r',hwr,hw⟩
    · rw [hw]
      exact hr
    · rw [hw]
      exact hr
    · rw [hw]
      have href : tenantRef ≠ ref := by
        rintro rfl
        exact hd (hwr.not_deleted hr)
      simp only [JsMap.get_set_ne _ _ href]
      exact hr
  | _ =>
    rw [(World.handle_frame D _ x w).tenants (by simp [ServerOp.store])]
    exact hr

/-- The record of a deleted tenant stays as its deletion left it. -/
theorem deleted_stays (hc : Reach (World.handle D) ok (startRequests D w₀ requests) c)
    {e : ServerEvent} (he : e ∈ c.history) {tenantRef : String} (hdeletes : DeletesTenant tenantRef e) :
    ∃ r, r.deletedAt.isSome ∧ e.after.tenants.records.get tenantRef = some r ∧
      c.shared.tenants.records.get tenantRef = some r := by
  obtain ⟨after,before,he⟩ := List.append_of_mem he
  obtain ⟨c',p,o,k,x,-,-,-,hhist,hlater⟩ := hc.exists_step rfl he
  obtain ⟨rfl,-⟩ := List.cons.inj hhist
  have hleft : ∃ r, r.deletedAt.isSome ∧
      (World.handle D o x c'.shared).2.tenants.records.get tenantRef = some r := by
    generalize hanswer : (World.handle D o x c'.shared).1 = a at hdeletes
    cases hdeletes with
    | mk =>
      rcases World.handle_tenants_cases D (.softDelete tenantRef) x c'.shared with
        ⟨err,hw⟩ | ⟨ref,ho,-⟩ | ⟨a,ref,r,hwrite,hw⟩
      · rw [hw] at hanswer
        cases hanswer
      · cases ho
      · rw [hw]
        cases hwrite with
        | softDelete hg hd => exact ⟨_,rfl,JsMap.get_set_self _ _ _⟩
  obtain ⟨r,hd,hr⟩ := hleft
  refine ⟨r,hd,hr,?_⟩
  refine Reach.invariant (I := fun c => c.shared.tenants.records.get tenantRef = some r) hr
    (fun _ _ _ _ _ h _ _ => deleted_handle h ?_) hlater
  rintro hnone
  rw [hnone] at hd
  cases hd

end runs

namespace Sample

def olayaBody : CreateTenantBody where
  tenantRef := some ⟨tenantRef,by decide⟩
  vatNumber := scope.vatNumber
  egsUuid := scope.egsUuid
  vatName := "Dokhna"
  crn := "1010010000"
  branchName := "Olaya"
  location
  environment := .production

/-- The tenant is registered, onboarded and deleted. -/
def wholeLife : Nat → ServerRequest
  | 0 => .createTenant (some "Bearer admin") (some olayaBody)
  | 1 => .onboard onboardRequest
  | _ + 2 => .deleteTenant (some "Bearer admin") tenantRef

/-- The administrator comes before the onboarding has answered. -/
def wholeLifeRun : List (Nat × Choice) :=
  ([0,0] ++ List.replicate 25 1 ++ [2,1,2,2]).map fun p => (p,issuing)

end Sample

end Zatca
