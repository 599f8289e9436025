import Zatca.Server.MongoTenants
set_option autoImplicit false

/-! The three tenant stores are one: what the memory store answers to a sequence of calls, the
stores on the databases answer. -/

namespace Zatca
open Interaction ThreeValued

/-- A call on a store on a database comes out as it does on the memory store, and so do the
states. -/
def Agrees {σ α : Type} (R : MemoryTenantStore → σ → Prop)
    (a : Except Thrown α × MemoryTenantStore) (b : Except TenantBackendError α × σ) : Prop :=
  a.1.mapError .zatca = b.1 ∧ R a.2 b.2

namespace MemoryTenantStore

variable {st : MemoryTenantStore} {tenantRef : String} {r r' : TenantRecord} {β : Type}
  {answer : TenantRecord → β} {f : TenantRecord → Except Thrown TenantRecord}

theorem settle_update_none (h : st.get tenantRef = none) :
    st.settle answer (st.update tenantRef f) = (.error (unknownTenant tenantRef),st) := by
  simp only [update,h,settle]

theorem settle_update_ok (h : st.get tenantRef = some r) (hf : f r = .ok r') :
    st.settle answer (st.update tenantRef f) =
      (.ok (answer r'),⟨st.records.set tenantRef r'⟩) := by
  simp only [update,h,hf,Except.map,settle]

theorem settle_replace {g : TenantRecord → TenantRecord} (h : st.get tenantRef = some r) :
    st.settle answer (st.update tenantRef (fun r => .ok (g r))) =
      (.ok (answer (g r)),⟨st.records.set tenantRef (g r)⟩) := settle_update_ok h rfl

theorem settle_update_error {e : Thrown} (h : st.get tenantRef = some r) (hf : f r = .error e) :
    st.settle answer (st.update tenantRef f) = (.error e,st) := by
  simp only [update,h,hf,Except.map,settle]

/-- The expectation of a transition, as one condition on the record. -/
def expects (expectedFrom : Option TenantState) (now : Date) (r : TenantRecord) : Bool :=
  match expectedFrom with
  | none => true
  | some expectedFrom => r.mayTransitionFrom expectedFrom now

theorem transition_of_expects {next : TenantState} {opts : SetStateOptions} {now : Date}
    (h : expects opts.expectedFrom now r = true) :
    r.transition tenantRef next opts now = .ok (r.withState next opts now) := by
  unfold TenantRecord.transition
  cases he : opts.expectedFrom with
  | none => rfl
  | some expectedFrom =>
    rw [he] at h
    exact if_pos h

theorem transition_of_not_expects {next : TenantState} {opts : SetStateOptions} {now : Date}
    (h : expects opts.expectedFrom now r = false) :
    r.transition tenantRef next opts now =
      .error (cannotTransition tenantRef r.state opts.expectedFrom) := by
  unfold TenantRecord.transition
  cases he : opts.expectedFrom with
  | none =>
    rw [he] at h
    cases h
  | some expectedFrom =>
    rw [he] at h
    exact if_neg (Bool.eq_false_iff.1 h)

/-- What a condition on images of the records takes, where it is one on those not deleted. -/
theorem filter_map_get {ρ : Type} (f : TenantRecord → ρ) {q : ρ → Bool} {p : TenantRecord → Bool}
    (hq : ∀ r, q (f r) = (r.deletedAt.isNone && p r)) (st : MemoryTenantStore) (tenantRef : String) :
    ((st.records.get tenantRef).map f).filter q = ((st.get tenantRef).filter p).map f := by
  unfold get
  cases st.records.get tenantRef with
  | none => rfl
  | some r =>
    simp only [Option.map_some,Option.filter_some,hq]
    cases r.deletedAt.isNone with
    | false => rfl
    | true =>
      simp only [Bool.true_and,if_true,Option.filter_some]
      cases p r with
      | false => rfl
      | true => rfl

end MemoryTenantStore

/-! ### Postgres -/

namespace PostgresTenantStore

/-- The row of a record. -/
def rowOf (r : TenantRecord) : TenantRow where
  tenantRef := r.tenantRef
  vatNumber := r.vatNumber.1
  egsUuid := r.egsUuid.1
  vatName := r.vatName
  crn := r.crn.1
  branchName := r.branchName
  branchIndustry := r.branchIndustry
  location := r.location
  environment := r.environment
  state := r.state
  onboardingProgress := r.onboardingProgress
  productionCertificateExpiresAt := r.productionCertificateExpiresAt
  callbackUrl := r.callbackUrl
  claimedBy := r.claimedBy
  claimExpiresAt := r.claimExpiresAt
  label := r.label
  createdAt := r.createdAt
  updatedAt := r.updatedAt
  deletedAt := r.deletedAt

@[simp] theorem rowToTenant_rowOf (r : TenantRecord) : rowToTenant (rowOf r) = .ok r := by
  simp [rowToTenant,rowOf,asVATNumber,asEGSUuid,asCommercialRegistrationNumber,r.vatNumber.2,
    r.egsUuid.2,r.crn.2,bind,Except.bind,pure,Except.pure]

theorem holds_mayTransition (expectedFrom : TenantState) (now : Date) (r : TenantRecord) :
    (mayTransition expectedFrom now (rowOf r)).holds = r.mayTransitionFrom expectedFrom now := by
  unfold mayTransition TenantRecord.mayTransitionFrom TenantRecord.lockNotHeld
  cases hc : r.claimExpiresAt with
  | none => simp [rowOf,hc]
  | some e => simp [rowOf,hc]

/-- The table has the rows of the records. -/
def Mirrors (st : MemoryTenantStore) (t : TenantTable) : Prop :=
  ∀ tenantRef, t.rows.get tenantRef = (st.records.get tenantRef).map rowOf

section mirrors
variable {st : MemoryTenantStore} {t : TenantTable} (h : Mirrors st t) (tenantRef : String)
include h

theorem Mirrors.set (tenantRef : String) (r : TenantRecord) :
    Mirrors ⟨st.records.set tenantRef r⟩ ⟨t.rows.set tenantRef (rowOf r)⟩ := by
  intro other
  rw [JsMap.get_set,JsMap.get_set]
  by_cases ho : other = tenantRef
  · rw [if_pos ho,if_pos ho]
    rfl
  · rw [if_neg ho,if_neg ho]
    exact h other

theorem find_rowOf {condition : TenantRow → Truth} {p : TenantRecord → Bool}
    (hp : ∀ r, (condition (rowOf r)).holds = (r.deletedAt.isNone && p r)) :
    t.find tenantRef condition = ((st.get tenantRef).filter p).map rowOf := by
  rw [TenantTable.find,h tenantRef]
  exact MemoryTenantStore.filter_map_get rowOf hp st tenantRef

theorem find_notDeleted : t.find tenantRef notDeleted = (st.get tenantRef).map rowOf := by
  have hcondition (r : TenantRecord) :
      (notDeleted (rowOf r)).holds = (r.deletedAt.isNone && true) := by simp [notDeleted,rowOf]
  have hfind := find_rowOf h tenantRef hcondition
  cases hg : st.get tenantRef with
  | none => simpa [hg] using hfind
  | some r => simpa [hg,Option.filter_some] using hfind

theorem find_transition (expectedFrom : Option TenantState) (now : Date) :
    t.find tenantRef (transitionCondition expectedFrom now) =
      ((st.get tenantRef).filter (MemoryTenantStore.expects expectedFrom now)).map rowOf := by
  refine find_rowOf h tenantRef fun r => ?_
  cases expectedFrom with
  | none => simp [transitionCondition,notDeleted,MemoryTenantStore.expects,rowOf]
  | some expectedFrom =>
    simp only [transitionCondition,Truth.holds_and,holds_mayTransition]
    simp [notDeleted,MemoryTenantStore.expects,rowOf]

end mirrors

/-! The statements of a method, one after the other. -/

section exec
variable {β : Type} {t : TenantTable} {tenantRef : String} {condition : TenantRow → Truth}
  {set : TenantRow → TenantRow} {row : TenantRow} {script : Nat → Unit}
  (k : Option TenantRow → Program TenantSql TenantBackendError β)

theorem exec_select : ((query (.select tenantRef condition)).bind k).exec TenantTable.handle script t =
    (k (t.find tenantRef condition)).exec TenantTable.handle (fun i => script (i+1)) t := rfl

theorem exec_update_none (hrow : t.find tenantRef condition = none) :
    ((query (.update tenantRef condition set)).bind k).exec TenantTable.handle script t =
      (k none).exec TenantTable.handle (fun i => script (i+1)) t := by
  simp only [query,Program.perform,Program.call_bind,Program.exec_call,TenantTable.handle,hrow]
  rfl

theorem exec_update_some (hrow : t.find tenantRef condition = some row) :
    ((query (.update tenantRef condition set)).bind k).exec TenantTable.handle script t =
      (k (some (set row))).exec TenantTable.handle (fun i => script (i+1))
        ⟨t.rows.set tenantRef (set row)⟩ := by
  simp only [query,Program.perform,Program.call_bind,Program.exec_call,TenantTable.handle,hrow]
  rfl

end exec

@[simp] theorem fromRow_rowOf (r : TenantRecord) : fromRow (rowOf r) = .ret r := by
  simp only [fromRow,rowToTenant_rowOf]
  rfl

section agrees
variable {st : MemoryTenantStore} {t : TenantTable} (h : Mirrors st t) (now : Date)
  (generated tenantRef : String)
include h

theorem create_agrees (input : CreateTenantInput) :
    Agrees Mirrors (MemoryTenantStore.handle (.create input) (now,generated) st)
      (handle (.create input) (now,generated) t) := by
  have hkey := h (input.tenantRef.getD generated)
  simp only [MemoryTenantStore.handle,MemoryTenantStore.create,handle,method,create,insert,query,
    Program.perform,Program.bind_eq,Program.call_bind,Program.tryCatch,Program.exec_call,
    TenantTable.handle,show (newRow (input.tenantRef.getD generated) now input).tenantRef =
      input.tenantRef.getD generated from rfl,hkey]
  cases st.records.get (input.tenantRef.getD generated) with
  | some r => exact ⟨rfl,h⟩
  | none =>
    have hrow : newRow (input.tenantRef.getD generated) now input =
      rowOf (MemoryTenantStore.newRecord (input.tenantRef.getD generated) input now) := rfl
    simp only [Option.map_none,Program.ofExcept,Program.ret_bind,hrow,fromRow_rowOf,
      Program.tryCatch,Program.exec_ret]
    exact ⟨rfl,h.set _ _⟩

theorem get_agrees : Agrees Mirrors (MemoryTenantStore.handle (.get tenantRef) (now,generated) st)
    (handle (.get tenantRef) (now,generated) t) := by
  simp only [handle,method,get,Program.bind_eq,exec_select,find_notDeleted h,
    MemoryTenantStore.handle]
  cases st.get tenantRef with
  | none => exact ⟨rfl,h⟩
  | some r =>
    simp only [Option.map_some,fromRow_rowOf]
    exact ⟨rfl,h⟩

/-- An update of the row is the one of the record. -/
theorem update_agrees {α : Type} {answer : TenantRecord → α} {f : TenantRecord → TenantRecord}
    {set : TenantRow → TenantRow} {k : Option TenantRow → Program TenantSql TenantBackendError α}
    {script : Nat → Unit} (hset : ∀ r, set (rowOf r) = rowOf (f r))
    (hnone : k none = throwing (unknownTenant tenantRef))
    (hsome : ∀ r, k (some (rowOf r)) = .ret (answer r)) :
    Agrees Mirrors (st.settle answer (st.update tenantRef fun r => .ok (f r)))
      (((query (.update tenantRef notDeleted set)).bind k).exec TenantTable.handle script t) := by
  have hrow := find_notDeleted h tenantRef
  cases hg : st.get tenantRef with
  | none =>
    rw [MemoryTenantStore.settle_update_none hg,exec_update_none _ (by rw [hrow,hg]; rfl),hnone]
    exact ⟨rfl,h⟩
  | some r =>
    rw [MemoryTenantStore.settle_replace hg,
      exec_update_some _ (show _ = some (rowOf r) by rw [hrow,hg]; rfl),hset,hsome]
    exact ⟨rfl,h.set _ _⟩

theorem patch_agrees (fields : PatchableTenantFields) :
    Agrees Mirrors (MemoryTenantStore.handle (.patch tenantRef fields) (now,generated) st)
      (handle (.patch tenantRef fields) (now,generated) t) :=
  update_agrees h tenantRef (fun _ => rfl) rfl fromRow_rowOf

theorem exec_progressWith {β : Type} (lastError : Option String) (script : Nat → Unit)
    (k : Option OnboardingProgress → Program TenantSql TenantBackendError β) :
    ∃ script', ((progressWith tenantRef lastError).bind k).exec TenantTable.handle script t =
      (k (lastError.map fun e =>
        { ((st.get tenantRef).map TenantRecord.onboardingProgress).getD {} with
          lastError := some e })).exec TenantTable.handle script' t := by
  cases lastError with
  | none => exact ⟨script,rfl⟩
  | some e =>
    refine ⟨fun i => script (i+1),?_⟩
    simp only [progressWith,Program.bind_eq,Program.bind_assoc,exec_select,find_notDeleted h]
    cases st.get tenantRef with
    | none => rfl
    | some r => rfl

theorem setState_agrees (next : TenantState) (opts : SetStateOptions) :
    Agrees Mirrors (MemoryTenantStore.handle (.setState tenantRef next opts) (now,generated) st)
      (handle (.setState tenantRef next opts) (now,generated) t) := by
  have hrow := find_transition h tenantRef opts.expectedFrom now
  simp only [MemoryTenantStore.handle,handle,method,setState,Program.bind_eq]
  obtain ⟨script,hscript⟩ := exec_progressWith h tenantRef opts.lastError (fun _ => ()) _
  rw [hscript]
  cases hg : st.get tenantRef with
  | none =>
    rw [MemoryTenantStore.settle_update_none hg,exec_update_none _ (by rw [hrow,hg]; rfl)]
    simp only [exec_select,find_notDeleted h,hg,Option.map_none]
    exact ⟨rfl,h⟩
  | some r =>
    cases he : MemoryTenantStore.expects opts.expectedFrom now r with
    | false =>
      rw [MemoryTenantStore.settle_update_error hg (MemoryTenantStore.transition_of_not_expects he),
        exec_update_none _ (by rw [hrow,hg,Option.filter_some,he]; rfl)]
      simp only [exec_select,find_notDeleted h,hg,Option.map_some]
      exact ⟨rfl,h⟩
    | true =>
      rw [MemoryTenantStore.settle_update_ok hg (MemoryTenantStore.transition_of_expects he),
        exec_update_some _ (show _ = some (rowOf r) by rw [hrow,hg,Option.filter_some,he]; rfl)]
      have hset : transitionRow now next opts (opts.lastError.map fun e =>
          { ((some r).map TenantRecord.onboardingProgress).getD {} with lastError := some e })
          (rowOf r) = rowOf (r.withState next opts now) := by
        unfold transitionRow TenantRecord.withState
        cases opts.lastError with
        | none => rfl
        | some e => rfl
      simp only [hset,fromRow_rowOf]
      exact ⟨rfl,h.set _ _⟩

theorem recordOnboardingProgress_agrees (scenario : String) (passed : Bool) :
    Agrees Mirrors (MemoryTenantStore.handle (.recordOnboardingProgress tenantRef scenario passed)
      (now,generated) st) (handle (.recordOnboardingProgress tenantRef scenario passed)
        (now,generated) t) := by
  have hrow := find_notDeleted h tenantRef
  simp only [MemoryTenantStore.handle,handle,method,recordOnboardingProgress,Program.bind_eq,
    exec_select,hrow]
  cases hg : st.get tenantRef with
  | none =>
    rw [MemoryTenantStore.settle_update_none hg]
    exact ⟨rfl,h⟩
  | some r =>
    simp only [Option.map_some]
    rw [MemoryTenantStore.settle_replace hg,
      exec_update_some _ (show _ = some (rowOf r) by rw [hrow,hg]; rfl)]
    exact ⟨rfl,h.set _ (r.withProgress scenario passed now)⟩

theorem setProductionExpiry_agrees (expiresAt : Date) :
    Agrees Mirrors (MemoryTenantStore.handle (.setProductionExpiry tenantRef expiresAt)
      (now,generated) st) (handle (.setProductionExpiry tenantRef expiresAt) (now,generated) t) :=
  update_agrees h tenantRef (fun _ => rfl) rfl fun _ => rfl

theorem softDelete_agrees : Agrees Mirrors
    (MemoryTenantStore.handle (.softDelete tenantRef) (now,generated) st)
    (handle (.softDelete tenantRef) (now,generated) t) := by
  have hrow := find_notDeleted h tenantRef
  have hany : t.find tenantRef (fun _ => .yes) = (st.records.get tenantRef).map rowOf := by
    unfold TenantTable.find
    rw [h tenantRef]
    cases st.records.get tenantRef with
    | none => rfl
    | some r => rfl
  simp only [MemoryTenantStore.handle,MemoryTenantStore.softDelete,handle,method,softDelete,
    Program.bind_eq]
  cases hr : st.records.get tenantRef with
  | none =>
    have hg : st.get tenantRef = none := by simp [MemoryTenantStore.get,hr]
    rw [exec_update_none _ (by rw [hrow,hg]; rfl)]
    simp only [exec_select,hany,hr,Option.map_none]
    exact ⟨rfl,h⟩
  | some r =>
    cases hd : r.deletedAt with
    | some d =>
      have hg : st.get tenantRef = none := by simp [MemoryTenantStore.get,hr,hd,Option.filter_some]
      rw [exec_update_none _ (by rw [hrow,hg]; rfl)]
      simp only [exec_select,hany,hr,Option.map_some,hd]
      exact ⟨rfl,h⟩
    | none =>
      have hg := MemoryTenantStore.get_eq_some.2 ⟨hr,hd⟩
      rw [exec_update_some _ (show _ = some (rowOf r) by rw [hrow,hg]; rfl)]
      simp only [hd]
      exact ⟨rfl,h.set _ { r with state := .revoked, deletedAt := some now, updatedAt := now }⟩

theorem handle_agrees (o : TenantOp) (x : Date × String) :
    Agrees Mirrors (MemoryTenantStore.handle o x st) (handle o x t) := by
  obtain ⟨now,generated⟩ := x
  cases o with
  | create input => exact create_agrees h now generated input
  | get tenantRef => exact get_agrees h now generated tenantRef
  | patch tenantRef fields => exact patch_agrees h now generated tenantRef fields
  | setState tenantRef next opts => exact setState_agrees h now generated tenantRef next opts
  | recordOnboardingProgress tenantRef scenario passed =>
    exact recordOnboardingProgress_agrees h now generated tenantRef scenario passed
  | setProductionExpiry tenantRef expiresAt =>
    exact setProductionExpiry_agrees h now generated tenantRef expiresAt
  | softDelete tenantRef => exact softDelete_agrees h now generated tenantRef

end agrees
end PostgresTenantStore

/-! ### Mongo -/

namespace MongoTenantStore

/-- The document of a record. -/
def docOf (r : TenantRecord) : TenantDoc where
  _id := r.tenantRef
  vatNumber := r.vatNumber.1
  egsUuid := r.egsUuid.1
  vatName := r.vatName
  crn := r.crn.1
  branchName := r.branchName
  branchIndustry := r.branchIndustry
  location := r.location
  environment := r.environment
  state := r.state
  onboardingProgress := some r.onboardingProgress
  productionCertificateExpiresAt := r.productionCertificateExpiresAt
  callbackUrl := r.callbackUrl
  claimedBy := r.claimedBy
  claimExpiresAt := r.claimExpiresAt
  label := r.label
  createdAt := r.createdAt
  updatedAt := r.updatedAt
  deletedAt := r.deletedAt

@[simp] theorem docToTenant_docOf (r : TenantRecord) : docToTenant (docOf r) = .ok r := by
  simp [docToTenant,docOf,asVATNumber,asEGSUuid,asCommercialRegistrationNumber,r.vatNumber.2,
    r.egsUuid.2,r.crn.2,bind,Except.bind,pure,Except.pure]

theorem mayTransition_docOf (expectedFrom : TenantState) (now : Date) (r : TenantRecord) :
    mayTransition expectedFrom now (docOf r) = r.mayTransitionFrom expectedFrom now := by
  have hlock : r.lockNotHeld now =
      (decide (r.state = .onboarding) && claimIsStale now (docOf r)) := by
    unfold TenantRecord.lockNotHeld claimIsStale
    cases hc : r.claimExpiresAt with
    | none => simp [docOf,hc]
    | some e => simp [docOf,hc]
  unfold mayTransition TenantRecord.mayTransitionFrom
  by_cases he : expectedFrom = .onboarding
  · simp only [he,if_true,List.nil_append,List.any_cons,List.any_nil,Bool.or_false,hlock,ne_eq,
      not_true_eq_false,decide_false,Bool.and_false,Bool.false_or]
    rfl
  · simp only [he,if_false,List.singleton_append,List.any_cons,List.any_nil,Bool.or_false,hlock,
      ne_eq,not_false_eq_true,decide_true,Bool.and_true]
    rfl

/-- The collection has the documents of the records. -/
def Mirrors (st : MemoryTenantStore) (t : TenantCollection) : Prop :=
  ∀ tenantRef, t.docs.get tenantRef = (st.records.get tenantRef).map docOf

section mirrors
variable {st : MemoryTenantStore} {t : TenantCollection} (h : Mirrors st t) (tenantRef : String)
include h

theorem Mirrors.put (tenantRef : String) (r : TenantRecord) :
    Mirrors ⟨st.records.set tenantRef r⟩ (t.put tenantRef (docOf r)) := by
  intro other
  rw [TenantCollection.put,JsMap.get_set,JsMap.get_set]
  by_cases ho : other = tenantRef
  · rw [if_pos ho,if_pos ho]
    rfl
  · rw [if_neg ho,if_neg ho]
    exact h other

theorem find_docOf {filter : TenantDoc → Bool} {p : TenantRecord → Bool}
    (hp : ∀ r, filter (docOf r) = (r.deletedAt.isNone && p r)) :
    t.find tenantRef filter = ((st.get tenantRef).filter p).map docOf := by
  rw [TenantCollection.find,h tenantRef]
  exact MemoryTenantStore.filter_map_get docOf hp st tenantRef

theorem find_notDeleted : t.find tenantRef notDeleted = (st.get tenantRef).map docOf := by
  have hfilter (r : TenantRecord) :
      notDeleted (docOf r) = (r.deletedAt.isNone && true) := by simp [notDeleted,docOf]
  have hfind := find_docOf h tenantRef hfilter
  cases hg : st.get tenantRef with
  | none => simpa [hg] using hfind
  | some r => simpa [hg,Option.filter_some] using hfind

theorem find_transition (expectedFrom : Option TenantState) (now : Date) :
    t.find tenantRef (transitionFilter expectedFrom now) =
      ((st.get tenantRef).filter (MemoryTenantStore.expects expectedFrom now)).map docOf := by
  refine find_docOf h tenantRef fun r => ?_
  cases expectedFrom with
  | none => simp [transitionFilter,notDeleted,MemoryTenantStore.expects,docOf]
  | some expectedFrom =>
    simp only [transitionFilter,mayTransition_docOf]
    simp [notDeleted,MemoryTenantStore.expects,docOf]

end mirrors

/-! The commands of a method, one after the other. -/

section exec
variable {β : Type} {t : TenantCollection} {tenantRef : String} {filter : TenantDoc → Bool}
  {update : TenantDoc → TenantDoc} {doc : TenantDoc} {script : Nat → Unit}

theorem exec_findOne (k : Option TenantDoc → Program TenantMongo TenantBackendError β) :
    ((command (.findOne tenantRef filter)).bind k).exec TenantCollection.handle script t =
      (k (t.find tenantRef filter)).exec TenantCollection.handle (fun i => script (i+1)) t := rfl

theorem exec_findOneAndUpdate_none (k : Option TenantDoc → Program TenantMongo TenantBackendError β)
    (hdoc : t.find tenantRef filter = none) :
    ((command (.findOneAndUpdate tenantRef filter update)).bind k).exec TenantCollection.handle
      script t = (k none).exec TenantCollection.handle (fun i => script (i+1)) t := by
  simp only [command,Program.perform,Program.call_bind,Program.exec_call,TenantCollection.handle,
    hdoc]
  rfl

theorem exec_findOneAndUpdate_some (k : Option TenantDoc → Program TenantMongo TenantBackendError β)
    (hdoc : t.find tenantRef filter = some doc) :
    ((command (.findOneAndUpdate tenantRef filter update)).bind k).exec TenantCollection.handle
      script t = (k (some (update doc))).exec TenantCollection.handle (fun i => script (i+1))
        (t.put tenantRef (update doc)) := by
  simp only [command,Program.perform,Program.call_bind,Program.exec_call,TenantCollection.handle,
    hdoc]
  rfl

theorem exec_updateOne_none (k : Nat → Program TenantMongo TenantBackendError β)
    (hdoc : t.find tenantRef filter = none) :
    ((command (.updateOne tenantRef filter update)).bind k).exec TenantCollection.handle script t =
      (k 0).exec TenantCollection.handle (fun i => script (i+1)) t := by
  simp only [command,Program.perform,Program.call_bind,Program.exec_call,TenantCollection.handle,
    hdoc]
  rfl

theorem exec_updateOne_some (k : Nat → Program TenantMongo TenantBackendError β)
    (hdoc : t.find tenantRef filter = some doc) :
    ((command (.updateOne tenantRef filter update)).bind k).exec TenantCollection.handle script t =
      (k 1).exec TenantCollection.handle (fun i => script (i+1))
        (t.put tenantRef (update doc)) := by
  simp only [command,Program.perform,Program.call_bind,Program.exec_call,TenantCollection.handle,
    hdoc]
  rfl

end exec

@[simp] theorem fromDoc_docOf (r : TenantRecord) : fromDoc (docOf r) = .ret r := by
  simp only [fromDoc,docToTenant_docOf]
  rfl

section agrees
variable {st : MemoryTenantStore} {t : TenantCollection} (h : Mirrors st t) (now : Date)
  (generated tenantRef : String)
include h

theorem create_agrees (input : CreateTenantInput) :
    Agrees Mirrors (MemoryTenantStore.handle (.create input) (now,generated) st)
      (handle (.create input) (now,generated) t) := by
  have hkey := h (input.tenantRef.getD generated)
  have hdoc : newDoc (input.tenantRef.getD generated) now input =
    docOf (MemoryTenantStore.newRecord (input.tenantRef.getD generated) input now) := rfl
  simp only [MemoryTenantStore.handle,MemoryTenantStore.create,handle,method,create,command,
    Program.perform,Program.bind_eq,Program.tryCatch,Program.call_bind,Program.exec_call,
    TenantCollection.handle,show (newDoc (input.tenantRef.getD generated) now input)._id =
      input.tenantRef.getD generated from rfl,hkey]
  cases st.records.get (input.tenantRef.getD generated) with
  | some r => exact ⟨rfl,h⟩
  | none =>
    simp only [Option.map_none,Program.ofExcept,Program.tryCatch,Program.ret_bind,hdoc,
      fromDoc_docOf,Program.exec_ret]
    exact ⟨rfl,h.put _ _⟩

theorem get_agrees : Agrees Mirrors (MemoryTenantStore.handle (.get tenantRef) (now,generated) st)
    (handle (.get tenantRef) (now,generated) t) := by
  simp only [handle,method,get,Program.bind_eq,MemoryTenantStore.handle]
  rw [exec_findOne,find_notDeleted h]
  cases st.get tenantRef with
  | none => exact ⟨rfl,h⟩
  | some r =>
    simp only [Option.map_some,fromDoc_docOf]
    exact ⟨rfl,h⟩

theorem patch_agrees (fields : PatchableTenantFields) :
    Agrees Mirrors (MemoryTenantStore.handle (.patch tenantRef fields) (now,generated) st)
      (handle (.patch tenantRef fields) (now,generated) t) := by
  have hdoc := find_notDeleted h tenantRef
  simp only [MemoryTenantStore.handle,handle,method,patch,Program.bind_eq]
  cases hg : st.get tenantRef with
  | none =>
    rw [MemoryTenantStore.settle_update_none hg,
      exec_findOneAndUpdate_none _ (by rw [hdoc,hg]; rfl)]
    exact ⟨rfl,h⟩
  | some r =>
    have hset : patchDoc now fields (docOf r) = docOf (r.patched fields now) := rfl
    rw [MemoryTenantStore.settle_replace hg,
      exec_findOneAndUpdate_some _ (show _ = some (docOf r) by rw [hdoc,hg]; rfl)]
    simp only [hset,fromDoc_docOf]
    exact ⟨rfl,h.put _ _⟩

/-- The read of the progress takes deleted documents too; for one that is not deleted it gives what
the record has. -/
theorem exec_progressWith (lastError : Option String) :
    ∃ (newProgress : Option OnboardingProgress) (script : Nat → Unit),
      (∀ r, st.get tenantRef = some r → newProgress =
        lastError.map fun e => { r.onboardingProgress with lastError := some e }) ∧
      ∀ {β : Type} (k : Option OnboardingProgress → Program TenantMongo TenantBackendError β),
        ((progressWith tenantRef lastError).bind k).exec TenantCollection.handle (fun _ => ()) t =
          (k newProgress).exec TenantCollection.handle script t := by
  cases lastError with
  | none => exact ⟨none,fun _ => (),fun r _ => rfl,fun k => rfl⟩
  | some e =>
    let current := t.find tenantRef fun _ => true
    refine ⟨some { (current.bind TenantDoc.onboardingProgress).getD {} with lastError := some e },
      fun _ => (),fun r hg => ?_,fun k => ?_⟩
    · have hcurrent : current = some (docOf r) := by
        simp only [current,TenantCollection.find]
        rw [h tenantRef,(MemoryTenantStore.get_eq_some.1 hg).1]
        rfl
      rw [hcurrent]
      rfl
    · simp only [progressWith,Program.bind_eq,Program.bind_assoc]
      rw [exec_findOne]
      rfl

theorem setState_agrees (next : TenantState) (opts : SetStateOptions) :
    Agrees Mirrors (MemoryTenantStore.handle (.setState tenantRef next opts) (now,generated) st)
      (handle (.setState tenantRef next opts) (now,generated) t) := by
  have hdoc := find_transition h tenantRef opts.expectedFrom now
  have hlive := find_notDeleted h tenantRef
  obtain ⟨newProgress,script,hnew,hexec⟩ := exec_progressWith h tenantRef opts.lastError
  simp only [MemoryTenantStore.handle,handle,method,setState,Program.bind_eq,hexec]
  cases hg : st.get tenantRef with
  | none =>
    rw [MemoryTenantStore.settle_update_none hg,
      exec_findOneAndUpdate_none _ (by rw [hdoc,hg]; rfl),exec_findOne,hlive,hg]
    exact ⟨rfl,h⟩
  | some r =>
    cases he : MemoryTenantStore.expects opts.expectedFrom now r with
    | false =>
      rw [MemoryTenantStore.settle_update_error hg (MemoryTenantStore.transition_of_not_expects he),
        exec_findOneAndUpdate_none _ (by rw [hdoc,hg,Option.filter_some,he]; rfl),exec_findOne,
        hlive,hg]
      exact ⟨rfl,h⟩
    | true =>
      have hset : transitionDoc now next opts newProgress (docOf r) =
          docOf (r.withState next opts now) := by
        rw [hnew r hg]
        unfold transitionDoc TenantRecord.withState
        cases opts.lastError with
        | none => rfl
        | some e => rfl
      rw [MemoryTenantStore.settle_update_ok hg (MemoryTenantStore.transition_of_expects he),
        exec_findOneAndUpdate_some _
          (show _ = some (docOf r) by rw [hdoc,hg,Option.filter_some,he]; rfl)]
      simp only [hset,fromDoc_docOf]
      exact ⟨rfl,h.put _ _⟩

theorem recordOnboardingProgress_agrees (scenario : String) (passed : Bool) :
    Agrees Mirrors (MemoryTenantStore.handle (.recordOnboardingProgress tenantRef scenario passed)
      (now,generated) st) (handle (.recordOnboardingProgress tenantRef scenario passed)
        (now,generated) t) := by
  have hdoc := find_notDeleted h tenantRef
  simp only [MemoryTenantStore.handle,handle,method,recordOnboardingProgress,Program.bind_eq]
  rw [exec_findOne,hdoc]
  cases hg : st.get tenantRef with
  | none =>
    rw [MemoryTenantStore.settle_update_none hg]
    exact ⟨rfl,h⟩
  | some r =>
    rw [MemoryTenantStore.settle_replace hg]
    simp only [Option.map_some]
    rw [exec_updateOne_some _ (show _ = some (docOf r) by rw [hdoc,hg]; rfl)]
    exact ⟨rfl,h.put _ (r.withProgress scenario passed now)⟩

theorem setProductionExpiry_agrees (expiresAt : Date) :
    Agrees Mirrors (MemoryTenantStore.handle (.setProductionExpiry tenantRef expiresAt)
      (now,generated) st) (handle (.setProductionExpiry tenantRef expiresAt) (now,generated) t) := by
  have hdoc := find_notDeleted h tenantRef
  simp only [MemoryTenantStore.handle,handle,method,setProductionExpiry,Program.bind_eq]
  cases hg : st.get tenantRef with
  | none =>
    rw [MemoryTenantStore.settle_update_none hg,exec_updateOne_none _ (by rw [hdoc,hg]; rfl)]
    exact ⟨rfl,h⟩
  | some r =>
    rw [MemoryTenantStore.settle_replace hg,
      exec_updateOne_some _ (show _ = some (docOf r) by rw [hdoc,hg]; rfl)]
    exact ⟨rfl,h.put _ { r with productionCertificateExpiresAt := some expiresAt, updatedAt := now }⟩

theorem softDelete_agrees : Agrees Mirrors
    (MemoryTenantStore.handle (.softDelete tenantRef) (now,generated) st)
    (handle (.softDelete tenantRef) (now,generated) t) := by
  have hdoc := find_notDeleted h tenantRef
  have hexists (k : Bool → Program TenantMongo TenantBackendError Unit) (script : Nat → Unit) :
      ((command (.exists tenantRef)).bind k).exec TenantCollection.handle script t =
        (k (st.records.get tenantRef).isSome).exec TenantCollection.handle
          (fun i => script (i+1)) t := by
    rw [← Option.isSome_map (f := docOf),← h tenantRef]
    rfl
  simp only [MemoryTenantStore.handle,MemoryTenantStore.softDelete,handle,method,softDelete,
    Program.bind_eq]
  cases hr : st.records.get tenantRef with
  | none =>
    have hg : st.get tenantRef = none := by simp [MemoryTenantStore.get,hr]
    rw [exec_updateOne_none _ (by rw [hdoc,hg]; rfl)]
    simp only [if_true]
    rw [hexists,hr]
    exact ⟨rfl,h⟩
  | some r =>
    cases hd : r.deletedAt with
    | some d =>
      have hg : st.get tenantRef = none := by simp [MemoryTenantStore.get,hr,hd,Option.filter_some]
      rw [exec_updateOne_none _ (by rw [hdoc,hg]; rfl)]
      simp only [if_true,hd]
      rw [hexists,hr]
      exact ⟨rfl,h⟩
    | none =>
      have hg := MemoryTenantStore.get_eq_some.2 ⟨hr,hd⟩
      rw [exec_updateOne_some _ (show _ = some (docOf r) by rw [hdoc,hg]; rfl)]
      simp only [hd]
      exact ⟨rfl,h.put _ { r with state := .revoked, deletedAt := some now, updatedAt := now }⟩

theorem handle_agrees (o : TenantOp) (x : Date × String) :
    Agrees Mirrors (MemoryTenantStore.handle o x st) (handle o x t) := by
  obtain ⟨now,generated⟩ := x
  cases o with
  | create input => exact create_agrees h now generated input
  | get tenantRef => exact get_agrees h now generated tenantRef
  | patch tenantRef fields => exact patch_agrees h now generated tenantRef fields
  | setState tenantRef next opts => exact setState_agrees h now generated tenantRef next opts
  | recordOnboardingProgress tenantRef scenario passed =>
    exact recordOnboardingProgress_agrees h now generated tenantRef scenario passed
  | setProductionExpiry tenantRef expiresAt =>
    exact setProductionExpiry_agrees h now generated tenantRef expiresAt
  | softDelete tenantRef => exact softDelete_agrees h now generated tenantRef

end agrees
end MongoTenantStore

/-- The calls on the memory store, with its errors among those of a store on a database. -/
def MemoryTenantStore.backend : Handler TenantStore TenantBackendError MemoryTenantStore
    (Date × String) := Handler.mapError .zatca MemoryTenantStore.handle

end Zatca
