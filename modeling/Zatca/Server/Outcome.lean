import Zatca.Server.InvoiceRoutes
set_option autoImplicit false

/-! What becomes of the record of a submitted document. The issuer keys the row by a fresh uuid, and
the route reports the gateway's verdict under the invoice number. -/

namespace Zatca
open Interaction

namespace MemoryStorage

/-- The record is in the store, and all that was there before. -/
structure StoredIn (st : MemoryStorage) (scope : TenantScope) (record : InvoiceRecord)
    (st' : MemoryStorage) : Prop where
  own : st'.loadInvoice scope record.invoiceId = some record
  others : ∀ other id, (scopeKey other,id) ≠ (scopeKey scope,record.invoiceId) →
    st'.loadInvoice other id = st.loadInvoice other id

theorem loadInvoice_eq (st : MemoryStorage) (scope : TenantScope) (id : String) :
    st.loadInvoice scope id = (st.getOrCreateScope (scopeKey scope)).records.get id := by
  rw [loadInvoice_ledger,find_ledger]

theorem storedIn_of_recordInvoice {st st' : MemoryStorage} {scope : TenantScope}
    {record : InvoiceRecord} (h : st.recordInvoice scope record = .ok st') :
    StoredIn st scope record st' := by
  cases hg : (st.getOrCreateScope (scopeKey scope)).records.get record.invoiceId with
  | some existing =>
    rw [recordInvoice_of_some st hg] at h
    split at h
    · rename_i he
      cases h
      subst he
      exact ⟨(loadInvoice_eq _ _ _).trans hg,fun _ _ _ => rfl⟩
    · cases h
  | none =>
    rw [recordInvoice_of_none st hg] at h
    cases h
    constructor
    · rw [loadInvoice_eq,getOrCreateScope_set,if_pos rfl]
      simp [ScopeCell.add]
    · intro other id hne
      rw [loadInvoice_eq,loadInvoice_eq,getOrCreateScope_set]
      split
      · rename_i hk
        rw [hk]
        exact JsMap.get_set_ne _ _ (fun hid => hne (by rw [hk,hid]))
      · rfl

/-- An update that is not refused changes the status of one record. -/
theorem loadInvoice_of_update {st st' : MemoryStorage} {scope : TenantScope} {id : String}
    {status : InvoiceStatus} (h : st.updateInvoiceStatus scope id status = .ok st') :
    ∃ r, st.loadInvoice scope id = some r ∧
      st'.loadInvoice scope id = some { r with status } ∧
      ∀ other id', (scopeKey other,id') ≠ (scopeKey scope,id) →
        st'.loadInvoice other id' = st.loadInvoice other id' := by
  cases hg : (st.getOrCreateScope (scopeKey scope)).records.get id with
  | none =>
    rw [updateInvoiceStatus_of_none st hg] at h
    cases h
  | some r =>
    rw [updateInvoiceStatus_of_some st hg] at h
    cases h
    refine ⟨r,(loadInvoice_eq _ _ _).trans hg,?_,fun other id' hne => ?_⟩
    · rw [loadInvoice_eq,getOrCreateScope_set,if_pos rfl]
      simp [ScopeCell.setStatus]
    · rw [loadInvoice_eq,loadInvoice_eq,getOrCreateScope_set]
      split
      · rename_i hk
        rw [hk]
        exact JsMap.get_set_ne _ _ (fun hid => hne (by rw [hk,hid]))
      · rfl

theorem updateInvoiceStatus_of_load {st : MemoryStorage} {scope : TenantScope} {id : String}
    {r : InvoiceRecord} (status : InvoiceStatus) (h : st.loadInvoice scope id = some r) :
    ∃ st', st.updateInvoiceStatus scope id status = .ok st' := by
  rw [loadInvoice_eq] at h
  exact ⟨_,updateInvoiceStatus_of_some st h⟩

end MemoryStorage

section issuing
variable {format : InvoiceNumberFormatter} {α β : Type}

/-- A run that stores a record stores a pending one under `id`, and returns under the number that
the counter of the scope came to. -/
def RecordsUnder (format : InvoiceNumberFormatter) (scope₀ : TenantScope) (id : String)
    (number : α → String) (p : Program StorageAdapter Thrown α) : Prop :=
  ∀ script st scope record,
    ⟨.recordInvoice scope record,.ok ()⟩ ∈ p.trace (MemoryStorage.handle format) script st →
    scope = scope₀ ∧ record.invoiceId = id ∧ record.status = .pending ∧
      ∃ a st', p.exec (MemoryStorage.handle format) script st = (.ok a,st') ∧
        number a = (st.incrementCounter format (script 0) scope).1.invoiceNumber ∧
        st.StoredIn scope record st'

theorem RecordsUnder.map {scope₀ : TenantScope} {id : String} {number : α → String}
    {p : Program StorageAdapter Thrown α} (h : RecordsUnder format scope₀ id number p) (f : α → β)
    {number' : β → String} (hf : ∀ a, number' (f a) = number a) :
    RecordsUnder format scope₀ id number' (p.bind (fun a => .ret (f a))) := by
  intro script st scope record hr
  have hin : ⟨.recordInvoice scope record,.ok ()⟩ ∈
      p.trace (MemoryStorage.handle format) script st := by
    rw [Program.trace_bind,List.mem_append] at hr
    rcases hr with hr | hr
    · exact hr
    · split at hr <;> simp at hr
  obtain ⟨hs,hid,hst,a,st',he,hn,hstored⟩ := h script st scope record hin
  refine ⟨hs,hid,hst,f a,st',?_,(hf a).trans hn,hstored⟩
  rw [Program.exec_bind,he]
  rfl

/-- The last two steps of every issuer. -/
theorem trace_recordInvoice {scope₀ scope : TenantScope} {r record : InvoiceRecord} {a : α}
    {script : Nat → Date} {st : MemoryStorage}
    (h : ⟨.recordInvoice scope record,.ok ()⟩ ∈ ((StorageAdapter.recordInvoice scope₀ r).bind
      (fun _ => .ret a)).trace (MemoryStorage.handle format) script st) :
    scope = scope₀ ∧ record = r ∧ ∃ st', ((StorageAdapter.recordInvoice scope₀ r).bind
      (fun _ => .ret a)).exec (MemoryStorage.handle format) script st = (.ok a,st') ∧
        st.StoredIn scope record st' := by
  simp only [StorageAdapter.recordInvoice,Program.perform,Program.call_bind,Program.trace_call,
    Program.exec_call,MemoryStorage.handle] at h ⊢
  cases hr : st.recordInvoice scope₀ r with
  | ok st' =>
    simp only [hr,Program.ofExcept,Program.ret_bind,Program.trace_ret,List.mem_singleton,
      Sigma.mk.injEq,StorageOp.recordInvoice.injEq] at h ⊢
    obtain ⟨⟨rfl,rfl⟩,-⟩ := h
    exact ⟨rfl,rfl,st',rfl,MemoryStorage.storedIn_of_recordInvoice hr⟩
  | error e =>
    simp only [hr,Program.ofExcept,Program.throw_bind,Program.trace_throw,List.mem_singleton,
      Sigma.mk.injEq,StorageOp.recordInvoice.injEq] at h
    obtain ⟨⟨rfl,rfl⟩,h⟩ := h
    cases h

variable (B : Builders) (kind : InvoiceKind)

theorem issuePhase2_recordsUnder (args : IssueArgs) :
    RecordsUnder format args.scope args.recordId IssuedInvoice.invoiceNumber
      (issuePhase2 B kind args) := by
  intro script st scope record hr
  simp only [issuePhase2,Program.bind_eq,Program.ofExcept_bind,StorageAdapter.incrementCounter,
    StorageAdapter.getPreviousHash,Program.perform,Program.call_bind,Program.pure_eq] at hr ⊢
  cases ha : assertScope args.egsInfo args.scope with
  | error e => simp [ha] at hr
  | ok u =>
    simp only [ha,Program.trace_call,Program.exec_call,MemoryStorage.handle,List.mem_cons,
      Sigma.mk.injEq,reduceCtorEq,false_and,false_or] at hr ⊢
    generalize hb : B.build kind _ args.signing = built at hr ⊢
    cases built with
    | error e => simp at hr
    | ok built =>
      obtain ⟨rfl,rfl,st',he,hstored⟩ := trace_recordInvoice hr
      exact ⟨rfl,rfl,rfl,_,st',he,rfl,⟨hstored.own,hstored.others⟩⟩

theorem issuePhase1_recordsUnder (args : IssuePhase1Args) :
    RecordsUnder format args.scope args.recordId IssuedPhase1Invoice.invoiceNumber
      (issuePhase1 B kind args) := by
  intro script st scope record hr
  simp only [issuePhase1,Program.bind_eq,Program.ofExcept_bind,StorageAdapter.incrementCounter,
    Program.perform,Program.call_bind,Program.pure_eq] at hr ⊢
  cases ha : assertScope args.egsInfo args.scope with
  | error e => simp [ha] at hr
  | ok u =>
    simp only [ha,Program.trace_call,Program.exec_call,MemoryStorage.handle,List.mem_cons,
      Sigma.mk.injEq,reduceCtorEq,false_and,false_or] at hr ⊢
    generalize hb : B.buildPhase1 kind _ = built at hr ⊢
    cases built with
    | error e => simp at hr
    | ok built =>
      obtain ⟨rfl,rfl,st',he,hstored⟩ := trace_recordInvoice hr
      exact ⟨rfl,rfl,rfl,_,st',he,rfl,⟨hstored.own,hstored.others⟩⟩

theorem issueInvoice_recordsUnder (args : IssueInvoiceArgs) :
    RecordsUnder format args.scope args.host.randomUUID Issued.invoiceNumber
      (issueInvoice B args) := by
  have phase2 (kind : InvoiceKind) (signing : SigningMaterial) :
      RecordsUnder format args.scope args.host.randomUUID Issued.invoiceNumber
        ((issuePhase2 B kind { input := args.input.toBusinessInput, egsInfo := args.input.egsInfo
                               scope := args.scope, host := args.host, signing }).bind
          (fun i => .ret (.phase2 i))) :=
    (issuePhase2_recordsUnder B kind _).map Issued.phase2 (fun _ => rfl)
  have phase1 (kind : InvoiceKind) :
      RecordsUnder format args.scope args.host.randomUUID Issued.invoiceNumber
        ((issuePhase1 B kind { input := args.input.toBusinessInput, egsInfo := args.input.egsInfo
                               scope := args.scope, host := args.host }).bind
          (fun i => .ret (.phase1 i))) :=
    (issuePhase1_recordsUnder B kind _).map Issued.phase1 (fun _ => rfl)
  have throws (e : Thrown) : RecordsUnder format args.scope args.host.randomUUID
      Issued.invoiceNumber (.throw e) := by
    intro script st scope record hr
    simp at hr
  unfold issueInvoice
  cases args.input.kind with
  | phase1Invoice => exact phase1 _
  | phase1CreditNote => exact phase1 _
  | _ =>
    cases args.signing with
    | none => exact throws _
    | some signing => exact phase2 _ signing

end issuing

/-! The gateway answers with a success or a refusal, and nothing fails of its own accord. -/

def IsAnswer (status : Nat) : Prop := isSuccess status ∨ 400 ≤ status ∧ status < 500

structure Choice.Clean (x : Choice) : Prop where
  noFailure : x.failure = none
  answers : ∃ response body, x.reply = .ok response ∧ IsAnswer response.status ∧
    response.text = .ok body

def verdictOf (status : Nat) : InvoiceStatus := if isSuccess status then .accepted else .rejected

section gateway
variable {R : Runtime} {xml : InvoiceTypeCodeReader}

theorem requestLoop_answer (url : String) (init : RequestInit) (timeoutMs : Nat)
    (retries : RetryOptions) (left attempt : Nat) :
    ∃ k, requestLoop R url init timeoutMs retries left attempt = .call (.fetch url init) k ∧
      ∀ response body, IsAnswer response.status → response.text = .ok body →
        if isSuccess response.status then ∃ parsed, k (.ok response) = .ret parsed
        else ∃ e, k (.ok response) = .throw (.zatcaApiError e) := by
  have hattempt (last : Bool) : ∃ k, requestAttempt R url init timeoutMs retries attempt last =
      .call (.fetch url init) k ∧
      ∀ response body, IsAnswer response.status → response.text = .ok body →
        if isSuccess response.status then ∃ parsed, k (.ok response) = .ret (some parsed)
        else ∃ e, k (.ok response) = .throw (.zatcaApiError e) := by
    refine ⟨_,rfl,fun response body ha hb => ?_⟩
    cases hs : isSuccess response.status with
    | true =>
      simp [Program.ofExcept,hs,readBody,hb,Except.map,Program.tryCatch]
    | false =>
      have h5 : isRetryableStatus response.status = false := by
        rcases ha with ha | ha
        · simp [hs] at ha
        · simp only [isRetryableStatus,Bool.and_eq_false_iff,decide_eq_false_iff_not]
          omega
      simp [Program.ofExcept,hs,h5,readBody,hb,Except.map,Program.tryCatch,requestFailed,
        requestCatch]
  have hloop {last : Bool} {f : Option (Option Json) → Program HttpClient Thrown (Option Json)}
      (hf : ∀ parsed, f (some parsed) = .ret parsed) :
      ∃ k, (requestAttempt R url init timeoutMs retries attempt last).bind f =
          .call (.fetch url init) k ∧
        ∀ response body, IsAnswer response.status → response.text = .ok body →
          if isSuccess response.status then ∃ parsed, k (.ok response) = .ret parsed
          else ∃ e, k (.ok response) = .throw (.zatcaApiError e) := by
    obtain ⟨k,hk,hkr⟩ := hattempt last
    rw [hk]
    refine ⟨_,rfl,fun response body ha hb => ?_⟩
    have := hkr response body ha hb
    split
    · rename_i hs
      rw [if_pos hs] at this
      obtain ⟨parsed,hp⟩ := this
      exact ⟨parsed,by rw [hp,Program.ret_bind,hf]⟩
    · rename_i hs
      rw [if_neg hs] at this
      obtain ⟨e,he⟩ := this
      exact ⟨e,by rw [he,Program.throw_bind]⟩
  cases left with
  | zero => exact hloop (fun _ => rfl)
  | succ left => exact hloop (fun _ => rfl)

theorem decideStatus_of_unprepared {p : InvoiceSubmissionParams} {e : Thrown}
    (h : prepareSubmission R xml p = .error e) :
    (∃ outcome, decideStatus R xml p = .ret outcome) ∨ decideStatus R xml p = .throw e := by
  unfold decideStatus
  rw [singleInvoice_eq,h]
  cases e with
  | zatcaApiError e => exact .inl ⟨_,rfl⟩
  | _ => exact .inr rfl

/-- Once prepared, the first answer settles the verdict. -/
theorem decideStatus_of_prepared {p : InvoiceSubmissionParams} {simplified : Bool} {url : String}
    {init : RequestInit} (h : prepareSubmission R xml p = .ok (simplified,url,init)) :
    ∃ k, decideStatus R xml p = .call (.fetch url init) k ∧
      ∀ response body, IsAnswer response.status → response.text = .ok body →
        ∃ outcome, k (.ok response) = .ret outcome ∧ outcome.status = verdictOf response.status := by
  obtain ⟨k,hk,hkr⟩ := requestLoop_answer (R := R) url init p.timeoutMs p.retries p.retries.count 0
  unfold decideStatus
  rw [singleInvoice_eq,h]
  simp only [hk]
  refine ⟨_,rfl,fun response body ha hb => ?_⟩
  have := hkr response body ha hb
  unfold verdictOf
  beta_reduce
  split at this
  · rename_i hs
    obtain ⟨parsed,hp⟩ := this
    rw [hp,if_pos hs]
    exact ⟨_,rfl,rfl⟩
  · rename_i hs
    obtain ⟨e,he⟩ := this
    rw [he,if_neg hs]
    exact ⟨_,rfl,rfl⟩

end gateway

def ServerOp.isFetch : ServerOp → Bool
  | .http (.fetch _ _) => true
  | _ => false

def ServerOp.isRecord : ServerOp → Bool
  | .storage (.recordInvoice _ _) => true
  | _ => false

section run
variable {D : Deps} {script : Nat → Choice} {w : World} {α : Type}

theorem World.handle_clean {x : Choice} (hx : x.Clean) (o : ServerOp) (w : World) :
    World.handle D o x w = World.serve D o x { w with now := x.now } := by
  simp [World.handle,hx.noFailure]

theorem clean_rest (hx : ∀ i, (script i).Clean) (p : Program Server Thrown α) (w : World) (i : Nat) :
    (p.rest (World.handle D) script w i).Clean := by
  rw [Program.rest_eq_drop]
  exact hx _

/-- A program on the storage interface runs in the world as on its storage. -/
theorem run_storage (hx : ∀ i, (script i).Clean) (p : Program StorageAdapter Thrown α) :
    (p.embed Server.storage).trace (World.handle D) script w =
        (p.trace (MemoryStorage.handle D.format) (fun i => (script i).now) w.storage).map
          (fun c => ⟨.storage c.1,c.2⟩) ∧
      ∃ now, (p.embed Server.storage).exec (World.handle D) script w =
        ((p.exec (MemoryStorage.handle D.format) (fun i => (script i).now) w.storage).1,
          { w with
            now
            storage :=
              (p.exec (MemoryStorage.handle D.format) (fun i => (script i).now) w.storage).2 }) := by
  induction p generalizing script w with
  | ret a => exact ⟨rfl,w.now,rfl⟩
  | throw e => exact ⟨rfl,w.now,rfl⟩
  | call o k ih =>
    simp only [Program.embed,Program.trace_call,Program.exec_call,World.handle_clean (hx 0),
      World.serve,map_self,List.map_cons]
    obtain ⟨ht,now,he⟩ := ih (MemoryStorage.handle D.format o (script 0).now w.storage).1
      (fun i => hx (i+1)) (w := { w with
        now := (script 0).now
        storage := (MemoryStorage.handle D.format o (script 0).now w.storage).2 })
    exact ⟨congrArg (List.cons _) ht,now,he⟩

variable {auth : AuthenticatedTenant} {issued : Issued} {submit : Bool} {response : Response}

theorem reportStatus_calls (outcome : SubmissionOutcome) : (reportStatus auth issued outcome).Calls
    (fun o => ServerOp.isFetch o = false ∧ ServerOp.isRecord o = false) :=
  Program.calls_bind (Program.calls_perform ⟨rfl,rfl⟩) fun _ => trivial

theorem not_answered {outcome : SubmissionOutcome} {url : String} {init : RequestInit} :
    ⟨.http (.fetch url init),.ok response⟩ ∉
      (reportStatus auth issued outcome).trace (World.handle D) script w := by
  intro ha
  have := Program.trace_calls (reportStatus_calls outcome) script w _ ha
  simp [ServerOp.isFetch] at this

theorem exec_reportStatus (hx : ∀ i, (script i).Clean) (outcome : SubmissionOutcome) :
    ∃ now, (reportStatus auth issued outcome).exec (World.handle D) script w =
      match w.storage.updateInvoiceStatus (toTenantScope auth.tenant) issued.invoiceNumber
          outcome.status with
      | .ok st => (.ok outcome,{ w with now, storage := st })
      | .error e => (.error e,{ w with now }) := by
  refine ⟨(script 0).now,?_⟩
  simp only [reportStatus,Program.bind_eq,Program.perform,Program.call_bind,Program.exec_call,
    World.handle_clean (hx 0),World.serve,MemoryStorage.handle]
  cases w.storage.updateInvoiceStatus (toTenantScope auth.tenant) issued.invoiceNumber
    outcome.status <;> rfl

/-- The verdict that arrives is reported to the storage under the number of the document. -/
theorem submitIssued_answered (hx : ∀ i, (script i).Clean) {url : String} {init : RequestInit}
    (ha : ⟨.http (.fetch url init),.ok response⟩ ∈
      (submitIssued D auth issued submit).trace (World.handle D) script w) :
    ∃ outcome now, outcome.status = verdictOf response.status ∧
      (submitIssued D auth issued submit).exec (World.handle D) script w =
        match w.storage.updateInvoiceStatus (toTenantScope auth.tenant) issued.invoiceNumber
            outcome.status with
        | .ok st => (.ok outcome,{ w with now, storage := st })
        | .error e => (.error e,{ w with now }) := by
  match issued, submit with
  | .phase1 _, _ => simp [submitIssued] at ha
  | .phase2 _, false => simp [submitIssued] at ha
  | .phase2 invoice, true =>
    have hsub : submitIssued D auth (.phase2 invoice) true =
        ((decideStatus D.runtime D.invoiceTypeCode (submissionParams auth invoice)).embed
          Server.http).bind (reportStatus auth (.phase2 invoice)) := rfl
    rw [hsub] at ha ⊢
    cases hprep : prepareSubmission D.runtime D.invoiceTypeCode (submissionParams auth invoice) with
    | error e =>
      rcases decideStatus_of_unprepared hprep with ⟨outcome,hd⟩ | hd
      · rw [hd] at ha
        exact absurd ha not_answered
      · simp [hd,Program.embed] at ha
    | ok prepared =>
      obtain ⟨simplified,url',init'⟩ := prepared
      obtain ⟨k,hk,hkr⟩ := decideStatus_of_prepared hprep
      obtain ⟨response',body,hreply,hans,hbody⟩ := (hx 0).answers
      obtain ⟨outcome,ho,hstatus⟩ := hkr response' body hans hbody
      have hk' : (k (Except.map (fun r => r) (.ok response'))).embed Server.http =
          (.ret outcome : Program Server Thrown SubmissionOutcome) := congrArg _ ho
      simp only [hk,Program.embed,Program.call_bind,Program.trace_call,Program.exec_call,
        World.handle_clean (hx 0),World.serve,hreply,hk',Program.ret_bind,List.mem_cons] at ha ⊢
      have hr : response = response' := by
        rcases ha with ha | ha
        · simp only [Sigma.mk.injEq,ServerOp.http.injEq,HttpOp.fetch.injEq] at ha
          obtain ⟨⟨rfl,rfl⟩,ha⟩ := ha
          cases ha
          rfl
        · exact absurd ha not_answered
      subst hr
      obtain ⟨now,he⟩ := @exec_reportStatus D _ { w with now := (script 0).now } auth
        (.phase2 invoice) (fun i => hx (i+1)) outcome
      exact ⟨outcome,now,hstatus,he⟩

theorem submitIssued_calls :
    (submitIssued D auth issued submit).Calls (fun o => ServerOp.isRecord o = false) := by
  match issued, submit with
  | .phase1 _, _ => trivial
  | .phase2 _, false => trivial
  | .phase2 _, true =>
    refine Program.calls_bind (Program.calls_embed (fun _ => rfl) _) fun outcome => ?_
    exact Program.calls_bind (Program.calls_perform rfl) fun _ => trivial

theorem conclude_calls {cacheKey : Option String} {outcome : SubmissionOutcome} :
    (conclude D auth issued cacheKey outcome).Calls
      (fun o => ServerOp.isFetch o = false ∧ ServerOp.isRecord o = false) := by
  refine Program.calls_bind (Program.calls_perform ⟨rfl,rfl⟩) fun _ => ?_
  cases cacheKey with
  | none => trivial
  | some key => exact Program.calls_bind (Program.calls_perform ⟨rfl,rfl⟩) fun _ => trivial

/-- A claimed key is committed, and nothing else can go wrong. -/
theorem exec_conclude (hx : ∀ i, (script i).Clean) {cacheKey : Option String}
    (hkey : ∀ key ∈ cacheKey, (w.idempotency.entries.get key).isSome) (outcome : SubmissionOutcome) :
    ∃ reply, ((conclude D auth issued cacheKey outcome).exec (World.handle D) script w).1 = .ok reply ∧
      ((conclude D auth issued cacheKey outcome).exec (World.handle D) script w).2.storage =
        w.storage := by
  cases cacheKey with
  | none =>
    simp only [conclude,Program.bind_eq,Program.perform,Program.call_bind,Program.exec_call,
      World.handle_clean (hx 0),World.serve,commitIdempotency,Program.ret_bind,Program.pure_eq]
    exact ⟨_,rfl,rfl⟩
  | some key =>
    obtain ⟨entry,hentry⟩ := Option.isSome_iff_exists.1 (hkey key rfl)
    simp only [conclude,Program.bind_eq,Program.perform,Program.call_bind,Program.exec_call,
      World.handle_clean (hx 0),World.serve,commitIdempotency,Program.pure_eq,Program.ofExcept,
      Program.ret_bind,World.handle_clean (hx 1),MemoryIdempotencyStore.handle,
      MemoryIdempotencyStore.commit,hentry]
    exact ⟨_,rfl,rfl⟩

variable {host : HostValues} {input : RawInput} {cacheKey : Option String} {scope : TenantScope}
  {record : InvoiceRecord}

theorem issueFromBody_recorded (hx : ∀ i, (script i).Clean)
    (hp : ⟨.storage (.recordInvoice scope record),.ok ()⟩ ∈
      (issueFromBody D auth host input).trace (World.handle D) script w) :
    scope = toTenantScope auth.tenant ∧ record.invoiceId = host.randomUUID ∧
      record.status = .pending ∧ ∃ issued now st,
        (issueFromBody D auth host input).exec (World.handle D) script w =
          (.ok issued,{ w with now, storage := st }) ∧
        issued.invoiceNumber =
          (w.storage.incrementCounter D.format (script 0).now scope).1.invoiceNumber ∧
        w.storage.StoredIn scope record st := by
  cases input with
  | unhandled value => simp [issueFromBody] at hp
  | nullish => simp [issueFromBody] at hp
  | invoice input =>
    simp only [issueFromBody] at hp ⊢
    obtain ⟨ht,now,he⟩ := run_storage (D := D) (w := w) hx (issueInvoice D.builders
      { input, scope := toTenantScope auth.tenant
        signing := some ⟨auth.signing.productionCertificate,auth.signing.privateKey⟩, host })
    rw [ht,List.mem_map] at hp
    obtain ⟨⟨o,r⟩,hc,heq⟩ := hp
    cases heq
    obtain ⟨hs,hid,hst,issued,st,hex,hn,hstored⟩ := issueInvoice_recordsUnder _ _ _ _ _ _ hc
    rw [he,hex]
    exact ⟨hs,hid,hst,issued,now,st,rfl,hn,hstored⟩

theorem issueFromBody_calls : (issueFromBody D auth host input).Calls
    (fun o => ServerOp.isFetch o = false) := by
  cases input with
  | unhandled value => trivial
  | nullish => trivial
  | invoice input => exact Program.calls_embed (fun _ => rfl) _

/-- The work of a request that stored a record and was answered by the gateway comes down to one
update of the storage. -/
theorem issueWork_answered (hx : ∀ i, (script i).Clean)
    (hkey : ∀ key ∈ cacheKey, (w.idempotency.entries.get key).isSome)
    (hp : ⟨.storage (.recordInvoice scope record),.ok ()⟩ ∈
      (issueWork D auth host input submit cacheKey).trace (World.handle D) script w)
    {url : String} {init : RequestInit} (ha : ⟨.http (.fetch url init),.ok response⟩ ∈
      (issueWork D auth host input submit cacheKey).trace (World.handle D) script w) :
    record.invoiceId = host.randomUUID ∧ record.status = .pending ∧ ∃ st,
      w.storage.StoredIn scope record st ∧
      match st.updateInvoiceStatus scope
        (w.storage.incrementCounter D.format (script 0).now scope).1.invoiceNumber
        (verdictOf response.status) with
      | .ok st' => ∃ reply w', (issueWork D auth host input submit cacheKey).exec (World.handle D)
          script w = (.ok reply,w') ∧ w'.storage = st'
      | .error e => ∃ w', (issueWork D auth host input submit cacheKey).exec (World.handle D)
          script w = (.error e,w') := by
  rw [issueWork_eq] at hp ha ⊢
  cases hk : checkKind submit input with
  | error e => simp [hk,Program.ofExcept] at hp
  | ok u =>
    simp only [hk,Program.ofExcept,Program.ret_bind] at hp ha ⊢
    have hlater (issued : Issued) : ((submitIssued D auth issued submit).bind
        (conclude D auth issued cacheKey)).Calls (fun o => ServerOp.isRecord o = false) :=
      Program.calls_bind submitIssued_calls fun outcome => Program.Calls.mono conclude_calls fun o ho => ho.2
    have hissue := Program.mem_trace_bind_left hlater (by simp [ServerOp.isRecord]) hp
    obtain ⟨rfl,hid,hst,issued,now,st,hex,hn,hstored⟩ := issueFromBody_recorded hx hissue
    refine ⟨hid,hst,st,hstored,?_⟩
    have hx' := clean_rest (D := D) hx (issueFromBody D auth host input) w
    rw [Program.trace_bind,hex,List.mem_append] at ha
    rcases ha with ha | ha
    · have := Program.trace_calls issueFromBody_calls script w _ ha
      simp [ServerOp.isFetch] at this
    · have hsub := Program.mem_trace_bind_left (fun outcome => Program.Calls.mono conclude_calls fun o ho => ho.1)
        (by simp [ServerOp.isFetch]) ha
      obtain ⟨outcome,now',hv,hrun⟩ := submitIssued_answered hx' hsub
      rw [Program.exec_bind,hex]
      simp only [Program.exec_bind]
      rw [hrun,hn,hv]
      cases hu : st.updateInvoiceStatus (toTenantScope auth.tenant) _ (verdictOf response.status) with
      | error e => exact ⟨_,rfl⟩
      | ok st' =>
        obtain ⟨reply,hreply,hstore⟩ := @exec_conclude D _ { w with now := now', storage := st' } auth
          issued (clean_rest hx' _ _) _ hkey outcome
        exact ⟨reply,_,Prod.ext hreply rfl,hstore⟩

/-! The way to the issuer leaves the storage alone. -/

theorem storage_of_calls {p : Program Server Thrown α}
    (hp : p.Calls (fun o => ServerOp.store o ≠ some .storage)) :
    (p.exec (World.handle D) script w).2.storage = w.storage :=
  Program.exec_keeps World.storage (fun o x w ho => (World.handle_frame D o x w).storage ho) hp
    script w

theorem authTenant_calls (authHeader : Option String) (tenantRef : String) :
    (authTenant authHeader tenantRef).Calls (fun o => ServerOp.isFetch o = false ∧
      ServerOp.isRecord o = false ∧ ServerOp.store o ≠ some .storage) := by
  refine (authTenant_reads authHeader tenantRef).mono fun o ho => ?_
  cases ho with
  | _ => exact ⟨rfl,rfl,nofun⟩

theorem authTenant_takes (authHeader : Option String) (tenantRef : String) :
    (authTenant authHeader tenantRef).Takes 3 (World.handle D) := by
  have hverify : (verifyTenant authHeader tenantRef).Takes (1+0) (World.handle D) := by
    unfold verifyTenant
    split
    · exact Program.takes_throw _ _
    · exact Program.takes_throw _ _
    · split
      · exact Program.takes_throw _ _
      · refine (Program.takes_perform _).bind fun key => ?_
        cases key with
        | none => exact Program.takes_throw _ _
        | some key =>
          simp only
          split
          · exact Program.takes_throw _ _
          · exact Program.takes_ret _
  refine hverify.bind (n := 1+(1+0)) fun resolved => ?_
  refine (Program.takes_perform _).bind fun tenant => ?_
  cases tenant with
  | none => exact Program.takes_throw _ _
  | some tenant =>
    simp only
    split
    · exact Program.takes_throw _ _
    · refine (Program.takes_perform _).bind fun signing => ?_
      cases signing with
      | none => exact Program.takes_throw _ _
      | some signing => exact Program.takes_ret _

/-- The calls that the issuer's first one follows. -/
def callsBeforeIssue (idempotencyKey : Option HeaderValue) : Nat :=
  match readIdempotencyKey idempotencyKey with
  | .ok (some _) => 4
  | _ => 3

theorem beginIdempotency_calls (idemKey : Option String) (tenantRef route : String) :
    (beginIdempotency D idemKey tenantRef route).Calls (fun o => ServerOp.isFetch o = false ∧
      ServerOp.isRecord o = false ∧ ServerOp.store o ≠ some .storage) := by
  refine (beginIdempotency_cached D idemKey tenantRef route).mono fun o ho => ?_
  cases o with
  | idempotency o => exact ⟨rfl,rfl,nofun⟩
  | _ => exact False.elim ho

/-- Whoever is told to proceed under a key has claimed it. -/
theorem beginIdempotency_proceeds (hx : ∀ i, (script i).Clean) {idemKey : Option String}
    {tenantRef route : String} {w' : World}
    (h : (beginIdempotency D idemKey tenantRef route).exec (World.handle D) script w =
      (.ok (.proceed cacheKey),w')) :
    ((beginIdempotency D idemKey tenantRef route).trace (World.handle D) script w).length =
        (if idemKey.isSome then 1 else 0) ∧
      ∀ key ∈ cacheKey, (w'.idempotency.entries.get key).isSome := by
  cases idemKey with
  | none =>
    cases h
    exact ⟨rfl,by simp⟩
  | some presentedKey =>
    simp only [beginIdempotency,Program.bind_eq,Program.perform,Program.call_bind,Program.exec_call,
      Program.trace_call,World.handle_clean (hx 0),World.serve,MemoryIdempotencyStore.handle,
      Program.ofExcept,Program.ret_bind] at h ⊢
    rcases MemoryIdempotencyStore.begin_cases w.idempotency (script 0).now
      (buildIdempotencyCacheKey D.runtime (some tenantRef) route presentedKey) (idempotencyTtl D)
      with ⟨hb,-,hslot,-⟩ | ⟨hb,-,-⟩
    · simp only [hb,Program.pure_eq,Program.exec_ret,Program.trace_ret] at h ⊢
      cases h
      refine ⟨rfl,?_⟩
      rintro key hkey
      cases hkey
      simp only [MemoryIdempotencyStore.slot,Option.map_eq_some_iff] at hslot
      obtain ⟨entry,he,-⟩ := hslot
      simp [he]
    · cases hr : (w.idempotency.begin (script 0).now
        (buildIdempotencyCacheKey D.runtime (some tenantRef) route presentedKey)
        (idempotencyTtl D)).1 with
      | claimed => exact absurd hr hb
      | inFlight =>
        simp only [hr] at h
        cases h
      | replay cached =>
        simp only [hr] at h
        cases h

variable {req : IssueRequest}

theorem underSlot_answered (hx : ∀ i, (script i).Clean)
    (hkey : ∀ key ∈ cacheKey, (w.idempotency.entries.get key).isSome)
    (hp : ⟨.storage (.recordInvoice scope record),.ok ()⟩ ∈
      (underSlot cacheKey (issueWork D auth host input submit cacheKey)).trace (World.handle D)
        script w)
    {url : String} {init : RequestInit} (ha : ⟨.http (.fetch url init),.ok response⟩ ∈
      (underSlot cacheKey (issueWork D auth host input submit cacheKey)).trace (World.handle D)
        script w) :
    record.invoiceId = host.randomUUID ∧ record.status = .pending ∧ ∃ st,
      w.storage.StoredIn scope record st ∧
      match st.updateInvoiceStatus scope
        (w.storage.incrementCounter D.format (script 0).now scope).1.invoiceNumber
        (verdictOf response.status) with
      | .ok st' => ∃ reply w',
          (underSlot cacheKey (issueWork D auth host input submit cacheKey)).exec (World.handle D)
            script w = (.ok reply,w') ∧ w'.storage = st'
      | .error _ => ∃ e w',
          (underSlot cacheKey (issueWork D auth host input submit cacheKey)).exec (World.handle D)
            script w = (.error e,w') := by
  have hrelease (err : Thrown) : ((releaseIdempotency cacheKey).bind (fun _ =>
      (Program.throw err : Program Server Thrown Reply))).Calls (fun o =>
        ServerOp.isFetch o = false ∧ ServerOp.isRecord o = false) := by
    cases cacheKey with
    | none => trivial
    | some key => exact Program.calls_bind (Program.calls_perform ⟨rfl,rfl⟩) fun _ => trivial
  have hp := Program.mem_trace_tryCatch_left hrelease (by simp [ServerOp.isRecord]) hp
  have ha := Program.mem_trace_tryCatch_left hrelease (by simp [ServerOp.isFetch]) ha
  obtain ⟨hid,hst,st,hstored,hm⟩ := issueWork_answered hx hkey hp ha
  refine ⟨hid,hst,st,hstored,?_⟩
  simp only [underSlot,Program.bind_eq,Program.exec_tryCatch]
  split at hm
  · obtain ⟨reply,w',he,hs⟩ := hm
    rw [he]
    exact ⟨reply,w',rfl,hs⟩
  · obtain ⟨w',he⟩ := hm
    rw [he]
    cases cacheKey with
    | none => exact ⟨_,_,rfl⟩
    | some key =>
      simp only [releaseIdempotency,Program.perform,Program.call_bind,Program.exec_call]
      cases (World.handle D (.idempotency (.release key))
        ((issueWork D auth host input submit (some key)).rest (World.handle D) script w 0) w').1 with
      | ok u => exact ⟨_,_,rfl⟩
      | error e => exact ⟨_,_,rfl⟩

/-- The whole request, likewise. -/
theorem issueRoute_answered (hx : ∀ i, (script i).Clean)
    (hp : ⟨.storage (.recordInvoice scope record),.ok ()⟩ ∈
      (issueRoute D req).trace (World.handle D) script w)
    {url : String} {init : RequestInit} (ha : ⟨.http (.fetch url init),.ok response⟩ ∈
      (issueRoute D req).trace (World.handle D) script w) :
    record.invoiceId = req.host.randomUUID ∧ record.status = .pending ∧ ∃ st,
      w.storage.StoredIn scope record st ∧
      match st.updateInvoiceStatus scope (w.storage.incrementCounter D.format
          (script (callsBeforeIssue req.idempotencyKey)).now scope).1.invoiceNumber
        (verdictOf response.status) with
      | .ok st' => ∃ reply w',
          (issueRoute D req).exec (World.handle D) script w = (.ok reply,w') ∧ w'.storage = st'
      | .error _ => ∃ e w',
          (issueRoute D req).exec (World.handle D) script w = (.error e,w') := by
  rw [issueRoute_eq] at hp ha ⊢
  have hcalls := authTenant_calls req.authHeader req.tenantRef
  obtain ⟨auth,w₁,he₁,hp⟩ := Program.mem_trace_bind_right hcalls (by simp [ServerOp.isRecord]) hp
  obtain ⟨auth',w₁',he₁',ha⟩ := Program.mem_trace_bind_right hcalls (by simp [ServerOp.isFetch]) ha
  cases he₁.symm.trans he₁'
  have hx₁ := clean_rest (D := D) hx (authTenant req.authHeader req.tenantRef) w
  have hw₁ : w₁.storage = w.storage := by
    have hkeep : ((authTenant req.authHeader req.tenantRef).exec (World.handle D) script w).2.storage =
        w.storage := storage_of_calls (Program.Calls.mono hcalls fun o ho => ho.2.2)
    rwa [he₁] at hkeep
  rw [Program.exec_bind_of_ok he₁]
  have hrest : (authTenant req.authHeader req.tenantRef).rest (World.handle D) script w =
      fun i => script (i+3) := by
    rw [Program.rest_eq_drop,authTenant_takes _ _ _ _ _ _ he₁]
  rw [hrest] at hp ha hx₁ ⊢
  cases hb : parseBody req.body with
  | error e => simp [hb,Program.ofExcept] at hp
  | ok body =>
    cases hk : readIdempotencyKey req.idempotencyKey with
    | error e => simp [hb,hk,Program.ofExcept] at hp
    | ok idemKey =>
      simp only [hb,hk,Program.ofExcept,Program.ret_bind] at hp ha ⊢
      have hbegin := beginIdempotency_calls (D := D) idemKey req.tenantRef invoicesRoute
      obtain ⟨slot,w₂,he₂,hp⟩ :=
        Program.mem_trace_bind_right hbegin (by simp [ServerOp.isRecord]) hp
      obtain ⟨slot',w₂',he₂',ha⟩ :=
        Program.mem_trace_bind_right hbegin (by simp [ServerOp.isFetch]) ha
      cases he₂.symm.trans he₂'
      have hx₂ := clean_rest (D := D) hx₁ (beginIdempotency D idemKey req.tenantRef invoicesRoute) w₁
      have hw₂ : w₂.storage = w₁.storage := by
        have hkeep : ((beginIdempotency D idemKey req.tenantRef invoicesRoute).exec (World.handle D)
            (fun i => script (i+3)) w₁).2.storage = w₁.storage :=
          storage_of_calls (Program.Calls.mono hbegin fun o ho => ho.2.2)
        rwa [he₂] at hkeep
      rw [Program.exec_bind_of_ok he₂]
      cases slot with
      | answered reply => simp [issueUnderSlot] at hp
      | proceed cacheKey =>
        obtain ⟨hlen,hkey⟩ := beginIdempotency_proceeds hx₁ he₂
        have hzero : ((beginIdempotency D idemKey req.tenantRef invoicesRoute).rest (World.handle D)
            (fun i => script (i+3)) w₁) 0 = script (callsBeforeIssue req.idempotencyKey) := by
          rw [Program.rest_eq_drop,hlen,callsBeforeIssue,hk]
          cases idemKey <;> rfl
        have hwork := underSlot_answered hx₂ hkey hp ha
        rw [hzero,hw₂,hw₁] at hwork
        exact hwork

end run

/-- The handler answers, the record ends with the verdict, and no other record changes its status. -/
structure OutcomeReachesRecord (D : Deps) (req : IssueRequest) (script : Nat → Choice) (w : World)
    (scope : TenantScope) (record : InvoiceRecord) (status : InvoiceStatus) : Prop where
  answers : ∃ reply, ((issueRoute D req).exec (World.handle D) script w).1 = .ok reply
  own : (((issueRoute D req).exec (World.handle D) script w).2.storage.loadInvoice scope
    record.invoiceId).map InvoiceRecord.status = some status
  others : ∀ other id, (scopeKey other,id) ≠ (scopeKey scope,record.invoiceId) →
    (((issueRoute D req).exec (World.handle D) script w).2.storage.loadInvoice other id).map
        InvoiceRecord.status =
      (w.storage.loadInvoice other id).map InvoiceRecord.status

/-- The number that the request's document is given. -/
def numberToIssue (D : Deps) (req : IssueRequest) (script : Nat → Choice) (w : World)
    (scope : TenantScope) : String :=
  (w.storage.incrementCounter D.format (script (callsBeforeIssue req.idempotencyKey)).now
    scope).1.invoiceNumber

theorem verdictOf_ne_pending (status : Nat) : verdictOf status ≠ .pending := by
  unfold verdictOf
  split <;> simp

/-- Whatever the tenant, the kind, the storage and the answer, the verdict reaches the record just
when the uuid that the record was stored under is the number of the document. -/
theorem outcomeReachesRecord_iff {D : Deps} {req : IssueRequest} {script : Nat → Choice} {w : World}
    {scope : TenantScope} {record : InvoiceRecord} {response : Response} {url : String}
    {init : RequestInit} (hx : ∀ i, (script i).Clean)
    (hp : ⟨.storage (.recordInvoice scope record),.ok ()⟩ ∈
      (issueRoute D req).trace (World.handle D) script w)
    (ha : ⟨.http (.fetch url init),.ok response⟩ ∈
      (issueRoute D req).trace (World.handle D) script w) :
    OutcomeReachesRecord D req script w scope record (verdictOf response.status) ↔
      req.host.randomUUID = numberToIssue D req script w scope := by
  obtain ⟨hid,hpending,st,hstored,hrun⟩ := issueRoute_answered hx hp ha
  rw [← hid]
  unfold numberToIssue
  constructor
  · intro h
    obtain ⟨reply,hreply⟩ := h.answers
    by_contra hne
    cases hu : st.updateInvoiceStatus scope (w.storage.incrementCounter D.format
        (script (callsBeforeIssue req.idempotencyKey)).now scope).1.invoiceNumber
        (verdictOf response.status) with
    | error e =>
      simp only [hu] at hrun
      obtain ⟨e,w',he⟩ := hrun
      simp [he] at hreply
    | ok st' =>
      simp only [hu] at hrun
      obtain ⟨reply',w',he,hw⟩ := hrun
      obtain ⟨r,-,-,hothers⟩ := MemoryStorage.loadInvoice_of_update hu
      have hown := h.own
      rw [he,hw,hothers scope record.invoiceId (by simpa using hne),hstored.own,Option.map_some,
        hpending,Option.some.injEq] at hown
      exact verdictOf_ne_pending _ hown.symm
  · intro heq
    rw [← heq] at hrun
    obtain ⟨st',hu⟩ := MemoryStorage.updateInvoiceStatus_of_load (verdictOf response.status)
      hstored.own
    simp only [hu] at hrun
    obtain ⟨reply,w',he,hw⟩ := hrun
    obtain ⟨r,hr,hown,hothers⟩ := MemoryStorage.loadInvoice_of_update hu
    constructor
    · exact ⟨reply,by rw [he]⟩
    · rw [he,hw,hown]
      rfl
    · intro other id hne
      rw [he,hw,hothers other id hne,hstored.others other id hne]

theorem isDigit_of_mem_padStart {n k : Nat} {c : Char}
    (h : c ∈ (padStart (toString n) k '0').toList) : c.isDigit := by
  simp only [padStart,String.toList_append,String.toList_ofList,List.mem_append] at h
  rcases h with h | h
  · rw [List.eq_of_mem_replicate h]
    decide
  · have hd : c ∈ Nat.toDigits 10 n := by simpa [Nat.toString_eq_repr,Nat.repr] using h
    exact Nat.isDigit_of_mem_toDigits (by decide) (by decide) hd

/-- A number of the default form is digits after at most one sign. -/
theorem defaultFormatter_toList (i : FormatInput) : ∃ sign digits : List Char,
    (defaultFormatter i).toList = sign ++ digits ∧ sign.length ≤ 1 ∧ ∀ c ∈ digits, c.isDigit := by
  have hyear : ∃ sign digits : List Char, (toString i.year).toList = sign ++ digits ∧
      sign.length ≤ 1 ∧ ∀ c ∈ digits, c.isDigit := by
    have hnat (m : Nat) : ∀ c ∈ (Nat.repr m).toList, c.isDigit := by
      intro c hc
      have hd : c ∈ Nat.toDigits 10 m := by simpa [Nat.repr] using hc
      exact Nat.isDigit_of_mem_toDigits (by decide) (by decide) hd
    rw [Int.toString_eq_repr]
    cases i.year with
    | ofNat m => exact ⟨[],_,rfl,by simp,hnat m⟩
    | negSucc m => exact ⟨['-'],_,by simp [Int.repr],by simp,hnat (m+1)⟩
  obtain ⟨sign,digits,he,hs,hd⟩ := hyear
  refine ⟨sign,digits ++ (padStart (toString i.month) 2 '0').toList ++
    (padStart (toString i.sequence) 6 '0').toList,?_,hs,fun c hc => ?_⟩
  · simp only [defaultFormatter,String.toList_append,he,List.append_assoc]
  · simp only [List.mem_append] at hc
    rcases hc with (hc | hc) | hc
    · exact hd c hc
    · exact isDigit_of_mem_padStart hc
    · exact isDigit_of_mem_padStart hc

/-- So with the default formatter no drawn uuid is ever the number of a document. -/
theorem defaultFormatter_ne_uuid (i : FormatInput) {u : String} (hu : isUuidV4 u) :
    u ≠ defaultFormatter i := by
  rintro rfl
  obtain ⟨sign,digits,he,hs,hd⟩ := defaultFormatter_toList i
  simp only [isUuidV4,Bool.and_eq_true,decide_eq_true_eq,List.all_eq_true] at hu
  generalize (defaultFormatter i).toList = chars at he hu
  subst he
  have h8 : 8 < (sign ++ digits).length := by omega
  have hmem : ((sign ++ digits)[8],8) ∈ (sign ++ digits).zipIdx := by
    rw [List.mem_zipIdx_iff_getElem?]
    exact List.getElem?_eq_getElem h8
  have hhyphen : (sign ++ digits)[8] = '-' := by simpa [uuidV4Char] using hu.2 _ hmem
  have hin : 8 - sign.length < digits.length := by
    rw [List.length_append] at h8
    omega
  rw [List.getElem_append_right (by omega)] at hhyphen
  have := hd _ (List.getElem_mem hin)
  rw [hhyphen] at this
  exact absurd this (by decide)

namespace Sample

/-- Numbers every document with the one uuid. -/
def uuidFormatter : InvoiceNumberFormatter := fun _ => "5d2c1a60-0000-4000-8000-000000000001"

def storedRecord (number : String) : InvoiceRecord where
  invoiceId := "5d2c1a60-0000-4000-8000-000000000001"
  kind := .simplifiedTaxInvoice
  serial := number
  counterNumber := 1
  uuid := scope.egsUuid
  invoiceHash := "digest 1"
  previousInvoiceHash := ZATCA_BASE_INVOICE_HASH
  signedXml := "simplified-tax-invoice " ++ number
  qrBase64 := "qr"
  issuedAt := clock
  status := .pending

theorem accepted_clean : accepted.Clean :=
  ⟨rfl,_,_,rfl,.inl rfl,rfl⟩

end Sample

theorem outcomeReachesRecord_of_uuid_number :
    OutcomeReachesRecord { Sample.deps with format := Sample.uuidFormatter }
      (Sample.issueRequest none) (fun _ => Sample.accepted) Sample.world Sample.scope
      (Sample.storedRecord "5d2c1a60-0000-4000-8000-000000000001") .accepted := by
  have h := @outcomeReachesRecord_iff { Sample.deps with format := Sample.uuidFormatter }
    (Sample.issueRequest none) (fun _ => Sample.accepted) Sample.world Sample.scope
    (Sample.storedRecord "5d2c1a60-0000-4000-8000-000000000001") ⟨200,[],.ok .empty⟩ _ _
    (fun _ => Sample.accepted_clean)
    (List.mem_of_getElem? (i := 5) rfl) (List.mem_of_getElem? (i := 6) rfl)
  exact h.2 rfl

/-- With the default numbers the gateway's success leaves the record pending, and the handler
throws. -/
theorem outcomeReachesRecord_fails_by_default :
    ¬ ∀ scope record response url init,
      ⟨.storage (.recordInvoice scope record),.ok ()⟩ ∈ (issueRoute Sample.deps
        (Sample.issueRequest none)).trace (World.handle Sample.deps) (fun _ => Sample.accepted)
        Sample.world →
      ⟨.http (.fetch url init),.ok response⟩ ∈ (issueRoute Sample.deps
        (Sample.issueRequest none)).trace (World.handle Sample.deps) (fun _ => Sample.accepted)
        Sample.world →
      OutcomeReachesRecord Sample.deps (Sample.issueRequest none) (fun _ => Sample.accepted)
        Sample.world scope record (verdictOf response.status) := by
  intro hall
  have h := (hall Sample.scope (Sample.storedRecord "202605000001") ⟨200,[],.ok .empty⟩ _ _
    (List.mem_of_getElem? (i := 5) rfl) (List.mem_of_getElem? (i := 6) rfl)).own
  revert h
  decide

end Zatca
