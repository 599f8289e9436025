import Zatca.Server.OneSubmission
import Zatca.Server.Outcome
set_option autoImplicit false

/-! The clearance number that a cancellation and a status request send. No issuer writes one, and the
one call that changes a stored record changes its status only. -/

namespace Zatca
open Interaction

/-! ### The storage -/

namespace MemoryStorage

theorem loadInvoice_congr (st : MemoryStorage) {scope other : TenantScope} {id id' : String}
    (h : (scopeKey other,id') = (scopeKey scope,id)) :
    st.loadInvoice other id' = st.loadInvoice scope id := by
  obtain ⟨hkey,rfl⟩ := Prod.mk.inj h
  rw [loadInvoice_eq,loadInvoice_eq,hkey]

/-- A stored record keeps its clearance number, and its place. -/
theorem clearanceNumber_handle (format : InvoiceNumberFormatter) (o : StorageOp) (now : Date)
    {st : MemoryStorage} {scope : TenantScope} {id : String} {r : InvoiceRecord}
    (h : st.loadInvoice scope id = some r) :
    ∃ r', (handle format o now st).2.loadInvoice scope id = some r' ∧
      r'.clearanceNumber = r.clearanceNumber := by
  cases o with
  | incrementCounter other => exact ⟨r,h,rfl⟩
  | getPreviousHash other kind => exact ⟨r,h,rfl⟩
  | loadInvoice other id' => exact ⟨r,h,rfl⟩
  | recordInvoice other record =>
    simp only [handle]
    cases hrec : st.recordInvoice other record with
    | error e => exact ⟨r,h,rfl⟩
    | ok st' =>
      by_cases hkey : (scopeKey scope,id) = (scopeKey other,record.invoiceId)
      · -- The same record again, or none at all.
        have hthere : (st.getOrCreateScope (scopeKey other)).records.get record.invoiceId = some r := by
          rw [← loadInvoice_eq,← loadInvoice_congr st hkey,h]
        rw [recordInvoice_of_some st hthere] at hrec
        split at hrec
        · cases hrec
          exact ⟨r,h,rfl⟩
        · cases hrec
      · exact ⟨r,((storedIn_of_recordInvoice hrec).others scope id hkey).trans h,rfl⟩
  | updateInvoiceStatus other id' status =>
    simp only [handle]
    cases hup : st.updateInvoiceStatus other id' status with
    | error e => exact ⟨r,h,rfl⟩
    | ok st' =>
      obtain ⟨r₀,hr₀,hr',hothers⟩ := loadInvoice_of_update hup
      by_cases hkey : (scopeKey scope,id) = (scopeKey other,id')
      · rw [loadInvoice_congr st hkey,hr₀] at h
        cases h
        exact ⟨_,(loadInvoice_congr st' hkey).trans hr',rfl⟩
      · exact ⟨r,(hothers scope id hkey).trans h,rfl⟩

end MemoryStorage

/-! ### The requests -/

inductive InvoiceRouteRequest where
  | issue (req : IssueRequest)
  | get (req : InvoiceRequest)
  | cancel (req : InvoiceRequest) (body : Option CancelBody)
  | status (req : InvoiceRequest) (query : Option StatusQuery)
  | checkCompliance (req : InvoiceRequest)

def InvoiceRouteRequest.program (D : Deps) : InvoiceRouteRequest → Program Server Thrown Reply
  | .issue req => issueRoute D req
  | .get req => getRoute req
  | .cancel req body => cancelRoute D req body
  | .status req query => statusRoute D req query
  | .checkCompliance req => checkComplianceRoute D req

/-- A record is written without a clearance number. -/
def StorageOp.Unnumbered : StorageOp → Prop
  | .recordInvoice _ r => r.clearanceNumber = none
  | _ => True

def ServerOp.Unnumbered : ServerOp → Prop
  | .storage o => o.Unnumbered
  | _ => True

section calls
variable {D : Deps} (B : Builders)

theorem authTenant_unnumbered (authHeader : Option String) (tenantRef : String) :
    (authTenant authHeader tenantRef).Calls ServerOp.Unnumbered := by
  refine (authTenant_reads authHeader tenantRef).mono fun o ho => ?_
  cases ho with
  | _ => trivial

theorem issuePhase2_unnumbered (kind : InvoiceKind) (args : IssueArgs) :
    (issuePhase2 B kind args).Calls StorageOp.Unnumbered := by
  refine Program.calls_bind (Program.calls_ofExcept _ _) fun _ => ?_
  refine Program.calls_bind (Program.calls_perform trivial) fun counter => ?_
  refine Program.calls_bind (Program.calls_perform trivial) fun previousInvoiceHash => ?_
  refine Program.calls_bind (Program.calls_ofExcept _ _) fun built => ?_
  exact Program.calls_bind (Program.calls_perform rfl) fun _ => trivial

theorem issuePhase1_unnumbered (kind : InvoiceKind) (args : IssuePhase1Args) :
    (issuePhase1 B kind args).Calls StorageOp.Unnumbered := by
  refine Program.calls_bind (Program.calls_ofExcept _ _) fun _ => ?_
  refine Program.calls_bind (Program.calls_perform trivial) fun counter => ?_
  refine Program.calls_bind (Program.calls_ofExcept _ _) fun built => ?_
  exact Program.calls_bind (Program.calls_perform rfl) fun _ => trivial

theorem issueInvoice_unnumbered (args : IssueInvoiceArgs) :
    (issueInvoice B args).Calls StorageOp.Unnumbered := by
  unfold issueInvoice
  cases args.input.kind with
  | phase1Invoice => exact Program.calls_bind (issuePhase1_unnumbered B _ _) fun _ => trivial
  | phase1CreditNote => exact Program.calls_bind (issuePhase1_unnumbered B _ _) fun _ => trivial
  | _ =>
    cases args.signing with
    | none => trivial
    | some signing =>
      refine Program.calls_bind trivial fun signing => ?_
      exact Program.calls_bind (issuePhase2_unnumbered B _ _) fun _ => trivial

theorem issueRoute_unnumbered (req : IssueRequest) :
    (issueRoute D req).Calls ServerOp.Unnumbered := by
  have hcached {α : Type} {p : Program Server Thrown α} (hp : p.Calls ServerOp.isIdempotency) :
      p.Calls ServerOp.Unnumbered := by
    refine hp.mono fun o ho => ?_
    cases o with
    | storage o => cases ho
    | _ => trivial
  rw [issueRoute_eq]
  refine Program.calls_bind (authTenant_unnumbered _ _) fun auth => ?_
  refine Program.calls_bind (Program.calls_ofExcept _ _) fun body => ?_
  refine Program.calls_bind (Program.calls_ofExcept _ _) fun idemKey => ?_
  refine Program.calls_bind (hcached (beginIdempotency_cached _ _ _ _)) fun slot => ?_
  cases slot with
  | answered reply => trivial
  | proceed cacheKey =>
    refine Program.calls_tryCatch ?_ fun err =>
      Program.calls_bind (hcached (releaseIdempotency_cached _)) fun _ => trivial
    rw [issueWork_eq]
    refine Program.calls_bind (Program.calls_ofExcept _ _) fun _ => ?_
    refine Program.calls_bind ?_ fun issued => Program.calls_bind ?_ fun outcome => ?_
    · cases body.input with
      | invoice input =>
        exact Program.Calls.embed (φ := Server.storage) (issueInvoice_unnumbered _ _)
      | unhandled value => trivial
      | nullish => trivial
    · match issued, body.submit.getD true with
      | .phase1 _, _ => trivial
      | .phase2 _, false => trivial
      | .phase2 _, true =>
        refine Program.calls_bind (Program.calls_embed (fun _ => trivial) _) fun outcome => ?_
        exact Program.calls_bind (Program.calls_perform trivial) fun _ => trivial
    · refine Program.calls_bind (Program.calls_perform trivial) fun _ => ?_
      exact Program.calls_bind (hcached (commitIdempotency_cached _ _ _)) fun _ => trivial

theorem invoiceRoute_unnumbered (request : InvoiceRouteRequest) :
    (request.program D).Calls ServerOp.Unnumbered := by
  have hload (scope : TenantScope) (invoiceId : String) :
      (loadOwnInvoice scope invoiceId).Calls ServerOp.Unnumbered := by
    refine Program.calls_bind (Program.calls_perform trivial) fun record => ?_
    cases record with
    | none => trivial
    | some record => trivial
  cases request with
  | issue req => exact issueRoute_unnumbered req
  | get req =>
    refine Program.calls_bind (authTenant_unnumbered _ _) fun auth => ?_
    exact Program.calls_bind (hload _ _) fun record => trivial
  | cancel req body =>
    refine Program.calls_bind (authTenant_unnumbered _ _) fun auth => ?_
    refine Program.calls_bind (Program.calls_ofExcept _ _) fun body => ?_
    refine Program.calls_bind (hload _ _) fun record => ?_
    split
    · trivial
    · refine Program.calls_bind (Program.calls_tryCatch ?_ fun err => ?_) fun result => ?_
      · refine Program.calls_bind (Program.calls_embed (fun _ => trivial) _) fun response => ?_
        exact Program.calls_bind (Program.calls_perform trivial) fun _ => trivial
      · exact Program.calls_bind (Program.calls_perform trivial) fun _ => trivial
      · exact Program.calls_bind (Program.calls_perform trivial) fun _ => trivial
  | status req query =>
    refine Program.calls_bind (authTenant_unnumbered _ _) fun auth => ?_
    refine Program.calls_bind (hload _ _) fun record => ?_
    refine Program.calls_bind (Program.calls_ofExcept _ _) fun query => ?_
    split
    · trivial
    · exact Program.calls_bind (Program.calls_embed (fun _ => trivial) _) fun result => trivial
  | checkCompliance req =>
    refine Program.calls_bind (authTenant_unnumbered _ _) fun auth => ?_
    refine Program.calls_bind (hload _ _) fun record => ?_
    exact Program.calls_bind (Program.calls_embed (fun _ => trivial) _) fun result => trivial

end calls

/-! ### Every run -/

/-- The document that a call has recorded. -/
def recordedBy : ServerEvent → Option (TenantScope × InvoiceRecord)
  | ⟨_,.storage (.recordInvoice scope r),.ok _,_,_⟩ => some (scope,r)
  | _ => none

/-- The record is in the storage and carries no clearance number. -/
def LacksNumber (st : MemoryStorage) (scope : TenantScope) (id : String) : Prop :=
  ∃ r, st.loadInvoice scope id = some r ∧ r.clearanceNumber = none

section run
variable {D : Deps} {o : ServerOp} {x : Choice} {w : World} {scope : TenantScope}

theorem lacksNumber_handle {id : String} (h : LacksNumber w.storage scope id) :
    LacksNumber (World.handle D o x w).2.storage scope id := by
  obtain ⟨r,hr,hnone⟩ := h
  have hframe := World.handle_frame D o x w
  cases o with
  | storage o =>
    rcases World.handle_cases D (.storage o) x w with ⟨e,-,-,hw⟩ | hw
    · rw [hw]
      exact ⟨r,hr,hnone⟩
    · rw [hw]
      obtain ⟨r',hr',hsame⟩ := MemoryStorage.clearanceNumber_handle D.format o x.now hr
      exact ⟨r',hr',hsame.trans hnone⟩
  | _ =>
    rw [hframe.storage nofun]
    exact ⟨r,hr,hnone⟩

/-- A document that is recorded is there, without a number. -/
theorem lacksNumber_of_recorded {p : Nat} {r : InvoiceRecord} (ho : o.Unnumbered)
    (h : recordedBy ⟨p,o,(World.handle D o x w).1,w,(World.handle D o x w).2⟩ = some (scope,r)) :
    LacksNumber (World.handle D o x w).2.storage scope r.invoiceId := by
  cases o with
  | storage o =>
    cases o with
    | recordInvoice other record =>
      rcases World.handle_cases D (.storage (.recordInvoice other record)) x w with ⟨e,-,-,hw⟩ | hw
      · rw [hw] at h
        cases h
      · rw [hw] at h ⊢
        simp only [World.serve,MemoryStorage.handle] at h ⊢
        cases hrec : w.storage.recordInvoice other record with
        | error e =>
          rw [hrec] at h
          cases h
        | ok st' =>
          rw [hrec] at h
          cases h
          exact ⟨r,(MemoryStorage.storedIn_of_recordInvoice hrec).own,ho⟩
    | _ =>
      generalize (World.handle D _ x w).1 = a at h
      cases a with
      | _ => cases h
  | _ =>
    generalize (World.handle D _ x w).1 = a at h
    cases a with
    | _ => cases h

structure ClearanceInv (c : ServerConfig Reply) : Prop where
  calls : ∀ p, (c.procs p).Calls ServerOp.Unnumbered
  lacks : ∀ e ∈ c.history, ∀ scope r, recordedBy e = some (scope,r) →
    LacksNumber c.shared.storage scope r.invoiceId

theorem clearanceInv_step {c : ServerConfig Reply} {p : Nat}
    {k : Except Thrown (ServerOp.Ret o) → Program Server Thrown Reply} (h : ClearanceInv c)
    (hp : c.procs p = .call o k) : ClearanceInv (c.after (World.handle D) p o k x) := by
  have hcall := h.calls p
  rw [hp] at hcall
  constructor
  · intro q
    by_cases hq : q = p
    · subst hq
      simpa using hcall.2 _
    · rw [Config.after_procs_ne _ _ _ _ _ hq]
      exact h.calls q
  · intro e he scope r hrecorded
    rcases List.mem_cons.1 he with rfl | he
    · exact lacksNumber_of_recorded hcall.1 hrecorded
    · exact lacksNumber_handle (h.lacks e he scope r hrecorded)

end run

/-! ### The routes that need the number -/

section routes
variable {D : Deps} {script : Nat → Choice} {w w' : World}

theorem tenants_of_calls {α : Type} {p : Program Server Thrown α}
    (hp : p.Calls (fun o => ServerOp.store o ≠ some .tenants)) :
    (p.exec (World.handle D) script w).2.tenants = w.tenants :=
  Program.exec_keeps World.tenants (fun o x w ho => (World.handle_frame D o x w).tenants ho) hp
    script w

theorem verifyTenant_keys (authHeader : Option String) (tenantRef : String) :
    (verifyTenant authHeader tenantRef).Calls fun o => ServerOp.store o ≠ some .tenants := by
  apply (verifyTenant_resolves authHeader tenantRef).mono
  intro o ho
  obtain ⟨bearer,rfl⟩ := ho
  exact nofun

/-- A request is authenticated for the tenant that is registered under its reference. -/
theorem tenant_of_authTenant {authHeader : Option String} {tenantRef : String}
    {auth : AuthenticatedTenant}
    (h : (authTenant authHeader tenantRef).exec (World.handle D) script w = (.ok auth,w')) :
    w.tenants.get tenantRef = some auth.tenant := by
  obtain ⟨resolved,w₁,hverify,h⟩ := Program.exec_bind_eq_ok h
  obtain ⟨tenant,w₂,hget,h⟩ := Program.exec_bind_eq_ok h
  have hsame : w₁.tenants = w.tenants := by
    have htenants := @tenants_of_calls D script w _ _ (verifyTenant_keys authHeader tenantRef)
    rwa [hverify] at htenants
  cases tenant with
  | none => cases h
  | some tenant =>
    have htenant := World.get_of_answer
      (congrArg Prod.fst ((Program.exec_perform _ _ _).symm.trans hget))
    rw [← hsame,htenant]
    simp only at h
    split at h
    · cases h
    · obtain ⟨signing,w₃,-,h⟩ := Program.exec_bind_eq_ok h
      cases signing with
      | none => cases h
      | some signing =>
        cases h
        rfl

/-- No run of the program from here returns, and none sends anything to the gateway. -/
def Refuses {α : Type} (D : Deps) (p : Program Server Thrown α) (w : World) : Prop :=
  ∀ script, (∃ e w', p.exec (World.handle D) script w = (.error e,w')) ∧
    ∀ c ∈ p.trace (World.handle D) script w, c.1.isFetch = false

theorem refuses_throw {α : Type} (e : Thrown) (w : World) :
    Refuses D (.throw e : Program Server Thrown α) w := by
  intro script
  exact ⟨⟨e,w,rfl⟩,by simp⟩

theorem refuses_bind {α β : Type} {p : Program Server Thrown α} {f : α → Program Server Thrown β}
    (hp : p.Calls fun o => ServerOp.isFetch o = false)
    (hf : ∀ script a w', p.exec (World.handle D) script w = (.ok a,w') → Refuses D (f a) w') :
    Refuses D (p.bind f) w := by
  intro script
  have hquiet := Program.trace_calls (h := World.handle D) hp script w
  rw [Program.exec_bind,Program.trace_bind]
  cases hexec : p.exec (World.handle D) script w with
  | mk answer w₁ =>
    cases answer with
    | error e =>
      refine ⟨⟨e,w₁,rfl⟩,fun c hc => ?_⟩
      rw [List.append_nil] at hc
      exact hquiet c hc
    | ok a =>
      obtain ⟨hthrows,hsilent⟩ := hf script a w₁ hexec (p.rest (World.handle D) script w)
      refine ⟨hthrows,fun c hc => ?_⟩
      rcases List.mem_append.1 hc with hc | hc
      · exact hquiet c hc
      · exact hsilent c hc

theorem refuses_auth {β : Type} {authHeader : Option String} {tenantRef : String}
    {f : AuthenticatedTenant → Program Server Thrown β}
    (hf : ∀ auth w', w.tenants.get tenantRef = some auth.tenant → w'.storage = w.storage →
      Refuses D (f auth) w') : Refuses D ((authTenant authHeader tenantRef).bind f) w := by
  have hcalls := authTenant_calls authHeader tenantRef
  refine refuses_bind (hcalls.mono fun o ho => ho.1) fun script auth w' hauth => ?_
  refine hf auth w' (tenant_of_authTenant hauth) ?_
  have hstorage : ((authTenant authHeader tenantRef).exec (World.handle D) script w).2.storage =
      w.storage := storage_of_calls (hcalls.mono fun o ho => ho.2.2)
  rwa [hauth] at hstorage

theorem refuses_ofExcept {α β : Type} {a : Except Thrown α} {f : α → Program Server Thrown β}
    (hf : ∀ b, a = .ok b → Refuses D (f b) w) : Refuses D ((Program.ofExcept a).bind f) w := by
  cases a with
  | error e => exact refuses_throw e w
  | ok b => exact hf b rfl

/-- The record that is loaded decides. -/
theorem refuses_load {β : Type} {scope : TenantScope} {id : String} {r : InvoiceRecord}
    {f : InvoiceRecord → Program Server Thrown β} (hload : w.storage.loadInvoice scope id = some r)
    (hf : ∀ w', Refuses D (f r) w') : Refuses D ((loadOwnInvoice scope id).bind f) w := by
  have hcalls : (loadOwnInvoice scope id).Calls fun o => ServerOp.isFetch o = false := by
    refine Program.calls_bind (Program.calls_perform rfl) fun record => ?_
    cases record with
    | none => trivial
    | some record => trivial
  refine refuses_bind hcalls fun script record w' hrecord => ?_
  obtain ⟨found,w₁,hfound,hrecord⟩ := Program.exec_bind_eq_ok hrecord
  have hfound := (Program.exec_perform _ _ _).symm.trans hfound
  rcases World.handle_cases D (.storage (.loadInvoice scope id)) (script 0) w with ⟨e,-,-,hw⟩ | hw
  · rw [hw] at hfound
    cases hfound
  · rw [hw] at hfound
    simp only [World.serve,MemoryStorage.handle,hload] at hfound
    cases hfound
    cases hrecord
    exact hf _

/-- Without an override neither route reaches the gateway for the invoice. -/
structure Stranded (D : Deps) (w : World) (req : InvoiceRequest) : Prop where
  cancel : ∀ body, (∀ b ∈ body, b.clearanceNumber = none) → Refuses D (cancelRoute D req body) w
  status : ∀ query, (∀ q ∈ query, q.clearanceNumber = none) → Refuses D (statusRoute D req query) w

/-- A cancellation and a status request of an invoice without a number fail before they are sent. -/
theorem stranded_of_lacksNumber {req : InvoiceRequest} {scope : TenantScope}
    (htenant : ∀ r, w.tenants.get req.tenantRef = some r → toTenantScope r = scope)
    (h : LacksNumber w.storage scope req.invoiceId) : Stranded D w req := by
  obtain ⟨r,hload,hnone⟩ := h
  constructor
  · intro body hbody
    refine refuses_auth fun auth w₁ hauth hstorage => refuses_ofExcept fun body' hparse => ?_
    have hbody' : body = some body' := by
      cases body with
      | none => cases hparse
      | some body => exact congrArg some (Except.ok.inj hparse)
    have hload' : w₁.storage.loadInvoice (toTenantScope auth.tenant) req.invoiceId = some r := by
      rw [hstorage,htenant _ hauth,hload]
    refine refuses_load hload' fun w₂ => ?_
    rw [hbody body' hbody',hnone]
    exact refuses_throw _ w₂
  · intro query hquery
    refine refuses_auth fun auth w₁ hauth hstorage => ?_
    have hload' : w₁.storage.loadInvoice (toTenantScope auth.tenant) req.invoiceId = some r := by
      rw [hstorage,htenant _ hauth,hload]
    refine refuses_load hload' fun w₂ => refuses_ofExcept fun query' hparse => ?_
    have hquery' : query = some query' := by
      cases query with
      | none => cases hparse
      | some query => exact congrArg some (Except.ok.inj hparse)
    rw [hquery query' hquery',hnone]
    exact refuses_throw _ w₂

end routes

def InvoiceKind.isStandard : InvoiceKind → Bool
  | .standardTaxInvoice | .standardCreditNote | .standardDebitNote => true
  | _ => false

def startInvoiceRequests (D : Deps) (w : World) (requests : Nat → InvoiceRouteRequest) :
    ServerConfig Reply where
  shared := w
  procs p := (requests p).program D

/-- The request has recorded this document of a standard kind, the gateway has answered it with a
success, and the request has ended. -/
structure Cleared (requests : Nat → InvoiceRouteRequest) (c : ServerConfig Reply) (p : Nat)
    (scope : TenantScope) (r : InvoiceRecord) : Prop where
  issue : ∃ req, requests p = .issue req
  standard : r.kind.isStandard = true
  recorded : ∃ e ∈ c.history, e.pid = p ∧ recordedBy e = some (scope,r)
  answered : received c.history p = true
  ended : (c.procs p).live = false

/-- What has been cleared carries its number. -/
def CarriesNumber (st : MemoryStorage) (scope : TenantScope) (id : String) : Prop :=
  ∃ r, st.loadInvoice scope id = some r ∧ r.clearanceNumber.isSome = true

/-- Whatever the requests are and however they interleave, no cleared document carries a clearance
number, and its tenant can neither cancel it nor ask for its status without giving one. -/
theorem cleared_stranded (D : Deps) (w : World) (requests : Nat → InvoiceRouteRequest)
    (c : ServerConfig Reply)
    (hc : Reach (World.handle D) (fun _ _ _ => True) (startInvoiceRequests D w requests) c)
    (p : Nat) (scope : TenantScope) (r : InvoiceRecord) (hcleared : Cleared requests c p scope r) :
    ¬ CarriesNumber c.shared.storage scope r.invoiceId ∧
      ∀ req : InvoiceRequest, req.invoiceId = r.invoiceId →
        (∀ t, c.shared.tenants.get req.tenantRef = some t → toTenantScope t = scope) →
        Stranded D c.shared req := by
  have hinv : ClearanceInv c := by
    refine Reach.invariant ?_ (fun c p x o k h hp _ => clearanceInv_step h hp) hc
    exact ⟨fun p => invoiceRoute_unnumbered (requests p),fun e he => by
      simp [startInvoiceRequests] at he⟩
  obtain ⟨e,he,-,hrecorded⟩ := hcleared.recorded
  have hlacks := hinv.lacks e he scope r hrecorded
  refine ⟨?_,fun req hid htenant => stranded_of_lacksNumber htenant (by rwa [hid])⟩
  rintro ⟨r',hr',hsome⟩
  obtain ⟨r'',hr'',hnone⟩ := hlacks
  cases hr'.symm.trans hr''
  rw [hnone] at hsome
  cases hsome

namespace Sample

/-- Requests to issue one standard invoice each. -/
def standardRequests (_ : Nat) : InvoiceRouteRequest :=
  .issue { issueRequest none with
    body := some { input := .invoice { invoice with kind := .standardTaxInvoice } } }

def standardStored : InvoiceRecord :=
  { storedRecord "202605000001" with
    kind := .standardTaxInvoice, signedXml := "standard-tax-invoice 202605000001" }

end Sample

/-- The gateway accepts the document and the request ends. -/
theorem standardRequest_cleared : ∃ c,
    (startInvoiceRequests Sample.deps Sample.world Sample.standardRequests).run
      (World.handle Sample.deps) (fun _ _ _ => True)
      (Sample.schedule [0,0,0,0,0,0,0,0]) = some c ∧
    Cleared Sample.standardRequests c 0 Sample.scope Sample.standardStored ∧
    ¬ CarriesNumber c.shared.storage Sample.scope Sample.standardStored.invoiceId := by
  refine ⟨_,rfl,?_,?_⟩
  · constructor
    · exact ⟨_,rfl⟩
    · rfl
    · exact ⟨_,List.mem_of_getElem? (i := 2) rfl,rfl,rfl⟩
    · decide
    · decide
  · rintro ⟨r,hr,hsome⟩
    cases hr
    cases hsome

theorem cleared_stranded_of_one_invoice : ∃ c,
    (startInvoiceRequests Sample.deps Sample.world Sample.standardRequests).run
      (World.handle Sample.deps) (fun _ _ _ => True)
      (Sample.schedule [0,0,0,0,0,0,0,0]) = some c ∧
    ¬ CarriesNumber c.shared.storage Sample.scope Sample.standardStored.invoiceId := by
  obtain ⟨c,hrun,hcleared,-⟩ := standardRequest_cleared
  refine ⟨c,hrun,?_⟩
  exact (cleared_stranded Sample.deps Sample.world Sample.standardRequests c
    (Reach.of_run _ .init hrun) 0 _ _ hcleared).1

theorem carriesNumber_fails_for_a_cleared_invoice :
    ¬ ∀ (D : Deps) (w : World) (requests : Nat → InvoiceRouteRequest) (c : ServerConfig Reply),
      Reach (World.handle D) (fun _ _ _ => True) (startInvoiceRequests D w requests) c →
      ∀ p scope r, Cleared requests c p scope r →
        CarriesNumber c.shared.storage scope r.invoiceId := by
  intro hall
  obtain ⟨c,hrun,hcleared,hlacks⟩ := standardRequest_cleared
  exact hlacks (hall Sample.deps Sample.world Sample.standardRequests c
    (Reach.of_run _ .init hrun) 0 _ _ hcleared)

end Zatca
