import Zatca.Server.Provenance
import Zatca.Storage.InvoiceNumbers
import Zatca.Storage.Retry
set_option autoImplicit false

/-! What a tenant is told of a document that it issues. Once a request has been answered, the document
is on the ledger of the tenant and its row in the audit log, and both stay there; and no two answers
print one number. -/

namespace Zatca
open Interaction Digits

/-! ### What an issuer returns -/

/-- The record has what the issuer returns. -/
def Issued.Recorded (record : InvoiceRecord) : Issued → Prop
  | .phase2 i => record.serial = i.invoiceNumber ∧ record.counterNumber = i.sequence ∧
      record.signedXml = i.signedXml ∧ record.qrBase64 = i.qrCode ∧ record.invoiceHash = i.invoiceHash
  | .phase1 i => record.serial = i.invoiceNumber ∧ record.counterNumber = i.sequence ∧
      record.signedXml = i.invoiceXml ∧ record.qrBase64 = i.qrCode ∧
      record.invoiceHash = ZATCA_BASE_INVOICE_HASH

/-- Among the calls are the one that draws the number and the one that records the document. -/
structure IssuedAmong (scope : TenantScope) (recordId : String) (issued : Issued)
    (cs : List (Answered StorageAdapter Thrown)) : Prop where
  drew : ⟨.incrementCounter scope,.ok ⟨issued.sequence,issued.invoiceNumber⟩⟩ ∈ cs
  recorded : ∃ record, record.invoiceId = recordId ∧ issued.Recorded record ∧
    ⟨.recordInvoice scope record,.ok ()⟩ ∈ cs

section issuers
variable {B : Builders} {kind : InvoiceKind} {cs : List (Answered StorageAdapter Thrown)}

theorem issuePhase2_runs {args : IssueArgs} {i : IssuedInvoice}
    (h : (issuePhase2 B kind args).Runs cs (.ok i)) :
    IssuedAmong args.scope args.recordId (.phase2 i) cs := by
  obtain ⟨_,_,_,rfl,-,h⟩ := Program.runs_bind_ok.1 h
  obtain ⟨cs₁,_,counter,rfl,hcounter,h⟩ := Program.runs_bind_ok.1 h
  obtain ⟨_,_,previous,rfl,-,h⟩ := Program.runs_bind_ok.1 h
  obtain ⟨_,_,built,rfl,-,h⟩ := Program.runs_bind_ok.1 h
  obtain ⟨cs₂,_,_,rfl,hrecord,h⟩ := Program.runs_bind_ok.1 h
  obtain ⟨rfl,hi⟩ := Program.runs_ret.1 h
  cases hi
  obtain rfl := Program.runs_perform.1 hcounter
  obtain rfl := Program.runs_perform.1 hrecord
  refine ⟨?_,phase2Record kind args counter previous built,rfl,⟨rfl,rfl,rfl,rfl,rfl⟩,?_⟩
  · simp [Issued.sequence,Issued.invoiceNumber]
  · simp

theorem issuePhase1_runs {args : IssuePhase1Args} {i : IssuedPhase1Invoice}
    (h : (issuePhase1 B kind args).Runs cs (.ok i)) :
    IssuedAmong args.scope args.recordId (.phase1 i) cs := by
  obtain ⟨_,_,_,rfl,-,h⟩ := Program.runs_bind_ok.1 h
  obtain ⟨cs₁,_,counter,rfl,hcounter,h⟩ := Program.runs_bind_ok.1 h
  obtain ⟨_,_,built,rfl,-,h⟩ := Program.runs_bind_ok.1 h
  obtain ⟨cs₂,_,_,rfl,hrecord,h⟩ := Program.runs_bind_ok.1 h
  obtain ⟨rfl,hi⟩ := Program.runs_ret.1 h
  cases hi
  obtain rfl := Program.runs_perform.1 hcounter
  obtain rfl := Program.runs_perform.1 hrecord
  refine ⟨?_,issuedRecord kind args counter ZATCA_BASE_INVOICE_HASH ZATCA_BASE_INVOICE_HASH
    built.invoiceXml built.qrCode,rfl,⟨rfl,rfl,rfl,rfl,rfl⟩,?_⟩
  · simp [Issued.sequence,Issued.invoiceNumber]
  · simp

/-- Each document is recorded under the fresh uuid. -/
theorem issueInvoice_runs {args : IssueInvoiceArgs} {issued : Issued}
    (h : (issueInvoice B args).Runs cs (.ok issued)) :
    IssuedAmong args.scope args.host.randomUUID issued cs := by
  have phase2 (kind : InvoiceKind) (signing : SigningMaterial)
      (h : ((issuePhase2 B kind { input := args.input.toBusinessInput, egsInfo := args.input.egsInfo
                                  scope := args.scope, host := args.host, signing }).bind
        fun i => .ret (.phase2 i)).Runs cs (.ok issued)) :
      IssuedAmong args.scope args.host.randomUUID issued cs := by
    obtain ⟨cs₁,_,i,rfl,hissue,h⟩ := Program.runs_bind_ok.1 h
    obtain ⟨rfl,hi⟩ := Program.runs_ret.1 h
    cases hi
    rw [List.append_nil]
    exact issuePhase2_runs hissue
  have phase1 (kind : InvoiceKind)
      (h : ((issuePhase1 B kind { input := args.input.toBusinessInput, egsInfo := args.input.egsInfo
                                  scope := args.scope, host := args.host }).bind
        fun i => .ret (.phase1 i)).Runs cs (.ok issued)) :
      IssuedAmong args.scope args.host.randomUUID issued cs := by
    obtain ⟨cs₁,_,i,rfl,hissue,h⟩ := Program.runs_bind_ok.1 h
    obtain ⟨rfl,hi⟩ := Program.runs_ret.1 h
    cases hi
    rw [List.append_nil]
    exact issuePhase1_runs hissue
  unfold issueInvoice at h
  cases hkind : args.input.kind with
  | phase1Invoice =>
    rw [hkind] at h
    exact phase1 _ h
  | phase1CreditNote =>
    rw [hkind] at h
    exact phase1 _ h
  | _ =>
    rw [hkind] at h
    cases hsigning : args.signing with
    | none =>
      rw [hsigning] at h
      cases (Program.runs_throw.1 h).2
    | some signing =>
      rw [hsigning] at h
      exact phase2 _ signing h

end issuers

/-! ### What the route comes to -/

/-- A success that was worked out for the request itself, and is no replay of an earlier one. -/
def Reply.Acknowledges (reply : Reply) : Prop :=
  reply.statusCode = 200 ∧ reply.headers.lookup "x-idempotent-replay" = none

instance (reply : Reply) : Decidable reply.Acknowledges := inferInstanceAs (Decidable (_ ∧ _))

/-- The row of a document that the tenant has issued. -/
def AuditEntryInput.Tells (tenantRef : String) (issued : Issued) (row : AuditEntryInput) : Prop :=
  row.action = .invoiceIssued ∧ row.targetId = some issued.invoiceNumber ∧
    ∃ tokenId, row.actor = .tenant tenantRef tokenId

/-- Among the calls are those that issue the document on the scope of the tenant, and its row. -/
structure AcknowledgedAmong (req : IssueRequest) (tenant : TenantRecord) (issued : Issued)
    (cs : List (Answered Server Thrown)) : Prop where
  found : ⟨.tenants (.get req.tenantRef),.ok (some tenant)⟩ ∈ cs
  drew : ⟨.storage (.incrementCounter (toTenantScope tenant)),
    .ok ⟨issued.sequence,issued.invoiceNumber⟩⟩ ∈ cs
  recorded : ∃ record, record.invoiceId = req.host.randomUUID ∧ issued.Recorded record ∧
    ⟨.storage (.recordInvoice (toTenantScope tenant) record),.ok ()⟩ ∈ cs
  audited : ∃ row : AuditEntryInput, row.Tells req.tenantRef issued ∧ ⟨.audit row,.ok ()⟩ ∈ cs

section route
variable {D : Deps} {cs : List (Answered Server Thrown)}

theorem verifyTenant_runs {authHeader : Option String} {tenantRef : String} {key : ResolvedApiKey}
    (h : (verifyTenant authHeader tenantRef).Runs cs (.ok key)) : key.tenantRef = tenantRef := by
  unfold verifyTenant at h
  split at h
  · cases (Program.runs_throw.1 h).2
  · cases (Program.runs_throw.1 h).2
  · split at h
    · cases (Program.runs_throw.1 h).2
    · obtain ⟨_,_,resolved,rfl,-,h⟩ := Program.runs_bind_ok.1 h
      cases resolved with
      | none => cases (Program.runs_throw.1 h).2
      | some key' =>
        simp only at h
        split at h
        · cases (Program.runs_throw.1 h).2
        · rename_i howner
          cases (Program.runs_ret.1 h).2
          exact not_not.1 howner

theorem authTenant_runs {authHeader : Option String} {tenantRef : String} {auth : AuthenticatedTenant}
    (h : (authTenant authHeader tenantRef).Runs cs (.ok auth)) :
    (∃ tokenId, auth.actor = .tenant tenantRef tokenId) ∧
      ⟨.tenants (.get tenantRef),.ok (some auth.tenant)⟩ ∈ cs := by
  obtain ⟨_,_,key,rfl,hkey,h⟩ := Program.runs_bind_ok.1 h
  obtain ⟨cs₁,_,tenant,rfl,htenant,h⟩ := Program.runs_bind_ok.1 h
  have hread := Program.runs_perform.1 htenant
  cases tenant with
  | none => cases (Program.runs_throw.1 h).2
  | some tenant =>
    simp only at h
    split at h
    · cases (Program.runs_throw.1 h).2
    · obtain ⟨_,_,signing,rfl,-,h⟩ := Program.runs_bind_ok.1 h
      cases signing with
      | none => cases (Program.runs_throw.1 h).2
      | some signing =>
        obtain ⟨rfl,hauth⟩ := Program.runs_ret.1 h
        cases hauth
        exact ⟨⟨key.tokenId,by rw [verifyTenant_runs hkey]⟩,by simp [hread]⟩

/-- What the cache answers in the place of the request acknowledges nothing. -/
theorem beginIdempotency_runs {idemKey : Option String} {tenantRef route : String} {reply : Reply}
    (h : (beginIdempotency D idemKey tenantRef route).Runs cs (.ok (.answered reply))) :
    ¬ reply.Acknowledges := by
  cases idemKey with
  | none => cases (Program.runs_ret.1 h).2
  | some key =>
    obtain ⟨_,_,result,rfl,-,h⟩ := Program.runs_bind_ok.1 h
    cases result with
    | claimed => cases (Program.runs_ret.1 h).2
    | inFlight =>
      cases (Program.runs_ret.1 h).2
      decide
    | replay response =>
      cases (Program.runs_ret.1 h).2
      rintro ⟨-,hlookup⟩
      rw [replayed,JsMap.lookup_setEntry,if_pos rfl] at hlookup
      cases hlookup

theorem issueFromBody_runs {auth : AuthenticatedTenant} {host : HostValues} {input : RawInput}
    {issued : Issued} (h : (issueFromBody D auth host input).Runs cs (.ok issued)) :
    ∃ cs', IssuedAmong (toTenantScope auth.tenant) host.randomUUID issued cs' ∧
      ∀ c ∈ cs', (⟨.storage c.1,c.2⟩ : Answered Server Thrown) ∈ cs := by
  cases input with
  | unhandled value => cases (Program.runs_throw.1 h).2
  | nullish => cases (Program.runs_throw.1 h).2
  | invoice input =>
    obtain ⟨cs',hissue,hseen⟩ := Program.runs_embed h
    refine ⟨cs',issueInvoice_runs hissue,fun c hc => ?_⟩
    obtain ⟨a,ha,hca⟩ := Program.SeenAs.mem hseen hc
    rw [map_self] at hca
    rw [hca]
    exact ha

theorem conclude_runs {auth : AuthenticatedTenant} {issued : Issued} {cacheKey : Option String}
    {outcome : SubmissionOutcome} {reply : Reply}
    (h : (conclude D auth issued cacheKey outcome).Runs cs (.ok reply)) :
    reply.body = issuedBody issued outcome ∧
      ⟨.audit (issuedAudit auth issued outcome),.ok ()⟩ ∈ cs := by
  obtain ⟨_,_,_,rfl,haudit,h⟩ := Program.runs_bind_ok.1 h
  obtain ⟨_,_,_,rfl,-,h⟩ := Program.runs_bind_ok.1 h
  obtain ⟨rfl,hreply⟩ := Program.runs_ret.1 h
  cases hreply
  obtain rfl := Program.runs_perform.1 haudit
  exact ⟨rfl,by simp⟩

theorem issueWork_runs {auth : AuthenticatedTenant} {host : HostValues} {input : RawInput}
    {submit : Bool} {cacheKey : Option String} {reply : Reply}
    (h : (issueWork D auth host input submit cacheKey).Runs cs (.ok reply)) :
    ∃ issued outcome cs', reply.body = issuedBody issued outcome ∧
      IssuedAmong (toTenantScope auth.tenant) host.randomUUID issued cs' ∧
      (∀ c ∈ cs', (⟨.storage c.1,c.2⟩ : Answered Server Thrown) ∈ cs) ∧
      ⟨.audit (issuedAudit auth issued outcome),.ok ()⟩ ∈ cs := by
  rw [issueWork_eq] at h
  obtain ⟨_,_,_,rfl,-,h⟩ := Program.runs_bind_ok.1 h
  obtain ⟨_,_,issued,rfl,hissued,h⟩ := Program.runs_bind_ok.1 h
  obtain ⟨_,_,outcome,rfl,-,h⟩ := Program.runs_bind_ok.1 h
  obtain ⟨hbody,haudit⟩ := conclude_runs h
  obtain ⟨cs',hamong,hcs'⟩ := issueFromBody_runs hissued
  refine ⟨issued,outcome,cs',hbody,hamong,fun c hc => ?_,by simp [haudit]⟩
  have := hcs' c hc
  simp [this]

theorem issueRoute_runs {req : IssueRequest} {reply : Reply}
    (h : (issueRoute D req).Runs cs (.ok reply)) (hreply : reply.Acknowledges) :
    ∃ tenant issued outcome, reply.body = issuedBody issued outcome ∧
      AcknowledgedAmong req tenant issued cs := by
  rw [issueRoute_eq] at h
  obtain ⟨cs₁,_,auth,rfl,hauth,h⟩ := Program.runs_bind_ok.1 h
  obtain ⟨_,_,body,rfl,-,h⟩ := Program.runs_bind_ok.1 h
  obtain ⟨_,_,idemKey,rfl,-,h⟩ := Program.runs_bind_ok.1 h
  obtain ⟨_,cs₂,slot,rfl,hslot,h⟩ := Program.runs_bind_ok.1 h
  obtain ⟨⟨tokenId,hactor⟩,hfound⟩ := authTenant_runs hauth
  cases slot with
  | answered reply' =>
    cases (Program.runs_ret.1 h).2
    exact absurd hreply (beginIdempotency_runs hslot)
  | proceed cacheKey =>
    rcases Program.runs_tryCatch.1 h with ⟨_,hwork,hsame⟩ | ⟨_,_,e,rfl,-,hrelease⟩
    · cases hsame
      obtain ⟨issued,outcome,cs',hbody,⟨hdrew,record,hid,hrecord,hrecorded⟩,hcs',haudit⟩ :=
        issueWork_runs hwork
      refine ⟨auth.tenant,issued,outcome,hbody,?_,?_,⟨record,hid,hrecord,?_⟩,
        issuedAudit auth issued outcome,⟨rfl,rfl,tokenId,hactor⟩,?_⟩
      · simp [hfound]
      · simp [hcs' _ hdrew]
      · simp [hcs' _ hrecorded]
      · simp [haudit]
    · obtain ⟨_,_,_,_,-,hthrow⟩ := Program.runs_bind_ok.1 hrelease
      cases (Program.runs_throw.1 hthrow).2

end route

/-! ### What stays -/

section world
variable {D : Deps} {x : Choice} {w : World}

theorem storage_handle {I : MemoryStorage → Prop}
    (hI : ∀ o now st, I st → I (MemoryStorage.handle D.format o now st).2) (o : ServerOp)
    (h : I w.storage) : I (World.handle D o x w).2.storage := by
  cases o with
  | storage o =>
    rcases World.handle_cases D (.storage o) x w with ⟨e,-,-,hw⟩ | hw
    · rw [hw]
      exact h
    · rw [hw]
      exact hI _ _ _ h
  | _ =>
    rw [(World.handle_frame D _ x w).storage (by simp [ServerOp.store])]
    exact h

/-- A row that was written is not taken back. -/
theorem audit_handle (o : ServerOp) {e : AuditEntry} (h : e ∈ w.audit) :
    e ∈ (World.handle D o x w).2.audit := by
  rcases World.handle_cases D o x w with ⟨_,-,-,hw⟩ | hw
  · rw [hw]
    exact h
  · rw [hw]
    cases o with
    | audit input => exact List.mem_append_left _ h
    | http o => cases o <;> exact h
    | acquireSlot =>
      simp only [World.serve]
      split
      · exact h
      · exact h
    | _ => exact h

end world

section run
variable {D : Deps} {w₀ : World} {requests : Nat → ServerRequest}
  {ok : ServerConfig Reply → Nat → Choice → Prop} {c : ServerConfig Reply}

theorem holds_of_reach (hc : Reach (World.handle D) ok (startRequests D w₀ requests) c) {q : Nat}
    {scope : TenantScope} {record : InvoiceRecord} {w w' : World}
    (he : (⟨q,.storage (.recordInvoice scope record),.ok (),w,w'⟩ : ServerEvent) ∈ c.history) :
    (c.shared.storage.ledger (scopeKey scope)).Holds record := by
  refine hc.keeps_of_event (J := fun w => (w.storage.ledger (scopeKey scope)).Holds record)
    (fun o x w h => ?_) rfl he (fun x w h => ?_)
  · exact storage_handle (I := fun st => (st.ledger (scopeKey scope)).Holds record)
      (fun o now st => MemoryStorage.ledger_step D.format _ o now fun l => Ledger.holds_step D.format o now)
      o h
  · rcases World.handle_cases D (.storage (.recordInvoice scope record)) x w with ⟨_,-,-,hw⟩ | hw
    · rw [hw] at h
      cases h
    · rw [hw] at h ⊢
      exact MemoryStorage.holds_of_recorded D.format h

theorem audited_of_reach (hc : Reach (World.handle D) ok (startRequests D w₀ requests) c) {q : Nat}
    {row : AuditEntryInput} {w w' : World}
    (he : (⟨q,.audit row,.ok (),w,w'⟩ : ServerEvent) ∈ c.history) :
    ∃ e ∈ c.shared.audit, e.toAuditEntryInput = row := by
  refine hc.keeps_of_event (J := fun w => ∃ e ∈ w.audit, e.toAuditEntryInput = row)
    (fun o x w h => ?_) rfl he (fun x w h => ?_)
  · obtain ⟨e,he,hrow⟩ := h
    exact ⟨e,audit_handle o he,hrow⟩
  · rcases World.handle_cases D (.audit row) x w with ⟨_,-,-,hw⟩ | hw
    · rw [hw] at h
      cases h
    · rw [hw]
      exact ⟨⟨row,x.now⟩,List.mem_append_right _ (List.mem_singleton_self _),rfl⟩

/-- The document is on record for the tenant: its row is on the ledger, whatever has become of its
status, and the audit log has the row of its issue. -/
structure World.OnRecord (w : World) (req : IssueRequest) (identity : TenantIdentity)
    (issued : Issued) : Prop where
  bound : w.tenants.Binds req.tenantRef identity
  recorded : ∃ record, record.invoiceId = req.host.randomUUID ∧ issued.Recorded record ∧
    (w.storage.ledger (scopeKey identity.scope)).Holds record
  audited : ∃ e ∈ w.audit, e.toAuditEntryInput.Tells req.tenantRef issued

theorem acknowledged_among (hc : Reach (World.handle D) ok (startRequests D w₀ requests) c) {p : Nat}
    {req : IssueRequest} {reply : Reply} (hreq : requests p = .issueInvoice req)
    (hp : c.procs p = .ret reply) (hreply : reply.Acknowledges) :
    ∃ tenant issued outcome, reply.body = issuedBody issued outcome ∧
      AcknowledgedAmong req tenant issued (callsOf p c.history) := by
  have hprogram : (startRequests D w₀ requests).procs p = issueRoute D req := by
    simp only [startRequests,hreq]
    rfl
  have hruns := hc.runs rfl (q := p) (r := .ok reply) hp
  rw [hprogram] at hruns
  exact issueRoute_runs hruns hreply

theorem AcknowledgedAmong.onRecord (hc : Reach (World.handle D) ok (startRequests D w₀ requests) c)
    {p : Nat} {req : IssueRequest} {tenant : TenantRecord} {issued : Issued}
    (h : AcknowledgedAmong req tenant issued (callsOf p c.history)) :
    c.shared.OnRecord req tenant.identity issued := by
  obtain ⟨record,hid,hrecord,hrecorded⟩ := h.recorded
  obtain ⟨row,htells,haudit⟩ := h.audited
  obtain ⟨_,_,hfound⟩ := mem_callsOf.1 h.found
  obtain ⟨_,_,hrecorded⟩ := mem_callsOf.1 hrecorded
  obtain ⟨_,_,haudit⟩ := mem_callsOf.1 haudit
  obtain ⟨e,he,rfl⟩ := audited_of_reach hc haudit
  exact ⟨binds_of_answered hc hfound,⟨record,hid,hrecord,holds_of_reach hc hrecorded⟩,e,he,htells⟩

end run

/-! ### No number comes back -/

/-- The counter of the scope is told to give the number out. -/
inductive Draws (key number : String) : ServerEvent → Prop
  | mk {p sequence : Nat} {scope : TenantScope} {w w' : World} : scopeKey scope = key →
      Draws key number ⟨p,.storage (.incrementCounter scope),.ok ⟨sequence,number⟩,w,w'⟩

/-- The counter row that the number is of has come to it, or past it. -/
def Ledger.Past (l : Ledger) (number : String) : Prop :=
  ∃ (m : YearMonth) (sequence : Nat), m.1.toList.length = 6 ∧ sequence ≤ l.sequence m ∧
    number.toList = m.1.toList ++ inDigits 6 sequence

theorem Ledger.past_step (format : InvoiceNumberFormatter) (o : StorageOp) (now : Date) {l : Ledger}
    {number : String} (h : l.Past number) : (Ledger.handle format o now l).2.Past number := by
  obtain ⟨m,sequence,hm,hle,hnumber⟩ := h
  refine ⟨m,sequence,hm,hle.trans ?_,hnumber⟩
  cases o with
  | incrementCounter scope =>
    show l.sequence m ≤ Function.update l.sequence _ _ m
    rw [Function.update_apply]
    split
    · rename_i hsame
      rw [hsame]
      exact Nat.le_succ _
    · exact le_rfl
  | getPreviousHash scope kind => exact le_rfl
  | loadInvoice scope id => exact le_rfl
  | recordInvoice scope record =>
    simp only [Ledger.handle]
    split
    · split
      · exact le_rfl
      · exact le_rfl
    · exact le_rfl
  | updateInvoiceStatus scope id status =>
    simp only [Ledger.handle]
    split
    · exact le_rfl
    · exact le_rfl

section numbers
variable {D : Deps} {x : Choice} {w : World}

theorem past_handle {key number : String} (o : ServerOp) (h : (w.storage.ledger key).Past number) :
    ((World.handle D o x w).2.storage.ledger key).Past number :=
  storage_handle (I := fun st => (st.ledger key).Past number)
    (fun o now _ => MemoryStorage.ledger_step (I := fun l => l.Past number) D.format key o now
      fun _ => Ledger.past_step D.format o now) o h

/-- A number that is given out is one that its row had not come to. -/
theorem drawn_handle (hformat : D.format = defaultFormatter) (hx : FourDigitYear x.now)
    {scope : TenantScope} {sequence : Nat} {number : String}
    (h : (World.handle D (.storage (.incrementCounter scope)) x w).1 = .ok ⟨sequence,number⟩) :
    ¬ (w.storage.ledger (scopeKey scope)).Past number ∧
      ((World.handle D (.storage (.incrementCounter scope)) x w).2.storage.ledger
        (scopeKey scope)).Past number := by
  rcases World.handle_cases D (.storage (.incrementCounter scope)) x w with ⟨_,-,-,hw⟩ | hw
  · rw [hw] at h
    cases h
  · rw [hw] at h ⊢
    simp only [World.serve,MemoryStorage.handle,hformat] at h ⊢
    have hnumber := invoiceNumber_toList scope x.now w.storage
    rw [Except.ok.inj h] at hnumber
    constructor
    · rintro ⟨m,sequence',hm,hle,hpast⟩
      rw [hnumber] at hpast
      obtain ⟨hmonth,hsequence⟩ := List.append_inj hpast ((length_yearMonth hx).trans hm.symm)
      obtain rfl : (yearMonthFor x.now).yearMonth = m := Subtype.ext (String.toList_inj.1 hmonth)
      have := inDigits_inj hsequence
      omega
    · refine ⟨(yearMonthFor x.now).yearMonth,_,length_yearMonth hx,?_,hnumber⟩
      rw [sequence_incrementCounter,Function.update_self]

/-- No two calls have been told one number of the scope, and none is told again. -/
structure NumbersInv (key : String) (c : ServerConfig Reply) : Prop where
  past : ∀ e ∈ c.history, ∀ number, Draws key number e → (c.shared.storage.ledger key).Past number
  once : c.history.Pairwise fun e e' => ∀ number, Draws key number e → ¬ Draws key number e'

theorem numbersInv_step (hformat : D.format = defaultFormatter) {key : String}
    {c : ServerConfig Reply} {p : Nat} {o : ServerOp}
    {k : Except Thrown (ServerOp.Ret o) → Program Server Thrown Reply} (hx : FourDigitYear x.now)
    (h : NumbersInv key c) : NumbersInv key (c.after (World.handle D) p o k x) := by
  have hdrawn (number : String) (hd : Draws key number
      ⟨p,o,(World.handle D o x c.shared).1,c.shared,(World.handle D o x c.shared).2⟩) :
      ¬ (c.shared.storage.ledger key).Past number ∧
        ((World.handle D o x c.shared).2.storage.ledger key).Past number := by
    generalize hr : (World.handle D o x c.shared).1 = r at hd
    cases hd with
    | mk hkey =>
      subst hkey
      exact drawn_handle hformat hx hr
  constructor
  · intro e he number hd
    rcases List.mem_cons.1 he with rfl | he
    · exact (hdrawn number hd).2
    · exact past_handle o (h.past e he number hd)
  · refine List.pairwise_cons.2 ⟨fun e he number hd hd' => ?_,h.once⟩
    exact (hdrawn number hd).1 (h.past e he number hd')

theorem numbersInv_of_reach (hformat : D.format = defaultFormatter) {w₀ : World}
    {requests : Nat → ServerRequest} {c : ServerConfig Reply}
    (hc : Reach (World.handle D) (fun _ _ x => FourDigitYear x.now) (startRequests D w₀ requests) c)
    (key : String) : NumbersInv key c :=
  Reach.invariant (I := NumbersInv key) ⟨by simp [startRequests],.nil⟩
    (fun _ _ _ _ _ h _ hx => numbersInv_step hformat hx h) hc

end numbers

theorem field_issuedBody (issued : Issued) (outcome : SubmissionOutcome) :
    (issuedBody issued outcome).field "invoiceNumber" = some (.str issued.invoiceNumber) := by
  cases issued with
  | phase2 i => rfl
  | phase1 i => rfl

/-- A request to issue has been answered, and not with a replay. -/
structure ServerConfig.Acknowledged (requests : Nat → ServerRequest) (c : ServerConfig Reply) (p : Nat)
    (req : IssueRequest) (reply : Reply) : Prop where
  request : requests p = .issueInvoice req
  answered : c.procs p = .ret reply
  fresh : reply.Acknowledges

/-- In every state of the server, whatever requests there are and however they interleave: a document
that a request to issue was answered with is on record for the tenant, as the answer has it; and two
such answers for one scope never print one number. -/
theorem acknowledged_onRecord (D : Deps) (hformat : D.format = defaultFormatter) (w₀ : World)
    (requests : Nat → ServerRequest) (c : ServerConfig Reply)
    (hc : Reach (World.handle D) (fun _ _ x => FourDigitYear x.now) (startRequests D w₀ requests) c) :
    (∀ p req reply, c.Acknowledged requests p req reply → ∃ identity issued outcome,
      reply.body = issuedBody issued outcome ∧ c.shared.OnRecord req identity issued) ∧
    ∀ p q req req' reply reply' i i', c.Acknowledged requests p req reply →
      c.Acknowledged requests q req' reply' → p ≠ q → c.shared.tenants.Binds req.tenantRef i →
      c.shared.tenants.Binds req'.tenantRef i' → i.scope = i'.scope →
        reply.body.field "invoiceNumber" ≠ reply'.body.field "invoiceNumber" := by
  constructor
  · rintro p req reply ⟨hreq,hp,hreply⟩
    obtain ⟨tenant,issued,outcome,hbody,hamong⟩ := acknowledged_among hc hreq hp hreply
    exact ⟨tenant.identity,issued,outcome,hbody,hamong.onRecord hc⟩
  · rintro p q req req' reply reply' i i' ⟨hreq,hp,hreply⟩ ⟨hreq',hq,hreply'⟩ hne hi hi' hscope hsame
    obtain ⟨tenant,issued,outcome,hbody,hamong⟩ := acknowledged_among hc hreq hp hreply
    obtain ⟨tenant',issued',outcome',hbody',hamong'⟩ := acknowledged_among hc hreq' hq hreply'
    obtain rfl := hi.unique (hamong.onRecord hc).bound
    obtain rfl := hi'.unique (hamong'.onRecord hc).bound
    rw [hbody,hbody',field_issuedBody,field_issuedBody,Option.some.injEq,Json.str.injEq] at hsame
    obtain ⟨w,w',hdrew⟩ := mem_callsOf.1 hamong.drew
    obtain ⟨v,v',hdrew'⟩ := mem_callsOf.1 hamong'.drew
    have hsymm : Std.Symm fun e e' : ServerEvent => ∀ number,
        Draws (scopeKey (toTenantScope tenant)) number e →
          ¬ Draws (scopeKey (toTenantScope tenant)) number e' :=
      ⟨fun e e' he number h h' => he number h' h⟩
    have honce := (numbersInv_of_reach hformat hc (scopeKey (toTenantScope tenant))).once.forall
      hdrew hdrew' fun he => hne (congrArg Event.pid he)
    refine honce issued.invoiceNumber (.mk rfl) ?_
    rw [hsame]
    exact .mk (congrArg scopeKey hscope.symm)

namespace Sample

def unsentSale (id : String) : IssueRequest :=
  { issueRequest none with body := some { input := .invoice invoice, submit := some false }
                           host := ⟨id,clock⟩ }

def firstSale : IssueRequest := unsentSale "5d2c1a60-0000-4000-8000-000000000001"

def secondSale : IssueRequest := unsentSale "5d2c1a60-0000-4000-8000-000000000002"

def twoSales : Nat → ServerRequest
  | 0 => .issueInvoice firstSale
  | _ + 1 => .issueInvoice secondSale

/-- The two take turns at their calls. -/
def twoSalesRun : List (Nat × Choice) := (List.range 14).map fun i => (i % 2,accepted)

end Sample

set_option maxRecDepth 20000 in
theorem acknowledged_onRecord_of_two_sales : ∃ c reply reply',
    (startRequests Sample.deps Sample.world Sample.twoSales).run (World.handle Sample.deps)
      (fun _ _ x => FourDigitYear x.now) Sample.twoSalesRun = some c ∧
    c.procs 0 = .ret reply ∧ c.procs 1 = .ret reply' ∧
    (∃ identity issued outcome, reply.body = issuedBody issued outcome ∧
      c.shared.OnRecord Sample.firstSale identity issued) ∧
    reply.body.field "invoiceNumber" ≠ reply'.body.field "invoiceNumber" := by
  obtain ⟨c,reply,reply',hrun,h₀,h₁,hfresh,hfresh',hbinds⟩ : ∃ c reply reply',
      (startRequests Sample.deps Sample.world Sample.twoSales).run (World.handle Sample.deps)
        (fun _ _ x => FourDigitYear x.now) Sample.twoSalesRun = some c ∧
      c.procs 0 = .ret reply ∧ c.procs 1 = .ret reply' ∧ reply.Acknowledges ∧ reply'.Acknowledges ∧
      c.shared.tenants.Binds Sample.tenantRef Sample.tenant.identity :=
    ⟨_,_,_,rfl,rfl,rfl,⟨rfl,rfl⟩,⟨rfl,rfl⟩,rfl⟩
  obtain ⟨hrecord,hnumbers⟩ := acknowledged_onRecord Sample.deps rfl Sample.world Sample.twoSales c
    (Reach.of_run Sample.twoSalesRun .init hrun)
  exact ⟨c,reply,reply',hrun,h₀,h₁,hrecord 0 _ _ ⟨rfl,h₀,hfresh⟩,
    hnumbers 0 1 _ _ _ _ _ _ ⟨rfl,h₀,hfresh⟩ ⟨rfl,h₁,hfresh'⟩ Nat.zero_ne_one hbinds hbinds rfl⟩

end Zatca
