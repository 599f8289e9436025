import Zatca.Core.Dispatch
import Zatca.Server.InvoiceRoutes
import Zatca.Storage.SequentialChain
set_option autoImplicit false

/-! What the route does with `body.input`. Its own schema lets any value through, and no issuer
applies the schema of a kind. -/

namespace Zatca
open Interaction

/-- The route from the check of the kind to the document. -/
def issueBodyJson (R : Runtime) (B : JsonBuilders) (submit : Bool) (args : IssueJsonArgs) :
    Program StorageAdapter Thrown Issued := do
  let inputKind ← Program.ofExcept (Json.property (some args.input) "kind")
  match (kindOf inputKind).filter (fun kind => submit && kind.isPhase1) with
  | some kind => .throw (phase1Submission kind)
  | none => issueInvoiceJson R B args

/-- On the inputs of the type the route does what it does with the type's values. -/
theorem issueBodyJson_toJson (R : Runtime) (B : JsonBuilders) (submit : Bool) (input : InvoiceInput)
    (scope : TenantScope) (signing : SigningMaterial) (host : HostValues) :
    issueBodyJson R B submit ⟨input.toJson,scope,some signing,host⟩ =
      (Program.ofExcept (checkKind submit (.invoice input))).bind fun _ =>
        issueInvoice B.typed ⟨input,scope,some signing,host⟩ := by
  have hkind : Json.property (some input.toJson) "kind" = .ok (input.toJson.field "kind") := rfl
  rw [← issueInvoiceJson_toJson input scope (some signing) host R B]
  simp only [issueBodyJson,hkind,input.field_kind,Program.ofExcept,Program.bind_eq,
    Program.ret_bind,kindOf_literal,checkKind]
  by_cases h : submit && input.kind.isPhase1
  · simp [Option.filter,h]
  · simp [Option.filter,h]

/-- The input carries the uuid and the VAT number of the scope. -/
def NamesScope (input : Json) (scope : TenantScope) : Prop :=
  ∃ egsInfo, input.field "egsInfo" = some egsInfo ∧
    egsInfo.field "uuid" = some (.str scope.egsUuid) ∧
    egsInfo.field "vatNumber" = some (.str scope.vatNumber)

/-- The call gets as far as the counter: the kind is known, is not one that the route refuses to
submit, and the input is about the tenant. -/
def TakesNumber (submit : Bool) (input : Json) (scope : TenantScope) : Prop :=
  ∃ kind : InvoiceKind, input.field "kind" = some (.str kind.literal) ∧ ¬ (submit ∧ kind.isPhase1) ∧
    NamesScope input scope

theorem equals_iff (value : Option Json) (text : String) :
    Json.equals value text ↔ value = some (.str text) := by
  match value with
  | some (.str s) => simp [Json.equals]
  | none => simp [Json.equals]
  | some .null => simp [Json.equals]
  | some (.bool _) => simp [Json.equals]
  | some (.num _) => simp [Json.equals]
  | some (.arr _) => simp [Json.equals]
  | some (.obj _) => simp [Json.equals]

theorem property_of_field {v : Json} {name : String} {x : Json} (h : v.field name = some x) :
    Json.property (some v) name = .ok (some x) := by
  cases v with
  | null => cases h
  | _ => exact congrArg Except.ok h

theorem assertScopeJson_ok_iff (R : Runtime) (input : Json) (scope : TenantScope) :
    assertScopeJson R (input.field "egsInfo") scope = .ok () ↔ NamesScope input scope := by
  constructor
  · intro h
    cases he : input.field "egsInfo" with
    | none =>
      rw [he] at h
      cases h
    | some egsInfo =>
      rw [he] at h
      have hread (name : String) {v : Option Json}
          (hv : Json.property (some egsInfo) name = .ok v) : egsInfo.field name = v := by
        cases egsInfo with
        | null => cases hv
        | _ => exact Except.ok.inj hv
      unfold assertScopeJson at h
      cases hu : Json.property (some egsInfo) "uuid" with
      | error e =>
        rw [hu] at h
        cases h
      | ok uuid =>
        simp only [hu,bind,Except.bind] at h
        split at h
        · cases h
        · rename_i huuid
          cases hv : Json.property (some egsInfo) "vatNumber" with
          | error e =>
            rw [hv] at h
            cases h
          | ok vatNumber =>
            simp only [hv] at h
            split at h
            · cases h
            · rename_i hvat
              rw [not_not,equals_iff] at huuid hvat
              exact ⟨egsInfo,he,(hread "uuid" hu).trans huuid,(hread "vatNumber" hv).trans hvat⟩
  · rintro ⟨egsInfo,he,huuid,hvat⟩
    rw [he,assertScopeJson,property_of_field huuid,property_of_field hvat]
    simp [bind,Except.bind,Json.equals]

/-- Steps of a document after its number. -/
def AfterNumber (scope : TenantScope) (o : StorageOp) : Prop :=
  (∃ kind, o = .getPreviousHash scope kind) ∨ ∃ record, o = .recordInvoice scope record

section cases
variable (R : Runtime) (B : JsonBuilders)

theorem issuePhase2Json_takes {kind : InvoiceKind} {args : IssueJsonArgs}
    (h : NamesScope args.input args.scope) (signing : SigningMaterial) :
    ∃ f, issuePhase2Json R B kind args signing = (StorageAdapter.incrementCounter args.scope).bind f ∧
      ∀ c, (f c).Calls (AfterNumber args.scope) := by
  have ha := (assertScopeJson_ok_iff R args.input args.scope).2 h
  refine ⟨_,by rw [issuePhase2Json,ha]; rfl,fun c => ?_⟩
  refine Program.calls_bind (Program.calls_perform (.inl ⟨_,rfl⟩)) fun prev => ?_
  refine Program.calls_bind (Program.calls_ofExcept _ _) fun built => ?_
  exact Program.calls_bind (Program.calls_perform (.inr ⟨_,rfl⟩)) fun _ => trivial

theorem issuePhase1Json_takes {kind : InvoiceKind} {args : IssueJsonArgs}
    (h : NamesScope args.input args.scope) :
    ∃ f, issuePhase1Json R B kind args = (StorageAdapter.incrementCounter args.scope).bind f ∧
      ∀ c, (f c).Calls (AfterNumber args.scope) := by
  have ha := (assertScopeJson_ok_iff R args.input args.scope).2 h
  refine ⟨_,by rw [issuePhase1Json,ha]; rfl,fun c => ?_⟩
  refine Program.calls_bind (Program.calls_ofExcept _ _) fun built => ?_
  exact Program.calls_bind (Program.calls_perform (.inr ⟨_,rfl⟩)) fun _ => trivial

theorem takes_map {α : Type} {scope : TenantScope} {p : Program StorageAdapter Thrown α}
    (h : ∃ f, p = (StorageAdapter.incrementCounter scope).bind f ∧
      ∀ c, (f c).Calls (AfterNumber scope)) (g : α → Issued) :
    ∃ f, p.bind (fun a => .ret (g a)) = (StorageAdapter.incrementCounter scope).bind f ∧
      ∀ c, (f c).Calls (AfterNumber scope) := by
  obtain ⟨f,rfl,hf⟩ := h
  refine ⟨fun c => (f c).bind (fun a => .ret (g a)),Program.bind_assoc _ _ _,fun c => ?_⟩
  exact Program.calls_bind (hf c) fun _ => trivial

variable {submit : Bool} {input : Json} {scope : TenantScope}
  (signing : SigningMaterial) (host : HostValues)

theorem issueBodyJson_takes (h : TakesNumber submit input scope) :
    ∃ f, issueBodyJson R B submit ⟨input,scope,some signing,host⟩ =
        (StorageAdapter.incrementCounter scope).bind f ∧
      ∀ c, (f c).Calls (AfterNumber scope) := by
  obtain ⟨kind,hkind,hsubmit,hscope⟩ := h
  obtain ⟨egsInfo,he,-⟩ := id hscope
  have hguard : (some kind).filter (fun kind => submit && kind.isPhase1) = none := by
    simpa [Option.filter] using hsubmit
  have hrun : issueBodyJson R B submit ⟨input,scope,some signing,host⟩ =
      if kind.isPhase1 then (issuePhase1Json R B kind ⟨input,scope,some signing,host⟩).bind
        (fun i => .ret (.phase1 i))
      else (issuePhase2Json R B kind ⟨input,scope,some signing,host⟩ signing).bind
        (fun i => .ret (.phase2 i)) := by
    simp only [issueBodyJson,issueInvoiceJson,property_of_field hkind,property_of_field he,
      Program.ofExcept,Program.bind_eq,Program.ret_bind,kindOf_literal,hguard]
    rfl
  rw [hrun]
  split
  · exact takes_map (issuePhase1Json_takes R B hscope) Issued.phase1
  · exact takes_map (issuePhase2Json_takes R B hscope signing) Issued.phase2

theorem issueBodyJson_throws (h : ¬ TakesNumber submit input scope) :
    ∃ e, issueBodyJson R B submit ⟨input,scope,some signing,host⟩ = .throw e := by
  have hproperty (name : String) : (∃ e, Json.property (some input) name = .error e) ∨
      Json.property (some input) name = .ok (input.field name) := by
    cases input with
    | null => exact .inl ⟨_,rfl⟩
    | _ => exact .inr rfl
  simp only [issueBodyJson,issueInvoiceJson]
  rcases hproperty "kind" with ⟨e,hk⟩ | hk
  · exact ⟨e,by rw [hk]; rfl⟩
  rcases hproperty "egsInfo" with ⟨e,he⟩ | he
  · cases input with
    | null => cases hk
    | _ => cases he
  simp only [hk,he,Program.ofExcept,Program.bind_eq,Program.ret_bind]
  cases hkind : kindOf (input.field "kind") with
  | none => exact ⟨_,rfl⟩
  | some kind =>
    have hfield := kindOf_eq_some hkind
    by_cases hsubmit : submit && kind.isPhase1
    · exact ⟨phase1Submission kind,by simp [Option.filter,hsubmit]⟩
    · have hscope : ¬ NamesScope input scope :=
        fun hs => h ⟨kind,hfield,by simpa using hsubmit,hs⟩
      have herror : ∃ e, assertScopeJson R (input.field "egsInfo") scope = .error e := by
        cases ha : assertScopeJson R (input.field "egsInfo") scope with
        | error e => exact ⟨e,rfl⟩
        | ok u => exact absurd ((assertScopeJson_ok_iff R input scope).1 ha) hscope
      obtain ⟨e,ha⟩ := herror
      refine ⟨e,?_⟩
      have hfilter : (some kind).filter (fun kind => submit && kind.isPhase1) = none := by
        simpa [Option.filter] using hsubmit
      rw [hfilter]
      simp only [issuePhase1Json,issuePhase2Json,ha]
      split
      · rfl
      · rfl

end cases

/-- The call throws, and the storage has the numbers and the documents that it had, in all scopes. -/
def NothingIssued (st : MemoryStorage) (run : Except Thrown Issued × MemoryStorage) : Prop :=
  (∃ e, run.1 = .error e) ∧ ∀ key, (run.2.ledger key).sequence = (st.ledger key).sequence ∧
    (run.2.ledger key).records = (st.ledger key).records

/-- After its number a document takes no other. -/
theorem Ledger.exec_afterNumber (format : InvoiceNumberFormatter) {α : Type} {scope : TenantScope}
    {p : Program StorageAdapter Thrown α} (hp : p.Calls (AfterNumber scope)) (script : Nat → Date)
    (l : Ledger) : (p.exec (Ledger.handle format) script l).2.sequence = l.sequence := by
  refine Program.exec_keeps Ledger.sequence (fun o now l ho => ?_) hp script l
  rcases ho with ⟨kind,rfl⟩ | ⟨r,rfl⟩
  · rfl
  · cases hf : l.find r.invoiceId with
    | some existing =>
      rw [Ledger.handle_record_of_some _ _ _ _ hf]
    | none =>
      rw [Ledger.handle_record_of_none _ _ _ _ hf]
      rfl

/-- An input that no schema accepts leaves nothing behind if and only if the call stops before the
counter. -/
theorem issuesOnlyValid_iff (format : InvoiceNumberFormatter) (R : Runtime) (B : JsonBuilders)
    (submit : Bool) (input : Json) (scope : TenantScope) (signing : SigningMaterial)
    (host : HostValues) (st : MemoryStorage) (script : Nat → Date) :
    (¬ SchemaValid input → NothingIssued st
      ((issueBodyJson R B submit ⟨input,scope,some signing,host⟩).exec
        (MemoryStorage.handle format) script st)) ↔
      SchemaValid input ∨ ¬ TakesNumber submit input scope := by
  by_cases hvalid : SchemaValid input
  · simp [hvalid]
  simp only [hvalid,not_false_eq_true,true_imp_iff,false_or]
  constructor
  · rintro ⟨-,hsame⟩ htakes
    obtain ⟨f,hrun,hf⟩ := issueBodyJson_takes R B signing host htakes
    have hcalls : (issueBodyJson R B submit ⟨input,scope,some signing,host⟩).Calls
        (fun o => StorageOp.scope o = scope) := by
      rw [hrun]
      refine Program.calls_bind (Program.calls_perform rfl) fun c => ?_
      refine (hf c).mono fun o ho => ?_
      rcases ho with ⟨kind,rfl⟩ | ⟨r,rfl⟩
      · rfl
      · rfl
    have hledger := (MemoryStorage.exec_ledger format st hcalls script).2
    have hkey := (hsame (scopeKey scope)).1
    have hnext : ((issueBodyJson R B submit ⟨input,scope,some signing,host⟩).exec
        (Ledger.handle format) script (st.ledger (scopeKey scope))).2.sequence =
          ((st.ledger (scopeKey scope)).next (yearMonthFor (script 0)).yearMonth).sequence := by
      rw [hrun]
      exact Ledger.exec_afterNumber format (hf _) _ _
    rw [hledger,hnext] at hkey
    have hm := congrFun hkey (yearMonthFor (script 0)).yearMonth
    rw [Ledger.next_sequence_self] at hm
    omega
  · intro htakes
    obtain ⟨e,hrun⟩ := issueBodyJson_throws R B signing host htakes
    rw [hrun]
    exact ⟨⟨e,rfl⟩,fun key => ⟨rfl,rfl⟩⟩

namespace Sample

/-- A sale of nothing. -/
def emptySale : InvoiceInput :=
  { sale with
    lineItems := []
    kind := .simplifiedTaxInvoice
    egsInfo
    invoiceCounterNumber := 0
    invoiceSerialNumber := ""
    previousInvoiceHash := "" }

-- With its line item the sale is valid.
example : inputSchema .simplifiedTaxInvoice
    (some { emptySale with lineItems := sale.lineItems }.toJson) := by decide

/-- Builders that go over the line items, however many there are. -/
def jsonBuilders : JsonBuilders where
  build kind _ _ := .ok ⟨kind.literal,kind.literal,"digest","qr"⟩
  buildPhase1 kind _ := .ok ⟨kind.literal,"qr"⟩

def issueEmptySale : Except Thrown Issued × MemoryStorage :=
  (issueBodyJson runtime jsonBuilders false ⟨emptySale.toJson,scope,some ⟨"certificate","key"⟩,
    ⟨"order-1",clock⟩⟩).exec (MemoryStorage.handle defaultFormatter) (fun _ => clock) .empty

end Sample

/-- An invoice without line items is issued, numbered and recorded. -/
theorem issuesOnlyValid_fails_on_no_lines :
    ¬ SchemaValid Sample.emptySale.toJson ∧ ¬ NothingIssued .empty Sample.issueEmptySale ∧
    (Sample.issueEmptySale.2.ledger (scopeKey Sample.scope)).records.map
      InvoiceRecord.counterNumber = [1] := by
  refine ⟨?_,?_,by decide⟩
  · rintro ⟨kind,h⟩
    cases kind with
    | _ => exact absurd h (by decide)
  · rintro ⟨⟨e,he⟩,-⟩
    cases he

end Zatca
