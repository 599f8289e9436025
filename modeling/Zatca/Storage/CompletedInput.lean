import Zatca.Core.Dispatch
import Zatca.Library.Base64
import Zatca.Library.Interleaving
import Zatca.Storage.Ledger
set_option autoImplicit false

/-! The input that an issue call assembles against the schema of its kind. The storage fills in
three fields; the digest of a predecessor fits its schema, the base that a chain starts from does
not. -/

namespace Zatca
open Interaction Schema

/-! ### The fields of the storage -/

/-- `/^[A-Za-z0-9+/]{43}=$/` -/
def isInvoiceHash (value : String) : Bool :=
  value.toList.length = 44 && value.toList.getLast? = some '=' &&
    (value.toList.take 43).all Base64.isDigit

def invoiceHashSchema : Schema := string [isInvoiceHash]

/-- The fields of `invoiceCommonShape` that the storage fills in. -/
def storageShape : List (String × Schema) := [("invoiceCounterNumber",number [isInt,positive]),
  ("invoiceSerialNumber",nonemptyText),("previousInvoiceHash",invoiceHashSchema)]

/-- The schema of a kind with the fields of the storage: an object schema accepts what each of its
keys accepts, in any order. -/
def completeSchema (kind : InvoiceKind) : Schema :=
  (inputSchema kind).refine fun v => object storageShape (some v)

theorem isInvoiceHash_base : isInvoiceHash ZATCA_BASE_INVOICE_HASH = false := by decide

theorem length_sextets (bs : List UInt8) : (Base64.sextets bs).length = (bs.length*4+2)/3 := by
  fun_induction Base64.sextets bs with
  | case1 a b c rest ih => simp [ih]; omega
  | case2 a b => simp
  | case3 a => simp
  | case4 => simp

/-- Base64 of 32 bytes. -/
theorem isInvoiceHash_encode {digest : List UInt8} (h : digest.length = 32) :
    isInvoiceHash (String.ofList (Base64.encode digest)) = true := by
  have hlen : ((Base64.sextets digest).map Base64.digit).length = 43 := by
    rw [List.length_map,length_sextets,h]
  have htext : Base64.encode digest = (Base64.sextets digest).map Base64.digit ++ ['='] := by
    rw [Base64.encode,h]
    rfl
  have hdigits : ∀ c ∈ (Base64.sextets digest).map Base64.digit, Base64.isDigit c = true := by
    intro c hc
    obtain ⟨n,hn,rfl⟩ := List.mem_map.1 hc
    exact Base64.isDigit_digit n (Base64.sextets_lt digest n hn)
  simp only [isInvoiceHash,String.toList_ofList,htext,List.take_left' hlen,Bool.and_eq_true,
    decide_eq_true_eq,List.all_eq_true]
  refine ⟨⟨?_,?_⟩,hdigits⟩
  · rw [List.length_append,hlen]
    rfl
  · rw [List.getLast?_concat]

/-! ### The assembled input -/

/-- The digest that an issue call puts into its input; Phase 1 does not ask the storage. -/
def previousHashFor (kind : InvoiceKind) (scope : TenantScope) (st : MemoryStorage) : String :=
  if kind.isPhase1 then ZATCA_BASE_INVOICE_HASH else st.getPreviousHash scope (some kind)

/-- What the builder gets when the call runs undisturbed. -/
def completedInput (kind : InvoiceKind) (args : IssueJsonArgs) (now : Date) (st : MemoryStorage) :
    Json :=
  let (counter,st') := st.incrementCounter defaultFormatter now args.scope
  fullJson args counter (previousHashFor kind args.scope st')

/-- Builders that throw what they get. -/
def spy : JsonBuilders := ⟨fun _ input _ => .error (.other input),fun _ input => .error (.other input)⟩

theorem exec_issuePhase2Json (R : Runtime) (kind : InvoiceKind) (args : IssueJsonArgs)
    (signing : SigningMaterial) (now : Date) (st : MemoryStorage) (hphase : kind.isPhase1 = false)
    (hscope : assertScopeJson R (args.input.field "egsInfo") args.scope = .ok ()) :
    ((issuePhase2Json R spy kind args signing).exec (MemoryStorage.handle defaultFormatter)
      (fun _ => now) st).1 = .error (.other (completedInput kind args now st)) := by
  simp only [issuePhase2Json,hscope,completedInput,previousHashFor,hphase]
  rfl

theorem exec_issuePhase1Json (R : Runtime) (kind : InvoiceKind) (args : IssueJsonArgs) (now : Date)
    (st : MemoryStorage) (hphase : kind.isPhase1 = true)
    (hscope : assertScopeJson R (args.input.field "egsInfo") args.scope = .ok ()) :
    ((issuePhase1Json R spy kind args).exec (MemoryStorage.handle defaultFormatter)
      (fun _ => now) st).1 = .error (.other (completedInput kind args now st)) := by
  simp only [issuePhase1Json,hscope,completedInput,previousHashFor,hphase,if_true]
  rfl

/-! ### The fields of the caller stay -/

theorem lookup_filter_of_keep {p : String → Bool} {key : String} (h : p key = true)
    (fields : List (String × Json)) :
    (fields.filter fun e => p e.1).lookup key = fields.lookup key := by
  induction fields with
  | nil => rfl
  | cons e fields ih =>
    obtain ⟨k,v⟩ := e
    by_cases hk : key = k
    · subst hk
      simp [h]
    · have hne := beq_false_of_ne hk
      rw [List.lookup_cons,hne,← ih,List.filter_cons]
      cases p k with
      | true => simp [List.lookup_cons,hne]
      | false => simp

theorem lookup_filter_of_drop {p : String → Bool} {key : String} (h : p key = false)
    (fields : List (String × Json)) : (fields.filter fun e => p e.1).lookup key = none := by
  rw [List.lookup_eq_none_iff]
  intro e he
  rw [bne_iff_ne]
  rintro rfl
  have hkeep := (List.mem_filter.1 he).2
  rw [h] at hkeep
  cases hkeep

theorem fullJson_field (args : IssueJsonArgs) {fields : List (String × Json)}
    (hinput : args.input = .obj fields) (counter : CounterValue) (previousInvoiceHash : String)
    {key : String} (hkey : key ∉ storageFields) :
    (fullJson args counter previousInvoiceHash).field key = args.input.field key := by
  have hstrip : stripStorageFields (.obj fields) =
      fields.filter fun e => !storageFields.contains e.1 := rfl
  have hkeep : (!storageFields.contains key) = true := by simpa using hkey
  have hdrop : key ≠ "egsInfo" ∧ key ≠ "invoiceCounterNumber" ∧ key ≠ "invoiceSerialNumber" ∧
      key ≠ "previousInvoiceHash" := by
    simp only [storageFields,List.mem_cons,not_or] at hkey
    exact ⟨hkey.2.2.2.1,hkey.1,hkey.2.1,hkey.2.2.1⟩
  have htail : ([("egsInfo",(args.input.field "egsInfo").getD .null),
      ("invoiceCounterNumber",.num counter.sequence),("invoiceSerialNumber",.str counter.invoiceNumber),
      ("previousInvoiceHash",.str previousInvoiceHash)] : List (String × Json)).lookup key = none := by
    simp [List.lookup_cons,beq_false_of_ne hdrop.1,beq_false_of_ne hdrop.2.1,
      beq_false_of_ne hdrop.2.2.1,beq_false_of_ne hdrop.2.2.2]
  rw [fullJson,Json.field,List.lookup_append,htail,Option.or_none,hinput,hstrip]
  exact lookup_filter_of_keep (p := fun key => !storageFields.contains key) hkeep fields

/-- A field of the storage has the value that was overlaid. -/
theorem fullJson_storageField (args : IssueJsonArgs) (counter : CounterValue)
    (previousInvoiceHash : String) {key : String} (hkey : key ∈ storageFields) :
    (fullJson args counter previousInvoiceHash).field key =
      [("egsInfo",(args.input.field "egsInfo").getD .null),
        ("invoiceCounterNumber",.num counter.sequence),
        ("invoiceSerialNumber",.str counter.invoiceNumber),
        ("previousInvoiceHash",.str previousInvoiceHash)].lookup key := by
  have hdrop : (!storageFields.contains key) = false := by simpa using hkey
  have hstrip : (stripStorageFields args.input).lookup key = none := by
    cases args.input with
    | obj fields => exact lookup_filter_of_drop (p := fun key => !storageFields.contains key) hdrop fields
    | _ => rfl
  rw [fullJson,Json.field,List.lookup_append,hstrip,Option.none_or]

/-- A schema sees of an object only what is under its keys. -/
theorem object_congr {shape : List (String × Schema)} {fields fields' : List (String × Json)}
    (h : ∀ e ∈ shape, fields.lookup e.1 = fields'.lookup e.1) :
    object shape (some (.obj fields)) = object shape (some (.obj fields')) := by
  simp only [object]
  induction shape with
  | nil => rfl
  | cons e shape ih =>
    obtain ⟨he,hshape⟩ := List.forall_mem_cons.1 h
    simp only [List.all_cons,he,ih hshape]

theorem inputSchema_congr {fields fields' : List (String × Json)}
    (h : ∀ key ∈ "kind" :: invoiceCommonShape.map Prod.fst, fields.lookup key = fields'.lookup key)
    (kind : InvoiceKind) :
    inputSchema kind (some (.obj fields)) = inputSchema kind (some (.obj fields')) := by
  have hvariant (kind : InvoiceKind) :
      variant kind (some (.obj fields)) = variant kind (some (.obj fields')) := by
    refine object_congr fun e he => h e.1 ?_
    rcases List.mem_cons.1 he with rfl | he
    · exact List.mem_cons_self
    · exact List.mem_cons_of_mem _ (List.mem_map_of_mem he)
  have hname : requiresBuyerName (.obj fields) = requiresBuyerName (.obj fields') := by
    rw [requiresBuyerName,requiresBuyerName,Json.field,Json.field,h _ (by decide)]
  have hinfo : requiresBuyerInfo (.obj fields) = requiresBuyerInfo (.obj fields') := by
    rw [requiresBuyerInfo,requiresBuyerInfo,Json.field,Json.field,h _ (by decide)]
  have hcancelation : requiresCancelation (.obj fields) = requiresCancelation (.obj fields') := by
    rw [requiresCancelation,requiresCancelation,Json.field,Json.field,h _ (by decide)]
  cases kind with
  | simplifiedTaxInvoice =>
    simp only [inputSchema,simplifiedTaxInvoiceInputSchema,Schema.refine,hvariant,hname]
  | standardTaxInvoice =>
    simp only [inputSchema,standardTaxInvoiceInputSchema,Schema.refine,hvariant,hinfo]
  | simplifiedCreditNote =>
    simp only [inputSchema,simplifiedCreditNoteInputSchema,Schema.refine,hvariant,hcancelation]
  | standardCreditNote =>
    simp only [inputSchema,standardCreditNoteInputSchema,Schema.refine,hvariant,hinfo,hcancelation]
  | simplifiedDebitNote =>
    simp only [inputSchema,simplifiedDebitNoteInputSchema,Schema.refine,hvariant,hcancelation]
  | standardDebitNote =>
    simp only [inputSchema,standardDebitNoteInputSchema,Schema.refine,hvariant,hinfo,hcancelation]
  | phase1Invoice => exact hvariant _
  | phase1CreditNote =>
    simp only [inputSchema,phase1CreditNoteInputSchema,Schema.refine,hvariant,hcancelation]

/-- What the caller supplied is accepted after the assembly as before. -/
theorem inputSchema_fullJson {kind : InvoiceKind} {args : IssueJsonArgs}
    (h : inputSchema kind (some args.input) = true) (counter : CounterValue)
    (previousInvoiceHash : String) :
    inputSchema kind (some (fullJson args counter previousInvoiceHash)) = true := by
  have hvariant := inputSchema_variant h
  obtain ⟨fields,hinput⟩ : ∃ fields, args.input = .obj fields := by
    cases hv : args.input with
    | obj fields => exact ⟨fields,rfl⟩
    | _ => rw [hv] at hvariant; cases hvariant
  have hegs : egsUnitInfoSchema (args.input.field "egsInfo") = true :=
    object_field hvariant (List.mem_cons_of_mem _ List.mem_cons_self)
  have hfull : fullJson args counter previousInvoiceHash = .obj (stripStorageFields args.input ++
      [("egsInfo",(args.input.field "egsInfo").getD .null),
        ("invoiceCounterNumber",.num counter.sequence),
        ("invoiceSerialNumber",.str counter.invoiceNumber),
        ("previousInvoiceHash",.str previousInvoiceHash)]) := rfl
  have hsame : ∀ key ∈ "kind" :: invoiceCommonShape.map Prod.fst,
      (fullJson args counter previousInvoiceHash).field key = args.input.field key := by
    intro key hkey
    by_cases hegsKey : key = "egsInfo"
    · subst hegsKey
      rw [fullJson_storageField _ _ _ (by decide)]
      cases hfield : args.input.field "egsInfo" with
      | none => rw [hfield] at hegs; cases hegs
      | some egsInfo => rfl
    · have hother : key ∉ storageFields := by
        have hall : ∀ key ∈ "kind" :: invoiceCommonShape.map Prod.fst, key ≠ "egsInfo" →
            key ∉ storageFields := by decide
        exact hall key hkey hegsKey
      exact fullJson_field args hinput _ _ hother
  rw [hinput] at h hsame
  rw [hfull] at hsame ⊢
  exact (inputSchema_congr hsame kind).trans h

/-! ### Runs of issue calls -/

/-- Every row that the call offers of a chained kind has a digest of the schema. -/
def recordsHash : StorageOp → Prop
  | .recordInvoice _ record => record.kind.isPhase1 = false → isInvoiceHash record.invoiceHash = true
  | _ => True

/-- The digest of a built document is that of SHA-256, in base64. -/
def DigestsSha256 (B : JsonBuilders) : Prop :=
  ∀ kind input signing built, B.build kind input signing = .ok built →
    ∃ digest : List UInt8, digest.length = 32 ∧
      built.invoiceHash = String.ofList (Base64.encode digest)

section runs
variable {R : Runtime} {B : JsonBuilders}

theorem issuePhase2Json_recordsHash (hB : DigestsSha256 B) (kind : InvoiceKind)
    (args : IssueJsonArgs) (signing : SigningMaterial) :
    (issuePhase2Json R B kind args signing).Calls recordsHash := by
  refine Program.calls_bind (Program.calls_ofExcept _ _) fun _ => ?_
  refine Program.calls_bind (Program.calls_perform trivial) fun counter => ?_
  refine Program.calls_bind (Program.calls_perform trivial) fun prev => ?_
  rw [Program.bind_eq,Program.ofExcept_bind]
  cases hbuilt : B.build kind (fullJson args counter prev) signing with
  | error e => trivial
  | ok built =>
    obtain ⟨digest,hlen,hhash⟩ := hB _ _ _ _ hbuilt
    refine Program.calls_bind (Program.calls_perform fun _ => ?_) fun _ => trivial
    show isInvoiceHash built.invoiceHash = true
    rw [hhash]
    exact isInvoiceHash_encode hlen

theorem issuePhase1Json_recordsHash {kind : InvoiceKind} (hkind : kind.isPhase1 = true)
    (args : IssueJsonArgs) : (issuePhase1Json R B kind args).Calls recordsHash := by
  refine Program.calls_bind (Program.calls_ofExcept _ _) fun _ => ?_
  refine Program.calls_bind (Program.calls_perform trivial) fun counter => ?_
  refine Program.calls_bind (Program.calls_ofExcept _ _) fun built => ?_
  refine Program.calls_bind (Program.calls_perform fun h => ?_) fun _ => trivial
  rw [show (jsonRecord kind args counter ZATCA_BASE_INVOICE_HASH ZATCA_BASE_INVOICE_HASH
    built.invoiceXml built.qrCode).kind = kind from rfl,hkind] at h
  cases h

theorem issueInvoiceJson_recordsHash (hB : DigestsSha256 B) (args : IssueJsonArgs) :
    (issueInvoiceJson R B args).Calls recordsHash := by
  refine Program.calls_bind (Program.calls_ofExcept _ _) fun _ => ?_
  refine Program.calls_bind (Program.calls_ofExcept _ _) fun value => ?_
  cases kindOf value with
  | none => trivial
  | some kind =>
    cases hphase : kind.isPhase1 with
    | true =>
      simp only [hphase,if_true]
      exact Program.calls_bind (issuePhase1Json_recordsHash hphase args) fun _ => trivial
    | false =>
      cases hsigning : args.signing with
      | none => simp only [hphase]; trivial
      | some signing =>
        simp only [hphase]
        exact Program.calls_bind (issuePhase2Json_recordsHash hB kind args signing) fun _ => trivial

/-- Every document of a chained kind in the ledger has a digest of the schema. -/
def Hashed (l : Ledger) : Prop :=
  ∀ r ∈ l.records, r.kind.isPhase1 = false → isInvoiceHash r.invoiceHash = true

theorem hashed_handle {format : InvoiceNumberFormatter} {o : StorageOp} {now : Date} {l : Ledger}
    (hl : Hashed l) (ho : recordsHash o) : Hashed (Ledger.handle format o now l).2 := by
  cases o with
  | incrementCounter scope => exact hl
  | getPreviousHash scope kind => exact hl
  | loadInvoice scope id => exact hl
  | recordInvoice scope record =>
    cases hfind : l.find record.invoiceId with
    | some existing =>
      rw [Ledger.handle_record_of_some format now scope l hfind]
      exact hl
    | none =>
      rw [Ledger.handle_record_of_none format now scope l hfind]
      intro r hr
      rcases List.mem_append.1 hr with hr | hr
      · exact hl r hr
      · rw [List.mem_singleton.1 hr]
        exact ho
  | updateInvoiceStatus scope id status =>
    simp only [Ledger.handle]
    cases l.find id with
    | none => exact hl
    | some existing =>
      intro r hr
      obtain ⟨r',hr',rfl⟩ := List.mem_map.1 hr
      have h := hl r' hr'
      split
      · exact h
      · exact h

/-- Any number of issue calls on a fresh adapter. -/
def issueCalls (R : Runtime) (B : JsonBuilders) (requests : Nat → IssueJsonArgs) :
    Config StorageAdapter Thrown Issued MemoryStorage where
  shared := .empty
  procs p := issueInvoiceJson R B (requests p)

theorem hashed_of_reach (hB : DigestsSha256 B) {requests : Nat → IssueJsonArgs}
    {c : Config StorageAdapter Thrown Issued MemoryStorage}
    (hc : Reach (MemoryStorage.handle defaultFormatter) (fun _ _ _ => True)
      (issueCalls R B requests) c) (key : String) : Hashed (c.shared.ledger key) := by
  suffices h : (∀ key, Hashed (c.shared.ledger key)) ∧ ∀ p, (c.procs p).Calls recordsHash from h.1 key
  refine Reach.invariant
    (I := fun c => (∀ key, Hashed (c.shared.ledger key)) ∧ ∀ p, (c.procs p).Calls recordsHash) ?_ ?_ hc
  · refine ⟨fun key r hr => ?_,fun p => issueInvoiceJson_recordsHash hB (requests p)⟩
    cases hr
  · intro c p x o k hI hp _
    have hcall := hI.2 p
    rw [hp] at hcall
    constructor
    · intro key
      rw [show (c.after (MemoryStorage.handle defaultFormatter) p o k x).shared =
        (MemoryStorage.handle defaultFormatter o x c.shared).2 from rfl,
        (MemoryStorage.handle_ledger defaultFormatter c.shared x o).2]
      split
      · exact hashed_handle (hI.1 key) hcall.1
      · exact hI.1 key
    · intro q
      by_cases hq : q = p
      · subst hq
        rw [Config.after_procs_self]
        exact hcall.2 _
      · rw [Config.after_procs_ne _ _ _ _ _ hq]
        exact hI.2 q

/-! ### Which assembled inputs the schema accepts -/

/-- The call continues a chain: a document of its kind is on record for the scope. -/
def Continues (kind : InvoiceKind) (scope : TenantScope) (st : MemoryStorage) : Prop :=
  kind.isPhase1 = false ∧ ∃ r ∈ (st.ledger (scopeKey scope)).records, r.kind = kind

theorem isInvoiceHash_previousHashFor {kind : InvoiceKind} {scope : TenantScope}
    {st : MemoryStorage} (h : Hashed (st.ledger (scopeKey scope))) :
    isInvoiceHash (previousHashFor kind scope st) = true ↔ Continues kind scope st := by
  cases hphase : kind.isPhase1 with
  | true => simp [previousHashFor,Continues,hphase,isInvoiceHash_base]
  | false =>
    rw [previousHashFor,hphase,if_neg Bool.false_ne_true,MemoryStorage.getPreviousHash_ledger,
      Ledger.head]
    simp only [Continues,hphase,true_and]
    cases hlast : lastHash (ChainKey.ofOption (some kind)) (st.ledger (scopeKey scope)).records with
    | none =>
      simp only [Option.getD_none,isInvoiceHash_base,Bool.false_eq_true,false_iff,not_exists,not_and]
      intro r hr hkind
      simp only [lastHash,Option.map_eq_none_iff,List.getLast?_eq_none_iff,
        List.filter_eq_nil_iff] at hlast
      exact hlast r hr (by simpa [ChainKey.ofOption,ChainKey.covers] using hkind)
    | some hash =>
      simp only [lastHash,Option.map_eq_some_iff] at hlast
      obtain ⟨r,hr,rfl⟩ := hlast
      obtain ⟨hmem,hcovers⟩ := List.mem_filter.1 (List.mem_of_getLast? hr)
      have hkind : r.kind = kind := by simpa [ChainKey.ofOption,ChainKey.covers] using hcovers
      rw [Option.getD_some]
      exact iff_of_true (h r hmem (hkind ▸ hphase)) ⟨r,hmem,hkind⟩

theorem storageShape_fullJson (args : IssueJsonArgs) (counter : CounterValue)
    (previousInvoiceHash : String) (hsequence : 0 < counter.sequence)
    (hnumber : counter.invoiceNumber ≠ "") :
    object storageShape (some (fullJson args counter previousInvoiceHash)) =
      isInvoiceHash previousInvoiceHash := by
  have hcounter := fullJson_storageField args counter previousInvoiceHash
    (show "invoiceCounterNumber" ∈ storageFields by decide)
  have hserial := fullJson_storageField args counter previousInvoiceHash
    (show "invoiceSerialNumber" ∈ storageFields by decide)
  have hprevious := fullJson_storageField args counter previousInvoiceHash
    (show "previousInvoiceHash" ∈ storageFields by decide)
  have hobj (shape : List (String × Schema)) :
      object shape (some (fullJson args counter previousInvoiceHash)) =
        shape.all fun e => e.2 ((fullJson args counter previousInvoiceHash).field e.1) := rfl
  rw [hobj]
  simp only [storageShape,List.all_cons,List.all_nil,Bool.and_true,hcounter,hserial,hprevious]
  simp [List.lookup,Schema.number,isInt,positive,nonemptyText,Schema.string,nonempty,
    invoiceHashSchema,hsequence,hnumber]

/-- In every storage state that issue calls reach, in any order of their steps, the assembled input
of a valid business input is accepted if and only if the call continues a chain. -/
theorem completed_iff (R : Runtime) (B : JsonBuilders) (hB : DigestsSha256 B)
    (requests : Nat → IssueJsonArgs) (c : Config StorageAdapter Thrown Issued MemoryStorage)
    (hc : Reach (MemoryStorage.handle defaultFormatter) (fun _ _ _ => True)
      (issueCalls R B requests) c)
    (kind : InvoiceKind) (args : IssueJsonArgs) (now : Date)
    (hvalid : inputSchema kind (some args.input) = true) :
    completeSchema kind (some (completedInput kind args now c.shared)) = true ↔
      Continues kind args.scope c.shared := by
  have hledger := MemoryStorage.incrementCounter_ledger defaultFormatter c.shared now args.scope
    (scopeKey args.scope)
  rw [if_pos rfl] at hledger
  have hhashed : Hashed ((c.shared.incrementCounter defaultFormatter now args.scope).2.ledger
      (scopeKey args.scope)) := by
    rw [hledger]
    exact hashed_of_reach hB hc (scopeKey args.scope)
  have hcontinues : Continues kind args.scope
      (c.shared.incrementCounter defaultFormatter now args.scope).2 ↔
        Continues kind args.scope c.shared := by
    rw [Continues,Continues,hledger,Ledger.next_records]
  have hnumber : (c.shared.incrementCounter defaultFormatter now args.scope).1.invoiceNumber ≠ "" := by
    intro hempty
    have hlen := congrArg (fun s => s.toList.length) hempty
    simp only [MemoryStorage.incrementCounter,defaultFormatter,padStart,String.toList_append,
      String.toList_ofList,List.length_append,List.length_replicate,String.length_toList,
      String.toList_empty,List.length_nil] at hlen
    omega
  have hsplit : completeSchema kind (some (completedInput kind args now c.shared)) =
      (inputSchema kind (some (completedInput kind args now c.shared)) &&
        object storageShape (some (completedInput kind args now c.shared))) := rfl
  have hbusiness : inputSchema kind (some (completedInput kind args now c.shared)) = true :=
    inputSchema_fullJson hvalid _ _
  have hstorage : object storageShape (some (completedInput kind args now c.shared)) =
      isInvoiceHash (previousHashFor kind args.scope
        (c.shared.incrementCounter defaultFormatter now args.scope).2) :=
    storageShape_fullJson args _ _ (Nat.succ_pos _) hnumber
  rw [hsplit,hbusiness,hstorage,Bool.true_and,isInvoiceHash_previousHashFor hhashed,hcontinues]

end runs

namespace Sample

/-- The sale with placeholders for what the storage fills in. -/
def issueSale : IssueJsonArgs where
  input := InvoiceInput.toJson
    { sale with
      kind := .simplifiedTaxInvoice
      egsInfo
      invoiceCounterNumber := 0
      invoiceSerialNumber := ""
      previousInvoiceHash := "" }
  scope
  signing := some ⟨"certificate","key"⟩
  host := ⟨"order-1",clock⟩

/-- Builders with a digest of 32 bytes. -/
def digestBuilders : JsonBuilders where
  build kind _ _ := .ok ⟨kind.literal,kind.literal,
    String.ofList (Base64.encode (List.replicate 32 7)),"qr"⟩
  buildPhase1 kind _ := .ok ⟨kind.literal,"qr"⟩

end Sample

/-- The second invoice of a scope is assembled to an input of the schema. -/
theorem completed_iff_second_sale : ∃ c,
    (issueCalls Sample.runtime Sample.digestBuilders fun _ => Sample.issueSale).run
      (MemoryStorage.handle defaultFormatter) (fun _ _ _ => True)
      (List.replicate 3 (0,Sample.clock)) = some c ∧
    completeSchema .simplifiedTaxInvoice
      (some (completedInput .simplifiedTaxInvoice Sample.issueSale Sample.clock c.shared)) = true := by
  refine ⟨_,rfl,?_⟩
  refine (completed_iff Sample.runtime Sample.digestBuilders ?_ (fun _ => Sample.issueSale) _
    (Reach.of_run (List.replicate 3 (0,Sample.clock)) .init rfl) .simplifiedTaxInvoice
    Sample.issueSale Sample.clock (by decide)).2 ?_
  · rintro kind input signing built ⟨⟩
    exact ⟨List.replicate 32 7,rfl,rfl⟩
  · exact ⟨rfl,_,List.mem_cons_self,rfl⟩

/-- On a fresh adapter the predecessor is the base, which has 88 characters. -/
theorem completed_fails_on_first_sale :
    Reach (MemoryStorage.handle defaultFormatter) (fun _ _ _ => True)
      (issueCalls Sample.runtime Sample.digestBuilders fun _ => Sample.issueSale)
      (issueCalls Sample.runtime Sample.digestBuilders fun _ => Sample.issueSale) ∧
    inputSchema .simplifiedTaxInvoice (some Sample.issueSale.input) = true ∧
    completeSchema .simplifiedTaxInvoice (some (completedInput .simplifiedTaxInvoice
      Sample.issueSale Sample.clock (issueCalls Sample.runtime Sample.digestBuilders
        fun _ => Sample.issueSale).shared)) = false :=
  ⟨.init,by decide,by decide⟩

end Zatca
