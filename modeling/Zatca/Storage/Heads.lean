import Zatca.Storage.Retry
set_option autoImplicit false

/-! The head of the chain in the three adapters: a map that every record overwrites, a query by
time and row number, and a query by time alone. -/

namespace Zatca
open Interaction

variable {ε σ χ ν : Type}

/-- The documents of one scope, recorded in this order. -/
def recordCalls (scope : TenantScope) (docs : List (InvoiceRecord × χ)) : List (StorageOp × χ) :=
  docs.map (fun d => (.recordInvoice scope d.1,d.2))

/-- Those of the documents that the adapter took. -/
def recorded (h : Handler StorageAdapter ε σ χ) (scope : TenantScope) :
    List (InvoiceRecord × χ) → σ → List (InvoiceRecord × χ)
  | [], _ => []
  | d :: docs, st =>
      let out := h (.recordInvoice scope d.1) d.2 st
      match out.1 with
      | .ok _ => d :: recorded h scope docs out.2
      | .error _ => recorded h scope docs out.2

/-- Whatever chain is asked for and whenever, the head is the digest of the last document of the
chain that was recorded. -/
def HeadIsLast (h : Handler StorageAdapter ε σ χ) (scope : TenantScope)
    (docs : List (InvoiceRecord × χ)) (st : σ) : Prop :=
  ∀ kind x, (h (.getPreviousHash scope kind) x (h.steps (recordCalls scope docs) st)).1 =
    .ok ((lastHash (.ofOption kind) ((recorded h scope docs st).map Prod.fst)).getD
      ZATCA_BASE_INVOICE_HASH)

/-- A view of the documents of the scope that grows by the new document, if the adapter takes it,
and by nothing else. -/
def Appends (h : Handler StorageAdapter ε σ χ) (scope : TenantScope) (takes : InvoiceRecord → Bool)
    (view : σ → List ν) (entry : InvoiceRecord → χ → ν) (id : ν → String) : Prop :=
  ∀ r x st, r.invoiceId ∉ (view st).map id →
    (takes r = true ∧ (h (.recordInvoice scope r) x st).1 = .ok () ∧
        view (h (.recordInvoice scope r) x st).2 = view st ++ [entry r x]) ∨
      (takes r = false ∧ (∃ e, (h (.recordInvoice scope r) x st).1 = .error e) ∧
        view (h (.recordInvoice scope r) x st).2 = view st)

section appends
variable {h : Handler StorageAdapter ε σ χ} {scope : TenantScope} {takes : InvoiceRecord → Bool}
  {view : σ → List ν} {entry : InvoiceRecord → χ → ν} {id : ν → String}
  {docs : List (InvoiceRecord × χ)} {st : σ}

/-- With new ids, the documents recorded are those the adapter takes, and the view is of them. -/
theorem Appends.steps (ha : Appends h scope takes view entry id)
    (hid : ∀ r x, id (entry r x) = r.invoiceId)
    (hnew : (docs.map (fun d => d.1.invoiceId)).Nodup)
    (hfresh : ∀ d ∈ docs, d.1.invoiceId ∉ (view st).map id) :
    recorded h scope docs st = docs.filter (fun d => takes d.1) ∧
      view (h.steps (recordCalls scope docs) st) =
        view st ++ (docs.filter (fun d => takes d.1)).map (fun d => entry d.1 d.2) := by
  induction docs generalizing st with
  | nil => exact ⟨rfl,(List.append_nil _).symm⟩
  | cons d docs ih =>
    rw [List.map_cons,List.nodup_cons] at hnew
    have hlater : ∀ d' ∈ docs, d'.1.invoiceId ∉ (view st).map id :=
      fun d' hd' => hfresh d' (List.mem_cons_of_mem _ hd')
    have hsteps : h.steps (recordCalls scope (d :: docs)) st =
        h.steps (recordCalls scope docs) (h (.recordInvoice scope d.1) d.2 st).2 := rfl
    rw [hsteps]
    rcases ha d.1 d.2 st (hfresh d List.mem_cons_self) with
      ⟨htakes,hok,hview⟩ | ⟨htakes,⟨e,herr⟩,hview⟩
    · have hnext : ∀ d' ∈ docs, d'.1.invoiceId ∉
          (view (h (.recordInvoice scope d.1) d.2 st).2).map id := by
        intro d' hd' hmem
        rw [hview,List.map_append,List.mem_append,List.map_singleton,List.mem_singleton,hid] at hmem
        rcases hmem with hmem | hmem
        · exact hlater d' hd' hmem
        · exact hnew.1 (List.mem_map.2 ⟨d',hd',hmem⟩)
      have hih := ih hnew.2 hnext
      rw [hih.2,hview]
      simp [recorded,hok,hih.1,htakes]
    · have hih := ih hnew.2 (by rw [hview]; exact hlater)
      rw [hih.2,hview]
      simp [recorded,herr,hih.1,htakes]

end appends

/-- The clock of the host never goes back from one record to the next. -/
def ClockRises (clock : χ → Date) (docs : List (InvoiceRecord × χ)) : Prop :=
  docs.Pairwise (fun a b => (clock a.2).getTime ≤ (clock b.2).getTime)

/-- What both databases keep of a document that its chain depends on. -/
def stripped (r : InvoiceRecord) : InvoiceRecord := { r with validationResults := none }

theorem lastHash_map_stripped (key : ChainKey) (records : List InvoiceRecord) :
    lastHash key (records.map stripped) = lastHash key records := by
  refine lastHash_congr key ?_
  rw [List.map_map]
  rfl

/-- The last row of a chain, from rows in the order in which they were recorded. -/
theorem lastHash_eq {ρ : Type} (key : ChainKey) (row : ρ → InvoiceRecord) (rows : List ρ) :
    ((rows.filter (fun a => key.covers (row a))).getLast?).map (fun a => (row a).invoiceHash) =
      lastHash key (rows.map row) := by
  rw [lastHash,List.filter_map,List.getLast?_map,Option.map_map]
  rfl

/-! ### The map -/

section memory
variable (format : InvoiceNumberFormatter) (scope : TenantScope)

theorem memory_appends : Appends (MemoryStorage.handle format) scope (fun _ => true)
    (fun st => (st.ledger (scopeKey scope)).records) (fun r _ => r) InvoiceRecord.invoiceId := by
  intro r now st hfresh
  have hnone : (st.ledger (scopeKey scope)).find r.invoiceId = none :=
    Ledger.find_eq_none.2 hfresh
  have hl := MemoryStorage.handle_ledger format st now (.recordInvoice scope r)
  have hself : (MemoryStorage.handle format (.recordInvoice scope r) now st).2.ledger
      (scopeKey scope) = (Ledger.handle format (.recordInvoice scope r) now
        (st.ledger (scopeKey scope))).2 := MemoryStorage.handle_ledger_self format st now _
  have hstep := Ledger.handle_record_of_none format now scope _ hnone
  refine .inl ⟨rfl,hl.1.trans (congrArg Prod.fst hstep),?_⟩
  simp only [hself,hstep]
  rfl

theorem memory_headIsLast {docs : List (InvoiceRecord × Date)} {st : MemoryStorage}
    (hnew : (docs.map (fun d => d.1.invoiceId)).Nodup)
    (hst : (st.ledger (scopeKey scope)).records = []) :
    HeadIsLast (MemoryStorage.handle format) scope docs st := by
  intro kind x
  have hsteps := (memory_appends format scope).steps (fun _ _ => rfl) hnew
    (show ∀ d ∈ docs,d.1.invoiceId ∉ (st.ledger (scopeKey scope)).records.map _ by simp [hst])
  have hview := hsteps.2
  rw [hst,List.nil_append,← hsteps.1] at hview
  simp only [MemoryStorage.handle,MemoryStorage.getPreviousHash_ledger,Ledger.head,hview]

end memory

/-! ### The query by time and row number -/

section postgres
variable (P : Postgres) (format : InvoiceNumberFormatter) (scope : TenantScope)

namespace PostgresTables

def ofScope (st : PostgresTables) : List InvoiceRow := st.invoices.filter (fun r => r.scope = scope)

def view (st : PostgresTables) : List (InvoiceRecord × Date) :=
  (st.ofScope scope).map (fun row => (stripped row.record,row.createdAt))

theorem find_eq_none_of_view {st : PostgresTables} {id : String}
    (h : id ∉ (st.view scope).map (fun d => d.1.invoiceId)) : st.find scope id = none := by
  rw [find_eq_none]
  intro hmem
  obtain ⟨row,hrow,he⟩ := List.mem_map.1 hmem
  simp only [Prod.mk.injEq] at he
  refine h (List.mem_map.2 ⟨(stripped row.record,row.createdAt),List.mem_map.2 ⟨row,?_,rfl⟩,he.2⟩)
  simpa [ofScope] using ⟨hrow,he.1⟩

end PostgresTables

theorem postgres_appends : Appends (PostgresAdapter.handle P format) scope
    (fun r => P.refuses r = none) (PostgresTables.view scope) (fun r now => (stripped r,now))
    (fun d => d.1.invoiceId) := by
  intro r now st hfresh
  have hnone := PostgresTables.find_eq_none_of_view scope hfresh
  rw [PostgresAdapter.handle_recordInvoice_of_none _ _ _ _ _ hnone]
  cases hr : P.refuses r with
  | some err => exact .inr ⟨by simp [hr],⟨err,rfl⟩,rfl⟩
  | none =>
    refine .inl ⟨by simp [hr],rfl,?_⟩
    simp [PostgresTables.view,PostgresTables.ofScope,PostgresTables.insert,stripped]

/-- Where the clock never went back, the query's order is the order of the rows. -/
theorem PostgresTables.head_of_rising {st : PostgresTables}
    (h : (st.view scope).Pairwise (fun a b => a.2.getTime ≤ b.2.getTime))
    (kind : Option InvoiceKind) :
    st.head scope kind = lastHash (.ofOption kind) ((st.view scope).map Prod.fst) := by
  have hchain : st.invoices.filter (ofChain scope kind) =
      (st.ofScope scope).filter (fun r => (ChainKey.ofOption kind).covers r.record) := by
    rw [ofScope,List.filter_filter]
    refine List.filter_congr fun r _ => ?_
    simp [ofChain,Bool.and_comm]
  have htime : (st.ofScope scope).Pairwise
      (fun a b => a.createdAt.getTime ≤ b.createdAt.getTime) := by
    simpa [view,List.pairwise_map] using h
  have hid : (st.ofScope scope).Pairwise (fun a b => a.id < b.id) :=
    st.serial.1.sublist List.filter_sublist
  have hnewer : (st.ofScope scope).Pairwise (fun a b => newer b a) := by
    refine (htime.and hid).imp fun {a b} hab => ?_
    have hab₁ := hab.1
    have hab₂ := hab.2
    by_cases hlt : a.createdAt.getTime < b.createdAt.getTime
    · simp [newer,hlt]
    · have he : b.createdAt.getTime = a.createdAt.getTime := by omega
      simp [newer,he,hab₂]
  have hrows : ((st.view scope).map Prod.fst) = ((st.ofScope scope).map InvoiceRow.record).map
      stripped := by
    simp [view,Function.comp_def]
  rw [head,hchain,OrderBy.first_of_rising (hnewer.sublist List.filter_sublist),
    lastHash_eq (.ofOption kind) InvoiceRow.record,hrows,lastHash_map_stripped]

theorem postgres_headIsLast {docs : List (InvoiceRecord × Date)} {st : PostgresTables}
    (hnew : (docs.map (fun d => d.1.invoiceId)).Nodup) (hclock : ClockRises id docs)
    (hst : st.ofScope scope = []) : HeadIsLast (PostgresAdapter.handle P format) scope docs st := by
  intro kind x
  have hempty : st.view scope = [] := by simp [PostgresTables.view,hst]
  have hsteps := (postgres_appends P format scope).steps (fun _ _ => rfl) hnew
    (show ∀ d ∈ docs,d.1.invoiceId ∉ (st.view scope).map _ by simp [hempty])
  have hview := hsteps.2
  rw [hempty,List.nil_append,← hsteps.1] at hview
  have hrising : ((PostgresAdapter.handle P format).steps (recordCalls scope docs) st |>.view
      scope).Pairwise (fun a b => a.2.getTime ≤ b.2.getTime) := by
    rw [hview,List.pairwise_map]
    exact hclock.sublist (hsteps.1 ▸ List.filter_sublist)
  have hrecords : ((recorded (PostgresAdapter.handle P format) scope docs st).map
      (fun d => (stripped d.1,d.2))).map Prod.fst =
        ((recorded (PostgresAdapter.handle P format) scope docs st).map Prod.fst).map stripped := by
    simp [Function.comp_def]
  rw [PostgresAdapter.handle_getPreviousHash,PostgresTables.head_of_rising scope hrising,hview,
    hrecords,lastHash_map_stripped]

end postgres

/-! ### The query by time alone -/

/-- The documents of a chain, oldest first. -/
def chainDocs (kind : Option InvoiceKind) (docs : List (InvoiceRecord × χ)) :
    List (InvoiceRecord × χ) :=
  docs.filter (fun d => (ChainKey.ofOption kind).covers d.1)

/-- On every chain, the documents of the last one's millisecond have the last one's digest. -/
def TiesAgree (clock : χ → Date) (docs : List (InvoiceRecord × χ)) : Prop :=
  ∀ kind, ∀ z ∈ (chainDocs kind docs).getLast?, ∀ d ∈ chainDocs kind docs,
    (clock d.2).getTime = (clock z.2).getTime → d.1.invoiceHash = z.1.invoiceHash

/-- No two documents of one millisecond, no tie. -/
theorem tiesAgree_of_nodup {clock : χ → Date} {docs : List (InvoiceRecord × χ)}
    (h : (docs.map (fun d => (clock d.2).getTime)).Nodup) : TiesAgree clock docs := by
  intro kind z hz d hd htime
  have hz' := (List.mem_filter.1 (List.mem_of_getLast? hz)).1
  have hd' := (List.mem_filter.1 hd).1
  rw [List.inj_on_of_nodup_map h hd' hz' htime]

section mongo
variable (M : Mongoose) (format : InvoiceNumberFormatter) (scope : TenantScope)

namespace MongoCollections

def ofScope (st : MongoCollections) : List InvoiceDoc :=
  st.invoices.filter (fun d => d.scope = scope)

def view (st : MongoCollections) : List (InvoiceRecord × Date) :=
  (st.ofScope scope).map (fun d => (stripped d.record,d.createdAt))

theorem find_eq_none_of_view {st : MongoCollections} {id : String}
    (h : id ∉ (st.view scope).map (fun d => d.1.invoiceId)) : st.find scope id = none := by
  rw [find_eq_none]
  intro hmem
  obtain ⟨doc,hdoc,he⟩ := List.mem_map.1 hmem
  simp only [Prod.mk.injEq] at he
  refine h (List.mem_map.2 ⟨(stripped doc.record,doc.createdAt),List.mem_map.2 ⟨doc,?_,rfl⟩,he.2⟩)
  simpa [ofScope] using ⟨hdoc,he.1⟩

end MongoCollections

theorem mongo_appends : Appends (MongoAdapter.handle M format) scope
    (fun r => M.refuses r = none) (MongoCollections.view scope) (fun r x => (stripped r,x.1))
    (fun d => d.1.invoiceId) := by
  intro r x st hfresh
  have hnone := MongoCollections.find_eq_none_of_view scope hfresh
  rw [MongoAdapter.handle_recordInvoice_of_none _ _ _ _ _ hnone]
  cases hr : M.refuses r with
  | some err => exact .inr ⟨by simp [hr],⟨err,rfl⟩,rfl⟩
  | none =>
    refine .inl ⟨by simp [hr],rfl,?_⟩
    simp [MongoCollections.view,MongoCollections.ofScope,MongoCollections.insert,stripped]

/-- The server may settle a tie for any of the tied documents. -/
theorem MongoCollections.head_all_iff {st : MongoCollections} {kind : Option InvoiceKind}
    {hash : String} : (∀ pick, (st.head scope kind pick).getD ZATCA_BASE_INVOICE_HASH = hash) ↔
      (st.heads scope kind = [] → ZATCA_BASE_INVOICE_HASH = hash) ∧
        ∀ d ∈ st.heads scope kind, d.record.invoiceHash = hash := by
  unfold head
  cases ht : st.heads scope kind with
  | nil => simp
  | cons d tied =>
    have hpos : 0 < (d :: tied).length := Nat.succ_pos _
    constructor
    · intro h
      refine ⟨nofun,fun e he => ?_⟩
      obtain ⟨i,hi,rfl⟩ := List.mem_iff_getElem.1 he
      have hpick := h i
      dsimp only at hpick
      rw [Nat.mod_eq_of_lt hi,List.getElem?_eq_getElem hi] at hpick
      exact hpick
    · rintro ⟨-,h⟩ pick
      dsimp only
      have hlt : pick % (d :: tied).length < (d :: tied).length := Nat.mod_lt _ hpos
      rw [List.getElem?_eq_getElem hlt]
      exact h _ (List.getElem_mem hlt)

theorem MongoCollections.heads_eq {st : MongoCollections} {kind : Option InvoiceKind} :
    (st.heads scope kind).map (fun d => (stripped d.record,d.createdAt)) =
      OrderBy.tops (fun d => d.2.getTime) (chainDocs kind (st.view scope)) := by
  have hchain : st.invoices.filter (ofChain scope kind) =
      (st.ofScope scope).filter (fun d => (ChainKey.ofOption kind).covers d.record) := by
    rw [ofScope,List.filter_filter]
    refine List.filter_congr fun d _ => ?_
    simp [ofChain,Bool.and_comm]
  have hcovers (d : InvoiceDoc) : (ChainKey.ofOption kind).covers (stripped d.record) =
      (ChainKey.ofOption kind).covers d.record := by
    cases kind <;> rfl
  rw [heads,hchain,chainDocs,view,List.filter_map,OrderBy.tops,OrderBy.tops,List.filter_map]
  simp [Function.comp_def,hcovers]

/-- One chain of the collection: every answer is the last document's if and only if the ties of the
last millisecond agree. -/
theorem MongoCollections.head_iff {st : MongoCollections} {kind : Option InvoiceKind}
    (h : (st.view scope).Pairwise (fun a b => a.2.getTime ≤ b.2.getTime)) :
    (∀ pick, (st.head scope kind pick).getD ZATCA_BASE_INVOICE_HASH =
        (lastHash (.ofOption kind) ((st.view scope).map Prod.fst)).getD ZATCA_BASE_INVOICE_HASH) ↔
      ∀ z ∈ (chainDocs kind (st.view scope)).getLast?, ∀ d ∈ chainDocs kind (st.view scope),
        d.2.getTime = z.2.getTime → d.1.invoiceHash = z.1.invoiceHash := by
  rw [head_all_iff,← lastHash_eq (.ofOption kind) Prod.fst]
  have hheads := @heads_eq scope st kind
  have hsorted : (chainDocs kind (st.view scope)).Pairwise (fun a b => a.2.getTime ≤ b.2.getTime) :=
    h.sublist List.filter_sublist
  have hmap (hash : String) : (∀ d ∈ st.heads scope kind, d.record.invoiceHash = hash) ↔
      ∀ d ∈ OrderBy.tops (fun d => d.2.getTime) (chainDocs kind (st.view scope)),
        d.1.invoiceHash = hash := by
    rw [← hheads,List.forall_mem_map]
    rfl
  have hnil : st.heads scope kind = [] ↔
      OrderBy.tops (fun d => d.2.getTime) (chainDocs kind (st.view scope)) = [] := by
    rw [← hheads,List.map_eq_nil_iff]
  rw [hmap,hnil]
  show (_ → ZATCA_BASE_INVOICE_HASH =
    (((chainDocs kind (st.view scope)).getLast?).map _).getD _) ∧ _ ↔ _
  cases hz : (chainDocs kind (st.view scope)).getLast? with
  | none =>
    rw [List.getLast?_eq_none_iff.1 hz]
    simp [OrderBy.tops]
  | some z =>
    have htop : z ∈ OrderBy.tops (fun d => d.2.getTime) (chainDocs kind (st.view scope)) :=
      (OrderBy.mem_tops_of_rising hsorted hz).2 ⟨List.mem_of_getLast? hz,rfl⟩
    have hne : OrderBy.tops (fun d => d.2.getTime) (chainDocs kind (st.view scope)) ≠ [] :=
      List.ne_nil_of_mem htop
    have hz' : ((view scope st).filter (fun a => (ChainKey.ofOption kind).covers a.1)).getLast? =
        some z := hz
    simp only [hne,false_implies,true_and,OrderBy.mem_tops_of_rising hsorted hz,Option.mem_def,
      Option.some.injEq,forall_eq',and_imp,hz',Option.map_some,Option.getD_some]

theorem tiesAgree_map {χ' : Type} {clock : χ → Date} {clock' : χ' → Date}
    {f : InvoiceRecord × χ → InvoiceRecord × χ'} (hf : ∀ d, (f d).1 = stripped d.1)
    (hclock : ∀ d, clock' (f d).2 = clock d.2) (docs : List (InvoiceRecord × χ)) :
    TiesAgree clock' (docs.map f) ↔ TiesAgree clock docs := by
  have hchain (kind : Option InvoiceKind) :
      chainDocs kind (docs.map f) = (chainDocs kind docs).map f := by
    unfold chainDocs
    rw [List.filter_map]
    refine congrArg (List.map f) (List.filter_congr fun d _ => ?_)
    simp only [Function.comp_apply,hf]
    cases kind <;> rfl
  have hhash (d : InvoiceRecord × χ) : (f d).1.invoiceHash = d.1.invoiceHash := by
    rw [hf]
    rfl
  refine forall_congr' fun kind => ?_
  rw [hchain,List.getLast?_map]
  cases (chainDocs kind docs).getLast? with
  | none => simp
  | some z =>
    simp only [Option.map_some,Option.mem_def,Option.some.injEq,forall_eq',List.forall_mem_map,
      hhash,hclock]

theorem mongo_headIsLast_iff {docs : List (InvoiceRecord × (Date × Nat))} {st : MongoCollections}
    (hnew : (docs.map (fun d => d.1.invoiceId)).Nodup) (hclock : ClockRises Prod.fst docs)
    (hst : st.ofScope scope = []) :
    HeadIsLast (MongoAdapter.handle M format) scope docs st ↔
      TiesAgree Prod.fst (docs.filter (fun d => M.refuses d.1 = none)) := by
  have hempty : st.view scope = [] := by simp [MongoCollections.view,hst]
  have hsteps := (mongo_appends M format scope).steps (fun _ _ => rfl) hnew
    (show ∀ d ∈ docs,d.1.invoiceId ∉ (st.view scope).map _ by simp [hempty])
  have hview := hsteps.2
  rw [hempty,List.nil_append,← hsteps.1] at hview
  have hrising : (MongoCollections.view scope ((MongoAdapter.handle M format).steps
      (recordCalls scope docs) st)).Pairwise (fun a b => a.2.getTime ≤ b.2.getTime) := by
    rw [hview,List.pairwise_map]
    exact hclock.sublist (hsteps.1 ▸ List.filter_sublist)
  have hrecords : ((recorded (MongoAdapter.handle M format) scope docs st).map
      (fun d => (stripped d.1,d.2.1))).map Prod.fst =
        ((recorded (MongoAdapter.handle M format) scope docs st).map Prod.fst).map stripped := by
    simp [Function.comp_def]
  let shed (d : InvoiceRecord × (Date × Nat)) : InvoiceRecord × Date := (stripped d.1,d.2.1)
  have hties : TiesAgree id ((recorded (MongoAdapter.handle M format) scope docs st).map shed) ↔
      TiesAgree Prod.fst (recorded (MongoAdapter.handle M format) scope docs st) :=
    @tiesAgree_map _ _ Prod.fst id shed (fun _ => rfl) (fun _ => rfl) _
  rw [← hsteps.1,← hties]
  unfold HeadIsLast TiesAgree
  refine forall_congr' fun kind => ?_
  have hk := @MongoCollections.head_iff scope _ kind hrising
  rw [hview] at hk
  rw [hrecords,lastHash_map_stripped] at hk
  refine Iff.trans ?_ hk
  have hpick (P : Nat → Prop) : (∀ x : Date × Nat, P x.2) ↔ ∀ pick, P pick :=
    ⟨fun h pick => h (⟨0⟩,pick),fun h x => h x.2⟩
  rw [← hpick]
  simp only [MongoAdapter.handle_getPreviousHash,Except.ok.injEq]

end mongo

/-! ### The three of them -/

section three
variable (P : Postgres) (M : Mongoose) (format : InvoiceNumberFormatter) (scope : TenantScope)

/-- What the adapter contract asks of the head, in each of the adapters; the choice beside the
clock is the server's pick among tied documents. -/
def SameHeads (docs : List (InvoiceRecord × (Date × Nat))) (memory : MemoryStorage)
    (tables : PostgresTables) (collections : MongoCollections) : Prop :=
  HeadIsLast (MemoryStorage.handle format) scope (docs.map (fun d => (d.1,d.2.1))) memory ∧
    HeadIsLast (PostgresAdapter.handle P format) scope (docs.map (fun d => (d.1,d.2.1))) tables ∧
      HeadIsLast (MongoAdapter.handle M format) scope docs collections

/-- The heads are the last documents if and only if on every chain the document database has no tie
that could be settled for an earlier digest. -/
theorem sameHeads_iff {docs : List (InvoiceRecord × (Date × Nat))} {memory : MemoryStorage}
    {tables : PostgresTables} {collections : MongoCollections}
    (hnew : (docs.map (fun d => d.1.invoiceId)).Nodup) (hclock : ClockRises Prod.fst docs)
    (hmemory : (memory.ledger (scopeKey scope)).records = []) (htables : tables.ofScope scope = [])
    (hcollections : collections.ofScope scope = []) :
    SameHeads P M format scope docs memory tables collections ↔
      TiesAgree Prod.fst (docs.filter (fun d => M.refuses d.1 = none)) := by
  have hids : ((docs.map (fun d => (d.1,d.2.1))).map (fun d => d.1.invoiceId)).Nodup := by
    rw [List.map_map]
    exact hnew
  have hrises : ClockRises id (docs.map (fun d => (d.1,d.2.1))) := by
    rw [ClockRises,List.pairwise_map]
    exact hclock
  have hm := memory_headIsLast format scope hids hmemory
  have hp := postgres_headIsLast P format scope hids hrises htables
  have hg := mongo_headIsLast_iff M format scope hnew hclock hcollections
  constructor
  · rintro ⟨-,-,h⟩
    exact hg.1 h
  · intro h
    exact ⟨hm,hp,hg.2 h⟩

end three

/-- Two documents of one chain, recorded at these times. -/
def Sample.twoDocuments (first second : Date) : List (InvoiceRecord × (Date × Nat)) :=
  [({ Sample.document with invoiceId := "order-1", invoiceHash := "first" },(first,0)),
    ({ Sample.document with invoiceId := "order-2", invoiceHash := "second" },(second,0))]

theorem sameHeads_a_millisecond_apart :
    SameHeads Sample.postgres Sample.mongoose defaultFormatter Sample.scope
      (Sample.twoDocuments ⟨0⟩ ⟨1⟩) .empty .empty .empty :=
  (sameHeads_iff _ _ _ _ (by simp [Sample.twoDocuments]) (by simp [ClockRises,Sample.twoDocuments])
    rfl rfl rfl).2 (tiesAgree_of_nodup (by simp [Sample.twoDocuments,Sample.mongoose]))

theorem sameHeads_fails_on_a_tie :
    ¬ SameHeads Sample.postgres Sample.mongoose defaultFormatter Sample.scope
      (Sample.twoDocuments ⟨0⟩ ⟨0⟩) .empty .empty .empty := by
  rintro ⟨-,-,h⟩
  have hhead := h none (⟨0⟩,0)
  simp only [Sample.twoDocuments] at hhead
  revert hhead
  decide

end Zatca
