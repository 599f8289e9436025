import Zatca.Storage.Archive
set_option autoImplicit false

/-! The adapters on databases, used by any number of programs at once. A method is several
statements, and those of other methods come between them. What the methods come to is nevertheless
what calls on one archive come to. -/

namespace Zatca
open Interaction

/-! ### The tables -/

def Postgres.keeping (P : Postgres) : Keeping where
  overflows n := if PostgresTables.fitsInteger n then none else some (.driver "22003")
  refuses := P.refuses
  keep v := if P.jsonb v = .null then none else some (P.jsonb v)

namespace PostgresTables

/-- A document as it is read. -/
def document (row : InvoiceRow) : InvoiceRecord × Date :=
  (PostgresAdapter.rowToRecord row,row.createdAt)

def archive (st : PostgresTables) : Archive where
  sequence := st.sequence
  documents := GroupBy.group InvoiceRow.scope document st.invoices
  nodup := GroupBy.nodup_group InvoiceRow.scope document st.unique

variable (P : Postgres) (format : InvoiceNumberFormatter) (st : PostgresTables) (scope : TenantScope)

theorem find_archive (invoiceId : String) : st.archive.find scope invoiceId =
    (st.find scope invoiceId).map PostgresAdapter.rowToRecord := by
  rw [Archive.find_of_group rfl,find]
  simp only [Bool.decide_and]
  rfl

theorem archive_count (m : YearMonth) (n : Nat) :
    archive { st with counters := st.counters.set (scope,m) n } = st.archive.count scope m n :=
  Archive.ext' (Archive.count_counters st.counters scope m n) rfl

theorem archive_insert {record : InvoiceRecord} {now : Date}
    (h : st.find scope record.invoiceId = none)
    (h' : st.archive.find scope record.invoiceId = none) :
    (st.insert P scope record now h).archive =
      st.archive.append scope (P.keeping.kept record) now h' := by
  have hread : PostgresAdapter.rowToRecord ⟨st.nextId,scope,
      { record with validationResults := record.validationResults.map P.jsonb },now⟩ =
        P.keeping.kept record := by
    unfold PostgresAdapter.rowToRecord Keeping.kept
    cases record.validationResults with
    | none => rfl
    | some v =>
      by_cases hv : P.jsonb v = .null
      · simp [Postgres.keeping,hv]
      · simp [Postgres.keeping,hv]
  refine Archive.ext' rfl ((GroupBy.group_concat InvoiceRow.scope document _ _).trans ?_)
  rw [document,hread]
  rfl

theorem archive_setStatus (invoiceId : String) (status : InvoiceStatus) :
    (st.setStatus scope invoiceId status).archive = st.archive.setStatus scope invoiceId status := by
  refine Archive.ext' rfl (GroupBy.group_map InvoiceRow.scope document
    (withStatus_scope scope invoiceId status) (fun row hrow => ?_) (fun row hrow => ?_))
  · by_cases hid : row.record.invoiceId = invoiceId
    · rw [withStatus,if_pos ⟨hrow,hid⟩]
      exact (if_pos hid).symm
    · rw [withStatus,if_neg fun h => hid h.2]
      exact (if_neg hid).symm
  · rw [withStatus,if_neg fun h => hrow h.1]

/-- The query's first row is one of the newest. -/
theorem head_archive (kind : Option InvoiceKind) : ∃ pick : Nat,
    st.head scope kind = (st.archive.newest scope kind)[pick % (st.archive.newest scope kind).length]?.map
      fun d => d.1.invoiceHash := by
  have hnewest : st.archive.newest scope kind =
      (OrderBy.tops (fun r : InvoiceRow => r.createdAt.getTime)
        (st.invoices.filter (ofChain scope kind))).map document := by
    refine (Archive.newest_of_group rfl scope kind).trans ?_
    cases kind <;> rfl
  unfold head
  cases hfirst : OrderBy.first newer (st.invoices.filter (ofChain scope kind)) with
  | none =>
    rw [hnewest,OrderBy.first_eq_none.1 hfirst]
    exact ⟨0,rfl⟩
  | some row =>
    have hnewer (a b : InvoiceRow) (h : newer b a = true) :
        a.createdAt.getTime ≤ b.createdAt.getTime := by
      simp only [newer,Bool.or_eq_true,decide_eq_true_eq,Bool.and_eq_true] at h
      rcases h with h | h
      · exact h.le
      · exact h.1.ge
    have hnot (a b : InvoiceRow) (h : newer b a = false) :
        b.createdAt.getTime ≤ a.createdAt.getTime := by
      simp only [newer,Bool.or_eq_false_iff,decide_eq_false_iff_not] at h
      exact le_of_not_gt h.1
    obtain ⟨i,hi,hrow⟩ := List.mem_iff_getElem.1 (OrderBy.first_mem_tops hnewer hnot hfirst)
    refine ⟨i,?_⟩
    rw [hnewest,List.length_map,Nat.mod_eq_of_lt hi,List.getElem?_map,List.getElem?_eq_getElem hi,
      hrow]
    rfl

theorem find_ne_none {st : PostgresTables} {scope : TenantScope} {invoiceId : String} :
    st.archive.find scope invoiceId ≠ none ↔
      (scope,invoiceId) ∈ st.invoices.map fun r => (r.scope,r.record.invoiceId) := by
  rw [find_archive,ne_eq,Option.map_eq_none_iff,find_eq_none,not_not]

/-- A row that is there stays there. -/
theorem keeps_find (invoiceId : String) :
    (handle P).Keeps fun st => st.archive.find scope invoiceId ≠ none := by
  intro o x st h
  rw [find_ne_none] at h ⊢
  cases o with
  | upsertCounter scope' m =>
    simp only [handle]
    split
    · exact h
    · exact h
  | selectHead scope' kind => exact h
  | selectInvoice scope' id => exact h
  | insertInvoice scope' record createdAt =>
    simp only [handle]
    split
    · exact h
    · split
      · exact h
      · rw [insert,List.map_append,List.mem_append]
        exact .inl h
  | updateStatus scope' id status =>
    simpa [handle,setStatus,List.map_map,Function.comp_def] using h

end PostgresTables

namespace PostgresAdapter

variable (P : Postgres) (format : InvoiceNumberFormatter) (now : Date) (scope : TenantScope)

theorem sameOr_eq (row : InvoiceRow) (record : InvoiceRecord) (raced : Bool) :
    sameOr (if raced then lostRace record.invoiceId else calledTwice record.invoiceId) row record =
      .ofExcept (Archive.recordAgain (rowToRecord row) record raced) := by
  unfold sameOr Archive.recordAgain
  by_cases h : rowToRecord row = record
  · simp [recordsEqual_iff,h,Program.ofExcept]
  · simp [recordsEqual_iff,h,Program.ofExcept]

/-- The statements of `recordInvoice`. -/
def rows (record : InvoiceRecord) : Signature.Hom (Rows InvoiceRow) Sql where
  op
    | .lookup => .selectInvoice scope record.invoiceId
    | .insert => .insertInvoice scope record now
  ret
    | .lookup => id
    | .insert => id

theorem recordInvoice_eq (record : InvoiceRecord) : recordInvoice scope now record =
    (recordOnce rowToRecord isUniqueViolation record).embed (rows now scope record) := by
  have hsame (raced : Bool) (row : InvoiceRow) := sameOr_eq row record raced
  refine congrArg (Program.call (S := Sql) _) (funext fun r => ?_)
  cases r with
  | error e => rfl
  | ok row =>
    cases row with
    | some row => exact (hsame false row).trans (Program.embed_ofExcept _ _).symm
    | none =>
      refine congrArg (Program.call (S := Sql) _) (funext fun r => ?_)
      cases r with
      | ok u => rfl
      | error err =>
        simp only [Except.map,Program.ofExcept,Program.tryCatch]
        cases isUniqueViolation err with
        | false => rfl
        | true =>
          refine congrArg (Program.call (S := Sql) _) (funext fun r => ?_)
          cases r with
          | error e => rfl
          | ok row =>
            cases row with
            | none => rfl
            | some row => exact (hsame true row).trans (Program.embed_ofExcept _ _).symm

theorem rows_answers (record : InvoiceRecord) : AnswersRows (PostgresTables.handle P)
    PostgresTables.archive (rows now scope record) P.keeping scope record now rowToRecord
      isUniqueViolation where
  lookup x st := ⟨st.find scope record.invoiceId,rfl,
    (PostgresTables.find_archive st scope record.invoiceId).symm⟩
  refused x st err herr := by
    have hr : P.refuses record = some err := herr
    simp only [rows,PostgresTables.handle,hr]
  duplicate x st hr hfound := by
    have hr' : P.refuses record = none := hr
    refine ⟨.driver "23505",rfl,?_⟩
    simp only [rows,PostgresTables.handle,hr']
    split
    · rfl
    · rename_i hnone
      rw [PostgresTables.find_archive,hnone] at hfound
      exact absurd rfl hfound
  inserted x st hnone hr := by
    have hr' : P.refuses record = none := hr
    rw [PostgresTables.find_archive,Option.map_eq_none_iff] at hnone
    refine ⟨(),st.insert P scope record now hnone,?_,PostgresTables.archive_insert P st scope hnone _⟩
    simp only [rows,PostgresTables.handle,hr']
    split
    · rename_i hsome
      cases hnone.symm.trans hsome
    · rfl
  stays := PostgresTables.keeps_find P scope record.invoiceId

/-- Each method does at one of its statements what the archive does at once. -/
theorem method_pending (o : StorageOp) : (method format now o).Pending (PostgresTables.handle P)
    (Archive.handle P.keeping format) PostgresTables.archive o fun _ => True := by
  cases o with
  | incrementCounter scope =>
    refine Program.pending_last fun x st _ => ⟨⟨now,0,false⟩,?_⟩
    by_cases hfits : PostgresTables.fitsInteger (st.sequence scope (yearMonthFor now).yearMonth + 1)
    · simp only [PostgresTables.handle,Archive.handle,Postgres.keeping,PostgresTables.archive,hfits,
        if_true]
      exact ⟨rfl,(PostgresTables.archive_count st scope _ _).symm⟩
    · simp only [PostgresTables.handle,Archive.handle,Postgres.keeping,PostgresTables.archive,hfits,
        Bool.false_eq_true,if_false]
      exact ⟨rfl,trivial⟩
  | getPreviousHash scope kind =>
    refine Program.pending_last fun x st _ => ?_
    obtain ⟨pick,hpick⟩ := PostgresTables.head_archive st scope kind
    refine ⟨⟨now,pick,false⟩,?_⟩
    simp only [Archive.handle,← hpick]
    exact ⟨rfl,rfl⟩
  | recordInvoice scope record =>
    rw [method,recordInvoice_eq]
    exact recordOnce_pending (rows_answers P now scope record)
  | loadInvoice scope invoiceId =>
    refine Program.pending_last fun x st _ => ⟨⟨now,0,false⟩,?_⟩
    simp only [Archive.handle,PostgresTables.find_archive]
    exact ⟨rfl,rfl⟩
  | updateInvoiceStatus scope invoiceId status =>
    refine Program.pending_last fun x st _ => ⟨⟨now,0,false⟩,?_⟩
    simp only [Archive.handle,PostgresTables.find_archive,PostgresTables.handle,
      PostgresTables.archive_setStatus,Option.isSome_map]
    cases (st.find scope invoiceId).isSome with
    | false => exact ⟨rfl,trivial⟩
    | true => exact ⟨rfl,trivial⟩

/-- A method as a program calls it, which takes its time first. -/
def call (o : StorageOp) : Program (Sql.sum (.reading Date)) BackendError o.Ret :=
  .readFirst fun now => method format now o

theorem call_pending (o : StorageOp) : (call format o).Pending (PostgresTables.handle P).withReading
    (Archive.handle P.keeping format) PostgresTables.archive o fun _ => True :=
  Program.pending_readFirst fun now => method_pending P format now o

end PostgresAdapter

/-! ### The collections -/

def Mongoose.keeping (M : Mongoose) : Keeping where
  overflows _ := none
  refuses := M.refuses
  keep := M.mixed

namespace MongoCollections

def document (doc : InvoiceDoc) : InvoiceRecord × Date := (doc.record,doc.createdAt)

def archive (st : MongoCollections) : Archive where
  sequence := st.sequence
  documents := GroupBy.group InvoiceDoc.scope document st.invoices
  nodup := GroupBy.nodup_group InvoiceDoc.scope document st.unique

variable (M : Mongoose) (format : InvoiceNumberFormatter) (st : MongoCollections)
  (scope : TenantScope)

theorem find_archive (invoiceId : String) :
    st.archive.find scope invoiceId = (st.find scope invoiceId).map InvoiceDoc.record := by
  rw [Archive.find_of_group rfl,find]
  simp only [Bool.decide_and]
  rfl

theorem archive_count (m : YearMonth) (n : Nat) :
    archive { st with counters := st.counters.set (scope,m) n } = st.archive.count scope m n :=
  Archive.ext' (Archive.count_counters st.counters scope m n) rfl

theorem archive_insert {record : InvoiceRecord} {now : Date}
    (h : st.find scope record.invoiceId = none)
    (h' : st.archive.find scope record.invoiceId = none) :
    (st.insert M ⟨scope,record,now⟩ h).archive =
      st.archive.append scope (M.keeping.kept record) now h' :=
  Archive.ext' rfl (GroupBy.group_concat InvoiceDoc.scope document _ _)

theorem archive_setStatus (invoiceId : String) (status : InvoiceStatus) :
    (st.setStatus scope invoiceId status).archive = st.archive.setStatus scope invoiceId status := by
  have hscope (doc : InvoiceDoc) : (withStatus scope invoiceId status doc).scope = doc.scope := by
    unfold withStatus
    split
    · rfl
    · rfl
  refine Archive.ext' rfl (GroupBy.group_map InvoiceDoc.scope document hscope
    (fun doc hdoc => ?_) (fun doc hdoc => ?_))
  · by_cases hid : doc.record.invoiceId = invoiceId
    · rw [withStatus,if_pos ⟨hdoc,hid⟩]
      exact (if_pos hid).symm
    · rw [withStatus,if_neg fun h => hid h.2]
      exact (if_neg hid).symm
  · rw [withStatus,if_neg fun h => hdoc h.1]

theorem head_archive (kind : Option InvoiceKind) (pick : Nat) :
    st.head scope kind pick =
      (st.archive.newest scope kind)[pick % (st.archive.newest scope kind).length]?.map
        fun d => d.1.invoiceHash := by
  have hnewest : st.archive.newest scope kind = (st.heads scope kind).map document :=
    Archive.newest_of_group rfl scope kind
  rw [hnewest,List.length_map,List.getElem?_map,Option.map_map]
  rfl

theorem find_ne_none {st : MongoCollections} {scope : TenantScope} {invoiceId : String} :
    st.archive.find scope invoiceId ≠ none ↔
      (scope,invoiceId) ∈ st.invoices.map fun d => (d.scope,d.record.invoiceId) := by
  rw [find_archive,ne_eq,Option.map_eq_none_iff,find_eq_none,not_not]

/-- A document that is there stays there. -/
theorem keeps_find (invoiceId : String) :
    (handle M).Keeps fun st => st.archive.find scope invoiceId ≠ none := by
  intro o x st h
  cases o with
  | incrementSequence scope' m => exact h
  | findHead scope' kind => exact h
  | findInvoice scope' id => exact h
  | create doc =>
    rw [find_ne_none] at h ⊢
    simp only [handle]
    split
    · exact h
    · split
      · exact h
      · rw [insert,List.map_append,List.mem_append]
        exact .inl h
  | updateOne scope' id status =>
    rw [show (handle M (.updateOne scope' id status) x st).2 = st.setStatus scope' id status from rfl,
      archive_setStatus,ne_eq,Archive.find_eq_none,not_not]
    rw [ne_eq,Archive.find_eq_none,not_not] at h
    by_cases hs : scope = scope'
    · subst hs
      simpa [Archive.setStatus,List.map_map,Function.comp_def,Archive.marked_invoiceId] using h
    · simpa [Archive.setStatus,hs] using h

end MongoCollections

namespace MongoAdapter

variable (M : Mongoose) (format : InvoiceNumberFormatter) (now : Date) (scope : TenantScope)

theorem sameOr_eq (doc : InvoiceDoc) (record : InvoiceRecord) (raced : Bool) :
    sameOr (if raced then PostgresAdapter.lostRace record.invoiceId
        else PostgresAdapter.calledTwice record.invoiceId) doc record =
      .ofExcept (Archive.recordAgain doc.record record raced) := by
  unfold sameOr Archive.recordAgain docToRecord
  by_cases h : doc.record = record
  · simp [recordsEqual_iff,h,Program.ofExcept]
  · simp [recordsEqual_iff,h,Program.ofExcept]

/-- The commands of `recordInvoice`. -/
def rows (record : InvoiceRecord) : Signature.Hom (Rows InvoiceDoc) Mongo where
  op
    | .lookup => .findInvoice scope record.invoiceId
    | .insert => .create ⟨scope,record,now⟩
  ret
    | .lookup => id
    | .insert => id

theorem recordInvoice_eq (record : InvoiceRecord) : recordInvoice scope now record =
    (recordOnce InvoiceDoc.record isDuplicateKeyError record).embed (rows now scope record) := by
  have hsame (raced : Bool) (doc : InvoiceDoc) := sameOr_eq doc record raced
  refine congrArg (Program.call (S := Mongo) _) (funext fun r => ?_)
  cases r with
  | error e => rfl
  | ok doc =>
    cases doc with
    | some doc => exact (hsame false doc).trans (Program.embed_ofExcept _ _).symm
    | none =>
      refine congrArg (Program.call (S := Mongo) _) (funext fun r => ?_)
      cases r with
      | ok u => rfl
      | error err =>
        simp only [Except.map,Program.ofExcept,Program.tryCatch]
        cases isDuplicateKeyError err with
        | false => rfl
        | true =>
          refine congrArg (Program.call (S := Mongo) _) (funext fun r => ?_)
          cases r with
          | error e => rfl
          | ok doc =>
            cases doc with
            | none => rfl
            | some doc => exact (hsame true doc).trans (Program.embed_ofExcept _ _).symm

theorem rows_answers (record : InvoiceRecord) : AnswersRows (MongoCollections.handle M)
    MongoCollections.archive (rows now scope record) M.keeping scope record now InvoiceDoc.record
      isDuplicateKeyError where
  lookup x st := ⟨st.find scope record.invoiceId,rfl,
    (MongoCollections.find_archive st scope record.invoiceId).symm⟩
  refused x st err herr := by
    have hr : M.refuses record = some err := herr
    simp only [rows,MongoCollections.handle,hr]
  duplicate x st hr hfound := by
    have hr' : M.refuses record = none := hr
    refine ⟨.driver "11000",rfl,?_⟩
    simp only [rows,MongoCollections.handle,hr']
    split
    · rfl
    · rename_i hnone
      rw [MongoCollections.find_archive,hnone] at hfound
      exact absurd rfl hfound
  inserted x st hnone hr := by
    have hr' : M.refuses record = none := hr
    rw [MongoCollections.find_archive,Option.map_eq_none_iff] at hnone
    refine ⟨(),st.insert M ⟨scope,record,now⟩ hnone,?_,
      MongoCollections.archive_insert M st scope hnone _⟩
    simp only [rows,MongoCollections.handle,hr']
    split
    · rename_i hsome
      cases hnone.symm.trans hsome
    · rfl
  stays := MongoCollections.keeps_find M scope record.invoiceId

theorem method_pending (o : StorageOp) : (method format now o).Pending (MongoCollections.handle M)
    (Archive.handle M.keeping format) MongoCollections.archive o fun _ => True := by
  cases o with
  | incrementCounter scope =>
    refine Program.pending_last fun x st _ => ⟨⟨now,0,false⟩,rfl,?_⟩
    exact (MongoCollections.archive_count st scope _ _).symm
  | getPreviousHash scope kind =>
    refine Program.pending_last fun x st _ => ⟨⟨now,x,false⟩,?_⟩
    simp only [Archive.handle,← MongoCollections.head_archive]
    exact ⟨rfl,rfl⟩
  | recordInvoice scope record =>
    rw [method,recordInvoice_eq]
    exact recordOnce_pending (rows_answers M now scope record)
  | loadInvoice scope invoiceId =>
    refine Program.pending_last fun x st _ => ⟨⟨now,0,false⟩,?_⟩
    simp only [Archive.handle,MongoCollections.find_archive]
    exact ⟨rfl,rfl⟩
  | updateInvoiceStatus scope invoiceId status =>
    refine Program.pending_last fun x st _ => ⟨⟨now,0,false⟩,?_⟩
    simp only [Archive.handle,MongoCollections.find_archive,MongoCollections.handle,
      MongoCollections.archive_setStatus,Option.isSome_map]
    cases (st.find scope invoiceId).isSome with
    | false => exact ⟨rfl,trivial⟩
    | true => exact ⟨rfl,trivial⟩

def call (o : StorageOp) : Program (Mongo.sum (.reading Date)) BackendError o.Ret :=
  .readFirst fun now => method format now o

theorem call_pending (o : StorageOp) : (call format o).Pending (MongoCollections.handle M).withReading
    (Archive.handle M.keeping format) MongoCollections.archive o fun _ => True :=
  Program.pending_readFirst fun now => method_pending M format now o

end MongoAdapter

/-! ### Programs on one database -/

section clients
variable {α : Type} (clients : Nat → Program StorageAdapter BackendError α)

/-- Programs that call the adapter on the tables, statement by statement. -/
def startOnTables (format : InvoiceNumberFormatter) (st : PostgresTables) :
    Config (Sql.sum (.reading Date)) BackendError α PostgresTables :=
  ⟨st,fun q => (clients q).interpret (PostgresAdapter.call format),[]⟩

def startOnCollections (format : InvoiceNumberFormatter) (st : MongoCollections) :
    Config (Mongo.sum (.reading Date)) BackendError α MongoCollections :=
  ⟨st,fun q => (clients q).interpret (MongoAdapter.call format),[]⟩

def startOnArchive (a : Archive) : Config StorageAdapter BackendError α Archive := ⟨a,clients,[]⟩

end clients

/-- Whatever the programs are and however the statements of their calls interleave, on the tables as
on the collections: what the database holds and what each program has come to is what they come to
on the archive, which answers one call after the other. -/
theorem sharedDatabases_refine {α : Type} (P : Postgres) (M : Mongoose)
    (format : InvoiceNumberFormatter) (clients : Nat → Program StorageAdapter BackendError α) :
    (∀ st c, Reach (PostgresTables.handle P).withReading (fun _ _ _ => True)
        (startOnTables clients format st) c →
      ∃ a, Reach (Archive.handle P.keeping format) (fun _ _ _ => True)
          (startOnArchive clients st.archive) a ∧ a.shared = c.shared.archive ∧
        ∀ q r, c.procs q = .ofExcept r → a.procs q = .ofExcept r) ∧
    ∀ st c, Reach (MongoCollections.handle M).withReading (fun _ _ _ => True)
        (startOnCollections clients format st) c →
      ∃ a, Reach (Archive.handle M.keeping format) (fun _ _ _ => True)
          (startOnArchive clients st.archive) a ∧ a.shared = c.shared.archive ∧
        ∀ q r, c.procs q = .ofExcept r → a.procs q = .ofExcept r := by
  constructor
  · intro st c hc
    obtain ⟨a,ha,hshared,hprocs⟩ := Reach.carriesOut (PostgresAdapter.call_pending P format) hc
    exact ⟨a,ha,hshared,fun q r hr => (hprocs q).ends hr⟩
  · intro st c hc
    obtain ⟨a,ha,hshared,hprocs⟩ := Reach.carriesOut (MongoAdapter.call_pending M format) hc
    exact ⟨a,ha,hshared,fun q r hr => (hprocs q).ends hr⟩

namespace Sample

/-- Two programs record documents of their own under one id. -/
def twoRecorders (q : Nat) : Program StorageAdapter BackendError Unit :=
  if q = 0 then Program.perform (S := StorageAdapter) (.recordInvoice scope document)
  else if q = 1 then Program.perform (S := StorageAdapter)
    (.recordInvoice scope { document with invoiceHash := "another digest" })
  else .ret ()

/-- Both find no row before either inserts one. -/
def raceForTheRow : List (Nat × (Date × Unit)) := [0,1,0,1,0,1,1].map fun q => (q,(clock,()))

end Sample

/-- The second program is told that it was too late, and so it is on the archive. -/
theorem sharedDatabases_refine_of_a_race : ∃ c a,
    (startOnTables Sample.twoRecorders defaultFormatter .empty).run
      (PostgresTables.handle Sample.postgres).withReading (fun _ _ _ => True) Sample.raceForTheRow =
        some c ∧
    Reach (Archive.handle Sample.postgres.keeping defaultFormatter) (fun _ _ _ => True)
      (startOnArchive Sample.twoRecorders PostgresTables.empty.archive) a ∧
    a.shared = c.shared.archive ∧ a.procs 0 = .ret () ∧
    a.procs 1 = .throw (PostgresAdapter.lostRace Sample.document.invoiceId) := by
  obtain ⟨c,hrun,h₀,h₁⟩ : ∃ c, (startOnTables Sample.twoRecorders defaultFormatter .empty).run
      (PostgresTables.handle Sample.postgres).withReading (fun _ _ _ => True) Sample.raceForTheRow =
        some c ∧ c.procs 0 = .ofExcept (.ok ()) ∧
      c.procs 1 = .ofExcept (.error (PostgresAdapter.lostRace Sample.document.invoiceId)) :=
    ⟨_,rfl,rfl,rfl⟩
  obtain ⟨a,ha,hshared,hprocs⟩ := (sharedDatabases_refine Sample.postgres Sample.mongoose
    defaultFormatter Sample.twoRecorders).1 .empty c (Reach.of_run Sample.raceForTheRow .init hrun)
  exact ⟨c,a,hrun,ha,hshared,hprocs 0 _ h₀,hprocs 1 _ h₁⟩

end Zatca
