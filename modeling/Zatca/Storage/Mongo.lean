import Zatca.Storage.Postgres
set_option autoImplicit false

/-! The document adapter. Its head query sorts by time alone, so the server may answer with any of
the documents of the latest millisecond. -/

namespace Zatca
open Interaction

/-- The ODM and the server: the documents that validation refuses, and what a `Mixed` path gives
back of a value. -/
structure Mongoose where
  refuses : InvoiceRecord → Option BackendError
  mixed : Json → Option Json

/-- A document of `zatca_invoices`; optional paths may be absent. -/
structure InvoiceDoc where
  scope : TenantScope
  record : InvoiceRecord
  createdAt : Date
  deriving DecidableEq

inductive MongoOp where
  | incrementSequence (scope : TenantScope) (yearMonth : YearMonth)
  | findHead (scope : TenantScope) (kind : Option InvoiceKind)
  | findInvoice (scope : TenantScope) (invoiceId : String)
  | create (doc : InvoiceDoc)
  | updateOne (scope : TenantScope) (invoiceId : String) (status : InvoiceStatus)

/-- The document of the answer as far as the adapter reads it, or `matchedCount`. -/
abbrev MongoOp.Ret : MongoOp → Type
  | .incrementSequence _ _ => Option Nat
  | .findHead _ _ => Option String
  | .findInvoice _ _ => Option InvoiceDoc
  | .create _ => Unit
  | .updateOne _ _ _ => Nat

abbrev Mongo : Signature := ⟨MongoOp,MongoOp.Ret⟩

/-! ### The adapter -/

namespace MongoAdapter

def command (o : MongoOp) : Program Mongo BackendError o.Ret := Program.perform (S := Mongo) o

def incrementCounter (format : InvoiceNumberFormatter) (now : Date) (scope : TenantScope) :
    Program Mongo BackendError CounterValue := do
  let m := yearMonthFor now
  match ← command (.incrementSequence scope m.yearMonth) with
  | none => .throw (.zatcaStorageError
      "incrementCounter: findOneAndUpdate returned null despite upsert=true")
  | some sequence =>
      return ⟨sequence,format
        { scope, sequence, yearMonth := m.yearMonth.1, year := m.year, month := m.month }⟩

def getPreviousHash (scope : TenantScope) (invoiceKind : Option InvoiceKind) :
    Program Mongo BackendError String := do
  return (← command (.findHead scope invoiceKind)).getD ZATCA_BASE_INVOICE_HASH

def docToRecord (doc : InvoiceDoc) : InvoiceRecord := doc.record

def isDuplicateKeyError (err : BackendError) : Bool := err = .driver "11000"

def sameOr (conflict : BackendError) (doc : InvoiceDoc) (record : InvoiceRecord) :
    Program Mongo BackendError Unit :=
  if recordsEqual (docToRecord doc) record then .ret () else .throw conflict

/-- The second argument is `new Date()`. -/
def recordInvoice (scope : TenantScope) (newDate : Date) (record : InvoiceRecord) :
    Program Mongo BackendError Unit := do
  match ← command (.findInvoice scope record.invoiceId) with
  | some existing => sameOr (PostgresAdapter.calledTwice record.invoiceId) existing record
  | none =>
      (command (.create ⟨scope,record,newDate⟩)).tryCatch fun err =>
        if isDuplicateKeyError err then do
          match ← command (.findInvoice scope record.invoiceId) with
          | none => .throw err
          | some winner => sameOr (PostgresAdapter.lostRace record.invoiceId) winner record
        else .throw err

def loadInvoice (scope : TenantScope) (invoiceId : String) :
    Program Mongo BackendError (Option InvoiceRecord) := do
  return (← command (.findInvoice scope invoiceId)).map docToRecord

def updateInvoiceStatus (scope : TenantScope) (invoiceId : String) (status : InvoiceStatus) :
    Program Mongo BackendError Unit := do
  let matchedCount ← command (.updateOne scope invoiceId status)
  if matchedCount = 0 then .throw (PostgresAdapter.unknownInvoice invoiceId) else return ()

end MongoAdapter

/-! ### The collections -/

structure MongoCollections where
  counters : JsMap (TenantScope × YearMonth) Nat
  invoices : List InvoiceDoc
  unique : (invoices.map (fun d => (d.scope,d.record.invoiceId))).Nodup

namespace MongoCollections

theorem unique_nil :
    (([] : List InvoiceDoc).map (fun d => (d.scope,d.record.invoiceId))).Nodup := List.nodup_nil

def empty : MongoCollections := ⟨.empty,[],unique_nil⟩

def sequence (st : MongoCollections) (scope : TenantScope) (m : YearMonth) : Nat :=
  (st.counters.get (scope,m)).getD 0

def find (st : MongoCollections) (scope : TenantScope) (invoiceId : String) : Option InvoiceDoc :=
  st.invoices.find? (fun d => d.scope = scope ∧ d.record.invoiceId = invoiceId)

theorem find_eq_none {st : MongoCollections} {scope : TenantScope} {invoiceId : String} :
    st.find scope invoiceId = none ↔
      (scope,invoiceId) ∉ st.invoices.map (fun d => (d.scope,d.record.invoiceId)) := by
  simp [find]

def ofChain (scope : TenantScope) (kind : Option InvoiceKind) (d : InvoiceDoc) : Bool :=
  d.scope = scope && (ChainKey.ofOption kind).covers d.record

/-- The documents that `sort({ createdAt: -1 })` may put first. -/
def heads (st : MongoCollections) (scope : TenantScope) (kind : Option InvoiceKind) :
    List InvoiceDoc :=
  OrderBy.tops (fun d => d.createdAt.getTime) (st.invoices.filter (ofChain scope kind))

/-- What the server answers when it settles a tie by `pick`. -/
def head (st : MongoCollections) (scope : TenantScope) (kind : Option InvoiceKind) (pick : Nat) :
    Option String :=
  let tied := st.heads scope kind
  tied[pick % tied.length]?.map (fun d => d.record.invoiceHash)

def insert (M : Mongoose) (st : MongoCollections) (doc : InvoiceDoc)
    (h : st.find doc.scope doc.record.invoiceId = none) : MongoCollections where
  counters := st.counters
  invoices := st.invoices ++ [
    { doc with record := { doc.record with
        validationResults := doc.record.validationResults.bind M.mixed } }]
  unique := by
    rw [List.map_append,List.nodup_append]
    refine ⟨st.unique,by simp,?_⟩
    rintro key hkey _ hr rfl
    simp only [List.map_cons,List.map_nil,List.mem_singleton] at hr
    exact find_eq_none.1 h (hr ▸ hkey)

def withStatus (scope : TenantScope) (invoiceId : String) (status : InvoiceStatus)
    (d : InvoiceDoc) : InvoiceDoc :=
  if d.scope = scope ∧ d.record.invoiceId = invoiceId then
    { d with record := { d.record with status } }
  else d

def setStatus (st : MongoCollections) (scope : TenantScope) (invoiceId : String)
    (status : InvoiceStatus) : MongoCollections where
  counters := st.counters
  invoices := st.invoices.map (withStatus scope invoiceId status)
  unique := by
    have hkey : (st.invoices.map (withStatus scope invoiceId status)).map
        (fun d => (d.scope,d.record.invoiceId)) =
          st.invoices.map (fun d => (d.scope,d.record.invoiceId)) := by
      rw [List.map_map]
      refine List.map_congr_left fun d _ => ?_
      simp only [Function.comp_apply,withStatus]
      split
      · rfl
      · rfl
    rw [hkey]
    exact st.unique

/-- One command; the choice settles the ties of a sort. -/
def handle (M : Mongoose) : Handler Mongo BackendError MongoCollections Nat
  | .incrementSequence scope yearMonth, _, st =>
      let n := st.sequence scope yearMonth + 1
      (.ok (some n),{ st with counters := st.counters.set (scope,yearMonth) n })
  | .findHead scope kind, pick, st => (.ok (st.head scope kind pick),st)
  | .findInvoice scope invoiceId, _, st => (.ok (st.find scope invoiceId),st)
  | .create doc, _, st =>
      match M.refuses doc.record with
      | some err => (.error err,st)
      | none =>
          match h : st.find doc.scope doc.record.invoiceId with
          | some _ => (.error (.driver "11000"),st)
          | none => (.ok (),st.insert M doc h)
  | .updateOne scope invoiceId status, _, st =>
      (.ok (if (st.find scope invoiceId).isSome then 1 else 0),st.setStatus scope invoiceId status)

end MongoCollections

/-! ### One call after the other -/

namespace MongoAdapter

/-- The program of a method; `now` is read from the adapter's clock or from the host's. -/
def method (format : InvoiceNumberFormatter) (now : Date) :
    (o : StorageOp) → Program Mongo BackendError o.Ret
  | .incrementCounter scope => incrementCounter format now scope
  | .getPreviousHash scope invoiceKind => getPreviousHash scope invoiceKind
  | .recordInvoice scope record => recordInvoice scope now record
  | .loadInvoice scope invoiceId => loadInvoice scope invoiceId
  | .updateInvoiceStatus scope invoiceId status => updateInvoiceStatus scope invoiceId status

/-- A method call that nothing comes between; the choice is the clock and the server's pick. -/
def handle (M : Mongoose) (format : InvoiceNumberFormatter) :
    Handler StorageAdapter BackendError MongoCollections (Date × Nat) := fun o x st =>
  (method format x.1 o).exec (MongoCollections.handle M) (fun _ => x.2) st

section spec
variable (M : Mongoose) (format : InvoiceNumberFormatter) (x : Date × Nat) (st : MongoCollections)
  (scope : TenantScope)

theorem handle_incrementCounter : handle M format (.incrementCounter scope) x st =
    let m := yearMonthFor x.1
    let sequence := st.sequence scope m.yearMonth + 1
    (.ok ⟨sequence,format
        { scope, sequence, yearMonth := m.yearMonth.1, year := m.year, month := m.month }⟩,
      { st with counters := st.counters.set (scope,m.yearMonth) sequence }) := rfl

theorem handle_getPreviousHash (kind : Option InvoiceKind) :
    handle M format (.getPreviousHash scope kind) x st =
      (.ok ((st.head scope kind x.2).getD ZATCA_BASE_INVOICE_HASH),st) := rfl

/-- Creation cannot meet a document that the lookup did not see. -/
theorem handle_recordInvoice_of_none {record : InvoiceRecord}
    (h : st.find scope record.invoiceId = none) :
    handle M format (.recordInvoice scope record) x st =
      match M.refuses record with
      | some err => (.error err,st)
      | none => (.ok (),st.insert M ⟨scope,record,x.1⟩ h) := by
  have hcreate : MongoCollections.handle M (.create ⟨scope,record,x.1⟩) x.2 st =
      match M.refuses record with
      | some err => (.error err,st)
      | none => (.ok (),st.insert M ⟨scope,record,x.1⟩ h) := by
    simp only [MongoCollections.handle]
    split
    · rfl
    · split
      · rename_i h'
        cases h.symm.trans h'
      · rfl
  simp only [handle,method,recordInvoice,command,Program.perform,Program.bind_eq,Program.call_bind,
    Program.exec_call,Program.tryCatch,MongoCollections.handle.eq_3,h,Program.ofExcept,
    Program.ret_bind,hcreate]
  cases M.refuses record with
  | none => rfl
  | some err =>
    by_cases hu : isDuplicateKeyError err
    · simp [Program.tryCatch,hu,Program.exec_call,MongoCollections.handle,h]
    · simp [Program.tryCatch,hu]

end spec

end MongoAdapter

/-- A server that takes every document. -/
def Sample.mongoose : Mongoose := ⟨fun _ => none,some⟩

end Zatca
