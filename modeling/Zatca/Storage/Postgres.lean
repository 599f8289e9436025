import Zatca.Storage.Ledger
import Zatca.Library.OrderBy
import Mathlib.Data.Char
import Mathlib.Data.List.Lex
import Mathlib.Data.List.Sort
set_option autoImplicit false

/-! The relational adapter: every method is one or two statements on `zatca_counters` and
`zatca_invoices`. The database is an ideal one, up to the rows that its columns do not take and the
order of keys that `jsonb` does not keep. -/

namespace Zatca
open Interaction

/-- What an adapter on a database throws: its own error, or the driver's with its code. -/
inductive BackendError where
  | zatcaStorageError (message : String)
  | driver (code : String)
  deriving DecidableEq, Repr

namespace Json

mutual
/-- The same JSON value, up to the order of the keys of its objects. -/
inductive Reordered : Json → Json → Prop
  | null : Reordered .null .null
  | bool (b : Bool) : Reordered (.bool b) (.bool b)
  | num (q : ℚ) : Reordered (.num q) (.num q)
  | str (s : String) : Reordered (.str s) (.str s)
  | arr {xs ys : List Json} : ReorderedItems xs ys → Reordered (.arr xs) (.arr ys)
  | obj {xs ys zs : List (String × Json)} :
      ReorderedFields xs ys → ys.Perm zs → Reordered (.obj xs) (.obj zs)
inductive ReorderedItems : List Json → List Json → Prop
  | nil : ReorderedItems [] []
  | cons {a b : Json} {xs ys : List Json} :
      Reordered a b → ReorderedItems xs ys → ReorderedItems (a :: xs) (b :: ys)
inductive ReorderedFields : List (String × Json) → List (String × Json) → Prop
  | nil : ReorderedFields [] []
  | cons {k : String} {a b : Json} {xs ys : List (String × Json)} :
      Reordered a b → ReorderedFields xs ys → ReorderedFields ((k,a) :: xs) ((k,b) :: ys)
end

end Json

/-- The database server: the rows it refuses, and what a `jsonb` column gives back of a value. -/
structure Postgres where
  refuses : InvoiceRecord → Option BackendError
  jsonb : Json → Json
  jsonb_reordered : ∀ v, Json.Reordered v (jsonb v)

/-- A row of `zatca_invoices`: the columns of the record, an absent entry being SQL's null, and
those that the adapter adds. -/
structure InvoiceRow where
  id : Nat
  scope : TenantScope
  record : InvoiceRecord
  createdAt : Date
  deriving DecidableEq

/-- The statements that the adapter sends. -/
inductive SqlOp where
  | upsertCounter (scope : TenantScope) (yearMonth : YearMonth)
  | selectHead (scope : TenantScope) (kind : Option InvoiceKind)
  | selectInvoice (scope : TenantScope) (invoiceId : String)
  | insertInvoice (scope : TenantScope) (record : InvoiceRecord) (createdAt : Date)
  | updateStatus (scope : TenantScope) (invoiceId : String) (status : InvoiceStatus)

/-- The first row of the answer as far as the adapter reads it, or the row count. -/
abbrev SqlOp.Ret : SqlOp → Type
  | .upsertCounter _ _ => Option Nat
  | .selectHead _ _ => Option String
  | .selectInvoice _ _ => Option InvoiceRow
  | .insertInvoice _ _ _ => Unit
  | .updateStatus _ _ _ => Nat

abbrev Sql : Signature := ⟨SqlOp,SqlOp.Ret⟩

/-! ### The adapter -/

namespace PostgresAdapter

def query (o : SqlOp) : Program Sql BackendError o.Ret := Program.perform (S := Sql) o

def incrementCounter (format : InvoiceNumberFormatter) (now : Date) (scope : TenantScope) :
    Program Sql BackendError CounterValue := do
  let m := yearMonthFor now
  match ← query (.upsertCounter scope m.yearMonth) with
  | none => .throw (.zatcaStorageError "incrementCounter: upsert returned no row")
  | some sequence =>
      return ⟨sequence,format
        { scope, sequence, yearMonth := m.yearMonth.1, year := m.year, month := m.month }⟩

def getPreviousHash (scope : TenantScope) (invoiceKind : Option InvoiceKind) :
    Program Sql BackendError String := do
  return (← query (.selectHead scope invoiceKind)).getD ZATCA_BASE_INVOICE_HASH

/-- The driver gives JavaScript's `null` for SQL's and for JSON's, and either is left out. -/
def rowToRecord (row : InvoiceRow) : InvoiceRecord :=
  { row.record with
    validationResults := row.record.validationResults.filter (fun v => v ≠ .null) }

def isUniqueViolation (err : BackendError) : Bool := err = .driver "23505"

def calledTwice (invoiceId : String) : BackendError :=
  .zatcaStorageError ("recordInvoice(" ++ invoiceId ++ ") called twice with conflicting payloads.")

def lostRace (invoiceId : String) : BackendError :=
  .zatcaStorageError
    ("recordInvoice(" ++ invoiceId ++ ") lost a race against a conflicting payload.")

def sameOr (conflict : BackendError) (row : InvoiceRow) (record : InvoiceRecord) :
    Program Sql BackendError Unit :=
  if recordsEqual (rowToRecord row) record then .ret () else .throw conflict

/-- The second argument is `new Date()`. -/
def recordInvoice (scope : TenantScope) (newDate : Date) (record : InvoiceRecord) :
    Program Sql BackendError Unit := do
  match ← query (.selectInvoice scope record.invoiceId) with
  | some existingRow => sameOr (calledTwice record.invoiceId) existingRow record
  | none =>
      (query (.insertInvoice scope record newDate)).tryCatch fun err =>
        if isUniqueViolation err then do
          match ← query (.selectInvoice scope record.invoiceId) with
          | none => .throw err
          | some winnerRow => sameOr (lostRace record.invoiceId) winnerRow record
        else .throw err

def loadInvoice (scope : TenantScope) (invoiceId : String) :
    Program Sql BackendError (Option InvoiceRecord) := do
  return (← query (.selectInvoice scope invoiceId)).map rowToRecord

def unknownInvoice (invoiceId : String) : BackendError :=
  .zatcaStorageError ("updateInvoiceStatus called for unknown invoice " ++ invoiceId ++ ".")

def updateInvoiceStatus (scope : TenantScope) (invoiceId : String) (status : InvoiceStatus) :
    Program Sql BackendError Unit := do
  let rowCount ← query (.updateStatus scope invoiceId status)
  if rowCount = 0 then .throw (unknownInvoice invoiceId) else return ()

end PostgresAdapter

/-! ### The tables -/

structure PostgresTables where
  counters : JsMap (TenantScope × YearMonth) Nat
  invoices : List InvoiceRow
  nextId : Nat
  unique : (invoices.map (fun r => (r.scope,r.record.invoiceId))).Nodup
  serial : invoices.Pairwise (fun r s => r.id < s.id) ∧ ∀ r ∈ invoices, r.id < nextId

namespace PostgresTables

def empty : PostgresTables := ⟨.empty,[],1,List.nodup_nil,List.Pairwise.nil,by simp⟩

/-- The largest `INTEGER`. -/
def maxInteger : Nat := 2147483647

def fitsInteger (n : Nat) : Bool := n ≤ maxInteger

def sequence (st : PostgresTables) (scope : TenantScope) (m : YearMonth) : Nat :=
  (st.counters.get (scope,m)).getD 0

def find (st : PostgresTables) (scope : TenantScope) (invoiceId : String) : Option InvoiceRow :=
  st.invoices.find? (fun r => r.scope = scope ∧ r.record.invoiceId = invoiceId)

theorem find_eq_none {st : PostgresTables} {scope : TenantScope} {invoiceId : String} :
    st.find scope invoiceId = none ↔
      (scope,invoiceId) ∉ st.invoices.map (fun r => (r.scope,r.record.invoiceId)) := by
  simp [find]

/-- `ORDER BY created_at DESC, id DESC`. -/
def newer (a b : InvoiceRow) : Bool :=
  b.createdAt.getTime < a.createdAt.getTime ||
    (a.createdAt.getTime = b.createdAt.getTime && b.id < a.id)

def ofChain (scope : TenantScope) (kind : Option InvoiceKind) (r : InvoiceRow) : Bool :=
  r.scope = scope && (ChainKey.ofOption kind).covers r.record

def head (st : PostgresTables) (scope : TenantScope) (kind : Option InvoiceKind) : Option String :=
  (OrderBy.first newer (st.invoices.filter (ofChain scope kind))).map (fun r => r.record.invoiceHash)

def insert (P : Postgres) (st : PostgresTables) (scope : TenantScope) (record : InvoiceRecord)
    (createdAt : Date) (h : st.find scope record.invoiceId = none) : PostgresTables where
  counters := st.counters
  invoices := st.invoices ++ [
    { id := st.nextId, scope, createdAt
      record := { record with validationResults := record.validationResults.map P.jsonb } }]
  nextId := st.nextId + 1
  unique := by
    rw [List.map_append,List.nodup_append]
    refine ⟨st.unique,by simp,?_⟩
    rintro key hkey _ hr rfl
    simp only [List.map_cons,List.map_nil,List.mem_singleton] at hr
    exact find_eq_none.1 h (hr ▸ hkey)
  serial := by
    refine ⟨List.pairwise_append.2 ⟨st.serial.1,List.pairwise_singleton _ _,?_⟩,?_⟩
    · intro r hr s hs
      rw [List.mem_singleton.1 hs]
      exact st.serial.2 r hr
    · intro r hr
      rcases List.mem_append.1 hr with hr | hr
      · exact Nat.lt_succ_of_lt (st.serial.2 r hr)
      · rw [List.mem_singleton.1 hr]
        exact Nat.lt_succ_self _

def withStatus (scope : TenantScope) (invoiceId : String) (status : InvoiceStatus)
    (r : InvoiceRow) : InvoiceRow :=
  if r.scope = scope ∧ r.record.invoiceId = invoiceId then
    { r with record := { r.record with status } }
  else r

section withStatus
variable (scope : TenantScope) (invoiceId : String) (status : InvoiceStatus) (r : InvoiceRow)

@[simp] theorem withStatus_id : (withStatus scope invoiceId status r).id = r.id := by
  unfold withStatus; split <;> rfl

@[simp] theorem withStatus_scope : (withStatus scope invoiceId status r).scope = r.scope := by
  unfold withStatus; split <;> rfl

@[simp] theorem withStatus_invoiceId :
    (withStatus scope invoiceId status r).record.invoiceId = r.record.invoiceId := by
  unfold withStatus; split <;> rfl

end withStatus

def setStatus (st : PostgresTables) (scope : TenantScope) (invoiceId : String)
    (status : InvoiceStatus) : PostgresTables where
  counters := st.counters
  invoices := st.invoices.map (withStatus scope invoiceId status)
  nextId := st.nextId
  unique := by simpa [List.map_map,Function.comp_def] using st.unique
  serial := by
    refine ⟨List.pairwise_map.2 (by simpa using st.serial.1),fun r hr => ?_⟩
    obtain ⟨s,hs,rfl⟩ := List.mem_map.1 hr
    simpa using st.serial.2 s hs

/-- One statement. -/
def handle (P : Postgres) : Handler Sql BackendError PostgresTables Unit
  | .upsertCounter scope yearMonth, _, st =>
      let n := st.sequence scope yearMonth + 1
      if fitsInteger n then
        (.ok (some n),{ st with counters := st.counters.set (scope,yearMonth) n })
      else (.error (.driver "22003"),st)
  | .selectHead scope kind, _, st => (.ok (st.head scope kind),st)
  | .selectInvoice scope invoiceId, _, st => (.ok (st.find scope invoiceId),st)
  | .insertInvoice scope record createdAt, _, st =>
      match P.refuses record with
      | some err => (.error err,st)
      | none =>
          match h : st.find scope record.invoiceId with
          | some _ => (.error (.driver "23505"),st)
          | none => (.ok (),st.insert P scope record createdAt h)
  | .updateStatus scope invoiceId status, _, st =>
      (.ok (if (st.find scope invoiceId).isSome then 1 else 0),st.setStatus scope invoiceId status)

end PostgresTables

/-! ### One call after the other -/

namespace PostgresAdapter

/-- The program of a method; `now` is read from the adapter's clock or from the host's. -/
def method (format : InvoiceNumberFormatter) (now : Date) :
    (o : StorageOp) → Program Sql BackendError o.Ret
  | .incrementCounter scope => incrementCounter format now scope
  | .getPreviousHash scope invoiceKind => getPreviousHash scope invoiceKind
  | .recordInvoice scope record => recordInvoice scope now record
  | .loadInvoice scope invoiceId => loadInvoice scope invoiceId
  | .updateInvoiceStatus scope invoiceId status => updateInvoiceStatus scope invoiceId status

/-- A method call that nothing comes between. -/
def handle (P : Postgres) (format : InvoiceNumberFormatter) :
    Handler StorageAdapter BackendError PostgresTables Date := fun o now st =>
  (method format now o).exec (PostgresTables.handle P) (fun _ => ()) st

section spec
variable (P : Postgres) (format : InvoiceNumberFormatter) (now : Date) (st : PostgresTables)
  (scope : TenantScope)

theorem handle_incrementCounter : handle P format (.incrementCounter scope) now st =
    let m := yearMonthFor now
    let sequence := st.sequence scope m.yearMonth + 1
    if PostgresTables.fitsInteger sequence then
      (.ok ⟨sequence,format
          { scope, sequence, yearMonth := m.yearMonth.1, year := m.year, month := m.month }⟩,
        { st with counters := st.counters.set (scope,m.yearMonth) sequence })
    else (.error (.driver "22003"),st) := by
  simp only [handle,method,incrementCounter,query,Program.perform,Program.bind_eq,Program.call_bind,
    Program.exec_call,PostgresTables.handle]
  cases PostgresTables.fitsInteger (st.sequence scope (yearMonthFor now).yearMonth + 1) <;> rfl

theorem handle_getPreviousHash (kind : Option InvoiceKind) :
    handle P format (.getPreviousHash scope kind) now st =
      (.ok ((st.head scope kind).getD ZATCA_BASE_INVOICE_HASH),st) := rfl

theorem handle_loadInvoice (invoiceId : String) :
    handle P format (.loadInvoice scope invoiceId) now st =
      (.ok ((st.find scope invoiceId).map rowToRecord),st) := rfl

theorem handle_updateInvoiceStatus (invoiceId : String) (status : InvoiceStatus) :
    handle P format (.updateInvoiceStatus scope invoiceId status) now st =
      (if (st.find scope invoiceId).isSome then .ok () else .error (unknownInvoice invoiceId),
        st.setStatus scope invoiceId status) := by
  simp only [handle,method,updateInvoiceStatus,query,Program.perform,Program.bind_eq,
    Program.call_bind,Program.exec_call,PostgresTables.handle]
  cases (st.find scope invoiceId).isSome <;> rfl

theorem handle_recordInvoice_of_some {record : InvoiceRecord} {row : InvoiceRow}
    (h : st.find scope record.invoiceId = some row) :
    handle P format (.recordInvoice scope record) now st =
      (if rowToRecord row = record then .ok () else .error (calledTwice record.invoiceId),st) := by
  simp only [handle,method,recordInvoice,query,Program.perform,Program.bind_eq,Program.call_bind,
    Program.exec_call,PostgresTables.handle,h]
  by_cases hr : rowToRecord row = record
  · simp [sameOr,recordsEqual_iff,hr,Program.ofExcept]
  · simp [sameOr,recordsEqual_iff,hr,Program.ofExcept]

/-- The insert cannot meet a row that the select did not see. -/
theorem handle_recordInvoice_of_none {record : InvoiceRecord}
    (h : st.find scope record.invoiceId = none) :
    handle P format (.recordInvoice scope record) now st =
      match P.refuses record with
      | some err => (.error err,st)
      | none => (.ok (),st.insert P scope record now h) := by
  have hinsert : PostgresTables.handle P (.insertInvoice scope record now) () st =
      match P.refuses record with
      | some err => (.error err,st)
      | none => (.ok (),st.insert P scope record now h) := by
    simp only [PostgresTables.handle]
    split
    · rfl
    · split
      · rename_i h'
        cases h.symm.trans h'
      · rfl
  simp only [handle,method,recordInvoice,query,Program.perform,Program.bind_eq,Program.call_bind,
    Program.exec_call,Program.tryCatch,PostgresTables.handle.eq_3,h,Program.ofExcept,
    Program.ret_bind,hinsert]
  cases P.refuses record with
  | none => rfl
  | some err =>
    by_cases hu : isUniqueViolation err
    · simp [Program.tryCatch,hu,Program.exec_call,PostgresTables.handle,h]
    · simp [Program.tryCatch,hu]

end spec

end PostgresAdapter

/-! A server that takes every row, for runs on concrete inputs. -/
namespace Sample

/-- Shorter keys are stored before longer ones. -/
def keyLe (a b : String × Json) : Prop :=
  a.1.length < b.1.length ∨ a.1.length = b.1.length ∧ a.1.toList ≤ b.1.toList

instance : DecidableRel keyLe := fun _ _ => inferInstanceAs (Decidable (_ ∨ _ ∧ _))

mutual
def sortKeys : Json → Json
  | .arr xs => .arr (sortItems xs)
  | .obj fields => .obj ((sortFields fields).insertionSort keyLe)
  | v => v
def sortItems : List Json → List Json
  | [] => []
  | v :: xs => sortKeys v :: sortItems xs
def sortFields : List (String × Json) → List (String × Json)
  | [] => []
  | (k,v) :: fields => (k,sortKeys v) :: sortFields fields
end

mutual
theorem reordered_sortKeys : ∀ v, Json.Reordered v (sortKeys v)
  | .null => .null
  | .bool b => .bool b
  | .num q => .num q
  | .str s => .str s
  | .arr xs => .arr (reordered_sortItems xs)
  | .obj fields => .obj (reordered_sortFields fields) (List.perm_insertionSort keyLe _).symm
theorem reordered_sortItems : ∀ xs, Json.ReorderedItems xs (sortItems xs)
  | [] => .nil
  | v :: xs => .cons (reordered_sortKeys v) (reordered_sortItems xs)
theorem reordered_sortFields : ∀ fields, Json.ReorderedFields fields (sortFields fields)
  | [] => .nil
  | (_,v) :: fields => .cons (reordered_sortKeys v) (reordered_sortFields fields)
end

def postgres : Postgres := ⟨fun _ => none,sortKeys,reordered_sortKeys⟩

end Sample
end Zatca
