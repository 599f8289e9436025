import Zatca.Library.Atomic
import Zatca.Library.GroupBy
import Zatca.Storage.Counters
import Zatca.Storage.Heads
set_option autoImplicit false

/-! What the adapters on databases are for, the one as the other: an archive that answers one call
after the other. A document is recorded in several statements, and those of others come between
them; the archive does not show it. -/

namespace Zatca
open Interaction

/-! ### The archive -/

/-- The counters and the documents of every scope; a document has the time at which it was kept. -/
structure Archive where
  sequence : TenantScope → YearMonth → Nat
  documents : TenantScope → List (InvoiceRecord × Date)
  nodup : ∀ scope, ((documents scope).map fun d => d.1.invoiceId).Nodup

/-- What depends on the database: the numbers that its counters do not hold, the documents that it
refuses, and what it keeps of a value. -/
structure Keeping where
  overflows : Nat → Option BackendError
  refuses : InvoiceRecord → Option BackendError
  keep : Json → Option Json

/-- The time of the call, which of the tied documents comes first, and whether another call was
noticed. -/
structure ArchiveChoice where
  now : Date
  pick : Nat := 0
  raced : Bool := false

namespace Keeping

def kept (K : Keeping) (record : InvoiceRecord) : InvoiceRecord :=
  { record with validationResults := record.validationResults.bind K.keep }

end Keeping

namespace Archive

theorem ext' {a b : Archive} (hs : a.sequence = b.sequence) (hd : a.documents = b.documents) :
    a = b := by
  cases a
  cases b
  cases hs
  cases hd
  rfl

def count (a : Archive) (scope : TenantScope) (m : YearMonth) (n : Nat) : Archive :=
  { a with sequence := Function.update a.sequence scope (Function.update (a.sequence scope) m n) }

def find (a : Archive) (scope : TenantScope) (invoiceId : String) : Option InvoiceRecord :=
  ((a.documents scope).find? fun d => d.1.invoiceId = invoiceId).map Prod.fst

theorem find_eq_none {a : Archive} {scope : TenantScope} {invoiceId : String} :
    a.find scope invoiceId = none ↔ invoiceId ∉ (a.documents scope).map fun d => d.1.invoiceId := by
  simp [find]

/-- The documents of the chain that none is newer than. -/
def newest (a : Archive) (scope : TenantScope) (kind : Option InvoiceKind) :
    List (InvoiceRecord × Date) :=
  OrderBy.tops (fun d => d.2.getTime) (chainDocs kind (a.documents scope))

def append (a : Archive) (scope : TenantScope) (record : InvoiceRecord) (now : Date)
    (h : a.find scope record.invoiceId = none) : Archive where
  sequence := a.sequence
  documents := Function.update a.documents scope (a.documents scope ++ [(record,now)])
  nodup scope' := by
    by_cases hs : scope' = scope
    · subst hs
      rw [Function.update_self,List.map_append,List.nodup_append]
      refine ⟨a.nodup scope',by simp,?_⟩
      rintro id hid _ hr rfl
      rw [List.map_singleton,List.mem_singleton] at hr
      exact find_eq_none.1 h (hr ▸ hid)
    · rw [Function.update_of_ne hs]
      exact a.nodup scope'

/-- A document of this id gets the status. -/
def marked (invoiceId : String) (status : InvoiceStatus) (d : InvoiceRecord × Date) :
    InvoiceRecord × Date :=
  if d.1.invoiceId = invoiceId then ({ d.1 with status },d.2) else d

theorem marked_invoiceId (invoiceId : String) (status : InvoiceStatus) (d : InvoiceRecord × Date) :
    (marked invoiceId status d).1.invoiceId = d.1.invoiceId := by
  unfold marked
  split
  · rfl
  · rfl

def setStatus (a : Archive) (scope : TenantScope) (invoiceId : String) (status : InvoiceStatus) :
    Archive where
  sequence := a.sequence
  documents := Function.update a.documents scope
    ((a.documents scope).map (marked invoiceId status))
  nodup scope' := by
    by_cases hs : scope' = scope
    · subst hs
      rw [Function.update_self,List.map_map]
      simpa [Function.comp_def,marked_invoiceId] using a.nodup scope'
    · rw [Function.update_of_ne hs]
      exact a.nodup scope'

/-- The record is there already. -/
def recordAgain (existing record : InvoiceRecord) (raced : Bool) : Except BackendError Unit :=
  if existing = record then .ok ()
  else .error (if raced then PostgresAdapter.lostRace record.invoiceId
    else PostgresAdapter.calledTwice record.invoiceId)

/-- A call, answered at once. -/
def handle (K : Keeping) (format : InvoiceNumberFormatter) :
    Handler StorageAdapter BackendError Archive ArchiveChoice
  | .incrementCounter scope, x, a =>
      let m := yearMonthFor x.now
      let sequence := a.sequence scope m.yearMonth + 1
      match K.overflows sequence with
      | some err => (.error err,a)
      | none => (.ok ⟨sequence,format
          { scope, sequence, yearMonth := m.yearMonth.1, year := m.year, month := m.month }⟩,
        a.count scope m.yearMonth sequence)
  | .getPreviousHash scope kind, x, a =>
      let tied := a.newest scope kind
      (.ok ((tied[x.pick % tied.length]?.map fun d => d.1.invoiceHash).getD
        ZATCA_BASE_INVOICE_HASH),a)
  | .recordInvoice scope record, x, a =>
      match h : a.find scope record.invoiceId with
      | some existing => (recordAgain existing record x.raced,a)
      | none =>
          match K.refuses record with
          | some err => (.error err,a)
          | none => (.ok (),a.append scope (K.kept record) x.now h)
  | .loadInvoice scope invoiceId, _, a => (.ok (a.find scope invoiceId),a)
  | .updateInvoiceStatus scope invoiceId status, _, a =>
      (if (a.find scope invoiceId).isSome then .ok ()
        else .error (PostgresAdapter.unknownInvoice invoiceId),
        a.setStatus scope invoiceId status)

section handle
variable {K : Keeping} {format : InvoiceNumberFormatter} {a : Archive} {x : ArchiveChoice}
  {scope : TenantScope} {record existing : InvoiceRecord}

theorem handle_record_of_some (h : a.find scope record.invoiceId = some existing) :
    handle K format (.recordInvoice scope record) x a = (recordAgain existing record x.raced,a) := by
  simp only [handle]
  split
  · rename_i hfind
    rw [h] at hfind
    cases hfind
    rfl
  · rename_i hfind
    cases h.symm.trans hfind

theorem handle_record_of_none (h : a.find scope record.invoiceId = none) :
    handle K format (.recordInvoice scope record) x a = match K.refuses record with
      | some err => (.error err,a)
      | none => (.ok (),a.append scope (K.kept record) x.now h) := by
  simp only [handle]
  split
  · rename_i hfind
    cases h.symm.trans hfind
  · rfl

end handle

/-! The documents of every scope, where one table holds the rows of all of them. -/

section table
variable {ρ : Type} {key : ρ → TenantScope} {view : ρ → InvoiceRecord × Date} {rows : List ρ}
  {a : Archive}

theorem find_of_group (h : a.documents = GroupBy.group key view rows) (scope : TenantScope)
    (invoiceId : String) : a.find scope invoiceId = (rows.find? fun r =>
      decide (key r = scope) && decide ((view r).1.invoiceId = invoiceId)).map fun r => (view r).1 := by
  rw [find,h,GroupBy.find?_group,Option.map_map]
  rfl

theorem newest_of_group (h : a.documents = GroupBy.group key view rows) (scope : TenantScope)
    (kind : Option InvoiceKind) : a.newest scope kind =
      (OrderBy.tops (fun r => (view r).2.getTime) (rows.filter fun r =>
        decide (key r = scope) && (ChainKey.ofOption kind).covers (view r).1)).map view := by
  rw [← OrderBy.tops_map (fun d : InvoiceRecord × Date => d.2.getTime) view,newest,chainDocs,h,
    GroupBy.group,List.filter_map,List.filter_filter]
  refine congrArg _ (congrArg _ (List.filter_congr fun r _ => ?_))
  exact Bool.and_comm _ _

/-- The counters of every scope, in one table. -/
theorem count_counters (counters : JsMap (TenantScope × YearMonth) Nat) (scope : TenantScope)
    (m : YearMonth) (n : Nat) :
    (fun scope' m' => ((counters.set (scope,m) n).get (scope',m')).getD 0) =
      Function.update (fun scope' m' => (counters.get (scope',m')).getD 0) scope
        (Function.update (fun m' => (counters.get (scope,m')).getD 0) m n) := by
  funext scope'
  by_cases hs : scope' = scope
  · subst hs
    rw [Function.update_self]
    exact update_sequence counters scope' m n
  · rw [Function.update_of_ne hs]
    funext m'
    rw [JsMap.get_set_ne _ _ fun h => hs (congrArg Prod.fst h)]

end table

end Archive

/-! ### Recording a document in several statements -/

/-- The statements on the row of a document. -/
inductive RowOp where
  | lookup
  | insert

abbrev RowOp.Ret (ρ : Type) : RowOp → Type
  | .lookup => Option ρ
  | .insert => Unit

abbrev Rows (ρ : Type) : Signature := ⟨RowOp,RowOp.Ret ρ⟩

/-- Looks for the row, inserts it if there is none, and looks again if another was first. -/
def recordOnce {ρ : Type} (toRecord : ρ → InvoiceRecord) (isDuplicate : BackendError → Bool)
    (record : InvoiceRecord) : Program (Rows ρ) BackendError Unit :=
  (Program.perform (S := Rows ρ) .lookup).bind fun
    | some row => .ofExcept (Archive.recordAgain (toRecord row) record false)
    | none => (Program.perform (S := Rows ρ) .insert).tryCatch fun err =>
        if isDuplicate err then (Program.perform (S := Rows ρ) .lookup).bind fun
          | none => .throw err
          | some row => .ofExcept (Archive.recordAgain (toRecord row) record true)
        else .throw err

section recordOnce
variable {T : Signature} {σ χ ρ : Type} {h : Handler T BackendError σ χ} {abs : σ → Archive}
  {φ : Signature.Hom (Rows ρ) T} {K : Keeping} {format : InvoiceNumberFormatter}
  {scope : TenantScope} {record : InvoiceRecord} {now : Date} {toRecord : ρ → InvoiceRecord}
  {isDuplicate : BackendError → Bool}

/-- What the statements are answered. A row that is there stays there. -/
structure AnswersRows (h : Handler T BackendError σ χ) (abs : σ → Archive)
    (φ : Signature.Hom (Rows ρ) T) (K : Keeping) (scope : TenantScope) (record : InvoiceRecord)
    (now : Date) (toRecord : ρ → InvoiceRecord) (isDuplicate : BackendError → Bool) : Prop where
  lookup : ∀ x st, ∃ r, h (φ.op .lookup) x st = (.ok r,st) ∧
    (φ.ret .lookup r).map toRecord = (abs st).find scope record.invoiceId
  refused : ∀ x st, ∀ err ∈ K.refuses record, h (φ.op .insert) x st = (.error err,st)
  duplicate : ∀ x st, K.refuses record = none → (abs st).find scope record.invoiceId ≠ none →
    ∃ err, isDuplicate err = true ∧ h (φ.op .insert) x st = (.error err,st)
  inserted : ∀ x st (hnone : (abs st).find scope record.invoiceId = none),
    K.refuses record = none → ∃ r st', h (φ.op .insert) x st = (.ok r,st') ∧
      abs st' = (abs st).append scope (K.kept record) now hnone
  stays : h.Keeps fun st => (abs st).find scope record.invoiceId ≠ none

/-- Once the row was found missing and its insertion has failed. -/
theorem relookup_pending (hrows : AnswersRows h abs φ K scope record now toRecord isDuplicate)
    (err : BackendError) :
    (((Program.perform (S := Rows ρ) .lookup).bind fun
      | none => .throw err
      | some row => .ofExcept (Archive.recordAgain (toRecord row) record true)).embed φ).Pending h
        (Archive.handle K format) abs (.recordInvoice scope record) fun st =>
          (abs st).find scope record.invoiceId ≠ none ∨ K.refuses record = some err := by
  refine Program.pending_last fun x st hst => ⟨⟨now,0,true⟩,?_⟩
  obtain ⟨r,hlookup,hfound⟩ := hrows.lookup x st
  rw [hlookup]
  simp only [Except.map,Program.ofExcept_bind]
  cases hr : φ.ret .lookup r with
  | some row =>
    rw [hr] at hfound
    rw [Archive.handle_record_of_some hfound.symm]
    exact ⟨Program.embed_ofExcept _ _,rfl⟩
  | none =>
    rw [hr] at hfound
    rw [Archive.handle_record_of_none hfound.symm,hst.resolve_left (not_not_intro hfound.symm)]
    exact ⟨rfl,rfl⟩

/-- Once the row was found missing. -/
theorem insert_pending (hrows : AnswersRows h abs φ K scope record now toRecord isDuplicate)
    (hrefuses : ∀ err ∈ K.refuses record, isDuplicate err = true) :
    (((Program.perform (S := Rows ρ) .insert).tryCatch fun err =>
      if isDuplicate err then (Program.perform (S := Rows ρ) .lookup).bind fun
        | none => .throw err
        | some row => .ofExcept (Archive.recordAgain (toRecord row) record true)
      else .throw err).embed φ).Pending h (Archive.handle K format) abs
        (.recordInvoice scope record) fun _ => True := by
  intro x st _
  have hagain (err : BackendError) : h.Keeps fun st =>
      (abs st).find scope record.invoiceId ≠ none ∨ K.refuses record = some err := by
    intro o x st hst
    rcases hst with hst | hst
    · exact .inl (hrows.stays o x st hst)
    · exact .inr hst
  cases hr : K.refuses record with
  | some err =>
    have hdup := hrefuses err hr
    rw [hrows.refused x st err hr]
    refine .inl ⟨rfl,_,hagain err,.inr hr,?_⟩
    simp only [Except.map,Program.ofExcept,Program.tryCatch,hdup,if_true]
    exact relookup_pending hrows err
  | none =>
    by_cases hfound : (abs st).find scope record.invoiceId = none
    · obtain ⟨r,st',hinsert,habs⟩ := hrows.inserted x st hfound hr
      rw [hinsert]
      refine .inr ⟨.ok (),⟨now,0,false⟩,fun _ => True,?_,h.keeps_true,trivial,rfl⟩
      rw [Archive.handle_record_of_none hfound,hr,habs]
    · obtain ⟨err,hdup,hinsert⟩ := hrows.duplicate x st hr hfound
      rw [hinsert]
      refine .inl ⟨rfl,_,hagain err,.inl hfound,?_⟩
      simp only [Except.map,Program.ofExcept,Program.tryCatch,hdup,if_true]
      exact relookup_pending hrows err

theorem recordOnce_pending (hrows : AnswersRows h abs φ K scope record now toRecord isDuplicate) :
    ((recordOnce toRecord isDuplicate record).embed φ).Pending h (Archive.handle K format) abs
      (.recordInvoice scope record) fun _ => True := by
  intro x st _
  obtain ⟨r,hlookup,hfound⟩ := hrows.lookup x st
  rw [hlookup]
  simp only [Except.map,Program.ofExcept_bind]
  cases hr : φ.ret .lookup r with
  | some row =>
    -- the row is there, and nothing is left to do
    rw [hr] at hfound
    refine .inr ⟨_,⟨now,0,false⟩,fun _ => True,Archive.handle_record_of_some hfound.symm,
      h.keeps_true,trivial,?_⟩
    simp only [Program.embed_ofExcept]
    exact Program.settled_ofExcept _ _
  | none =>
    rw [hr] at hfound
    by_cases hrefuses : ∀ err ∈ K.refuses record, isDuplicate err = true
    · exact .inl ⟨trivial,fun _ => True,h.keeps_true,trivial,insert_pending hrows hrefuses⟩
    · -- the row is refused whatever the others do, and this is already settled
      simp only [not_forall] at hrefuses
      obtain ⟨err,hrefused,hdup⟩ := hrefuses
      refine .inr ⟨.error err,⟨now,0,false⟩,fun _ => True,?_,h.keeps_true,trivial,?_⟩
      · rw [Archive.handle_record_of_none hfound.symm,Option.mem_def.1 hrefused]
      · intro x st _
        rw [hrows.refused x st err hrefused]
        simp only [Except.map,Program.ofExcept,Program.tryCatch,hdup]
        exact ⟨trivial,fun _ => True,h.keeps_true,trivial,rfl⟩

end recordOnce

end Zatca
