import Zatca.Storage.Mongo
import Zatca.Library.Sequence
set_option autoImplicit false

/-! Recording the same document again. The row is compared as a whole, with its current status and
with its validation results as the database gives them back. -/

namespace Zatca
open Interaction

theorem Ledger.find_append {l : Ledger} {r : InvoiceRecord} (h : l.find r.invoiceId = none)
    (id : String) :
    (l.append r h).find id = (l.find id).or (if r.invoiceId = id then some r else none) := by
  unfold Ledger.find Ledger.append
  rw [List.find?_append]
  by_cases hid : r.invoiceId = id
  · simp [hid]
  · simp [hid]

theorem Ledger.find_setStatus (l : Ledger) (id id' : String) (status : InvoiceStatus) :
    (l.setStatus id status).find id' =
      (l.find id').map (fun r => if r.invoiceId = id then { r with status } else r) := by
  unfold Ledger.find Ledger.setStatus
  rw [List.find?_map]
  congr 1
  refine congrArg (fun p => l.records.find? p) (funext fun r => ?_)
  simp only [Function.comp_apply]
  split
  · rfl
  · rfl

/-- The row of the document, whatever has become of its status. -/
def Ledger.Holds (r : InvoiceRecord) (l : Ledger) : Prop :=
  ∃ status, l.find r.invoiceId = some { r with status }

section memory
variable (format : InvoiceNumberFormatter) {now : Date} {scope : TenantScope} {r : InvoiceRecord}

/-- No call drops a row or changes anything but its status. -/
theorem Ledger.holds_step (o : StorageOp) (now : Date) {l : Ledger} (h : l.Holds r) :
    (Ledger.handle format o now l).2.Holds r := by
  obtain ⟨status,hf⟩ := h
  cases o with
  | incrementCounter scope => exact ⟨status,hf⟩
  | getPreviousHash scope kind => exact ⟨status,hf⟩
  | loadInvoice scope id => exact ⟨status,hf⟩
  | recordInvoice scope r' =>
    cases hf' : l.find r'.invoiceId with
    | some existing =>
      rw [Ledger.handle_record_of_some _ _ _ _ hf']
      exact ⟨status,hf⟩
    | none =>
      rw [Ledger.handle_record_of_none _ _ _ _ hf']
      exact ⟨status,by rw [Ledger.find_append,hf]; rfl⟩
  | updateInvoiceStatus scope id status' =>
    simp only [Ledger.handle]
    split
    · exact ⟨status,hf⟩
    · by_cases hid : r.invoiceId = id
      · exact ⟨status',by rw [Ledger.find_setStatus,hf]; simp [hid]⟩
      · exact ⟨status,by rw [Ledger.find_setStatus,hf]; simp [hid]⟩

theorem Ledger.holds_of_recorded {l : Ledger}
    (h : (Ledger.handle format (.recordInvoice scope r) now l).1 = .ok ()) :
    (Ledger.handle format (.recordInvoice scope r) now l).2.Holds r := by
  cases hf : l.find r.invoiceId with
  | some existing =>
    rw [Ledger.handle_record_of_some _ _ _ _ hf] at h ⊢
    have he : existing = r := by
      by_contra hne
      simp [hne] at h
    exact ⟨r.status,by rw [hf,he]⟩
  | none =>
    rw [Ledger.handle_record_of_none _ _ _ _ hf]
    exact ⟨r.status,by rw [Ledger.find_append,hf]; simp⟩

/-- What a call of the adapter preserves of one ledger, if the ledger's own step does. -/
theorem MemoryStorage.ledger_step {I : Ledger → Prop} (key : String) (o : StorageOp) (now : Date)
    {st : MemoryStorage} (hI : ∀ l, I l → I (Ledger.handle format o now l).2)
    (h : I (st.ledger key)) : I ((MemoryStorage.handle format o now st).2.ledger key) := by
  rw [(MemoryStorage.handle_ledger format st now o).2]
  split
  · exact hI _ h
  · exact h

theorem MemoryStorage.holds_of_recorded {st : MemoryStorage}
    (h : (MemoryStorage.handle format (.recordInvoice scope r) now st).1 = .ok ()) :
    ((MemoryStorage.handle format (.recordInvoice scope r) now st).2.ledger (scopeKey scope)).Holds
      r := by
  have hself : (MemoryStorage.handle format (.recordInvoice scope r) now st).2.ledger
      (scopeKey scope) = (Ledger.handle format (.recordInvoice scope r) now
        (st.ledger (scopeKey scope))).2 := MemoryStorage.handle_ledger_self format st now _
  rw [(MemoryStorage.handle_ledger format st now (.recordInvoice scope r)).1] at h
  rw [hself]
  exact Ledger.holds_of_recorded format h

/-- A record that was taken before is taken again if and only if its status stands. -/
theorem MemoryStorage.retry_iff {calls : List (StorageOp × Date)} {st : MemoryStorage}
    (hr : Handler.Answered (MemoryStorage.handle format) calls st (.recordInvoice scope r) (.ok ()))
    (now : Date) :
    let final := Handler.steps (MemoryStorage.handle format) calls st
    MemoryStorage.handle format (.recordInvoice scope r) now final = (.ok (),final) ↔
      (final.loadInvoice scope r.invoiceId).map InvoiceRecord.status = some r.status := by
  intro final
  obtain ⟨status,hf⟩ : (final.ledger (scopeKey scope)).Holds r :=
    Handler.holds_of_answered (I := fun st => (st.ledger (scopeKey scope)).Holds r) hr
      (fun now st h => MemoryStorage.holds_of_recorded format h)
      (fun o now st h => MemoryStorage.ledger_step format _ o now
        (fun l => Ledger.holds_step format o now) h)
  have hget : (final.getOrCreateScope (scopeKey scope)).records.get r.invoiceId =
      some { r with status } := by
    rw [← MemoryStorage.find_ledger]
    exact hf
  rw [MemoryStorage.loadInvoice_ledger,hf]
  simp only [MemoryStorage.handle,MemoryStorage.recordInvoice_of_some _ hget]
  by_cases hs : status = r.status
  · subst hs
    simp
  · have hne : ({ r with status } : InvoiceRecord) ≠ r := fun he => hs (congrArg (·.status) he)
    simp [hne,hs]

end memory

section postgres
variable (P : Postgres) (format : InvoiceNumberFormatter) {now : Date} {scope : TenantScope}
  {r : InvoiceRecord} {st : PostgresTables}

namespace PostgresTables

theorem find_insert {scope' : TenantScope} {r' : InvoiceRecord}
    (h : st.find scope' r'.invoiceId = none) {row : InvoiceRow} {id : String}
    (hf : st.find scope id = some row) :
    (st.insert P scope' r' now h).find scope id = some row := by
  unfold find insert at *
  rw [List.find?_append,hf]
  rfl

theorem find_insert_self (h : st.find scope r.invoiceId = none) :
    (st.insert P scope r now h).find scope r.invoiceId = some
      ⟨st.nextId,scope,{ r with validationResults := r.validationResults.map P.jsonb },now⟩ := by
  unfold find insert at *
  rw [List.find?_append,h]
  simp

theorem find_setStatus {scope' : TenantScope} {id id' : String} {status : InvoiceStatus} :
    (st.setStatus scope' id' status).find scope id =
      (st.find scope id).map (withStatus scope' id' status) := by
  unfold find setStatus
  rw [List.find?_map]
  congr 1
  refine congrArg (fun p => st.invoices.find? p) (funext fun row => ?_)
  simp

/-- The row of the document, whatever has become of its status and of its validation results. -/
def Holds (scope : TenantScope) (r : InvoiceRecord) (st : PostgresTables) : Prop :=
  ∃ row, st.find scope r.invoiceId = some row ∧ row.record =
    { r with status := row.record.status, validationResults := row.record.validationResults }

theorem holds_step (o : StorageOp) (now : Date) (h : st.Holds scope r) :
    (PostgresAdapter.handle P format o now st).2.Holds scope r := by
  obtain ⟨row,hf,hrow⟩ := h
  cases o with
  | incrementCounter scope' =>
    rw [PostgresAdapter.handle_incrementCounter]
    dsimp only
    split
    · exact ⟨row,hf,hrow⟩
    · exact ⟨row,hf,hrow⟩
  | getPreviousHash scope' kind => exact ⟨row,hf,hrow⟩
  | loadInvoice scope' id => exact ⟨row,hf,hrow⟩
  | recordInvoice scope' r' =>
    cases hf' : st.find scope' r'.invoiceId with
    | some existing =>
      rw [PostgresAdapter.handle_recordInvoice_of_some _ _ _ _ _ hf']
      exact ⟨row,hf,hrow⟩
    | none =>
      rw [PostgresAdapter.handle_recordInvoice_of_none _ _ _ _ _ hf']
      cases P.refuses r' with
      | some err => exact ⟨row,hf,hrow⟩
      | none => exact ⟨row,find_insert P hf' hf,hrow⟩
  | updateInvoiceStatus scope' id status =>
    rw [PostgresAdapter.handle_updateInvoiceStatus]
    refine ⟨withStatus scope' id status row,by rw [find_setStatus,hf]; rfl,?_⟩
    unfold withStatus
    split
    · rw [hrow]
    · exact hrow

theorem holds_of_recorded
    (h : (PostgresAdapter.handle P format (.recordInvoice scope r) now st).1 = .ok ()) :
    (PostgresAdapter.handle P format (.recordInvoice scope r) now st).2.Holds scope r := by
  cases hf : st.find scope r.invoiceId with
  | some row =>
    rw [PostgresAdapter.handle_recordInvoice_of_some _ _ _ _ _ hf] at h ⊢
    have he : PostgresAdapter.rowToRecord row = r := by
      by_contra hne
      simp [hne] at h
    exact ⟨row,hf,by rw [← he]; rfl⟩
  | none =>
    rw [PostgresAdapter.handle_recordInvoice_of_none _ _ _ _ _ hf] at h ⊢
    cases hr : P.refuses r with
    | some err => simp [hr] at h
    | none => exact ⟨_,find_insert_self P hf,rfl⟩

end PostgresTables

/-- The row still has the status of the record, and its validation results come back as the record
has them. -/
def PostgresTables.ReadsBack (scope : TenantScope) (r : InvoiceRecord) (st : PostgresTables) :
    Prop :=
  ∃ row, st.find scope r.invoiceId = some row ∧ row.record.status = r.status ∧
    (PostgresAdapter.rowToRecord row).validationResults = r.validationResults

/-- A record that was taken before is taken again if and only if its row reads back as it was. -/
theorem PostgresAdapter.retry_iff {calls : List (StorageOp × Date)}
    (hr : Handler.Answered (PostgresAdapter.handle P format) calls st (.recordInvoice scope r)
      (.ok ())) (now : Date) :
    let final := Handler.steps (PostgresAdapter.handle P format) calls st
    PostgresAdapter.handle P format (.recordInvoice scope r) now final = (.ok (),final) ↔
      final.ReadsBack scope r := by
  intro final
  obtain ⟨row,hf,hrow⟩ : final.Holds scope r :=
    Handler.holds_of_answered (I := PostgresTables.Holds scope r) hr
      (fun now st h => PostgresTables.holds_of_recorded P format h)
      (fun o now st h => PostgresTables.holds_step P format o now h)
  rw [PostgresAdapter.handle_recordInvoice_of_some _ _ _ _ _ hf]
  have hsame : PostgresAdapter.rowToRecord row = r ↔ row.record.status = r.status ∧
      (PostgresAdapter.rowToRecord row).validationResults = r.validationResults := by
    unfold PostgresAdapter.rowToRecord
    rw [hrow]
    cases r
    simp
  unfold PostgresTables.ReadsBack
  simp only [hf,Option.some.injEq,exists_eq_left']
  rw [← hsame]
  by_cases he : PostgresAdapter.rowToRecord row = r
  · simp [he]
  · simp [he]

end postgres

/-- Whatever calls came between, in either adapter: no error and nothing changed. -/
theorem recordsAgain_iff (P : Postgres) (format : InvoiceNumberFormatter) (now : Date)
    (scope : TenantScope) (r : InvoiceRecord) :
    (∀ calls memory, Handler.Answered (MemoryStorage.handle format) calls memory
        (.recordInvoice scope r) (.ok ()) →
      let final := Handler.steps (MemoryStorage.handle format) calls memory
      (MemoryStorage.handle format (.recordInvoice scope r) now final = (.ok (),final) ↔
        (final.loadInvoice scope r.invoiceId).map InvoiceRecord.status = some r.status)) ∧
    ∀ calls tables, Handler.Answered (PostgresAdapter.handle P format) calls tables
        (.recordInvoice scope r) (.ok ()) →
      let final := Handler.steps (PostgresAdapter.handle P format) calls tables
      (PostgresAdapter.handle P format (.recordInvoice scope r) now final = (.ok (),final) ↔
        final.ReadsBack scope r) :=
  ⟨fun _ _ hr => MemoryStorage.retry_iff format hr now,
    fun _ _ hr => PostgresAdapter.retry_iff P format hr now⟩

namespace Sample

def document : InvoiceRecord where
  invoiceId := "5d2c1a60-0000-4000-8000-000000000001"
  kind := .simplifiedTaxInvoice
  serial := "202605000001"
  counterNumber := 1
  uuid := scope.egsUuid
  invoiceHash := "digest 1"
  previousInvoiceHash := ZATCA_BASE_INVOICE_HASH
  signedXml := "simplified-tax-invoice 202605000001"
  qrBase64 := "qr"
  issuedAt := clock
  status := .pending

/-- The document is recorded, and then its status changes. -/
def settled (status : InvoiceStatus) : List (StorageOp × Date) :=
  [(.recordInvoice scope document,clock),
    (.updateInvoiceStatus scope document.invoiceId status,clock)]

end Sample

/-- A status that is written again as it was stands in nobody's way. -/
theorem recordsAgain_of_unchanged :
    MemoryStorage.handle defaultFormatter (.recordInvoice Sample.scope Sample.document) Sample.clock
        (Handler.steps (MemoryStorage.handle defaultFormatter) (Sample.settled .pending) .empty) =
      (.ok (),Handler.steps (MemoryStorage.handle defaultFormatter) (Sample.settled .pending)
        .empty) :=
  ((recordsAgain_iff Sample.postgres defaultFormatter Sample.clock Sample.scope Sample.document).1
    (Sample.settled .pending) .empty ⟨[],_,_,rfl,rfl⟩).2 rfl

/-- After the gateway has accepted the document, its issuer's retry is refused. -/
theorem recordsAgain_fails_after_status :
    ¬ (∀ calls memory, Handler.Answered (MemoryStorage.handle defaultFormatter) calls memory
        (.recordInvoice Sample.scope Sample.document) (.ok ()) →
      (MemoryStorage.handle defaultFormatter (.recordInvoice Sample.scope Sample.document)
        Sample.clock (Handler.steps (MemoryStorage.handle defaultFormatter) calls memory)).1 =
          .ok ()) ∧
    ¬ ∀ calls tables, Handler.Answered (PostgresAdapter.handle Sample.postgres defaultFormatter)
        calls tables (.recordInvoice Sample.scope Sample.document) (.ok ()) →
      (PostgresAdapter.handle Sample.postgres defaultFormatter
        (.recordInvoice Sample.scope Sample.document) Sample.clock
        (Handler.steps (PostgresAdapter.handle Sample.postgres defaultFormatter) calls tables)).1 =
          .ok () := by
  constructor
  · intro hall
    cases hall (Sample.settled .accepted) .empty ⟨[],_,_,rfl,rfl⟩
  · intro hall
    cases hall (Sample.settled .accepted) .empty ⟨[],_,_,rfl,rfl⟩

/-! ### One record, stored and read back -/

section roundTrip
variable (P : Postgres) (format : InvoiceNumberFormatter) (now later : Date) (scope : TenantScope)
  (r : InvoiceRecord) (st : PostgresTables)

/-- The record is stored, what is loaded then is equal to it, and the retry changes nothing. -/
def RoundTrips : Prop :=
  ∃ st' loaded,
    PostgresAdapter.handle P format (.recordInvoice scope r) now st = (.ok (),st') ∧
    PostgresAdapter.handle P format (.loadInvoice scope r.invoiceId) later st' =
      (.ok (some loaded),st') ∧
    recordsEqual loaded r ∧
    PostgresAdapter.handle P format (.recordInvoice scope r) later st' = (.ok (),st')

theorem filter_map_jsonb {results : Option Json} :
    (results.map P.jsonb).filter (fun v => v ≠ .null) = results ↔
      ∀ v ∈ results, v ≠ .null ∧ P.jsonb v = v := by
  cases results with
  | none => simp
  | some v =>
    by_cases hv : P.jsonb v = .null
    · constructor
      · intro h
        simp [hv,Option.filter] at h
      · intro h
        have hback := h v rfl
        exact absurd (hback.2.symm.trans hv) hback.1
    · have hkeep : (some (P.jsonb v)).filter (fun v => v ≠ .null) = some (P.jsonb v) := by
        simp [Option.filter,hv]
      rw [Option.map_some,hkeep]
      constructor
      · intro h
        have hback : P.jsonb v = v := Option.some.inj h
        rintro w ⟨⟩
        exact ⟨hback ▸ hv,hback⟩
      · intro h
        rw [(h v rfl).2]

/-- A record survives if and only if the database takes it and the `jsonb` column gives its
validation results back as they were: not null, and with every key in its place. -/
theorem roundTrips_iff (h : st.find scope r.invoiceId = none) :
    RoundTrips P format now later scope r st ↔
      P.refuses r = none ∧ ∀ v ∈ r.validationResults, v ≠ .null ∧ P.jsonb v = v := by
  unfold RoundTrips
  rw [PostgresAdapter.handle_recordInvoice_of_none _ _ _ _ _ h]
  cases hr : P.refuses r with
  | some err => simp
  | none =>
    have hf := @PostgresTables.find_insert_self P now _ _ _ h
    have hsame : PostgresAdapter.rowToRecord ⟨st.nextId,scope,
        { r with validationResults := r.validationResults.map P.jsonb },now⟩ = r ↔
          ∀ v ∈ r.validationResults, v ≠ .null ∧ P.jsonb v = v := by
      rw [← filter_map_jsonb]
      cases r
      simp [PostgresAdapter.rowToRecord]
    simp only [Prod.mk.injEq,true_and,exists_and_left,exists_eq_left']
    rw [PostgresAdapter.handle_loadInvoice,hf,
      PostgresAdapter.handle_recordInvoice_of_some _ _ _ _ _ hf]
    simp only [Option.map_some,Prod.mk.injEq,Except.ok.injEq,Option.some.injEq,and_true,
      exists_eq_left',recordsEqual_iff]
    rw [← hsame]
    constructor
    · rintro ⟨he,-⟩
      exact he
    · intro he
      exact ⟨he,by rw [if_pos he]⟩

end roundTrip

namespace Sample

def withResults (results : Json) : InvoiceRecord :=
  { document with validationResults := some results }

end Sample

/-- Shorter keys first, as the column has them. -/
theorem roundTrips_in_column_order :
    RoundTrips Sample.postgres defaultFormatter Sample.clock Sample.clock Sample.scope
      (Sample.withResults (.obj [("status",.str "PASS"),("infoMessages",.arr [])])) .empty := by
  refine (roundTrips_iff Sample.postgres defaultFormatter Sample.clock Sample.clock Sample.scope
    (Sample.withResults (.obj [("status",.str "PASS"),("infoMessages",.arr [])])) .empty rfl).2
      ⟨rfl,?_⟩
  rintro v ⟨⟩
  exact ⟨nofun,by decide⟩

/-- A null is left out when the row is read, and keys come back in the column's order. -/
theorem roundTrips_fails_on_null_and_order :
    ¬ RoundTrips Sample.postgres defaultFormatter Sample.clock Sample.clock Sample.scope
        (Sample.withResults .null) .empty ∧
      ¬ RoundTrips Sample.postgres defaultFormatter Sample.clock Sample.clock Sample.scope
        (Sample.withResults (.obj [("infoMessages",.arr []),("status",.str "PASS")])) .empty := by
  constructor
  · rintro ⟨st',loaded,h₁,h₂,h₃,-⟩
    cases h₁
    cases h₂
    revert h₃
    decide
  · rintro ⟨st',loaded,h₁,h₂,h₃,-⟩
    cases h₁
    cases h₂
    revert h₃
    decide

end Zatca
