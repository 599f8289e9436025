import Zatca.Storage.Memory
set_option autoImplicit false

/-! What a storage backend is for: every scope has a counter a month and one list of the
documents it has issued, in the order in which they were recorded. The memory adapter is a
family of such ledgers, one for each scope key. -/

namespace Zatca
open Interaction

structure Ledger where
  sequence : YearMonth → Nat
  records : List InvoiceRecord
  nodup : (records.map InvoiceRecord.invoiceId).Nodup

namespace Ledger

def empty : Ledger := ⟨fun _ => 0,[],List.nodup_nil⟩

def next (m : YearMonth) (l : Ledger) : Ledger :=
  { l with sequence := Function.update l.sequence m (l.sequence m + 1) }

@[simp] theorem next_records (m : YearMonth) (l : Ledger) : (l.next m).records = l.records := rfl

theorem next_sequence_self (m : YearMonth) (l : Ledger) :
    (l.next m).sequence m = l.sequence m + 1 := by simp [next]

/-- The number handed out in the month of the reading. -/
def counter (format : InvoiceNumberFormatter) (now : Date) (scope : TenantScope) (l : Ledger) :
    CounterValue :=
  let m := yearMonthFor now
  let sequence := l.sequence m.yearMonth + 1
  ⟨sequence,format
    { scope, sequence, yearMonth := m.yearMonth.1, year := m.year, month := m.month }⟩

def head (kind : Option InvoiceKind) (l : Ledger) : String :=
  (lastHash (ChainKey.ofOption kind) l.records).getD ZATCA_BASE_INVOICE_HASH

def find (invoiceId : String) (l : Ledger) : Option InvoiceRecord :=
  l.records.find? (fun r => r.invoiceId = invoiceId)

theorem find_eq_none {l : Ledger} {invoiceId : String} :
    l.find invoiceId = none ↔ invoiceId ∉ l.records.map InvoiceRecord.invoiceId := by
  simp [find]

def append (l : Ledger) (r : InvoiceRecord) (h : l.find r.invoiceId = none) : Ledger where
  sequence := l.sequence
  records := l.records ++ [r]
  nodup := by
    rw [find_eq_none] at h
    rw [List.map_append,List.nodup_append]
    refine ⟨l.nodup,by simp,?_⟩
    rintro id hid _ hr rfl
    rw [List.map_singleton,List.mem_singleton] at hr
    exact h (hr ▸ hid)

def setStatus (l : Ledger) (invoiceId : String) (status : InvoiceStatus) : Ledger where
  sequence := l.sequence
  records := l.records.map (fun r => if r.invoiceId = invoiceId then { r with status } else r)
  nodup := by
    have hid : (l.records.map (fun r => if r.invoiceId = invoiceId then { r with status } else r)).map
        InvoiceRecord.invoiceId = l.records.map InvoiceRecord.invoiceId := by
      rw [List.map_map]
      refine List.map_congr_left fun r _ => ?_
      by_cases h : r.invoiceId = invoiceId
      · simp [h]
      · simp [h]
    rw [hid]
    exact l.nodup

/-- The ledger's own account of the interface; the scope of the call is the ledger itself. -/
def handle (format : InvoiceNumberFormatter) : Handler StorageAdapter Thrown Ledger Date
  | .incrementCounter scope, now, l =>
      (.ok (l.counter format now scope),l.next (yearMonthFor now).yearMonth)
  | .getPreviousHash _ invoiceKind, _, l => (.ok (l.head invoiceKind),l)
  | .recordInvoice _ record, _, l =>
      match h : l.find record.invoiceId with
      | some existing =>
          if existing = record then (.ok (),l)
          else (.error (MemoryStorage.recordConflict record.invoiceId),l)
      | none => (.ok (),l.append record h)
  | .loadInvoice _ invoiceId, _, l => (.ok (l.find invoiceId),l)
  | .updateInvoiceStatus _ invoiceId status, _, l =>
      match l.find invoiceId with
      | none => (.error (MemoryStorage.unknownInvoice invoiceId),l)
      | some _ => (.ok (),l.setStatus invoiceId status)

theorem ext' {l l' : Ledger} (hs : l.sequence = l'.sequence) (hr : l.records = l'.records) :
    l = l' := by
  cases l; cases l'
  simp_all

end Ledger

def StorageOp.scope : StorageOp → TenantScope
  | .incrementCounter s | .getPreviousHash s _ | .recordInvoice s _ | .loadInvoice s _
  | .updateInvoiceStatus s _ _ => s

namespace MemoryStorage

/-- The ledger that the adapter keeps under a scope key. -/
def ledger (st : MemoryStorage) (key : String) : Ledger where
  sequence m := (st.counters.get (counterRow key m)).getD 0
  records := (st.getOrCreateScope key).records.values
  nodup := by
    rw [JsMap.map_key_values (st.getOrCreateScope key).keyed]
    exact (st.getOrCreateScope key).records.nodup

variable (format : InvoiceNumberFormatter) (st : MemoryStorage) (now : Date)

@[simp] theorem ledger_empty (key : String) : empty.ledger key = .empty := rfl

theorem find_ledger (key id : String) : (st.ledger key).find id = (st.getOrCreateScope key).records.get id :=
  JsMap.find_values_eq_get (st.getOrCreateScope key).keyed id

theorem head_ledger (key : String) (kind : Option InvoiceKind) :
    (st.ledger key).head kind =
      ((st.getOrCreateScope key).chainHead.get (ChainKey.ofOption kind)).getD ZATCA_BASE_INVOICE_HASH := by
  rw [(st.getOrCreateScope key).heads]
  rfl

/-- A counter row of one scope and month is read under no other. -/
theorem incrementCounter_ledger (scope : TenantScope) (key : String) :
    (st.incrementCounter format now scope).2.ledger key =
      if key = scopeKey scope then (st.ledger key).next (yearMonthFor now).yearMonth
      else st.ledger key := by
  have hrow (m : YearMonth) : counterRow key m = counterKey scope (yearMonthFor now).yearMonth ↔
      key = scopeKey scope ∧ m = (yearMonthFor now).yearMonth :=
    ⟨counterRow_inj,fun ⟨hk,hm⟩ => by rw [hk,hm]; rfl⟩
  by_cases hk : key = scopeKey scope
  · subst hk
    rw [if_pos rfl]
    refine Ledger.ext' (funext fun m => ?_) rfl
    simp only [incrementCounter,ledger,Ledger.next,Function.update_apply,JsMap.get_set,hrow,
      true_and]
    split
    · rfl
    · rfl
  · rw [if_neg hk]
    refine Ledger.ext' (funext fun m => ?_) rfl
    simp only [incrementCounter,ledger,JsMap.get_set,hrow,hk,false_and,if_false]

theorem getOrCreateScope_set (key key' : String) (c : ScopeCell) :
    getOrCreateScope { st with scopes := st.scopes.set key c } key' =
      if key' = key then c else st.getOrCreateScope key' := by
  unfold getOrCreateScope
  rw [JsMap.get_set]
  split
  · rfl
  · rfl

theorem getPreviousHash_ledger (scope : TenantScope) (kind : Option InvoiceKind) :
    st.getPreviousHash scope kind = (st.ledger (scopeKey scope)).head kind := by
  rw [head_ledger]
  unfold getPreviousHash getOrCreateScope
  cases st.scopes.get (scopeKey scope) with
  | none => rfl
  | some c => rfl

theorem loadInvoice_ledger (scope : TenantScope) (id : String) :
    st.loadInvoice scope id = (st.ledger (scopeKey scope)).find id := by
  rw [find_ledger]
  unfold loadInvoice getOrCreateScope
  cases st.scopes.get (scopeKey scope) with
  | none => rfl
  | some c => rfl

theorem ledger_set_of_ne {key key' : String} (c : ScopeCell) (h : key' ≠ key) :
    ledger { st with scopes := st.scopes.set key c } key' = st.ledger key' := by
  refine Ledger.ext' rfl ?_
  show (getOrCreateScope _ key').records.values = _
  rw [getOrCreateScope_set,if_neg h]
  rfl

theorem ledger_set_self (key : String) (c : ScopeCell) (l : Ledger)
    (hs : l.sequence = (st.ledger key).sequence) (hr : l.records = c.records.values) :
    ledger { st with scopes := st.scopes.set key c } key = l := by
  refine Ledger.ext' hs.symm ?_
  show (getOrCreateScope _ key).records.values = _
  rw [getOrCreateScope_set,if_pos rfl,hr]

theorem recordInvoice_of_some {scope : TenantScope} {r existing : InvoiceRecord}
    (h : (st.getOrCreateScope (scopeKey scope)).records.get r.invoiceId = some existing) :
    st.recordInvoice scope r =
      if existing = r then .ok st else .error (recordConflict r.invoiceId) := by
  unfold recordInvoice
  simp only [recordsEqual_iff]
  split
  · rename_i existing' h'
    have he : existing' = existing := Option.some.inj (h'.symm.trans h)
    rw [he]
  · rename_i h'
    cases h'.symm.trans h

theorem recordInvoice_of_none {scope : TenantScope} {r : InvoiceRecord}
    (h : (st.getOrCreateScope (scopeKey scope)).records.get r.invoiceId = none) :
    st.recordInvoice scope r = .ok { st with
      scopes := st.scopes.set (scopeKey scope) ((st.getOrCreateScope (scopeKey scope)).add r h) } := by
  unfold recordInvoice
  split
  · rename_i h'
    cases h'.symm.trans h
  · rfl

theorem updateInvoiceStatus_of_none {scope : TenantScope} {id : String} {status : InvoiceStatus}
    (h : (st.getOrCreateScope (scopeKey scope)).records.get id = none) :
    st.updateInvoiceStatus scope id status = .error (unknownInvoice id) := by
  unfold updateInvoiceStatus
  unfold getOrCreateScope at h
  cases hc : st.scopes.get (scopeKey scope) with
  | none => rfl
  | some c =>
    rw [hc] at h
    simp only
    split
    · rfl
    · rename_i h'
      cases h'.symm.trans h

theorem updateInvoiceStatus_of_some {scope : TenantScope} {id : String} {r : InvoiceRecord}
    {status : InvoiceStatus} (h : (st.getOrCreateScope (scopeKey scope)).records.get id = some r) :
    st.updateInvoiceStatus scope id status = .ok { st with
      scopes := st.scopes.set (scopeKey scope)
        ((st.getOrCreateScope (scopeKey scope)).setStatus h status) } := by
  unfold updateInvoiceStatus
  cases hc : st.scopes.get (scopeKey scope) with
  | none => simp [getOrCreateScope,hc,ScopeCell.empty] at h
  | some c =>
    have hcell : st.getOrCreateScope (scopeKey scope) = c := by simp [getOrCreateScope,hc]
    simp only
    split
    · rename_i h'
      rw [hcell] at h
      cases h'.symm.trans h
    · rename_i r' h'
      subst hcell
      have hr : r' = r := Option.some.inj (h'.symm.trans h)
      subst hr
      rfl

end MemoryStorage

namespace Ledger

variable (format : InvoiceNumberFormatter) (now : Date) (scope : TenantScope) (l : Ledger)

theorem handle_record_of_some {r existing : InvoiceRecord}
    (h : l.find r.invoiceId = some existing) :
    handle format (.recordInvoice scope r) now l =
      (if existing = r then .ok () else .error (MemoryStorage.recordConflict r.invoiceId),l) := by
  simp only [handle]
  split
  · rename_i existing' h'
    have he : existing' = existing := Option.some.inj (h'.symm.trans h)
    rw [he]
    split
    · rfl
    · rfl
  · rename_i h'
    cases h'.symm.trans h

theorem handle_record_of_none {r : InvoiceRecord} (h : l.find r.invoiceId = none) :
    handle format (.recordInvoice scope r) now l = (.ok (),l.append r h) := by
  simp only [handle]
  split
  · rename_i h'
    cases h'.symm.trans h
  · rfl

end Ledger

namespace MemoryStorage

variable (format : InvoiceNumberFormatter) (st : MemoryStorage) (now : Date)

theorem recordInvoice_ledger (scope : TenantScope) (r : InvoiceRecord) :
    (handle format (.recordInvoice scope r) now st).1 =
        (Ledger.handle format (.recordInvoice scope r) now (st.ledger (scopeKey scope))).1 ∧
      ∀ key, (handle format (.recordInvoice scope r) now st).2.ledger key =
        if key = scopeKey scope then
          (Ledger.handle format (.recordInvoice scope r) now (st.ledger key)).2
        else st.ledger key := by
  have hf := find_ledger st (scopeKey scope) r.invoiceId
  cases hg : (st.getOrCreateScope (scopeKey scope)).records.get r.invoiceId with
  | some existing =>
    have hl := Ledger.handle_record_of_some format now scope _ (hf.trans hg)
    rw [hl]
    simp only [handle,recordInvoice_of_some st hg]
    by_cases he : existing = r
    · simp only [he,if_true,true_and]
      intro key
      split
      · rename_i hk
        subst hk
        rw [hl]
      · rfl
    · simp only [he,if_false,true_and]
      intro key
      split
      · rename_i hk
        subst hk
        rw [hl]
      · rfl
  | none =>
    have hl := Ledger.handle_record_of_none format now scope _ (hf.trans hg)
    rw [hl]
    simp only [handle,recordInvoice_of_none st hg,true_and]
    intro key
    by_cases hk : key = scopeKey scope
    · subst hk
      rw [if_pos rfl,hl]
      exact ledger_set_self st _ _ _ rfl (JsMap.values_set_of_none r hg).symm
    · rw [if_neg hk,ledger_set_of_ne st _ hk]

theorem updateInvoiceStatus_ledger (scope : TenantScope) (id : String) (status : InvoiceStatus) :
    (handle format (.updateInvoiceStatus scope id status) now st).1 =
        (Ledger.handle format (.updateInvoiceStatus scope id status) now
          (st.ledger (scopeKey scope))).1 ∧
      ∀ key, (handle format (.updateInvoiceStatus scope id status) now st).2.ledger key =
        if key = scopeKey scope then
          (Ledger.handle format (.updateInvoiceStatus scope id status) now (st.ledger key)).2
        else st.ledger key := by
  have hf := find_ledger st (scopeKey scope) id
  cases hg : (st.getOrCreateScope (scopeKey scope)).records.get id with
  | none =>
    rw [hg] at hf
    simp only [handle,updateInvoiceStatus_of_none st hg,Ledger.handle,hf,true_and]
    intro key
    split
    · rename_i hk
      rw [hk,hf]
    · rfl
  | some r =>
    rw [hg] at hf
    simp only [handle,updateInvoiceStatus_of_some st hg,Ledger.handle,hf,true_and]
    intro key
    by_cases hk : key = scopeKey scope
    · subst hk
      rw [if_pos rfl,hf]
      refine ledger_set_self st _ _ _ rfl ?_
      have hid (id' : String) (r' : InvoiceRecord)
          (h : (st.getOrCreateScope (scopeKey scope)).records.get id' = some r') :
          r'.invoiceId = id ↔ id' = id := by
        rw [(st.getOrCreateScope (scopeKey scope)).keyed id' r' h]
      refine Eq.trans ?_ (JsMap.values_set_of_some hg hid).symm
      refine List.map_congr_left fun r' hr' => ?_
      split
      · rename_i hid'
        obtain ⟨id'',hg'⟩ := JsMap.mem_values_iff.1 hr'
        rw [(hid id'' r' hg').1 hid'] at hg'
        rw [Option.some.inj (hg'.symm.trans hg)]
      · rfl
    · rw [if_neg hk,ledger_set_of_ne st _ hk]

/-- The adapter answers every call as the ledger of the call's scope does, and moves that ledger
only. -/
theorem handle_ledger (o : StorageOp) :
    (handle format o now st).1 =
        (Ledger.handle format o now (st.ledger (scopeKey o.scope))).1 ∧
      ∀ key, (handle format o now st).2.ledger key =
        if key = scopeKey o.scope then (Ledger.handle format o now (st.ledger key)).2
        else st.ledger key := by
  cases o with
  | incrementCounter scope =>
    exact ⟨rfl,incrementCounter_ledger format st now scope⟩
  | getPreviousHash scope kind =>
    refine ⟨?_,fun key => ?_⟩
    · simp only [handle,Ledger.handle,getPreviousHash_ledger]
      rfl
    · simp only [handle,Ledger.handle,ite_self]
  | recordInvoice scope r => exact recordInvoice_ledger format st now scope r
  | loadInvoice scope id =>
    refine ⟨?_,fun key => ?_⟩
    · simp only [handle,Ledger.handle,loadInvoice_ledger]
      rfl
    · simp only [handle,Ledger.handle,ite_self]
  | updateInvoiceStatus scope id status => exact updateInvoiceStatus_ledger format st now scope id status

theorem handle_ledger_self (o : StorageOp) :
    (handle format o now st).2.ledger (scopeKey o.scope) =
      (Ledger.handle format o now (st.ledger (scopeKey o.scope))).2 := by
  rw [(handle_ledger format st now o).2,if_pos rfl]

/-- A program that stays within one scope runs on the adapter as on that scope's ledger. -/
theorem exec_ledger {α : Type} {p : Program StorageAdapter Thrown α} {scope : TenantScope}
    (hp : p.Calls (fun o => StorageOp.scope o = scope)) (script : Nat → Date) :
    (p.exec (handle format) script st).1 =
        (p.exec (Ledger.handle format) script (st.ledger (scopeKey scope))).1 ∧
      (p.exec (handle format) script st).2.ledger (scopeKey scope) =
        (p.exec (Ledger.handle format) script (st.ledger (scopeKey scope))).2 := by
  refine Program.exec_simulation (fun s => s.ledger (scopeKey scope)) ?_ hp script st
  rintro o now st rfl
  exact ⟨(handle_ledger format st now o).1,handle_ledger_self format st now o⟩

end MemoryStorage
end Zatca
