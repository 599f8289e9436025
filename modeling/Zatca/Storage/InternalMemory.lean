import Zatca.Core.Onboard
import Zatca.Storage.Ledger
set_option autoImplicit false

/-! The storage that the compliance run makes for itself. One counter and one head a scope, and a
record is overwritten where the other adapters refuse it. -/

namespace Zatca
open Interaction

/-- The state of `createInternalMemoryStorage`. -/
structure InternalMemoryStorage where
  counters : JsMap String Nat
  previousHash : JsMap String String
  records : JsMap String InvoiceRecord

namespace InternalMemoryStorage

def empty : InternalMemoryStorage := ⟨.empty,.empty,.empty⟩

def recordKey (scope : TenantScope) (invoiceId : String) : String :=
  scopeKey scope ++ ":" ++ invoiceId

def handle : Handler StorageAdapter Thrown InternalMemoryStorage Unit
  | .incrementCounter scope, _, st =>
      let next := (st.counters.get (scopeKey scope)).getD 0 + 1
      (.ok ⟨next,"INV-" ++ padStart (toString next) 4 '0'⟩,
        { st with counters := st.counters.set (scopeKey scope) next })
  | .getPreviousHash scope _, _, st =>
      (.ok ((st.previousHash.get (scopeKey scope)).getD ZATCA_BASE_INVOICE_HASH),st)
  | .recordInvoice scope record, _, st =>
      (.ok (),{ st with
        records := st.records.set (recordKey scope record.invoiceId) record
        previousHash := st.previousHash.set (scopeKey scope) record.invoiceHash })
  | .loadInvoice scope invoiceId, _, st => (.ok (st.records.get (recordKey scope invoiceId)),st)
  | .updateInvoiceStatus scope invoiceId status, _, st =>
      match st.records.get (recordKey scope invoiceId) with
      | none => (.error (MemoryStorage.unknownInvoice invoiceId),st)
      | some existing => (.ok (),{ st with
          records := st.records.set (recordKey scope invoiceId) { existing with status } })

end InternalMemoryStorage

/-! ### The run has one scope -/

/-- The adapter as it looks from one scope. -/
structure InternalStorage.Mirrors (scope : TenantScope) (st : InternalMemoryStorage)
    (own : InternalStorage) : Prop where
  counter : (st.counters.get (scopeKey scope)).getD 0 = own.counter
  previousHash : st.previousHash.get (scopeKey scope) = own.previousHash
  records : ∀ id, st.records.get (InternalMemoryStorage.recordKey scope id) =
    own.records.find? fun r => r.invoiceId = id

namespace InternalStorage

theorem recordKey_inj {scope : TenantScope} {id id' : String}
    (h : InternalMemoryStorage.recordKey scope id = InternalMemoryStorage.recordKey scope id') :
    id = id' := by
  have hchars := congrArg String.toList h
  simp only [InternalMemoryStorage.recordKey,String.toList_append] at hchars
  exact String.toList_inj.1 (List.append_cancel_left hchars)

theorem mirrors_empty (scope : TenantScope) : Mirrors scope .empty {} :=
  ⟨rfl,rfl,fun _ => rfl⟩

theorem find_filter_ne (records : List InvoiceRecord) {id id' : String} (hne : id' ≠ id) :
    (records.filter fun r => r.invoiceId ≠ id).find? (fun r => r.invoiceId = id') =
      records.find? fun r => r.invoiceId = id' := by
  rw [List.find?_filter]
  refine congrArg (fun p => records.find? p) (funext fun r => ?_)
  by_cases hr : r.invoiceId = id'
  · simp [hr,hne]
  · simp [hr]

theorem find_map_status (records : List InvoiceRecord) (id id' : String) (status : InvoiceStatus) :
    (records.map fun r => if r.invoiceId = id then { r with status } else r).find?
        (fun r => r.invoiceId = id') =
      (records.find? fun r => r.invoiceId = id').map
        fun r => if id' = id then { r with status } else r := by
  induction records with
  | nil => rfl
  | cons r records ih =>
    by_cases hr : r.invoiceId = id
    · by_cases hid : id = id'
      · simp [hr,hid]
      · have hid' : ¬ id' = id := fun h => hid h.symm
        simpa [hr,hid,hid',List.find?_cons] using ih
    · by_cases hr' : r.invoiceId = id'
      · subst hr'
        simp [hr]
      · simpa [hr,hr',List.find?_cons] using ih

/-- The calls of one scope are answered by what the adapter keeps for it. -/
theorem mirrors_handle {scope : TenantScope} (o : StorageOp) (x : Unit) (st : InternalMemoryStorage)
    (own : InternalStorage) (ho : o.scope = scope) (h : Mirrors scope st own) :
    (InternalMemoryStorage.handle o x st).1 = (InternalStorage.handle o x own).1 ∧
      Mirrors scope (InternalMemoryStorage.handle o x st).2 (InternalStorage.handle o x own).2 := by
  subst ho
  cases o with
  | incrementCounter scope =>
    have hcounter : (st.counters.get (scopeKey scope)).getD 0 = own.counter := h.counter
    simp only [InternalMemoryStorage.handle,InternalStorage.handle,hcounter,true_and]
    exact ⟨by simp [StorageOp.scope],h.previousHash,h.records⟩
  | getPreviousHash scope kind =>
    have hhead : st.previousHash.get (scopeKey scope) = own.previousHash := h.previousHash
    simp only [InternalMemoryStorage.handle,InternalStorage.handle,hhead,true_and]
    exact h
  | recordInvoice scope r =>
    simp only [InternalMemoryStorage.handle,InternalStorage.handle,true_and]
    refine ⟨h.counter,by simp [StorageOp.scope],fun id => ?_⟩
    have hrecords := h.records id
    simp only [StorageOp.scope] at hrecords ⊢
    rw [JsMap.get_set,List.find?_append]
    by_cases hid : id = r.invoiceId
    · have hnone : (own.records.filter fun r' => r'.invoiceId ≠ r.invoiceId).find?
          (fun r' => r'.invoiceId = r.invoiceId) = none := by
        rw [List.find?_eq_none]
        intro r' hr'
        simpa using (List.mem_filter.1 hr').2
      rw [hid,hnone]
      simp
    · have hkey : ¬ InternalMemoryStorage.recordKey scope id =
          InternalMemoryStorage.recordKey scope r.invoiceId := fun hk => hid (recordKey_inj hk)
      rw [if_neg hkey,find_filter_ne _ hid,hrecords]
      simp [Ne.symm hid]
  | loadInvoice scope id =>
    have hrecords := h.records id
    simp only [StorageOp.scope] at hrecords
    simp only [InternalMemoryStorage.handle,InternalStorage.handle,hrecords,true_and]
    exact h
  | updateInvoiceStatus scope id status =>
    have hrecords := h.records id
    simp only [StorageOp.scope] at hrecords
    simp only [InternalMemoryStorage.handle,InternalStorage.handle,hrecords]
    cases hfind : own.records.find? (fun r => r.invoiceId = id) with
    | none => exact ⟨rfl,h⟩
    | some existing =>
      rw [hfind] at hrecords
      refine ⟨rfl,h.counter,h.previousHash,fun id' => ?_⟩
      have hrecords' := h.records id'
      simp only [StorageOp.scope] at hrecords' ⊢
      rw [JsMap.get_set,find_map_status]
      by_cases hid : id' = id
      · rw [hid,hfind]
        simp
      · have hkey : ¬ InternalMemoryStorage.recordKey scope id' =
            InternalMemoryStorage.recordKey scope id := fun hk => hid (recordKey_inj hk)
        simp [hkey,hid,hrecords']

/-- A program of one scope runs on the adapter as on what the run keeps of it. -/
theorem exec_mirrors {α : Type} {p : Program StorageAdapter Thrown α} {scope : TenantScope}
    (hp : p.Calls fun o => StorageOp.scope o = scope) (script : Nat → Unit)
    {st : InternalMemoryStorage} {own : InternalStorage} (h : Mirrors scope st own) :
    (p.exec InternalMemoryStorage.handle script st).1 =
        (p.exec InternalStorage.handle script own).1 ∧
      Mirrors scope (p.exec InternalMemoryStorage.handle script st).2
        (p.exec InternalStorage.handle script own).2 :=
  Program.exec_related mirrors_handle hp script h

end InternalStorage
end Zatca
