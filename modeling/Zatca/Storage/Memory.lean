import Zatca.Core.Issue
import Zatca.Library.HashChain
import Zatca.Library.JsMap
set_option autoImplicit false
namespace Zatca
open Interaction

/-- `yearMonth` of a counter row: digits and a sign, never the separator of the row's key. -/
abbrev YearMonth := {s : String // ':' ∉ s.toList}

theorem colon_notMem_repr (n : Int) : ':' ∉ (toString n).toList := by
  have hn (m : Nat) : ':' ∉ (Nat.repr m).toList := by
    intro h
    have hd : ':' ∈ Nat.toDigits 10 m := by simpa [Nat.repr] using h
    have := Nat.isDigit_of_mem_toDigits (by decide) (by decide) hd
    exact absurd this (by decide)
  rw [Int.toString_eq_repr]
  cases n with
  | ofNat m => exact hn m
  | negSucc m =>
    simp only [Int.repr,String.toList_append,List.mem_append,not_or]
    exact ⟨by decide,hn _⟩

theorem colon_notMem_padStart (n k : Nat) : ':' ∉ (padStart (toString n) k '0').toList := by
  simp only [padStart,String.toList_append,String.toList_ofList,List.mem_append,not_or]
  refine ⟨fun h => ?_,colon_notMem_repr n⟩
  exact absurd (List.eq_of_mem_replicate h) (by decide)

def yearMonthText (year : Int) (month : Nat) : YearMonth :=
  ⟨toString year ++ padStart (toString month) 2 '0',by
    rw [String.toList_append,List.mem_append,not_or]
    exact ⟨colon_notMem_repr _,colon_notMem_padStart _ _⟩⟩

/-- The month of a UTC clock reading, with the text the counter row is keyed by. -/
structure YearMonthFor where
  yearMonth : YearMonth
  year : Int
  month : Nat

def yearMonthFor (date : Date) : YearMonthFor where
  year := date.getUTCFullYear
  month := date.utcMonth
  yearMonth := yearMonthText date.getUTCFullYear date.utcMonth

structure FormatInput where
  scope : TenantScope
  sequence : Nat
  yearMonth : String
  year : Int
  month : Nat

abbrev InvoiceNumberFormatter := FormatInput → String

def defaultFormatter : InvoiceNumberFormatter := fun i =>
  toString i.year ++ padStart (toString i.month) 2 '0' ++ padStart (toString i.sequence) 6 '0'

def scopeKey (scope : TenantScope) : String := scope.vatNumber ++ ":" ++ scope.egsUuid

def counterRow (key : String) (yearMonth : YearMonth) : String := key ++ ":" ++ yearMonth.1

def counterKey (scope : TenantScope) (yearMonth : YearMonth) : String :=
  counterRow (scopeKey scope) yearMonth

theorem append_colon_inj {a b c d : List Char} (hb : ':' ∉ b) (hd : ':' ∉ d)
    (h : a ++ ':' :: b = c ++ ':' :: d) : a = c ∧ b = d := by
  rcases List.append_eq_append_iff.1 h with ⟨e,rfl,he⟩ | ⟨e,rfl,he⟩
  · cases e with
    | nil => simp_all
    | cons x e =>
      rw [List.cons_append,List.cons.injEq] at he
      exact absurd (by rw [he.2]; simp) hb
  · cases e with
    | nil => simp_all
    | cons x e =>
      rw [List.cons_append,List.cons.injEq] at he
      exact absurd (by rw [he.2]; simp) hd

theorem counterRow_inj {k k' : String} {m m' : YearMonth} (h : counterRow k m = counterRow k' m') :
    k = k' ∧ m = m' := by
  have hc : k.toList ++ ':' :: m.1.toList = k'.toList ++ ':' :: m'.1.toList := by
    simpa [counterRow,String.toList_append] using congrArg String.toList h
  have := append_colon_inj m.2 m'.2 hc
  exact ⟨String.toList_inj.1 this.1,Subtype.ext (String.toList_inj.1 this.2)⟩

/-- The chain a head belongs to: `"__any__"` or the chain of one kind. -/
inductive ChainKey where
  | any
  | kind (kind : InvoiceKind)
  deriving DecidableEq, Repr

namespace ChainKey

def covers : ChainKey → InvoiceRecord → Bool
  | .any, _ => true
  | .kind k, r => r.kind = k

def ofOption : Option InvoiceKind → ChainKey
  | none => .any
  | some k => .kind k

end ChainKey

/-- Digest of the last of the records on the chain. -/
def lastHash (key : ChainKey) (records : List InvoiceRecord) : Option String :=
  (records.filter key.covers).getLast?.map InvoiceRecord.invoiceHash

theorem lastHash_append (key : ChainKey) (records : List InvoiceRecord) (r : InvoiceRecord) :
    lastHash key (records ++ [r]) =
      if key.covers r then some r.invoiceHash else lastHash key records := by
  by_cases h : key.covers r
  · simp [lastHash,List.filter_append,h]
  · simp [lastHash,List.filter_append,h]

/-- Only the kinds and digests of the records decide the heads. -/
theorem lastHash_congr (key : ChainKey) {l l' : List InvoiceRecord}
    (h : l.map (fun r => (r.kind,r.invoiceHash)) = l'.map (fun r => (r.kind,r.invoiceHash))) :
    lastHash key l = lastHash key l' := by
  have hcov (m : List InvoiceRecord) : lastHash key m =
      ((m.map (fun r => (r.kind,r.invoiceHash))).filter
        (fun p => match key with | .any => true | .kind k => p.1 = k)).getLast?.map Prod.snd := by
    rw [List.filter_map,List.getLast?_map,Option.map_map]
    cases key with
    | any => rfl
    | kind k => rfl
  rw [hcov,hcov,h]

structure ScopeCell where
  records : JsMap String InvoiceRecord
  chainHead : JsMap ChainKey String
  keyed : ∀ id r, records.get id = some r → r.invoiceId = id
  heads : ∀ key, chainHead.get key = lastHash key records.values

namespace ScopeCell

def empty : ScopeCell where
  records := .empty
  chainHead := .empty
  keyed := by simp
  heads := by simp [lastHash]

def add (c : ScopeCell) (r : InvoiceRecord) (h : c.records.get r.invoiceId = none) :
    ScopeCell where
  records := c.records.set r.invoiceId r
  chainHead := (c.chainHead.set .any r.invoiceHash).set (.kind r.kind) r.invoiceHash
  keyed id r' hr := by
    rw [JsMap.get_set] at hr
    split at hr
    · cases hr
      rename_i hid
      exact hid.symm
    · exact c.keyed id r' hr
  heads key := by
    rw [JsMap.values_set_of_none r h,lastHash_append,JsMap.get_set,JsMap.get_set,c.heads]
    cases key with
    | any => simp [ChainKey.covers]
    | kind k =>
      by_cases hk : r.kind = k
      · simp [ChainKey.covers,hk]
      · simp [ChainKey.covers,hk,Ne.symm hk]

def setStatus (c : ScopeCell) {id : String} {existing : InvoiceRecord}
    (h : c.records.get id = some existing) (status : InvoiceStatus) : ScopeCell where
  records := c.records.set id { existing with status }
  chainHead := c.chainHead
  keyed id' r hr := by
    rw [JsMap.get_set] at hr
    split at hr
    · cases hr
      rename_i hid
      exact (c.keyed id existing h).trans hid.symm
    · exact c.keyed id' r hr
  heads key := by
    rw [c.heads]
    refine lastHash_congr key (Eq.symm (JsMap.map_values_set h ?_))
    rfl

end ScopeCell

/-- Field by field; absent and present optional fields differ. -/
def recordsEqual (a b : InvoiceRecord) : Bool :=
  a.invoiceId = b.invoiceId && a.kind = b.kind && a.serial = b.serial &&
  a.counterNumber = b.counterNumber && a.uuid = b.uuid && a.invoiceHash = b.invoiceHash &&
  a.previousInvoiceHash = b.previousInvoiceHash && a.signedXml = b.signedXml &&
  a.qrBase64 = b.qrBase64 && a.status = b.status && a.issuedAt.getTime = b.issuedAt.getTime &&
  a.clearanceNumber = b.clearanceNumber && a.validationResults = b.validationResults

theorem recordsEqual_iff {a b : InvoiceRecord} : recordsEqual a b ↔ a = b := by
  constructor
  · intro h
    simp only [recordsEqual,Bool.and_eq_true,decide_eq_true_eq] at h
    obtain ⟨⟨⟨⟨⟨⟨⟨⟨⟨⟨⟨⟨h₁,h₂⟩,h₃⟩,h₄⟩,h₅⟩,h₆⟩,h₇⟩,h₈⟩,h₉⟩,h₁₀⟩,h₁₁⟩,h₁₂⟩,h₁₃⟩ := h
    have ht : a.issuedAt = b.issuedAt := congrArg Date.mk h₁₁
    cases a; cases b
    simp_all
  · rintro rfl
    simp [recordsEqual]

/-- The state of `createMemoryStorageAdapter`; a counter row holds its sequence. -/
structure MemoryStorage where
  counters : JsMap String Nat
  scopes : JsMap String ScopeCell

namespace MemoryStorage

def empty : MemoryStorage := ⟨.empty,.empty⟩

def incrementCounter (format : InvoiceNumberFormatter) (now : Date) (scope : TenantScope)
    (st : MemoryStorage) : CounterValue × MemoryStorage :=
  let m := yearMonthFor now
  let key := counterKey scope m.yearMonth
  let sequence := (st.counters.get key).getD 0 + 1
  let invoiceNumber := format
    { scope, sequence, yearMonth := m.yearMonth.1, year := m.year, month := m.month }
  (⟨sequence,invoiceNumber⟩,{ st with counters := st.counters.set key sequence })

def getPreviousHash (scope : TenantScope) (invoiceKind : Option InvoiceKind)
    (st : MemoryStorage) : String :=
  match st.scopes.get (scopeKey scope) with
  | none => ZATCA_BASE_INVOICE_HASH
  | some cell => (cell.chainHead.get (ChainKey.ofOption invoiceKind)).getD ZATCA_BASE_INVOICE_HASH

/-- The cell under the key; a new one is stored with the first record. -/
def getOrCreateScope (st : MemoryStorage) (key : String) : ScopeCell :=
  (st.scopes.get key).getD .empty

def recordConflict (invoiceId : String) : Thrown :=
  .zatcaStorageError ("recordInvoice(" ++ invoiceId ++ ") called twice with conflicting payloads.")

def recordInvoice (scope : TenantScope) (record : InvoiceRecord) (st : MemoryStorage) :
    Except Thrown MemoryStorage :=
  match h : (st.getOrCreateScope (scopeKey scope)).records.get record.invoiceId with
  | some existing =>
      if recordsEqual existing record then .ok st else .error (recordConflict record.invoiceId)
  | none => .ok { st with
      scopes := st.scopes.set (scopeKey scope)
        ((st.getOrCreateScope (scopeKey scope)).add record h) }

def loadInvoice (scope : TenantScope) (invoiceId : String) (st : MemoryStorage) :
    Option InvoiceRecord :=
  match st.scopes.get (scopeKey scope) with
  | none => none
  | some cell => cell.records.get invoiceId

def unknownInvoice (invoiceId : String) : Thrown :=
  .zatcaStorageError ("updateInvoiceStatus called for unknown invoice " ++ invoiceId ++ ".")

def updateInvoiceStatus (scope : TenantScope) (invoiceId : String) (status : InvoiceStatus)
    (st : MemoryStorage) : Except Thrown MemoryStorage :=
  match st.scopes.get (scopeKey scope) with
  | none => .error (unknownInvoice invoiceId)
  | some cell =>
      match h : cell.records.get invoiceId with
      | none => .error (unknownInvoice invoiceId)
      | some _ =>
          .ok { st with scopes := st.scopes.set (scopeKey scope) (cell.setStatus h status) }

/-- One method call; the choice is the reading of the adapter's clock. -/
def handle (format : InvoiceNumberFormatter) : Handler StorageAdapter Thrown MemoryStorage Date
  | .incrementCounter scope, now, st =>
      let (value,st') := st.incrementCounter format now scope
      (.ok value,st')
  | .getPreviousHash scope invoiceKind, _, st => (.ok (st.getPreviousHash scope invoiceKind),st)
  | .recordInvoice scope record, _, st =>
      match st.recordInvoice scope record with
      | .ok st' => (.ok (),st')
      | .error e => (.error e,st)
  | .loadInvoice scope invoiceId, _, st => (.ok (st.loadInvoice scope invoiceId),st)
  | .updateInvoiceStatus scope invoiceId status, _, st =>
      match st.updateInvoiceStatus scope invoiceId status with
      | .ok st' => (.ok (),st')
      | .error e => (.error e,st)

end MemoryStorage
end Zatca
