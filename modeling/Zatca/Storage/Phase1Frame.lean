import Zatca.Library.Sequence
import Zatca.Storage.InternalMemory
set_option autoImplicit false

/-! Phase 1 documents are kept in the same storage as the chained ones, with the base digest in the
place of their own. -/

namespace Zatca
open Interaction

/-- The heads that the signed kinds are chained from, and the head of no kind, are as they were. -/
def HeadsKept {σ χ : Type} (h : Handler StorageAdapter Thrown σ χ) (scope : TenantScope)
    (st st' : σ) : Prop :=
  ∀ kind : Option InvoiceKind, (∀ k ∈ kind, k.isPhase1 = false) → ∀ x,
    (h (.getPreviousHash scope kind) x st').1 = (h (.getPreviousHash scope kind) x st).1

section issue
variable {σ χ : Type} {h : Handler StorageAdapter Thrown σ χ} {B : Builders} {kind : InvoiceKind}
  {args : IssuePhase1Args} {issued : IssuedPhase1Invoice}

/-- A Phase 1 issue that succeeds counts, and records the base digest under its id. -/
theorem exec_issuePhase1 {script : Nat → χ} {st st' : σ}
    (he : (issuePhase1 B kind args).exec h script st = (.ok issued,st')) :
    ∃ counter st₁ r, h (.incrementCounter args.scope) (script 0) st = (.ok counter,st₁) ∧
      r.invoiceId = args.recordId ∧ r.kind = kind ∧ r.invoiceHash = ZATCA_BASE_INVOICE_HASH ∧
      h (.recordInvoice args.scope r) (script 1) st₁ = (.ok (),st') := by
  simp only [issuePhase1,Program.bind_eq,Program.ofExcept_bind,StorageAdapter.incrementCounter,
    StorageAdapter.recordInvoice,Program.perform,Program.call_bind,Program.pure_eq] at he
  cases ha : assertScope args.egsInfo args.scope with
  | error e => simp [ha] at he
  | ok u =>
    simp only [ha,Program.exec_call] at he
    cases hc : h (.incrementCounter args.scope) (script 0) st with
    | mk answer st₁ =>
      cases answer with
      | error e => simp [hc] at he
      | ok counter =>
        simp only [hc] at he
        cases hb : B.buildPhase1 kind (fullInput kind args counter ZATCA_BASE_INVOICE_HASH) with
        | error e => simp [hb] at he
        | ok built =>
          simp only [hb,Program.exec_call] at he
          generalize hr : issuedRecord kind args counter ZATCA_BASE_INVOICE_HASH
            ZATCA_BASE_INVOICE_HASH built.invoiceXml built.qrCode = r at he
          cases hrec : h (.recordInvoice args.scope r) (script 1) st₁ with
          | mk answer st₂ =>
            have hrec' : h (.recordInvoice args.scope r) (script (0+1)) st₁ = (answer,st₂) := hrec
            cases answer with
            | error e => simp [hrec'] at he
            | ok u =>
              simp only [hrec',Program.exec_ret,Prod.mk.injEq] at he
              obtain ⟨-,rfl⟩ := he
              refine ⟨counter,st₁,r,rfl,?_,?_,?_,hrec⟩
              · rw [← hr]
                rfl
              · rw [← hr]
                rfl
              · rw [← hr]
                rfl

end issue

section memory
variable (format : InvoiceNumberFormatter)

theorem Ledger.head_append {l : Ledger} {r : InvoiceRecord} (hf : l.find r.invoiceId = none)
    (kind : Option InvoiceKind) : (l.append r hf).head kind =
      if (ChainKey.ofOption kind).covers r then r.invoiceHash else l.head kind := by
  simp only [head,append,lastHash_append]
  split
  · rfl
  · rfl

/-- A record that is taken is there already, or is the new head of its kind and of no kind. -/
theorem MemoryStorage.recordInvoice_head {scope : TenantScope} {r : InvoiceRecord} {now : Date}
    {st st' : MemoryStorage}
    (h : MemoryStorage.handle format (.recordInvoice scope r) now st = (.ok (),st')) :
    (st.loadInvoice scope r.invoiceId = some r ∧
        ∀ kind, st'.getPreviousHash scope kind = st.getPreviousHash scope kind) ∨
      (st.loadInvoice scope r.invoiceId = none ∧ ∀ kind, st'.getPreviousHash scope kind =
        if (ChainKey.ofOption kind).covers r then r.invoiceHash
        else st.getPreviousHash scope kind) := by
  have hanswer := (handle_ledger format st now (.recordInvoice scope r)).1
  have hledger := handle_ledger_self format st now (.recordInvoice scope r)
  rw [h] at hanswer hledger
  simp only [StorageOp.scope] at hanswer hledger
  simp only [loadInvoice_ledger,getPreviousHash_ledger]
  cases hf : (st.ledger (scopeKey scope)).find r.invoiceId with
  | some existing =>
    rw [Ledger.handle_record_of_some _ _ _ _ hf] at hanswer hledger
    by_cases heq : existing = r
    · exact .inl ⟨by rw [heq],fun kind => by rw [hledger]⟩
    · rw [if_neg heq] at hanswer
      cases hanswer
  | none =>
    rw [Ledger.handle_record_of_none _ _ _ _ hf] at hledger
    exact .inr ⟨rfl,fun kind => by rw [hledger,Ledger.head_append hf]⟩

variable {B : Builders} {kind : InvoiceKind} {args : IssuePhase1Args} {issued : IssuedPhase1Invoice}

theorem MemoryStorage.headsKept_iff (hkind : kind.isPhase1 = true) {script : Nat → Date}
    {st st' : MemoryStorage}
    (he : (issuePhase1 B kind args).exec (MemoryStorage.handle format) script st =
      (.ok issued,st')) :
    HeadsKept (MemoryStorage.handle format) args.scope st st' ↔
      st.getPreviousHash args.scope none = ZATCA_BASE_INVOICE_HASH ∨
        (st.loadInvoice args.scope args.recordId).isSome = true := by
  obtain ⟨counter,st₁,r,hinc,hid,hk,hhash,hrec⟩ := exec_issuePhase1 he
  -- the counter is kept apart from the records
  have hheads : ∀ k, st₁.getPreviousHash args.scope k = st.getPreviousHash args.scope k := by
    intro k
    cases hinc
    rfl
  have hload : st₁.loadInvoice args.scope r.invoiceId = st.loadInvoice args.scope args.recordId := by
    rw [hid]
    cases hinc
    rfl
  obtain ⟨hpresent,hsame⟩ | ⟨habsent,hmoved⟩ := MemoryStorage.recordInvoice_head format hrec
  · have hsome : (st.loadInvoice args.scope args.recordId).isSome = true := by
      rw [← hload,hpresent]
      rfl
    refine iff_of_true (fun k _ x => ?_) (.inr hsome)
    exact congrArg Except.ok ((hsame k).trans (hheads k))
  · have hnone : (st.loadInvoice args.scope args.recordId).isSome = false := by
      rw [← hload,habsent]
      rfl
    have hany : st'.getPreviousHash args.scope none = ZATCA_BASE_INVOICE_HASH := by
      rw [hmoved none,← hhash]
      rfl
    have hother : ∀ k, k.isPhase1 = false →
        st'.getPreviousHash args.scope (some k) = st.getPreviousHash args.scope (some k) := by
      intro k hphase2
      have hne : r.kind ≠ k := by
        intro hrk
        rw [← hrk,hk,hkind] at hphase2
        cases hphase2
      have hcovers : (ChainKey.ofOption (some k)).covers r = false := by
        simp [ChainKey.ofOption,ChainKey.covers,hne]
      rw [hmoved (some k),hcovers,if_neg Bool.false_ne_true,hheads]
    rw [hnone]
    constructor
    · intro hkept
      have hno : ∀ k ∈ (none : Option InvoiceKind), k.isPhase1 = false := by simp
      have := Except.ok.inj (hkept none hno Sample.clock)
      exact .inl (this.symm.trans hany)
    · intro hbase k hphase2 x
      have hbase : st.getPreviousHash args.scope none = ZATCA_BASE_INVOICE_HASH := by
        simpa using hbase
      refine congrArg Except.ok ?_
      cases k with
      | none => exact hany.trans hbase.symm
      | some k => exact hother k (hphase2 k rfl)

theorem InternalMemoryStorage.headsKept_iff {script : Nat → Unit} {st st' : InternalMemoryStorage}
    (he : (issuePhase1 B kind args).exec InternalMemoryStorage.handle script st =
      (.ok issued,st')) :
    HeadsKept InternalMemoryStorage.handle args.scope st st' ↔
      (st.previousHash.get (scopeKey args.scope)).getD ZATCA_BASE_INVOICE_HASH =
        ZATCA_BASE_INVOICE_HASH := by
  obtain ⟨counter,st₁,r,hinc,-,-,hhash,hrec⟩ := exec_issuePhase1 he
  have hmoved : st'.previousHash.get (scopeKey args.scope) = some ZATCA_BASE_INVOICE_HASH := by
    cases hrec
    rw [← hhash]
    exact JsMap.get_set_self _ _ _
  have hread : ∀ k x (s : InternalMemoryStorage),
      (InternalMemoryStorage.handle (.getPreviousHash args.scope k) x s).1 =
        .ok ((s.previousHash.get (scopeKey args.scope)).getD ZATCA_BASE_INVOICE_HASH) :=
    fun _ _ _ => rfl
  simp only [HeadsKept,hread,hmoved,Option.getD_some,Except.ok.injEq]
  constructor
  · intro hkept
    exact (hkept none (by simp) ()).symm
  · intro hbase k _ x
    exact hbase.symm

end memory

/-- A Phase 1 issue on either in-process storage, in any state. Only the head of no kind can move on
the memory adapter; the compliance run's storage keeps one head for all the kinds. -/
theorem phase1HeadsKept_iff (B : Builders) (kind : InvoiceKind) (hkind : kind.isPhase1 = true)
    (args : IssuePhase1Args) (issued : IssuedPhase1Invoice) :
    (∀ format script st st',
      (issuePhase1 B kind args).exec (MemoryStorage.handle format) script st = (.ok issued,st') →
      (HeadsKept (MemoryStorage.handle format) args.scope st st' ↔
        st.getPreviousHash args.scope none = ZATCA_BASE_INVOICE_HASH ∨
          (st.loadInvoice args.scope args.recordId).isSome = true)) ∧
    ∀ script st st',
      (issuePhase1 B kind args).exec InternalMemoryStorage.handle script st = (.ok issued,st') →
      (HeadsKept InternalMemoryStorage.handle args.scope st st' ↔
        (st.previousHash.get (scopeKey args.scope)).getD ZATCA_BASE_INVOICE_HASH =
          ZATCA_BASE_INVOICE_HASH) :=
  ⟨fun format _ _ _ he => MemoryStorage.headsKept_iff format hkind he,
    fun _ _ _ he => InternalMemoryStorage.headsKept_iff he⟩

namespace Sample

def phase1Args : IssuePhase1Args := (args "phase 1").toIssuePhase1Args

/-- A standard invoice as it is recorded. -/
def standardRecord : InvoiceRecord :=
  phase2Record .standardTaxInvoice (args "standard") ⟨1,"202605000001"⟩ ZATCA_BASE_INVOICE_HASH
    ⟨"xml","signed xml","digest 1","qr"⟩

def standardRecorded {χ : Type} (x : χ) : List (StorageOp × χ) :=
  [(.incrementCounter scope,x),(.recordInvoice scope standardRecord,x)]

end Sample

/-- On an empty storage no head moves. -/
theorem phase1HeadsKept_on_empty :
    ∃ issued st', (issuePhase1Invoice Sample.builders Sample.phase1Args).exec
        (MemoryStorage.handle defaultFormatter) (fun _ => Sample.clock) .empty = (.ok issued,st') ∧
      HeadsKept (MemoryStorage.handle defaultFormatter) Sample.scope .empty st' := by
  refine ⟨_,_,rfl,?_⟩
  have hiff := phase1HeadsKept_iff Sample.builders .phase1Invoice rfl Sample.phase1Args
  exact ((hiff _).1 defaultFormatter (fun _ => Sample.clock) .empty _ rfl).2 (.inl rfl)

/-- After a standard invoice the head of no kind falls back to the base. -/
theorem phase1HeadsKept_fails_after_a_standard_invoice :
    ¬ (∀ (B : Builders) args issued script (st st' : MemoryStorage) calls,
        st = (MemoryStorage.handle defaultFormatter).steps calls .empty →
        (issuePhase1Invoice B args).exec (MemoryStorage.handle defaultFormatter) script st =
          (.ok issued,st') →
        HeadsKept (MemoryStorage.handle defaultFormatter) args.scope st st') ∧
    ¬ ∀ (B : Builders) args issued script (st st' : InternalMemoryStorage) calls,
        st = InternalMemoryStorage.handle.steps calls .empty →
        (issuePhase1Invoice B args).exec InternalMemoryStorage.handle script st =
          (.ok issued,st') →
        HeadsKept InternalMemoryStorage.handle args.scope st st' := by
  constructor
  · intro hall
    have h := hall Sample.builders Sample.phase1Args _ (fun _ => Sample.clock) _ _
      (Sample.standardRecorded Sample.clock) rfl rfl none (by simp) Sample.clock
    revert h
    decide +kernel
  · intro hall
    have h := hall Sample.builders Sample.phase1Args _ (fun _ => ()) _ _
      (Sample.standardRecorded ()) rfl rfl none (by simp) ()
    revert h
    decide +kernel

end Zatca
