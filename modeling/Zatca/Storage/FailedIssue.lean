import Zatca.Library.Failure
import Zatca.Storage.SequentialChain
set_option autoImplicit false

/-! Issue calls that throw. The number is taken before the document is built and nothing gives it
back, so a failed call leaves a gap in the numbers and no other trace. -/

namespace Zatca
open Interaction

/-- A call of one of the eight issuers. -/
inductive IssuerCall where
  | phase2 (kind : Phase2Kind) (args : IssueArgs)
  | phase1Invoice (args : IssuePhase1Args)
  | phase1CreditNote (args : IssuePhase1Args)

namespace IssuerCall

def args : IssuerCall → IssuePhase1Args
  | .phase2 _ args => args.toIssuePhase1Args
  | .phase1Invoice args | .phase1CreditNote args => args

def program (B : Builders) : IssuerCall → Program StorageAdapter Thrown Issued
  | .phase2 kind args => (phase2Issuer B kind args).bind (fun i => .ret (.phase2 i))
  | .phase1Invoice args => (issuePhase1Invoice B args).bind (fun i => .ret (.phase1 i))
  | .phase1CreditNote args => (issuePhase1CreditNote B args).bind (fun i => .ret (.phase1 i))

/-- The call gets as far as the counter. -/
def takesNumber (call : IssuerCall) : Bool :=
  (assertScope call.args.egsInfo call.args.scope).isOk

end IssuerCall

/-- A program that asserts the scope, takes a number and goes on. -/
def numbered {α : Type} (args : IssuePhase1Args) (f : CounterValue → Program StorageAdapter Thrown α) :
    Program StorageAdapter Thrown α :=
  (Program.ofExcept (assertScope args.egsInfo args.scope)).bind fun _ =>
    (StorageAdapter.incrementCounter args.scope).bind f

section ledger
variable (format : InvoiceNumberFormatter)

theorem Ledger.atomic_recordInvoice (scope : TenantScope) (r : InvoiceRecord) :
    (StorageAdapter.recordInvoice scope r).Atomic (Ledger.handle format) := by
  refine Program.atomic_perform fun now l e l' he => ?_
  cases hf : l.find r.invoiceId with
  | some existing =>
    rw [Ledger.handle_record_of_some _ _ _ _ hf] at he
    exact (Prod.mk.inj he).2.symm
  | none =>
    rw [Ledger.handle_record_of_none _ _ _ _ hf] at he
    cases he

theorem Ledger.exec_numbered {α : Type} (args : IssuePhase1Args)
    {f : CounterValue → Program StorageAdapter Thrown α}
    (hf : ∀ c, (f c).Atomic (Ledger.handle format)) {script : Nat → Date} {l l' : Ledger} {e : Thrown}
    (he : (numbered args f).exec (Ledger.handle format) script l = (.error e,l')) :
    l' = if (assertScope args.egsInfo args.scope).isOk then
      l.next (yearMonthFor (script 0)).yearMonth else l := by
  unfold numbered at he
  rw [Program.ofExcept_bind] at he
  cases ha : assertScope args.egsInfo args.scope with
  | error e' =>
    rw [ha] at he
    cases he
    rfl
  | ok u =>
    rw [ha] at he
    exact hf _ _ _ _ _ he

variable (B : Builders)

theorem Ledger.readOnly_getPreviousHash (scope : TenantScope) (kind : Option InvoiceKind) :
    (StorageAdapter.getPreviousHash scope kind).ReadOnly (Ledger.handle format) :=
  Program.readOnly_perform fun _ _ => rfl

/-- The program takes its number first and is all or nothing from there on. -/
def Numbers {α : Type} (args : IssuePhase1Args) (p : Program StorageAdapter Thrown α) : Prop :=
  ∃ f, p = numbered args f ∧ ∀ c, (f c).Atomic (Ledger.handle format)

theorem Numbers.map {α β : Type} {args : IssuePhase1Args} {p : Program StorageAdapter Thrown α}
    (hp : Numbers format args p) (g : α → β) : Numbers format args (p.bind (fun a => .ret (g a))) := by
  obtain ⟨f,rfl,hf⟩ := hp
  refine ⟨fun c => (f c).bind (fun a => .ret (g a)),?_,fun c => (hf c).map g⟩
  unfold numbered
  simp only [Program.bind_assoc]

theorem issuePhase2_numbers (kind : InvoiceKind) (args : IssueArgs) :
    Numbers format args.toIssuePhase1Args (issuePhase2 B kind args) := by
  refine ⟨_,rfl,fun counter => ?_⟩
  have hhead := Ledger.readOnly_getPreviousHash format args.scope (some kind)
  refine hhead.bind_atomic fun previousInvoiceHash => ?_
  refine (Program.readOnly_ofExcept _).bind_atomic fun built => ?_
  exact (Ledger.atomic_recordInvoice format args.scope _).map _

theorem issuePhase1_numbers (kind : InvoiceKind) (args : IssuePhase1Args) :
    Numbers format args (issuePhase1 B kind args) := by
  refine ⟨_,rfl,fun counter => ?_⟩
  refine (Program.readOnly_ofExcept _).bind_atomic fun built => ?_
  exact (Ledger.atomic_recordInvoice format args.scope _).map _

theorem issuePhase1_calls (kind : InvoiceKind) (args : IssuePhase1Args) :
    (issuePhase1 B kind args).Calls (fun o => StorageOp.scope o = args.scope) := by
  refine Program.calls_bind (Program.calls_ofExcept _ _) fun _ => ?_
  refine Program.calls_bind (Program.calls_perform rfl) fun counter => ?_
  refine Program.calls_bind (Program.calls_ofExcept _ _) fun built => ?_
  exact Program.calls_bind (Program.calls_perform rfl) fun _ => trivial

namespace IssuerCall

theorem program_numbers (call : IssuerCall) : Numbers format call.args (call.program B) := by
  cases call with
  | phase2 kind args =>
    have hp := issuePhase2_numbers format B kind.1 args
    rw [← phase2Issuer_eq] at hp
    exact hp.map format Issued.phase2
  | phase1Invoice args => exact (issuePhase1_numbers format B _ args).map format Issued.phase1
  | phase1CreditNote args => exact (issuePhase1_numbers format B _ args).map format Issued.phase1

theorem program_calls (call : IssuerCall) :
    (call.program B).Calls (fun o => StorageOp.scope o = call.args.scope) := by
  cases call with
  | phase2 kind args =>
    refine Program.calls_bind ?_ fun _ => trivial
    rw [phase2Issuer_eq]
    exact issuePhase2_calls B kind.1 args
  | phase1Invoice args => exact Program.calls_bind (issuePhase1_calls B _ args) fun _ => trivial
  | phase1CreditNote args => exact Program.calls_bind (issuePhase1_calls B _ args) fun _ => trivial

end IssuerCall

end ledger

/-- On every state of the adapter, a call that throws leaves the documents and all chain heads of
its scope as they were, and the counter too if the scope was refused; otherwise one number of the
current month is gone. -/
theorem failedIssue_leaves (format : InvoiceNumberFormatter) (B : Builders) (call : IssuerCall)
    (st st' : MemoryStorage) (script : Nat → Date) (e : Thrown)
    (h : (call.program B).exec (MemoryStorage.handle format) script st = (.error e,st')) :
    (st'.ledger (scopeKey call.args.scope)).records =
        (st.ledger (scopeKey call.args.scope)).records ∧
      (∀ kind, st'.getPreviousHash call.args.scope kind =
        st.getPreviousHash call.args.scope kind) ∧
      ∀ m, (st'.ledger (scopeKey call.args.scope)).sequence m =
        (st.ledger (scopeKey call.args.scope)).sequence m +
          if call.takesNumber ∧ m = (yearMonthFor (script 0)).yearMonth then 1 else 0 := by
  have hl := MemoryStorage.exec_ledger format st (call.program_calls B) script
  rw [h] at hl
  obtain ⟨f,hp,hf⟩ := call.program_numbers format B
  have hledger : st'.ledger (scopeKey call.args.scope) = if call.takesNumber then
      (st.ledger (scopeKey call.args.scope)).next (yearMonthFor (script 0)).yearMonth
      else st.ledger (scopeKey call.args.scope) := by
    rw [hp] at hl
    exact Ledger.exec_numbered format call.args hf (Prod.ext hl.1.symm hl.2.symm)
  simp only [MemoryStorage.getPreviousHash_ledger,hledger]
  cases call.takesNumber with
  | false => simp
  | true =>
    refine ⟨rfl,fun _ => rfl,fun m => ?_⟩
    by_cases hm : m = (yearMonthFor (script 0)).yearMonth
    · simp [Ledger.next,hm]
    · simp [Ledger.next,hm]

/-- A builder that rejects what it is given. -/
def Sample.rejecting : Builders where
  build _ _ _ := .error (.zatcaValidationError "rejected")
  buildPhase1 _ _ := .error (.zatcaValidationError "rejected")

def Sample.call : IssuerCall := .phase2 ⟨.simplifiedTaxInvoice,InvoiceKind.isPhase1_simplifiedTaxInvoice⟩ (Sample.args "order-1")

/-- The storage after a call that the builder rejected. -/
def Sample.afterRejection : MemoryStorage :=
  ((Sample.call.program Sample.rejecting).exec (MemoryStorage.handle defaultFormatter)
    (fun _ => Sample.clock) .empty).2

theorem failedIssue_of_rejection :
    (Sample.afterRejection.ledger (scopeKey Sample.scope)).records = [] ∧
      (Sample.afterRejection.ledger (scopeKey Sample.scope)).sequence
        (yearMonthFor Sample.clock).yearMonth = 1 := by
  have h := failedIssue_leaves defaultFormatter Sample.rejecting Sample.call .empty
    Sample.afterRejection (fun _ => Sample.clock) (.zatcaValidationError "rejected") rfl
  exact ⟨h.1,by rw [show Sample.scope = Sample.call.args.scope from rfl,h.2.2]; decide⟩

/-- A rejected call takes number one, and the next document of the scope is number two. -/
theorem failedIssue_burns_a_number :
    ¬ (∀ (B : Builders) (call : IssuerCall) (st st' : MemoryStorage) (script : Nat → Date)
        (e : Thrown),
      (call.program B).exec (MemoryStorage.handle defaultFormatter) script st = (.error e,st') →
        (st'.ledger (scopeKey call.args.scope)).sequence =
          (st.ledger (scopeKey call.args.scope)).sequence) ∧
    ((((Sample.call.program Sample.builders).exec (MemoryStorage.handle defaultFormatter)
      (fun _ => Sample.clock) Sample.afterRejection).2.ledger (scopeKey Sample.scope)).records.map
        InvoiceRecord.counterNumber) = [2] := by
  constructor
  · intro hall
    have h := congrFun (hall Sample.rejecting Sample.call .empty Sample.afterRejection
      (fun _ => Sample.clock) (.zatcaValidationError "rejected") rfl)
      (yearMonthFor Sample.clock).yearMonth
    revert h
    decide
  · decide

end Zatca
