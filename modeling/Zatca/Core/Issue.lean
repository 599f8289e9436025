import Zatca.Core.Types
import Zatca.Library.Program
set_option autoImplicit false
namespace Zatca
open Interaction

structure CounterValue where
  sequence : Nat
  invoiceNumber : String
  deriving DecidableEq, Repr

/-- The methods of the persistence interface. -/
inductive StorageOp where
  | incrementCounter (scope : TenantScope)
  | getPreviousHash (scope : TenantScope) (invoiceKind : Option InvoiceKind)
  | recordInvoice (scope : TenantScope) (record : InvoiceRecord)
  | loadInvoice (scope : TenantScope) (invoiceId : String)
  | updateInvoiceStatus (scope : TenantScope) (invoiceId : String) (status : InvoiceStatus)
  deriving DecidableEq

abbrev StorageOp.Ret : StorageOp → Type
  | .incrementCounter _ => CounterValue
  | .getPreviousHash _ _ => String
  | .recordInvoice _ _ => Unit
  | .loadInvoice _ _ => Option InvoiceRecord
  | .updateInvoiceStatus _ _ _ => Unit

abbrev StorageAdapter : Signature := ⟨StorageOp,StorageOp.Ret⟩

namespace StorageAdapter

def incrementCounter (scope : TenantScope) : Program StorageAdapter Thrown CounterValue :=
  Program.perform (S := StorageAdapter) (.incrementCounter scope)
def getPreviousHash (scope : TenantScope) (invoiceKind : Option InvoiceKind) :
    Program StorageAdapter Thrown String :=
  Program.perform (S := StorageAdapter) (.getPreviousHash scope invoiceKind)
def recordInvoice (scope : TenantScope) (record : InvoiceRecord) :
    Program StorageAdapter Thrown Unit :=
  Program.perform (S := StorageAdapter) (.recordInvoice scope record)

end StorageAdapter

structure SigningMaterial where
  certificate : String
  privateKey : String
  deriving DecidableEq, Repr

structure BuiltInvoice where
  invoiceXml : String
  signedXml : String
  invoiceHash : String
  qrCode : String
  deriving DecidableEq, Repr

structure BuiltPhase1 where
  invoiceXml : String
  qrCode : String
  deriving DecidableEq, Repr

/-- The document builders, one class a kind: templates, arithmetic, signing and digest. -/
structure Builders where
  build : InvoiceKind → InvoiceInput → SigningMaterial → Except Thrown BuiltInvoice
  buildPhase1 : InvoiceKind → InvoiceInput → Except Thrown BuiltPhase1

structure IssuedInvoice where
  invoiceXml : String
  signedXml : String
  invoiceHash : String
  qrCode : String
  sequence : Nat
  invoiceNumber : String
  deriving DecidableEq, Repr

structure IssuedPhase1Invoice where
  invoiceXml : String
  qrCode : String
  sequence : Nat
  invoiceNumber : String
  deriving DecidableEq, Repr

/-- What `randomUUID()` and `new Date()` answer during one call. -/
structure HostValues where
  randomUUID : String
  newDate : Date
  deriving DecidableEq

structure IssuePhase1Args where
  input : BusinessInput
  egsInfo : EGSUnitInfo
  scope : TenantScope
  invoiceId : Option String := none
  now : Option Date := none
  host : HostValues
  deriving DecidableEq

structure IssueArgs extends IssuePhase1Args where
  signing : SigningMaterial
  deriving DecidableEq

/-- The primary key of the row: the caller's choice or a fresh uuid. -/
def IssuePhase1Args.recordId (args : IssuePhase1Args) : String :=
  args.invoiceId.getD args.host.randomUUID

def assertScope (egsInfo : EGSUnitInfo) (scope : TenantScope) : Except Thrown Unit :=
  if egsInfo.uuid ≠ scope.egsUuid then
    .error (.zatcaValidationError
      ("egsInfo.uuid (" ++ egsInfo.uuid ++ ") does not match scope.egsUuid (" ++ scope.egsUuid
        ++ ")."))
  else if egsInfo.vatNumber ≠ scope.vatNumber then
    .error (.zatcaValidationError
      ("egsInfo.vatNumber (" ++ egsInfo.vatNumber ++ ") does not match scope.vatNumber ("
        ++ scope.vatNumber ++ ")."))
  else .ok ()

def fullInput (kind : InvoiceKind) (args : IssuePhase1Args) (counter : CounterValue)
    (previousInvoiceHash : String) : InvoiceInput :=
  { args.input with
    kind
    egsInfo := args.egsInfo
    invoiceCounterNumber := counter.sequence
    invoiceSerialNumber := counter.invoiceNumber
    previousInvoiceHash }

def issuedRecord (kind : InvoiceKind) (args : IssuePhase1Args) (counter : CounterValue)
    (previousInvoiceHash invoiceHash signedXml qrBase64 : String) : InvoiceRecord where
  invoiceId := args.recordId
  kind
  serial := counter.invoiceNumber
  counterNumber := counter.sequence
  uuid := args.egsInfo.uuid
  invoiceHash
  previousInvoiceHash
  signedXml
  qrBase64
  issuedAt := args.now.getD args.host.newDate
  status := .pending

def phase2Record (kind : InvoiceKind) (args : IssueArgs) (counter : CounterValue)
    (previousInvoiceHash : String) (built : BuiltInvoice) : InvoiceRecord :=
  issuedRecord kind args.toIssuePhase1Args counter previousInvoiceHash built.invoiceHash built.signedXml built.qrCode

/-- The common body of the Phase 2 issuers. -/
def issuePhase2 (B : Builders) (kind : InvoiceKind) (args : IssueArgs) :
    Program StorageAdapter Thrown IssuedInvoice := do
  Program.ofExcept (assertScope args.egsInfo args.scope)
  let counter ← StorageAdapter.incrementCounter args.scope
  let previousInvoiceHash ← StorageAdapter.getPreviousHash args.scope (some kind)
  let built ← Program.ofExcept
    (B.build kind (fullInput kind args.toIssuePhase1Args counter previousInvoiceHash) args.signing)
  StorageAdapter.recordInvoice args.scope
    (phase2Record kind args counter previousInvoiceHash built)
  return {
    invoiceXml := built.invoiceXml
    signedXml := built.signedXml
    invoiceHash := built.invoiceHash
    qrCode := built.qrCode
    sequence := counter.sequence
    invoiceNumber := counter.invoiceNumber }

section issuers
variable (B : Builders)

def issueSimplifiedTaxInvoice := issuePhase2 B .simplifiedTaxInvoice
def issueStandardTaxInvoice := issuePhase2 B .standardTaxInvoice
def issueSimplifiedCreditNote := issuePhase2 B .simplifiedCreditNote
def issueStandardCreditNote := issuePhase2 B .standardCreditNote
def issueSimplifiedDebitNote := issuePhase2 B .simplifiedDebitNote
def issueStandardDebitNote := issuePhase2 B .standardDebitNote

def phase2Issuer : Phase2Kind → IssueArgs → Program StorageAdapter Thrown IssuedInvoice
  | ⟨.simplifiedTaxInvoice,_⟩ => issueSimplifiedTaxInvoice B
  | ⟨.standardTaxInvoice,_⟩ => issueStandardTaxInvoice B
  | ⟨.simplifiedCreditNote,_⟩ => issueSimplifiedCreditNote B
  | ⟨.standardCreditNote,_⟩ => issueStandardCreditNote B
  | ⟨.simplifiedDebitNote,_⟩ => issueSimplifiedDebitNote B
  | ⟨.standardDebitNote,_⟩ => issueStandardDebitNote B
  | ⟨.phase1Invoice,h⟩ => nomatch h
  | ⟨.phase1CreditNote,h⟩ => nomatch h

theorem phase2Issuer_eq (kind : Phase2Kind) (args : IssueArgs) :
    phase2Issuer B kind args = issuePhase2 B kind.1 args := by
  obtain ⟨kind,h⟩ := kind
  cases kind with
  | phase1Invoice => nomatch h
  | phase1CreditNote => nomatch h
  | _ => rfl

/-- The common body of the Phase 1 issuers: outside the chain, both digests are the base. -/
def issuePhase1 (kind : InvoiceKind) (args : IssuePhase1Args) :
    Program StorageAdapter Thrown IssuedPhase1Invoice := do
  Program.ofExcept (assertScope args.egsInfo args.scope)
  let counter ← StorageAdapter.incrementCounter args.scope
  let built ← Program.ofExcept
    (B.buildPhase1 kind (fullInput kind args counter ZATCA_BASE_INVOICE_HASH))
  StorageAdapter.recordInvoice args.scope
    (issuedRecord kind args counter ZATCA_BASE_INVOICE_HASH ZATCA_BASE_INVOICE_HASH
      built.invoiceXml built.qrCode)
  return {
    invoiceXml := built.invoiceXml
    qrCode := built.qrCode
    sequence := counter.sequence
    invoiceNumber := counter.invoiceNumber }

def issuePhase1Invoice := issuePhase1 B .phase1Invoice
def issuePhase1CreditNote := issuePhase1 B .phase1CreditNote

end issuers

inductive Issued where
  | phase2 (invoice : IssuedInvoice)
  | phase1 (invoice : IssuedPhase1Invoice)
  deriving DecidableEq

def Issued.invoiceNumber : Issued → String
  | .phase2 i => i.invoiceNumber
  | .phase1 i => i.invoiceNumber

def Issued.sequence : Issued → Nat
  | .phase2 i => i.sequence
  | .phase1 i => i.sequence

structure IssueInvoiceArgs where
  input : InvoiceInput
  scope : TenantScope
  signing : Option SigningMaterial
  host : HostValues

/-- The dispatcher on the kind: a missing signing key is reported before any storage step. -/
def issueInvoice (B : Builders) (args : IssueInvoiceArgs) :
    Program StorageAdapter Thrown Issued :=
  let requireSigning : Program StorageAdapter Thrown SigningMaterial :=
    match args.signing with
    | none => .throw (.zatcaValidationError
        ("Phase 2 invoice kind \"" ++ args.input.kind.literal
          ++ "\" requires signing.certificate + signing.privateKey."))
    | some signing => .ret signing
  let shared : IssuePhase1Args :=
    { input := args.input.toBusinessInput, egsInfo := args.input.egsInfo, scope := args.scope
      host := args.host }
  let phase2 (issue : IssueArgs → Program StorageAdapter Thrown IssuedInvoice) := do
    let signing ← requireSigning
    return .phase2 (← issue { shared with signing })
  let phase1 (issue : IssuePhase1Args → Program StorageAdapter Thrown IssuedPhase1Invoice) := do
    return .phase1 (← issue shared)
  match args.input.kind with
  | .simplifiedTaxInvoice => phase2 (issueSimplifiedTaxInvoice B)
  | .standardTaxInvoice => phase2 (issueStandardTaxInvoice B)
  | .simplifiedCreditNote => phase2 (issueSimplifiedCreditNote B)
  | .standardCreditNote => phase2 (issueStandardCreditNote B)
  | .simplifiedDebitNote => phase2 (issueSimplifiedDebitNote B)
  | .standardDebitNote => phase2 (issueStandardDebitNote B)
  | .phase1Invoice => phase1 (issuePhase1Invoice B)
  | .phase1CreditNote => phase1 (issuePhase1CreditNote B)

/-! A tenant, its branch and one sale, for runs on concrete inputs. -/
namespace Sample

def scope : TenantScope := ⟨"301234567890003","00000000-0000-4000-8000-000000000001"⟩

def location : EGSUnitLocation :=
  ⟨"Riyadh","Al Olaya","King Fahd Road","1234","7421","12211"⟩

def egsInfo : EGSUnitInfo where
  uuid := scope.egsUuid
  customId := "branch-01-pos-03"
  model := "POS"
  crnNumber := "1010010000"
  vatName := "Dokhna"
  vatNumber := scope.vatNumber
  branchName := "Olaya"
  branchIndustry := "Retail"
  location

def sale : BusinessInput where
  issueDate := "2026-05-13"
  issueTime := "12:00:00"
  lineItems := [{ id := "1", name := "Coffee 250ml", quantity := 2, taxExclusivePrice := 10
                  vatPercent := 15 }]
  buyerName := some "Walk-in customer"

/-- Noon of 13 May 2026. -/
def clock : Date := ⟨1778673600000⟩

def args (id : String) : IssueArgs where
  input := sale
  egsInfo
  scope
  host := ⟨id,clock⟩
  signing := ⟨"certificate","private key"⟩

/-- Documents with different numbers get different digests. -/
def builders : Builders where
  build kind input _ :=
    let text := kind.literal ++ " " ++ input.invoiceSerialNumber
    .ok ⟨text,text,"digest " ++ toString input.invoiceCounterNumber,"qr"⟩
  buildPhase1 kind input := .ok ⟨kind.literal ++ " " ++ input.invoiceSerialNumber,"qr"⟩

end Sample
end Zatca
