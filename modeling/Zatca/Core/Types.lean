import Zatca.Core.Ecma
set_option autoImplicit false
namespace Zatca

inductive InvoiceKind where
  | simplifiedTaxInvoice
  | standardTaxInvoice
  | simplifiedCreditNote
  | standardCreditNote
  | simplifiedDebitNote
  | standardDebitNote
  | phase1Invoice
  | phase1CreditNote
  deriving DecidableEq, Repr

namespace InvoiceKind

/-- The literal discriminator of the kind. -/
def literal : InvoiceKind → String
  | simplifiedTaxInvoice => "simplified-tax-invoice"
  | standardTaxInvoice => "standard-tax-invoice"
  | simplifiedCreditNote => "simplified-credit-note"
  | standardCreditNote => "standard-credit-note"
  | simplifiedDebitNote => "simplified-debit-note"
  | standardDebitNote => "standard-debit-note"
  | phase1Invoice => "phase1-invoice"
  | phase1CreditNote => "phase1-credit-note"

def isPhase1 : InvoiceKind → Bool
  | phase1Invoice | phase1CreditNote => true
  | _ => false

end InvoiceKind

/-- The kinds that are signed and chained. -/
abbrev Phase2Kind := {k : InvoiceKind // k.isPhase1 = false}

theorem InvoiceKind.isPhase1_simplifiedTaxInvoice : simplifiedTaxInvoice.isPhase1 = false := rfl

inductive InvoiceStatus where
  | pending
  | submitted
  | accepted
  | rejected
  | cancelled
  deriving DecidableEq, Repr

structure TenantScope where
  vatNumber : String
  egsUuid : String
  deriving DecidableEq, Repr

structure InvoiceRecord where
  invoiceId : String
  kind : InvoiceKind
  serial : String
  counterNumber : Nat
  uuid : String
  invoiceHash : String
  previousInvoiceHash : String
  signedXml : String
  qrBase64 : String
  issuedAt : Date
  status : InvoiceStatus
  clearanceNumber : Option String := none
  validationResults : Option Json := none
  deriving DecidableEq

structure EGSUnitLocation where
  cityName : String
  citySubdivision : String
  street : String
  plotIdentification : String
  building : String
  postalZone : String
  deriving DecidableEq, Repr

structure EGSCertificate where
  privateKey : Option String := none
  csr : Option String := none
  complianceCertificate : Option String := none
  complianceApiSecret : Option String := none
  productionCertificate : Option String := none
  productionApiSecret : Option String := none
  deriving DecidableEq, Repr

structure EGSUnitInfo where
  uuid : String
  customId : String
  model : String
  crnNumber : String
  vatName : String
  vatNumber : String
  branchName : String
  branchIndustry : String
  location : EGSUnitLocation
  certificate : Option EGSCertificate := none
  deriving DecidableEq, Repr

structure ZATCAInvoiceLineItemDiscount where
  amount : ℚ
  reason : String
  deriving DecidableEq

structure ZATCAInvoiceLineItem where
  id : String
  name : String
  quantity : ℚ
  taxExclusivePrice : ℚ
  /-- The percentages of the stacked non-VAT taxes. -/
  otherTaxes : List ℚ := []
  discounts : List ZATCAInvoiceLineItemDiscount := []
  vatPercent : ℚ
  deriving DecidableEq

structure ZATCAInvoiceCancelation where
  canceledInvoiceNumber : Nat
  paymentMethod : String
  cancelationType : String
  reason : String
  deriving DecidableEq, Repr

structure PartyAddress where
  streetName : String
  buildingNumber : String
  plotIdentification : Option String := none
  cityName : String
  citySubdivision : Option String := none
  postalZone : String
  countryCode : String
  deriving DecidableEq, Repr

structure BuyerInfo where
  vatNumber : Option String := none
  registrationName : String
  address : Option PartyAddress := none
  identityScheme : String
  identityNumber : String
  deriving DecidableEq, Repr

/-- What the caller of an issuer says about the document. -/
structure BusinessInput where
  issueDate : String
  issueTime : String
  lineItems : List ZATCAInvoiceLineItem
  cancelation : Option ZATCAInvoiceCancelation := none
  buyerName : Option String := none
  buyerInfo : Option BuyerInfo := none
  deriving DecidableEq

/-- The business input with what the issuer overlays after the storage handshake. -/
structure InvoiceInput extends BusinessInput where
  kind : InvoiceKind
  egsInfo : EGSUnitInfo
  invoiceCounterNumber : Nat
  invoiceSerialNumber : String
  previousInvoiceHash : String
  deriving DecidableEq

structure ZatcaApiError where
  message : String
  statusCode : Nat
  validationResults : Option Json := none
  requestId : Option String := none
  rawResponse : Option Json := none
  deriving DecidableEq

inductive RegistryErrorCode where
  | notFound
  | conflict
  deriving DecidableEq, Repr

/-- Everything the library, the server and the host beneath them throw; the last constructor is a
value that is no `Error`. -/
inductive Thrown where
  | zatcaValidationError (message : String)
  | zatcaApiError (e : ZatcaApiError)
  | zatcaSigningError (message : String)
  | zatcaCertificateError (message : String)
  | zatcaOnboardingError (message : String)
  | zatcaStorageError (message : String)
  | zatcaServerError (message : String) (statusHint : Option Nat)
  | zatcaRegistryError (message : String) (code : RegistryErrorCode)
  | zatcaAuthError (message : String) (statusHint : Nat)
  | zatcaCipherError (message : String)
  | typeError (message : String)
  | abortError (message : String)
  | error (message : String)
  | other (value : Json)
  deriving DecidableEq

/-- Digest of the empty predecessor: the chain of a scope starts from it. -/
def ZATCA_BASE_INVOICE_HASH : String :=
  "NWZlY2ViNjZmZmM4NmYzOGQ5NTI3ODZjNmQ2OTZjNzljMmRiYzIzOWRkNGU5MWI0NjcyOWQ3M2EyN2ZiNTdlOQ=="

end Zatca
