import Zatca.Core.Number
import Zatca.Core.Types
import Zatca.Library.Placeholder
set_option autoImplicit false
set_option linter.style.longLine false
namespace Zatca

/-- `text.replace(pattern, replacement)` with a text as the pattern. -/
def replace (text pattern replacement : String) : String :=
  String.ofList (Placeholder.replaceFirst pattern.toList replacement.toList text.toList)

/-- A template literal: the text before the first value, then each value with the text after it. -/
structure TemplateLiteral (σ : Type) where
  head : String
  tail : List (σ × String)

def TemplateLiteral.render {σ : Type} (T : TemplateLiteral σ) (value : σ → String) : String :=
  T.tail.foldl (fun text p => text ++ value p.1 ++ p.2) T.head

/-! ### The invoice templates -/

namespace ZATCA_INVOICE_TYPES

def INVOICE : String := "388"
def DEBIT_NOTE : String := "383"
def CREDIT_NOTE : String := "381"

end ZATCA_INVOICE_TYPES

/-! What the six documents share: they differ in the subtype literal and in the customer party. -/

def templateHead : String :=
  "
<?xml version=\"1.0\" encoding=\"UTF-8\"?>
<Invoice xmlns=\"urn:oasis:names:specification:ubl:schema:xsd:Invoice-2\" xmlns:cac=\"urn:oasis:names:specification:ubl:schema:xsd:CommonAggregateComponents-2\" xmlns:cbc=\"urn:oasis:names:specification:ubl:schema:xsd:CommonBasicComponents-2\" xmlns:ext=\"urn:oasis:names:specification:ubl:schema:xsd:CommonExtensionComponents-2\"><ext:UBLExtensions>SET_UBL_EXTENSIONS_STRING</ext:UBLExtensions>

    <cbc:ProfileID>reporting:1.0</cbc:ProfileID>
    <cbc:ID>SET_INVOICE_SERIAL_NUMBER</cbc:ID>
    <cbc:UUID>SET_TERMINAL_UUID</cbc:UUID>
    <cbc:IssueDate>SET_ISSUE_DATE</cbc:IssueDate>
    <cbc:IssueTime>SET_ISSUE_TIME</cbc:IssueTime>
    <cbc:InvoiceTypeCode name=\""

def templateMiddle : String :=
  "\">SET_INVOICE_TYPE</cbc:InvoiceTypeCode>
    <cbc:DocumentCurrencyCode>SAR</cbc:DocumentCurrencyCode>
    <cbc:TaxCurrencyCode>SAR</cbc:TaxCurrencyCode>
    SET_BILLING_REFERENCE
    <cac:AdditionalDocumentReference>
        <cbc:ID>ICV</cbc:ID>
        <cbc:UUID>SET_INVOICE_COUNTER_NUMBER</cbc:UUID>
    </cac:AdditionalDocumentReference>
    <cac:AdditionalDocumentReference>
        <cbc:ID>PIH</cbc:ID>
        <cac:Attachment>
            <cbc:EmbeddedDocumentBinaryObject mimeCode=\"text/plain\">SET_PREVIOUS_INVOICE_HASH</cbc:EmbeddedDocumentBinaryObject>
        </cac:Attachment>
    </cac:AdditionalDocumentReference>
    <cac:AdditionalDocumentReference>
        <cbc:ID>QR</cbc:ID>
        <cac:Attachment>
            <cbc:EmbeddedDocumentBinaryObject mimeCode=\"text/plain\">SET_QR_CODE_DATA</cbc:EmbeddedDocumentBinaryObject>
        </cac:Attachment>
    </cac:AdditionalDocumentReference>
    <cac:Signature>
        <cbc:ID>urn:oasis:names:specification:ubl:signature:Invoice</cbc:ID>
        <cbc:SignatureMethod>urn:oasis:names:specification:ubl:dsig:enveloped:xades</cbc:SignatureMethod>
    </cac:Signature>
    <cac:AccountingSupplierParty>
    <cac:Party>
      <cac:PartyIdentification>
        <cbc:ID schemeID=\"CRN\">SET_COMMERCIAL_REGISTRATION_NUMBER</cbc:ID>
      </cac:PartyIdentification>
      <cac:PostalAddress>
        <cbc:StreetName>SET_STREET_NAME</cbc:StreetName>
        <cbc:BuildingNumber>SET_BUILDING_NUMBER</cbc:BuildingNumber>
        <cbc:PlotIdentification>SET_PLOT_IDENTIFICATION</cbc:PlotIdentification>
        <cbc:CitySubdivisionName>SET_CITY_SUBDIVISION</cbc:CitySubdivisionName>
        <cbc:CityName>SET_CITY</cbc:CityName>
        <cbc:PostalZone>SET_POSTAL_NUMBER</cbc:PostalZone>
        <cac:Country>
          <cbc:IdentificationCode>SA</cbc:IdentificationCode>
        </cac:Country>
      </cac:PostalAddress>
      <cac:PartyTaxScheme>
        <cbc:CompanyID>SET_VAT_NUMBER</cbc:CompanyID>
        <cac:TaxScheme>
          <cbc:ID>VAT</cbc:ID>
        </cac:TaxScheme>
      </cac:PartyTaxScheme>
      <cac:PartyLegalEntity>
        <cbc:RegistrationName>SET_VAT_NAME</cbc:RegistrationName>
      </cac:PartyLegalEntity>
    </cac:Party>
  </cac:AccountingSupplierParty>
  <cac:AccountingCustomerParty>"

def templateTail : String :=
  "</cac:AccountingCustomerParty>
</Invoice>
"

def invoiceTemplate (subtype customerParty : String) : String :=
  templateHead ++ subtype ++ templateMiddle ++ customerParty ++ templateTail

def billingReferenceTemplate : String :=
  "
<cac:BillingReference>
    <cac:InvoiceDocumentReference>
        <cbc:ID>SET_CANCELED_INVOICE_NUMBER</cbc:ID>
    </cac:InvoiceDocumentReference>
</cac:BillingReference>
"

def generateInvoiceBillingReference (canceledInvoiceNumber : Nat) : String :=
  replace billingReferenceTemplate "SET_CANCELED_INVOICE_NUMBER" (toString canceledInvoiceNumber)

namespace InvoiceInput

variable (input : InvoiceInput)

def invoiceType (fallback : String) : String :=
  match input.cancelation with
  | some cancelation => cancelation.cancelationType
  | none => fallback

def billingReference : String :=
  match input.cancelation with
  | some cancelation => generateInvoiceBillingReference cancelation.canceledInvoiceNumber
  | none => ""

def buyerLiteral : TemplateLiteral Unit where
  head := "
    <cac:Party>
      <cac:PartyLegalEntity>
        <cbc:RegistrationName>"
  tail := [((),"</cbc:RegistrationName>
      </cac:PartyLegalEntity>
    </cac:Party>")]

def buyerFragment : String :=
  match input.buyerName with
  | some buyerName => if buyerName = "" then "" else buyerLiteral.render fun _ => buyerName
  | none => ""

/-- The replacements that all six functions make, in their order. -/
def replacements (fallback : String) : List (String × String) :=
  [("SET_INVOICE_TYPE",input.invoiceType fallback),
    ("SET_BILLING_REFERENCE",input.billingReference),
    ("SET_INVOICE_SERIAL_NUMBER",input.invoiceSerialNumber),
    ("SET_TERMINAL_UUID",input.egsInfo.uuid),
    ("SET_ISSUE_DATE",input.issueDate),
    ("SET_ISSUE_TIME",input.issueTime),
    ("SET_PREVIOUS_INVOICE_HASH",input.previousInvoiceHash),
    ("SET_INVOICE_COUNTER_NUMBER",toString input.invoiceCounterNumber),
    ("SET_COMMERCIAL_REGISTRATION_NUMBER",input.egsInfo.crnNumber),
    ("SET_STREET_NAME",input.egsInfo.location.street),
    ("SET_BUILDING_NUMBER",input.egsInfo.location.building),
    ("SET_PLOT_IDENTIFICATION",input.egsInfo.location.plotIdentification),
    ("SET_CITY_SUBDIVISION",input.egsInfo.location.citySubdivision),
    ("SET_CITY",input.egsInfo.location.cityName),
    ("SET_POSTAL_NUMBER",input.egsInfo.location.postalZone),
    ("SET_VAT_NUMBER",input.egsInfo.vatNumber),
    ("SET_VAT_NAME",input.egsInfo.vatName)]

end InvoiceInput

/-- One `replace` after another. -/
def replaceEach (template : String) (replacements : List (String × String)) : String :=
  replacements.foldl (fun text r => replace text r.1 r.2) template

def populateSimplifiedTaxInvoiceTemplate (input : InvoiceInput) : String :=
  replaceEach (invoiceTemplate "0211010" "SET_BUYER_INFO")
    (input.replacements ZATCA_INVOICE_TYPES.INVOICE ++ [("SET_BUYER_INFO",input.buyerFragment)])

def populateStandardTaxInvoiceTemplate (input : InvoiceInput) : String :=
  replaceEach (invoiceTemplate "0100000" "") (input.replacements ZATCA_INVOICE_TYPES.INVOICE)

def populateSimplifiedCreditNoteTemplate (input : InvoiceInput) : String :=
  replaceEach (invoiceTemplate "0200000" "") (input.replacements ZATCA_INVOICE_TYPES.INVOICE)

def populateStandardCreditNoteTemplate (input : InvoiceInput) : String :=
  replaceEach (invoiceTemplate "0100000" "") (input.replacements ZATCA_INVOICE_TYPES.INVOICE)

def populateSimplifiedDebitNoteTemplate (input : InvoiceInput) : String :=
  replaceEach (invoiceTemplate "0200000" "") (input.replacements ZATCA_INVOICE_TYPES.DEBIT_NOTE)

def populateStandardDebitNoteTemplate (input : InvoiceInput) : String :=
  replaceEach (invoiceTemplate "0100000" "") (input.replacements ZATCA_INVOICE_TYPES.DEBIT_NOTE)

/-! ### Phase 1 -/

def ensureZatcaTimeZ (time : String) : String :=
  if time.toList.getLast? = some 'Z' then time else time ++ "Z"

namespace Phase1

structure Totals where
  subtotal : ℚ
  vatAmount : ℚ

def Totals.total (t : Totals) : ℚ := t.subtotal + t.vatAmount

def computeTotals (lineItems : List ZATCAInvoiceLineItem) : Totals :=
  lineItems.foldl (fun t item =>
    let lineTotal := item.taxExclusivePrice * item.quantity
    { subtotal := t.subtotal + lineTotal
      vatAmount := t.vatAmount + lineTotal * item.vatPercent / 100 }) ⟨0,0⟩

/-- The values of one line. -/
inductive LineSlot where
  | id
  | quantity
  | lineTotal
  | name
  | price
  deriving DecidableEq

def lineLiteral : TemplateLiteral LineSlot where
  head := "
  <cac:InvoiceLine>
    <cbc:ID>"
  tail := [
    (.id,"</cbc:ID>
    <cbc:InvoicedQuantity unitCode=\"PCE\">"),
    (.quantity,"</cbc:InvoicedQuantity>
    <cbc:LineExtensionAmount currencyID=\"SAR\">"),
    (.lineTotal,"</cbc:LineExtensionAmount>
    <cac:Item>
      <cbc:Name>"),
    (.name,"</cbc:Name>
    </cac:Item>
    <cac:Price>
      <cbc:PriceAmount currencyID=\"SAR\">"),
    (.price,"</cbc:PriceAmount>
    </cac:Price>
  </cac:InvoiceLine>")]

def lineValue (item : ZATCAInvoiceLineItem) (index : Nat) : LineSlot → String
  | .id => toString (index + 1)
  | .quantity => Number.toString item.quantity
  | .lineTotal => Number.toFixed (item.taxExclusivePrice * item.quantity) 2
  | .name => item.name
  | .price => Number.toFixed item.taxExclusivePrice 2

def linesXml (lineItems : List ZATCAInvoiceLineItem) : String :=
  (lineItems.mapIdx fun index item => lineLiteral.render (lineValue item index)).foldl (· ++ ·) ""

/-- The values of a Phase 1 document. -/
inductive DocumentSlot where
  | invoiceSerialNumber
  | issueDate
  | issueTime
  | typeCode
  | billingReference
  | vatName
  | vatNumber
  | street
  | building
  | cityName
  | postalZone
  | buyerName
  | vatAmount
  | subtotal
  | total
  | linesXml
  deriving DecidableEq

/-- What both builders share: they differ in the type code and in the billing reference. -/
def documentLiteral : TemplateLiteral DocumentSlot where
  head := "<?xml version=\"1.0\" encoding=\"UTF-8\"?>
<Invoice xmlns=\"urn:oasis:names:specification:ubl:schema:xsd:Invoice-2\" xmlns:cac=\"urn:oasis:names:specification:ubl:schema:xsd:CommonAggregateComponents-2\" xmlns:cbc=\"urn:oasis:names:specification:ubl:schema:xsd:CommonBasicComponents-2\">
  <cbc:ID>"
  tail := [
    (.invoiceSerialNumber,"</cbc:ID>
  <cbc:IssueDate>"),
    (.issueDate,"</cbc:IssueDate>
  <cbc:IssueTime>"),
    (.issueTime,"</cbc:IssueTime>
  <cbc:InvoiceTypeCode name=\"0100000\">"),
    (.typeCode,"</cbc:InvoiceTypeCode>
  <cbc:DocumentCurrencyCode>SAR</cbc:DocumentCurrencyCode>
  <cbc:TaxCurrencyCode>SAR</cbc:TaxCurrencyCode>

"),
    (.billingReference,"  <cac:AccountingSupplierParty>
    <cac:Party>
      <cac:PartyLegalEntity>
        <cbc:RegistrationName>"),
    (.vatName,"</cbc:RegistrationName>
      </cac:PartyLegalEntity>
      <cac:PartyTaxScheme>
        <cbc:CompanyID>"),
    (.vatNumber,"</cbc:CompanyID>
        <cac:TaxScheme>
          <cbc:ID>VAT</cbc:ID>
        </cac:TaxScheme>
      </cac:PartyTaxScheme>
      <cac:PostalAddress>
        <cbc:StreetName>"),
    (.street,"</cbc:StreetName>
        <cbc:BuildingNumber>"),
    (.building,"</cbc:BuildingNumber>
        <cbc:CityName>"),
    (.cityName,"</cbc:CityName>
        <cbc:PostalZone>"),
    (.postalZone,"</cbc:PostalZone>
        <cac:Country>
          <cbc:IdentificationCode>SA</cbc:IdentificationCode>
        </cac:Country>
      </cac:PostalAddress>
    </cac:Party>
  </cac:AccountingSupplierParty>

  <cac:AccountingCustomerParty>
    <cac:Party>
      <cac:PartyLegalEntity>
        <cbc:RegistrationName>"),
    (.buyerName,"</cbc:RegistrationName>
      </cac:PartyLegalEntity>
    </cac:Party>
  </cac:AccountingCustomerParty>

  <cac:TaxTotal>
    <cbc:TaxAmount currencyID=\"SAR\">"),
    (.vatAmount,"</cbc:TaxAmount>
  </cac:TaxTotal>

  <cac:LegalMonetaryTotal>
    <cbc:LineExtensionAmount currencyID=\"SAR\">"),
    (.subtotal,"</cbc:LineExtensionAmount>
    <cbc:TaxExclusiveAmount currencyID=\"SAR\">"),
    (.subtotal,"</cbc:TaxExclusiveAmount>
    <cbc:TaxInclusiveAmount currencyID=\"SAR\">"),
    (.total,"</cbc:TaxInclusiveAmount>
    <cbc:PayableAmount currencyID=\"SAR\">"),
    (.total,"</cbc:PayableAmount>
  </cac:LegalMonetaryTotal>
"),
    (.linesXml,"
</Invoice>")]

def documentValue (typeCode billingReference : String) (input : InvoiceInput) :
    DocumentSlot → String
  | .invoiceSerialNumber => input.invoiceSerialNumber
  | .issueDate => input.issueDate
  | .issueTime => input.issueTime
  | .typeCode => typeCode
  | .billingReference => billingReference
  | .vatName => input.egsInfo.vatName
  | .vatNumber => input.egsInfo.vatNumber
  | .street => input.egsInfo.location.street
  | .building => input.egsInfo.location.building
  | .cityName => input.egsInfo.location.cityName
  | .postalZone => input.egsInfo.location.postalZone
  | .buyerName => input.buyerName.getD "Customer"
  | .vatAmount => Number.toFixed (computeTotals input.lineItems).vatAmount 2
  | .subtotal => Number.toFixed (computeTotals input.lineItems).subtotal 2
  | .total => Number.toFixed (computeTotals input.lineItems).total 2
  | .linesXml => linesXml input.lineItems

/-- The block that only the credit note has. -/
def billingLiteral : TemplateLiteral Unit where
  head := "  <cac:BillingReference>
    <cac:InvoiceDocumentReference>
      <cbc:ID>"
  tail := [((),"</cbc:ID>
    </cac:InvoiceDocumentReference>
  </cac:BillingReference>

")]

def originalInvoiceNumber (input : InvoiceInput) : String :=
  match input.cancelation with
  | some cancelation => toString cancelation.canceledInvoiceNumber
  | none => ""

end Phase1

/-- The builder of either Phase 1 document; its constructor completes the issue time. -/
structure Phase1Builder where
  input : InvoiceInput

namespace Phase1Builder

def new (input : InvoiceInput) : Phase1Builder :=
  ⟨{ input with issueTime := ensureZatcaTimeZ input.issueTime }⟩

end Phase1Builder

/-- The text that `Phase1InvoiceBuilder.build` returns beside its QR code. -/
def Phase1InvoiceBuilder.invoiceXml (b : Phase1Builder) : String :=
  Phase1.documentLiteral.render (Phase1.documentValue "388" "" b.input)

/-- The text that `Phase1CreditNoteBuilder.build` returns beside its QR code. -/
def Phase1CreditNoteBuilder.invoiceXml (b : Phase1Builder) : String :=
  Phase1.documentLiteral.render (Phase1.documentValue "381"
    (Phase1.billingLiteral.render fun _ => Phase1.originalInvoiceNumber b.input) b.input)

/-- The text that is made for a document of each kind. -/
def producedXml (kind : InvoiceKind) (input : InvoiceInput) : String :=
  match kind with
  | .simplifiedTaxInvoice => populateSimplifiedTaxInvoiceTemplate input
  | .standardTaxInvoice => populateStandardTaxInvoiceTemplate input
  | .simplifiedCreditNote => populateSimplifiedCreditNoteTemplate input
  | .standardCreditNote => populateStandardCreditNoteTemplate input
  | .simplifiedDebitNote => populateSimplifiedDebitNoteTemplate input
  | .standardDebitNote => populateStandardDebitNoteTemplate input
  | .phase1Invoice => Phase1InvoiceBuilder.invoiceXml (Phase1Builder.new input)
  | .phase1CreditNote => Phase1CreditNoteBuilder.invoiceXml (Phase1Builder.new input)

end Zatca
