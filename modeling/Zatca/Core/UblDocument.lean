import Zatca.Core.Templates
import Zatca.Library.XmlTemplate
set_option autoImplicit false
namespace Zatca
open Xml Xml.Content

/-! The elements that the templates spell out, with a slot for every value. -/

def cbc (name : String) : List Char := 'c' :: 'b' :: 'c' :: ':' :: name.toList

def cac (name : String) : List Char := 'c' :: 'a' :: 'c' :: ':' :: name.toList

def ext (name : String) : List Char := 'e' :: 'x' :: 't' :: ':' :: name.toList

def ublSchema (name : String) : List Char :=
  "urn:oasis:names:".toList ++ "specification:ubl:".toList ++ "schema:xsd:".toList ++ name.toList

namespace Ubl

variable {σ : Type}

/-- A line break and the indentation of the next line. -/
def line (indent : Nat) (rest : Content σ) : Content σ :=
  text ('\n' :: List.replicate indent ' ') rest

/-- An element with constant character data. -/
def constant (name : List Char) (value : String) (rest : Content σ) : Content σ :=
  element name [] (text value.toList nil) rest

/-- An element whose character data is filled in. -/
def field (name : List Char) (s : σ) (rest : Content σ) : Content σ :=
  element name [] (slot s nil) rest

def party (name : List Char) (children rest : Content σ) : Content σ := element name [] children rest

def amount (name : List Char) (s : σ) (rest : Content σ) : Content σ :=
  element name [("currencyID".toList,"SAR".toList)] (slot s nil) rest

end Ubl

open Ubl

/-! ### The six Phase 2 documents -/

/-- The places of the invoice templates. -/
inductive Slot where
  | ublExtensions
  | invoiceType
  | billingReference
  | invoiceSerialNumber
  | terminalUuid
  | issueDate
  | issueTime
  | previousInvoiceHash
  | invoiceCounterNumber
  | qrCodeData
  | commercialRegistrationNumber
  | streetName
  | buildingNumber
  | plotIdentification
  | citySubdivision
  | city
  | postalNumber
  | vatNumber
  | vatName
  | buyerInfo
  deriving DecidableEq

namespace Slot

def placeholder : Slot → String
  | ublExtensions => "SET_UBL_EXTENSIONS_STRING"
  | invoiceType => "SET_INVOICE_TYPE"
  | billingReference => "SET_BILLING_REFERENCE"
  | invoiceSerialNumber => "SET_INVOICE_SERIAL_NUMBER"
  | terminalUuid => "SET_TERMINAL_UUID"
  | issueDate => "SET_ISSUE_DATE"
  | issueTime => "SET_ISSUE_TIME"
  | previousInvoiceHash => "SET_PREVIOUS_INVOICE_HASH"
  | invoiceCounterNumber => "SET_INVOICE_COUNTER_NUMBER"
  | qrCodeData => "SET_QR_CODE_DATA"
  | commercialRegistrationNumber => "SET_COMMERCIAL_REGISTRATION_NUMBER"
  | streetName => "SET_STREET_NAME"
  | buildingNumber => "SET_BUILDING_NUMBER"
  | plotIdentification => "SET_PLOT_IDENTIFICATION"
  | citySubdivision => "SET_CITY_SUBDIVISION"
  | city => "SET_CITY"
  | postalNumber => "SET_POSTAL_NUMBER"
  | vatNumber => "SET_VAT_NUMBER"
  | vatName => "SET_VAT_NAME"
  | buyerInfo => "SET_BUYER_INFO"

def token (s : Slot) : List Char := s.placeholder.toList

/-- Two places take markup. -/
def isText : Slot → Bool
  | billingReference | buyerInfo => false
  | _ => true

/-- The elements that filling a place can add. -/
def adds : Slot → List (List Char)
  | billingReference => [cac "BillingReference"]
  | buyerInfo => [cac "Party"]
  | _ => []

end Slot

def supplierParty : Content Slot :=
  line 4 <| party (cac "Party")
    (line 6 <| party (cac "PartyIdentification")
      (line 8 <| element (cbc "ID") [("schemeID".toList,"CRN".toList)]
        (slot .commercialRegistrationNumber nil) <| line 6 nil) <|
    line 6 <| party (cac "PostalAddress")
      (line 8 <| field (cbc "StreetName") .streetName <|
      line 8 <| field (cbc "BuildingNumber") .buildingNumber <|
      line 8 <| field (cbc "PlotIdentification") .plotIdentification <|
      line 8 <| field (cbc "CitySubdivisionName") .citySubdivision <|
      line 8 <| field (cbc "CityName") .city <|
      line 8 <| field (cbc "PostalZone") .postalNumber <|
      line 8 <| party (cac "Country")
        (line 10 <| constant (cbc "IdentificationCode") "SA" <| line 8 nil) <| line 6 nil) <|
    line 6 <| party (cac "PartyTaxScheme")
      (line 8 <| field (cbc "CompanyID") .vatNumber <|
      line 8 <| party (cac "TaxScheme")
        (line 10 <| constant (cbc "ID") "VAT" <| line 8 nil) <| line 6 nil) <|
    line 6 <| party (cac "PartyLegalEntity")
      (line 8 <| field (cbc "RegistrationName") .vatName <| line 6 nil) <| line 4 nil) <|
  line 2 nil

def additionalDocument (id : String) (value : Slot) (rest : Content Slot) : Content Slot :=
  party (cac "AdditionalDocumentReference")
    (line 8 <| constant (cbc "ID") id <|
    line 8 <| party (cac "Attachment")
      (line 12 <| element (cbc "EmbeddedDocumentBinaryObject")
        [("mimeCode".toList,"text/plain".toList)] (slot value nil) <| line 8 nil) <| line 4 nil) rest

def beforeTypeCode : Content Slot :=
  field (ext "UBLExtensions") .ublExtensions <|
  line 0 <| line 4 <| constant (cbc "ProfileID") "reporting:1.0" <|
  line 4 <| field (cbc "ID") .invoiceSerialNumber <|
  line 4 <| field (cbc "UUID") .terminalUuid <|
  line 4 <| field (cbc "IssueDate") .issueDate <|
  line 4 <| field (cbc "IssueTime") .issueTime <|
  line 4 nil

def afterTypeCode : Content Slot :=
  line 4 <| constant (cbc "DocumentCurrencyCode") "SAR" <|
  line 4 <| constant (cbc "TaxCurrencyCode") "SAR" <|
  line 4 <| slot .billingReference <|
  line 4 <| party (cac "AdditionalDocumentReference")
    (line 8 <| constant (cbc "ID") "ICV" <|
    line 8 <| field (cbc "UUID") .invoiceCounterNumber <| line 4 nil) <|
  line 4 <| additionalDocument "PIH" .previousInvoiceHash <|
  line 4 <| additionalDocument "QR" .qrCodeData <|
  line 4 <| party (cac "Signature")
    (line 8 <| constant (cbc "ID") "urn:oasis:names:specification:ubl:signature:Invoice" <|
    line 8 <| constant (cbc "SignatureMethod")
      "urn:oasis:names:specification:ubl:dsig:enveloped:xades" <| line 4 nil) <|
  line 4 <| party (cac "AccountingSupplierParty") supplierParty <|
  line 2 nil

def invoiceChildren (subtype : String) (customerParty : Content Slot) : Content Slot :=
  beforeTypeCode.append <|
  element (cbc "InvoiceTypeCode") [("name".toList,subtype.toList)] (slot .invoiceType nil) <|
  afterTypeCode.append <|
  party (cac "AccountingCustomerParty") customerParty <|
  line 0 nil

def ublNamespaces : Attributes :=
  [("xmlns".toList,ublSchema "Invoice-2"),
    ("xmlns:cac".toList,ublSchema "CommonAggregateComponents-2"),
    ("xmlns:cbc".toList,ublSchema "CommonBasicComponents-2")]

def extNamespace : Attributes := [("xmlns:ext".toList,ublSchema "CommonExtensionComponents-2")]

def invoiceBody (subtype : String) (customerParty : Content Slot) : Content Slot :=
  line 0 <| element "Invoice".toList (ublNamespaces ++ extNamespace)
    (invoiceChildren subtype customerParty) <| line 0 nil

/-- The fragment for a document that refers to another. -/
def billingReferenceContent : Content Unit :=
  line 0 <| party (cac "BillingReference")
    (line 4 <| party (cac "InvoiceDocumentReference")
      (line 8 <| field (cbc "ID") () <| line 4 nil) <| line 0 nil) <|
  line 0 nil

def buyerContent : Content Unit :=
  line 4 <| party (cac "Party")
    (line 6 <| party (cac "PartyLegalEntity")
      (line 8 <| field (cbc "RegistrationName") () <| line 6 nil) <| line 4 nil) nil

/-! ### The two Phase 1 documents -/

namespace Phase1

def lineChildren : Content LineSlot :=
  line 4 <| field (cbc "ID") .id <|
  line 4 <| element (cbc "InvoicedQuantity") [("unitCode".toList,"PCE".toList)]
    (slot .quantity nil) <|
  line 4 <| amount (cbc "LineExtensionAmount") .lineTotal <|
  line 4 <| party (cac "Item") (line 6 <| field (cbc "Name") .name <| line 4 nil) <|
  line 4 <| party (cac "Price") (line 6 <| amount (cbc "PriceAmount") .price <| line 4 nil) <|
  line 2 nil

def lineContent : Content LineSlot := line 2 <| party (cac "InvoiceLine") lineChildren nil

def billingContent : Content Unit :=
  text [' ',' '] <| party (cac "BillingReference")
    (line 4 <| party (cac "InvoiceDocumentReference")
      (line 6 <| field (cbc "ID") () <| line 4 nil) <| line 2 nil) <|
  line 0 <| line 0 nil

def supplierParty : Content DocumentSlot :=
  line 4 <| party (cac "Party")
    (line 6 <| party (cac "PartyLegalEntity")
      (line 8 <| field (cbc "RegistrationName") .vatName <| line 6 nil) <|
    line 6 <| party (cac "PartyTaxScheme")
      (line 8 <| field (cbc "CompanyID") .vatNumber <|
      line 8 <| party (cac "TaxScheme")
        (line 10 <| constant (cbc "ID") "VAT" <| line 8 nil) <| line 6 nil) <|
    line 6 <| party (cac "PostalAddress")
      (line 8 <| field (cbc "StreetName") .street <|
      line 8 <| field (cbc "BuildingNumber") .building <|
      line 8 <| field (cbc "CityName") .cityName <|
      line 8 <| field (cbc "PostalZone") .postalZone <|
      line 8 <| party (cac "Country")
        (line 10 <| constant (cbc "IdentificationCode") "SA" <| line 8 nil) <| line 6 nil) <|
    line 4 nil) <|
  line 2 nil

def customerParty : Content DocumentSlot :=
  line 4 <| party (cac "Party")
    (line 6 <| party (cac "PartyLegalEntity")
      (line 8 <| field (cbc "RegistrationName") .buyerName <| line 6 nil) <| line 4 nil) <|
  line 2 nil

def documentChildren : Content DocumentSlot :=
  line 2 <| field (cbc "ID") .invoiceSerialNumber <|
  line 2 <| field (cbc "IssueDate") .issueDate <|
  line 2 <| field (cbc "IssueTime") .issueTime <|
  line 2 <| element (cbc "InvoiceTypeCode") [("name".toList,"0100000".toList)]
    (slot .typeCode nil) <|
  line 2 <| constant (cbc "DocumentCurrencyCode") "SAR" <|
  line 2 <| constant (cbc "TaxCurrencyCode") "SAR" <|
  line 0 <| line 0 <| slot .billingReference <|
  text [' ',' '] <| party (cac "AccountingSupplierParty") supplierParty <|
  line 0 <| line 2 <| party (cac "AccountingCustomerParty") customerParty <|
  line 0 <| line 2 <| party (cac "TaxTotal")
    (line 4 <| amount (cbc "TaxAmount") .vatAmount <| line 2 nil) <|
  line 0 <| line 2 <| party (cac "LegalMonetaryTotal")
    (line 4 <| amount (cbc "LineExtensionAmount") .subtotal <|
    line 4 <| amount (cbc "TaxExclusiveAmount") .subtotal <|
    line 4 <| amount (cbc "TaxInclusiveAmount") .total <|
    line 4 <| amount (cbc "PayableAmount") .total <| line 2 nil) <|
  line 0 <| slot .linesXml <|
  line 0 nil

def documentBody : Content DocumentSlot :=
  line 0 <| element "Invoice".toList ublNamespaces documentChildren nil

end Phase1

/-! ### Numbers are character data -/

theorem charData_of_forall {cs : List Char} (h : ∀ c ∈ cs, isPlain c = true ∧ c ≠ ']') :
    CharData cs where
  plain c hc := (h c hc).1
  noSectionEnd hs := (h ']' (hs.subset (by decide))).2 rfl

theorem digits_of_toString (n : Nat) : ∀ c ∈ (toString n).toList, c.isDigit = true := by
  intro c hc
  have h : (toString n).toList = Nat.toDigits 10 n := by
    simp [Nat.toString_eq_repr,Nat.repr]
  exact Digits.isDigits_toDigits n c (h ▸ hc)

theorem plain_of_isDigit {c : Char} (h : c.isDigit = true) :
    isPlain c = true ∧ c ≠ ']' ∧ c ≠ '$' ∧ c ≠ '_' := by
  have hne : ∀ d : Char, d.isDigit = false → c ≠ d := by
    rintro d hd rfl
    rw [hd] at h
    cases h
  refine ⟨?_,hne _ rfl,hne _ rfl,hne _ rfl⟩
  have hlt : c ≠ '<' := hne _ rfl
  have hamp : c ≠ '&' := hne _ rfl
  have hcr : c ≠ '\r' := hne _ rfl
  simp only [Char.isDigit,Bool.and_eq_true,decide_eq_true_eq] at h
  have hlow : 0x20 ≤ c.val := UInt32.le_trans (by decide) h.1
  have hhigh : c.val ≤ 0xFFFD := UInt32.le_trans h.2 (by decide)
  simp [isPlain,isXmlChar,hlow,hhigh,hlt,hamp,hcr]

theorem charData_toString (n : Nat) : CharData (toString n).toList :=
  charData_of_forall fun c hc =>
    ⟨(plain_of_isDigit (digits_of_toString n c hc)).1,(plain_of_isDigit (digits_of_toString n c hc)).2.1⟩

/-! ### The literals are the texts of the contents -/

/-- The literal as a template of characters. -/
def TemplateLiteral.chars {σ : Type} (T : TemplateLiteral σ) : Placeholder.Template σ :=
  ⟨T.head.toList,T.tail.map fun p => (p.1,p.2.toList)⟩

theorem TemplateLiteral.render_toList {σ : Type} (T : TemplateLiteral σ) (value : σ → String) :
    (T.render value).toList = T.chars.render fun s => (value s).toList := by
  obtain ⟨head,tail⟩ := T
  simp only [render,chars,Placeholder.Template.render]
  induction tail generalizing head with
  | nil => simp
  | cons p tail ih =>
    simp only [List.foldl_cons,ih]
    simp

theorem buyerLiteral_chars : InvoiceInput.buyerLiteral.chars = buyerContent.template := by
  decide +kernel

theorem Phase1.lineLiteral_chars : lineLiteral.chars = lineContent.template := by
  rw [TemplateLiteral.chars,lineLiteral]
  simp only [List.map_cons,List.map_nil,-String.reduceToList]
  repeat rw [String.toList_ofList]
  decide +kernel

theorem Phase1.billingLiteral_chars : billingLiteral.chars = billingContent.template := by
  decide +kernel

theorem Phase1.documentLiteral_chars :
    documentLiteral.chars = (text declaration documentBody).template := by
  rw [TemplateLiteral.chars,documentLiteral]
  simp only [List.map_cons,List.map_nil,-String.reduceToList]
  repeat rw [String.toList_ofList]
  decide +kernel

def invoiceText (subtype : String) (customerParty : Content Slot) : List Char :=
  '\n' :: (declaration ++ (invoiceBody subtype customerParty).print Slot.token)

set_option maxRecDepth 100000 in
theorem templateHead_toList : templateHead.toList = '\n' :: (declaration ++ '\n' ::
    (startTag "Invoice".toList (ublNamespaces ++ extNamespace) ++
    (beforeTypeCode.print Slot.token ++ '<' :: (cbc "InvoiceTypeCode" ++ ' ' ::
    ("name".toList ++ ['=','"']))))) := by
  have h : templateHead.toList = _ := String.toList_ofList
  rw [h]
  decide +kernel

set_option maxRecDepth 100000 in
theorem templateMiddle_toList : templateMiddle.toList = '"' :: '>' ::
    (Slot.token .invoiceType ++ (endTag (cbc "InvoiceTypeCode") ++
    (afterTypeCode.print Slot.token ++ startTag (cac "AccountingCustomerParty") []))) := by
  have h : templateMiddle.toList = _ := String.toList_ofList
  rw [h]
  decide +kernel

theorem templateTail_toList : templateTail.toList =
    endTag (cac "AccountingCustomerParty") ++ ('\n' :: (endTag "Invoice".toList ++ ['\n'])) := by
  decide

theorem invoiceTemplate_toList (subtype : String) {customerParty : String} {content : Content Slot}
    (h : customerParty.toList = content.print Slot.token) :
    (invoiceTemplate subtype customerParty).toList = invoiceText subtype content := by
  simp only [invoiceTemplate,String.toList_append,templateHead_toList,templateMiddle_toList,
    templateTail_toList,h,invoiceText,invoiceBody,invoiceChildren,print,print_append,line,party,
    startTag,endTag,printAttributes,List.replicate_zero,List.append_assoc,List.cons_append,
    List.nil_append,List.append_nil,-String.reduceToList]

end Zatca
