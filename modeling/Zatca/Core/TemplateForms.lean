import Zatca.Core.UblDocument
set_option autoImplicit false
namespace Zatca
open Xml Xml.Content Placeholder Ubl

/-! ### Where the values stand -/

abbrev Path := List (List Char × Nat)

def invoicePath (path : Path) : Path := ("Invoice".toList,0) :: path

def supplierPath (path : Path) : Path :=
  invoicePath ((cac "AccountingSupplierParty",0) :: (cac "Party",0) :: path)

def customerPath : Path :=
  invoicePath [(cac "AccountingCustomerParty",0),(cac "Party",0),(cac "PartyLegalEntity",0),
    (cbc "RegistrationName",0)]

def billingPath : Path :=
  invoicePath [(cac "BillingReference",0),(cac "InvoiceDocumentReference",0),(cbc "ID",0)]

/-- The `i`-th additional document, which carries its content as an attachment. -/
def attachmentPath (i : Nat) : Path :=
  invoicePath [(cac "AdditionalDocumentReference",i),(cac "Attachment",0),
    (cbc "EmbeddedDocumentBinaryObject",0)]

def Slot.path : Slot → Path
  | ublExtensions => invoicePath [(ext "UBLExtensions",0)]
  | invoiceType => invoicePath [(cbc "InvoiceTypeCode",0)]
  | billingReference => billingPath
  | invoiceSerialNumber => invoicePath [(cbc "ID",0)]
  | terminalUuid => invoicePath [(cbc "UUID",0)]
  | issueDate => invoicePath [(cbc "IssueDate",0)]
  | issueTime => invoicePath [(cbc "IssueTime",0)]
  | previousInvoiceHash => attachmentPath 1
  | invoiceCounterNumber => invoicePath [(cac "AdditionalDocumentReference",0),(cbc "UUID",0)]
  | qrCodeData => attachmentPath 2
  | commercialRegistrationNumber => supplierPath [(cac "PartyIdentification",0),(cbc "ID",0)]
  | streetName => supplierPath [(cac "PostalAddress",0),(cbc "StreetName",0)]
  | buildingNumber => supplierPath [(cac "PostalAddress",0),(cbc "BuildingNumber",0)]
  | plotIdentification => supplierPath [(cac "PostalAddress",0),(cbc "PlotIdentification",0)]
  | citySubdivision => supplierPath [(cac "PostalAddress",0),(cbc "CitySubdivisionName",0)]
  | city => supplierPath [(cac "PostalAddress",0),(cbc "CityName",0)]
  | postalNumber => supplierPath [(cac "PostalAddress",0),(cbc "PostalZone",0)]
  | vatNumber => supplierPath [(cac "PartyTaxScheme",0),(cbc "CompanyID",0)]
  | vatName => supplierPath [(cac "PartyLegalEntity",0),(cbc "RegistrationName",0)]
  | buyerInfo => customerPath

/-- What the six functions put in each place; two places are left for the signing step. -/
def Slot.value (input : InvoiceInput) (fallback : String) : Slot → String
  | ublExtensions => placeholder .ublExtensions
  | invoiceType => input.invoiceType fallback
  | billingReference => input.billingReference
  | invoiceSerialNumber => input.invoiceSerialNumber
  | terminalUuid => input.egsInfo.uuid
  | issueDate => input.issueDate
  | issueTime => input.issueTime
  | previousInvoiceHash => input.previousInvoiceHash
  | invoiceCounterNumber => toString input.invoiceCounterNumber
  | qrCodeData => placeholder .qrCodeData
  | commercialRegistrationNumber => input.egsInfo.crnNumber
  | streetName => input.egsInfo.location.street
  | buildingNumber => input.egsInfo.location.building
  | plotIdentification => input.egsInfo.location.plotIdentification
  | citySubdivision => input.egsInfo.location.citySubdivision
  | city => input.egsInfo.location.cityName
  | postalNumber => input.egsInfo.location.postalZone
  | vatNumber => input.egsInfo.vatNumber
  | vatName => input.egsInfo.vatName
  | buyerInfo => input.buyerFragment

/-- What sets the six documents apart. -/
structure Form where
  subtype : String
  hasBuyerPlace : Bool
  fallback : String

def InvoiceKind.form : InvoiceKind → Form
  | simplifiedTaxInvoice => ⟨"0211010",true,ZATCA_INVOICE_TYPES.INVOICE⟩
  | simplifiedCreditNote => ⟨"0200000",false,ZATCA_INVOICE_TYPES.INVOICE⟩
  | simplifiedDebitNote => ⟨"0200000",false,ZATCA_INVOICE_TYPES.DEBIT_NOTE⟩
  | standardDebitNote => ⟨"0100000",false,ZATCA_INVOICE_TYPES.DEBIT_NOTE⟩
  | _ => ⟨"0100000",false,ZATCA_INVOICE_TYPES.INVOICE⟩

namespace Form

variable (f : Form)

def buyerSlots : List Slot := if f.hasBuyerPlace then [.buyerInfo] else []

/-- The places in the order in which they are filled. -/
def fillOrder : List Slot :=
  [.invoiceType,.billingReference,.invoiceSerialNumber,.terminalUuid,.issueDate,.issueTime,
    .previousInvoiceHash,.invoiceCounterNumber,.commercialRegistrationNumber,.streetName,
    .buildingNumber,.plotIdentification,.citySubdivision,.city,.postalNumber,.vatNumber,
    .vatName] ++ f.buyerSlots

/-- The places in the order in which they stand. -/
def places : List Slot :=
  [.ublExtensions,.invoiceSerialNumber,.terminalUuid,.issueDate,.issueTime,.invoiceType,
    .billingReference,.invoiceCounterNumber,.previousInvoiceHash,.qrCodeData,
    .commercialRegistrationNumber,.streetName,.buildingNumber,.plotIdentification,
    .citySubdivision,.city,.postalNumber,.vatNumber,.vatName] ++ f.buyerSlots

/-- A place that is filled later and stands behind: its placeholder in a value is mistaken for it. -/
def Exposes (u s : Slot) : Prop := [u,s].Sublist f.fillOrder ∧ [u,s].Sublist f.places

def customerParty : Content Slot := if f.hasBuyerPlace then slot .buyerInfo nil else nil

def body : Content Slot := invoiceBody f.subtype f.customerParty

end Form

/-! ### Checks of the template -/

def isLetter (c : Char) : Bool := c.isUpper || c == '_'

theorem placeholder_letters (s : Slot) :
    '_' ∈ s.token ∧ ∀ c ∈ s.token, isLetter c = true := by
  have hmark : '_' ∈ s.token := by cases s <;> decide
  refine ⟨hmark,forall_mem_of_all ?_⟩
  cases s <;> decide

/-- The forms that differ in their text. -/
def forms : List Form :=
  [InvoiceKind.simplifiedTaxInvoice.form,InvoiceKind.simplifiedCreditNote.form,
    InvoiceKind.standardTaxInvoice.form]

theorem form_mem (kind : InvoiceKind) : ∃ f ∈ forms, f.subtype = kind.form.subtype ∧
    f.hasBuyerPlace = kind.form.hasBuyerPlace := by
  cases kind <;> simp [forms,InvoiceKind.form]

theorem forms_apart : ∀ f ∈ forms,
    (text ('\n' :: declaration) f.body).template.isApart '_' isLetter = true := by
  decide +kernel

theorem forms_template : ∀ f ∈ forms, f.body.isTemplate Slot.isText = true := by
  decide +kernel

theorem forms_path : ∀ f ∈ forms, ∀ s ∈ f.places,
    s.isText = true → f.body.slotAt Slot.adds s.path = some s := by
  decide +kernel

/-- Of two placeholders one of which begins with the other the longer is filled first. -/
theorem forms_placeholder : ∀ f ∈ forms, ∀ s ∈ f.fillOrder, ∀ u ∈ f.places, u ≠ s →
    s.token <:+: u.token → [u,s].Sublist f.fillOrder := by
  decide +kernel

/-- The buyer is filled in last. -/
theorem forms_buyer : ∀ f ∈ forms, ∀ s ∈ f.places, ¬ [.buyerInfo,s].Sublist f.fillOrder := by
  decide

theorem forms_fragment : ∀ f ∈ forms,
    f.body.contributorAt Slot.adds (invoicePath []) (cac "BillingReference") =
        some .billingReference ∧
      (f.hasBuyerPlace = true → f.body.contributorAt Slot.adds
        (invoicePath [(cac "AccountingCustomerParty",0)]) (cac "Party") = some .buyerInfo) := by
  decide +kernel

/-- Two places are left for the signing step. -/
theorem forms_left : ∀ f ∈ forms, ∀ s ∈ f.places,
    s ∈ f.fillOrder ∨ s = .ublExtensions ∨ s = .qrCodeData := by
  decide

theorem forms_places : ∀ f ∈ forms, f.body.slots = f.places ∧ f.places.Nodup ∧
    f.fillOrder.Nodup ∧ ∀ s ∈ f.fillOrder, s ∈ f.places := by
  decide +kernel

/-- The places can be found and filled one after another. -/
structure Form.Sound (f : Form) : Prop where
  apart : (text ('\n' :: declaration) f.body).template.isApart '_' isLetter = true
  template : f.body.isTemplate Slot.isText = true
  path : ∀ s ∈ f.places, s.isText = true → f.body.slotAt Slot.adds s.path = some s
  billing : f.body.contributorAt Slot.adds (invoicePath []) (cac "BillingReference") =
    some .billingReference
  customer : f.hasBuyerPlace = true → f.body.contributorAt Slot.adds
    (invoicePath [(cac "AccountingCustomerParty",0)]) (cac "Party") = some .buyerInfo
  placeholder : ∀ s ∈ f.fillOrder, ∀ u ∈ f.places, u ≠ s → s.token <:+: u.token →
    [u,s].Sublist f.fillOrder
  buyer : ∀ s ∈ f.places, ¬ [.buyerInfo,s].Sublist f.fillOrder
  left : ∀ s ∈ f.places, s ∈ f.fillOrder ∨ s = .ublExtensions ∨ s = .qrCodeData
  slots : f.body.slots = f.places
  places : f.places.Nodup
  fillOrder : f.fillOrder.Nodup
  mem_places : ∀ s ∈ f.fillOrder, s ∈ f.places

theorem form_sound (kind : InvoiceKind) : kind.form.Sound := by
  obtain ⟨f,hf,hsubtype,hbuyer⟩ := form_mem kind
  have hbody : f.body = kind.form.body := by simp only [Form.body,Form.customerParty,hsubtype,hbuyer]
  have horder : f.fillOrder = kind.form.fillOrder := by
    simp only [Form.fillOrder,Form.buyerSlots,hbuyer]
  have hplaces : f.places = kind.form.places := by simp only [Form.places,Form.buyerSlots,hbuyer]
  have hslots := forms_places f hf
  have hpath := forms_path f hf
  have hplaceholder := forms_placeholder f hf
  have hlast := forms_buyer f hf
  have hleft := forms_left f hf
  have hfragment := forms_fragment f hf
  rw [hbody,horder,hplaces] at hslots
  rw [hbody,hplaces] at hpath
  rw [hbody,hbuyer] at hfragment
  rw [horder,hplaces] at hplaceholder hlast hleft
  exact
    { apart := hbody ▸ forms_apart f hf
      template := hbody ▸ forms_template f hf
      path := hpath
      billing := hfragment.1
      customer := hfragment.2
      placeholder := hplaceholder
      buyer := hlast
      left := hleft
      slots := hslots.1
      places := hslots.2.1
      fillOrder := hslots.2.2.1
      mem_places := hslots.2.2.2 }

end Zatca
