import Zatca.Core.Branded
import Zatca.Core.Totals
set_option autoImplicit false

/-! The schemas of the inputs. The three fields that the storage fills in are placeholders in an
input; what is said of them is left out. -/

namespace Zatca

/-- A test of what an object has under a key; none is `undefined`. -/
abbrev Schema := Option Json → Bool

namespace Schema

def string (checks : List (String → Bool)) : Schema
  | some (.str s) => checks.all (fun check => check s)
  | _ => false

def number (checks : List (ℚ → Bool)) : Schema
  | some (.num q) => checks.all (fun check => check q)
  | _ => false

def array (minLength : Nat) (item : Schema) : Schema
  | some (.arr xs) => minLength ≤ xs.length && xs.all (fun x => item (some x))
  | _ => false

/-- Keys that the schema does not name are let through. -/
def object (shape : List (String × Schema)) : Schema
  | some (.obj fields) => shape.all (fun (key,schema) => schema (fields.lookup key))
  | _ => false

def optional (schema : Schema) : Schema
  | none => true
  | some v => schema (some v)

def refine (schema : Schema) (check : Json → Bool) : Schema
  | some v => schema (some v) && check v
  | none => false

def literal (value : String) : Schema := string [fun s => s = value]

def enum (values : List String) : Schema := string [fun s => values.contains s]

end Schema

open Schema

def nonempty (s : String) : Bool := s ≠ ""

def positive (q : ℚ) : Bool := 0 < q

def nonnegative (q : ℚ) : Bool := 0 ≤ q

def isInt (q : ℚ) : Bool := q.den = 1

/-- A text of the shape, where `d` stands for a digit. -/
def shaped (shape value : String) : Bool :=
  value.toList.length = shape.toList.length &&
    (shape.toList.zip value.toList).all (fun (p,c) => if p = 'd' then c.isDigit else c = p)

def nonemptyText : Schema := string [nonempty]

def vatNumberSchema : Schema := string [isVATNumber]
def crnSchema : Schema := string [isCommercialRegistrationNumber]
def egsUuidSchema : Schema := string [isUuidV4]

def egsUnitLocationSchema : Schema := object [("cityName",nonemptyText),
  ("citySubdivision",nonemptyText),("street",nonemptyText),("plotIdentification",nonemptyText),
  ("building",nonemptyText),
  ("postalZone",string [shaped "ddddd"])]

def egsCertificateSchema : Schema :=
  object (["privateKey","csr","complianceCertificate","complianceApiSecret",
    "productionCertificate","productionApiSecret"].map (fun key => (key,optional (string []))))

def egsUnitInfoSchema : Schema := object [("uuid",egsUuidSchema),("customId",nonemptyText),
  ("model",nonemptyText),("crnNumber",crnSchema),("vatName",nonemptyText),("vatNumber",vatNumberSchema),("branchName",nonemptyText),
  ("branchIndustry",nonemptyText),("location",egsUnitLocationSchema),
  ("certificate",optional egsCertificateSchema)]

def lineItemTaxSchema : Schema := object [("percentAmount",number [nonnegative])]

def lineItemDiscountSchema : Schema := object [("amount",number [nonnegative]),("reason",nonemptyText)]

def lineItemSchema : Schema := object [("id",nonemptyText),("name",nonemptyText),("quantity",number [positive]),
  ("taxExclusivePrice",number [nonnegative]),
  ("otherTaxes",optional (array 0 lineItemTaxSchema)),
  ("discounts",optional (array 0 lineItemDiscountSchema)),
  ("vatPercent",number [nonnegative,fun q => q ≤ 100])]

def paymentMethodSchema : Schema := enum ["10","30","42","48"]
def invoiceTypeCodeSchema : Schema := enum ["388","383","381"]

def cancelationSchema : Schema := object [("canceledInvoiceNumber",number [isInt,positive]),
  ("paymentMethod",paymentMethodSchema),("cancelationType",invoiceTypeCodeSchema),("reason",nonemptyText)]

def partyAddressSchema : Schema := object [("streetName",nonemptyText),("buildingNumber",nonemptyText),
  ("plotIdentification",optional (string [])),("cityName",nonemptyText),
  ("citySubdivision",optional (string [])),("postalZone",string [shaped "ddddd"]),
  ("countryCode",string [fun s => utf16Length s = 2])]

def partyIdentitySchemeSchema : Schema :=
  enum ["CRN","MOM","MLS","700","SAG","NAT","GCC","IQA","PAS","OTH"]

def buyerInfoSchema : Schema := object [("vatNumber",optional vatNumberSchema),
  ("registrationName",nonemptyText),("address",optional partyAddressSchema),
  ("identityScheme",partyIdentitySchemeSchema),("identityNumber",nonemptyText)]

def issueDateSchema : Schema := string [shaped "dddd-dd-dd"]

def issueTimeSchema : Schema := string [fun s => shaped "dd:dd:dd" s || shaped "dd:dd:ddZ" s]

def invoiceCommonShape : List (String × Schema) := [("egsInfo",egsUnitInfoSchema),
  ("issueDate",issueDateSchema),("issueTime",issueTimeSchema),("lineItems",array 1 lineItemSchema),
  ("cancelation",optional cancelationSchema),("buyerName",optional nonemptyText),
  ("buyerInfo",optional buyerInfoSchema)]

def requiresBuyerName (v : Json) : Bool := string [nonempty] (v.field "buyerName")
def requiresBuyerInfo (v : Json) : Bool := (v.field "buyerInfo").isSome
def requiresCancelation (v : Json) : Bool := (v.field "cancelation").isSome

/-- The schema of a kind before its refinements. -/
def variant (kind : InvoiceKind) : Schema :=
  object (("kind",Schema.literal kind.literal) :: invoiceCommonShape)

def simplifiedTaxInvoiceInputSchema := (variant .simplifiedTaxInvoice).refine requiresBuyerName
def standardTaxInvoiceInputSchema := (variant .standardTaxInvoice).refine requiresBuyerInfo
def simplifiedCreditNoteInputSchema := (variant .simplifiedCreditNote).refine requiresCancelation
def standardCreditNoteInputSchema :=
  ((variant .standardCreditNote).refine requiresCancelation).refine requiresBuyerInfo
def simplifiedDebitNoteInputSchema := (variant .simplifiedDebitNote).refine requiresCancelation
def standardDebitNoteInputSchema :=
  ((variant .standardDebitNote).refine requiresCancelation).refine requiresBuyerInfo
def phase1InvoiceInputSchema := variant .phase1Invoice
def phase1CreditNoteInputSchema := (variant .phase1CreditNote).refine requiresCancelation

def inputSchema : InvoiceKind → Schema
  | .simplifiedTaxInvoice => simplifiedTaxInvoiceInputSchema
  | .standardTaxInvoice => standardTaxInvoiceInputSchema
  | .simplifiedCreditNote => simplifiedCreditNoteInputSchema
  | .standardCreditNote => standardCreditNoteInputSchema
  | .simplifiedDebitNote => simplifiedDebitNoteInputSchema
  | .standardDebitNote => standardDebitNoteInputSchema
  | .phase1Invoice => phase1InvoiceInputSchema
  | .phase1CreditNote => phase1CreditNoteInputSchema

/-- The refined schema of some kind accepts the input. -/
def SchemaValid (input : Json) : Prop := ∃ kind, inputSchema kind (some input)

theorem refine_imp {schema : Schema} {check : Json → Bool} {v : Option Json}
    (h : schema.refine check v) : schema v := by
  cases v with
  | none => cases h
  | some v =>
    simp only [Schema.refine,Bool.and_eq_true] at h
    exact h.1

theorem inputSchema_variant {kind : InvoiceKind} {v : Option Json} (h : inputSchema kind v) :
    variant kind v := by
  cases kind with
  | simplifiedTaxInvoice => exact refine_imp h
  | standardTaxInvoice => exact refine_imp h
  | simplifiedCreditNote => exact refine_imp h
  | standardCreditNote => exact refine_imp (refine_imp h)
  | simplifiedDebitNote => exact refine_imp h
  | standardDebitNote => exact refine_imp (refine_imp h)
  | phase1Invoice => exact h
  | phase1CreditNote => exact refine_imp h

/-- What an object schema says of one of its keys. -/
theorem object_field {shape : List (String × Schema)} {v : Json} {key : String} {schema : Schema}
    (h : object shape (some v)) (hmem : (key,schema) ∈ shape) : schema (v.field key) := by
  cases v with
  | obj fields =>
    simp only [object,List.all_eq_true] at h
    exact h _ hmem
  | _ => cases h

theorem literal_eq {value : String} {v : Option Json} (h : Schema.literal value v) :
    v = some (.str value) := by
  match v with
  | some (.str s) =>
    obtain rfl : s = value := by simpa [Schema.literal,string] using h
    rfl
  | none => cases h
  | some .null => cases h
  | some (.bool _) => cases h
  | some (.num _) => cases h
  | some (.arr _) => cases h
  | some (.obj _) => cases h

/-- An input is valid for the one kind that it names. -/
theorem field_kind_of_valid {kind : InvoiceKind} {input : Json} (h : inputSchema kind (some input)) :
    input.field "kind" = some (.str kind.literal) :=
  literal_eq (object_field (inputSchema_variant h) List.mem_cons_self)

end Zatca
