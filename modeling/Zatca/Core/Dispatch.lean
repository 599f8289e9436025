import Zatca.Core.HttpClient
import Zatca.Core.Issue
import Zatca.Core.Schemas
set_option autoImplicit false

/-! The dispatcher on the value that the caller sent. Nothing has checked that value against the
type of an input, so each property that is read may be anything. -/

namespace Zatca
open Interaction

/-- `value.name`, for a name that no prototype has. -/
def Json.property (value : Option Json) (name : String) : Except Thrown (Option Json) :=
  match value with
  | none => .error (.typeError
      ("Cannot read properties of undefined (reading '" ++ name ++ "')"))
  | some .null => .error (.typeError
      ("Cannot read properties of null (reading '" ++ name ++ "')"))
  | some v => .ok (v.field name)

section text
variable (R : Runtime)

/-- A value in a template literal. -/
def Json.text : Option Json → String
  | none => "undefined"
  | some (.str s) => s
  | some v => R.stringOf v

/-- `value === text` -/
def Json.equals : Option Json → String → Prop
  | some (.str s),text => s = text
  | _,_ => False

instance (value : Option Json) (text : String) : Decidable (Json.equals value text) := by
  unfold Json.equals
  split <;> infer_instance

/-- `assertScope` on what the input has under `egsInfo`. -/
def assertScopeJson (egsInfo : Option Json) (scope : TenantScope) : Except Thrown Unit := do
  let uuid ← Json.property egsInfo "uuid"
  if ¬ Json.equals uuid scope.egsUuid then
    .error (.zatcaValidationError
      ("egsInfo.uuid (" ++ Json.text R uuid ++ ") does not match scope.egsUuid (" ++ scope.egsUuid
        ++ ")."))
  else do
    let vatNumber ← Json.property egsInfo "vatNumber"
    if ¬ Json.equals vatNumber scope.vatNumber then
      .error (.zatcaValidationError
        ("egsInfo.vatNumber (" ++ Json.text R vatNumber ++ ") does not match scope.vatNumber ("
          ++ scope.vatNumber ++ ")."))
    else .ok ()

end text

/-- The document builders, on the input as it was sent. -/
structure JsonBuilders where
  build : InvoiceKind → Json → SigningMaterial → Except Thrown BuiltInvoice
  buildPhase1 : InvoiceKind → Json → Except Thrown BuiltPhase1

structure IssueJsonArgs where
  input : Json
  scope : TenantScope
  signing : Option SigningMaterial
  host : HostValues

def storageFields : List String :=
  ["invoiceCounterNumber","invoiceSerialNumber","previousInvoiceHash","egsInfo"]

def stripStorageFields (input : Json) : List (String × Json) :=
  match input with
  | .obj fields => fields.filter (fun (key,_) => !storageFields.contains key)
  | _ => []

/-- The input that the builder gets. The kind stays where it is: it is the one that was switched
on. -/
def fullJson (args : IssueJsonArgs) (counter : CounterValue) (previousInvoiceHash : String) : Json :=
  .obj (stripStorageFields args.input ++
    [("egsInfo",(args.input.field "egsInfo").getD .null),
      ("invoiceCounterNumber",.num counter.sequence),
      ("invoiceSerialNumber",.str counter.invoiceNumber),
      ("previousInvoiceHash",.str previousInvoiceHash)])

/-- The record of a document. Past `assertScope` its uuid is the one of the scope. -/
def jsonRecord (kind : InvoiceKind) (args : IssueJsonArgs) (counter : CounterValue)
    (previousInvoiceHash invoiceHash signedXml qrBase64 : String) : InvoiceRecord where
  invoiceId := args.host.randomUUID
  kind
  serial := counter.invoiceNumber
  counterNumber := counter.sequence
  uuid := args.scope.egsUuid
  invoiceHash
  previousInvoiceHash
  signedXml
  qrBase64
  issuedAt := args.host.newDate
  status := .pending

def InvoiceKind.all : List InvoiceKind :=
  [.simplifiedTaxInvoice,.standardTaxInvoice,.simplifiedCreditNote,.standardCreditNote,
    .simplifiedDebitNote,.standardDebitNote,.phase1Invoice,.phase1CreditNote]

/-- The case of the switch that a value takes; none is the default. -/
def kindOf (value : Option Json) : Option InvoiceKind :=
  InvoiceKind.all.find? (fun kind => value = some (.str kind.literal))

section issuers
variable (R : Runtime) (B : JsonBuilders)

def issuePhase2Json (kind : InvoiceKind) (args : IssueJsonArgs) (signing : SigningMaterial) :
    Program StorageAdapter Thrown IssuedInvoice := do
  Program.ofExcept (assertScopeJson R (args.input.field "egsInfo") args.scope)
  let counter ← StorageAdapter.incrementCounter args.scope
  let previousInvoiceHash ← StorageAdapter.getPreviousHash args.scope (some kind)
  let built ← Program.ofExcept (B.build kind (fullJson args counter previousInvoiceHash) signing)
  StorageAdapter.recordInvoice args.scope
    (jsonRecord kind args counter previousInvoiceHash built.invoiceHash built.signedXml built.qrCode)
  return {
    invoiceXml := built.invoiceXml
    signedXml := built.signedXml
    invoiceHash := built.invoiceHash
    qrCode := built.qrCode
    sequence := counter.sequence
    invoiceNumber := counter.invoiceNumber }

def issuePhase1Json (kind : InvoiceKind) (args : IssueJsonArgs) :
    Program StorageAdapter Thrown IssuedPhase1Invoice := do
  Program.ofExcept (assertScopeJson R (args.input.field "egsInfo") args.scope)
  let counter ← StorageAdapter.incrementCounter args.scope
  let built ← Program.ofExcept (B.buildPhase1 kind (fullJson args counter ZATCA_BASE_INVOICE_HASH))
  StorageAdapter.recordInvoice args.scope
    (jsonRecord kind args counter ZATCA_BASE_INVOICE_HASH ZATCA_BASE_INVOICE_HASH built.invoiceXml
      built.qrCode)
  return {
    invoiceXml := built.invoiceXml
    qrCode := built.qrCode
    sequence := counter.sequence
    invoiceNumber := counter.invoiceNumber }

def issueInvoiceJson (args : IssueJsonArgs) :
    Program StorageAdapter Thrown Issued := do
  let _ ← Program.ofExcept (Json.property (some args.input) "egsInfo")
  let value ← Program.ofExcept (Json.property (some args.input) "kind")
  match kindOf value with
  | none => .throw (.zatcaValidationError
      ("Unhandled invoice kind: " ++ R.stringify args.input))
  | some kind =>
    if kind.isPhase1 then
      let issued ← issuePhase1Json R B kind args
      return .phase1 issued
    else
      match args.signing with
      | none => .throw (.zatcaValidationError
          ("Phase 2 invoice kind \"" ++ kind.literal
            ++ "\" requires signing.certificate + signing.privateKey."))
      | some signing =>
        let issued ← issuePhase2Json R B kind args signing
        return .phase2 issued

end issuers

theorem kindOf_literal (kind : InvoiceKind) : kindOf (some (.str kind.literal)) = some kind := by
  cases kind with
  | _ => decide

theorem kindOf_eq_some {value : Option Json} {kind : InvoiceKind} (h : kindOf value = some kind) :
    value = some (.str kind.literal) := by
  simpa using List.find?_some h

/-! ### Inputs of the type

Where the value is the JSON of an input, the dispatcher does on it what the typed dispatcher does on
the input. -/

def EGSUnitLocation.toJson (l : EGSUnitLocation) : Json :=
  .obj [("cityName",.str l.cityName),("citySubdivision",.str l.citySubdivision),
    ("street",.str l.street),("plotIdentification",.str l.plotIdentification),
    ("building",.str l.building),("postalZone",.str l.postalZone)]

def EGSCertificate.toJson (c : EGSCertificate) : Json :=
  .obj (optionalField "privateKey" (c.privateKey.map .str) ++ optionalField "csr" (c.csr.map .str) ++
    optionalField "complianceCertificate" (c.complianceCertificate.map .str) ++
    optionalField "complianceApiSecret" (c.complianceApiSecret.map .str) ++
    optionalField "productionCertificate" (c.productionCertificate.map .str) ++
    optionalField "productionApiSecret" (c.productionApiSecret.map .str))

def EGSUnitInfo.toJson (e : EGSUnitInfo) : Json :=
  .obj ([("uuid",.str e.uuid),("customId",.str e.customId),("model",.str e.model),
    ("crnNumber",.str e.crnNumber),("vatName",.str e.vatName),("vatNumber",.str e.vatNumber),
    ("branchName",.str e.branchName),("branchIndustry",.str e.branchIndustry),
    ("location",e.location.toJson)] ++
    optionalField "certificate" (e.certificate.map EGSCertificate.toJson))

def ZATCAInvoiceLineItem.toJson (l : ZATCAInvoiceLineItem) : Json :=
  .obj [("id",.str l.id),("name",.str l.name),("quantity",.num l.quantity),
    ("taxExclusivePrice",.num l.taxExclusivePrice),
    ("otherTaxes",.arr (l.otherTaxes.map fun p => .obj [("percentAmount",.num p)])),
    ("discounts",.arr (l.discounts.map fun d =>
      .obj [("amount",.num d.amount),("reason",.str d.reason)])),
    ("vatPercent",.num l.vatPercent)]

def ZATCAInvoiceCancelation.toJson (c : ZATCAInvoiceCancelation) : Json :=
  .obj [("canceledInvoiceNumber",.num c.canceledInvoiceNumber),
    ("paymentMethod",.str c.paymentMethod),("cancelationType",.str c.cancelationType),
    ("reason",.str c.reason)]

def PartyAddress.toJson (a : PartyAddress) : Json :=
  .obj ([("streetName",.str a.streetName),("buildingNumber",.str a.buildingNumber)] ++
    optionalField "plotIdentification" (a.plotIdentification.map .str) ++
    [("cityName",.str a.cityName)] ++
    optionalField "citySubdivision" (a.citySubdivision.map .str) ++
    [("postalZone",.str a.postalZone),("countryCode",.str a.countryCode)])

def BuyerInfo.toJson (b : BuyerInfo) : Json :=
  .obj (optionalField "vatNumber" (b.vatNumber.map .str) ++
    [("registrationName",.str b.registrationName)] ++
    optionalField "address" (b.address.map PartyAddress.toJson) ++
    [("identityScheme",.str b.identityScheme),("identityNumber",.str b.identityNumber)])

/-- The fields that are left of an input when the ones of the storage are stripped. -/
def businessFields (kind : InvoiceKind) (input : BusinessInput) : List (String × Json) :=
  [("kind",.str kind.literal),("issueDate",.str input.issueDate),("issueTime",.str input.issueTime),
    ("lineItems",.arr (input.lineItems.map ZATCAInvoiceLineItem.toJson))] ++
    optionalField "cancelation" (input.cancelation.map ZATCAInvoiceCancelation.toJson) ++
    optionalField "buyerName" (input.buyerName.map .str) ++
    optionalField "buyerInfo" (input.buyerInfo.map BuyerInfo.toJson)

def InvoiceInput.toJson (input : InvoiceInput) : Json :=
  .obj (businessFields input.kind input.toBusinessInput ++
    [("egsInfo",input.egsInfo.toJson),("invoiceCounterNumber",.num input.invoiceCounterNumber),
      ("invoiceSerialNumber",.str input.invoiceSerialNumber),
      ("previousInvoiceHash",.str input.previousInvoiceHash)])

/-- The builders where their input has its type. -/
def JsonBuilders.typed (B : JsonBuilders) : Builders where
  build kind input signing := B.build kind input.toJson signing
  buildPhase1 kind input := B.buildPhase1 kind input.toJson

theorem lookup_optionalField_of_ne {key name : String} (h : name ≠ key) (value : Option Json) :
    (optionalField key value).lookup name = none := by
  cases value with
  | none => rfl
  | some v => simp [optionalField,List.lookup,beq_false_of_ne h]

section typed
variable (input : InvoiceInput)

theorem InvoiceInput.field_kind : input.toJson.field "kind" = some (.str input.kind.literal) := by
  simp [InvoiceInput.toJson,businessFields,Json.field,List.lookup]

theorem InvoiceInput.field_egsInfo : input.toJson.field "egsInfo" = some input.egsInfo.toJson := by
  simp [InvoiceInput.toJson,businessFields,Json.field,List.lookup,List.lookup_append,
    lookup_optionalField_of_ne]

theorem filter_optionalField {key : String} (h : key ∉ storageFields) (value : Option Json) :
    (optionalField key value).filter (fun (key,_) => !storageFields.contains key) =
      optionalField key value := by
  cases value with
  | none => rfl
  | some v => simp [optionalField,h]

theorem InvoiceInput.stripStorageFields_toJson :
    stripStorageFields input.toJson = businessFields input.kind input.toBusinessInput := by
  simp only [stripStorageFields,InvoiceInput.toJson,businessFields,List.filter_append,
    filter_optionalField (show "cancelation" ∉ storageFields by decide),
    filter_optionalField (show "buyerName" ∉ storageFields by decide),
    filter_optionalField (show "buyerInfo" ∉ storageFields by decide)]
  simp [storageFields]

theorem assertScopeJson_toJson (R : Runtime) (egsInfo : EGSUnitInfo) (scope : TenantScope) :
    assertScopeJson R (some egsInfo.toJson) scope = assertScope egsInfo scope := by
  have huuid : Json.property (some egsInfo.toJson) "uuid" = .ok (some (.str egsInfo.uuid)) := by
    simp [EGSUnitInfo.toJson,Json.property,Json.field,List.lookup]
  have hvat : Json.property (some egsInfo.toJson) "vatNumber" =
      .ok (some (.str egsInfo.vatNumber)) := by
    simp [EGSUnitInfo.toJson,Json.property,Json.field,List.lookup]
  rw [assertScopeJson,assertScope,huuid,hvat]
  by_cases hu : egsInfo.uuid = scope.egsUuid
  · by_cases hv : egsInfo.vatNumber = scope.vatNumber
    · simp [bind,Except.bind,Json.equals,hu,hv]
    · simp [bind,Except.bind,Json.equals,Json.text,hu,hv]
  · simp [bind,Except.bind,Json.equals,Json.text,hu]

variable (scope : TenantScope) (signing : Option SigningMaterial) (host : HostValues)

theorem fullJson_toJson (counter : CounterValue) (previousInvoiceHash : String) :
    fullJson ⟨input.toJson,scope,signing,host⟩ counter previousInvoiceHash =
      (fullInput input.kind { input := input.toBusinessInput, egsInfo := input.egsInfo, scope, host }
        counter previousInvoiceHash).toJson := by
  unfold fullJson
  dsimp only
  rw [input.stripStorageFields_toJson,input.field_egsInfo]
  rfl

theorem assertScope_ok {egsInfo : EGSUnitInfo} {scope : TenantScope}
    (h : assertScope egsInfo scope = .ok ()) : egsInfo.uuid = scope.egsUuid := by
  by_contra hne
  rw [assertScope,if_pos hne] at h
  cases h

/-- Past the assertion the two records have the same uuid. -/
theorem jsonRecord_toJson (h : assertScope input.egsInfo scope = .ok ()) (counter : CounterValue)
    (previousInvoiceHash invoiceHash signedXml qrBase64 : String) :
    jsonRecord input.kind ⟨input.toJson,scope,signing,host⟩ counter previousInvoiceHash invoiceHash
        signedXml qrBase64 =
      issuedRecord input.kind
        { input := input.toBusinessInput, egsInfo := input.egsInfo, scope, host }
        counter previousInvoiceHash invoiceHash signedXml qrBase64 := by
  rw [jsonRecord,issuedRecord,assertScope_ok h]
  rfl

theorem issuePhase2Json_toJson (R : Runtime) (B : JsonBuilders) (s : SigningMaterial) :
    issuePhase2Json R B input.kind ⟨input.toJson,scope,signing,host⟩ s =
      issuePhase2 B.typed input.kind
        { input := input.toBusinessInput, egsInfo := input.egsInfo, scope, host, signing := s } := by
  unfold issuePhase2Json issuePhase2
  simp only [input.field_egsInfo,assertScopeJson_toJson,fullJson_toJson]
  cases ha : assertScope input.egsInfo scope with
  | error e => rfl
  | ok u =>
    simp only [phase2Record,jsonRecord_toJson input scope signing host ha]
    rfl

theorem issuePhase1Json_toJson (R : Runtime) (B : JsonBuilders) :
    issuePhase1Json R B input.kind ⟨input.toJson,scope,signing,host⟩ =
      issuePhase1 B.typed input.kind
        { input := input.toBusinessInput, egsInfo := input.egsInfo, scope, host } := by
  unfold issuePhase1Json issuePhase1
  simp only [input.field_egsInfo,assertScopeJson_toJson,fullJson_toJson]
  cases ha : assertScope input.egsInfo scope with
  | error e => rfl
  | ok u =>
    simp only [jsonRecord_toJson input scope signing host ha]
    rfl

/-- The two dispatchers agree on every input of the type. -/
theorem issueInvoiceJson_toJson (R : Runtime) (B : JsonBuilders) :
    issueInvoiceJson R B ⟨input.toJson,scope,signing,host⟩ =
      issueInvoice B.typed ⟨input,scope,signing,host⟩ := by
  have hegs : Json.property (some input.toJson) "egsInfo" = .ok (input.toJson.field "egsInfo") := rfl
  have hkind : Json.property (some input.toJson) "kind" = .ok (input.toJson.field "kind") := rfl
  have h2 := issuePhase2Json_toJson input scope signing host R B
  have h1 := issuePhase1Json_toJson input scope signing host R B
  unfold issueInvoiceJson issueInvoice
  simp only [hegs,hkind,input.field_kind,Program.ofExcept,Program.bind_eq,Program.ret_bind,
    kindOf_literal]
  cases hk : input.kind with
  | phase1Invoice =>
    rw [hk] at h1
    simp only [InvoiceKind.isPhase1,if_true,h1]
    rfl
  | phase1CreditNote =>
    rw [hk] at h1
    simp only [InvoiceKind.isPhase1,if_true,h1]
    rfl
  | _ =>
    rw [hk] at h2
    cases signing with
    | none => rfl
    | some s =>
      simp only [InvoiceKind.isPhase1,h2]
      rfl

end typed
end Zatca
