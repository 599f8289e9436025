import Zatca.Server.RouteHelpers
import Zatca.Server.Submission
set_option autoImplicit false
namespace Zatca
open Interaction

/-- `body.input`, which the schema lets through unread. -/
inductive RawInput where
  | invoice (input : InvoiceInput)
  /-- An object whose kind no issuer handles. -/
  | unhandled (value : Json)
  | nullish

structure IssueBody where
  input : RawInput
  submit : Option Bool := none

/-- A body that its schema rejects is absent. -/
def parseBody {α : Type} : Option α → Except Thrown α
  | some body => .ok body
  | none => .error (.zatcaValidationError "Invalid request body")

def InvoiceStatus.literal : InvoiceStatus → String
  | pending => "pending"
  | submitted => "submitted"
  | accepted => "accepted"
  | rejected => "rejected"
  | cancelled => "cancelled"

def phase1Submission (kind : InvoiceKind) : Thrown :=
  .zatcaValidationError ("submit=true is incompatible with Phase 1 invoice kind '" ++ kind.literal ++
    "'. Phase 1 invoices have no signed XML to clear/report; pass submit=false " ++
    "or use a Phase 2 kind (e.g. 'simplified-tax-invoice').")

/-- A request to issue; `host` is what the issuer draws from its process. -/
structure IssueRequest where
  authHeader : Option String
  tenantRef : String
  body : Option IssueBody
  idempotencyKey : Option HeaderValue := none
  host : HostValues

section routes
variable (D : Deps)

def issueFromBody (auth : AuthenticatedTenant) (host : HostValues) :
    RawInput → Program Server Thrown Issued
  | .invoice input => (issueInvoice D.builders
      { input, scope := toTenantScope auth.tenant
        signing := some ⟨auth.signing.productionCertificate,auth.signing.privateKey⟩
        host }).embed Server.storage
  | .unhandled value => .throw (.zatcaValidationError
      ("Unhandled invoice kind: " ++ D.runtime.stringify value))
  | .nullish => .throw (.typeError "Cannot read properties of undefined (reading 'kind')")

/-- Reading the kind of an absent input throws; a Phase 1 document cannot be submitted. -/
def checkKind (submit : Bool) : RawInput → Except Thrown Unit
  | .invoice input =>
      if submit && input.kind.isPhase1 then .error (phase1Submission input.kind) else .ok ()
  | .unhandled _ => .ok ()
  | .nullish => .error (.typeError "Cannot read properties of undefined (reading 'kind')")

def submissionParams (auth : AuthenticatedTenant) (invoice : IssuedInvoice) :
    InvoiceSubmissionParams where
  signedInvoiceXml := invoice.signedXml
  invoiceHash := invoice.invoiceHash
  egsUuid := auth.tenant.egsUuid.1
  binarySecurityToken := auth.signing.productionBinarySecurityToken
  apiSecret := auth.signing.productionApiSecret
  environment := auth.tenant.environment

/-- Reports the verdict under the identifier that the issuer returned, which for every kind is the
invoice number. -/
def reportStatus (auth : AuthenticatedTenant) (issued : Issued) (outcome : SubmissionOutcome) :
    Program Server Thrown SubmissionOutcome := do
  Program.perform (S := Server) (.storage (.updateInvoiceStatus (toTenantScope auth.tenant)
    issued.invoiceNumber outcome.status))
  return outcome

def submitIssued (auth : AuthenticatedTenant) (issued : Issued) (submit : Bool) :
    Program Server Thrown SubmissionOutcome :=
  match issued, submit with
  | .phase2 invoice, true => do
      let outcome ← (decideStatus D.runtime D.invoiceTypeCode
        (submissionParams auth invoice)).embed Server.http
      reportStatus auth issued outcome
  | _, _ => .ret { status := .pending, zatcaResponse := some .null, zatcaRequestId := none }

def issuedAudit (auth : AuthenticatedTenant) (issued : Issued) (outcome : SubmissionOutcome) :
    AuditEntryInput where
  actor := auth.actor
  tenantRef := some auth.tenant.tenantRef
  action := .invoiceIssued
  targetId := some issued.invoiceNumber
  result := if outcome.status = .rejected then .error else .ok
  zatcaRequestId := outcome.zatcaRequestId

/-- Absent fields are left out of the answer. -/
def issuedBody (issued : Issued) (outcome : SubmissionOutcome) : Json :=
  let field (name : String) (value : Option Json) : List (String × Json) :=
    value.toList.map (fun v => (name,v))
  .obj (match issued with
    | .phase2 i =>
        [("invoiceNumber",.str i.invoiceNumber),("sequence",.num i.sequence),
          ("invoiceHash",.str i.invoiceHash),("signedXml",.str i.signedXml),
          ("qrCode",.str i.qrCode),("status",.str outcome.status.literal)] ++
          field "zatcaResponse" outcome.zatcaResponse
    | .phase1 i =>
        [("invoiceNumber",.str i.invoiceNumber),("sequence",.num i.sequence),
          ("qrCode",.str i.qrCode),("status",.str outcome.status.literal)] ++
          field "zatcaResponse" outcome.zatcaResponse)

def requestIdHeader (outcome : SubmissionOutcome) : List (String × String) :=
  outcome.zatcaRequestId.toList.map (fun id => ("X-Zatca-Request-Id",id))

def jsonContentType : String × String := ("content-type","application/json; charset=utf-8")

/-- The audit row and the answer, which the slot keeps for the next request under the key. -/
def conclude (auth : AuthenticatedTenant) (issued : Issued) (cacheKey : Option String)
    (outcome : SubmissionOutcome) : Program Server Thrown Reply := do
  Program.perform (S := Server) (.audit (issuedAudit auth issued outcome))
  commitIdempotency D cacheKey
    { statusCode := 200, headers := jsonContentType :: requestIdHeader outcome
      body := D.runtime.stringify (issuedBody issued outcome) }
  return { statusCode := 200, headers := requestIdHeader outcome, body := issuedBody issued outcome }

/-- What the request does under its slot. -/
def issueWork (auth : AuthenticatedTenant) (host : HostValues) (input : RawInput) (submit : Bool)
    (cacheKey : Option String) : Program Server Thrown Reply := do
  Program.ofExcept (checkKind submit input)
  let issued ← issueFromBody D auth host input
  let outcome ← submitIssued D auth issued submit
  conclude D auth issued cacheKey outcome

def issueUnderSlot (auth : AuthenticatedTenant) (host : HostValues) (body : IssueBody) :
    IdempotencySlot → Program Server Thrown Reply
  | .answered reply => .ret reply
  | .proceed cacheKey =>
      underSlot cacheKey (issueWork D auth host body.input (body.submit.getD true) cacheKey)

def invoicesRoute : String := "/v1/tenants/:ref/invoices"

/-- `POST /v1/tenants/:ref/invoices` -/
def issueRoute (req : IssueRequest) : Program Server Thrown Reply := do
  let auth ← authTenant req.authHeader req.tenantRef
  let body ← Program.ofExcept (parseBody req.body)
  let idemKey ← Program.ofExcept (readIdempotencyKey req.idempotencyKey)
  let slot ← beginIdempotency D idemKey req.tenantRef invoicesRoute
  issueUnderSlot D auth req.host body slot

theorem issueWork_eq (auth : AuthenticatedTenant) (host : HostValues) (input : RawInput)
    (submit : Bool) (cacheKey : Option String) : issueWork D auth host input submit cacheKey =
    (Program.ofExcept (checkKind submit input)).bind (fun _ =>
      (issueFromBody D auth host input).bind (fun issued =>
        (submitIssued D auth issued submit).bind (conclude D auth issued cacheKey))) := rfl

theorem issueRoute_eq (req : IssueRequest) : issueRoute D req =
    (authTenant req.authHeader req.tenantRef).bind (fun auth =>
      (Program.ofExcept (parseBody req.body)).bind (fun body =>
        (Program.ofExcept (readIdempotencyKey req.idempotencyKey)).bind (fun idemKey =>
          (beginIdempotency D idemKey req.tenantRef invoicesRoute).bind
            (issueUnderSlot D auth req.host body)))) := rfl

/-- A request about one invoice of the tenant of the path. -/
structure InvoiceRequest where
  authHeader : Option String
  tenantRef : String
  invoiceId : String

def unknownInvoiceRef (invoiceId : String) : Thrown :=
  .zatcaRegistryError ("Unknown invoice '" ++ invoiceId ++ "'.") .notFound

def loadOwnInvoice (scope : TenantScope) (invoiceId : String) :
    Program Server Thrown InvoiceRecord := do
  let record ← Program.perform (S := Server) (.storage (.loadInvoice scope invoiceId))
  match record with
  | none => Program.throw (unknownInvoiceRef invoiceId)
  | some record => return record

def recordBody (r : InvoiceRecord) : Json :=
  .obj ([("invoiceId",.str r.invoiceId),("kind",.str r.kind.literal),("serial",.str r.serial),
    ("counterNumber",.num r.counterNumber),("uuid",.str r.uuid),("invoiceHash",.str r.invoiceHash),
    ("previousInvoiceHash",.str r.previousInvoiceHash),("signedXml",.str r.signedXml),
    ("qrBase64",.str r.qrBase64),("issuedAt",.num r.issuedAt.getTime),
    ("status",.str r.status.literal)] ++
    r.clearanceNumber.toList.map (fun n => ("clearanceNumber",.str n)) ++
    r.validationResults.toList.map (fun v => ("validationResults",v)))

/-- `GET /v1/tenants/:ref/invoices/:invoiceId` -/
def getRoute (req : InvoiceRequest) : Program Server Thrown Reply := do
  let auth ← authTenant req.authHeader req.tenantRef
  let record ← loadOwnInvoice (toTenantScope auth.tenant) req.invoiceId
  return { statusCode := 200, body := recordBody record }

structure CancelBody where
  reason : String
  zatcaInvoiceId : Option String := none
  clearanceNumber : Option String := none

def noClearanceNumber (invoiceId hint : String) : Thrown :=
  .zatcaValidationError ("Invoice '" ++ invoiceId ++ "' has no clearanceNumber on the local record. "
    ++ hint)

def cancelAudit (auth : AuthenticatedTenant) (invoiceId : String) (failure : Option Thrown) :
    AuditEntryInput where
  actor := auth.actor
  tenantRef := some auth.tenant.tenantRef
  action := .invoiceCancelled
  targetId := some invoiceId
  result := if failure.isSome then .error else .ok
  zatcaRequestId := match failure with
    | some (.zatcaApiError e) => e.requestId
    | _ => none

def answerBody (status : String) (response : Option Json) : Json :=
  .obj (("status",.str status) :: response.toList.map (fun r => ("zatcaResponse",r)))

/-- `POST /v1/tenants/:ref/invoices/:invoiceId/cancel`; the audit row is written either way. -/
def cancelRoute (req : InvoiceRequest) (body : Option CancelBody) :
    Program Server Thrown Reply := do
  let auth ← authTenant req.authHeader req.tenantRef
  let body ← Program.ofExcept (parseBody body)
  let scope := toTenantScope auth.tenant
  let record ← loadOwnInvoice scope req.invoiceId
  match body.clearanceNumber <|> record.clearanceNumber with
  | none => Program.throw (noClearanceNumber req.invoiceId
      "Provide one in the request body, or cancel a standard invoice that has been cleared by ZATCA.")
  | some clearanceNumber =>
      let result ← Program.tryCatch
        (do
          let response ← (cancelInvoice D.runtime
            { invoiceId := body.zatcaInvoiceId.getD record.invoiceId, clearanceNumber
              reason := body.reason
              binarySecurityToken := auth.signing.productionBinarySecurityToken
              apiSecret := auth.signing.productionApiSecret
              environment := auth.tenant.environment }).embed Server.http
          Program.perform (S := Server)
            (.storage (.updateInvoiceStatus scope req.invoiceId .cancelled))
          return response)
        (fun err => do
          Program.perform (S := Server) (.audit (cancelAudit auth req.invoiceId (some err)))
          Program.throw err)
      Program.perform (S := Server) (.audit (cancelAudit auth req.invoiceId none))
      return { statusCode := 200, body := answerBody "cancelled" result }

structure StatusQuery where
  zatcaInvoiceId : Option String := none
  clearanceNumber : Option String := none

/-- `GET /v1/tenants/:ref/invoices/:invoiceId/status` -/
def statusRoute (req : InvoiceRequest) (query : Option StatusQuery) :
    Program Server Thrown Reply := do
  let auth ← authTenant req.authHeader req.tenantRef
  let record ← loadOwnInvoice (toTenantScope auth.tenant) req.invoiceId
  let query ← Program.ofExcept (parseBody query)
  match query.clearanceNumber <|> record.clearanceNumber with
  | none => Program.throw (noClearanceNumber req.invoiceId
      ("Provide one as a query parameter, or check the status of an invoice that has " ++
        "been cleared by ZATCA."))
  | some clearanceNumber =>
      let result ← (checkInvoiceStatus D.runtime
        { invoiceId := query.zatcaInvoiceId.getD record.invoiceId, clearanceNumber
          binarySecurityToken := auth.signing.productionBinarySecurityToken
          apiSecret := auth.signing.productionApiSecret
          environment := auth.tenant.environment }).embed Server.http
      return { statusCode := 200, body := .obj (("localStatus",.str record.status.literal) ::
        result.toList.map (fun r => ("zatcaResponse",r))) }

/-- `POST /v1/tenants/:ref/invoices/:invoiceId/check-compliance` -/
def checkComplianceRoute (req : InvoiceRequest) : Program Server Thrown Reply := do
  let auth ← authTenant req.authHeader req.tenantRef
  let record ← loadOwnInvoice (toTenantScope auth.tenant) req.invoiceId
  let result ← (checkInvoiceCompliance D.runtime
    { signedInvoiceXml := record.signedXml, invoiceHash := record.invoiceHash
      egsUuid := auth.tenant.egsUuid.1
      binarySecurityToken := auth.signing.productionBinarySecurityToken
      apiSecret := auth.signing.productionApiSecret
      environment := auth.tenant.environment }).embed Server.http
  return { statusCode := 200, body := result.getD .null }

end routes

/-! A server with one tenant that is ready to issue. -/
namespace Sample

def deps : Deps where
  runtime
  builders
  invoiceTypeCode
  format := defaultFormatter
  cipher
  apiKeys := { scrypt := fun password salt => password ++ salt, env := .live }
  getExpiry _ := .ok ⟨1810209600000⟩
  adminVerifier _ := .ok "ops"
  idempotencyWindowMs := 0
  onboardingTimeoutMs := 60000
  onboardingMaxConcurrent := 2
  instanceId := "server-1"

def tenantRef : String := "olaya"

def token : String := "zts_live_olaya_ABCDEFGHIJKLMNOPQRSTUVWXYZ234567"

def tenant : TenantRecord where
  tenantRef
  vatNumber := ⟨scope.vatNumber,by decide⟩
  egsUuid := ⟨scope.egsUuid,by decide⟩
  vatName := "Dokhna"
  crn := ⟨"1010010000",by decide⟩
  branchName := "Olaya"
  location
  environment := .production
  state := .productionReady
  createdAt := clock
  updatedAt := clock

def signer : SignerMaterial where
  privateKey := "private key"
  productionCertificate := "certificate"
  productionBinarySecurityToken := "token"
  productionApiSecret := "secret"

def apiKey : ApiKeyRow where
  tokenId := "key-1"
  tenantRef
  hash := token ++ "salt"
  salt := "salt"
  label := "till"
  last4 := "4567"
  createdAt := clock

def world : World where
  now := clock
  storage := .empty
  tenants := ⟨JsMap.empty.set tenantRef tenant⟩
  vault := ⟨JsMap.empty.set tenantRef signer⟩
  apiKeys := ⟨JsMap.empty.set apiKey.tokenId apiKey⟩
  idempotency := .empty
  audit := []
  onboardingInFlight := 0

def invoice : InvoiceInput where
  toBusinessInput := sale
  kind := .simplifiedTaxInvoice
  egsInfo
  invoiceCounterNumber := 0
  invoiceSerialNumber := ""
  previousInvoiceHash := ""

def issueRequest (key : Option HeaderValue) : IssueRequest where
  authHeader := some ("Bearer " ++ token)
  tenantRef
  body := some { input := .invoice invoice }
  idempotencyKey := key
  host := ⟨"5d2c1a60-0000-4000-8000-000000000001",clock⟩

/-- Nothing fails, and every request to the gateway succeeds. -/
def accepted : Choice where
  now := clock
  reply := .ok ⟨200,[],.ok .empty⟩

end Sample
end Zatca
