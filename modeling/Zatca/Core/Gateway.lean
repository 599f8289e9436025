import Zatca.Core.HttpClient
set_option autoImplicit false

/-! The clients of the gateway's endpoints. Each checks its parameters in order, builds its headers
and body, and makes one request. -/

namespace Zatca
open Interaction

inductive ZatcaEnvironment where
  | sandbox
  | simulation
  | production
  deriving DecidableEq, Repr

structure ZatcaEnvironmentEndpoints where
  base : String
  compliance : String := "/compliance/invoices"
  clearance : String := "/invoices/clearance/single"
  reporting : String := "/invoices/reporting/single"
  complianceCertificate : String := "/compliance"
  csids : String := "/production/csids"
  cancelInvoice : String := "/invoices/cancel"
  invoiceStatus : String := "/invoices/status"

def getZatcaEndpoints : ZatcaEnvironment → ZatcaEnvironmentEndpoints
  | .sandbox => { base := "https://gw-fatoora.zatca.gov.sa/e-invoicing/developer-portal" }
  | .simulation => { base := "https://gw-fatoora.zatca.gov.sa/e-invoicing/simulation" }
  | .production => { base := "https://gw-fatoora.zatca.gov.sa/e-invoicing/core" }

def ZATCA_API_VERSION : String := "V2"

def buildBaseHeaders : List (String × String) :=
  [("Accept-Version",ZATCA_API_VERSION),("Accept-Language","en"),
    ("Content-Type","application/json"),("Accept","application/json")]

def buildAuthHeaders (R : Runtime) (binarySecurityToken apiSecret : String) :
    Except Thrown (List (String × String)) :=
  if binarySecurityToken = "" then
    .error (.error "binarySecurityToken is required to build ZATCA auth headers")
  else if apiSecret = "" then
    .error (.error "apiSecret is required to build ZATCA auth headers")
  else .ok (mergeHeaders buildBaseHeaders
    [("Authorization","Basic " ++ R.toBase64 (binarySecurityToken ++ ":" ++ apiSecret))])

def buildOtpHeaders (otp : String) : Except Thrown (List (String × String)) :=
  if otp = "" then .error (.error "OTP is required for compliance certificate issuance")
  else .ok (mergeHeaders buildBaseHeaders [("OTP",otp)])

def buildClearanceHeaders (R : Runtime) (binarySecurityToken apiSecret : String) :
    Except Thrown (List (String × String)) :=
  (buildAuthHeaders R binarySecurityToken apiSecret).map
    (fun headers => mergeHeaders headers [("Clearance-Status","1")])

/-- The first empty parameter is reported, in the order given. -/
def requireParams (purpose : String) : List (String × String) → Except Thrown Unit
  | [] => .ok ()
  | (name,value) :: rest =>
      if value = "" then .error (transportError (name ++ " is required " ++ purpose))
      else requireParams purpose rest

/-- What every client of the gateway does after its own checks. -/
def callGateway (R : Runtime) (environment : ZatcaEnvironment) (httpOptions : HttpOverrides)
    (headers : Except Thrown (List (String × String))) (args : ZatcaEnvironmentEndpoints → RequestArgs) :
    Program HttpClient Thrown (Option Json) := do
  let endpoints := getZatcaEndpoints environment
  let headers ← Program.ofExcept headers
  request R
    { baseUrl := endpoints.base, timeoutMs := httpOptions.timeoutMs
      retries := httpOptions.retries, defaultHeaders := httpOptions.defaultHeaders }
    { args endpoints with headers }

/-- `XMLDocument(xml).get("Invoice/cbc:InvoiceTypeCode")`: whether the element is there, and its
`name` attribute when that is text. -/
abbrev InvoiceTypeCodeReader := String → Except Thrown (Option (Option String))

def isSimplifiedInvoice (xml : InvoiceTypeCodeReader) (invoiceXml : String) : Except Thrown Bool :=
  match xml invoiceXml with
  | .error e => .error e
  | .ok none => .error (transportError
      "Cannot determine invoice type: `InvoiceTypeCode` element missing from signed XML")
  | .ok (some none) => .error (transportError
      "Cannot determine invoice type: `InvoiceTypeCode/@name` attribute missing")
  | .ok (some (some name)) => .ok ("02".toList.isPrefixOf name.toList)

/-- A signed document with the credentials it is sent under. -/
structure InvoiceSubmissionParams where
  signedInvoiceXml : String
  invoiceHash : String
  egsUuid : String
  binarySecurityToken : String
  apiSecret : String
  environment : ZatcaEnvironment
  httpOptions : HttpOverrides := {}

namespace InvoiceSubmissionParams

def required (p : InvoiceSubmissionParams) : List (String × String) :=
  [("signedInvoiceXml",p.signedInvoiceXml),("invoiceHash",p.invoiceHash),("egsUuid",p.egsUuid),
    ("binarySecurityToken",p.binarySecurityToken),("apiSecret",p.apiSecret)]

def body (R : Runtime) (p : InvoiceSubmissionParams) : Json :=
  .obj [("invoiceHash",.str p.invoiceHash),("uuid",.str p.egsUuid),
    ("invoice",.str (R.toBase64 p.signedInvoiceXml))]

end InvoiceSubmissionParams

structure SingleInvoiceSubmissionResult where
  simplified : Bool
  response : Option Json
  deriving DecidableEq

def SingleInvoiceSubmissionResult.endpoint (r : SingleInvoiceSubmissionResult) : String :=
  if r.simplified then "reporting" else "clearance"

def SingleInvoiceSubmissionResult.invoiceType (r : SingleInvoiceSubmissionResult) : String :=
  if r.simplified then "simplified" else "standard"

section clients
variable (R : Runtime)

def singleInvoiceReportingOrClearanceStatus (xml : InvoiceTypeCodeReader)
    (params : InvoiceSubmissionParams) :
    Program HttpClient Thrown SingleInvoiceSubmissionResult := do
  Program.ofExcept (requireParams "for invoice submission" params.required)
  let simplified ← Program.ofExcept (isSimplifiedInvoice xml params.signedInvoiceXml)
  let response ← callGateway R params.environment params.httpOptions
    (buildClearanceHeaders R params.binarySecurityToken params.apiSecret)
    (fun endpoints =>
      { method := .post
        path := if simplified then endpoints.reporting else endpoints.clearance
        body := some (params.body R) })
  return { simplified, response }

def checkInvoiceCompliance (params : InvoiceSubmissionParams) :
    Program HttpClient Thrown (Option Json) := do
  Program.ofExcept (requireParams "for compliance check" params.required)
  callGateway R params.environment params.httpOptions
    (buildAuthHeaders R params.binarySecurityToken params.apiSecret)
    (fun endpoints =>
      { method := .post, path := endpoints.compliance, body := some (params.body R) })

structure CancelInvoiceParams where
  invoiceId : String
  clearanceNumber : String
  reason : String
  binarySecurityToken : String
  apiSecret : String
  environment : ZatcaEnvironment
  httpOptions : HttpOverrides := {}

def cancelInvoice (params : CancelInvoiceParams) : Program HttpClient Thrown (Option Json) := do
  Program.ofExcept (requireParams "for cancel"
    [("invoiceId",params.invoiceId),("clearanceNumber",params.clearanceNumber),
      ("reason",params.reason),("binarySecurityToken",params.binarySecurityToken),
      ("apiSecret",params.apiSecret)])
  callGateway R params.environment params.httpOptions
    (buildAuthHeaders R params.binarySecurityToken params.apiSecret)
    (fun endpoints =>
      { method := .post
        path := endpoints.cancelInvoice ++ "/" ++ R.encodeURIComponent params.invoiceId
        body := some (.obj [("clearanceNumber",.str params.clearanceNumber),
          ("reason",.str params.reason)]) })

structure CheckInvoiceStatusParams where
  invoiceId : String
  clearanceNumber : String
  binarySecurityToken : String
  apiSecret : String
  environment : ZatcaEnvironment
  httpOptions : HttpOverrides := {}

def checkInvoiceStatus (params : CheckInvoiceStatusParams) :
    Program HttpClient Thrown (Option Json) := do
  Program.ofExcept (requireParams "for status lookup"
    [("invoiceId",params.invoiceId),("clearanceNumber",params.clearanceNumber),
      ("binarySecurityToken",params.binarySecurityToken),("apiSecret",params.apiSecret)])
  callGateway R params.environment params.httpOptions
    (buildAuthHeaders R params.binarySecurityToken params.apiSecret)
    (fun endpoints =>
      { method := .get
        path := endpoints.invoiceStatus ++ "/" ++ R.encodeURIComponent params.invoiceId
        query := some [("clearanceNumber",params.clearanceNumber)] })

/-- What certificate issuance returns. -/
structure IssuedCredentials where
  issuedCertificate : String
  binarySecurityToken : String
  apiSecret : String
  requestId : String
  dispositionMessage : Option Json := none
  deriving DecidableEq

/-- A field of an answer that is there and not empty, as text. -/
def presentText (name : String) (raw : Json) : Option String :=
  match raw.field name with
  | some (.str s) => if s = "" then none else some s
  | some (.num q) => if q = 0 then none else some (R.stringOf (.num q))
  | _ => none

/-- The three fields an answer must carry, the first missing one being reported. -/
def readCredentials (which : String) (certificate : String → String) (raw : Json) :
    Except Thrown IssuedCredentials := do
  let missing (name : String) : Thrown := .zatcaApiError
    { message := "ZATCA " ++ which ++ " response missing `" ++ name ++ "`", statusCode := 0
      rawResponse := some raw }
  let some binarySecurityToken := presentText R "binarySecurityToken" raw
    | .error (missing "binarySecurityToken")
  let some apiSecret := presentText R "secret" raw | .error (missing "secret")
  let some requestId := presentText R "requestID" raw | .error (missing "requestID")
  return {
    issuedCertificate := certificate binarySecurityToken
    binarySecurityToken, apiSecret, requestId
    dispositionMessage := raw.field "dispositionMessage" }

/-- Reading a field of an absent answer is a `TypeError`. -/
def requireBody (which : String) (certificate : String → String) :
    Option Json → Except Thrown IssuedCredentials
  | none => .error (.typeError "Cannot read properties of undefined (reading 'binarySecurityToken')")
  | some .null => .error (.typeError "Cannot read properties of null (reading 'binarySecurityToken')")
  | some raw => readCredentials R which certificate raw

def wrapCertificatePem (base64Body : String) : String :=
  "-----BEGIN CERTIFICATE-----\n" ++ R.fromBase64 base64Body ++ "\n-----END CERTIFICATE-----"

structure IssueComplianceCertificateParams where
  csr : String
  otp : String
  environment : ZatcaEnvironment
  httpOptions : HttpOverrides := {}

def issueComplianceCertificate (params : IssueComplianceCertificateParams) :
    Program HttpClient Thrown IssuedCredentials := do
  Program.ofExcept (requireParams "to issue a compliance certificate"
    [("csr",params.csr),("otp",params.otp)])
  let raw ← callGateway R params.environment params.httpOptions (buildOtpHeaders params.otp)
    (fun endpoints =>
      { method := .post, path := endpoints.complianceCertificate
        body := some (.obj [("csr",.str (R.toBase64 params.csr))]) })
  Program.ofExcept (requireBody R "compliance" (wrapCertificatePem R) raw)

structure IssueCSIDSParams where
  complianceRequestId : String
  binarySecurityToken : String
  apiSecret : String
  environment : ZatcaEnvironment
  httpOptions : HttpOverrides := {}

def issueCSIDS (params : IssueCSIDSParams) : Program HttpClient Thrown IssuedCredentials := do
  Program.ofExcept (requireParams "for CSID issuance"
    [("complianceRequestId",params.complianceRequestId),
      ("binarySecurityToken",params.binarySecurityToken),("apiSecret",params.apiSecret)])
  let raw ← callGateway R params.environment params.httpOptions
    (buildAuthHeaders R params.binarySecurityToken params.apiSecret)
    (fun endpoints =>
      { method := .post, path := endpoints.csids
        body := some (.obj [("compliance_request_id",.str params.complianceRequestId)]) })
  Program.ofExcept (requireBody R "CSIDS" R.fromBase64 raw)

end clients
end Zatca
