import Zatca.Core.Gateway
import Zatca.Core.Issue
set_option autoImplicit false
namespace Zatca
open Interaction

/-- What the CSR is rendered from. -/
structure CSRParams where
  egsInfo : EGSUnitInfo
  privateKey : String
  production : Bool
  solutionName : String
  deriving DecidableEq, Repr

structure ComplianceProgressEvent where
  scenarioName : String
  invoiceKind : InvoiceKind
  passed : Bool
  errors : List String
  completedCount : Nat
  deriving DecidableEq, Repr

/-- The OpenSSL command line. -/
inductive CryptoOp where
  | ensureOpenssl
  | generateKeyPair
  | generateCSR (params : CSRParams)
  deriving DecidableEq, Repr

abbrev CryptoOp.Ret : CryptoOp → Type
  | .ensureOpenssl => Unit
  | .generateKeyPair => String
  | .generateCSR _ => String

/-- What onboarding asks of its host: the wire, the command line and the caller's hook. -/
inductive OnboardOp where
  | http (o : HttpOp)
  | crypto (o : CryptoOp)
  | onProgress (event : ComplianceProgressEvent)
  deriving DecidableEq, Repr

abbrev OnboardOp.Ret : OnboardOp → Type
  | .http o => o.Ret
  | .crypto o => o.Ret
  | .onProgress _ => Unit

abbrev OnboardHost : Signature := ⟨OnboardOp,OnboardOp.Ret⟩

abbrev OnboardHost.http : Signature.Hom HttpClient OnboardHost := ⟨.http,fun _ r => r⟩

/-- The storage that the compliance run keeps to itself: one counter and one head, the caller
having a single scope. -/
structure InternalStorage where
  counter : Nat := 0
  previousHash : Option String := none
  records : List InvoiceRecord := []

def InternalStorage.handle : Handler StorageAdapter Thrown InternalStorage Unit
  | .incrementCounter _, _, st =>
      (.ok ⟨st.counter+1,"INV-" ++ padStart (toString (st.counter+1)) 4 '0'⟩,
        { st with counter := st.counter+1 })
  | .getPreviousHash _ _, _, st => (.ok (st.previousHash.getD ZATCA_BASE_INVOICE_HASH),st)
  | .recordInvoice _ record, _, st =>
      (.ok (),{ st with
        records := st.records.filter (fun r => r.invoiceId ≠ record.invoiceId) ++ [record]
        previousHash := some record.invoiceHash })
  | .loadInvoice _ invoiceId, _, st =>
      (.ok (st.records.find? (fun r => r.invoiceId = invoiceId)),st)
  | .updateInvoiceStatus _ invoiceId status, _, st =>
      match st.records.find? (fun r => r.invoiceId = invoiceId) with
      | none => (.error (.zatcaStorageError
          ("updateInvoiceStatus called for unknown invoice " ++ invoiceId ++ ".")),st)
      | some _ =>
          let records := st.records.map (fun r =>
            if r.invoiceId = invoiceId then { r with status } else r)
          (.ok (),{ st with records })

structure ComplianceTestScenarioResult where
  invoiceKind : InvoiceKind
  scenarioName : String
  invoiceNumber : String
  invoiceHash : String
  response : Option Json
  passed : Bool
  errors : List String
  deriving DecidableEq

structure ComplianceTestReport where
  /-- `overallStatus` is `"passed"`. -/
  passed : Bool
  results : List ComplianceTestScenarioResult
  finalInvoiceHash : String
  deriving DecidableEq

def complianceLineItem : ZATCAInvoiceLineItem :=
  { id := "1", name := "Test Item", quantity := 1, taxExclusivePrice := 100, vatPercent := 15 }

def complianceBuyer : BuyerInfo :=
  { registrationName := "Test Buyer Co.", identityScheme := "CRN", identityNumber := "2020202020" }

def complianceCancelation (canceledInvoiceNumber : Nat) (cancelationType reason : String) :
    ZATCAInvoiceCancelation := ⟨canceledInvoiceNumber,"10",cancelationType,reason⟩

def complianceInput (buyerName : Option String) (buyerInfo : Option BuyerInfo)
    (cancelation : Option ZATCAInvoiceCancelation) : BusinessInput :=
  { issueDate := "2024-01-15", issueTime := "12:00:00Z", lineItems := [complianceLineItem]
    buyerName, buyerInfo, cancelation }

/-- The six scenarios in the order of the run. -/
def complianceScenarios : List (Phase2Kind × BusinessInput) :=
  let refund := "Compliance test cancellation"
  let charge := "Compliance test additional charge"
  let customer := some "Test Customer"
  [(⟨.simplifiedTaxInvoice,rfl⟩,complianceInput customer none none),
    (⟨.standardTaxInvoice,rfl⟩,complianceInput none (some complianceBuyer) none),
    (⟨.simplifiedCreditNote,rfl⟩,
      complianceInput customer none (some (complianceCancelation 1 "381" refund))),
    (⟨.standardCreditNote,rfl⟩,
      complianceInput none (some complianceBuyer) (some (complianceCancelation 2 "381" refund))),
    (⟨.simplifiedDebitNote,rfl⟩,
      complianceInput customer none (some (complianceCancelation 1 "383" charge))),
    (⟨.standardDebitNote,rfl⟩,
      complianceInput none (some complianceBuyer) (some (complianceCancelation 2 "383" charge)))]

/-- A template literal around a value that may be missing. -/
def templateText (R : Runtime) : Option Json → String
  | none => "undefined"
  | some value => R.stringOf value

/-- One entry of `errorMessages`; reading a field of `null` throws. -/
def complianceErrorText (R : Runtime) : Json → Except Thrown String
  | .null => .error (.typeError "Cannot read properties of null (reading 'code')")
  | e => .ok (templateText R (e.field "code") ++ ": " ++ templateText R (e.field "message"))

def complianceErrors (R : Runtime) : Option Json → Except Thrown (List String)
  | none => .error (.typeError "Cannot read properties of undefined (reading 'validationResults')")
  | some .null => .error (.typeError "Cannot read properties of null (reading 'validationResults')")
  | some response =>
      match (response.field "validationResults").bind (Json.field "errorMessages") with
      | none | some .null => .ok []
      | some (.arr errs) => errs.mapM (complianceErrorText R)
      | some _ => .error (.typeError "errs.map is not a function")

def Thrown.name : Thrown → String
  | .zatcaValidationError _ => "ZatcaValidationError"
  | .zatcaApiError _ => "ZatcaApiError"
  | .zatcaSigningError _ => "ZatcaSigningError"
  | .zatcaCertificateError _ => "ZatcaCertificateError"
  | .zatcaOnboardingError _ => "ZatcaOnboardingError"
  | .zatcaStorageError _ => "ZatcaStorageError"
  | .zatcaServerError _ _ => "ZatcaServerError"
  | .zatcaRegistryError _ _ => "ZatcaRegistryError"
  | .zatcaAuthError _ _ => "ZatcaAuthError"
  | .zatcaCipherError _ => "ZatcaCipherError"
  | .typeError _ => "TypeError"
  | .abortError _ => "AbortError"
  | .error _ => "Error"
  | .other _ => ""

def describeError : Thrown → String
  | .zatcaApiError e => "ZatcaApiError (status " ++ toString e.statusCode ++ "): " ++ e.message
  | .other _ => "Unknown error"
  | err => err.name ++ ": " ++ err.message

structure RunComplianceTestsArgs where
  egsInfo : EGSUnitInfo
  environment : ZatcaEnvironment
  signing : SigningMaterial
  binarySecurityToken : String
  apiSecret : String
  /-- What `randomUUID()` and `new Date()` answer in each scenario. -/
  host : InvoiceKind → HostValues

section run
variable (R : Runtime) (B : Builders)

def failedScenario (kind : InvoiceKind) (err : Thrown) : ComplianceTestScenarioResult where
  invoiceKind := kind
  scenarioName := kind.literal
  invoiceNumber := ""
  invoiceHash := ""
  response := none
  passed := false
  errors := [describeError err]

def settledScenario (kind : InvoiceKind) (issued : IssuedInvoice) (response : Option Json)
    (errors : List String) : ComplianceTestScenarioResult where
  invoiceKind := kind
  scenarioName := kind.literal
  invoiceNumber := issued.invoiceNumber
  invoiceHash := issued.invoiceHash
  response
  passed := errors.isEmpty
  errors

/-- Issues on the run's own storage, which no other code sees. -/
def issueScenario (args : RunComplianceTestsArgs) (kind : Phase2Kind) (input : BusinessInput)
    (st : InternalStorage) : Except Thrown IssuedInvoice × InternalStorage :=
  (phase2Issuer B kind
    { input, egsInfo := args.egsInfo, scope := ⟨args.egsInfo.vatNumber,args.egsInfo.uuid⟩
      signing := args.signing, host := args.host kind.1 }).exec InternalStorage.handle
      (fun _ => ()) st

/-- What the run carries from one scenario to the next. -/
structure ComplianceRun where
  storage : InternalStorage := {}
  results : List ComplianceTestScenarioResult := []
  lastInvoiceHash : Option String := none

def runScenario (args : RunComplianceTestsArgs) (run : ComplianceRun) (kind : Phase2Kind)
    (input : BusinessInput) : Program OnboardHost Thrown ComplianceRun :=
  match issueScenario B args kind input run.storage with
  | (.error err,storage) =>
      .ret { run with storage, results := run.results ++ [failedScenario kind.1 err] }
  | (.ok issued,storage) => do
      let result ← Program.tryCatch
        (do
          let response ← (checkInvoiceCompliance R
            { signedInvoiceXml := issued.signedXml, invoiceHash := issued.invoiceHash
              egsUuid := args.egsInfo.uuid, binarySecurityToken := args.binarySecurityToken
              apiSecret := args.apiSecret, environment := args.environment }).embed OnboardHost.http
          let errors ← Program.ofExcept (complianceErrors R response)
          return settledScenario kind.1 issued response errors)
        (fun err => .ret (failedScenario kind.1 err))
      return { storage, results := run.results ++ [result]
               lastInvoiceHash := some issued.invoiceHash }

/-- The hook is observational: what it throws is swallowed. -/
def fireLatestProgress (run : ComplianceRun) : Program OnboardHost Thrown Unit :=
  match run.results.getLast? with
  | none => .ret ()
  | some last => Program.tryCatch
      (Program.perform (S := OnboardHost) (.onProgress
        { scenarioName := last.scenarioName, invoiceKind := last.invoiceKind, passed := last.passed
          errors := last.errors, completedCount := run.results.length }))
      (fun _ => .ret ())

def runScenarios (args : RunComplianceTestsArgs) :
    List (Phase2Kind × BusinessInput) → ComplianceRun → Program OnboardHost Thrown ComplianceRun
  | [], run => .ret run
  | (kind,input) :: rest, run => do
      let run ← runScenario R B args run kind input
      fireLatestProgress run
      runScenarios args rest run

def runComplianceTests (args : RunComplianceTestsArgs) :
    Program OnboardHost Thrown ComplianceTestReport := do
  if args.signing.certificate = "" ∨ args.signing.privateKey = "" then
    Program.throw (.zatcaOnboardingError
      "runComplianceTests requires `signing.certificate` + `signing.privateKey`.")
  else if args.binarySecurityToken = "" ∨ args.apiSecret = "" then
    Program.throw (.zatcaOnboardingError
      "runComplianceTests requires `apiCredentials.binarySecurityToken` + `apiCredentials.apiSecret`.")
  else
    let run ← runScenarios R B args complianceScenarios {}
    return { passed := run.results.all (fun r => r.passed), results := run.results
             finalInvoiceHash := run.lastInvoiceHash.getD "" }

structure OnboardArgs where
  egsInfo : EGSUnitInfo
  otp : String
  environment : ZatcaEnvironment
  solutionName : String
  host : InvoiceKind → HostValues

structure OnboardingResult where
  privateKey : String
  csr : String
  complianceCertificate : String
  complianceBinarySecurityToken : String
  complianceApiSecret : String
  complianceRequestId : String
  productionCertificate : String
  productionBinarySecurityToken : String
  productionApiSecret : String
  productionRequestId : String
  complianceTestReport : ComplianceTestReport
  deriving DecidableEq

/-- A step of the host whose failure is reported under a text of its own. -/
def hostStep (o : CryptoOp) (message : String) : Program OnboardHost Thrown o.Ret :=
  Program.tryCatch (Program.perform (S := OnboardHost) (.crypto o))
    (fun _ => .throw (.zatcaOnboardingError message))

def complianceFailures (report : ComplianceTestReport) : String :=
  " | ".intercalate ((report.results.filter (fun r => !r.passed)).map
    (fun r => r.invoiceKind.literal ++ ": " ++ "; ".intercalate r.errors))

def withComplianceCertificate (info : EGSUnitInfo) (privateKey : String)
    (compliance : IssuedCredentials) : EGSUnitInfo :=
  let certificate : EGSCertificate :=
    { privateKey := some privateKey, complianceCertificate := some compliance.issuedCertificate
      complianceApiSecret := some compliance.apiSecret }
  { info with certificate := some certificate }

def onboard (args : OnboardArgs) : Program OnboardHost Thrown OnboardingResult := do
  if args.otp = "" then
    Program.throw (.zatcaOnboardingError "onboard requires a 6-digit OTP.")
  else if args.solutionName = "" then
    Program.throw (.zatcaOnboardingError "onboard requires a solutionName (BSN).")
  else
    hostStep .ensureOpenssl "OpenSSL CLI is required for onboarding but was not found on PATH."
    let privateKey ← hostStep .generateKeyPair "Failed to generate the secp256k1 keypair."
    let csr ← hostStep
      (.generateCSR { egsInfo := args.egsInfo, privateKey
                      production := args.environment = .production
                      solutionName := args.solutionName })
      "Failed to generate the CSR."
    let compliance ← (issueComplianceCertificate R
      { csr, otp := args.otp, environment := args.environment }).embed OnboardHost.http
    let report ← runComplianceTests R B
      { egsInfo := withComplianceCertificate args.egsInfo privateKey compliance
        environment := args.environment
        signing := ⟨compliance.issuedCertificate,privateKey⟩
        binarySecurityToken := compliance.binarySecurityToken
        apiSecret := compliance.apiSecret
        host := args.host }
    if !report.passed then
      Program.throw (.zatcaOnboardingError
        ("Compliance tests failed — production CSID not issued. Failures: " ++
          complianceFailures report))
    else
      let csids ← (issueCSIDS R
        { complianceRequestId := compliance.requestId
          binarySecurityToken := compliance.binarySecurityToken
          apiSecret := compliance.apiSecret, environment := args.environment }).embed
          OnboardHost.http
      return {
        privateKey, csr
        complianceCertificate := compliance.issuedCertificate
        complianceBinarySecurityToken := compliance.binarySecurityToken
        complianceApiSecret := compliance.apiSecret
        complianceRequestId := compliance.requestId
        productionCertificate := csids.issuedCertificate
        productionBinarySecurityToken := csids.binarySecurityToken
        productionApiSecret := csids.apiSecret
        productionRequestId := csids.requestId
        complianceTestReport := report }

end run
end Zatca
