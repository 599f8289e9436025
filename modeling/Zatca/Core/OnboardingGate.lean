import Zatca.Core.Compliance
set_option autoImplicit false

/-! The production certificate is asked for after six compliance documents, and only if none of them
was answered with an error. -/

namespace Zatca
open Interaction

/-- What onboarding has when the compliance run is over. -/
structure Certified where
  privateKey : String
  csr : String
  compliance : IssuedCredentials
  report : ComplianceTestReport

section stages
variable (R : Runtime) (B : Builders) (args : OnboardArgs)

def complianceArgs (privateKey : String) (compliance : IssuedCredentials) :
    RunComplianceTestsArgs where
  egsInfo := withComplianceCertificate args.egsInfo privateKey compliance
  environment := args.environment
  signing := ⟨compliance.issuedCertificate,privateKey⟩
  binarySecurityToken := compliance.binarySecurityToken
  apiSecret := compliance.apiSecret
  host := args.host

/-- The key, the request and the compliance certificate. -/
def enroll : Program OnboardHost Thrown (String × String × IssuedCredentials) := do
  if args.otp = "" then
    Program.throw (.zatcaOnboardingError "onboard requires a 6-digit OTP.")
  else if args.solutionName = "" then
    Program.throw (.zatcaOnboardingError "onboard requires a solutionName (BSN).")
  else
    hostStep .ensureOpenssl "OpenSSL CLI is required for onboarding but was not found on PATH."
    let privateKey ← hostStep .generateKeyPair "Failed to generate the secp256k1 keypair."
    let csr ← hostStep
      (.generateCSR { egsInfo := args.egsInfo, privateKey
                      production := args.environment = .production
                      solutionName := args.solutionName })
      "Failed to generate the CSR."
    let compliance ← (issueComplianceCertificate R
      { csr, otp := args.otp, environment := args.environment }).embed OnboardHost.http
    return (privateKey,csr,compliance)

def requestCsids (c : Certified) : Program OnboardHost Thrown IssuedCredentials :=
  (issueCSIDS R
    { complianceRequestId := c.compliance.requestId
      binarySecurityToken := c.compliance.binarySecurityToken
      apiSecret := c.compliance.apiSecret, environment := args.environment }).embed OnboardHost.http

def complianceFailed (report : ComplianceTestReport) : Thrown :=
  .zatcaOnboardingError ("Compliance tests failed — production CSID not issued. Failures: " ++
    complianceFailures report)

def onboardingResult (c : Certified) (csids : IssuedCredentials) : OnboardingResult where
  privateKey := c.privateKey
  csr := c.csr
  complianceCertificate := c.compliance.issuedCertificate
  complianceBinarySecurityToken := c.compliance.binarySecurityToken
  complianceApiSecret := c.compliance.apiSecret
  complianceRequestId := c.compliance.requestId
  productionCertificate := csids.issuedCertificate
  productionBinarySecurityToken := csids.binarySecurityToken
  productionApiSecret := csids.apiSecret
  productionRequestId := csids.requestId
  complianceTestReport := c.report

/-- The last part of onboarding: the report decides. -/
def certify (c : Certified) : Program OnboardHost Thrown OnboardingResult :=
  if !c.report.passed then .throw (complianceFailed c.report)
  else (requestCsids R args c).bind fun csids => .ret (onboardingResult c csids)

theorem onboard_eq : onboard R B args = (enroll R args).bind fun (privateKey,csr,compliance) =>
    (runComplianceTests R B (complianceArgs args privateKey compliance)).bind fun report =>
      certify R args ⟨privateKey,csr,compliance,report⟩ := by
  simp only [onboard,enroll,Program.bind_eq,Program.pure_eq]
  split
  · rfl
  · split
    · rfl
    · simp only [Program.bind_assoc,Program.ret_bind]
      rfl

end stages

/-! ### Requests for the production certificate -/

/-- A request, if it is one, to this address. -/
def HttpOp.FetchesOnly (url : String) : HttpOp → Prop
  | .fetch url' _ => url' = url
  | _ => True

theorem backoff_fetches (url : String) (attempt : Nat) (retries : RetryOptions) :
    (backoff attempt retries).Calls (HttpOp.FetchesOnly url) :=
  Program.calls_bind (Program.calls_perform trivial) fun _ => Program.calls_perform trivial

theorem requestAttempt_fetches (R : Runtime) (url : String) (init : RequestInit) (timeoutMs : Nat)
    (retries : RetryOptions) (attempt : Nat) (last : Bool) :
    (requestAttempt R url init timeoutMs retries attempt last).Calls (HttpOp.FetchesOnly url) := by
  refine Program.calls_tryCatch (Program.calls_bind (Program.calls_perform rfl) fun response => ?_)
    fun err => ?_
  · split
    · exact Program.calls_bind (Program.calls_ofExcept _ _) fun _ => trivial
    · split
      · exact Program.calls_bind (backoff_fetches url _ _) fun _ => trivial
      · exact Program.calls_bind (Program.calls_ofExcept _ _) fun _ => trivial
  · unfold requestCatch
    split
    · trivial
    · split
      · exact Program.calls_bind (backoff_fetches url _ _) fun _ => trivial
      · trivial

theorem requestLoop_fetches (R : Runtime) (url : String) (init : RequestInit) (timeoutMs : Nat)
    (retries : RetryOptions) (left attempt : Nat) :
    (requestLoop R url init timeoutMs retries left attempt).Calls (HttpOp.FetchesOnly url) := by
  induction left generalizing attempt with
  | zero =>
    refine Program.calls_bind (requestAttempt_fetches ..) fun parsed => ?_
    cases parsed with
    | none => trivial
    | some parsed => trivial
  | succ left ih =>
    refine Program.calls_bind (requestAttempt_fetches ..) fun parsed => ?_
    cases parsed with
    | none => exact ih _
    | some parsed => trivial

theorem callGateway_fetches (R : Runtime) (environment : ZatcaEnvironment)
    (httpOptions : HttpOverrides) (headers : Except Thrown (List (String × String)))
    (args : ZatcaEnvironmentEndpoints → RequestArgs) {url : String}
    (hquery : (args (getZatcaEndpoints environment)).query = none)
    (hurl : (getZatcaEndpoints environment).base ++ (args (getZatcaEndpoints environment)).path =
      url) : (callGateway R environment httpOptions headers args).Calls (HttpOp.FetchesOnly url) := by
  refine Program.calls_bind (Program.calls_ofExcept _ _) fun headers => ?_
  unfold request
  simp only [hquery,buildUrl,hurl]
  exact requestLoop_fetches ..

namespace OnboardOp

/-- A request for the production certificate. -/
def IsCsidsRequest (environment : ZatcaEnvironment) : OnboardOp → Prop
  | .http (.fetch url _) =>
      url = (getZatcaEndpoints environment).base ++ (getZatcaEndpoints environment).csids
  | _ => False

def progress : OnboardOp → Option ComplianceProgressEvent
  | .onProgress event => some event
  | _ => none

end OnboardOp

theorem not_isCsidsRequest {environment : ZatcaEnvironment} {path : String}
    (hpath : path ≠ (getZatcaEndpoints environment).csids) (o : HttpOp)
    (ho : o.FetchesOnly ((getZatcaEndpoints environment).base ++ path)) :
    ¬ (OnboardOp.http o).IsCsidsRequest environment := by
  cases o with
  | fetch url init =>
    intro h
    have hurl : (getZatcaEndpoints environment).base ++ path =
      (getZatcaEndpoints environment).base ++ (getZatcaEndpoints environment).csids := ho.symm.trans h
    have hchars := congrArg String.toList hurl
    simp only [String.toList_append] at hchars
    exact hpath (String.toList_inj.1 (List.append_cancel_left hchars))
  | random => exact id
  | sleep ms => exact id

/-- A client of another address asks for no production certificate and tells the hook nothing. -/
theorem embed_asksNothing {α : Type} {environment : ZatcaEnvironment} {path : String}
    (hpath : path ≠ (getZatcaEndpoints environment).csids) {p : Program HttpClient Thrown α}
    (hp : p.Calls (HttpOp.FetchesOnly ((getZatcaEndpoints environment).base ++ path))) :
    (p.embed OnboardHost.http).Calls fun o =>
      ¬ OnboardOp.IsCsidsRequest environment o ∧ OnboardOp.progress o = none :=
  (hp.mono fun o ho => ⟨not_isCsidsRequest hpath o ho,rfl⟩).embed

section quiet
variable (R : Runtime) (B : Builders)

theorem hostStep_asksNothing (environment : ZatcaEnvironment) (o : CryptoOp) (message : String) :
    (hostStep o message).Calls fun o =>
      ¬ OnboardOp.IsCsidsRequest environment o ∧ OnboardOp.progress o = none :=
  Program.calls_tryCatch (Program.calls_perform ⟨id,rfl⟩) fun _ => trivial

theorem enroll_asksNothing (args : OnboardArgs) : (enroll R args).Calls fun o =>
    ¬ OnboardOp.IsCsidsRequest args.environment o ∧ OnboardOp.progress o = none := by
  unfold enroll
  split
  · trivial
  · split
    · trivial
    · refine Program.calls_bind (hostStep_asksNothing ..) fun _ => ?_
      refine Program.calls_bind (hostStep_asksNothing ..) fun privateKey => ?_
      refine Program.calls_bind (hostStep_asksNothing ..) fun csr => ?_
      have hpath : "/compliance" ≠ (getZatcaEndpoints args.environment).csids := by
        cases args.environment <;> decide
      refine Program.calls_bind (embed_asksNothing hpath ?_) fun _ => trivial
      refine Program.calls_bind (Program.calls_ofExcept _ _) fun _ => ?_
      refine Program.calls_bind ?_ fun raw => Program.calls_ofExcept _ _
      have hendpoint : (getZatcaEndpoints args.environment).complianceCertificate = "/compliance" := by
        cases args.environment <;> rfl
      rw [← hendpoint]
      exact callGateway_fetches _ _ _ _ _ rfl rfl

theorem checkInvoiceCompliance_asksNothing (params : InvoiceSubmissionParams) :
    ((checkInvoiceCompliance R params).embed OnboardHost.http).Calls fun o =>
      ¬ OnboardOp.IsCsidsRequest params.environment o ∧ OnboardOp.progress o = none := by
  have hendpoint : (getZatcaEndpoints params.environment).compliance = "/compliance/invoices" := by
    cases params.environment <;> rfl
  have hpath : "/compliance/invoices" ≠ (getZatcaEndpoints params.environment).csids := by
    cases params.environment <;> decide
  refine embed_asksNothing hpath ?_
  refine Program.calls_bind (Program.calls_ofExcept _ _) fun _ => ?_
  rw [← hendpoint]
  exact callGateway_fetches _ _ _ _ _ rfl rfl

theorem runScenarios_asksNothing (args : RunComplianceTestsArgs)
    (scenarios : List (Phase2Kind × BusinessInput)) (run : ComplianceRun) :
    (runScenarios R B args scenarios run).Calls fun o =>
      ¬ OnboardOp.IsCsidsRequest args.environment o := by
  induction scenarios generalizing run with
  | nil => trivial
  | cons scenario rest ih =>
    obtain ⟨kind,input⟩ := scenario
    refine Program.calls_bind ?_ fun run => Program.calls_bind ?_ fun _ => ih _
    · unfold runScenario
      split
      · trivial
      · refine Program.calls_bind (Program.calls_tryCatch ?_ fun _ => trivial) fun _ => trivial
        refine Program.calls_bind ((checkInvoiceCompliance_asksNothing R _).mono
          fun o ho => ho.1) fun response => ?_
        exact Program.calls_bind (Program.calls_ofExcept _ _) fun _ => trivial
    · unfold fireLatestProgress
      split
      · trivial
      · exact Program.calls_tryCatch (Program.calls_perform id) fun _ => trivial

theorem runComplianceTests_asksNothing (args : RunComplianceTestsArgs) :
    (runComplianceTests R B args).Calls fun o =>
      ¬ OnboardOp.IsCsidsRequest args.environment o := by
  unfold runComplianceTests
  split
  · trivial
  · split
    · trivial
    · exact Program.calls_bind (runScenarios_asksNothing R B args _ _) fun _ => trivial

end quiet

/-! ### The gate -/

variable {R : Runtime} {B : Builders} {σ χ : Type} {h : Handler OnboardHost Thrown σ χ}

/-- What the hook is told in a run, from its calls. -/
def told (calls : List ((o : OnboardOp) × Except Thrown (OnboardOp.Ret o))) :
    List ComplianceProgressEvent := calls.filterMap fun e => e.1.progress

theorem told_eq (calls : List ((o : OnboardOp) × Except Thrown (OnboardOp.Ret o))) :
    told calls = (calls.map Sigma.fst).filterMap OnboardOp.progress := by
  rw [List.filterMap_map]
  rfl

theorem progress_eq
    (calls : List ((o : ComplianceHost.Op) × Except Thrown (ComplianceHost.Ret o))) :
    Compliance.progress calls =
      ((calls.map Sigma.fst).filterMap Sum.getRight?).filterMap OnboardOp.progress := by
  rw [List.filterMap_filterMap,List.filterMap_map,Compliance.progress]
  refine congrArg (fun f => calls.filterMap f) (funext fun c => ?_)
  obtain ⟨o,answer⟩ := c
  cases o with
  | inl o => rfl
  | inr o => cases o <;> rfl

/-- The compliance run of onboarding, with the storage that it keeps to itself. -/
theorem runComplianceTests_internal {args : RunComplianceTestsArgs}
    (hsetup : Compliance.setup args = .ok ()) (h : Handler OnboardHost Thrown σ χ)
    (script : Nat → χ) (s : σ) :
    ∃ report s' outcomes, (runComplianceTests R B args).exec h script s = (.ok report,s') ∧
      (∃ script₁, Compliance.Reports R B args {} (InternalStorage.handle.sum h) script₁ ({},s)
        outcomes report) ∧
      told ((runComplianceTests R B args).trace h script s) = Compliance.events 0 report.results := by
  obtain ⟨script₁,r,own,s',hexec,hboth,htrace⟩ := Program.exec_absorb h
    (Compliance.runComplianceTests R B args {}) script ({} : InternalStorage) s
  obtain ⟨report,both,outcomes,hreport,hreports⟩ := @Compliance.runComplianceTests_reports R B args {}
    _ _ hsetup rfl (InternalStorage.handle.sum h) script₁ ({},s)
  rw [hboth] at hreport
  cases hreport
  have hprogress := hreports.progress
  refine ⟨report,s',outcomes,?_,⟨script₁,hreports⟩,?_⟩
  · rw [Compliance.absorb_runComplianceTests,Program.exec_bind_of_ok hexec,Program.exec_ofExcept]
  · rw [Compliance.absorb_runComplianceTests,Program.trace_bind,hexec]
    simp only [Program.trace_ofExcept,List.append_nil]
    rw [told_eq,htrace,← progress_eq,hprogress]

/-- What the compliance run decides of an onboarding that has come to its end. -/
structure Gated (R : Runtime) (B : Builders) (args : OnboardArgs)
    (h : Handler OnboardHost Thrown σ χ) (script : Nat → χ) (s : σ) (c : Certified)
    (outcomes : List ScenarioOutcome) : Prop where
  reports : ∃ script₁ s₁, Compliance.Reports R B (complianceArgs args c.privateKey c.compliance) {}
    (InternalStorage.handle.sum h) script₁ ({},s₁) outcomes c.report
  told : told ((onboard R B args).trace h script s) = Compliance.events 0 c.report.results
  asks : (∀ o ∈ outcomes, Compliance.IsClean o) → ∃ script₁ s₁ earlier,
    (onboard R B args).exec h script s = ((requestCsids R args c).bind fun csids =>
      .ret (onboardingResult c csids)).exec h script₁ s₁ ∧
    (onboard R B args).trace h script s = earlier ++ (requestCsids R args c).trace h script₁ s₁ ∧
    ∀ e ∈ earlier, ¬ e.1.IsCsidsRequest args.environment
  refuses : ¬ (∀ o ∈ outcomes, Compliance.IsClean o) →
    (∃ s', (onboard R B args).exec h script s = (.error (complianceFailed c.report),s')) ∧
    ∀ e ∈ (onboard R B args).trace h script s, ¬ e.1.IsCsidsRequest args.environment

theorem runComplianceTests_of_error {args : RunComplianceTestsArgs} {err : Thrown}
    (hsetup : Compliance.setup args = .error err) : runComplianceTests R B args = .throw err := by
  rw [Compliance.absorb_runComplianceTests,Compliance.runComplianceTests,hsetup]
  rfl

theorem certify_tellsNothing (args : OnboardArgs) (c : Certified) :
    (certify R args c).Calls fun o => OnboardOp.progress o = none := by
  unfold certify
  split
  · trivial
  · exact Program.calls_bind (Program.calls_embed (fun _ => rfl) _) fun _ => trivial

theorem told_of_quiet {calls : List ((o : OnboardOp) × Except Thrown (OnboardOp.Ret o))}
    (hquiet : ∀ e ∈ calls, e.1.progress = none) : told calls = [] :=
  List.filterMap_eq_nil_iff.2 hquiet

/-- An onboarding that comes to no report asks for no certificate, and its report decides it
otherwise. -/
theorem onboard_gated (args : OnboardArgs) (h : Handler OnboardHost Thrown σ χ) (script : Nat → χ)
    (s : σ) :
    ((∃ err s', (onboard R B args).exec h script s = (.error err,s')) ∧
        ∀ e ∈ (onboard R B args).trace h script s, ¬ e.1.IsCsidsRequest args.environment) ∨
      ∃ c outcomes, Gated R B args h script s c outcomes := by
  have henroll := Program.trace_calls (h := h) (enroll_asksNothing R args) script s
  cases hexec : (enroll R args).exec h script s with
  | mk answer s₁ =>
    cases answer with
    | error err =>
      refine .inl ⟨⟨err,s₁,?_⟩,?_⟩
      · rw [onboard_eq,Program.exec_bind,hexec]
      · rw [onboard_eq,Program.trace_bind,hexec,List.append_nil]
        exact fun e he => (henroll e he).1
    | ok enrolled =>
      obtain ⟨privateKey,csr,compliance⟩ := enrolled
      generalize hscript : (enroll R args).rest h script s = script₁
      have hquiet := Program.trace_calls (h := h)
        (runComplianceTests_asksNothing R B (complianceArgs args privateKey compliance)) script₁ s₁
      cases hsetup : Compliance.setup (complianceArgs args privateKey compliance) with
      | error err =>
        have hthrow := @runComplianceTests_of_error R B _ _ hsetup
        refine .inl ⟨⟨err,s₁,?_⟩,?_⟩
        · rw [onboard_eq,Program.exec_bind,hexec]
          simp only [hthrow]
          rfl
        · rw [onboard_eq,Program.trace_bind,hexec]
          simp only [hthrow,Program.throw_bind,Program.trace_throw,List.append_nil]
          exact fun e he => (henroll e he).1
      | ok u =>
        obtain ⟨report,s₂,outcomes,hreport,⟨script₂,hreports⟩,htold⟩ :=
          @runComplianceTests_internal R B σ χ _ hsetup h script₁ s₁
        generalize hscript₂ : (runComplianceTests R B
          (complianceArgs args privateKey compliance)).rest h script₁ s₁ = script₃
        let c : Certified := ⟨privateKey,csr,compliance,report⟩
        have hrun : (onboard R B args).exec h script s = (certify R args c).exec h script₃ s₂ := by
          rw [onboard_eq,Program.exec_bind_of_ok hexec,hscript,Program.exec_bind_of_ok hreport,
            hscript₂]
        have htrace : (onboard R B args).trace h script s = (enroll R args).trace h script s ++
            ((runComplianceTests R B (complianceArgs args privateKey compliance)).trace h script₁ s₁
              ++ (certify R args c).trace h script₃ s₂) := by
          rw [onboard_eq,Program.trace_bind,hexec]
          simp only [Program.trace_bind,hscript,hreport,hscript₂]
          rfl
        have hearlier : ∀ e ∈ (enroll R args).trace h script s ++
            (runComplianceTests R B (complianceArgs args privateKey compliance)).trace h script₁ s₁,
            ¬ e.1.IsCsidsRequest args.environment := by
          intro e he
          rcases List.mem_append.1 he with he | he
          · exact (henroll e he).1
          · exact hquiet e he
        have hpassed : report.passed = true ↔ ∀ o ∈ outcomes, Compliance.IsClean o :=
          hreports.verdict
        refine .inr ⟨c,outcomes,⟨⟨script₂,s₁,hreports⟩,?_,?_,?_⟩⟩
        · have hlast := told_of_quiet (Program.trace_calls (h := h)
            (@certify_tellsNothing R args c) script₃ s₂)
          have hfirst := told_of_quiet fun e he => (henroll e he).2
          rw [htrace]
          simp only [told,List.filterMap_append] at hfirst htold hlast ⊢
          rw [hfirst,htold,hlast,List.nil_append,List.append_nil]
        · intro hclean
          have hcertify : certify R args c = (requestCsids R args c).bind fun csids =>
              .ret (onboardingResult c csids) := by
            simp [certify,c,hpassed.2 hclean]
          refine ⟨script₃,s₂,_,by rw [hrun,hcertify],?_,hearlier⟩
          rw [htrace,hcertify,Program.trace_bind_ret,List.append_assoc]
        · intro hclean
          have hfailed : report.passed = false := by
            rw [← Bool.not_eq_true]
            exact fun hp => hclean (hpassed.1 hp)
          have hcertify : certify R args c = .throw (complianceFailed report) := by
            simp [certify,c,hfailed]
          refine ⟨⟨s₂,by rw [hrun,hcertify,Program.exec_throw]⟩,?_⟩
          rw [htrace,hcertify,Program.trace_throw,List.append_nil]
          exact hearlier

/-- A compliance run with its credentials reports six verdicts in their order, tells the hook each one
as it falls, and passes when all six responses are without errors; onboarding asks for the
production certificate then, and throws before it otherwise. -/
theorem onboardingGate (R : Runtime) (B : Builders) :
    (∀ (args : RunComplianceTestsArgs) (options : ComplianceOptions),
      Compliance.setup args = .ok () → options.hook = true →
      ∀ {σ χ : Type} (h : Handler ComplianceHost Thrown σ χ) (script : Nat → χ) (s : σ),
      ∃ report s' outcomes,
        (Compliance.runComplianceTests R B args options).exec h script s = (.ok report,s') ∧
        Compliance.Reports R B args options h script s outcomes report) ∧
    ∀ (args : OnboardArgs) {σ χ : Type} (h : Handler OnboardHost Thrown σ χ) (script : Nat → χ)
      (s : σ),
      ((∃ err s', (onboard R B args).exec h script s = (.error err,s')) ∧
          ∀ e ∈ (onboard R B args).trace h script s, ¬ e.1.IsCsidsRequest args.environment) ∨
        ∃ c outcomes, Gated R B args h script s c outcomes :=
  ⟨fun _ _ hsetup hhook _ _ h script s =>
      Compliance.runComplianceTests_reports hsetup hhook h script s,
    fun args _ _ h script s => onboard_gated args h script s⟩

namespace Sample

def complianceArgs : RunComplianceTestsArgs where
  egsInfo
  environment := .simulation
  signing := ⟨"certificate","private key"⟩
  binarySecurityToken := "token"
  apiSecret := "secret"
  host _ := ⟨"id",clock⟩

/-- The storage refuses, the gateway does not answer and the hook throws. -/
def nothingWorks : Handler ComplianceHost Thrown Unit Unit
  | _, _, s => (.error (.error "not available"),s)

end Sample

/-- The run settles its scenarios even when nothing works. -/
theorem onboardingGate_when_nothing_works : ∃ report s' outcomes,
    (Compliance.runComplianceTests Sample.runtime Sample.builders Sample.complianceArgs {}).exec
        Sample.nothingWorks (fun _ => ()) () = (.ok report,s') ∧
      Compliance.Reports Sample.runtime Sample.builders Sample.complianceArgs {}
        Sample.nothingWorks (fun _ => ()) () outcomes report := by
  exact (onboardingGate Sample.runtime Sample.builders).1 Sample.complianceArgs {} rfl rfl
    Sample.nothingWorks (fun _ => ()) ()

end Zatca
