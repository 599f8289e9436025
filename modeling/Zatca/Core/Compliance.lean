import Zatca.Core.Onboard
import Zatca.Library.Absorb
set_option autoImplicit false

/-! The compliance run with everything its caller may bring: a storage, a scope, overrides and a
progress hook. Onboarding brings the hook only, and the run then answers its storage calls itself. -/

namespace Zatca
open Interaction

/-- The caller's storage beside the wire and the hook. -/
abbrev ComplianceHost : Signature := StorageAdapter.sum OnboardHost

abbrev ComplianceHost.storage : Signature.Hom StorageAdapter ComplianceHost :=
  StorageAdapter.left OnboardHost

abbrev ComplianceHost.host : Signature.Hom OnboardHost ComplianceHost :=
  StorageAdapter.right OnboardHost

structure ScenarioDateOverrides where
  issueDate : Option String := none
  issueTime : Option String := none

structure ComplianceOptions where
  scope : Option TenantScope := none
  httpOptions : HttpOverrides := {}
  dateOverrides : ScenarioDateOverrides := {}
  /-- `onProgress` is given. -/
  hook : Bool := true

/-- How one scenario settles. -/
inductive ScenarioOutcome where
  | notIssued (err : Thrown)
  | notChecked (issued : IssuedInvoice) (err : Thrown)
  | checked (issued : IssuedInvoice) (response : Option Json) (errors : List String)

namespace ScenarioOutcome

/-- The row that the scenario adds to the report. -/
def result (kind : InvoiceKind) : ScenarioOutcome → ComplianceTestScenarioResult
  | notIssued err | notChecked _ err => failedScenario kind err
  | checked issued response errors => settledScenario kind issued response errors

def invoiceHash : ScenarioOutcome → Option String
  | notIssued _ => none
  | notChecked issued _ | checked issued _ _ => some issued.invoiceHash

end ScenarioOutcome

def ScenarioDateOverrides.apply (overrides : ScenarioDateOverrides) (input : BusinessInput) :
    BusinessInput :=
  { input with
    issueDate := overrides.issueDate.getD input.issueDate
    issueTime := overrides.issueTime.getD input.issueTime }

namespace Compliance

variable (R : Runtime) (B : Builders)

structure Run where
  results : List ComplianceTestScenarioResult := []
  lastInvoiceHash : Option String := none

section scenario
variable (args : RunComplianceTestsArgs) (options : ComplianceOptions)

def issueScenario (kind : Phase2Kind) (input : BusinessInput) :
    Program ComplianceHost Thrown IssuedInvoice :=
  (phase2Issuer B kind
    { input := options.dateOverrides.apply input, egsInfo := args.egsInfo
      scope := options.scope.getD ⟨args.egsInfo.vatNumber,args.egsInfo.uuid⟩
      signing := args.signing, host := args.host kind.1 }).embed ComplianceHost.storage

def checkScenario (issued : IssuedInvoice) :
    Program ComplianceHost Thrown (Option Json × List String) := do
  let response ← ((checkInvoiceCompliance R
    { signedInvoiceXml := issued.signedXml, invoiceHash := issued.invoiceHash
      egsUuid := args.egsInfo.uuid, binarySecurityToken := args.binarySecurityToken
      apiSecret := args.apiSecret, environment := args.environment
      httpOptions := options.httpOptions }).embed OnboardHost.http).embed ComplianceHost.host
  let errors ← Program.ofExcept (complianceErrors R response)
  return (response,errors)

/-- The `try` block of a scenario; what is thrown in it is part of the outcome. -/
def scenarioOutcome (kind : Phase2Kind) (input : BusinessInput) :
    Program ComplianceHost Thrown ScenarioOutcome := do
  match ← (issueScenario B args options kind input).attempt with
  | .error err => return .notIssued err
  | .ok issued =>
    match ← (checkScenario R args options issued).attempt with
    | .error err => return .notChecked issued err
    | .ok (response,errors) => return .checked issued response errors

/-- The document of a scenario is remembered as soon as it is issued. -/
def Run.push (run : Run) (kind : InvoiceKind) (outcome : ScenarioOutcome) : Run where
  results := run.results ++ [outcome.result kind]
  lastInvoiceHash := outcome.invoiceHash <|> run.lastInvoiceHash

def progressEvent (result : ComplianceTestScenarioResult) (completedCount : Nat) :
    ComplianceProgressEvent where
  scenarioName := result.scenarioName
  invoiceKind := result.invoiceKind
  passed := result.passed
  errors := result.errors
  completedCount

/-- The hook is observational: what it throws is swallowed. -/
def fireLatestProgress (run : Run) : Program ComplianceHost Thrown Unit :=
  if !options.hook then .ret ()
  else match run.results.getLast? with
    | none => .ret ()
    | some last => (Program.tryCatch
        (Program.perform (S := OnboardHost)
          (.onProgress (progressEvent last run.results.length)))
        (fun _ => .ret ())).embed ComplianceHost.host

def runScenarios : List (Phase2Kind × BusinessInput) → Run → Program ComplianceHost Thrown Run
  | [], run => .ret run
  | (kind,input) :: rest, run => do
      let outcome ← scenarioOutcome R B args options kind input
      fireLatestProgress options (run.push kind.1 outcome)
      runScenarios rest (run.push kind.1 outcome)

def Run.report (run : Run) : ComplianceTestReport where
  passed := run.results.all fun r => r.passed
  results := run.results
  finalInvoiceHash := run.lastInvoiceHash.getD ""

/-- Without its credentials the run does not start. -/
def setup : Except Thrown Unit :=
  if args.signing.certificate = "" ∨ args.signing.privateKey = "" then
    .error (.zatcaOnboardingError
      "runComplianceTests requires `signing.certificate` + `signing.privateKey`.")
  else if args.binarySecurityToken = "" ∨ args.apiSecret = "" then
    .error (.zatcaOnboardingError
      "runComplianceTests requires `apiCredentials.binarySecurityToken` + `apiCredentials.apiSecret`.")
  else .ok ()

def runComplianceTests : Program ComplianceHost Thrown ComplianceTestReport := do
  Program.ofExcept (setup args)
  let run ← runScenarios R B args options complianceScenarios {}
  return run.report

end scenario

/-! ### Onboarding's run is this one on its own storage -/

section internal
variable (args : RunComplianceTestsArgs)

/-- What the run of `onboard` carries is the run and its storage. -/
def ofParts (run : Run) (storage : InternalStorage) : ComplianceRun :=
  ⟨storage,run.results,run.lastInvoiceHash⟩

theorem absorb_check (issued : IssuedInvoice) (storage : InternalStorage) :
    (checkScenario R args {} issued).absorb InternalStorage.handle storage =
      ((checkInvoiceCompliance R
        { signedInvoiceXml := issued.signedXml, invoiceHash := issued.invoiceHash
          egsUuid := args.egsInfo.uuid, binarySecurityToken := args.binarySecurityToken
          apiSecret := args.apiSecret, environment := args.environment }).embed
          OnboardHost.http).attempt.bind fun r =>
        .ret (r.bind fun response => (complianceErrors R response).map fun errors =>
          (response,errors),storage) := by
  simp only [checkScenario,Program.bind_eq,Program.absorb_bind,Program.absorb_right,
    Program.bind_assoc,Program.ret_bind]
  refine congrArg _ (funext fun r => ?_)
  cases r with
  | error err => rfl
  | ok response =>
    cases hc : complianceErrors R response with
    | error err => simp [hc,Except.bind,Except.map]
    | ok errors => simp [hc,Program.absorb,Except.bind,Except.map]

theorem absorb_outcome (kind : Phase2Kind) (input : BusinessInput) (run : Run)
    (storage : InternalStorage) :
    Zatca.runScenario R B args (ofParts run storage) kind input =
      ((scenarioOutcome R B args {} kind input).absorb InternalStorage.handle storage).bind
        fun
          | (.ok outcome,storage) => .ret (ofParts (run.push kind.1 outcome) storage)
          | (.error err,_) => .throw err := by
  have hissue : (issueScenario B args {} kind input).absorb InternalStorage.handle storage =
      .ret (Zatca.issueScenario B args kind input storage) := Program.absorb_left _ _
  have hstorage : (ofParts run storage).storage = storage := rfl
  simp only [scenarioOutcome,Program.bind_eq,Program.absorb_bind,Program.absorb_attempt,hissue,
    Program.ret_bind,Zatca.runScenario,hstorage]
  cases Zatca.issueScenario B args kind input storage with
  | mk answer storage' =>
    cases answer with
    | error err => rfl
    | ok issued =>
      simp only [Program.absorb_bind,Program.absorb_attempt,absorb_check,Program.attempt_tryCatch,
        Program.attempt_bind,Program.bind_assoc,Program.ret_bind,Program.pure_eq]
      refine congrArg _ (funext fun r => ?_)
      cases r with
      | error err => rfl
      | ok response =>
        cases hc : complianceErrors R response with
        | error err =>
          simp only [hc,Program.attempt,Program.absorb,Except.bind,Except.map,Program.ofExcept,
            Program.ret_bind]
          rfl
        | ok errors =>
          simp only [hc,Program.attempt,Program.absorb,Except.bind,Except.map,Program.ofExcept,
            Program.ret_bind]
          rfl

theorem absorb_fire (run : Run) (storage : InternalStorage) :
    (fireLatestProgress {} run).absorb InternalStorage.handle storage =
      (Zatca.fireLatestProgress (ofParts run storage)).attempt.bind fun r => .ret (r,storage) := by
  have hresults : (ofParts run storage).results = run.results := rfl
  simp only [fireLatestProgress,Zatca.fireLatestProgress,hresults,Bool.not_true,
    Bool.false_eq_true,if_false]
  cases run.results.getLast? with
  | none => rfl
  | some last => exact Program.absorb_right _ _

theorem absorb_scenarios (scenarios : List (Phase2Kind × BusinessInput)) (run : Run)
    (storage : InternalStorage) :
    Zatca.runScenarios R B args scenarios (ofParts run storage) =
      ((runScenarios R B args {} scenarios run).absorb InternalStorage.handle storage).bind
        fun
          | (.ok run,storage) => .ret (ofParts run storage)
          | (.error err,_) => .throw err := by
  induction scenarios generalizing run storage with
  | nil => rfl
  | cons scenario rest ih =>
    obtain ⟨kind,input⟩ := scenario
    simp only [Zatca.runScenarios,runScenarios,Program.bind_eq,Program.absorb_bind,absorb_outcome,
      Program.bind_assoc]
    refine congrArg _ (funext fun r => ?_)
    obtain ⟨answer,storage'⟩ := r
    cases answer with
    | error err => rfl
    | ok outcome =>
      simp only [Program.ret_bind,absorb_fire,Program.bind_assoc]
      rw [Program.bind_attempt]
      refine congrArg _ (funext fun r => ?_)
      cases r with
      | error err => rfl
      | ok u => exact ih _ _

/-- What onboarding calls is the run without a storage of the caller. -/
theorem absorb_runComplianceTests : Zatca.runComplianceTests R B args =
    ((runComplianceTests R B args {}).absorb InternalStorage.handle {}).bind
      fun r => Program.ofExcept r.1 := by
  have hscenarios : Zatca.runScenarios R B args complianceScenarios {} = _ :=
    absorb_scenarios R B args complianceScenarios {} {}
  simp only [runComplianceTests,Zatca.runComplianceTests,setup,Program.bind_eq,Program.pure_eq]
  split
  · rfl
  · split
    · rfl
    · simp only [hscenarios,Program.absorb_bind,Program.absorb_ofExcept,Program.ret_bind,
        Program.bind_assoc]
      refine congrArg _ (funext fun r => ?_)
      obtain ⟨answer,storage⟩ := r
      cases answer with
      | error err => rfl
      | ok run => rfl

end internal

/-! ### What a run reports -/

/-- `errorMessages ?? []` is empty. -/
def areNone : Option Json → Bool
  | none | some .null | some (.arr []) => true
  | _ => false

/-- An answer whose `errorMessages` are absent or none. -/
def hasNoErrorMessages (response : Option Json) : Bool :=
  response.any fun r => r ≠ .null &&
    areNone ((r.field "validationResults").bind (Json.field "errorMessages"))

theorem mapM_ne_nil {α β : Type} (f : α → Except Thrown β) (a : α) (as : List α) :
    (a :: as).mapM f ≠ .ok [] := by
  rw [List.mapM_cons]
  cases f a with
  | error e => exact nofun
  | ok b =>
    cases as.mapM f with
    | error e => simp [bind,Except.bind]
    | ok bs => simp [bind,Except.bind,pure,Except.pure]

theorem complianceErrors_eq_nil (response : Option Json) :
    complianceErrors R response = .ok [] ↔ hasNoErrorMessages response = true := by
  unfold complianceErrors
  split
  · simp [hasNoErrorMessages]
  · simp [hasNoErrorMessages]
  · rename_i response hnull
    have hnull : response ≠ .null := hnull
    simp only [hasNoErrorMessages,Option.any_some,hnull,ne_eq,not_false_eq_true,decide_true,
      Bool.true_and]
    generalize (response.field "validationResults").bind (Json.field "errorMessages") = messages
    cases messages with
    | none => simp [areNone]
    | some messages =>
      cases messages with
      | arr errs =>
        cases errs with
        | nil => simp [areNone,pure,Except.pure]
        | cons e errs =>
          have hne := mapM_ne_nil (complianceErrorText R) e errs
          simp only [areNone,hne,Bool.false_eq_true]
      | _ => simp [areNone]

/-- The scenario obtained a response without error messages. -/
def IsClean : ScenarioOutcome → Prop
  | .checked _ response _ => hasNoErrorMessages response = true
  | _ => False

variable {R : Runtime} {B : Builders} {args : RunComplianceTestsArgs} {options : ComplianceOptions}
  {σ χ : Type}

section run
variable (h : Handler ComplianceHost Thrown σ χ) (script : Nat → χ) (s : σ)

theorem exec_checkScenario {issued : IssuedInvoice} {response : Option Json} {errors : List String}
    {s' : σ}
    (he : (checkScenario R args options issued).exec h script s = (.ok (response,errors),s')) :
    complianceErrors R response = .ok errors := by
  simp only [checkScenario,Program.bind_eq] at he
  rw [Program.exec_bind] at he
  split at he
  · rename_i answer s₁ hanswer
    rw [Program.exec_bind,Program.exec_ofExcept] at he
    cases hc : complianceErrors R answer with
    | error err =>
      rw [hc] at he
      cases he
    | ok errors' =>
      rw [hc] at he
      cases he
      exact hc
  · cases he

/-- A scenario settles, and passes when its response carries no error messages. -/
theorem exec_scenarioOutcome (kind : Phase2Kind) (input : BusinessInput) :
    ∃ outcome s', (scenarioOutcome R B args options kind input).exec h script s = (.ok outcome,s') ∧
      ((outcome.result kind.1).passed = true ↔ IsClean outcome) := by
  simp only [scenarioOutcome,Program.bind_eq,Program.exec_bind,Program.exec_attempt]
  cases (issueScenario B args options kind input).exec h script s with
  | mk answer s₁ =>
    cases answer with
    | error err => exact ⟨_,_,rfl,by simp [ScenarioOutcome.result,failedScenario,IsClean]⟩
    | ok issued =>
      simp only [Program.exec_bind,Program.exec_attempt]
      generalize (issueScenario B args options kind input).attempt.rest h script s = script₁
      cases hcheck : (checkScenario R args options issued).exec h script₁ s₁ with
      | mk answer s₂ =>
        cases answer with
        | error err => exact ⟨_,_,rfl,by simp [ScenarioOutcome.result,failedScenario,IsClean]⟩
        | ok answer =>
          obtain ⟨response,errors⟩ := answer
          have hclean := complianceErrors_eq_nil R response
          rw [exec_checkScenario h script₁ s₁ hcheck,Except.ok.injEq] at hclean
          refine ⟨_,_,rfl,?_⟩
          simp only [ScenarioOutcome.result,settledScenario,IsClean,← hclean,List.isEmpty_iff]

/-- The events of a run, from its calls. -/
def progressOf : ComplianceHost.Op → Option ComplianceProgressEvent
  | .inr (.onProgress event) => some event
  | _ => none

def progress (calls : List ((o : ComplianceHost.Op) × Except Thrown (ComplianceHost.Ret o))) :
    List ComplianceProgressEvent := calls.filterMap fun c => progressOf c.1

theorem progress_of_quiet {α : Type} {p : Program ComplianceHost Thrown α}
    (hp : p.Calls fun o => progressOf o = none) : progress (p.trace h script s) = [] := by
  rw [progress,List.filterMap_eq_nil_iff]
  exact Program.trace_calls hp script s

theorem scenarioOutcome_quiet (kind : Phase2Kind) (input : BusinessInput) :
    (scenarioOutcome R B args options kind input).Calls fun o => progressOf o = none := by
  refine Program.calls_bind (Program.calls_attempt (Program.calls_embed (fun o => rfl) _))
    fun answer => ?_
  cases answer with
  | error err => trivial
  | ok issued =>
    refine Program.calls_bind (Program.calls_attempt ?_) fun answer => ?_
    · refine Program.calls_bind ?_ fun response => ?_
      · exact (Program.calls_embed (φ := OnboardHost.http)
          (P := fun o => progressOf (ComplianceHost.host.op o) = none) (fun o => rfl) _).embed
      · exact Program.calls_bind (Program.calls_ofExcept _ _) fun _ => trivial
    · cases answer with
      | error err => trivial
      | ok answer => trivial

/-- Whatever the hook does, the run goes on. -/
theorem exec_fire (hhook : options.hook = true) {run : Run} {last : ComplianceTestScenarioResult}
    (hlast : run.results.getLast? = some last) :
    (∃ s', (fireLatestProgress options run).exec h script s = (.ok (),s')) ∧
      progress ((fireLatestProgress options run).trace h script s) =
        [progressEvent last run.results.length] := by
  simp only [fireLatestProgress,hhook,hlast,Bool.not_true,Bool.false_eq_true,if_false,
    Program.perform,Program.tryCatch,Program.embed,Program.exec_call,Program.trace_call]
  generalize h _ (script 0) s = answer
  obtain ⟨answer,s'⟩ := answer
  cases answer with
  | error err => exact ⟨⟨_,rfl⟩,rfl⟩
  | ok u => exact ⟨⟨_,rfl⟩,rfl⟩

end run

/-- The scenarios settled like this, one after the other, each before its event. -/
def Ran (R : Runtime) (B : Builders) (args : RunComplianceTestsArgs) (options : ComplianceOptions)
    (h : Handler ComplianceHost Thrown σ χ) : List (Phase2Kind × BusinessInput) → Run →
    (Nat → χ) → σ → List ScenarioOutcome → Prop
  | [], _, _, _, outcomes => outcomes = []
  | (kind,input) :: rest, run, script, s, outcomes =>
      ∃ outcome s₁ later, outcomes = outcome :: later ∧
        (scenarioOutcome R B args options kind input).exec h script s = (.ok outcome,s₁) ∧
        let script₁ := (scenarioOutcome R B args options kind input).rest h script s
        let fire := fireLatestProgress options (run.push kind.1 outcome)
        Ran R B args options h rest (run.push kind.1 outcome) (fire.rest h script₁ s₁)
          (fire.exec h script₁ s₁).2 later

/-- The rows that the scenarios add. -/
def rows (scenarios : List (Phase2Kind × BusinessInput)) (outcomes : List ScenarioOutcome) :
    List ComplianceTestScenarioResult :=
  List.zipWith (fun scenario outcome => outcome.result scenario.1.1) scenarios outcomes

/-- One event a row, numbered from the rows that are there already. -/
def events (done : Nat) (rows : List ComplianceTestScenarioResult) : List ComplianceProgressEvent :=
  rows.mapIdx fun i row => progressEvent row (done + i + 1)

theorem events_cons (done : Nat) (row : ComplianceTestScenarioResult)
    (rows : List ComplianceTestScenarioResult) :
    events done (row :: rows) = progressEvent row (done + 1) :: events (done + 1) rows := by
  simp only [events,List.mapIdx_cons,Nat.add_zero]
  refine congrArg _ (congrArg (fun f => List.mapIdx f rows) (funext fun i => funext fun r => ?_))
  have hcount : done + (i + 1) + 1 = done + 1 + i + 1 := by omega
  rw [hcount]

theorem events_names (done : Nat) (rows : List ComplianceTestScenarioResult) :
    (events done rows).map (fun event => event.scenarioName) =
      rows.map fun row => row.scenarioName := by
  induction rows generalizing done with
  | nil => rfl
  | cons row rows ih =>
    rw [events_cons,List.map_cons,List.map_cons,ih]
    rfl

theorem exec_runScenarios (hhook : options.hook = true) (h : Handler ComplianceHost Thrown σ χ)
    (scenarios : List (Phase2Kind × BusinessInput)) (run : Run) (script : Nat → χ) (s : σ) :
    ∃ outcomes final s', (runScenarios R B args options scenarios run).exec h script s =
        (.ok final,s') ∧
      Ran R B args options h scenarios run script s outcomes ∧
      outcomes.length = scenarios.length ∧
      final.results = run.results ++ rows scenarios outcomes ∧
      progress ((runScenarios R B args options scenarios run).trace h script s) =
        events run.results.length (rows scenarios outcomes) ∧
      ((∀ row ∈ rows scenarios outcomes, row.passed = true) ↔ ∀ o ∈ outcomes, IsClean o) := by
  induction scenarios generalizing run script s with
  | nil => exact ⟨[],run,s,rfl,rfl,rfl,by simp [rows],rfl,by simp [rows]⟩
  | cons scenario rest ih =>
    obtain ⟨kind,input⟩ := scenario
    obtain ⟨outcome,s₁,houtcome,hclean⟩ :=
      @exec_scenarioOutcome R B args options σ χ h script s kind input
    have hlast : (run.push kind.1 outcome).results.getLast? = some (outcome.result kind.1) := by
      simp [Run.push]
    obtain ⟨⟨s₂,hfire⟩,hevent⟩ := @exec_fire options σ χ h
      ((scenarioOutcome R B args options kind input).rest h script s) s₁ hhook _ _ hlast
    obtain ⟨outcomes,final,s₃,hexec,hran,hlength,hresults,hprogress,hall⟩ := ih
      (run.push kind.1 outcome) ((fireLatestProgress options (run.push kind.1 outcome)).rest h
        ((scenarioOutcome R B args options kind input).rest h script s) s₁) s₂
    have hexec' : (runScenarios R B args options ((kind,input) :: rest) run).exec h script s =
        (.ok final,s₃) := by
      simp only [runScenarios,Program.bind_eq]
      rw [Program.exec_bind_of_ok houtcome,Program.exec_bind_of_ok hfire,hexec]
    have hran' : Ran R B args options h ((kind,input) :: rest) run script s
        (outcome :: outcomes) := by
      refine ⟨outcome,s₁,outcomes,rfl,houtcome,?_⟩
      simp only [hfire]
      exact hran
    have hlength' : (run.push kind.1 outcome).results.length = run.results.length + 1 := by
      simp [Run.push]
    refine ⟨outcome :: outcomes,final,s₃,hexec',hran',by simp [hlength],?_,?_,?_⟩
    · rw [hresults]
      simp [rows,Run.push]
    · have hquiet := @progress_of_quiet σ χ h script s _ _
        (@scenarioOutcome_quiet R B args options kind input)
      rw [hlength'] at hevent hprogress
      simp only [runScenarios,Program.bind_eq]
      rw [Program.trace_bind,houtcome]
      simp only []
      rw [Program.trace_bind,hfire]
      simp only [progress,List.filterMap_append] at hquiet hevent hprogress ⊢
      rw [hquiet,hevent,hprogress]
      simp [rows,events_cons]
    · simp only [rows,List.zipWith_cons_cons,List.mem_cons,forall_eq_or_imp,hclean]
      exact and_congr Iff.rfl hall

/-- What a run reports, how its scenarios settled, and what its hook was told. -/
structure Reports (R : Runtime) (B : Builders) (args : RunComplianceTestsArgs)
    (options : ComplianceOptions) (h : Handler ComplianceHost Thrown σ χ) (script : Nat → χ) (s : σ)
    (outcomes : List ScenarioOutcome) (report : ComplianceTestReport) : Prop where
  ran : Ran R B args options h complianceScenarios {} script s outcomes
  six : outcomes.length = 6
  rows : report.results = rows complianceScenarios outcomes
  order : report.results.map (fun row => row.invoiceKind) =
    complianceScenarios.map fun scenario => scenario.1.1
  progress : progress ((runComplianceTests R B args options).trace h script s) =
    events 0 report.results
  verdict : report.passed = true ↔ ∀ o ∈ outcomes, IsClean o

theorem rows_kind {scenarios : List (Phase2Kind × BusinessInput)} {outcomes : List ScenarioOutcome}
    (hlength : outcomes.length = scenarios.length) :
    (rows scenarios outcomes).map (fun row => row.invoiceKind) =
      scenarios.map fun scenario => scenario.1.1 := by
  induction scenarios generalizing outcomes with
  | nil => simp [rows]
  | cons scenario rest ih =>
    cases outcomes with
    | nil => simp at hlength
    | cons outcome outcomes =>
      have hkind : (outcome.result scenario.1.1).invoiceKind = scenario.1.1 := by
        cases outcome <;> rfl
      have hrest := ih (Nat.succ.inj hlength)
      simp only [rows] at hrest
      simp [rows,hkind,hrest]

theorem rows_name {scenarios : List (Phase2Kind × BusinessInput)} {outcomes : List ScenarioOutcome}
    {row : ComplianceTestScenarioResult} (hrow : row ∈ rows scenarios outcomes) :
    row.scenarioName = row.invoiceKind.literal := by
  rw [rows,← List.map_uncurry_zip_eq_zipWith,List.mem_map] at hrow
  obtain ⟨⟨scenario,outcome⟩,-,rfl⟩ := hrow
  cases outcome with
  | _ => rfl

/-- With its credentials a run settles all six scenarios, whatever becomes of them. -/
theorem runComplianceTests_reports (hsetup : setup args = .ok ()) (hhook : options.hook = true)
    (h : Handler ComplianceHost Thrown σ χ) (script : Nat → χ) (s : σ) :
    ∃ report s' outcomes,
      (runComplianceTests R B args options).exec h script s = (.ok report,s') ∧
      Reports R B args options h script s outcomes report := by
  obtain ⟨outcomes,final,s',hexec,hran,hlength,hresults,hprogress,hall⟩ :=
    @exec_runScenarios R B args options σ χ hhook h complianceScenarios {} script s
  have hrun : runComplianceTests R B args options =
      (runScenarios R B args options complianceScenarios {}).bind fun run => .ret run.report := by
    rw [runComplianceTests,hsetup]
    rfl
  have hrows : final.report.results = rows complianceScenarios outcomes := hresults
  have htrace : (runComplianceTests R B args options).trace h script s =
      (runScenarios R B args options complianceScenarios {}).trace h script s := by
    rw [hrun,Program.trace_bind,hexec]
    simp
  have hpassed : final.report.passed = true ↔ ∀ row ∈ final.report.results, row.passed = true :=
    List.all_eq_true
  refine ⟨final.report,s',outcomes,?_,?_⟩
  · rw [hrun,Program.exec_bind_of_ok hexec]
    rfl
  · exact
      { ran := hran
        six := hlength
        rows := hrows
        order := by rw [hrows,rows_kind hlength]
        progress := by
          rw [htrace,hprogress,hrows]
          rfl
        verdict := by rw [hpassed,hrows,hall] }

end Compliance
end Zatca
