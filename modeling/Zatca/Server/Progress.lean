import Zatca.Core.OnboardingGate
import Zatca.Server.Fencing
set_option autoImplicit false

/-! What a run of onboarding leaves of the tenant's progress. Every write merges into what is there,
and none removes an entry or the last error. -/

namespace Zatca
open Interaction

/-- How a scenario that was reported with this outcome is shown. -/
def scenarioStatus (passed : Bool) : ScenarioStatus := if passed then .passed else .failed

namespace OnboardingProgress

def record (p : OnboardingProgress) (event : String × Bool) : OnboardingProgress :=
  { p with scenarios := JsMap.setEntry event.1 (scenarioStatus event.2) p.scenarios }

/-- No error, and the scenarios of these events with the outcome that each was last told. -/
def Tells (p : OnboardingProgress) (events : List (String × Bool)) : Prop :=
  p.lastError = none ∧
    ∀ name, p.scenarios.lookup name = (events.reverse.lookup name).map scenarioStatus

theorem lastError_foldl (events : List (String × Bool)) (p : OnboardingProgress) :
    (events.foldl record p).lastError = p.lastError := by
  induction events generalizing p with
  | nil => rfl
  | cons event events ih => exact ih (p.record event)

/-- A scenario that no event names keeps what it had. -/
theorem lookup_foldl (events : List (String × Bool)) (p : OnboardingProgress) (name : String) :
    (events.foldl record p).scenarios.lookup name =
      ((events.reverse.lookup name).map scenarioStatus).or (p.scenarios.lookup name) := by
  induction events generalizing p with
  | nil => rfl
  | cons event events ih =>
    rw [List.foldl_cons,ih,List.reverse_cons,List.lookup_append,JsMap.lookup_cons_ite]
    simp only [record,JsMap.lookup_setEntry]
    cases events.reverse.lookup name with
    | some passed => rfl
    | none =>
      by_cases hname : name = event.1
      · simp [hname]
      · simp [hname]

theorem lookup_eq_none_iff {ν : Type} {m : List (String × ν)} {name : String} :
    m.lookup name = none ↔ name ∉ m.map Prod.fst := by
  rw [List.lookup_eq_none_iff,List.mem_map,not_exists]
  refine forall_congr' fun e => ?_
  rw [bne_iff_ne,ne_comm,not_and]

/-- The record tells of these events when it had no error and no scenario besides theirs. -/
theorem tells_foldl_iff {events : List (String × Bool)} {p : OnboardingProgress} :
    (events.foldl record p).Tells events ↔ p.lastError = none ∧
      ∀ name ∈ p.scenarios.map Prod.fst, name ∈ events.map Prod.fst := by
  have hkeys (name : String) : events.reverse.lookup name = none ↔ name ∉ events.map Prod.fst := by
    rw [lookup_eq_none_iff,List.map_reverse,List.mem_reverse]
  simp only [Tells,lastError_foldl,lookup_foldl]
  refine and_congr_right fun _ => ⟨fun h name hname => ?_,fun h name => ?_⟩
  · by_contra hnot
    have hlookup := h name
    rw [(hkeys name).2 hnot] at hlookup
    exact lookup_eq_none_iff.1 hlookup hname
  · cases hevent : events.reverse.lookup name with
    | some passed => rfl
    | none =>
      have hnot := (hkeys name).1 hevent
      exact lookup_eq_none_iff.2 fun hname => hnot (h name hname)

end OnboardingProgress

/-- The scenario whose outcome a call writes on the tenant's record. -/
def ServerOp.reports (tenantRef : String) : ServerOp → Option (String × Bool)
  | .tenants (.recordOnboardingProgress ref scenario passed) =>
      if ref = tenantRef then some (scenario,passed) else none
  | _ => none

/-- What the run's progress events report, the first one first. -/
def reportedBy (tenantRef : String) (calls : List ((o : ServerOp) × Except Thrown (ServerOp.Ret o))) :
    List (String × Bool) := calls.filterMap fun c => c.1.reports tenantRef

def progressOf (tenantRef : String) (w : World) : Option OnboardingProgress :=
  (w.tenants.get tenantRef).map TenantRecord.onboardingProgress

section step
variable {D : Deps} {args : RunOnboardingArgs} {phase : RunPhase} {o : ServerOp} {x : Choice}
  {w : World}

theorem progressOf_set {tenantRef : String} {r r' : TenantRecord} (now : Date)
    (hg : w.tenants.get tenantRef = some r) (hd : r'.deletedAt = r.deletedAt) :
    progressOf tenantRef { w with now, tenants := ⟨w.tenants.records.set tenantRef r'⟩ } =
      some r'.onboardingProgress := by
  unfold progressOf
  rw [MemoryTenantStore.get_set_self _ _ (hd.trans (MemoryTenantStore.get_eq_some.1 hg).2)]
  rfl

/-- A transition without an error to report. -/
theorem progressOf_setState {tenantRef : String} {next : TenantState} {options : SetStateOptions}
    (herror : options.lastError = none) :
    progressOf tenantRef (World.handle D (.tenants (.setState tenantRef next options)) x w).2 =
      progressOf tenantRef w := by
  rcases World.handle_tenants_cases D (.setState tenantRef next options) x w with
    ⟨e,hw⟩ | ⟨ref,ho,-⟩ | ⟨a,ref,r',hwrite,hw⟩
  · rw [hw]
    rfl
  · cases ho
  · cases hwrite with
    | setState _ _ hg ht =>
      rename_i r
      cases TenantRecord.transition_eq ht
      have hd : (r.withState next options x.now).deletedAt = r.deletedAt := rfl
      rw [hw,progressOf_set x.now hg hd]
      simp [progressOf,hg,TenantRecord.withState,herror]

/-- A report is merged into the record, and no other call of a run that succeeds touches it. -/
theorem progressOf_handle (hcall : RunCall args phase o) (hphase : phase ≠ .failure)
    (hok : x.failure = none) :
    progressOf args.tenantRef (World.handle D o x w).2 =
      (progressOf args.tenantRef w).map fun p =>
        (o.reports args.tenantRef).toList.foldl OnboardingProgress.record p := by
  have hframe := World.handle_frame D o x w
  cases hcall with
  | claim lockExpires expectedFrom =>
    rw [progressOf_setState rfl]
    exact Option.map_id'.symm
  | promote =>
    rw [progressOf_setState rfl]
    exact Option.map_id'.symm
  | markFailed message => exact absurd rfl hphase
  | read =>
    rcases World.handle_tenants_cases D (.get args.tenantRef) x w with
      ⟨e,hw⟩ | ⟨ref,-,hw⟩ | ⟨a,ref,r,hwrite,-⟩
    · rw [hw]
      exact Option.map_id'.symm
    · rw [hw]
      exact Option.map_id'.symm
    · cases hwrite
  | progress scenario passed =>
    have hreports : (ServerOp.tenants (.recordOnboardingProgress args.tenantRef scenario
        passed)).reports args.tenantRef = some (scenario,passed) := if_pos rfl
    rw [hreports]
    have hserve : World.handle D (.tenants (.recordOnboardingProgress args.tenantRef scenario
        passed)) x w = World.serve D _ x { w with now := x.now } := by
      simp [World.handle,hok]
    rw [hserve]
    simp only [World.serve,MemoryTenantStore.handle,MemoryTenantStore.update]
    cases hg : w.tenants.get args.tenantRef with
    | none => simp [progressOf,hg,MemoryTenantStore.settle]
    | some r =>
      simp only [Except.map,MemoryTenantStore.settle]
      have hd : (r.withProgress scenario passed x.now).deletedAt = r.deletedAt := rfl
      rw [progressOf_set x.now hg hd]
      simp [progressOf,hg,TenantRecord.withProgress,OnboardingProgress.record,scenarioStatus]
  | expiry d =>
    rcases World.handle_tenants_cases D (.setProductionExpiry args.tenantRef d) x w with
      ⟨e,hw⟩ | ⟨ref,ho,-⟩ | ⟨a,ref,r,hwrite,hw⟩
    · rw [hw]
      exact Option.map_id'.symm
    · cases ho
    · cases hwrite with
      | expiry _ hg =>
        rename_i r
        have hd : ({ r with productionCertificateExpiresAt := some d
                            updatedAt := x.now } : TenantRecord).deletedAt = r.deletedAt := rfl
        rw [hw,progressOf_set x.now hg hd]
        simp [progressOf,hg,ServerOp.reports]
  | _ =>
    unfold progressOf
    rw [hframe.tenants (by intro h; cases h)]
    exact Option.map_id'.symm

/-- The record after a program that makes such calls only. -/
theorem progressOf_exec {α : Type} {p : Program Server Thrown α}
    (hp : p.Calls fun o => ∃ phase, phase ≠ .failure ∧ RunCall args phase o)
    {script : Nat → Choice} (hok : ∀ i, (script i).failure = none) :
    progressOf args.tenantRef (p.exec (World.handle D) script w).2 =
      (progressOf args.tenantRef w).map fun progress =>
        (reportedBy args.tenantRef (p.trace (World.handle D) script w)).foldl
          OnboardingProgress.record progress := by
  induction p generalizing script w with
  | ret a => exact Option.map_id'.symm
  | throw e => exact Option.map_id'.symm
  | call o k ih =>
    obtain ⟨phase,hphase,hcall⟩ := hp.1
    rw [Program.exec_call,ih _ (hp.2 _) (fun i => hok (i+1)),
      progressOf_handle hcall hphase (hok 0),Option.map_map,Program.trace_call]
    refine congrArg (fun f => (progressOf args.tenantRef w).map f) (funext fun progress => ?_)
    simp only [Function.comp,reportedBy,List.filterMap_cons]
    cases o.reports args.tenantRef with
    | none => rfl
    | some event => rfl

end step

section run
variable {D : Deps} {args : RunOnboardingArgs} {script : Nat → Choice} {w w' : World}

/-- A run that returns has not come to its error path. -/
theorem runOnboarding_returned {result : RunOnboardingResult}
    (he : (runOnboarding D args).exec (World.handle D) script w = (.ok result,w')) :
    ∃ existing w₁, (claimTenant args).exec (World.handle D) script w = (.ok existing,w₁) ∧
      (underClaim D args existing).exec (World.handle D)
        ((claimTenant args).rest (World.handle D) script w) w₁ = (.ok result,w') ∧
      (runOnboarding D args).trace (World.handle D) script w =
        (claimTenant args).trace (World.handle D) script w ++
          (underClaim D args existing).trace (World.handle D)
            ((claimTenant args).rest (World.handle D) script w) w₁ := by
  unfold runOnboarding at he ⊢
  simp only [Program.bind_eq,Program.exec_bind] at he
  cases hclaim : (claimTenant args).exec (World.handle D) script w with
  | mk answer w₁ =>
    rw [hclaim] at he
    cases answer with
    | error err => cases he
    | ok existing =>
      simp only [Program.exec_tryCatch] at he
      refine ⟨existing,w₁,rfl,?_⟩
      simp only [Program.bind_eq,Program.trace_bind,hclaim,Program.trace_tryCatch]
      cases hunder : (underClaim D args existing).exec (World.handle D)
          ((claimTenant args).rest (World.handle D) script w) w₁ with
      | mk answer w₂ =>
        rw [hunder] at he
        cases answer with
        | ok a =>
          cases he
          exact ⟨rfl,by rw [List.append_nil]⟩
        | error err =>
          have hthrows := @onFailure_throws D args
            ((underClaim D args existing).rest (World.handle D)
              ((claimTenant args).rest (World.handle D) script w) w₁) w₂ err
          simp only at he
          rw [he] at hthrows
          cases hthrows

theorem underClaim_calls (existing : TenantRecord) : (underClaim D args existing).Calls
    fun o => ∃ phase, phase ≠ .failure ∧ RunCall args phase o := by
  refine Program.calls_bind ((handshake_calls existing).mono fun o ho => ⟨.handshake,nofun,ho⟩)
    fun handed => ?_
  exact Program.calls_bind ((persist_calls _ _).mono fun o ho => ⟨.persist,nofun,ho⟩) fun _ => trivial

/-- The record that a run leaves is the one it found, with the run's reports merged in. -/
theorem progressOf_runOnboarding {result : RunOnboardingResult}
    (hok : ∀ i, (script i).failure = none)
    (he : (runOnboarding D args).exec (World.handle D) script w = (.ok result,w')) :
    progressOf args.tenantRef w' = (progressOf args.tenantRef w).map fun p =>
      (reportedBy args.tenantRef ((runOnboarding D args).trace (World.handle D) script w)).foldl
        OnboardingProgress.record p := by
  obtain ⟨existing,w₁,hclaim,hunder,htrace⟩ := runOnboarding_returned he
  have hrest : ∀ i, ((claimTenant args).rest (World.handle D) script w i).failure = none := by
    intro i
    rw [Program.rest_eq_drop]
    exact hok _
  have hcalls : (claimTenant args).Calls fun o => ∃ phase, phase ≠ .failure ∧ RunCall args phase o :=
    claimTenant_calls.mono fun o ho => ⟨.claim,nofun,ho⟩
  have hbefore := progressOf_exec (D := D) (w := w) hcalls hok
  have hafter := progressOf_exec (D := D) (w := w₁) (@underClaim_calls D args existing) hrest
  rw [hclaim] at hbefore
  rw [hunder] at hafter
  rw [hafter,hbefore,Option.map_map,htrace]
  simp only [reportedBy,List.filterMap_append,List.foldl_append]
  rfl

end run

/-! ### The scenarios of the core's onboarding -/

def complianceScenarioNames : List String :=
  complianceScenarios.map fun scenario => scenario.1.1.literal

section scenarios
variable {D : Deps} {args : RunOnboardingArgs} {script : Nat → Choice} {w w' : World}

theorem reportedBy_eq (tenantRef : String)
    (calls : List ((o : ServerOp) × Except Thrown (ServerOp.Ret o))) :
    reportedBy tenantRef calls = (calls.map Sigma.fst).filterMap (ServerOp.reports tenantRef) := by
  rw [List.filterMap_map]
  rfl

theorem reportedBy_of_quiet {α : Type} {tenantRef : String} {p : Program Server Thrown α}
    (hp : p.Calls fun o => ServerOp.reports tenantRef o = none) (script : Nat → Choice) (w : World) :
    reportedBy tenantRef (p.trace (World.handle D) script w) = [] :=
  List.filterMap_eq_nil_iff.2 (Program.trace_calls hp script w)

/-- What comes after does not report. -/
theorem reportedBy_bind {α β : Type} {tenantRef : String} {p : Program Server Thrown α}
    {f : α → Program Server Thrown β}
    (hf : ∀ a, (f a).Calls fun o => ServerOp.reports tenantRef o = none) (script : Nat → Choice)
    (w : World) : reportedBy tenantRef ((p.bind f).trace (World.handle D) script w) =
      reportedBy tenantRef (p.trace (World.handle D) script w) := by
  rw [Program.trace_bind,reportedBy,List.filterMap_append]
  cases p.exec (World.handle D) script w with
  | mk answer w₁ =>
    cases answer with
    | error err => exact List.append_nil _
    | ok a =>
      have hquiet := @reportedBy_of_quiet D β tenantRef (f a) (hf a)
        (p.rest (World.handle D) script w) w₁
      unfold reportedBy at hquiet
      simp only [hquiet,List.append_nil]
      rfl

/-- Only the exchange with the gateway reports. -/
theorem reports_of_phase {tenantRef : String} {phase : RunPhase} {o : ServerOp}
    (hcall : RunCall args phase o) (hphase : phase ≠ .handshake) : o.reports tenantRef = none := by
  cases hcall with
  | http o => exact absurd rfl hphase
  | crypto o => exact absurd rfl hphase
  | progress scenario passed => exact absurd rfl hphase
  | _ => rfl

/-- What the core tells its hook is what the tenant's record is told. -/
theorem reportedBy_embed {α : Type} {tenantRef : String} (p : Program OnboardHost Thrown α)
    (script : Nat → Choice) (w : World) :
    reportedBy tenantRef ((p.embed (Server.onboardHost tenantRef)).trace (World.handle D) script w) =
      (told (p.trace ((World.handle D).pullback (Server.onboardHost tenantRef)) script w)).map
        fun event => (event.scenarioName,event.passed) := by
  have hops := Program.ops_embed (h := World.handle D) (φ := Server.onboardHost tenantRef) p script w
  rw [reportedBy_eq]
  refine (congrArg (List.filterMap (ServerOp.reports tenantRef)) hops).trans ?_
  rw [List.filterMap_map,told,List.map_filterMap]
  refine congrArg (fun f => List.filterMap f _) (funext fun c => ?_)
  obtain ⟨o,answer⟩ := c
  cases o with
  | http o => rfl
  | crypto o => rfl
  | onProgress event => exact if_pos rfl

theorem Compliance.names_of_reports {R : Runtime} {B : Builders} {args : RunComplianceTestsArgs}
    {options : ComplianceOptions} {σ χ : Type} {h : Handler ComplianceHost Thrown σ χ}
    {script : Nat → χ} {s : σ} {outcomes : List ScenarioOutcome} {report : ComplianceTestReport}
    (hreports : Compliance.Reports R B args options h script s outcomes report) :
    (Compliance.events 0 report.results).map (fun event => event.scenarioName) =
      complianceScenarioNames := by
  have hname : ∀ row ∈ report.results, row.scenarioName = row.invoiceKind.literal := by
    rw [hreports.rows]
    exact fun row hrow => Compliance.rows_name hrow
  have horder := congrArg (List.map InvoiceKind.literal) hreports.order
  rw [List.map_map,List.map_map] at horder
  rw [Compliance.events_names,List.map_congr_left hname]
  exact horder

/-- The core's onboarding under the claim, and what is made of its result without a call. -/
theorem handshake_core (hcore : args.onboardFn = none) (existing : TenantRecord) :
    ∃ onboardArgs finish, (∀ result, (finish result).Calls fun _ => False) ∧
      handshake D args existing = ((onboard D.runtime D.builders onboardArgs).embed
        (Server.onboardHost args.tenantRef)).bind finish := by
  unfold handshake
  simp only [hcore,Option.getD_none,Program.bind_eq]
  refine ⟨_,_,fun result => ?_,rfl⟩
  split
  · trivial
  · split
    · trivial
    · trivial

/-- The core's onboarding reports its six scenarios. -/
theorem reportedNames {result : RunOnboardingResult} (hcore : args.onboardFn = none)
    (he : (runOnboarding D args).exec (World.handle D) script w = (.ok result,w')) :
    (reportedBy args.tenantRef ((runOnboarding D args).trace (World.handle D) script w)).map
      Prod.fst = complianceScenarioNames := by
  obtain ⟨existing,w₁,hclaim,hunder,htrace⟩ := runOnboarding_returned he
  generalize (claimTenant args).rest (World.handle D) script w = script₁ at hunder htrace
  obtain ⟨onboardArgs,finish,hfinish,hshake⟩ := @handshake_core D args hcore existing
  have hpersist (handed : OnboardingResult × Date) : ((persist args handed.1 handed.2).bind
      fun finalRecord => (.ret {
        tenantRef := args.tenantRef
        state := finalRecord.state
        complianceTestStatus := handed.1.complianceTestReport.passed
        productionCertificateExpiresAt := handed.2
        productionRequestId := handed.1.productionRequestId } :
          Program Server Thrown RunOnboardingResult)).Calls
      fun o => ServerOp.reports args.tenantRef o = none :=
    Program.calls_bind ((persist_calls _ _).mono fun o ho => reports_of_phase ho (by decide))
      fun _ => trivial
  rcases @onboard_gated D.runtime D.builders _ _ onboardArgs
      ((World.handle D).pullback (Server.onboardHost args.tenantRef)) script₁ w₁ with
    ⟨⟨err,w₂,herror⟩,-⟩ | ⟨c,outcomes,hgated⟩
  · simp only [underClaim,Program.bind_eq,hshake,Program.exec_bind,Program.exec_embed,herror] at hunder
    cases hunder
  · obtain ⟨script₂,w₂,hreports⟩ := hgated.reports
    have hclaimed := @reportedBy_of_quiet D _ args.tenantRef (claimTenant args)
      (claimTenant_calls.mono fun o ho => reports_of_phase ho (by decide)) script w
    have hevents : reportedBy args.tenantRef
        ((underClaim D args existing).trace (World.handle D) script₁ w₁) =
        (Compliance.events 0 c.report.results).map fun event => (event.scenarioName,event.passed) := by
      rw [← hgated.told,← reportedBy_embed,
        ← reportedBy_bind (D := D) (fun a => (hfinish a).mono fun o ho => ho.elim),← hshake]
      exact reportedBy_bind hpersist script₁ w₁
    rw [htrace,reportedBy,List.filterMap_append]
    unfold reportedBy at hclaimed hevents
    rw [hclaimed,hevents,List.nil_append,List.map_map]
    exact Compliance.names_of_reports hreports

end scenarios

/-- After a run that returns, every call of which was served, the record tells of this run if it had
no error before and no scenario that the run does not report; the core's onboarding reports its six. -/
theorem progressTells_iff (D : Deps) (args : RunOnboardingArgs) (script : Nat → Choice) (w w' : World)
    (r : TenantRecord) (result : RunOnboardingResult)
    (hr : w.tenants.get args.tenantRef = some r) (hok : ∀ i, (script i).failure = none)
    (he : (runOnboarding D args).exec (World.handle D) script w = (.ok result,w')) :
    ∃ r', w'.tenants.get args.tenantRef = some r' ∧
      let reported := reportedBy args.tenantRef
        ((runOnboarding D args).trace (World.handle D) script w)
      (r'.onboardingProgress.Tells reported ↔ r.onboardingProgress.lastError = none ∧
        ∀ name ∈ r.onboardingProgress.scenarios.map Prod.fst, name ∈ reported.map Prod.fst) ∧
      (args.onboardFn = none →
        (r'.onboardingProgress.Tells reported ↔ r.onboardingProgress.lastError = none ∧
          ∀ name ∈ r.onboardingProgress.scenarios.map Prod.fst, name ∈ complianceScenarioNames)) := by
  have hprogress := progressOf_runOnboarding hok he
  simp only [progressOf,hr,Option.map_some,Option.map_eq_some_iff] at hprogress
  obtain ⟨r',hr',hmerged⟩ := hprogress
  have hiff := @OnboardingProgress.tells_foldl_iff (reportedBy args.tenantRef
    ((runOnboarding D args).trace (World.handle D) script w)) r.onboardingProgress
  rw [← hmerged] at hiff
  refine ⟨r',hr',hiff,fun hcore => ?_⟩
  rw [← reportedNames hcore he]
  exact hiff

namespace Sample

/-- The exchange with the gateway tells of one scenario and ends well. -/
def reportingRun : RunOnboardingArgs :=
  let event : ComplianceProgressEvent := ⟨"standardTaxInvoice",.standardTaxInvoice,true,[],1⟩
  { onboardingArgs (.ok onboardingResult) with
    onboardFn := some (fun _ => (Program.perform (S := OnboardHost) (.onProgress event)).bind
      fun _ => .ret onboardingResult) }

/-- The tenant after an attempt that failed. -/
def retried : World :=
  ((runOnboarding deps (failingRun 0)).exec (World.handle deps) (fun _ => tick 0) world).2

end Sample

/-- A first run tells of what it reported. -/
theorem progressTells_first : ∃ result w' r',
    (runOnboarding Sample.deps Sample.reportingRun).exec (World.handle Sample.deps)
      (fun _ => Sample.tick 0) Sample.world = (.ok result,w') ∧
    w'.tenants.get Sample.tenantRef = some r' ∧
    r'.onboardingProgress.Tells [("standardTaxInvoice",true)] := by
  obtain ⟨r',hr',hiff,-⟩ := progressTells_iff Sample.deps Sample.reportingRun
    (fun _ => Sample.tick 0) Sample.world _ Sample.tenant _ rfl (fun _ => rfl) rfl
  exact ⟨_,_,r',rfl,hr',hiff.2 (by decide)⟩

/-- After an attempt that failed the run that succeeds still tells its error. -/
theorem progressTells_fails_after_a_failure :
    ¬ ∀ (D : Deps) args script w w' r result, w.tenants.get args.tenantRef = some r →
      (∀ i, (script i).failure = none) →
      (runOnboarding D args).exec (World.handle D) script w = (.ok result,w') →
      ∃ r', w'.tenants.get args.tenantRef = some r' ∧ r'.onboardingProgress.Tells
        (reportedBy args.tenantRef ((runOnboarding D args).trace (World.handle D) script w)) := by
  intro hall
  obtain ⟨r',hr',htells,-⟩ := hall Sample.deps Sample.reportingRun (fun _ => Sample.tick 0)
    Sample.retried _ _ _ rfl (fun _ => rfl) rfl
  have herror : (r'.onboardingProgress.lastError).isSome = true := by
    revert r'
    decide
  rw [htells] at herror
  cases herror

end Zatca
