import Zatca.Server.Credentials
set_option autoImplicit false

/-! Any number of onboarding runs at the same time. A claim is a lease on the record of the tenant,
and the last writes of a run do not ask whether it still holds. -/

namespace Zatca
open Interaction

/-- When the onboarding claim on the tenant expires, held or not. -/
def claimSlot (tenantRef : String) (w : World) : Option Int :=
  (w.tenants.get tenantRef).bind (fun r =>
    if r.state = .onboarding then r.claimExpiresAt.map Date.getTime else none)

/-- What an answered call does to the claim on the tenant. -/
def claimEntry (tenantRef : String) : ServerEvent → Lease.Log
  | ⟨p,.tenants (.setState ref .onboarding options),.ok _,_,_⟩ =>
      if ref = tenantRef then options.claimExpiresAt.toList.map (fun e => (p,.grant e.getTime)) else []
  | ⟨p,.tenants (.setState ref _ _),.ok _,_,_⟩ => if ref = tenantRef then [(p,.drop)] else []
  | _ => []

def claimLog (tenantRef : String) (history : List ServerEvent) : Lease.Log :=
  history.flatMap (claimEntry tenantRef)

/-- The tenant whose material, expiry or outcome a call writes. -/
def ServerOp.finalWrite : ServerOp → Option String
  | .vault (.put tenantRef _) | .tenants (.setProductionExpiry tenantRef _)
  | .tenants (.setState tenantRef .productionReady _) | .tenants (.setState tenantRef .failed _) =>
      some tenantRef
  | _ => none

/-- A final write of a run is made before the claim it was granted expires, and before the run has
promoted the tenant or marked it failed. -/
def WritesInTime {α : Type} (c : ServerConfig α) (p : Nat) (x : Choice) : Prop :=
  ClockKept c p x ∧ ∀ o ∈ (c.procs p).nextOp, ∀ tenantRef ∈ ServerOp.finalWrite o,
    ∃ e ∈ Lease.tenure p (claimLog tenantRef c.history), x.now.getTime < e

instance {α : Type} (c : ServerConfig α) (p : Nat) (x : Choice) : Decidable (WritesInTime c p x) := by
  unfold WritesInTime
  infer_instance

/-- The run was the last one granted the claim, and the claim stands. -/
def CurrentClaimant (tenantRef : String) (e : ServerEvent) (older : List ServerEvent) : Prop :=
  Lease.latest (claimLog tenantRef older) = some e.pid ∧
    ∃ r, e.before.tenants.get tenantRef = some r ∧ r.isClaimed e.after.now

/-- Only the current claimant makes a final write, and nobody touches another run's live claim. -/
structure Fencing {α : Type} (c : ServerConfig α) : Prop where
  current : ∀ e older, e :: older <:+ c.history → ∀ tenantRef ∈ e.op.finalWrite,
    CurrentClaimant tenantRef e older
  noOverwrite : ∀ e older, e :: older <:+ c.history → ∀ tenantRef r,
    e.before.tenants.get tenantRef = some r → r.isClaimed e.after.now →
    Lease.latest (claimLog tenantRef older) ≠ some e.pid →
    ∃ r', e.after.tenants.get tenantRef = some r' ∧ r'.state = .onboarding ∧
      r'.claimedBy = r.claimedBy ∧ r'.claimExpiresAt = r.claimExpiresAt

section step
variable {D : Deps} {args : RunOnboardingArgs} {phase : RunPhase} {o : ServerOp} {x : Choice}
  {w : World} {p : Nat} {tenantRef : String} {log : Lease.Log}

theorem isClaimed_iff {r : TenantRecord} {now : Date} : r.isClaimed now ↔
    r.state = .onboarding ∧ ∃ e, r.claimExpiresAt = some e ∧ now.getTime < e.getTime := by
  unfold TenantRecord.isClaimed
  cases r.claimExpiresAt with
  | none => simp
  | some e => simp

theorem claimSlot_eq_some {e : Int} : claimSlot tenantRef w = some e ↔
    ∃ r, w.tenants.get tenantRef = some r ∧ r.state = .onboarding ∧ r.claimExpiresAt = some ⟨e⟩ := by
  unfold claimSlot
  cases w.tenants.get tenantRef with
  | none => simp
  | some r =>
    simp only [Option.bind_some,Option.some.injEq,exists_eq_left']
    split
    · rename_i hs
      simp only [hs,true_and,Option.map_eq_some_iff]
      constructor
      · rintro ⟨d,hd,rfl⟩
        exact hd
      · intro hd
        exact ⟨_,hd,rfl⟩
    · rename_i hs
      simp [hs]

/-- A guarded transition finds no live claim. -/
theorem not_isClaimed_of_transition {r r' : TenantRecord} {next expectedFrom : TenantState}
    {options : SetStateOptions} {now : Date} (hf : options.expectedFrom = some expectedFrom)
    (h : r.transition tenantRef next options now = .ok r') : r.isClaimed now = false := by
  unfold TenantRecord.transition at h
  rw [hf] at h
  simp only at h
  split at h
  · rename_i hm
    by_contra hc
    rw [Bool.not_eq_false,isClaimed_iff] at hc
    obtain ⟨hs,e,he,hlt⟩ := hc
    simp only [TenantRecord.mayTransitionFrom,TenantRecord.lockNotHeld,hs,he,Bool.or_eq_true,
      Bool.and_eq_true,decide_eq_true_eq] at hm
    rcases hm with ⟨rfl,hne⟩ | ⟨-,hle⟩
    · exact hne rfl
    · omega
  · cases h

def TenantRecord.claim (r : TenantRecord) : TenantState × Option String × Option Date :=
  (r.state,r.claimedBy,r.claimExpiresAt)

/-- The claim on the tenant, if the tenant is there. -/
def claimOf (tenantRef : String) (w : World) : Option (TenantState × Option String × Option Date) :=
  (w.tenants.get tenantRef).map TenantRecord.claim

theorem claimSlot_congr {w' : World} (h : claimOf tenantRef w' = claimOf tenantRef w) :
    claimSlot tenantRef w' = claimSlot tenantRef w := by
  have hslot (w : World) : claimSlot tenantRef w = (claimOf tenantRef w).bind (fun k =>
      if k.1 = .onboarding then k.2.2.map Date.getTime else none) := by
    unfold claimSlot claimOf
    rw [Option.bind_map]
    rfl
  rw [hslot,hslot,h]

/-- What a call of a run does to the claim on a tenant: nothing, a grant where there is no live claim,
or the end of the claim by a final write. -/
inductive ClaimStep (tenantRef : String) (p : Nat) (now : Date) (o : ServerOp) (w w' : World) :
    Lease.Log → Prop
  | kept : claimOf tenantRef w' = claimOf tenantRef w → ClaimStep tenantRef p now o w w' []
  | granted (e : Int) : (∀ r, w.tenants.get tenantRef = some r → r.isClaimed now = false) →
      claimSlot tenantRef w' = some e → ClaimStep tenantRef p now o w w' [(p,.grant e)]
  | dropped : tenantRef ∈ o.finalWrite → ClaimStep tenantRef p now o w w' [(p,.drop)]

theorem claimOf_set {r r' : TenantRecord} {ref : String} (hg : w.tenants.get ref = some r)
    (hd : r'.deletedAt = r.deletedAt) (hc : tenantRef = ref → r'.claim = r.claim) (now : Date) :
    claimOf tenantRef { w with now, tenants := ⟨w.tenants.records.set ref r'⟩ } =
      claimOf tenantRef w := by
  unfold claimOf
  by_cases hr : tenantRef = ref
  · subst hr
    simp only
    rw [MemoryTenantStore.get_set_self _ _ (hd.trans (MemoryTenantStore.get_eq_some.1 hg).2),hg]
    exact congrArg some (hc rfl)
  · simp only
    rw [MemoryTenantStore.get_set_ne _ _ hr]

theorem claimStep_setState {next : TenantState} {options : SetStateOptions} {ref : String}
    (hstep : ∀ a r r', w.tenants.get ref = some r → r.transition ref next options x.now = .ok r' →
      tenantRef = ref → ClaimStep tenantRef p x.now (.tenants (.setState ref next options)) w
        { w with now := x.now, tenants := ⟨w.tenants.records.set ref r'⟩ }
        (claimEntry tenantRef ⟨p,.tenants (.setState ref next options),.ok a,w,
          { w with now := x.now, tenants := ⟨w.tenants.records.set ref r'⟩ }⟩)) :
    ClaimStep tenantRef p x.now (.tenants (.setState ref next options)) w
      (World.handle D (.tenants (.setState ref next options)) x w).2
      (claimEntry tenantRef ⟨p,.tenants (.setState ref next options),
        (World.handle D (.tenants (.setState ref next options)) x w).1,w,
        (World.handle D (.tenants (.setState ref next options)) x w).2⟩) := by
  rcases World.handle_tenants_cases D (.setState ref next options) x w with
    ⟨e,hw⟩ | ⟨ref',ho,-⟩ | ⟨a,ref',r',hwrite,hw⟩
  · rw [hw]
    have hentry : claimEntry tenantRef ⟨p,.tenants (.setState ref next options),.error e,w,
        { w with now := x.now }⟩ = [] := by
      cases next <;> rfl
    rw [hentry]
    exact .kept rfl
  · cases ho
  · cases hwrite with
    | setState _ _ hg ht =>
      rename_i r
      rw [hw]
      by_cases hr : tenantRef = ref
      · exact hstep a r r' hg ht hr
      · have hentry : claimEntry tenantRef ⟨p,.tenants (.setState ref next options),.ok a,w,
            { w with now := x.now, tenants := ⟨w.tenants.records.set ref r'⟩ }⟩ = [] := by
          cases next <;> simp [claimEntry,Ne.symm hr]
        rw [hentry]
        cases TenantRecord.transition_eq ht
        refine .kept (claimOf_set hg ?_ (fun h => absurd h hr) x.now)
        rfl

/-- What one call of a run does to the claim on any tenant. -/
theorem claimStep (h : RunCall args phase o) : ClaimStep tenantRef p x.now o w
    (World.handle D o x w).2
    (claimEntry tenantRef ⟨p,o,(World.handle D o x w).1,w,(World.handle D o x w).2⟩) := by
  have hframe := World.handle_frame D o x w
  cases h with
  | claim lockExpires expectedFrom =>
    refine claimStep_setState fun a r r' hg ht hr => ?_
    subst hr
    have hfree := not_isClaimed_of_transition rfl ht
    cases TenantRecord.transition_eq ht
    have hentry : claimEntry args.tenantRef ⟨p,_,.ok a,w,{ w with
        now := x.now
        tenants := ⟨w.tenants.records.set args.tenantRef (r.withState .onboarding
          (claimOptions args lockExpires expectedFrom) x.now)⟩ }⟩ =
        [(p,.grant lockExpires.getTime)] := by
      simp [claimEntry,claimOptions]
    rw [hentry]
    refine .granted _ (fun r₀ hg₀ => ?_) (claimSlot_eq_some.2 ⟨_,MemoryTenantStore.get_set_self _ _
      (MemoryTenantStore.get_eq_some.1 hg).2,rfl,rfl⟩)
    cases hg.symm.trans hg₀
    exact hfree
  | promote =>
    refine claimStep_setState fun a r r' hg ht hr => ?_
    subst hr
    rw [show claimEntry args.tenantRef _ = [(p,.drop)] by simp [claimEntry]]
    exact .dropped rfl
  | markFailed message =>
    refine claimStep_setState fun a r r' hg ht hr => ?_
    subst hr
    rw [show claimEntry args.tenantRef _ = [(p,.drop)] by simp [claimEntry]]
    exact .dropped rfl
  | read =>
    refine .kept ?_
    rcases World.handle_tenants_cases D (.get args.tenantRef) x w with
      ⟨e,hw⟩ | ⟨ref,-,hw⟩ | ⟨a,ref,r,hwrite,-⟩
    · rw [hw]
      rfl
    · rw [hw]
      rfl
    · cases hwrite
  | progress scenario passed =>
    refine .kept ?_
    rcases World.handle_tenants_cases D (.recordOnboardingProgress args.tenantRef scenario passed)
      x w with ⟨e,hw⟩ | ⟨ref,ho,-⟩ | ⟨a,ref,r,hwrite,hw⟩
    · rw [hw]
      rfl
    · cases ho
    · cases hwrite with
      | progress _ _ hg =>
        rw [hw]
        refine claimOf_set hg ?_ (fun _ => ?_) x.now
        · rfl
        · rfl
  | expiry d =>
    refine .kept ?_
    rcases World.handle_tenants_cases D (.setProductionExpiry args.tenantRef d) x w with
      ⟨e,hw⟩ | ⟨ref,ho,-⟩ | ⟨a,ref,r,hwrite,hw⟩
    · rw [hw]
      rfl
    · cases ho
    · cases hwrite with
      | expiry _ hg =>
        rw [hw]
        refine claimOf_set hg ?_ (fun _ => ?_) x.now
        · rfl
        · rfl
  | _ =>
    refine .kept ?_
    unfold claimOf
    rw [hframe.tenants nofun]

end step

/-- What holds of the claims while the final writes are made in time. -/
structure ClaimInv (args : Nat → RunOnboardingArgs) (c : ServerConfig RunOnboardingResult) :
    Prop where
  calls : ∀ p, (c.procs p).Calls (fun o => ∃ phase, RunCall (args p) phase o)
  fenced : ∀ tenantRef, Lease.Fenced (claimSlot tenantRef c.shared) c.shared.now.getTime
    (claimLog tenantRef c.history)
  fencing : Fencing c

section invariant
variable {D : Deps} {args : Nat → RunOnboardingArgs} {c : ServerConfig RunOnboardingResult} {p : Nat}
  {x : Choice} {o : ServerOp} {tenantRef : String}
  {k : Except Thrown (ServerOp.Ret o) → Program Server Thrown RunOnboardingResult}

/-- Whoever makes a final write in time holds the claim that is in force. -/
theorem claimant_of_inTime (h : ClaimInv args c) (hp : c.procs p = .call o k)
    (hok : WritesInTime c p x) (hw : tenantRef ∈ o.finalWrite) :
    Lease.latest (claimLog tenantRef c.history) = some p ∧
      ∃ r, c.shared.tenants.get tenantRef = some r ∧ r.isClaimed x.now := by
  obtain ⟨e,he,hlt⟩ := hok.2 o (by rw [hp]; rfl) tenantRef hw
  obtain ⟨hlatest,hslot⟩ := (h.fenced tenantRef).later hok.1 p e he hlt
  obtain ⟨r,hg,hs,hexp⟩ := claimSlot_eq_some.1 hslot
  exact ⟨hlatest,r,hg,isClaimed_iff.2 ⟨hs,_,hexp,hlt⟩⟩

theorem claimInv_step (h : ClaimInv args c) (hp : c.procs p = .call o k)
    (hok : WritesInTime c p x) : ClaimInv args (c.after (World.handle D) p o k x) := by
  have hcall : ∃ phase, RunCall (args p) phase o := by
    have := h.calls p
    rw [hp] at this
    exact this.1
  obtain ⟨phase,hcall⟩ := hcall
  have hstep (tenantRef : String) := @claimStep D (args p) phase o x c.shared p tenantRef hcall
  constructor
  · intro q
    by_cases hq : q = p
    · subst hq
      have := h.calls q
      rw [hp] at this
      simpa using this.2 _
    · rw [Config.after_procs_ne _ _ _ _ _ hq]
      exact h.calls q
  · intro tenantRef
    have hlater := (h.fenced tenantRef).later hok.1
    simp only [Config.after,claimLog,List.flatMap_cons,World.handle_now]
    generalize hentry : claimEntry tenantRef _ = entry
    have hs := hstep tenantRef
    rw [hentry] at hs
    cases hs with
    | kept hkept =>
      rw [claimSlot_congr hkept]
      exact hlater
    | granted e hfree hslot =>
      rw [hslot]
      refine hlater.grant fun e' he' => ?_
      obtain ⟨r,hg,hstate,hexp⟩ := claimSlot_eq_some.1 he'
      by_contra hlt
      have := isClaimed_iff.2 ⟨hstate,_,hexp,(by simpa using hlt : x.now.getTime < e')⟩
      rw [hfree r hg] at this
      cases this
    | dropped hw => exact hlater.drop (.inl (claimant_of_inTime h hp hok hw).1)
  · constructor
    · intro e older he tenantRef hw
      rcases List.suffix_cons_iff.1 he with heq | he
      · obtain ⟨rfl,rfl⟩ := List.cons.inj heq
        obtain ⟨hlatest,r,hg,hclaimed⟩ := claimant_of_inTime h hp hok hw
        refine ⟨hlatest,r,hg,?_⟩
        rwa [World.handle_now]
      · exact h.fencing.current e older he tenantRef hw
    · intro e older he tenantRef r hg hclaimed hne
      rcases List.suffix_cons_iff.1 he with heq | he
      · obtain ⟨rfl,rfl⟩ := List.cons.inj heq
        rw [World.handle_now] at hclaimed
        have hs := hstep tenantRef
        generalize claimEntry tenantRef _ = entry at hs
        cases hs with
        | kept hkept =>
          unfold claimOf at hkept
          rw [hg,Option.map_some,Option.map_eq_some_iff] at hkept
          obtain ⟨r',hg',hr'⟩ := hkept
          simp only [TenantRecord.claim,Prod.mk.injEq] at hr'
          exact ⟨r',hg',hr'.1.trans (isClaimed_iff.1 hclaimed).1,hr'.2⟩
        | granted e hfree hslot =>
          rw [hfree r hg] at hclaimed
          cases hclaimed
        | dropped hw => exact absurd (claimant_of_inTime h hp hok hw).1 hne
      · exact h.fencing.noOverwrite e older he tenantRef r hg hclaimed hne

end invariant

def startRuns (D : Deps) (w : World) (args : Nat → RunOnboardingArgs) :
    ServerConfig RunOnboardingResult where
  shared := w
  procs p := runOnboarding D (args p)

/-- Whatever the runs are, whatever the gateway answers and however they interleave. -/
theorem fencing_of_writesInTime (D : Deps) (w : World) (args : Nat → RunOnboardingArgs)
    (c : ServerConfig RunOnboardingResult)
    (hc : Reach (World.handle D) WritesInTime (startRuns D w args) c) : Fencing c := by
  refine (Reach.invariant (I := ClaimInv args) ?_
    (fun c p x o k h hp hok => claimInv_step h hp hok) hc).fencing
  constructor
  · exact fun p => runOnboarding_calls
  · exact fun tenantRef => Lease.Fenced.nil _ _
  · constructor
    · intro e older he
      simp [startRuns] at he
    · intro e older he
      simp [startRuns] at he

namespace Sample

def tick (ms : Nat) : Choice := { now := clock.addMs ms }

/-- Runs whose exchange with the gateway fails at once. -/
def failingRun (_ : Nat) : RunOnboardingArgs := onboardingArgs (.error (.error "no answer"))

end Sample

/-- The first run gives its claim up in time, and the second takes it. -/
theorem fencing_of_prompt_failure :
    ∃ c, (startRuns Sample.deps Sample.world Sample.failingRun).run (World.handle Sample.deps)
        WritesInTime ([0,0,0,0,0,0,1,1,1,1].map (fun p => (p,Sample.tick 1))) = some c ∧
      Fencing c := by
  refine ⟨_,rfl,?_⟩
  exact fencing_of_writesInTime Sample.deps Sample.world Sample.failingRun _
    (Reach.of_run ([0,0,0,0,0,0,1,1,1,1].map (fun p => (p,Sample.tick 1))) .init rfl)

/-- The first run wakes after its claim has expired and ends the second run's. -/
theorem fencing_fails_after_expiry :
    ¬ ∀ c, Reach (World.handle Sample.deps) ClockKept
        (startRuns Sample.deps Sample.world Sample.failingRun) c → Fencing c := by
  intro hall
  have hreach := hall _ (Reach.of_run
    ([0,0,0,0,0].map (fun p => (p,Sample.tick 0)) ++
      [1,1,1,1,0].map (fun p => (p,Sample.tick 180000))) .init rfl)
  have h := (hreach.current _ _ (List.suffix_refl _) Sample.tenantRef rfl).1
  revert h
  decide

end Zatca
