import Zatca.Server.AdminRoutes
import Zatca.Server.Fencing
set_option autoImplicit false

/-! Requests to unlock a tenant and runs of onboarding at the same time. A request decides on the
record that it read, and its write does not ask for the record again. -/

namespace Zatca
open Interaction

inductive ClaimRequest where
  | unlock (authHeader : Option String) (tenantRef : String) (body : Option UnlockBody)
  | onboard (args : RunOnboardingArgs)

namespace ClaimRequest

def program (D : Deps) : ClaimRequest → Program Server Thrown (Reply ⊕ RunOnboardingResult)
  | .unlock authHeader tenantRef body =>
      (unlockRoute D passThroughUnitOfWork authHeader tenantRef body).bind fun reply =>
        .ret (.inl reply)
  | .onboard args => (runOnboarding D args).bind fun result => .ret (.inr result)

/-- The tenant that the request is to unlock. -/
def unlocks : ClaimRequest → Option String
  | .unlock _ tenantRef _ => some tenantRef
  | .onboard _ => none

/-- `force` is absent or false. -/
def Unforced : ClaimRequest → Prop
  | .unlock _ _ (some body) => body.force ≠ some true
  | _ => True

end ClaimRequest

/-- What an answered transition makes of the tenant's claim. -/
def transitionOf (tenantRef : String) :
    ServerEvent → Option (TenantState × Option String × Option Date)
  | ⟨_,.tenants (.setState ref next options),.ok _,_,_⟩ =>
      if ref = tenantRef then some (next,options.claimedBy,options.claimExpiresAt) else none
  | _ => none

/-- An onboarding claim that has expired, or that never had an end. -/
def IsStale (claim : TenantState × Option String × Option Date) (now : Date) : Prop :=
  claim.1 = .onboarding ∧ ∀ e ∈ claim.2.2, e.getTime ≤ now.getTime

theorem lockNotHeld_iff {r : TenantRecord} {now : Date} :
    r.lockNotHeld now = true ↔ IsStale r.claim now := by
  unfold TenantRecord.lockNotHeld IsStale TenantRecord.claim
  cases r.claimExpiresAt with
  | none => simp
  | some e => simp

/-! ### The claim as the history tells it -/

section claim
variable {D : Deps} {o : ServerOp} {x : Choice} {w : World} {tenantRef : String}

def ServerOp.keepsTenants : ServerOp → Bool
  | .tenants (.create _) | .tenants (.softDelete _) => false
  | _ => true

/-- A claim is what the newest answered transition made of it. -/
theorem claimOf_handle (p : Nat) (ho : o.keepsTenants = true) :
    claimOf tenantRef (World.handle D o x w).2 =
      (transitionOf tenantRef ⟨p,o,(World.handle D o x w).1,w,(World.handle D o x w).2⟩).or
        (claimOf tenantRef w) := by
  have hframe := World.handle_frame D o x w
  cases o with
  | tenants o =>
    rcases World.handle_tenants_cases D o x w with ⟨e,hw⟩ | ⟨ref,rfl,hw⟩ | ⟨a,ref,r',hwrite,hw⟩
    · rw [hw]
      cases o with
      | _ => rfl
    · rw [hw]
      rfl
    · rw [hw]
      cases hwrite with
      | create input _ => cases ho
      | softDelete _ _ => cases ho
      | patch patch hg =>
        refine claimOf_set hg ?_ (fun _ => ?_) x.now
        · rfl
        · rfl
      | progress scenario passed hg =>
        refine claimOf_set hg ?_ (fun _ => ?_) x.now
        · rfl
        · rfl
      | expiry expiresAt hg =>
        refine claimOf_set hg ?_ (fun _ => ?_) x.now
        · rfl
        · rfl
      | setState next options hg ht =>
        cases TenantRecord.transition_eq ht
        by_cases href : ref = tenantRef
        · subst href
          have hd := (MemoryTenantStore.get_eq_some.1 hg).2
          simp only [transitionOf,if_true,Option.some_or,claimOf]
          rw [MemoryTenantStore.get_set_self]
          · rfl
          · exact hd
        · simp only [transitionOf,if_neg href,Option.none_or]
          refine claimOf_set hg ?_ (fun h => absurd h.symm href) x.now
          rfl
  | _ =>
    unfold claimOf
    rw [hframe.tenants nofun]
    rfl

end claim

/-! ### The requests -/

/-- Where a request stands. An unlocking holds the record that it read, and its latest reading of the
clock since. -/
inductive ClaimPhase where
  | onboarding (args : RunOnboardingArgs)
  | start (tenantRef : String)
  | read (tenantRef : String) (record : TenantRecord) (clock : Option Date)
  | done (tenantRef : String)

namespace ClaimPhase

def ofRequest : ClaimRequest → ClaimPhase
  | .unlock _ tenantRef _ => .start tenantRef
  | .onboard args => .onboarding args

def unlocks : ClaimPhase → Option String
  | .onboarding _ => none
  | .start tenantRef | .read tenantRef _ _ | .done tenantRef => some tenantRef

end ClaimPhase

def claimTypestate : Typestate Server Thrown ClaimPhase where
  allows
    | .onboarding args, o => ∃ phase, RunCall args phase o
    | .start tenantRef, o => o = .tenants (.get tenantRef)
    | .read tenantRef r clock, o => o = .clock ∨ (r.state = .onboarding ∧
        (∀ e ∈ r.claimExpiresAt, ∃ now ∈ clock, e.getTime ≤ now.getTime) ∧
        ∃ message, o = .tenants (.setState tenantRef .failed { lastError := some message }))
    | .done _, o => ∃ input, o = .audit input
  next
    | .onboarding args, _, _ => .onboarding args
    | .start tenantRef, .tenants (.get _), .ok (some r) => .read tenantRef r none
    | .read tenantRef r _, .clock, .ok now => .read tenantRef r (some now)
    | .start tenantRef, _, _ | .read tenantRef _ _, _, _ | .done tenantRef, _, _ => .done tenantRef

section conformance
variable {D : Deps}

theorem unlockBatch_conforms {actor : AuditActor} {tenantRef : String} {r : TenantRecord}
    {clock : Option Date} (hstate : r.state = .onboarding)
    (hexpired : ∀ e ∈ r.claimExpiresAt, ∃ now ∈ clock, e.getTime ≤ now.getTime)
    (k : TenantRecord → Reply) :
    claimTypestate.Conforms (fun _ _ => True) ((unlockBatch actor tenantRef false).bind
        fun updated => (.ret (.inl (k updated)) : Program Server Thrown
          (Reply ⊕ RunOnboardingResult)))
      (.read tenantRef r clock) := by
  simp only [unlockBatch,Program.bind_eq,Program.perform,Program.call_bind]
  refine Typestate.conforms_call.2 ⟨.inr ⟨hstate,hexpired,_,rfl⟩,fun a => ?_⟩
  cases a with
  | error e => trivial
  | ok updated =>
    refine Typestate.conforms_call.2 ⟨⟨_,rfl⟩,fun a => ?_⟩
    cases a with
    | error e => trivial
    | ok u => trivial

theorem request_conforms {request : ClaimRequest} (h : request.Unforced) :
    claimTypestate.Conforms (fun _ _ => True) (request.program D) (.ofRequest request) := by
  cases request with
  | onboard args =>
    refine Program.wp_mono _ (fun _ _ _ => trivial) (Typestate.wp_of_calls
      (Program.calls_bind (runOnboarding_calls.mono fun o ho => ⟨ho,fun _ => rfl⟩) fun _ => trivial))
  | unlock authHeader tenantRef body =>
    simp only [ClaimRequest.program,unlockRoute,Program.bind_eq,Program.ofExcept_bind,
      UnitOfWork.perform,passThroughUnitOfWork,Program.embed_refl]
    cases adminFor D authHeader with
    | error e => trivial
    | ok actor =>
      cases body with
      | none => trivial
      | some body =>
        refine Typestate.conforms_call.2 ⟨rfl,fun a => ?_⟩
        cases a with
        | error e => trivial
        | ok record =>
          cases record with
          | none => trivial
          | some r =>
            have hforce : body.force.getD false = false := by
              cases hf : body.force with
              | none => rfl
              | some force =>
                cases force with
                | false => rfl
                | true => exact absurd hf h
            simp only [Program.ofExcept_bind,hforce]
            split
            · trivial
            · rename_i hstate
              have hstate : r.state = .onboarding := not_not.1 hstate
              simp only [Program.bind_assoc,Program.pure_eq,Program.ret_bind]
              cases hclaim : r.claimExpiresAt with
              | none => exact unlockBatch_conforms hstate (by simp [hclaim]) _
              | some e =>
                simp only [checkClaim,UnitOfWork.perform,Program.embed_refl,Program.bind_eq,
                  Program.bind_assoc]
                refine Typestate.conforms_call.2 ⟨.inl rfl,fun a => ?_⟩
                cases a with
                | error e => trivial
                | ok now =>
                  simp only [Program.ofExcept_bind,Bool.not_false,Bool.and_true,decide_eq_true_eq]
                  split
                  · trivial
                  · rename_i hlt
                    refine unlockBatch_conforms hstate (fun e' he => ?_) _
                    cases hclaim.symm.trans he
                    exact ⟨now,rfl,by omega⟩

end conformance

/-! ### All requests together -/

abbrev ClaimConfig := ServerConfig (Reply ⊕ RunOnboardingResult)

/-- A request to unlock the tenant has it marked failed. -/
def Unlocks (requests : Nat → ClaimRequest) (tenantRef : String) (e : ServerEvent) : Prop :=
  (requests e.pid).unlocks = some tenantRef ∧
    ∃ claim, transitionOf tenantRef e = some claim ∧ claim.1 = .failed

/-- At this very step the tenant was in an onboarding claim that nobody held. -/
def EndsStaleClaim (tenantRef : String) (e : ServerEvent) : Prop :=
  ∃ r, e.before.tenants.get tenantRef = some r ∧ r.lockNotHeld e.after.now = true

/-- What another request made of the claim since this one read it. -/
def claimSince (p : Nat) (tenantRef : String) (history : List ServerEvent) :
    Option (TenantState × Option String × Option Date) :=
  (Event.since (S := Server) p (.tenants (.get tenantRef)) history).findSome? (transitionOf tenantRef)

/-- Since the request read the record nobody has moved the tenant, or whoever did last has claimed it
and the claim has run out. -/
def Unmoved (tenantRef : String) (e : ServerEvent) (older : List ServerEvent) : Prop :=
  ∀ claim ∈ claimSince e.pid tenantRef older, IsStale claim e.after.now

structure UnlockInv (requests : Nat → ClaimRequest) (c : ClaimConfig) (t : Nat → ClaimPhase) :
    Prop where
  same : ∀ p, (t p).unlocks = (requests p).unlocks
  clock : ∀ p tenantRef r clock, t p = .read tenantRef r clock →
    ∀ now ∈ clock, now.getTime ≤ c.shared.now.getTime
  claim : ∀ p tenantRef r clock, t p = .read tenantRef r clock →
    claimOf tenantRef c.shared = (claimSince p tenantRef c.history).or (some r.claim)
  judged : ∀ e older tenantRef, e :: older <:+ c.history → Unlocks requests tenantRef e →
    (EndsStaleClaim tenantRef e ↔ Unmoved tenantRef e older)

section invariant
variable {D : Deps} {requests : Nat → ClaimRequest} {c : ClaimConfig} {t : Nat → ClaimPhase}
  {p : Nat} {x : Choice} {o : ServerOp}
  {k : Except Thrown (ServerOp.Ret o) → Program Server Thrown (Reply ⊕ RunOnboardingResult)}

theorem unlocks_next (s : ClaimPhase) (o : ServerOp) (a : Except Thrown (ServerOp.Ret o)) :
    (claimTypestate.next s o a).unlocks = s.unlocks := by
  unfold claimTypestate
  dsimp only
  split
  · rfl
  · rfl
  · rfl
  · rfl
  · rfl
  · rfl

/-- How an unlocking comes to hold its record, and its reading of the clock. -/
theorem next_eq_read {s : ClaimPhase} {o : ServerOp} {a : Except Thrown (ServerOp.Ret o)}
    {tenantRef : String} {r : TenantRecord} {clock : Option Date} (ha : claimTypestate.allows s o)
    (h : claimTypestate.next s o a = .read tenantRef r clock) :
    (clock = none ∧ (⟨o,a⟩ : (o : ServerOp) × Except Thrown (ServerOp.Ret o)) =
        ⟨.tenants (.get tenantRef),.ok (some r)⟩) ∨
      ∃ clock' now, s = .read tenantRef r clock' ∧ clock = some now ∧
        (⟨o,a⟩ : (o : ServerOp) × Except Thrown (ServerOp.Ret o)) = ⟨.clock,.ok now⟩ := by
  cases s with
  | onboarding args => cases h
  | done ref =>
    obtain ⟨input,rfl⟩ := ha
    cases h
  | start ref =>
    cases ha
    cases a with
    | error e => cases h
    | ok record =>
      cases record with
      | none => cases h
      | some r' =>
        cases h
        exact .inl ⟨rfl,rfl⟩
  | read ref r' clock' =>
    rcases ha with rfl | ⟨-,-,message,rfl⟩
    · cases a with
      | error e => cases h
      | ok now =>
        cases h
        exact .inr ⟨_,now,rfl,rfl,rfl⟩
    · cases a with
      | error e => cases h
      | ok r₁ => cases h

theorem keepsTenants_of_allows {s : ClaimPhase} (ha : claimTypestate.allows s o) :
    o.keepsTenants = true := by
  cases s with
  | onboarding args =>
    obtain ⟨phase,ha⟩ := ha
    cases ha with
    | _ => rfl
  | start ref =>
    cases ha
    rfl
  | read ref r clock =>
    rcases ha with rfl | ⟨-,-,message,rfl⟩
    · rfl
    · rfl
  | done ref =>
    obtain ⟨input,rfl⟩ := ha
    rfl

theorem claimSince_self {e : ServerEvent} {q : Nat} {tenantRef : String} (hp : e.pid = q)
    (ho : e.op = .tenants (.get tenantRef)) (history : List ServerEvent) :
    claimSince q tenantRef (e :: history) = none := by
  rw [claimSince,Event.since_self hp ho]
  rfl

theorem claimSince_cons {e : ServerEvent} {q : Nat} {tenantRef : String}
    (h : ¬ (e.pid = q ∧ e.op = .tenants (.get tenantRef))) (history : List ServerEvent) :
    claimSince q tenantRef (e :: history) =
      (transitionOf tenantRef e).or (claimSince q tenantRef history) := by
  rw [claimSince,Event.since_cons h,List.findSome?_cons]
  cases transitionOf tenantRef e with
  | none => rfl
  | some claim => rfl

theorem endsStaleClaim_iff {e : ServerEvent} {tenantRef : String} : EndsStaleClaim tenantRef e ↔
    ∃ claim, claimOf tenantRef e.before = some claim ∧ IsStale claim e.after.now := by
  unfold EndsStaleClaim claimOf
  cases e.before.tenants.get tenantRef with
  | none => simp
  | some r => simp [lockNotHeld_iff]

/-- The write of an unlocking is judged by what has been made of the claim since the read. -/
theorem endsStaleClaim_iff_unmoved {tenantRef : String} {r : TenantRecord} {clock : Option Date}
    {w' : World} {a : Except Thrown (ServerOp.Ret o)} (h : UnlockInv requests c t)
    (hread : t p = .read tenantRef r clock) (hstate : r.state = .onboarding)
    (hexpired : ∀ e ∈ r.claimExpiresAt, ∃ now ∈ clock, e.getTime ≤ now.getTime)
    (hlater : c.shared.now.getTime ≤ w'.now.getTime) :
    EndsStaleClaim tenantRef ⟨p,o,a,c.shared,w'⟩ ↔
      Unmoved tenantRef ⟨p,o,a,c.shared,w'⟩ c.history := by
  rw [endsStaleClaim_iff,h.claim p tenantRef r clock hread,Unmoved]
  cases claimSince p tenantRef c.history with
  | some claim => simp
  | none =>
    have hstale : IsStale r.claim w'.now := by
      refine ⟨hstate,fun e he => ?_⟩
      obtain ⟨now,hnow,hle⟩ := hexpired e he
      have := h.clock p tenantRef r clock hread now hnow
      omega
    simpa using hstale

theorem unlockInv_step (h : UnlockInv requests c t) (hp : c.procs p = .call o k)
    (ha : claimTypestate.allows (t p) o) (hok : ClockKept c p x) :
    UnlockInv requests (c.after (World.handle D) p o k x)
      (Function.update t p (claimTypestate.next (t p) o (World.handle D o x c.shared).1)) := by
  have hkeeps := keepsTenants_of_allows ha
  have hclaim (tenantRef : String) := @claimOf_handle D o x c.shared tenantRef p hkeeps
  constructor
  · intro q
    by_cases hq : q = p
    · subst hq
      rw [Function.update_self,unlocks_next]
      exact h.same q
    · rw [Function.update_of_ne hq]
      exact h.same q
  · intro q tenantRef r clock hread now hnow
    simp only [Config.after,World.handle_now]
    by_cases hq : q = p
    · subst hq
      rw [Function.update_self] at hread
      rcases next_eq_read ha hread with ⟨rfl,-⟩ | ⟨clock',now',-,rfl,hcall⟩
      · cases hnow
      · cases hnow
        have ho : o = .clock := congrArg Sigma.fst hcall
        subst ho
        have ha' := eq_of_heq (Sigma.mk.inj hcall).2
        rw [World.handle_clock] at ha'
        cases ha'
        exact le_refl _
    · rw [Function.update_of_ne hq] at hread
      exact (h.clock q tenantRef r clock hread now hnow).trans hok
  · intro q tenantRef r clock hread
    simp only [Config.after]
    by_cases hq : q = p
    · subst hq
      rw [Function.update_self] at hread
      rcases next_eq_read ha hread with ⟨rfl,hcall⟩ | ⟨clock',now',hbefore,rfl,hcall⟩
      · have ho : o = .tenants (.get tenantRef) := congrArg Sigma.fst hcall
        subst ho
        have hr := World.get_of_answer (eq_of_heq (Sigma.mk.inj hcall).2)
        rw [hclaim tenantRef,claimSince_self]
        · simp [claimOf,hr,transitionOf]
        · rfl
        · rfl
      · have ho : o = .clock := congrArg Sigma.fst hcall
        subst ho
        rw [hclaim tenantRef,claimSince_cons,h.claim q tenantRef r clock' hbefore]
        · rfl
        · intro hget
          cases hget.2
    · rw [Function.update_of_ne hq] at hread
      rw [hclaim tenantRef,claimSince_cons,Option.or_assoc,h.claim q tenantRef r clock hread]
      exact fun hpid => hq hpid.1.symm
  · intro e older tenantRef he hunlocks
    rcases List.suffix_cons_iff.1 he with heq | he
    · obtain ⟨rfl,rfl⟩ := List.cons.inj heq
      obtain ⟨hunlock,claim,hmoves,hfailed⟩ := hunlocks
      have hsame := (h.same p).trans hunlock
      cases hphase : t p with
      | onboarding args =>
        rw [hphase] at hsame
        cases hsame
      | start ref =>
        rw [hphase] at ha
        cases ha
        cases hmoves
      | done ref =>
        rw [hphase] at ha
        obtain ⟨input,rfl⟩ := ha
        cases hmoves
      | read ref r clock =>
        rw [hphase] at ha hsame
        cases hsame
        rcases ha with rfl | ⟨hstate,hexpired,message,rfl⟩
        · cases hmoves
        · refine endsStaleClaim_iff_unmoved h hphase hstate hexpired ?_
          rw [World.handle_now]
          exact hok
    · exact h.judged e older tenantRef he hunlocks

end invariant

def startClaimRequests (D : Deps) (w : World) (requests : Nat → ClaimRequest) : ClaimConfig where
  shared := w
  procs p := (requests p).program D

/-- However requests to unlock without force and runs of onboarding interleave, an unlocking ends a
claim that nobody held exactly when nobody has moved the tenant since it was read, or the claim taken
since has run out. -/
theorem endsStaleClaim_iff_of_reach (D : Deps) (w : World) (requests : Nat → ClaimRequest)
    (hunforced : ∀ p, (requests p).Unforced) (c : ClaimConfig)
    (hc : Reach (World.handle D) ClockKept (startClaimRequests D w requests) c)
    (e : ServerEvent) (older : List ServerEvent) (tenantRef : String)
    (he : e :: older <:+ c.history) (hunlocks : Unlocks requests tenantRef e) :
    EndsStaleClaim tenantRef e ↔ Unmoved tenantRef e older := by
  have hsame : ∀ p, (ClaimPhase.ofRequest (requests p)).unlocks = (requests p).unlocks := by
    intro p
    cases requests p with
    | _ => rfl
  have hnoRead {p : Nat} {ref : String} {r : TenantRecord} {clock : Option Date}
      (hread : ClaimPhase.ofRequest (requests p) = .read ref r clock) : False := by
    revert hread
    cases requests p with
    | _ => exact nofun
  obtain ⟨t,hinv,-⟩ := @Typestate.reach_invariant _ _ _ _ _ _ claimTypestate (fun _ _ => True) _ _ _
    _ (UnlockInv requests) (fun p => .ofRequest (requests p))
    { same := hsame
      clock := fun p ref r clock hread => (hnoRead hread).elim
      claim := fun p ref r clock hread => (hnoRead hread).elim
      judged := fun e older ref he => by simp [startClaimRequests] at he }
    (fun p => request_conforms (hunforced p))
    (fun c t p x o k h _ hp ha hok => unlockInv_step h hp ha hok) hc
  exact hinv.judged e older tenantRef he hunlocks

namespace Sample

/-- The claim on the tenant has run out, and whoever held it is gone. -/
def wedged : World :=
  { world with tenants := ⟨JsMap.empty.set tenantRef
      { tenant with state := .onboarding, claimedBy := some "server-0"
                    claimExpiresAt := some clock }⟩ }

/-- One request to unlock the tenant, and runs of onboarding. -/
def unlockAndRuns : Nat → ClaimRequest
  | 0 => .unlock (some "Bearer admin") tenantRef (some {})
  | p + 1 => .onboard (failingRun p)

end Sample

theorem unlockAndRuns_unforced (p : Nat) : (Sample.unlockAndRuns p).Unforced := by
  cases p with
  | zero => exact nofun
  | succ p => trivial

/-- Left alone, the request releases the claim. -/
theorem endsStaleClaim_of_wedged : ∃ c e older,
    (startClaimRequests Sample.deps Sample.wedged Sample.unlockAndRuns).run
      (World.handle Sample.deps) ClockKept ([0,0,0].map fun p => (p,Sample.tick 1)) = some c ∧
    c.history = e :: older ∧ EndsStaleClaim Sample.tenantRef e := by
  refine ⟨_,_,_,rfl,rfl,?_⟩
  refine (endsStaleClaim_iff_of_reach Sample.deps Sample.wedged Sample.unlockAndRuns
    unlockAndRuns_unforced _ (Reach.of_run ([0,0,0].map fun p => (p,Sample.tick 1)) .init rfl)
    _ _ Sample.tenantRef (List.suffix_refl _) ⟨rfl,_,rfl,rfl⟩).2 ?_
  intro claim hclaim
  cases hclaim

/-- Between the check and the write another run takes the claim, and loses it. -/
theorem endsStaleClaim_fails_after_claim :
    ¬ ∀ (D : Deps) (w : World) (requests : Nat → ClaimRequest), (∀ p, (requests p).Unforced) →
      ∀ c, Reach (World.handle D) ClockKept (startClaimRequests D w requests) c →
      ∀ e older tenantRef, e :: older <:+ c.history → Unlocks requests tenantRef e →
        EndsStaleClaim tenantRef e := by
  intro hall
  obtain ⟨r,hr,hstale⟩ := hall Sample.deps Sample.wedged Sample.unlockAndRuns unlockAndRuns_unforced
    _ (Reach.of_run ([0,0,1,1,1,1,0].map fun p => (p,Sample.tick 1)) .init rfl) _ _ Sample.tenantRef
    (List.suffix_refl _) ⟨rfl,_,rfl,rfl⟩
  revert r
  decide

end Zatca
