import Zatca.Library.Interpret
import Zatca.Server.AdminRoutes
import Zatca.Server.Semaphore
set_option autoImplicit false

/-! The handlers of `/onboard` and `/credentials/rotate` with everything they do to their process:
the slot they hold, the outcomes they count and the answers they send. -/

namespace Zatca
open Interaction

inductive OnboardingOutcome where
  | locked
  | succeeded
  | failed
  deriving DecidableEq, Repr

/-- What a handler does to its process. -/
inductive ProcessOp where
  /-- `req.raw.setTimeout(ms)` -/
  | setTimeout (ms : Nat)
  /-- `deps.onboardingSemaphore.tryAcquire()`: the number of a release function. -/
  | tryAcquire
  /-- A call of that function. -/
  | release (fn : Nat)
  /-- `deps.metrics.onboardingTotal.inc({ outcome })` -/
  | inc (outcome : OnboardingOutcome)
  /-- `reply.code(…).header(…).send(…)` -/
  | send (reply : Reply)
  deriving DecidableEq

abbrev ProcessOp.Ret : ProcessOp → Type
  | .setTimeout _ => Unit
  | .tryAcquire => Option Nat
  | .release _ => Unit
  | .inc _ => Unit
  | .send _ => Unit

abbrev Process : Signature := ⟨ProcessOp,ProcessOp.Ret⟩

/-- The calls that a handler awaits, and what it does to its process. -/
abbrev Hosted (T : Signature) : Signature := T.sum Process

namespace OnboardHandler

variable {T : Signature}

def process (o : ProcessOp) : Program (Hosted T) Thrown o.Ret :=
  Program.perform (S := Hosted T) (.inr o)

def setTimeout (ms : Nat) : Program (Hosted T) Thrown Unit := process (.setTimeout ms)
def tryAcquire : Program (Hosted T) Thrown (Option Nat) := process .tryAcquire
def release (fn : Nat) : Program (Hosted T) Thrown Unit := process (.release fn)
def send (reply : Reply) : Program (Hosted T) Thrown Unit := process (.send reply)

def awaits {α : Type} (p : Program T Thrown α) : Program (Hosted T) Thrown α :=
  p.embed (T.left Process)

/-- What differs from one server and one request to the next. -/
structure Site where
  /-- `typeof req.raw.setTimeout === "function"` -/
  hasSetTimeout : Bool
  /-- `deps.metrics !== undefined` -/
  hasMetrics : Bool

variable (D : Deps) (U : UnitOfWork T) (site : Site)

def onboardingTimeoutMs : Nat := max 30000 (D.onboardingTimeoutMs + 10000)

def extendTimeout : Program (Hosted T) Thrown Unit :=
  if site.hasSetTimeout then setTimeout (onboardingTimeoutMs D) else .ret ()

def inc (outcome : OnboardingOutcome) : Program (Hosted T) Thrown Unit :=
  if site.hasMetrics then process (.inc outcome) else .ret ()

def acquireOnboardingSlot : Program (Hosted T) Thrown (Option Nat) := do
  let release ← tryAcquire
  match release with
  | some fn => return some fn
  | none => do
      inc site .locked
      send (onboardingThrottled D)
      return none

/-- The inner block: the run, its count, the cached answer and the answer. -/
def work (req : OnboardRequest) (auditAction : AuditAction) (actor : AuditActor)
    (body : OnboardBody) (cacheKey : Option String) : Program (Hosted T) Thrown Reply := do
  let tenant ← awaits (U.perform (.tenants (.get req.tenantRef)))
  match tenant with
  | none => Program.throw (unknownTenant req.tenantRef)
  | some _ => do
      let result ← awaits (runOnboardingWith D U (runArgs D req auditAction actor body))
      inc site .succeeded
      let responseBody := onboardedBody (auditAction = .tenantOnboarded) result
      awaits ((commitIdempotency D cacheKey
        { statusCode := 200, headers := [jsonContentType]
          body := D.runtime.stringify responseBody }).embed U.pool)
      send { statusCode := 200, body := responseBody }
      return { statusCode := 200, body := responseBody }

/-- A replay or a conflict has been answered; otherwise the inner block runs under the key. -/
def underKey (req : OnboardRequest) (auditAction : AuditAction) (actor : AuditActor)
    (body : OnboardBody) : IdempotencySlot → Program (Hosted T) Thrown Reply
  | .answered reply => do
      send reply
      return reply
  | .proceed cacheKey => Program.tryCatch (work D U site req auditAction actor body cacheKey)
      (fun err => do
        inc site .failed
        awaits ((releaseIdempotency cacheKey).embed U.pool)
        Program.throw err)

/-- The outer block, which runs while the slot is held. -/
def inSlot (req : OnboardRequest) (auditAction : AuditAction) (route : String) :
    Program (Hosted T) Thrown Reply := do
  let actor ← Program.ofExcept (adminFor D req.authHeader)
  let body ← Program.ofExcept (parseBody req.body)
  let idemKey ← Program.ofExcept (readIdempotencyKey req.idempotencyKey)
  let slot ← awaits ((beginIdempotency D idemKey req.tenantRef route).embed U.pool)
  underKey D U site req auditAction actor body slot

def handler (auditAction : AuditAction) (route : String) (req : OnboardRequest) :
    Program (Hosted T) Thrown Reply := do
  extendTimeout D site
  let releaseSlot ← acquireOnboardingSlot D site
  match releaseSlot with
  | none => return onboardingThrottled D
  | some fn => Program.tryFinally (inSlot D U site req auditAction route) (release fn)

/-- `POST /v1/tenants/:ref/onboard` -/
def onboard : OnboardRequest → Program (Hosted T) Thrown Reply :=
  handler D U site .tenantOnboarded "/v1/tenants/:ref/onboard"

/-- `POST /v1/tenants/:ref/credentials/rotate` -/
def rotate : OnboardRequest → Program (Hosted T) Thrown Reply :=
  handler D U site .tenantCredentialsRotated "/v1/tenants/:ref/credentials/rotate"

/-! ### The handlers as the routes -/

/-- A process that counts its slots itself and on which nothing else fails. -/
def onServer : (o : (Hosted T).Op) → Program T Thrown ((Hosted T).Ret o)
  | .inl o => .perform o
  | .inr .tryAcquire => (U.perform .acquireSlot).bind fun acquired =>
      .ret (if acquired then some 0 else none)
  | .inr (.release _) => U.perform .releaseSlot
  | .inr (.setTimeout _) => .ret ()
  | .inr (.inc _) => .ret ()
  | .inr (.send _) => .ret ()

@[simp] theorem interpret_awaits {α : Type} (p : Program T Thrown α) :
    (awaits p).interpret (onServer U) = p := Program.interpret_left (fun _ => rfl) p

theorem interpret_process (o : ProcessOp) :
    (process o).interpret (onServer U) = onServer U (.inr o) :=
  Program.interpret_perform (S := Hosted T) (I := onServer U) (.inr o)

@[simp] theorem interpret_setTimeout (ms : Nat) :
    (setTimeout ms).interpret (onServer U) = .ret () := interpret_process U (.setTimeout ms)

@[simp] theorem interpret_send (reply : Reply) :
    (send reply).interpret (onServer U) = .ret () := interpret_process U (.send reply)

@[simp] theorem interpret_tryAcquire : tryAcquire.interpret (onServer U) =
    (U.perform .acquireSlot).bind fun acquired => .ret (if acquired then some 0 else none) :=
  interpret_process U .tryAcquire

@[simp] theorem interpret_release (fn : Nat) :
    (release fn).interpret (onServer U) = U.perform .releaseSlot := interpret_process U (.release fn)

@[simp] theorem interpret_inc (outcome : OnboardingOutcome) :
    (inc site outcome).interpret (onServer U) = .ret () := by
  unfold inc
  split
  · exact interpret_process U (.inc outcome)
  · rfl

theorem interpret_work (req : OnboardRequest) (auditAction : AuditAction) (actor : AuditActor)
    (body : OnboardBody) (cacheKey : Option String) :
    (work D U site req auditAction actor body cacheKey).interpret (onServer U) =
      onboardWork D U req auditAction actor body cacheKey := by
  simp only [work,onboardWork,Program.bind_eq,Program.interpret_bind,interpret_awaits]
  congr 1
  funext tenant
  cases tenant with
  | none => rfl
  | some tenant =>
    simp only [Program.interpret_bind,interpret_awaits,interpret_inc,interpret_send,
      Program.ret_bind,Program.pure_eq,Program.interpret_ret]

theorem interpret_underKey (req : OnboardRequest) (auditAction : AuditAction) (actor : AuditActor)
    (body : OnboardBody) (slot : IdempotencySlot) :
    (underKey D U site req auditAction actor body slot).interpret (onServer U) =
      onboardUnderSlot D U req auditAction actor body slot := by
  cases slot with
  | answered reply => simp [underKey,onboardUnderSlot]
  | proceed cacheKey =>
    simp only [underKey,onboardUnderSlot,Program.bind_eq,Program.interpret_tryCatch,interpret_work,
      Program.interpret_bind,interpret_inc,interpret_awaits,Program.interpret_throw,Program.ret_bind]

/-- On such a process the handler is the route. -/
theorem interpret_handler (auditAction : AuditAction) (route : String) (req : OnboardRequest) :
    (handler D U site auditAction route req).interpret (onServer U) =
      onboardWith D U auditAction route req := by
  have hextend : (extendTimeout D site).interpret (onServer U) = .ret () := by
    unfold extendTimeout
    split
    · exact interpret_setTimeout U _
    · rfl
  have hblock : (inSlot D U site req auditAction route).interpret (onServer U) =
      onboardInPlace D U req auditAction route := by
    simp only [inSlot,onboardInPlace,Program.bind_eq,Program.interpret_bind,
      Program.interpret_ofExcept,interpret_awaits,interpret_underKey]
  simp only [handler,acquireOnboardingSlot,onboardWith,Program.bind_eq,Program.interpret_bind,
    hextend,interpret_tryAcquire,Program.ret_bind,Program.bind_assoc]
  apply congrArg (Program.bind _)
  funext acquired
  cases acquired with
  | false => simp
  | true => simp [hblock,Program.tryFinally]

/-! ### The slot over a run -/

/-- Where a handler stands with its slot. -/
inductive SlotState where
  | fresh
  | holding (fn : Nat)
  | done
  deriving DecidableEq, Repr

/-- Neither of the two calls on the semaphore. -/
def Elsewhere : (Hosted T).Op → Prop
  | .inr .tryAcquire => False
  | .inr (.release _) => False
  | _ => True

/-- A slot is asked for once, and released once by who was granted it. -/
def slotUse : Typestate (Hosted T) Thrown SlotState where
  allows
    | .fresh, .inr .tryAcquire => True
    | .holding fn, .inr (.release fn') => fn' = fn
    | _, o => Elsewhere o
  next
    | .fresh, .inr .tryAcquire, .ok (some fn) => .holding fn
    | .fresh, .inr .tryAcquire, _ => .done
    | .holding _, .inr (.release _), _ => .done
    | r, _, _ => r

def Settled (r : SlotState) : Prop := ∀ fn, r ≠ .holding fn

/-- Everything but the two calls on the semaphore is elsewhere. -/
theorem elsewhere_cases (o : (Hosted T).Op) :
    Elsewhere o ∨ o = .inr .tryAcquire ∨ ∃ fn, o = .inr (.release fn) := by
  cases o with
  | inl o => exact .inl trivial
  | inr o =>
    cases o with
    | tryAcquire => exact .inr (.inl rfl)
    | release fn => exact .inr (.inr ⟨fn,rfl⟩)
    | setTimeout ms => exact .inl trivial
    | inc outcome => exact .inl trivial
    | send reply => exact .inl trivial

theorem slotUse_elsewhere {o : (Hosted T).Op} (h : Elsewhere o) (r : SlotState) :
    slotUse.allows r o ∧ ∀ a, slotUse.next r o a = r := by
  cases o with
  | inl o => cases r <;> exact ⟨trivial,fun _ => rfl⟩
  | inr o =>
    cases o with
    | tryAcquire => exact absurd h id
    | release fn => exact absurd h id
    | setTimeout ms => cases r <;> exact ⟨trivial,fun _ => rfl⟩
    | inc outcome => cases r <;> exact ⟨trivial,fun _ => rfl⟩
    | send reply => cases r <;> exact ⟨trivial,fun _ => rfl⟩

theorem fresh_of_allows {r : SlotState} (h : slotUse.allows r (.inr .tryAcquire : (Hosted T).Op)) :
    r = .fresh := by
  cases r with
  | fresh => rfl
  | holding fn => exact absurd h id
  | done => exact absurd h id

theorem holding_of_allows {r : SlotState} {fn : Nat}
    (h : slotUse.allows r (.inr (.release fn) : (Hosted T).Op)) : r = .holding fn := by
  cases r with
  | fresh => exact absurd h id
  | holding fn' =>
    have hfn : fn = fn' := h
    rw [hfn]
  | done => exact absurd h id

theorem elsewhere_awaits {α : Type} (p : Program T Thrown α) : (awaits p).Calls Elsewhere :=
  Program.calls_embed (fun _ => trivial) p

theorem elsewhere_process {o : ProcessOp} (h : Elsewhere (T := T) (.inr o)) :
    (process o : Program (Hosted T) Thrown o.Ret).Calls Elsewhere :=
  Program.calls_perform (S := Hosted T) h

theorem elsewhere_send (reply : Reply) :
    (send reply : Program (Hosted T) Thrown Unit).Calls Elsewhere :=
  elsewhere_process (o := .send reply) trivial

theorem elsewhere_inc (outcome : OnboardingOutcome) :
    (inc site outcome : Program (Hosted T) Thrown Unit).Calls Elsewhere := by
  unfold inc
  split
  · exact elsewhere_process (o := .inc outcome) trivial
  · trivial

theorem elsewhere_extendTimeout :
    (extendTimeout D site : Program (Hosted T) Thrown Unit).Calls Elsewhere := by
  unfold extendTimeout
  split
  · exact elsewhere_process (o := .setTimeout _) trivial
  · trivial

theorem elsewhere_work (req : OnboardRequest) (auditAction : AuditAction) (actor : AuditActor)
    (body : OnboardBody) (cacheKey : Option String) :
    (work D U site req auditAction actor body cacheKey).Calls Elsewhere := by
  refine Program.calls_bind (elsewhere_awaits _) fun tenant => ?_
  cases tenant with
  | none => trivial
  | some tenant =>
    refine Program.calls_bind (elsewhere_awaits _) fun result => ?_
    refine Program.calls_bind (elsewhere_inc site _) fun _ => ?_
    refine Program.calls_bind (elsewhere_awaits _) fun _ => ?_
    exact Program.calls_bind (elsewhere_send _) fun _ => trivial

theorem elsewhere_underKey (req : OnboardRequest) (auditAction : AuditAction) (actor : AuditActor)
    (body : OnboardBody) (slot : IdempotencySlot) :
    (underKey D U site req auditAction actor body slot).Calls Elsewhere := by
  cases slot with
  | answered reply => exact Program.calls_bind (elsewhere_send _) fun _ => trivial
  | proceed cacheKey =>
    refine Program.calls_tryCatch (elsewhere_work D U site req auditAction actor body cacheKey) ?_
    intro err
    refine Program.calls_bind (elsewhere_inc site _) fun _ => ?_
    exact Program.calls_bind (elsewhere_awaits _) fun _ => trivial

/-- Nothing that a handler does in its slot touches the semaphore. -/
theorem elsewhere_inSlot (req : OnboardRequest) (auditAction : AuditAction) (route : String) :
    (inSlot D U site req auditAction route).Calls Elsewhere := by
  refine Program.calls_bind (Program.calls_ofExcept _ _) fun actor => ?_
  refine Program.calls_bind (Program.calls_ofExcept _ _) fun body => ?_
  refine Program.calls_bind (Program.calls_ofExcept _ _) fun idemKey => ?_
  refine Program.calls_bind (elsewhere_awaits _) fun slot => ?_
  exact elsewhere_underKey D U site req auditAction actor body slot

/-- What does not touch the semaphore leaves the slot as it is. -/
theorem wp_elsewhere {α : Type} {p : Program (Hosted T) Thrown α} (hp : p.Calls Elsewhere)
    (r : SlotState) : p.wp slotUse.semantics (fun _ r' => r' = r) r :=
  Typestate.wp_of_calls (hp.mono fun _ ho => slotUse_elsewhere ho r)

theorem wp_elsewhere_bind {α β : Type} {p : Program (Hosted T) Thrown α}
    {f : α → Program (Hosted T) Thrown β} {Q : Except Thrown β → SlotState → Prop} {r : SlotState}
    (hp : p.Calls Elsewhere) (hf : ∀ a, (f a).wp slotUse.semantics Q r)
    (herror : ∀ e, Q (.error e) r) : (p.bind f).wp slotUse.semantics Q r := by
  rw [Program.wp_bind]
  apply Program.wp_mono p _ (wp_elsewhere hp r)
  intro answer r' hr
  subst hr
  cases answer with
  | ok a => exact hf a
  | error e => exact herror e

theorem wp_acquireOnboardingSlot {Q : Except Thrown (Option Nat) → SlotState → Prop}
    (hgrant : ∀ fn, Q (.ok (some fn)) (.holding fn)) (hfull : Q (.ok none) .done)
    (herror : ∀ e, Q (.error e) .done) :
    (acquireOnboardingSlot D site : Program (Hosted T) Thrown _).wp slotUse.semantics Q .fresh := by
  refine ⟨trivial,?_⟩
  intro answer r hr
  cases answer with
  | error e =>
    have hdone : r = .done := hr
    exact hdone ▸ herror e
  | ok granted =>
    cases granted with
    | some fn =>
      have hholding : r = .holding fn := hr
      exact hholding ▸ hgrant fn
    | none =>
      have hdone : r = .done := hr
      subst hdone
      apply wp_elsewhere_bind (elsewhere_inc site _) _ herror
      intro _
      exact wp_elsewhere_bind (elsewhere_send _) (fun _ => hfull) herror

theorem wp_release {fn : Nat} {Q : Except Thrown Unit → SlotState → Prop}
    (h : ∀ answer, Q answer .done) :
    (release fn : Program (Hosted T) Thrown Unit).wp slotUse.semantics Q (.holding fn) := by
  refine ⟨rfl,?_⟩
  intro answer r hr
  have hdone : r = .done := hr
  rw [Program.wp_ofExcept,hdone]
  exact h answer

/-- Whatever it is answered, a handler ends without a slot. -/
theorem handler_conforms (auditAction : AuditAction) (route : String) (req : OnboardRequest) :
    slotUse.Conforms (fun _ r => Settled r) (handler D U site auditAction route req) .fresh := by
  apply wp_elsewhere_bind (elsewhere_extendTimeout D site) _ (fun _ => nofun)
  intro _
  rw [Program.bind_eq,Program.wp_bind]
  apply wp_acquireOnboardingSlot
  · intro fn
    apply Program.wp_tryFinally
    apply Program.wp_mono _ _ (wp_elsewhere (elsewhere_inSlot D U site req auditAction route) _)
    intro answer r hr
    subst hr
    exact wp_release fun _ => nofun
  · exact nofun
  · exact fun _ => nofun


/-- A call of a run, with its answer. -/
abbrev Made (T : Signature) := (o : (Hosted T).Op) × Except Thrown ((Hosted T).Ret o)

/-- What the call is to the semaphore. -/
def slotEvent : Made T → Option Pool.Event
  | ⟨.inr .tryAcquire,.ok ticket⟩ => some (.take ticket)
  | ⟨.inr (.release fn),_⟩ => some (.giveBack fn)
  | _ => none

def slotEvents (calls : List (Made T)) : List Pool.Event := calls.filterMap slotEvent

/-- What a run still has to do with the semaphore. -/
def Remaining : SlotState → List Pool.Event → Prop
  | .fresh, es => es = [] ∨ es = [.take none] ∨ ∃ fn, es = [.take (some fn),.giveBack fn]
  | .holding fn, es => es = [.giveBack fn]
  | .done, es => es = []

theorem slotEvent_elsewhere {c : Made T} (h : Elsewhere c.1) : slotEvent c = none := by
  obtain ⟨o,a⟩ := c
  cases o with
  | inl o => rfl
  | inr o =>
    cases o with
    | tryAcquire => exact absurd h id
    | release fn => exact absurd h id
    | setTimeout ms => rfl
    | inc outcome => rfl
    | send reply => rfl

theorem remaining_step {r : SlotState} {c : Made T} {es : List Pool.Event}
    (hc : slotUse.allows r c.1) (h : Remaining (slotUse.next r c.1 c.2) es) :
    Remaining r ((slotEvent c).toList ++ es) := by
  obtain ⟨o,a⟩ := c
  rcases elsewhere_cases o with helse | rfl | ⟨fn,rfl⟩
  · rw [(slotUse_elsewhere helse r).2] at h
    rw [slotEvent_elsewhere helse]
    exact h
  · have hr := fresh_of_allows hc
    subst hr
    cases a with
    | error e =>
      have hnone : es = [] := h
      exact .inl hnone
    | ok ticket =>
      cases ticket with
      | none =>
        have hnone : es = [] := h
        exact .inr (.inl (by simp [slotEvent,hnone]))
      | some fn =>
        have hback : es = [.giveBack fn] := h
        exact .inr (.inr ⟨fn,by simp [slotEvent,hback]⟩)
  · have hr := holding_of_allows hc
    subst hr
    have hnone : es = [] := h
    simp [slotEvent,Remaining,hnone]

theorem remaining_of_follows {r r' : SlotState} {calls : List (Made T)}
    (h : slotUse.Follows r calls r') (hr' : Settled r') : Remaining r (slotEvents calls) := by
  induction calls generalizing r with
  | nil =>
    have hr : r' = r := h
    subst hr
    cases r' with
    | fresh => exact .inl rfl
    | holding fn => exact absurd rfl (hr' fn)
    | done => rfl
  | cons c calls ih =>
    have hstep := remaining_step h.1 (ih h.2)
    rw [slotEvents,List.filterMap_cons]
    cases hc : slotEvent c with
    | none => simpa [hc,slotEvents] using hstep
    | some e => simpa [hc,slotEvents] using hstep

/-- A slot that is granted is released once, after that, and nothing else is. -/
def ReleasedOnce (es : List Pool.Event) : Prop :=
  (∀ fn, .take (some fn) ∈ es → es = [.take (some fn),.giveBack fn]) ∧
    ∀ fn, .giveBack fn ∈ es → .take (some fn) ∈ es

theorem releasedOnce_of_remaining {es : List Pool.Event} (h : Remaining .fresh es) :
    ReleasedOnce es := by
  rcases h with rfl | rfl | ⟨fn,rfl⟩
  · simp [ReleasedOnce]
  · simp [ReleasedOnce]
  · simp [ReleasedOnce]

/-- Whatever the calls of the request are answered. -/
theorem handler_releases {σ χ : Type} (h : Handler (Hosted T) Thrown σ χ) (script : Nat → χ) (s : σ)
    (auditAction : AuditAction) (route : String) (req : OnboardRequest) :
    ReleasedOnce (slotEvents ((handler D U site auditAction route req).trace h script s)) := by
  obtain ⟨r,hfollows,hsettled⟩ :=
    (handler_conforms D U site auditAction route req).follows h script s
  exact releasedOnce_of_remaining (remaining_of_follows hfollows hsettled)


/-! ### Many requests on one semaphore -/

section system
variable {σ χ : Type}

/-- A process with its semaphore, in which `others` answers everything else. -/
def hosted (others : Handler (Hosted T) Thrown σ χ) : Handler (Hosted T) Thrown (σ × Semaphore) χ
  | .inr .tryAcquire, _, (s,slots) => (.ok slots.tryAcquire.1,(s,slots.tryAcquire.2))
  | .inr (.release fn), _, (s,slots) => (.ok (),(s,slots.release fn))
  | o, x, (s,slots) => ((others o x s).1,((others o x s).2,slots))

structure Arrival where
  site : Site
  rotates : Bool
  request : OnboardRequest

def Arrival.program (a : Arrival) : Program (Hosted T) Thrown Reply :=
  if a.rotates then rotate D U a.site a.request else onboard D U a.site a.request

theorem Arrival.conforms (a : Arrival) :
    slotUse.Conforms (fun _ r => Settled r) (a.program D U) .fresh := by
  unfold Arrival.program
  split
  · exact handler_conforms D U a.site _ _ a.request
  · exact handler_conforms D U a.site _ _ a.request

def startArrivals (arrivals : Nat → Arrival) (s : σ) (slots : Semaphore) :
    Config (Hosted T) Thrown Reply (σ × Semaphore) where
  shared := (s,slots)
  procs p := (arrivals p).program D U

/-- Every ticket that the semaphore counts is in the hands of some process. -/
def InHands (capacity : Nat) (slots : Semaphore) (t : Nat → SlotState) : Prop :=
  ∃ pool : Pool, slots.Represents pool ∧ pool.capacity = capacity ∧
    ∀ fn ∈ pool.held, ∃ q, t q = .holding fn

variable {others : Handler (Hosted T) Thrown σ χ}

theorem hosted_elsewhere {o : (Hosted T).Op} (h : Elsewhere o) (x : χ) (s : σ × Semaphore) :
    (hosted others o x s).2.2 = s.2 := by
  cases o with
  | inl o => rfl
  | inr o =>
    cases o with
    | tryAcquire => exact absurd h id
    | release fn => exact absurd h id
    | setTimeout ms => rfl
    | inc outcome => rfl
    | send reply => rfl

theorem InHands.tryAcquire {capacity : Nat} {slots : Semaphore} {t : Nat → SlotState} {p : Nat}
    (h : InHands capacity slots t) (hp : t p = .fresh) :
    InHands capacity slots.tryAcquire.2 (Function.update t p
      ((slotUse (T := T)).next .fresh (.inr .tryAcquire) (.ok slots.tryAcquire.1))) := by
  obtain ⟨pool,hrep,hcapacity,hhands⟩ := h
  obtain ⟨hticket,hnext⟩ := hrep.tryAcquire
  have hkeep : ∀ fn ∈ pool.held, ∀ r, ∃ q, Function.update t p r q = .holding fn := by
    intro fn hfn r
    obtain ⟨q,hq⟩ := hhands fn hfn
    have hqp : q ≠ p := by
      intro heq
      rw [heq,hp] at hq
      cases hq
    exact ⟨q,by rw [Function.update_of_ne hqp,hq]⟩
  refine ⟨pool.take.2,hnext,by rw [Pool.capacity_take,hcapacity],?_⟩
  intro fn hfn
  by_cases hfree : pool.held.card < pool.capacity
  · obtain ⟨hnew,hheld,-⟩ := Pool.take_of_lt hfree
    rw [hticket,hnew]
    rw [hheld,Finset.mem_insert] at hfn
    rcases hfn with heq | hold
    · exact ⟨p,by rw [Function.update_self,heq]; rfl⟩
    · exact hkeep fn hold _
  · rw [Pool.take_of_full hfree] at hfn
    exact hkeep fn hfn _

theorem InHands.release {capacity : Nat} {slots : Semaphore} {t : Nat → SlotState} {p fn : Nat}
    (h : InHands capacity slots t) (hp : t p = .holding fn) (r : SlotState) :
    InHands capacity (slots.release fn) (Function.update t p r) := by
  obtain ⟨pool,hrep,hcapacity,hhands⟩ := h
  refine ⟨pool.giveBack fn,hrep.release fn,hcapacity,?_⟩
  intro n hn
  obtain ⟨hne,hheld⟩ := Finset.mem_erase.1 hn
  obtain ⟨q,hq⟩ := hhands n hheld
  have hqp : q ≠ p := by
    intro heq
    rw [heq,hp,SlotState.holding.injEq] at hq
    exact hne hq.symm
  exact ⟨q,by rw [Function.update_of_ne hqp,hq]⟩

theorem inHands_step {capacity : Nat} {c : Config (Hosted T) Thrown Reply (σ × Semaphore)}
    {t : Nat → SlotState} {p : Nat} {x : χ} {o : (Hosted T).Op}
    {k : Except Thrown ((Hosted T).Ret o) → Program (Hosted T) Thrown Reply}
    (h : InHands capacity c.shared.2 t) (hallow : slotUse.allows (t p) o) :
    InHands capacity (c.after (hosted others) p o k x).shared.2
      (Function.update t p (slotUse.next (t p) o (hosted others o x c.shared).1)) := by
  rcases elsewhere_cases o with helse | rfl | ⟨fn,rfl⟩
  · have hshared : (c.after (hosted others) p o k x).shared.2 = c.shared.2 :=
      hosted_elsewhere helse x c.shared
    rw [hshared,(slotUse_elsewhere helse (t p)).2,Function.update_eq_self]
    exact h
  · have hp := fresh_of_allows hallow
    rw [hp]
    exact h.tryAcquire hp
  · exact h.release (holding_of_allows hallow) _

/-- The request has made a call. -/
def Begun (c : Config (Hosted T) Thrown Reply (σ × Semaphore)) (q : Nat) : Prop :=
  q ∈ c.history.map fun e => e.pid

theorem begun_step {c : Config (Hosted T) Thrown Reply (σ × Semaphore)} {t : Nat → SlotState}
    (h : ∀ q, t q ≠ .fresh → Begun c q) (p : Nat) (o : (Hosted T).Op)
    (k : Except Thrown ((Hosted T).Ret o) → Program (Hosted T) Thrown Reply) (x : χ) (r : SlotState) :
    ∀ q, Function.update t p r q ≠ .fresh → Begun (c.after (hosted others) p o k x) q := by
  intro q hq
  rw [Begun,Config.after,List.map_cons,List.mem_cons]
  by_cases hqp : q = p
  · exact .inl hqp
  · rw [Function.update_of_ne hqp] at hq
    exact .inr (h q hq)

/-- In every state that the requests can reach, however they interleave and whatever fails, the
count is the number of requests that hold a slot, and each of these has begun and has not ended. -/
theorem slots_held_by_running {arrivals : Nat → Arrival} {s : σ} {capacity : JsNumber}
    {slots : Semaphore} (h₀ : createSemaphore capacity = .ok slots)
    {c : Config (Hosted T) Thrown Reply (σ × Semaphore)}
    (hc : Reach (hosted others) (fun _ _ _ => True) (startArrivals D U arrivals s slots) c) :
    ∃ holders : Finset Nat, c.shared.2.inFlight = holders.card ∧
      holders.card ≤ slots.capacity ∧ c.shared.2.capacity = slots.capacity ∧
      ∀ q ∈ holders, Begun c q ∧ (c.procs q).live := by
  obtain ⟨t,⟨⟨pool,hrep,hcapacity,hhands⟩,hbegun⟩,hconforms⟩ := Typestate.reach_invariant
    (fun c t => InHands slots.capacity c.shared.2 t ∧ ∀ q, t q ≠ .fresh → Begun c q)
    ⟨⟨Pool.empty slots.capacity,Semaphore.represents_create h₀,rfl,by simp [Pool.empty]⟩,
      fun _ hfresh => absurd rfl hfresh⟩
    (fun q => (arrivals q).conforms D U)
    (fun c t p x o k h _ _ hallow _ => ⟨inHands_step h.1 hallow,begun_step h.2 p o k x _⟩) hc
  choose! holder hholder using hhands
  have hinj : Set.InjOn holder pool.held := by
    intro fn hfn fn' hfn' heq
    have hsame := (hholder fn hfn).symm.trans (heq ▸ hholder fn' hfn')
    exact SlotState.holding.inj hsame
  have hcard := Finset.card_image_of_injOn hinj
  have hfits := pool.fits
  refine ⟨pool.held.image holder,?_,by omega,by rw [hrep.capacity,hcapacity],?_⟩
  · rw [Semaphore.inFlight,hrep.count,hcard]
  · intro q hq
    obtain ⟨fn,hfn,rfl⟩ := Finset.mem_image.1 hq
    have hholds := hholder fn hfn
    have hrun := hconforms (holder fn)
    rw [hholds] at hrun
    refine ⟨hbegun _ (by simp [hholds]),?_⟩
    cases hprog : c.procs (holder fn) with
    | call o k => rfl
    | ret reply =>
      rw [hprog] at hrun
      exact absurd rfl (hrun fn)
    | throw e =>
      rw [hprog] at hrun
      exact absurd rfl (hrun fn)

/-- No request leaks its slot: when all that have begun are over, the semaphore is free. -/
theorem slots_free_when_idle {arrivals : Nat → Arrival} {s : σ} {capacity : JsNumber}
    {slots : Semaphore} (h₀ : createSemaphore capacity = .ok slots)
    {c : Config (Hosted T) Thrown Reply (σ × Semaphore)}
    (hc : Reach (hosted others) (fun _ _ _ => True) (startArrivals D U arrivals s slots) c)
    (hidle : ∀ q, Begun c q → (c.procs q).live = false) :
    c.shared.2.inFlight = 0 ∧ c.shared.2.tryAcquire.1.isSome := by
  obtain ⟨holders,hcount,-,hcapacity,hrunning⟩ := slots_held_by_running D U h₀ hc
  have hnone : holders = ∅ := by
    apply Finset.eq_empty_of_forall_notMem
    intro q hq
    obtain ⟨hbegun,hlive⟩ := hrunning q hq
    rw [hidle q hbegun] at hlive
    cases hlive
  have hfree : c.shared.2.inFlight = 0 := by
    rw [hcount,hnone]
    rfl
  have hpositive := slots.positive
  have hroom : ¬ c.shared.2.count ≥ c.shared.2.capacity := by
    rw [Semaphore.inFlight] at hfree
    omega
  exact ⟨hfree,by simp [Semaphore.tryAcquire,hroom]⟩

end system

end OnboardHandler

open OnboardHandler in
/-- The semaphore under any calls, and the two handlers under any answers. -/
theorem onboardingSlots_accounted {T : Signature} {σ χ : Type} (D : Deps) (U : UnitOfWork T)
    (site : Site) (req : OnboardRequest) (h : Handler (Hosted T) Thrown σ χ) (script : Nat → χ)
    (t : σ) :
    (∀ (capacity : JsNumber) (s₀ : Semaphore), createSemaphore capacity = .ok s₀ →
      ∀ (es : List Pool.Event) (s : Semaphore), Pool.Runs Semaphore.dispenser s₀ es s →
        s.inFlight = (Pool.outstanding es).length ∧ 0 ≤ s.inFlight ∧ s.inFlight ≤ s₀.capacity ∧
          (s.tryAcquire.1.isSome ↔ (Pool.outstanding es).length < s₀.capacity)) ∧
      ReleasedOnce (slotEvents ((OnboardHandler.onboard D U site req).trace h script t)) ∧
      ReleasedOnce (slotEvents ((OnboardHandler.rotate D U site req).trace h script t)) := by
  refine ⟨?_,?_,?_⟩
  · intro capacity s₀ h₀ es s hruns
    exact Semaphore.accounts h₀ hruns
  · exact handler_releases D U site h script t _ _ req
  · exact handler_releases D U site h script t _ _ req

namespace Sample
open OnboardHandler

/-- The stores in memory; nothing else that a handler does to its process can fail. -/
def process : Handler (Hosted Server) Thrown World Choice
  | .inl o, x, w => World.handle deps o x w
  | .inr .tryAcquire, _, w => (.ok none,w)
  | .inr (.release _), _, w => (.ok (),w)
  | .inr (.setTimeout _), _, w => (.ok (),w)
  | .inr (.inc _), _, w => (.ok (),w)
  | .inr (.send _), _, w => (.ok (),w)

def onePlace : Semaphore := ⟨1,by decide,0,[]⟩

theorem isWritten_one : IsWritten (1 : ℕ) := isWritten_natCast (by norm_num)

theorem createSemaphore_one :
    createSemaphore (.finite (1 : ℕ) (1 : ℕ) isWritten_one) = .ok onePlace := rfl

/-- The place is taken, refused, given back twice and taken again. -/
def onePlaceEvents : List Pool.Event :=
  [.take (some 0),.take none,.giveBack 0,.giveBack 0,.take (some 1)]

def onePlaceAgain : Semaphore := ⟨1,by decide,1,[true,false]⟩

theorem onePlace_run : Pool.Runs Semaphore.dispenser onePlace onePlaceEvents onePlaceAgain := by
  have hfirst : Pool.Runs Semaphore.dispenser onePlace [.take (some 0)] ⟨1,by decide,1,[false]⟩ :=
    .take .start
  have hfull : Pool.Runs Semaphore.dispenser onePlace [.take (some 0),.take none]
      ⟨1,by decide,1,[false]⟩ := .take hfirst
  have hback : Pool.Runs Semaphore.dispenser onePlace [.take (some 0),.take none,.giveBack 0]
      ⟨1,by decide,0,[true]⟩ := .giveBack hfull (by simp)
  have hagain : Pool.Runs Semaphore.dispenser onePlace
      [.take (some 0),.take none,.giveBack 0,.giveBack 0] ⟨1,by decide,0,[true]⟩ :=
    .giveBack hback (by simp)
  exact .take hagain

def unknownTenantRequest : OnboardRequest where
  authHeader := some "Bearer ops"
  tenantRef := "nobody"
  body := some ⟨"123456","till",none⟩
  host _ := ⟨"id",clock⟩

def allNow (_ : Nat) : Choice := { now := clock }

def unknownTenantCalls : List (Made Server) :=
  (OnboardHandler.onboard deps passThroughUnitOfWork ⟨true,true⟩ unknownTenantRequest).trace
    (hosted process) allNow (world,onePlace)

end Sample

theorem onboardingSlots_accounted_sample :
    Sample.onePlaceAgain.inFlight = 1 ∧ Sample.onePlaceAgain.tryAcquire.1.isSome = false ∧
      OnboardHandler.slotEvents Sample.unknownTenantCalls = [.take (some 0),.giveBack 0] := by
  obtain ⟨hslots,honboard,-⟩ := onboardingSlots_accounted Sample.deps passThroughUnitOfWork
    ⟨true,true⟩ Sample.unknownTenantRequest (OnboardHandler.hosted Sample.process) Sample.allNow
    (Sample.world,Sample.onePlace)
  obtain ⟨hcount,-,-,hgrant⟩ := hslots _ _ Sample.createSemaphore_one _ _ Sample.onePlace_run
  have hone : (Pool.outstanding Sample.onePlaceEvents).length = 1 := by decide
  rw [hone] at hcount hgrant
  refine ⟨hcount,?_,?_⟩
  · rw [← Bool.not_eq_true,hgrant]
    decide
  · exact honboard.1 0 (by decide +kernel)

end Zatca
