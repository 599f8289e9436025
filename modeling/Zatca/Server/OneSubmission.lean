import Zatca.Server.InvoiceRoutes
set_option autoImplicit false

/-! Requests to issue under one idempotency key. A request that the gateway has answered with a
success keeps the others away for as long as its slot lasts, unless it gives the slot up. -/

namespace Zatca
open Interaction

/-- Where a request to issue stands with its slot. -/
inductive SlotPhase where
  | start
  | working
  | done
  deriving DecidableEq, Repr

/-- The slot key of a request that presents one. -/
def requestKey (D : Deps) (req : IssueRequest) : Option String :=
  match readIdempotencyKey req.idempotencyKey with
  | .ok (some presentedKey) =>
      some (buildIdempotencyCacheKey D.runtime (some req.tenantRef) invoicesRoute presentedKey)
  | _ => none

namespace ServerOp

/-- The calls a request makes to learn whom it serves. -/
def identifies : ServerOp → Bool
  | .apiKeys _ | .tenants _ | .vault _ => true
  | _ => false

/-- The calls that issue a document, send it and write about it. -/
def works : ServerOp → Bool
  | .storage _ | .http _ | .audit _ => true
  | _ => false

/-- A new document, or a message to the gateway. -/
def issuesOrSubmits : ServerOp → Bool
  | .storage (.incrementCounter _) | .storage (.recordInvoice _ _) | .http (.fetch _ _) => true
  | _ => false

end ServerOp

def slotTypestate : Typestate Server Thrown (Option String × SlotPhase) where
  allows
    | (key,.start), o => ServerOp.identifies o ∨ (ServerOp.works o ∧ key = none) ∨
        ∃ k ttl, key = some k ∧ o = .idempotency (.begin k ttl)
    | (key,.working), o => ServerOp.works o ∨ (∃ k response ttl, key = some k ∧
        o = .idempotency (.commit k response ttl)) ∨ ∃ k, key = some k ∧ o = .idempotency (.release k)
    | (_,.done), _ => False
  next
    | (key,.start), .idempotency (.begin _ _), .ok .claimed => (key,.working)
    | (key,.start), .idempotency (.begin _ _), _ => (key,.done)
    | (key,.working), .idempotency (.release _), _ => (key,.done)
    | r, _, _ => r

section conformance
variable {D : Deps} {α : Type} {key : Option String}

/-- The calls that leave the phase as it is. -/
def staysWorking (key : Option String) (o : ServerOp) : Prop :=
  o.works ∨ ∃ k response ttl, key = some k ∧ o = .idempotency (.commit k response ttl)

theorem stays_working {o : ServerOp} (h : staysWorking key o) :
    slotTypestate.allows (key,.working) o ∧
      ∀ r, slotTypestate.next (key,.working) o r = (key,.working) := by
  rcases h with h | ⟨k,response,ttl,rfl,rfl⟩
  · refine ⟨.inl h,fun r => ?_⟩
    cases o with
    | idempotency o => cases h
    | _ => rfl
  · exact ⟨.inr (.inl ⟨k,response,ttl,rfl,rfl⟩),fun r => rfl⟩

theorem issueWork_calls (auth : AuthenticatedTenant) (host : HostValues) (input : RawInput)
    (submit : Bool) (key : Option String) :
    (issueWork D auth host input submit key).Calls (staysWorking key) := by
  rw [issueWork_eq]
  refine Program.calls_bind (Program.calls_ofExcept _ _) fun _ => ?_
  refine Program.calls_bind ?_ fun issued => Program.calls_bind ?_ fun outcome => ?_
  · cases input with
    | invoice input => exact Program.calls_embed (fun _ => .inl rfl) _
    | unhandled value => trivial
    | nullish => trivial
  · match issued, submit with
    | .phase1 _, _ => trivial
    | .phase2 _, false => trivial
    | .phase2 _, true =>
      refine Program.calls_bind (Program.calls_embed (fun _ => .inl rfl) _) fun outcome => ?_
      exact Program.calls_bind (Program.calls_perform (.inl rfl)) fun _ => trivial
  · refine Program.calls_bind (Program.calls_perform (.inl rfl)) fun _ => ?_
    cases key with
    | none => trivial
    | some key =>
      exact Program.calls_bind (Program.calls_perform (.inr ⟨key,_,_,rfl,rfl⟩)) fun _ => trivial

theorem authTenant_identifies (authHeader : Option String) (tenantRef : String) :
    (authTenant authHeader tenantRef).Calls (fun o => ServerOp.identifies o) := by
  refine (authTenant_reads authHeader tenantRef).mono fun o ho => ?_
  cases ho with
  | _ => rfl

theorem stays_start {o : ServerOp} (h : o.identifies ∨ (o.works ∧ key = none)) :
    slotTypestate.allows (key,.start) o ∧
      ∀ r, slotTypestate.next (key,.start) o r = (key,.start) := by
  refine ⟨by rcases h with h | h; exact .inl h; exact .inr (.inl h),fun r => ?_⟩
  cases o with
  | idempotency o => rcases h with h | ⟨h,-⟩ <;> cases h
  | _ => rfl

/-- The work of a keyless request. -/
theorem keyless_conforms (auth : AuthenticatedTenant) (host : HostValues) (body : IssueBody) :
    slotTypestate.Conforms (fun _ _ => True) (issueUnderSlot D auth host body (.proceed none))
      (none,.start) := by
  have hstays : ∀ o, staysWorking none o → slotTypestate.allows (none,.start) o ∧
      ∀ r, slotTypestate.next (none,.start) o r = (none,.start) := by
    rintro o (h | ⟨k,_,_,hk,-⟩)
    · exact stays_start (.inr ⟨h,rfl⟩)
    · cases hk
  refine (Program.wp_tryCatch _ _ _).2 (Program.wp_mono _ ?_ (Typestate.wp_of_calls
    (Program.Calls.mono (issueWork_calls _ _ _ _ _) hstays)))
  rintro (e | reply) r rfl
  · trivial
  · trivial

/-- The work of a request that has claimed its key. -/
theorem claimed_conforms (auth : AuthenticatedTenant) (host : HostValues) (body : IssueBody)
    (key : String) :
    slotTypestate.Conforms (fun _ _ => True) (issueUnderSlot D auth host body (.proceed (some key)))
      (some key,.working) := by
  refine (Program.wp_tryCatch _ _ _).2 (Program.wp_mono _ ?_ (Typestate.wp_of_calls
    (Program.Calls.mono (issueWork_calls _ _ _ _ _) fun o => stays_working)))
  rintro (e | reply) r rfl
  · refine Typestate.conforms_call.2 ⟨.inr (.inr ⟨key,rfl,rfl⟩),fun a => ?_⟩
    cases a with
    | ok u => trivial
    | error e => trivial
  · trivial

/-- A request with a key claims it before it does anything, settles that key only, and does nothing
after it has released it. -/
theorem issueRoute_conforms (req : IssueRequest) :
    slotTypestate.Conforms (fun _ _ => True) (issueRoute D req) (requestKey D req,.start) := by
  rw [issueRoute_eq,Typestate.Conforms,Program.wp_bind]
  refine Program.wp_mono _ ?_ (Typestate.wp_of_calls
    (Program.Calls.mono (authTenant_identifies _ _) fun o ho => stays_start (.inl ho)))
  rintro (e | auth) r rfl
  · trivial
  · rw [Program.andThen_ok,Program.ofExcept_bind]
    cases parseBody req.body with
    | error e => trivial
    | ok body =>
      unfold requestKey
      simp only [Program.ofExcept_bind]
      cases readIdempotencyKey req.idempotencyKey with
      | error e => trivial
      | ok idemKey =>
        cases idemKey with
        | none => exact keyless_conforms auth req.host body
        | some presentedKey =>
          refine Typestate.conforms_call.2 ⟨.inr (.inr ⟨_,_,rfl,rfl⟩),fun a => ?_⟩
          cases a with
          | error e => trivial
          | ok result =>
            cases result with
            | claimed => exact claimed_conforms auth req.host body _
            | inFlight => trivial
            | replay response => trivial

end conformance

/-! What the history tells of the slot of a key. -/

/-- What a call adds to the log of the slot. -/
def eventEntry (key : String) : ServerEvent → Lease.Log
  | ⟨p,.idempotency o,r,_,after⟩ => slotEntry key p after.now o r
  | _ => []

def requestLog (key : String) (history : List ServerEvent) : Lease.Log :=
  history.flatMap (eventEntry key)

/-- The gateway answers with a success. -/
def isReceipt : ServerEvent → Bool
  | ⟨_,.http (.fetch _ _),.ok response,_,_⟩ => isSuccess response.status
  | _ => false

def received (history : List ServerEvent) (p : Nat) : Bool :=
  history.any (fun e => e.pid = p && isReceipt e)

/-- A request presents the key to the store. -/
def arrives (key : String) : ServerEvent → Bool
  | ⟨_,.idempotency (.begin k _),_,_,_⟩ => k = key
  | _ => false

def claims (key : String) : ServerEvent → Bool
  | ⟨_,.idempotency (.begin k _),.ok .claimed,_,_⟩ => k = key
  | _ => false

def ownEvents (q : Nat) (history : List ServerEvent) : List ServerEvent :=
  history.filter (fun e => e.pid = q)

theorem drop_mem_eventEntry {key : String} {e : ServerEvent} {q : Nat}
    (h : (q,.drop) ∈ eventEntry key e) : q = e.pid ∧ e.op = .idempotency (.release key) := by
  obtain ⟨p,o,r,b,a⟩ := e
  cases o with
  | idempotency o =>
    simp only [eventEntry,slotEntry] at h
    cases o with
    | «begin» k ttlMs =>
      cases r with
      | error e => simp [slotAct] at h
      | ok result => cases result <;> simp [slotAct] at h
    | commit k response ttlMs => cases r <;> simp [slotAct] at h
    | release k =>
      cases r with
      | error e => simp [slotAct] at h
      | ok u =>
        simp only [slotAct] at h
        split at h
        · rename_i hk
          rw [List.mem_singleton,Prod.mk.injEq] at h
          exact ⟨h.1,by rw [hk]⟩
        · cases h
  | _ => cases h

/-- A commit or a release is made on a slot of one's own, or on none; and whoever has had a success
from the gateway does not release. -/
def MaySettle (c : ServerConfig Reply) (p : Nat) (now : Date) : ServerOp → Prop
  | .idempotency (.commit key _ _) => Lease.MayAct (c.shared.idempotency.slot key) now.getTime
      (requestLog key c.history) p
  | .idempotency (.release key) => Lease.MayAct (c.shared.idempotency.slot key) now.getTime
      (requestLog key c.history) p ∧ received c.history p = false
  | _ => True

instance (c : ServerConfig Reply) (p : Nat) (now : Date) : DecidablePred (MaySettle c p now) := by
  intro o
  unfold MaySettle
  split <;> infer_instance

def SettlesSafely (c : ServerConfig Reply) (p : Nat) (x : Choice) : Prop :=
  ClockKept c p x ∧ ∀ o ∈ (c.procs p).nextOp, MaySettle c p x.now o

instance (c : ServerConfig Reply) (p : Nat) (x : Choice) : Decidable (SettlesSafely c p x) := by
  unfold SettlesSafely
  infer_instance

section step
variable {D : Deps} {c : ServerConfig Reply} {p : Nat} {x : Choice} {o : ServerOp} {key : String}
  {w : World} {log : Lease.Log}

/-- One call keeps the slot of every key fenced. -/
theorem fenced_handle (h : Lease.Fenced (w.idempotency.slot key) w.now.getTime log)
    (hclock : w.now.getTime ≤ x.now.getTime)
    (hsettle : ∀ io, o = .idempotency io → io.settles → io.key = key →
      Lease.MayAct (w.idempotency.slot key) x.now.getTime log p) :
    Lease.Fenced ((World.handle D o x w).2.idempotency.slot key)
      (World.handle D o x w).2.now.getTime
      (eventEntry key ⟨p,o,(World.handle D o x w).1,w,(World.handle D o x w).2⟩ ++ log) := by
  have hlater := h.later hclock
  rw [World.handle_now]
  rcases World.handle_cases D o x w with ⟨e,-,-,hw⟩ | hw
  · rw [hw]
    have hentry : eventEntry key ⟨p,o,.error e,w,{ w with now := x.now }⟩ = [] := by
      cases o with
      | idempotency o => cases o <;> rfl
      | _ => rfl
    rw [hentry]
    exact hlater
  · rw [hw]
    cases o with
    | idempotency io => exact MemoryIdempotencyStore.handle_fenced io p hlater (hsettle io rfl)
    | _ =>
      rw [(World.serve_frame D _ x { w with now := x.now }).idempotency (by simp [ServerOp.store])]
      exact hlater

/-- Whoever claims the slot finds it free. -/
theorem free_of_claims (hc : claims key ⟨p,o,(World.handle D o x w).1,w,(World.handle D o x w).2⟩) :
    ∀ e ∈ w.idempotency.slot key, e ≤ x.now.getTime := by
  cases o with
  | idempotency io =>
    cases io with
    | «begin» k ttlMs =>
      rcases World.handle_cases D (.idempotency (.begin k ttlMs)) x w with ⟨e,-,-,hw⟩ | hw
      · rw [hw] at hc
        cases hc
      · rw [hw] at hc
        have hserve : (World.serve D (.idempotency (.begin k ttlMs)) x { w with now := x.now }).1 =
            .ok (w.idempotency.begin x.now k ttlMs).1 := rfl
        rw [hserve] at hc
        rcases MemoryIdempotencyStore.begin_cases w.idempotency x.now k ttlMs with
          ⟨h₁,hfree,-⟩ | ⟨h₁,-⟩
        · rw [h₁] at hc
          simp only [claims,decide_eq_true_eq] at hc
          subst hc
          exact hfree
        · cases hb : (w.idempotency.begin x.now k ttlMs).1 with
          | claimed => exact absurd hb h₁
          | inFlight => rw [hb] at hc; cases hc
          | replay response => rw [hb] at hc; cases hc
    | commit k response ttlMs => cases hc
    | release k => cases hc
  | _ => cases hc

end step

/-- What the calls that a request has made so far say of its claim on the key. -/
def Admitted (key : String) (events : List ServerEvent) : SlotPhase → Prop
  | .start => ∀ e ∈ events, e.op.issuesOrSubmits = false ∧ arrives key e = false
  | .working => ∀ e ∈ events, arrives key e → claims key e
  | .done => (∀ e ∈ events, arrives key e → claims key e) ∨
      ∀ e ∈ events, e.op.issuesOrSubmits = false

/-- What holds of the slot of a key while the requests settle it safely. -/
structure SlotInv (D : Deps) (requests : Nat → IssueRequest) (key : String)
    (c : ServerConfig Reply) (t : Nat → Option String × SlotPhase) : Prop where
  keys : ∀ q, (t q).1 = requestKey D (requests q)
  fenced : Lease.Fenced (c.shared.idempotency.slot key) c.shared.now.getTime
    (requestLog key c.history)
  claimedFree : ∀ e older, e :: older <:+ c.history → claims key e → ∀ q expires,
    Lease.tenure q (requestLog key older) = some expires → expires ≤ e.after.now.getTime
  admitted : ∀ q, (t q).1 = some key → Admitted key (ownEvents q c.history) (t q).2
  kept : ∀ q, (t q).2 ≠ .done ∨ received c.history q → (q,.drop) ∉ requestLog key c.history

section invariant
variable {D : Deps} {requests : Nat → IssueRequest} {key : String} {c : ServerConfig Reply}
  {t : Nat → Option String × SlotPhase} {p : Nat} {x : Choice} {o : ServerOp}
  {k : Except Thrown (ServerOp.Ret o) → Program Server Thrown Reply}

/-- A call moves a request as its answer says. -/
theorem admitted_next {events : List ServerEvent} {r : Option String × SlotPhase}
    {a : Except Thrown (ServerOp.Ret o)} {w w' : World} (hr : r.1 = some key)
    (ha : slotTypestate.allows r o) (h : Admitted key events r.2) :
    Admitted key (⟨p,o,a,w,w'⟩ :: events) (slotTypestate.next r o a).2 := by
  obtain ⟨ko,phase⟩ := r
  cases hr
  cases phase with
  | start =>
    rcases ha with ha | ⟨-,ha⟩ | ⟨k,ttl,hk,rfl⟩
    · have hstay : (slotTypestate.next (some key,.start) o a).2 = .start := by
        rw [(stays_start (.inl ha)).2]
      have hnew : o.issuesOrSubmits = false ∧ arrives key ⟨p,o,a,w,w'⟩ = false := by
        cases o with
        | apiKeys o => exact ⟨rfl,rfl⟩
        | tenants o => exact ⟨rfl,rfl⟩
        | vault o => exact ⟨rfl,rfl⟩
        | _ => cases ha
      rw [hstay]
      exact List.forall_mem_cons.2 ⟨hnew,h⟩
    · cases ha
    · have hdone : ∀ e ∈ (⟨p,.idempotency (.begin k ttl),a,w,w'⟩ : ServerEvent) :: events,
          e.op.issuesOrSubmits = false :=
        List.forall_mem_cons.2 ⟨rfl,fun e he => (h e he).1⟩
      cases a with
      | error e => exact .inr hdone
      | ok result =>
        cases result with
        | claimed => exact List.forall_mem_cons.2 ⟨id,fun e he hcl => by simp [(h e he).2] at hcl⟩
        | inFlight => exact .inr hdone
        | replay response => exact .inr hdone
  | working =>
    rcases ha with ha | ⟨k,response,ttl,hk,rfl⟩ | ⟨k,hk,rfl⟩
    · rw [(stays_working (.inl ha)).2]
      refine List.forall_mem_cons.2 ⟨fun hcl => ?_,h⟩
      cases o with
      | idempotency o => cases ha
      | _ => cases hcl
    · exact List.forall_mem_cons.2 ⟨(by simp [arrives]),h⟩
    · exact .inl (List.forall_mem_cons.2 ⟨(by simp [arrives]),h⟩)
  | done => cases ha

/-- A call that releases ends the request's work. -/
theorem next_of_release {r : Option String × SlotPhase} {a : Except Thrown (ServerOp.Ret o)}
    (ha : slotTypestate.allows r o) (ho : o = .idempotency (.release key)) :
    (slotTypestate.next r o a).2 = .done := by
  subst ho
  obtain ⟨ko,phase⟩ := r
  cases phase with
  | start => rcases ha with ha | ⟨ha,-⟩ | ⟨_,_,_,ha⟩ <;> cases ha
  | working => rfl
  | done => cases ha

/-- No request works on after its end. -/
theorem phase_of_allows {r : Option String × SlotPhase}
    (ha : slotTypestate.allows r o) : r.2 ≠ .done := by
  obtain ⟨ko,phase⟩ := r
  rintro rfl
  cases ha

theorem next_key (r : Option String × SlotPhase) (a : Except Thrown (ServerOp.Ret o)) :
    (slotTypestate.next r o a).1 = r.1 := by
  unfold slotTypestate
  simp only
  split <;> rfl

theorem slotInv_step (h : SlotInv D requests key c t) (hp : c.procs p = .call o k)
    (ha : slotTypestate.allows (t p) o) (hok : SettlesSafely c p x) :
    SlotInv D requests key (c.after (World.handle D) p o k x)
      (Function.update t p (slotTypestate.next (t p) o (World.handle D o x c.shared).1)) := by
  have hsafe : MaySettle c p x.now o := hok.2 o (by rw [hp]; rfl)
  constructor
  · intro q
    rw [Function.update_apply]
    split
    · rename_i hq
      rw [next_key,h.keys,hq]
    · exact h.keys q
  · refine fenced_handle h.fenced hok.1 ?_
    rintro io rfl hs rfl
    cases io with
    | «begin» k ttlMs => cases hs
    | commit k response ttlMs => exact hsafe
    | release k => exact hsafe.1
  · intro e older he hcl q expires hq
    rcases List.suffix_cons_iff.1 he with heq | he
    · obtain ⟨rfl,rfl⟩ := List.cons.inj heq
      rw [World.handle_now]
      exact (h.fenced.later hok.1).expired (free_of_claims hcl) hq
    · exact h.claimedFree e older he hcl q expires hq
  · intro q hq
    rw [Function.update_apply] at hq ⊢
    split at hq
    · rename_i hqp
      subst hqp
      rw [next_key] at hq
      simp only [Config.after,ownEvents,if_true]
      rw [List.filter_cons_of_pos (by simp)]
      exact admitted_next hq ha (h.admitted q hq)
    · rename_i hqp
      simp only [Config.after,ownEvents,hqp,if_false]
      rw [List.filter_cons_of_neg (by simpa using Ne.symm hqp)]
      exact h.admitted q hq
  · intro q hq hdrop
    simp only [Config.after,requestLog,List.flatMap_cons,List.mem_append] at hq hdrop
    rcases hdrop with hdrop | hdrop
    · obtain ⟨rfl,ho⟩ := drop_mem_eventEntry hdrop
      simp only at ho
      rw [Function.update_self,next_of_release ha ho] at hq
      subst ho
      have hr : received c.history q = true := by simpa [received,isReceipt] using hq
      have hnr : received c.history q = false := hsafe.2
      rw [hr] at hnr
      cases hnr
    · refine h.kept q ?_ hdrop
      by_cases hqp : q = p
      · exact .inl (hqp ▸ phase_of_allows ha)
      · rw [Function.update_of_ne hqp] at hq
        simpa [received,Ne.symm hqp] using hq

theorem mem_ownEvents {q : Nat} {history : List ServerEvent} {e : ServerEvent} :
    e ∈ ownEvents q history ↔ e ∈ history ∧ e.pid = q := by
  simp [ownEvents]

end invariant

/-- Once a request has had a success from the gateway, no other request that arrives under its key
before the key's time runs out issues a document or sends one. -/
def OneSubmission (D : Deps) (requests : Nat → IssueRequest) (c : ServerConfig Reply) : Prop :=
  ∀ p q key, p ≠ q → requestKey D (requests p) = some key → requestKey D (requests q) = some key →
    received c.history p → ∀ e older, e :: older <:+ c.history → e.pid = q → arrives key e →
    ∀ expires, Lease.window p (requestLog key older) = some expires →
      e.after.now.getTime < expires →
      ∀ f ∈ c.history, f.pid = q → f.op.issuesOrSubmits = false

def startIssueRequests (D : Deps) (w : World) (requests : Nat → IssueRequest) : ServerConfig Reply where
  shared := w
  procs p := issueRoute D (requests p)

/-- Whatever the requests are, however they interleave and whatever else fails. -/
theorem oneSubmission_of_settlesSafely (D : Deps) (w : World) (requests : Nat → IssueRequest)
    (c : ServerConfig Reply)
    (hc : Reach (World.handle D) SettlesSafely (startIssueRequests D w requests) c) :
    OneSubmission D requests c := by
  intro p q key hpq hkp hkq hrec e older he hpid harr expires hwin hlt f hf hfq
  obtain ⟨t,hinv,-⟩ := @Typestate.reach_invariant _ _ _ _ _ _ slotTypestate (fun _ _ => True) _ _ _
    _ (SlotInv D requests key) (fun q => (requestKey D (requests q),.start))
    { keys := fun _ => rfl
      fenced := Lease.Fenced.nil _ _
      claimedFree := fun e older he => by simp [startIssueRequests] at he
      admitted := fun q _ e he => by simp [ownEvents,startIssueRequests] at he
      kept := fun q _ he => by simp [requestLog,startIssueRequests] at he }
    (fun q => issueRoute_conforms (requests q))
    (fun c t p x o k h _ hp ha hok => slotInv_step h hp ha hok) hc
  have hnotfree : ¬ claims key e := by
    intro hcl
    have hkeep : (p,.drop) ∉ requestLog key older := by
      intro hdrop
      obtain ⟨newer,hnew⟩ := he
      refine hinv.kept p (.inr hrec) ?_
      rw [← hnew,requestLog,List.flatMap_append,List.flatMap_cons]
      exact List.mem_append_right _ (List.mem_append_right _ hdrop)
    rw [← Lease.tenure_eq_window hkeep] at hwin
    have := hinv.claimedFree e older he hcl p expires hwin
    omega
  have hown : e ∈ ownEvents q c.history :=
    mem_ownEvents.2 ⟨he.subset List.mem_cons_self,hpid⟩
  have hfown : f ∈ ownEvents q c.history := mem_ownEvents.2 ⟨hf,hfq⟩
  have hadm := hinv.admitted q ((hinv.keys q).trans hkq)
  cases hphase : (t q).2 with
  | start =>
    rw [hphase] at hadm
    exact (hadm f hfown).1
  | working =>
    rw [hphase] at hadm
    exact absurd (hadm e hown harr) hnotfree
  | done =>
    rw [hphase] at hadm
    rcases hadm with hadm | hadm
    · exact absurd (hadm e hown harr) hnotfree
    · exact hadm f hfown

namespace Sample

/-- Requests to issue the same sale under one key. -/
def retries (p : Nat) : IssueRequest :=
  { issueRequest (some (.single "sale-1")) with
    host := ⟨"5d2c1a60-0000-4000-8000-00000000000" ++ toString p,clock⟩ }

/-- The steps of the schedule, all with the gateway accepting. -/
def schedule (pids : List Nat) : List (Nat × Choice) := pids.map (fun p => (p,accepted))

end Sample

/-- The retry arrives while the first request has its success and has not settled its slot. -/
theorem oneSubmission_of_waiting_retry :
    ∃ c, (startIssueRequests Sample.deps Sample.world Sample.retries).run (World.handle Sample.deps)
        SettlesSafely (Sample.schedule [0,0,0,0,0,0,0,0,1,1,1,1]) = some c ∧
      OneSubmission Sample.deps Sample.retries c := by
  refine ⟨_,rfl,?_⟩
  exact oneSubmission_of_settlesSafely Sample.deps Sample.world Sample.retries _
    (Reach.of_run (Sample.schedule [0,0,0,0,0,0,0,0,1,1,1,1]) .init rfl)

/-- The first request has its success, fails to report it and gives its slot up: the retry issues a
second document and sends it. -/
theorem oneSubmission_fails_after_release :
    ¬ ∀ c, Reach (World.handle Sample.deps) ClockKept
        (startIssueRequests Sample.deps Sample.world Sample.retries) c →
      OneSubmission Sample.deps Sample.retries c := by
  intro hall
  have hreach := hall _ (Reach.of_run
    (Sample.schedule [0,0,0,0,0,0,0,0,0,0,1,1,1,1,1,1,1,1]) .init rfl)
  have h := hreach 0 1 _ (by decide) rfl rfl rfl _ _ ⟨[_,_,_,_],rfl⟩ rfl rfl _ rfl
    (by decide) _ List.mem_cons_self rfl
  cases h

end Zatca
