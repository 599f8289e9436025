import Zatca.Core.Gateway
import Zatca.Core.Issue
import Zatca.Core.RequestAttempts
set_option autoImplicit false
namespace Zatca
open Interaction

/-- What the route learns from its submission. -/
structure SubmissionOutcome where
  status : InvoiceStatus
  zatcaResponse : Option Json
  zatcaRequestId : Option String
  deriving DecidableEq

/-- An absent field is left out. -/
def SingleInvoiceSubmissionResult.toJson (r : SingleInvoiceSubmissionResult) : Json :=
  .obj ([("endpoint",.str r.endpoint),("invoiceType",.str r.invoiceType)] ++
    r.response.toList.map (fun response => ("response",response)))

/-- The route's verdict on a document: every `ZatcaApiError` is a rejection. -/
def decideStatus (R : Runtime) (xml : InvoiceTypeCodeReader) (params : InvoiceSubmissionParams) :
    Program HttpClient Thrown SubmissionOutcome :=
  Program.tryCatch
    (do
      let result ← singleInvoiceReportingOrClearanceStatus R xml params
      return { status := .accepted, zatcaResponse := some result.toJson, zatcaRequestId := none })
    (fun err => match err with
      | .zatcaApiError e => .ret
          { status := .rejected, zatcaResponse := e.validationResults, zatcaRequestId := e.requestId }
      | _ => .throw err)

section client
variable (R : Runtime) (xml : InvoiceTypeCodeReader)

/-- What the client checks and composes before its first attempt: the type of the document, the
address and the message. -/
def prepareSubmission (p : InvoiceSubmissionParams) : Except Thrown (Bool × String × RequestInit) := do
  requireParams "for invoice submission" p.required
  let simplified ← isSimplifiedInvoice xml p.signedInvoiceXml
  let headers ← buildClearanceHeaders R p.binarySecurityToken p.apiSecret
  let endpoints := getZatcaEndpoints p.environment
  return (simplified,
    buildUrl R endpoints.base (if simplified then endpoints.reporting else endpoints.clearance) none,
    { method := .post, headers := mergeHeaders p.httpOptions.defaultHeaders headers
      body := some (R.stringify (p.body R)) })

def InvoiceSubmissionParams.timeoutMs (p : InvoiceSubmissionParams) : Nat :=
  p.httpOptions.timeoutMs.getD DEFAULT_TIMEOUT_MS

def InvoiceSubmissionParams.retries (p : InvoiceSubmissionParams) : RetryOptions :=
  p.httpOptions.retries.getD DEFAULT_RETRY

theorem singleInvoice_eq (p : InvoiceSubmissionParams) :
    singleInvoiceReportingOrClearanceStatus R xml p = match prepareSubmission R xml p with
      | .error e => .throw e
      | .ok (simplified,url,init) =>
          (requestLoop R url init p.timeoutMs p.retries p.retries.count 0).bind
            (fun response => .ret { simplified, response }) := by
  unfold singleInvoiceReportingOrClearanceStatus prepareSubmission
  simp only [Program.bind_eq,Program.ofExcept_bind,callGateway,request,Program.pure_eq]
  cases requireParams "for invoice submission" p.required with
  | error e => rfl
  | ok u =>
    cases isSimplifiedInvoice xml p.signedInvoiceXml with
    | error e => rfl
    | ok simplified =>
      cases buildClearanceHeaders R p.binarySecurityToken p.apiSecret with
      | error e => rfl
      | ok headers => rfl

end client

/-! The gateway behind the wire: it takes a document once, and the wire may lose what it answers. -/

inductive Delivery where
  | unreached (e : Thrown)
  | responseLost (e : Thrown)
  | bodyLost (e : Thrown)
  | delivered
  deriving DecidableEq

inductive Verdict where
  | accept (warnings : Bool)
  | refuse (status : {s : Nat // isSuccess s = false})

namespace Verdict

def accepts : Verdict → Bool
  | accept _ => true
  | refuse _ => false

def status : Verdict → Nat
  | accept warnings => if warnings then 202 else 200
  | refuse s => s.1

end Verdict

/-- What becomes of one call: of a post, how far it gets and what the gateway makes of a document
that it has not taken before. -/
structure Attempt where
  delivery : Delivery
  verdict : Verdict
  duplicateStatus : {s : Nat // 400 ≤ s ∧ s < 500} := ⟨400,by decide⟩
  headers : List (String × String) := []
  body : BodyText := .empty
  random : ℚ := 0

/-- The documents that the gateway has taken. -/
structure Gateway where
  accepted : List (String × RequestInit)
  deriving DecidableEq

namespace Attempt

/-- The gateway takes a document that reaches it for the first time. -/
def takes (x : Attempt) : Bool :=
  match x.delivery with
  | .unreached _ => false
  | _ => x.verdict.accepts

/-- The answer that arrives, the gateway having answered with the status. -/
def receive (x : Attempt) (status : Nat) : Except Thrown Response :=
  match x.delivery with
  | .unreached e | .responseLost e => .error e
  | .bodyLost e => .ok ⟨status,x.headers,.error e⟩
  | .delivered => .ok ⟨status,x.headers,.ok x.body⟩

/-- A document not taken is sent again when attempts are left. -/
def retried (x : Attempt) : Bool :=
  !x.takes && match x.delivery with
    | .unreached e | .responseLost e => isRetryableError e
    | .bodyLost e => isRetryableStatus x.verdict.status || isRetryableError e
    | .delivered => isRetryableStatus x.verdict.status

end Attempt

namespace Gateway

def handle : Handler HttpClient Thrown Gateway Attempt
  | .fetch url init, x, g =>
      if (url,init) ∈ g.accepted then (x.receive x.duplicateStatus.1,g)
      else (x.receive x.verdict.status,if x.takes then ⟨(url,init) :: g.accepted⟩ else g)
  | .random, x, g => (.ok x.random,g)
  | .sleep _, _, g => (.ok (),g)

theorem waits : Waits handle := ⟨fun x _ => ⟨x.random,rfl⟩,fun _ _ _ => rfl⟩

end Gateway

section loop
variable {R : Runtime} {url : String} {init : RequestInit} {timeoutMs : Nat}
  {retries : RetryOptions} {script : Nat → Attempt} {g : Gateway}

/-- Every answer but a delivered success ends the attempt without a value. -/
theorem attemptEnd_receive (last : Bool) (x : Attempt) (status : Nat)
    (h : isSuccess status = false ∨ x.delivery ≠ .delivered) (parsed : Option Json) :
    attemptEnd R timeoutMs last (x.receive status) ≠ .answered parsed := by
  have hcaught : ∀ e, caught timeoutMs last e ≠ .answered parsed := by
    intro e
    unfold caught
    split <;> simp
  unfold Attempt.receive
  cases hd : x.delivery with
  | unreached e => exact hcaught e
  | responseLost e => exact hcaught e
  | bodyLost e =>
    simp only [attemptEnd,readBody,Except.map]
    split
    · exact hcaught e
    · split
      · simp
      · exact hcaught e
  | delivered =>
    have hs : isSuccess status = false := by simpa [hd] using h
    simp only [attemptEnd,readBody,Except.map,hs,Bool.false_eq_true,if_false]
    split <;> simp

/-- A document that the gateway has taken before is refused by every attempt. -/
theorem exec_requestLoop_of_accepted (left attempt : Nat) (hg : (url,init) ∈ g.accepted) :
    ∃ a, (requestLoop R url init timeoutMs retries left attempt).exec Gateway.handle script g =
      (.error (.zatcaApiError a),g) := by
  have hfetch (x : Attempt) :
      Gateway.handle (.fetch url init) x g = (x.receive x.duplicateStatus.1,g) := by
    simp [Gateway.handle,hg]
  have hne (last : Bool) (x : Attempt) (parsed : Option Json) :
      attemptEnd R timeoutMs last (x.receive x.duplicateStatus.1) ≠ .answered parsed := by
    refine attemptEnd_receive last x _ (.inl ?_) parsed
    have := x.duplicateStatus.2
    simp only [isSuccess,SUCCESS_STATUSES,List.contains_cons,List.contains_nil,Bool.or_false,
      Bool.or_eq_false_iff,beq_eq_false_iff_ne]
    omega
  induction left generalizing attempt script with
  | zero =>
    rw [exec_requestLoop_zero Gateway.waits,hfetch]
    cases he : attemptEnd R timeoutMs true ((script 0).receive (script 0).duplicateStatus.1) with
    | answered parsed => exact absurd he (hne _ _ _)
    | again => exact ⟨_,rfl⟩
    | failed e =>
      obtain ⟨a,rfl⟩ := attemptEnd_failed he
      exact ⟨a,rfl⟩
  | succ left ih =>
    rw [exec_requestLoop_succ Gateway.waits,hfetch]
    cases he : attemptEnd R timeoutMs false ((script 0).receive (script 0).duplicateStatus.1) with
    | answered parsed => exact absurd he (hne _ _ _)
    | again => exact ih (attempt+1)
    | failed e =>
      obtain ⟨a,rfl⟩ := attemptEnd_failed he
      exact ⟨a,rfl⟩

/-- The first attempt that the gateway takes, if the client comes to make it, has its answer
delivered to the last byte. -/
def TakenIsDelivered (script : Nat → Attempt) (left : Nat) : Prop :=
  ∀ k ≤ left, (∀ j < k, (script (3*j)).retried) → (script (3*k)).takes →
    (script (3*k)).delivery = .delivered

theorem takenIsDelivered_zero : TakenIsDelivered script 0 ↔
    ((script 0).takes → (script 0).delivery = .delivered) := by
  constructor
  · intro h
    exact h 0 (Nat.le_refl 0) (by omega)
  · intro h k hk _
    obtain rfl : k = 0 := by omega
    exact h

theorem takenIsDelivered_succ (left : Nat) : TakenIsDelivered script (left+1) ↔
    ((script 0).takes → (script 0).delivery = .delivered) ∧
      ((script 0).retried → TakenIsDelivered (fun i => script (i+3)) left) := by
  constructor
  · intro h
    refine ⟨h 0 (by omega) (by omega),fun h₀ k hk hr => ?_⟩
    have := h (k+1) (by omega)
    rw [show 3*(k+1) = 3*k+3 by omega] at this
    refine this fun j hj => ?_
    cases j with
    | zero => exact h₀
    | succ j => exact hr j (by omega)
  · rintro ⟨h₀,hs⟩ k hk hr
    cases k with
    | zero => exact h₀
    | succ k =>
      refine hs (hr 0 (by omega)) k (by omega) fun j hj => ?_
      exact hr (j+1) (by omega)

theorem isSuccess_accept (warnings : Bool) : isSuccess (Verdict.accept warnings).status := by
  cases warnings <;> decide

theorem isSuccess_of_not_takes {x : Attempt} (ht : x.takes = false)
    (hd : ∀ e, x.delivery ≠ .unreached e) : isSuccess x.verdict.status = false := by
  cases hv : x.verdict with
  | accept warnings =>
    cases hx : x.delivery with
    | unreached e => exact absurd hx (hd e)
    | responseLost e => simp [Attempt.takes,hx,hv,Verdict.accepts] at ht
    | bodyLost e => simp [Attempt.takes,hx,hv,Verdict.accepts] at ht
    | delivered => simp [Attempt.takes,hx,hv,Verdict.accepts] at ht
  | refuse s => exact s.2

theorem caught_again {last : Bool} {e : Thrown} :
    caught timeoutMs last e = .again ↔ last = false ∧ isRetryableError e := by
  unfold caught
  split
  · rename_i h
    simpa using h
  · rename_i h
    simpa using h

theorem attemptEnd_again {last : Bool} {x : Attempt} (ht : x.takes = false) :
    attemptEnd R timeoutMs last (x.receive x.verdict.status) = .again ↔
      last = false ∧ x.retried := by
  have hs := isSuccess_of_not_takes ht
  unfold Attempt.receive Attempt.retried
  rw [ht]
  cases hd : x.delivery with
  | unreached e => exact caught_again
  | responseLost e => exact caught_again
  | bodyLost e =>
    simp only [attemptEnd,readBody,Except.map,hs (by simp [hd]),Bool.false_eq_true,if_false]
    cases isRetryableStatus x.verdict.status with
    | true => cases last <;> simp [caught]
    | false => simpa using caught_again
  | delivered =>
    simp only [attemptEnd,readBody,Except.map,hs (by simp [hd]),Bool.false_eq_true,if_false]
    cases isRetryableStatus x.verdict.status with
    | true => cases last <;> simp
    | false => simp

/-- What becomes of an attempt at a document that the gateway has not taken yet. -/
theorem attempt_cases (last : Bool) (x : Attempt) (hg : (url,init) ∉ g.accepted) :
    (x.takes ∧ x.delivery = .delivered ∧ ∃ parsed,
        attemptEnd R timeoutMs last (Gateway.handle (.fetch url init) x g).1 = .answered parsed) ∨
      (x.takes ∧ x.delivery ≠ .delivered ∧
        (Gateway.handle (.fetch url init) x g).2 = ⟨(url,init) :: g.accepted⟩ ∧
        ∀ parsed, attemptEnd R timeoutMs last (Gateway.handle (.fetch url init) x g).1 ≠
          .answered parsed) ∨
      (x.takes = false ∧ (Gateway.handle (.fetch url init) x g).2 = g ∧
        (∀ parsed, attemptEnd R timeoutMs last (Gateway.handle (.fetch url init) x g).1 ≠
          .answered parsed) ∧
        (attemptEnd R timeoutMs last (Gateway.handle (.fetch url init) x g).1 = .again ↔
          last = false ∧ x.retried)) := by
  have hfetch : Gateway.handle (.fetch url init) x g =
      (x.receive x.verdict.status,if x.takes then ⟨(url,init) :: g.accepted⟩ else g) := by
    simp [Gateway.handle,hg]
  rw [hfetch]
  cases ht : x.takes with
  | true =>
    by_cases hd : x.delivery = .delivered
    · cases hv : x.verdict with
      | accept warnings =>
        refine .inl ⟨rfl,hd,?_⟩
        simp [Attempt.receive,hd,attemptEnd,readBody,Except.map,isSuccess_accept]
      | refuse s => simp [Attempt.takes,hd,hv,Verdict.accepts] at ht
    · exact .inr (.inl ⟨rfl,hd,rfl,attemptEnd_receive last x _ (.inr hd)⟩)
  | false =>
    refine .inr (.inr ⟨rfl,rfl,attemptEnd_receive last x _ ?_,attemptEnd_again ht⟩)
    by_cases hd : x.delivery = .delivered
    · exact .inl (isSuccess_of_not_takes ht (by simp [hd]))
    · exact .inr hd

/-- A request that ends in an error leaves the gateway as it was exactly when no answer to a taken
document was lost. -/
theorem requestLoop_unchanged_iff (left attempt : Nat) (hg : (url,init) ∉ g.accepted) :
    (∀ e, ((requestLoop R url init timeoutMs retries left attempt).exec Gateway.handle script g).1 =
        .error e →
      ((requestLoop R url init timeoutMs retries left attempt).exec Gateway.handle script g).2 = g) ↔
      TakenIsDelivered script left := by
  have hne : (⟨(url,init) :: g.accepted⟩ : Gateway) ≠ g := by
    intro h
    have := congrArg (fun g => g.accepted.length) h
    simp at this
  induction left generalizing attempt script with
  | zero =>
    rw [exec_requestLoop_zero Gateway.waits,takenIsDelivered_zero]
    rcases @attempt_cases R url init timeoutMs g true (script 0) hg with
      ⟨ht,hd,parsed,he⟩ | ⟨ht,hd,hg',he⟩ | ⟨ht,hg',he,-⟩
    · simp [he,hd]
    · rw [hg']
      cases ha : attemptEnd R timeoutMs true (Gateway.handle (.fetch url init) (script 0) g).1 with
      | answered parsed => exact absurd ha (he parsed)
      | again => simp [ht,hd,hne]
      | failed e => simp [ht,hd,hne]
    · rw [hg']
      cases ha : attemptEnd R timeoutMs true (Gateway.handle (.fetch url init) (script 0) g).1 with
      | answered parsed => exact absurd ha (he parsed)
      | again => simp [ht]
      | failed e => simp [ht]
  | succ left ih =>
    rw [exec_requestLoop_succ Gateway.waits,takenIsDelivered_succ]
    rcases @attempt_cases R url init timeoutMs g false (script 0) hg with
      ⟨ht,hd,parsed,he⟩ | ⟨ht,hd,hg',he⟩ | ⟨ht,hg',he,hagain⟩
    · simp [he,hd,Attempt.retried,ht]
    · rw [hg']
      cases ha : attemptEnd R timeoutMs false (Gateway.handle (.fetch url init) (script 0) g).1 with
      | answered parsed => exact absurd ha (he parsed)
      | again =>
        obtain ⟨a,hx⟩ := @exec_requestLoop_of_accepted R url init timeoutMs retries
          (fun i => script (i+3)) ⟨(url,init) :: g.accepted⟩ left (attempt+1) List.mem_cons_self
        simp [hx,ht,hd,hne]
      | failed e => simp [ht,hd,hne]
    · rw [hg']
      cases ha : attemptEnd R timeoutMs false (Gateway.handle (.fetch url init) (script 0) g).1 with
      | answered parsed => exact absurd ha (he parsed)
      | again =>
        have hr : (script 0).retried := (hagain.1 ha).2
        simpa [ht,hr] using ih (attempt+1)
      | failed e =>
        have hr : (script 0).retried = false := by
          cases hx : (script 0).retried with
          | false => rfl
          | true => rw [hagain.2 ⟨rfl,hx⟩] at ha; cases ha
        simp [ht,hr]

theorem requestLoop_error (left attempt : Nat) {e : Thrown}
    (h : ((requestLoop R url init timeoutMs retries left attempt).exec Gateway.handle script g).1 =
      .error e) : ∃ a, e = .zatcaApiError a := by
  induction left generalizing attempt script g with
  | zero =>
    rw [exec_requestLoop_zero Gateway.waits] at h
    cases ha : attemptEnd R timeoutMs true (Gateway.handle (.fetch url init) (script 0) g).1 with
    | answered parsed => simp [ha] at h
    | again =>
      simp only [ha,Except.error.injEq] at h
      exact ⟨_,h.symm⟩
    | failed e' =>
      simp only [ha,Except.error.injEq] at h
      exact h ▸ attemptEnd_failed ha
  | succ left ih =>
    rw [exec_requestLoop_succ Gateway.waits] at h
    cases ha : attemptEnd R timeoutMs false (Gateway.handle (.fetch url init) (script 0) g).1 with
    | answered parsed => simp [ha] at h
    | again =>
      simp only [ha] at h
      exact ih (attempt+1) h
    | failed e' =>
      simp only [ha,Except.error.injEq] at h
      exact h ▸ attemptEnd_failed ha

end loop

section verdict
variable {R : Runtime} {xml : InvoiceTypeCodeReader} {p : InvoiceSubmissionParams}
  {script : Nat → Attempt} {g : Gateway}

/-- A rejected verdict is a submission of which the gateway took no attempt. -/
def RejectedIsNotTaken (R : Runtime) (xml : InvoiceTypeCodeReader) (p : InvoiceSubmissionParams)
    (script : Nat → Attempt) (g : Gateway) : Prop :=
  ∀ outcome, ((decideStatus R xml p).exec Gateway.handle script g).1 = .ok outcome →
    outcome.status = .rejected →
    ((decideStatus R xml p).exec Gateway.handle script g).2.accepted = g.accepted

theorem rejectedIsNotTaken_of_unprepared {e : Thrown} (h : prepareSubmission R xml p = .error e) :
    RejectedIsNotTaken R xml p script g := by
  intro outcome _ _
  simp only [decideStatus,Program.bind_eq,Program.exec_tryCatch,Program.exec_bind,singleInvoice_eq,h,
    Program.exec_throw]
  cases e <;> rfl

theorem rejectedIsNotTaken_iff_of_prepared {simplified : Bool} {url : String} {init : RequestInit}
    (h : prepareSubmission R xml p = .ok (simplified,url,init)) :
    RejectedIsNotTaken R xml p script g ↔
      ∀ e, ((requestLoop R url init p.timeoutMs p.retries p.retries.count 0).exec Gateway.handle
          script g).1 = .error e →
        ((requestLoop R url init p.timeoutMs p.retries p.retries.count 0).exec Gateway.handle
          script g).2 = g := by
  unfold RejectedIsNotTaken
  simp only [decideStatus,Program.bind_eq,Program.exec_tryCatch,Program.exec_bind,singleInvoice_eq,h]
  cases hx : (requestLoop R url init p.timeoutMs p.retries p.retries.count 0).exec Gateway.handle
      script g with
  | mk r g' =>
    cases r with
    | ok response => simp [Program.exec_ret,Program.pure_eq]
    | error e =>
      obtain ⟨a,rfl⟩ := @requestLoop_error R url init p.timeoutMs p.retries script g
        p.retries.count 0 e (by rw [hx])
      constructor
      · intro hall e _
        have := hall _ rfl rfl
        cases g'
        cases g
        exact congrArg Gateway.mk this
      · intro hall outcome _ _
        exact congrArg Gateway.accepted (hall _ rfl)

end verdict

/-- The verdict is right for every behaviour of the gateway and the wire under which the answer to
the attempt that takes the document, if the client makes one, is not lost. -/
theorem rejectedIsNotTaken_iff (R : Runtime) (xml : InvoiceTypeCodeReader)
    (p : InvoiceSubmissionParams) (script : Nat → Attempt) (g : Gateway) :
    RejectedIsNotTaken R xml p script g ↔
      ∀ simplified url init, prepareSubmission R xml p = .ok (simplified,url,init) →
        (url,init) ∉ g.accepted → TakenIsDelivered script p.retries.count := by
  cases h : prepareSubmission R xml p with
  | error e =>
    refine ⟨fun _ _ _ _ hp => ?_,fun _ => rejectedIsNotTaken_of_unprepared h⟩
    cases hp
  | ok doc =>
    obtain ⟨simplified,url,init⟩ := doc
    rw [rejectedIsNotTaken_iff_of_prepared h]
    by_cases hg : (url,init) ∈ g.accepted
    · refine ⟨fun _ _ _ _ hp hn => ?_,fun _ e _ => ?_⟩
      · cases hp
        exact absurd hg hn
      · obtain ⟨a,hx⟩ := @exec_requestLoop_of_accepted R url init p.timeoutMs p.retries script g
          p.retries.count 0 hg
        rw [hx]
    · rw [requestLoop_unchanged_iff p.retries.count 0 hg]
      refine ⟨fun ht _ _ _ hp _ => ?_,fun hall => hall _ _ _ rfl hg⟩
      cases hp
      exact ht

namespace Sample

def invoiceTypeCode : InvoiceTypeCodeReader := fun _ => .ok (some (some "0200000"))

def submission : InvoiceSubmissionParams where
  signedInvoiceXml := "signed document"
  invoiceHash := "digest"
  egsUuid := scope.egsUuid
  binarySecurityToken := "token"
  apiSecret := "secret"
  environment := .production

/-- The gateway takes the first attempt and its answer times out; the second one arrives. -/
def lostAnswer : Nat → Attempt
  | 0 => { delivery := .responseLost (.abortError "This operation was aborted"), verdict := .accept false }
  | _ => { delivery := .delivered, verdict := .accept false }

end Sample

/-- The retry of a document whose answer was lost is refused, and the route records a rejection. -/
theorem rejectedIsNotTaken_fails_on_lost_answer :
    ¬ ∀ script g, RejectedIsNotTaken Sample.runtime Sample.invoiceTypeCode Sample.submission
      script g := by
  intro hall
  have h := hall Sample.lostAnswer ⟨[]⟩ ⟨.rejected,none,none⟩ rfl rfl
  revert h
  decide

end Zatca
