import Zatca.Core.RequestAttempts
set_option autoImplicit false
namespace Zatca
open Interaction

/-! How a request uses its attempts, when every attempt has an outcome of its own. -/

/-- What comes of an attempt: `fetch` rejects, or there is a response, whose body may fail. -/
abbrev AttemptOutcome := Except Thrown Response

/-- The host that answers the attempts of a script in turn, and counts them. -/
def Attempts.handle (outcomes : Nat → AttemptOutcome) : Handler HttpClient Thrown Nat ℚ
  | .fetch _ _, _, made => (outcomes made,made + 1)
  | .random, q, made => (.ok q,made)
  | .sleep _, _, made => (.ok (),made)

theorem Attempts.waits (outcomes : Nat → AttemptOutcome) : Waits (Attempts.handle outcomes) :=
  ⟨fun q _ => ⟨q,rfl⟩,fun _ _ _ => rfl⟩

/-- The status of the response, or 0 when there was none. -/
def AttemptOutcome.status : AttemptOutcome → Nat
  | .ok response => response.status
  | .error _ => 0

/-- A status that must not be answered with another attempt. -/
def isFinalStatus (status : Nat) : Bool := isSuccess status || (400 ≤ status && status < 500)

/-- What is asked of a request that made `made` attempts and ended so. -/
structure Disciplined (outcomes : Nat → AttemptOutcome) (count : Nat)
    (ended : Except Thrown (Option Json)) (made : Nat) : Prop where
  bounded : made ≤ count + 1
  final : ∀ i < made, ∀ response, outcomes i = .ok response → isFinalStatus response.status →
    i + 1 = made
  returns : ∀ parsed, ended = .ok parsed →
    ∃ response, outcomes (made - 1) = .ok response ∧ isSuccess response.status
  throws : ∀ e, ended = .error e →
    ∃ a : ZatcaApiError, e = .zatcaApiError a ∧ a.statusCode = (outcomes (made - 1)).status

/-! ### The condition -/

/-- The loop goes on after this outcome, if it may. -/
def AttemptOutcome.goesOn : AttemptOutcome → Bool
  | .error e => isRetryableError e
  | .ok response => isRetryableStatus response.status ||
      match response.text with
      | .ok _ => false
      | .error e => isRetryableError e

/-- The status that an error says it has. -/
def Thrown.statusCode : Thrown → Nat
  | .zatcaApiError e => e.statusCode
  | _ => 0

/-- No error brings a status along that is not the response's. -/
def AttemptOutcome.Kept : AttemptOutcome → Prop
  | .error e => e.statusCode = 0
  | .ok response => ∀ e, response.text = .error e → e.statusCode = response.status

/-- Of every attempt that the request comes to: when it is followed by another one, its status is
not final; when it is the last one, its body can be read. -/
def WellServed (outcomes : Nat → AttemptOutcome) (count : Nat) : Prop :=
  ∀ i ≤ count, (∀ j < i, (outcomes j).goesOn) →
    if i < count ∧ (outcomes i).goesOn then
      ∀ response, outcomes i = .ok response → isFinalStatus response.status = false
    else (outcomes i).Kept

/-! ### Where a request ends -/

/-- How a request ends with the outcome of its last attempt. -/
def ended (R : Runtime) (timeoutMs : Nat) : AttemptOutcome → Except Thrown (Option Json)
  | .error e => .error (normalizeError timeoutMs e)
  | .ok response =>
    match readBody response with
    | .ok parsed => if isSuccess response.status then .ok parsed else .error (requestFailed R response parsed)
    | .error e => .error (normalizeError timeoutMs e)

def AttemptEnd.of : Except Thrown (Option Json) → AttemptEnd
  | .ok parsed => .answered parsed
  | .error e => .failed e

theorem normalizeError_statusCode (timeoutMs : Nat) (e : Thrown) :
    ∃ a : ZatcaApiError, normalizeError timeoutMs e = .zatcaApiError a ∧ a.statusCode = e.statusCode := by
  cases e <;> exact ⟨_,rfl,rfl⟩

variable {R : Runtime} {timeoutMs : Nat}

theorem caught_eq (last : Bool) (e : Thrown) : caught timeoutMs last e =
    if !last && isRetryableError e then .again else .failed (normalizeError timeoutMs e) := rfl

theorem not_retryable_of_success {status : Nat} (h : isSuccess status = true) :
    isRetryableStatus status = false := by
  simp only [isSuccess,SUCCESS_STATUSES,List.contains_cons,List.contains_nil,Bool.or_false,
    Bool.or_eq_true,beq_iff_eq] at h
  simp only [isRetryableStatus,Bool.and_eq_false_iff,decide_eq_false_iff_not]
  omega

/-- An attempt goes on as its outcome says, unless it is the last one. -/
theorem attemptEnd_eq (last : Bool) (outcome : AttemptOutcome) :
    attemptEnd R timeoutMs last outcome =
      if !last && outcome.goesOn then .again else .of (ended R timeoutMs outcome) := by
  cases outcome with
  | error e => rfl
  | ok response =>
    obtain ⟨status,headers,text⟩ := response
    cases text with
    | ok body =>
      simp only [attemptEnd,ended,readBody,AttemptOutcome.goesOn,Except.map,Bool.or_false]
      by_cases hs : isSuccess status = true
      · simp [hs,not_retryable_of_success hs,AttemptEnd.of]
      · simp [hs,AttemptEnd.of,Bool.and_comm]
    | error e =>
      simp only [attemptEnd,ended,readBody,AttemptOutcome.goesOn,Except.map,caught_eq]
      by_cases hs : isSuccess status = true
      · simp [hs,not_retryable_of_success hs,AttemptEnd.of]
      · by_cases hr : isRetryableStatus status = true
        · cases last <;> simp [hs,hr,AttemptEnd.of]
        · simp [hs,hr,AttemptEnd.of]

section loop
variable {url : String} {init : RequestInit} {retries : RetryOptions} {outcomes : Nat → AttemptOutcome}

/-- The loop ends with the first outcome that does not go on, at the latest with the last one. -/
theorem exec_requestLoop (left attempt made : Nat) (script : Nat → ℚ) : ∃ k ≤ left,
    (∀ j < k, (outcomes (made + j)).goesOn) ∧ (k < left → (outcomes (made + k)).goesOn = false) ∧
    (requestLoop R url init timeoutMs retries left attempt).exec (Attempts.handle outcomes) script made =
      (ended R timeoutMs (outcomes (made + k)),made + k + 1) := by
  have hwaits := Attempts.waits outcomes
  induction left generalizing attempt made script with
  | zero =>
    refine ⟨0,Nat.le_refl 0,by omega,by omega,?_⟩
    rw [exec_requestLoop_zero hwaits,attemptEnd_eq]
    simp only [Attempts.handle,Nat.add_zero,Bool.not_true,Bool.false_and,Bool.false_eq_true,if_false]
    cases ended R timeoutMs (outcomes made) <;> rfl
  | succ left ih =>
    rw [exec_requestLoop_succ hwaits,attemptEnd_eq]
    simp only [Attempts.handle,Bool.not_false,Bool.true_and]
    cases hgoes : (outcomes made).goesOn with
    | true =>
      obtain ⟨k,hk,hbefore,hstop,hexec⟩ := ih (attempt + 1) (made + 1) (fun i => script (i+3))
      refine ⟨k + 1,by omega,?_,?_,?_⟩
      · intro j hj
        cases j with
        | zero => exact hgoes
        | succ j =>
          have hgo := hbefore j (by omega)
          rwa [Nat.add_right_comm] at hgo
      · intro hlt
        have hno := hstop (by omega)
        rwa [Nat.add_right_comm] at hno
      · simp only [if_true,hexec]
        rw [Nat.add_right_comm made 1 k,Nat.add_assoc made k 1]
    | false =>
      refine ⟨0,by omega,by omega,fun _ => hgoes,?_⟩
      simp only [Bool.false_eq_true,if_false,Nat.add_zero]
      cases ended R timeoutMs (outcomes made) <;> rfl

end loop

/-- Ending with an outcome returns on a success that can be read, and throws its status when it is
kept. -/
theorem ended_ok {outcome : AttemptOutcome} {parsed : Option Json}
    (h : ended R timeoutMs outcome = .ok parsed) :
    ∃ response, outcome = .ok response ∧ isSuccess response.status ∧ outcome.Kept := by
  cases outcome with
  | error e => cases h
  | ok response =>
    simp only [ended,readBody] at h
    cases ht : response.text with
    | error e =>
      rw [ht] at h
      cases h
    | ok body =>
      rw [ht] at h
      simp only [Except.map] at h
      split at h
      · rename_i hs
        exact ⟨response,rfl,hs,by simp [AttemptOutcome.Kept,ht]⟩
      · cases h

theorem ended_error {outcome : AttemptOutcome} {e : Thrown} (h : ended R timeoutMs outcome = .error e) :
    ∃ a : ZatcaApiError, e = .zatcaApiError a ∧
      (a.statusCode = outcome.status ↔ outcome.Kept) := by
  cases outcome with
  | error e' =>
    obtain ⟨a,ha,hstatus⟩ := normalizeError_statusCode timeoutMs e'
    cases h
    exact ⟨a,ha,by rw [hstatus]; exact Iff.rfl⟩
  | ok response =>
    simp only [ended,readBody] at h
    cases ht : response.text with
    | ok body =>
      rw [ht] at h
      simp only [Except.map] at h
      split at h
      · cases h
      · cases h
        refine ⟨_,rfl,?_⟩
        simp [AttemptOutcome.Kept,AttemptOutcome.status,ht]
    | error e' =>
      obtain ⟨a,ha,hstatus⟩ := normalizeError_statusCode timeoutMs e'
      rw [ht] at h
      cases h
      refine ⟨a,ha,?_⟩
      simp [AttemptOutcome.Kept,AttemptOutcome.status,ht,hstatus]

/-- A request keeps the rules on retries exactly when it is well served. -/
theorem disciplined_iff (R : Runtime) (options : HttpClientOptions) (args : RequestArgs)
    (outcomes : Nat → AttemptOutcome) (script : Nat → ℚ) :
    let run := (request R options args).exec (Attempts.handle outcomes) script 0
    let count := (options.retries.getD DEFAULT_RETRY).count
    Disciplined outcomes count run.1 run.2 ↔ WellServed outcomes count := by
  intro run count
  obtain ⟨k,hk,hbefore,hstop,hexec⟩ := @exec_requestLoop R (options.timeoutMs.getD DEFAULT_TIMEOUT_MS)
    (buildUrl R options.baseUrl args.path args.query)
    { method := args.method
      headers := mergeHeaders options.defaultHeaders args.headers
      body := args.body.map R.stringify } (options.retries.getD DEFAULT_RETRY) outcomes count 0 0 script
  simp only [Nat.zero_add] at hbefore hstop hexec
  have hrun : run = (ended R (options.timeoutMs.getD DEFAULT_TIMEOUT_MS) (outcomes k),k + 1) := hexec
  -- The attempt `k` is the last one, and no attempt behind it is come to.
  have hlast : ¬ (k < count ∧ (outcomes k).goesOn) := by
    rintro ⟨hlt,hgo⟩
    rw [hstop hlt] at hgo
    cases hgo
  have hcome : ∀ i ≤ count, (∀ j < i, (outcomes j).goesOn) → i ≤ k := by
    intro i hi hgo
    by_contra hgt
    exact hlast ⟨by omega,hgo k (by omega)⟩
  rw [hrun]
  constructor
  · intro h i hi hgo
    have hik := hcome i hi hgo
    rcases Nat.lt_or_eq_of_le hik with hlt | rfl
    · rw [if_pos ⟨by omega,hbefore i hlt⟩]
      intro response hresponse
      by_contra hfinal
      have hend := h.final i (by omega) response hresponse (by simpa using hfinal)
      omega
    · rw [if_neg hlast]
      cases hended : ended R (options.timeoutMs.getD DEFAULT_TIMEOUT_MS) (outcomes i) with
      | ok parsed =>
        obtain ⟨-,-,-,hkept⟩ := ended_ok hended
        exact hkept
      | error e =>
        obtain ⟨a,ha,hkept⟩ := ended_error hended
        obtain ⟨a',ha',hstatus⟩ := h.throws e hended
        rw [ha] at ha'
        cases ha'
        exact hkept.1 hstatus
  · intro h
    have hkept := h k hk hbefore
    rw [if_neg hlast] at hkept
    refine ⟨by omega,?_,?_,?_⟩
    · intro i hi response hresponse hfinal
      by_contra hne
      have hlt : i < k := by omega
      have hno := h i (by omega) fun j hj => hbefore j (by omega)
      rw [if_pos ⟨by omega,hbefore i hlt⟩] at hno
      rw [hno response hresponse] at hfinal
      cases hfinal
    · intro parsed hparsed
      obtain ⟨response,hresponse,hs,-⟩ := ended_ok hparsed
      exact ⟨response,hresponse,hs⟩
    · intro e he
      obtain ⟨a,ha,hiff⟩ := ended_error he
      exact ⟨a,ha,hiff.2 hkept⟩

namespace Sample

/-- The body of a refusal breaks off; the second answer is whole. -/
def brokenBody : Nat → AttemptOutcome
  | 0 => .ok ⟨400,[],.error (.typeError "terminated")⟩
  | _ => .ok ⟨200,[],.ok .empty⟩

end Sample

/-- A refused request is sent again. -/
theorem retries_after_refusal : ¬ ∀ (R : Runtime) (options : HttpClientOptions) (args : RequestArgs)
    (outcomes : Nat → AttemptOutcome) (script : Nat → ℚ),
    let run := (request R options args).exec (Attempts.handle outcomes) script 0
    Disciplined outcomes (options.retries.getD DEFAULT_RETRY).count run.1 run.2 := by
  intro h
  have hfinal := (h Sample.runtime { baseUrl := "" } { method := .post, path := "" } Sample.brokenBody
    fun _ => 0).final 0 (by decide) _ rfl (by decide)
  exact absurd hfinal (by decide)

end Zatca
