import Zatca.Core.HttpClient
set_option autoImplicit false
namespace Zatca
open Interaction

/-! The loop of a request, attempt by attempt, on any host. -/

inductive AttemptEnd where
  | answered (parsed : Option Json)
  | again
  | failed (e : Thrown)

/-- What the loop does with an error of its body. -/
def caught (timeoutMs : Nat) (last : Bool) (e : Thrown) : AttemptEnd :=
  if !last && isRetryableError e then .again else .failed (normalizeError timeoutMs e)

/-- What the loop does with what came back. -/
def attemptEnd (R : Runtime) (timeoutMs : Nat) (last : Bool) : Except Thrown Response → AttemptEnd
  | .error e => caught timeoutMs last e
  | .ok response =>
      if isSuccess response.status then
        match readBody response with
        | .ok parsed => .answered parsed
        | .error e => caught timeoutMs last e
      else if isRetryableStatus response.status && !last then .again
      else match readBody response with
        | .ok parsed => .failed (requestFailed R response parsed)
        | .error e => caught timeoutMs last e

theorem normalizeError_eq (timeoutMs : Nat) (e : Thrown) :
    ∃ a, normalizeError timeoutMs e = .zatcaApiError a := by
  cases e <;> exact ⟨_,rfl⟩

/-- Whatever the client gives up with is a `ZatcaApiError`. -/
theorem attemptEnd_failed {R : Runtime} {timeoutMs : Nat} {last : Bool}
    {r : Except Thrown Response} {e : Thrown} (h : attemptEnd R timeoutMs last r = .failed e) :
    ∃ a, e = .zatcaApiError a := by
  have hcaught : ∀ e', caught timeoutMs last e' = .failed e → ∃ a, e = .zatcaApiError a := by
    intro e' he'
    unfold caught at he'
    split at he'
    · cases he'
    · cases he'
      exact normalizeError_eq timeoutMs e'
  cases r with
  | error e' => exact hcaught e' h
  | ok response =>
    simp only [attemptEnd] at h
    split at h
    · split at h
      · cases h
      · exact hcaught _ h
    · split at h
      · cases h
      · split at h
        · cases h
          exact ⟨_,rfl⟩
        · exact hcaught _ h

/-- Drawing a random number and sleeping succeed and leave the host as it is. -/
structure Waits {σ χ : Type} (h : Handler HttpClient Thrown σ χ) : Prop where
  random : ∀ c s, ∃ q, h .random c s = (.ok q,s)
  sleep : ∀ ms c s, h (.sleep ms) c s = (.ok (),s)

def AttemptEnd.result {σ : Type} (s : σ) : AttemptEnd → Except Thrown (Option (Option Json)) × σ
  | answered parsed => (.ok (some parsed),s)
  | again => (.ok none,s)
  | failed e => (.error e,s)

def AttemptEnd.rest {χ : Type} (script : Nat → χ) : AttemptEnd → Nat → χ
  | again => fun i => script (i+3)
  | _ => fun i => script (i+1)

section loop
variable {R : Runtime} {url : String} {init : RequestInit} {timeoutMs : Nat}
  {retries : RetryOptions} {σ χ : Type} {h : Handler HttpClient Thrown σ χ} (hw : Waits h)
  {script : Nat → χ} {s : σ}
include hw

theorem exec_backoff (attempt : Nat) :
    (backoff attempt retries).exec h script s = (.ok (),s) ∧
      (backoff attempt retries).rest h script s = fun i => script (i+2) := by
  obtain ⟨q,hq⟩ := hw.random (script 0) s
  have hsleep := hw.sleep (computeBackoffMs attempt retries q) (script 1) s
  unfold backoff
  simp only [Program.perform,Program.bind_eq,Program.call_bind,Program.exec_call,Program.rest_call,hq]
  exact ⟨by simp [Program.ofExcept,Program.exec_call,hsleep],
    by simp [Program.ofExcept,Program.rest_call,hsleep]⟩

theorem exec_requestCatch (attempt : Nat) (last : Bool) (e : Thrown) :
    (requestCatch timeoutMs retries attempt last e).exec h script s =
        (caught timeoutMs last e).result s ∧
      (requestCatch timeoutMs retries attempt last e).rest h script s =
        match caught timeoutMs last e with
        | .again => fun i => script (i+2)
        | _ => script := by
  have hcatch : requestCatch timeoutMs retries attempt last e =
      if !last && isRetryableError e then (backoff attempt retries).bind (fun _ => .ret none)
      else .throw (normalizeError timeoutMs e) := by
    cases e <;> simp [requestCatch,isRetryableError,normalizeError]
  rw [hcatch,caught]
  split
  · simp [Program.exec_bind,Program.rest_bind,exec_backoff hw,AttemptEnd.result]
  · simp [AttemptEnd.result]

theorem exec_requestAttempt (attempt : Nat) (last : Bool) :
    (requestAttempt R url init timeoutMs retries attempt last).exec h script s =
        (attemptEnd R timeoutMs last (h (.fetch url init) (script 0) s).1).result
          (h (.fetch url init) (script 0) s).2 ∧
      (requestAttempt R url init timeoutMs retries attempt last).rest h script s =
        (attemptEnd R timeoutMs last (h (.fetch url init) (script 0) s).1).rest
          script := by
  unfold requestAttempt
  simp only [Program.perform,Program.bind_eq,Program.call_bind,Program.tryCatch,Program.exec_call,
    Program.rest_call]
  generalize h (.fetch url init) (script 0) s = a
  obtain ⟨r,s'⟩ := a
  have hcaught (e : Thrown) : (requestCatch timeoutMs retries attempt last e).exec h
        (fun i => script (i+1)) s' = (caught timeoutMs last e).result s' ∧
      (requestCatch timeoutMs retries attempt last e).rest h (fun i => script (i+1)) s' =
        match caught timeoutMs last e with
        | .again => fun i => script (i+2+1)
        | _ => fun i => script (i+1) := exec_requestCatch hw attempt last e
  have hrest (e : Thrown) : (match caught timeoutMs last e with
      | .again => fun i => script (i+2+1)
      | _ => fun i => script (i+1)) = (caught timeoutMs last e).rest script := by
    cases caught timeoutMs last e <;> rfl
  cases r with
  | error e =>
    refine ⟨(hcaught e).1,(hcaught e).2.trans (hrest e)⟩
  | ok response =>
    simp only [Program.ofExcept,Program.ret_bind,Program.exec_tryCatch,Program.rest_tryCatch,
      attemptEnd]
    cases hs : isSuccess response.status with
    | true =>
      cases hb : readBody response with
      | ok parsed => exact ⟨rfl,rfl⟩
      | error e => exact ⟨(hcaught e).1,(hcaught e).2.trans (hrest e)⟩
    | false =>
      cases hr : isRetryableStatus response.status && !last with
      | true =>
        have hback : (backoff attempt retries).exec h (fun i => script (i+1)) s' = (.ok (),s') ∧
            (backoff attempt retries).rest h (fun i => script (i+1)) s' = fun i => script (i+2+1) :=
          exec_backoff hw attempt
        simp [Program.exec_bind,Program.rest_bind,hback,AttemptEnd.result,AttemptEnd.rest]
      | false =>
        cases hb : readBody response with
        | ok parsed => exact ⟨rfl,rfl⟩
        | error e => exact ⟨(hcaught e).1,(hcaught e).2.trans (hrest e)⟩

theorem exec_requestLoop_zero (attempt : Nat) :
    (requestLoop R url init timeoutMs retries 0 attempt).exec h script s =
      match attemptEnd R timeoutMs true (h (.fetch url init) (script 0) s).1 with
      | .answered parsed => (.ok parsed,(h (.fetch url init) (script 0) s).2)
      | .again => (.error (transportError "ZATCA API request failed: retry attempts exhausted"),
          (h (.fetch url init) (script 0) s).2)
      | .failed e => (.error e,(h (.fetch url init) (script 0) s).2) := by
  simp only [requestLoop,Program.bind_eq,Program.exec_bind,exec_requestAttempt hw]
  cases attemptEnd R timeoutMs true (h (.fetch url init) (script 0) s).1 <;> rfl

theorem exec_requestLoop_succ (left attempt : Nat) :
    (requestLoop R url init timeoutMs retries (left+1) attempt).exec h script s =
      match attemptEnd R timeoutMs false (h (.fetch url init) (script 0) s).1 with
      | .answered parsed => (.ok parsed,(h (.fetch url init) (script 0) s).2)
      | .again => (requestLoop R url init timeoutMs retries left (attempt+1)).exec h
          (fun i => script (i+3)) (h (.fetch url init) (script 0) s).2
      | .failed e => (.error e,(h (.fetch url init) (script 0) s).2) := by
  simp only [requestLoop,Program.bind_eq,Program.exec_bind,exec_requestAttempt hw]
  cases attemptEnd R timeoutMs false (h (.fetch url init) (script 0) s).1 <;> rfl

end loop

end Zatca
