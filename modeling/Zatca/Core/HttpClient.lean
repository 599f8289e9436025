import Mathlib.Algebra.Group.Int.Defs
import Zatca.Core.Types
import Zatca.Library.JsMap
import Zatca.Library.Program
set_option autoImplicit false
namespace Zatca
open Interaction

/-- The pure text functions of the runtime that the clients and routes call. -/
structure Runtime where
  stringify : Json → String
  /-- `String(value)`. -/
  stringOf : Json → String
  encodeURIComponent : String → String
  urlSearchParams : List (String × String) → String
  toBase64 : String → String
  fromBase64 : String → String
  /-- `createHash("sha256").update(s).digest("base64url")`. -/
  sha256Base64url : String → String

inductive HttpMethod where
  | get
  | post
  deriving DecidableEq, Repr

structure RequestInit where
  method : HttpMethod
  headers : List (String × String)
  body : Option String
  deriving DecidableEq, Repr

/-- What `JSON.parse` makes of the text of a body. -/
inductive BodyText where
  | empty
  | json (value : Json)
  | raw (text : String)
  deriving DecidableEq

structure Response where
  status : Nat
  headers : List (String × String)
  /-- How the promise of `text()` settles. -/
  text : Except Thrown BodyText

inductive HttpOp where
  | fetch (url : String) (init : RequestInit)
  | random
  | sleep (ms : Int)
  deriving DecidableEq, Repr

abbrev HttpOp.Ret : HttpOp → Type
  | .fetch _ _ => Response
  | .random => ℚ
  | .sleep _ => Unit

abbrev HttpClient : Signature := ⟨HttpOp,HttpOp.Ret⟩

structure RetryOptions where
  count : Nat
  baseMs : Nat
  jitterMs : Nat
  deriving DecidableEq, Repr

structure HttpClientOptions where
  baseUrl : String
  timeoutMs : Option Nat := none
  retries : Option RetryOptions := none
  defaultHeaders : List (String × String) := []

/-- The options without the base url, which every client fills in itself. -/
structure HttpOverrides where
  timeoutMs : Option Nat := none
  retries : Option RetryOptions := none
  defaultHeaders : List (String × String) := []

structure RequestArgs where
  method : HttpMethod
  path : String
  headers : List (String × String) := []
  body : Option Json := none
  query : Option (List (String × String)) := none

def DEFAULT_TIMEOUT_MS : Nat := 30000

def DEFAULT_RETRY : RetryOptions := ⟨3,250,250⟩

def SUCCESS_STATUSES : List Nat := [200,202]

def isSuccess (status : Nat) : Bool := SUCCESS_STATUSES.contains status

def isRetryableStatus (status : Nat) : Bool := 500 ≤ status && status < 600

namespace Json

/-- `a.x ?? a.y ?? …` -/
def firstField (names : List String) (j : Json) : Option Json :=
  names.findSome? (fun name => match j.field name with
    | some .null => none
    | v => v)

end Json

def requestIdHeaders : List String := ["x-request-id","x-requestid","request-id","dxaddress"]

def extractRequestId (R : Runtime) (response : Response) (parsed : Option Json) : Option String :=
  match requestIdHeaders.findSome? (fun name =>
      (response.headers.lookup name).filter (fun value => value ≠ "")) with
  | some value => some value
  | none =>
      match parsed.bind (Json.firstField ["requestID","requestId","request_id"]) with
      | some (.str id) => some id
      | some (.num id) => some (R.stringOf (.num id))
      | _ => none

def extractValidationResults (parsed : Option Json) : Option Json :=
  parsed.bind (Json.field "validationResults")

/-- Absent when empty, parsed when JSON, the raw text otherwise. -/
def readBody (response : Response) : Except Thrown (Option Json) :=
  response.text.map fun
    | .empty => none
    | .json value => some value
    | .raw text => some (.str text)

def computeBackoffMs (attempt : Nat) (retries : RetryOptions) (random : ℚ) : Int :=
  retries.baseMs * 2^attempt + (random * retries.jitterMs).floor

def isRetryableError : Thrown → Bool
  | .typeError _ | .abortError _ => true
  | _ => false

/-- `error.message` of an `Error`. -/
def Thrown.message : Thrown → String
  | .zatcaApiError e => e.message
  | .zatcaValidationError m | .zatcaSigningError m | .zatcaCertificateError m
  | .zatcaOnboardingError m | .zatcaStorageError m | .zatcaServerError m _
  | .zatcaRegistryError m _ | .zatcaAuthError m _ | .zatcaCipherError m | .typeError m
  | .abortError m | .error m => m
  | .other _ => ""

def transportError (message : String) : Thrown := .zatcaApiError { message, statusCode := 0 }

/-- What a failure that is not retried surfaces as. -/
def normalizeError (timeoutMs : Nat) : Thrown → Thrown
  | .zatcaApiError e => .zatcaApiError e
  | .abortError _ =>
      transportError ("ZATCA API request timed out after " ++ toString timeoutMs ++ "ms")
  | .other _ => transportError "ZATCA API request failed with unknown error"
  | e => transportError ("ZATCA API network error: " ++ e.message)

def buildUrl (R : Runtime) (baseUrl path : String) (query : Option (List (String × String))) :
    String :=
  match query with
  | none => baseUrl ++ path
  | some params =>
      let qs := R.urlSearchParams params
      if qs ≠ "" then baseUrl ++ path ++ "?" ++ qs else baseUrl ++ path

def requestFailed (R : Runtime) (response : Response) (parsed : Option Json) : Thrown :=
  .zatcaApiError {
    message := "ZATCA API request failed with status " ++ toString response.status
    statusCode := response.status
    validationResults := extractValidationResults parsed
    requestId := extractRequestId R response parsed
    rawResponse := parsed }

/-- `{ ...a, ...b }` -/
def mergeHeaders (a b : List (String × String)) : List (String × String) :=
  b.foldl (fun m h => JsMap.setEntry h.1 h.2 m) a

def backoff (attempt : Nat) (retries : RetryOptions) : Program HttpClient Thrown Unit := do
  let random ← Program.perform (S := HttpClient) .random
  Program.perform (S := HttpClient) (.sleep (computeBackoffMs attempt retries random))

/-- The catch clause of the loop. -/
def requestCatch (timeoutMs : Nat) (retries : RetryOptions) (attempt : Nat) (last : Bool) :
    Thrown → Program HttpClient Thrown (Option (Option Json))
  | .zatcaApiError e => .throw (.zatcaApiError e)
  | error =>
      if !last && isRetryableError error then do
        backoff attempt retries
        return none
      else .throw (normalizeError timeoutMs error)

/-- The body of the loop: the decoded answer, or nothing when the loop goes on. -/
def requestAttempt (R : Runtime) (url : String) (init : RequestInit) (timeoutMs : Nat)
    (retries : RetryOptions) (attempt : Nat) (last : Bool) :
    Program HttpClient Thrown (Option (Option Json)) :=
  Program.tryCatch
    (do
      let response ← Program.perform (S := HttpClient) (.fetch url init)
      if isSuccess response.status then
        let parsed ← Program.ofExcept (readBody response)
        return some parsed
      else if isRetryableStatus response.status && !last then
        backoff attempt retries
        return none
      else
        let parsed ← Program.ofExcept (readBody response)
        Program.throw (requestFailed R response parsed))
    (requestCatch timeoutMs retries attempt last)

/-- `left` more attempts may follow the current one. -/
def requestLoop (R : Runtime) (url : String) (init : RequestInit) (timeoutMs : Nat)
    (retries : RetryOptions) : (left attempt : Nat) → Program HttpClient Thrown (Option Json)
  | 0, attempt => do
      match ← requestAttempt R url init timeoutMs retries attempt true with
      | some parsed => return parsed
      | none => Program.throw (transportError "ZATCA API request failed: retry attempts exhausted")
  | left+1, attempt => do
      match ← requestAttempt R url init timeoutMs retries attempt false with
      | some parsed => return parsed
      | none => requestLoop R url init timeoutMs retries left (attempt+1)

/-- One request through the gateway: the decoded body, absent for an empty 2xx. -/
def request (R : Runtime) (options : HttpClientOptions) (args : RequestArgs) :
    Program HttpClient Thrown (Option Json) :=
  let timeoutMs := options.timeoutMs.getD DEFAULT_TIMEOUT_MS
  let retries := options.retries.getD DEFAULT_RETRY
  let url := buildUrl R options.baseUrl args.path args.query
  let init : RequestInit :=
    { method := args.method
      headers := mergeHeaders options.defaultHeaders args.headers
      body := args.body.map R.stringify }
  requestLoop R url init timeoutMs retries retries.count 0

namespace Sample

/-- Text functions that tell the messages of different documents apart. -/
def runtime : Runtime where
  stringify j := match j.field "invoiceHash" with
    | some (.str hash) => hash
    | _ => "body"
  stringOf _ := "value"
  encodeURIComponent s := s
  urlSearchParams _ := "query"
  toBase64 s := s
  fromBase64 s := s
  sha256Base64url s := s

end Sample
end Zatca
