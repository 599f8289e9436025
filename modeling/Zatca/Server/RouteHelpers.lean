import Zatca.Server.World
set_option autoImplicit false
namespace Zatca
open Interaction

/-- `/^Bearer\s+(\S.*)$/i` on the trimmed header. -/
def extractBearer (authHeader : String) : Option String :=
  let cs := trimChars authHeader.toList
  let scheme := cs.take 6
  let afterScheme := cs.drop 6
  let token := afterScheme.dropWhile isJsSpace
  if scheme.map Char.toLower = "bearer".toList && afterScheme.head?.any isJsSpace &&
      !token.isEmpty && !token.any isLineTerminator then
    some (String.ofList (trimChars token))
  else none

/-- What a header carries that was made for a token without white space at its ends: the token,
unless the expression stops at a line within it. -/
theorem extractBearer_of_trimmed {token : String} (hne : token.toList ≠ [])
    (h : Trim.Trimmed isJsSpace token.toList) : extractBearer ("Bearer " ++ token) =
      if token.toList.any isLineTerminator then none else some token := by
  have hheader : ("Bearer " ++ token).toList = "Bearer ".toList ++ token.toList :=
    String.toList_append
  have htrim : trimChars ("Bearer ".toList ++ token.toList) = "Bearer ".toList ++ token.toList := by
    apply trimChars_of_trimmed
    constructor
    · intro c hc
      cases hc
      decide
    · intro c hc
      rw [List.getLast?_append_of_ne_nil _ hne] at hc
      exact h.2 c hc
  have htake : ("Bearer ".toList ++ token.toList).take 6 = "Bearer".toList := by simp
  have hdrop : ("Bearer ".toList ++ token.toList).drop 6 = ' ' :: token.toList := by simp
  have hafter : (' ' :: token.toList).dropWhile isJsSpace = token.toList := by
    rw [List.dropWhile_cons_of_pos (by decide),Trim.dropWhile_of_head h.1]
  have hspace : isJsSpace ' ' = true := by decide
  unfold extractBearer
  rw [hheader,htrim]
  simp only [htake,hdrop,hafter,trimChars_of_trimmed h,String.ofList_toList]
  cases token.toList.any isLineTerminator <;> simp [hne,hspace]

/-- A header as Fastify hands it over. -/
inductive HeaderValue where
  | single (value : String)
  | repeated (values : List String)
  deriving DecidableEq, Repr

def readIdempotencyKey : Option HeaderValue → Except Thrown (Option String)
  | none => .ok none
  | some (.repeated _) =>
      .error (.zatcaValidationError "Idempotency-Key header must not be repeated.")
  | some (.single raw) =>
      let trimmed := trim raw
      if trimmed = "" then .ok none
      else if utf16Length trimmed > 200 then
        .error (.zatcaValidationError "Idempotency-Key header is too long (max 200 chars).")
      else .ok (some trimmed)

structure Reply where
  statusCode : Nat
  headers : List (String × String) := []
  body : Json
  deriving DecidableEq

def errorBody (name message : String) : Json :=
  .obj [("error",.obj [("name",.str name),("message",.str message)])]

def DEFAULT_IDEMPOTENCY_TTL_MS : Int := 24*60*60*1000

def buildIdempotencyCacheKey (R : Runtime) (tenantRef : Option String)
    (route presentedKey : String) : String :=
  "idem:" ++ tenantRef.getD "_admin_" ++ ":" ++ route ++ ":" ++
    String.ofList ((R.sha256Base64url presentedKey).toList.take 32)

inductive IdempotencySlot where
  /-- The caller is first, or presented no key. -/
  | proceed (cacheKey : Option String)
  /-- The response has been sent: a replay or a conflict. -/
  | answered (reply : Reply)

section helpers
variable (D : Deps)

def idempotencyTtl : Int :=
  if D.idempotencyWindowMs > 0 then D.idempotencyWindowMs else DEFAULT_IDEMPOTENCY_TTL_MS

def replayed (response : CachedResponse) : Reply where
  statusCode := response.statusCode
  headers := JsMap.setEntry "x-idempotent-replay" "true" response.headers
  body := .str response.body

def inFlightConflict : Reply where
  statusCode := 409
  headers := [("retry-after","30")]
  body := errorBody "IdempotencyConflict"
    "An idempotent request with this key is in flight; retry after a short delay."

def beginIdempotency (idemKey : Option String) (tenantRef route : String) :
    Program Server Thrown IdempotencySlot :=
  match idemKey with
  | none => .ret (.proceed none)
  | some presentedKey => do
      let cacheKey := buildIdempotencyCacheKey D.runtime (some tenantRef) route presentedKey
      let result ← Program.perform (S := Server)
        (.idempotency (.begin cacheKey (idempotencyTtl D)))
      match result with
      | .replay response => return .answered (replayed response)
      | .inFlight => return .answered inFlightConflict
      | .claimed => return .proceed (some cacheKey)

def commitIdempotency (cacheKey : Option String) (response : CachedResponse) :
    Program Server Thrown Unit :=
  match cacheKey with
  | none => .ret ()
  | some key => Program.perform (S := Server)
      (.idempotency (.commit key response (idempotencyTtl D)))

def releaseIdempotency (cacheKey : Option String) : Program Server Thrown Unit :=
  match cacheKey with
  | none => .ret ()
  | some key => Program.perform (S := Server) (.idempotency (.release key))

/-- Runs the work of a request under its slot, which a failure releases. -/
def underSlot (cacheKey : Option String) (work : Program Server Thrown Reply) :
    Program Server Thrown Reply :=
  Program.tryCatch work (fun err => do
    releaseIdempotency cacheKey
    Program.throw err)

/-- The bearer of the header, resolved and asserted to belong to the tenant of the path. -/
def verifyTenant (authHeader : Option String) (expectedTenantRef : String) :
    Program Server Thrown ResolvedApiKey :=
  match authHeader with
  | none | some "" => .throw (.zatcaAuthError "Missing Authorization header." 401)
  | some header =>
      match extractBearer header with
      | none => .throw (.zatcaAuthError
          "Authorization header must be of the form 'Bearer <token>'." 401)
      | some bearer => do
          let resolved ← Program.perform (S := Server) (.apiKeys (.resolve bearer))
          match resolved with
          | none => Program.throw (.zatcaAuthError "Invalid or revoked API key." 401)
          | some key =>
              if key.tenantRef ≠ expectedTenantRef then
                Program.throw (.zatcaAuthError "Invalid or revoked API key." 401)
              else return key

structure AuthenticatedTenant where
  actor : AuditActor
  tenant : TenantRecord
  signing : SignerMaterial

def notProductionReady (tenantRef : String) (state : TenantState) : Thrown :=
  .zatcaValidationError ("Tenant '" ++ tenantRef ++ "' is not production-ready (current state: '" ++
    state.literal ++ "').")

def noSigningMaterial (tenantRef : String) : Thrown :=
  .zatcaValidationError ("Tenant '" ++ tenantRef ++
    "' has no signing material persisted; re-run onboarding.")

def authTenant (authHeader : Option String) (expectedTenantRef : String) :
    Program Server Thrown AuthenticatedTenant := do
  let resolved ← verifyTenant authHeader expectedTenantRef
  let tenant ← Program.perform (S := Server) (.tenants (.get expectedTenantRef))
  match tenant with
  | none => Program.throw (unknownTenant expectedTenantRef)
  | some tenant =>
      if tenant.state ≠ .productionReady then
        Program.throw (notProductionReady expectedTenantRef tenant.state)
      else
        let signing ← Program.perform (S := Server) (.vault (.get expectedTenantRef))
        match signing with
        | none => Program.throw (noSigningMaterial expectedTenantRef)
        | some signing =>
            return { actor := .tenant resolved.tenantRef resolved.tokenId, tenant, signing }

/-- The calls by which a request is authenticated. -/
inductive AuthCall (tenantRef : String) : ServerOp → Prop
  | resolve (bearer : String) : AuthCall tenantRef (.apiKeys (.resolve bearer))
  | tenant : AuthCall tenantRef (.tenants (.get tenantRef))
  | vault : AuthCall tenantRef (.vault (.get tenantRef))

theorem verifyTenant_resolves (authHeader : Option String) (tenantRef : String) :
    (verifyTenant authHeader tenantRef).Calls fun o =>
      ∃ bearer, o = ServerOp.apiKeys (.resolve bearer) := by
  unfold verifyTenant
  split
  · trivial
  · trivial
  · split
    · trivial
    · refine Program.calls_bind (Program.calls_perform ⟨_,rfl⟩) fun key => ?_
      cases key with
      | none => trivial
      | some key =>
        simp only
        split
        · trivial
        · trivial

theorem authTenant_reads (authHeader : Option String) (tenantRef : String) :
    (authTenant authHeader tenantRef).Calls (AuthCall tenantRef) := by
  have hverify : (verifyTenant authHeader tenantRef).Calls (AuthCall tenantRef) := by
    apply (verifyTenant_resolves authHeader tenantRef).mono
    intro o ho
    obtain ⟨bearer,rfl⟩ := ho
    exact .resolve bearer
  refine Program.calls_bind hverify fun resolved => ?_
  refine Program.calls_bind (Program.calls_perform .tenant) fun tenant => ?_
  cases tenant with
  | none => trivial
  | some tenant =>
    simp only
    split
    · trivial
    · refine Program.calls_bind (Program.calls_perform .vault) fun signing => ?_
      cases signing with
      | none => trivial
      | some signing => trivial

/-- The cache of the answers. -/
def ServerOp.isIdempotency : ServerOp → Prop
  | .idempotency _ => True
  | _ => False

theorem beginIdempotency_cached (idemKey : Option String) (tenantRef route : String) :
    (beginIdempotency D idemKey tenantRef route).Calls ServerOp.isIdempotency := by
  cases idemKey with
  | none => trivial
  | some key =>
    refine Program.calls_bind (Program.calls_perform trivial) fun result => ?_
    cases result with
    | claimed => trivial
    | inFlight => trivial
    | replay response => trivial

theorem commitIdempotency_cached (cacheKey : Option String) (response : CachedResponse) :
    (commitIdempotency D cacheKey response).Calls ServerOp.isIdempotency := by
  cases cacheKey with
  | none => trivial
  | some key => exact Program.calls_perform trivial

theorem releaseIdempotency_cached (cacheKey : Option String) :
    (releaseIdempotency cacheKey).Calls ServerOp.isIdempotency := by
  cases cacheKey with
  | none => trivial
  | some key => exact Program.calls_perform trivial

end helpers
end Zatca
