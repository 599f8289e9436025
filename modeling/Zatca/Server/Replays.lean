import Zatca.Library.Runs
import Zatca.Server.Requests
set_option autoImplicit false

/-! What a request is answered under an idempotency key that has been used before: the reply of an
earlier request of the same tenant, to the same route and under the same key. -/

namespace Zatca
open Interaction

/-! ### The key of the slot -/

def onboardRouteName : String := "/v1/tenants/:ref/onboard"
def rotateRouteName : String := "/v1/tenants/:ref/credentials/rotate"

/-- The routes that look into the cache. -/
def idempotentRoutes : List String := [invoicesRoute,onboardRouteName,rotateRouteName]

/-- The part of the key that stands for what the header presents. -/
def keyDigest (R : Runtime) (presentedKey : String) : String :=
  String.ofList ((R.sha256Base64url presentedKey).toList.take 32)

/-- No route is the tail of another. -/
theorem idempotentRoutes_getLast : (idempotentRoutes.map fun r => r.toList.getLast?).Nodup := by
  decide

theorem route_eq_of_getLast {r r' : String} (hr : r ∈ idempotentRoutes) (hr' : r' ∈ idempotentRoutes)
    (h : r.toList.getLast? = r'.toList.getLast?) : r = r' :=
  List.inj_on_of_nodup_map idempotentRoutes_getLast hr hr' h

/-- The key of a slot names the tenant, the route and the digest of what was presented, whatever
characters the tenant's reference has. -/
theorem buildIdempotencyCacheKey_inj {R : Runtime} {tenantRef tenantRef' route route' key key' : String}
    (hdigest : ∀ s, 32 ≤ (R.sha256Base64url s).toList.length) (hroute : route ∈ idempotentRoutes)
    (hroute' : route' ∈ idempotentRoutes)
    (h : buildIdempotencyCacheKey R (some tenantRef) route key =
      buildIdempotencyCacheKey R (some tenantRef') route' key') :
    tenantRef = tenantRef' ∧ route = route' ∧ keyDigest R key = keyDigest R key' := by
  have hlength (s : String) : ((R.sha256Base64url s).toList.take 32).length = 32 :=
    List.length_take_of_le (hdigest s)
  have hne {r : String} (hr : r ∈ idempotentRoutes) : r.toList ≠ [] := by
    intro hnil
    revert hr
    rw [String.toList_eq_nil_iff.1 hnil]
    decide
  have hchars := congrArg String.toList h
  simp only [buildIdempotencyCacheKey,Option.getD_some,String.toList_append,String.toList_ofList]
    at hchars
  obtain ⟨hfront,hkeys⟩ := List.append_inj' hchars (by rw [hlength,hlength])
  obtain ⟨hfront,-⟩ := List.append_inj' hfront rfl
  have hlast := congrArg List.getLast? hfront
  rw [List.getLast?_append_of_ne_nil _ (hne hroute),List.getLast?_append_of_ne_nil _ (hne hroute')]
    at hlast
  obtain rfl := route_eq_of_getLast hroute hroute' hlast
  have htenants := List.append_cancel_left (List.append_cancel_right (List.append_cancel_right hfront))
  exact ⟨String.toList_inj.1 htenants,rfl,congrArg String.ofList hkeys⟩

/-- What a request presents to the cache: whose it is, to which route, and the key of its header. -/
def ServerRequest.presented : ServerRequest → Option (String × String × String)
  | .issueInvoice req => present req.tenantRef invoicesRoute req.idempotencyKey
  | .onboard req => present req.tenantRef onboardRouteName req.idempotencyKey
  | .rotate req => present req.tenantRef rotateRouteName req.idempotencyKey
  | _ => none
where
  present (tenantRef route : String) (header : Option HeaderValue) : Option (String × String × String) :=
    match readIdempotencyKey header with
    | .ok (some presentedKey) => some (tenantRef,route,presentedKey)
    | _ => none

def ServerRequest.cacheKey (D : Deps) (r : ServerRequest) : Option String :=
  r.presented.map fun (tenantRef,route,presentedKey) =>
    buildIdempotencyCacheKey D.runtime (some tenantRef) route presentedKey

theorem ServerRequest.presented_route {r : ServerRequest} {tenantRef route key : String}
    (h : r.presented = some (tenantRef,route,key)) : route ∈ idempotentRoutes := by
  have hpresent {t r₀ : String} {header : Option HeaderValue} (hr₀ : r₀ ∈ idempotentRoutes)
      (h : presented.present t r₀ header = some (tenantRef,route,key)) : route ∈ idempotentRoutes := by
    unfold presented.present at h
    split at h
    · cases h
      exact hr₀
    · cases h
  cases r with
  | issueInvoice req => exact hpresent (by decide) h
  | onboard req => exact hpresent (by decide) h
  | rotate req => exact hpresent (by decide) h
  | _ => cases h

/-- Two requests of one tenant to one route, under keys that the cache takes for one. -/
def ServerRequest.Repeats (R : Runtime) (r r' : ServerRequest) : Prop :=
  ∃ tenantRef route key key', r.presented = some (tenantRef,route,key) ∧
    r'.presented = some (tenantRef,route,key') ∧ keyDigest R key = keyDigest R key'

theorem ServerRequest.repeats_of_cacheKey {D : Deps} {r r' : ServerRequest} {slot : String}
    (hdigest : ∀ s, 32 ≤ (D.runtime.sha256Base64url s).toList.length)
    (hr : r.cacheKey D = some slot) (hr' : r'.cacheKey D = some slot) : r.Repeats D.runtime r' := by
  obtain ⟨⟨tenantRef,route,key⟩,hp,rfl⟩ := Option.map_eq_some_iff.1 hr
  obtain ⟨⟨tenantRef',route',key'⟩,hp',hkey⟩ := Option.map_eq_some_iff.1 hr'
  obtain ⟨rfl,rfl,hdigests⟩ := buildIdempotencyCacheKey_inj hdigest (presented_route hp')
    (presented_route hp) hkey
  exact ⟨tenantRef',route',key,key',hp,hp',hdigests.symm⟩

/-! ### A request and its slot -/

/-- What a request has been told by the cache, or has had it keep. -/
inductive CachePhase where
  | unsettled
  | told (response : CachedResponse)
  | kept (response : CachedResponse)

/-- A request uses its own slot only, and not after a replay or after its answer is kept. -/
def cacheTypestate : Typestate Server Thrown (Option String × CachePhase) where
  allows
    | (key,.unsettled), .idempotency o => key = some o.key
    | _, .idempotency _ => False
    | _, _ => True
  next
    | (key,_), .idempotency (.begin _ _), .ok (.replay response) => (key,.told response)
    | (key,_), .idempotency (.commit _ response _), .ok () => (key,.kept response)
    | s, _, _ => s

/-- What the cache keeps of a reply. -/
def captured (D : Deps) (reply : Reply) : CachedResponse where
  statusCode := reply.statusCode
  headers := jsonContentType :: reply.headers
  body := D.runtime.stringify reply.body

/-- A request that was told a response gives it, and one whose response is kept gives the reply that
this captures. -/
def Answers (D : Deps) : Except Thrown Reply → Option String × CachePhase → Prop
  | .ok reply, (_,.told response) => reply = replayed response
  | .ok reply, (_,.kept response) => response = captured D reply
  | _, _ => True

section conformance
variable {D : Deps} {α β : Type} {key : Option String} {Q : Except Thrown β → Option String × CachePhase → Prop}

theorem quiet_allowed {o : ServerOp} (ho : ¬ o.isIdempotency) (s : Option String × CachePhase) :
    cacheTypestate.allows s o ∧ ∀ a, cacheTypestate.next s o a = s := by
  cases o with
  | idempotency o => exact absurd trivial ho
  | _ => exact ⟨by simp [cacheTypestate],fun a => by simp [cacheTypestate]⟩

theorem quiet_conforms {p : Program Server Thrown β} (hp : p.Calls fun o => ¬ ServerOp.isIdempotency o)
    {s : Option String × CachePhase} (hQ : ∀ r, Q r s) : cacheTypestate.Conforms Q p s := by
  refine Program.wp_mono _ ?_ (Typestate.wp_of_calls (hp.mono fun o ho => quiet_allowed ho s))
  rintro r _ rfl
  exact hQ r

theorem conforms_quiet_bind {p : Program Server Thrown α} {f : α → Program Server Thrown β}
    {s : Option String × CachePhase} (hp : p.Calls fun o => ¬ ServerOp.isIdempotency o)
    (hf : ∀ a, cacheTypestate.Conforms Q (f a) s) (he : ∀ e, Q (.error e) s) :
    cacheTypestate.Conforms Q (p.bind f) s := by
  refine (Program.wp_bind _ _ _ _).2 (quiet_conforms hp fun r => ?_)
  cases r with
  | ok a => exact hf a
  | error e => exact he e

/-- The request that the cache sends on does so under its own slot. -/
def Begun (key : Option String) : Except Thrown IdempotencySlot → Option String × CachePhase → Prop
  | .ok (.proceed cacheKey), s => cacheKey = key ∧ s = (key,.unsettled)
  | .ok (.answered reply), s => s = (key,.unsettled) ∨
      ∃ response, s = (key,.told response) ∧ reply = replayed response
  | .error _, s => s = (key,.unsettled)

theorem beginIdempotency_conforms (idemKey : Option String) (tenantRef route : String)
    (hkey : key = idemKey.map (buildIdempotencyCacheKey D.runtime (some tenantRef) route)) :
    cacheTypestate.Conforms (Begun key) (beginIdempotency D idemKey tenantRef route)
      (key,.unsettled) := by
  cases idemKey with
  | none => exact ⟨hkey.symm,rfl⟩
  | some presentedKey =>
    refine Typestate.conforms_perform_bind.2 ⟨hkey,fun a => ?_⟩
    cases a with
    | error e => exact rfl
    | ok result =>
      cases result with
      | claimed => exact ⟨hkey.symm,rfl⟩
      | inFlight => exact .inl rfl
      | replay response => exact .inr ⟨response,rfl,rfl⟩

/-- The work of a request that the cache has sent on. -/
def Worked (D : Deps) (key : Option String) : Except Thrown Reply → Option String × CachePhase → Prop
  | .ok reply, s => s = (key,.unsettled) ∨ s = (key,.kept (captured D reply))
  | .error _, s => s = (key,.unsettled)

/-- What is committed is what the reply captures. -/
theorem commit_conforms (reply : Reply) :
    cacheTypestate.Conforms (Worked D key)
      ((commitIdempotency D key (captured D reply)).bind fun _ => .ret reply) (key,.unsettled) := by
  cases key with
  | none => exact .inl rfl
  | some key =>
    refine Typestate.conforms_perform_bind.2 ⟨rfl,fun a => ?_⟩
    cases a with
    | error e => exact rfl
    | ok u => exact .inr rfl

theorem release_conforms (err : Thrown) {Q : Except Thrown Reply → Option String × CachePhase → Prop}
    (hQ : ∀ e, Q (.error e) (key,.unsettled)) :
    cacheTypestate.Conforms Q ((releaseIdempotency key).bind fun _ => .throw err) (key,.unsettled) := by
  cases key with
  | none => exact hQ err
  | some key =>
    refine Typestate.conforms_perform_bind.2 ⟨rfl,fun a => ?_⟩
    cases a with
    | error e => exact hQ e
    | ok u => exact hQ err

theorem answers_of_worked {r : Except Thrown Reply} {s : Option String × CachePhase}
    (h : Worked D key r s) : Answers D r s := by
  cases r with
  | error e => trivial
  | ok reply =>
    rcases h with rfl | rfl
    · trivial
    · exact rfl

/-- The slot is released when the work fails. -/
theorem slot_conforms {work : Program Server Thrown Reply}
    (hwork : cacheTypestate.Conforms (Worked D key) work (key,.unsettled)) :
    cacheTypestate.Conforms (Answers D)
      (work.tryCatch fun err => (releaseIdempotency key).bind fun _ => .throw err) (key,.unsettled) := by
  refine (Program.wp_tryCatch _ _ _).2 (Program.wp_mono _ ?_ hwork)
  intro r s h
  cases r with
  | ok reply => exact answers_of_worked h
  | error e =>
    obtain rfl : s = (key,.unsettled) := h
    exact release_conforms e fun _ => trivial

/-- After the cache has been asked, the request answers as it says or works under the slot. -/
theorem begun_conforms {idemKey : Option String} {tenantRef route : String}
    (hkey : key = idemKey.map (buildIdempotencyCacheKey D.runtime (some tenantRef) route))
    {f : IdempotencySlot → Program Server Thrown Reply} (hanswered : ∀ reply, f (.answered reply) = .ret reply)
    (hwork : cacheTypestate.Conforms (Answers D) (f (.proceed key)) (key,.unsettled)) :
    cacheTypestate.Conforms (Answers D) ((beginIdempotency D idemKey tenantRef route).bind f)
      (key,.unsettled) := by
  refine (Program.wp_bind _ _ _ _).2 (Program.wp_mono _ ?_ (beginIdempotency_conforms idemKey _ _ hkey))
  intro r s h
  cases r with
  | error e =>
    obtain rfl : s = (key,.unsettled) := h
    trivial
  | ok slot =>
    cases slot with
    | proceed cacheKey =>
      obtain ⟨rfl,rfl⟩ := h
      exact hwork
    | answered reply =>
      simp only [Program.andThen,hanswered]
      rcases h with rfl | ⟨response,rfl,rfl⟩
      · trivial
      · exact rfl

/-! The requests. -/

theorem authTenant_quiet (authHeader : Option String) (tenantRef : String) :
    (authTenant authHeader tenantRef).Calls fun o => ¬ ServerOp.isIdempotency o :=
  (authTenant_reads authHeader tenantRef).mono fun o ho => by
    cases ho with
    | _ => exact id

/-- A request reads the key of its header, and asks the cache under it. -/
theorem reads_conforms {tenantRef route : String} {header : Option HeaderValue}
    {f : IdempotencySlot → Program Server Thrown Reply} (hanswered : ∀ reply, f (.answered reply) = .ret reply)
    (hkey : key = (ServerRequest.presented.present tenantRef route header).map
      fun (tenantRef,route,presentedKey) =>
        buildIdempotencyCacheKey D.runtime (some tenantRef) route presentedKey)
    (hwork : cacheTypestate.Conforms (Answers D) (f (.proceed key)) (key,.unsettled)) :
    cacheTypestate.Conforms (Answers D) ((Program.ofExcept (readIdempotencyKey header)).bind
      fun idemKey => (beginIdempotency D idemKey tenantRef route).bind f) (key,.unsettled) := by
  rw [Program.ofExcept_bind]
  cases hread : readIdempotencyKey header with
  | error e => trivial
  | ok idemKey =>
    refine begun_conforms ?_ hanswered hwork
    rw [hkey,ServerRequest.presented.present,hread]
    cases idemKey with
    | none => rfl
    | some presentedKey => rfl

theorem submitIssued_quiet_cache (auth : AuthenticatedTenant) (issued : Issued) (submit : Bool) :
    (submitIssued D auth issued submit).Calls fun o => ¬ ServerOp.isIdempotency o := by
  cases issued with
  | phase1 invoice =>
    cases submit with
    | false => trivial
    | true => trivial
  | phase2 invoice =>
    cases submit with
    | false => trivial
    | true =>
      refine Program.calls_bind (Program.calls_embed (fun _ => id) _) fun outcome => ?_
      exact Program.calls_bind (Program.calls_perform id) fun _ => trivial

theorem issueWork_conforms (auth : AuthenticatedTenant) (host : HostValues) (input : RawInput)
    (submit : Bool) : cacheTypestate.Conforms (Worked D key) (issueWork D auth host input submit key)
      (key,.unsettled) := by
  rw [issueWork_eq]
  refine conforms_quiet_bind (Program.calls_ofExcept _ _) (fun _ => ?_) fun _ => rfl
  refine conforms_quiet_bind ?_ (fun issued => ?_) fun _ => rfl
  · cases input with
    | invoice input => exact Program.calls_embed (fun _ => id) _
    | unhandled value => trivial
    | nullish => trivial
  refine conforms_quiet_bind (submitIssued_quiet_cache auth issued submit) (fun outcome => ?_) fun _ => rfl
  refine conforms_quiet_bind (Program.calls_perform id) (fun _ => ?_) fun _ => rfl
  exact commit_conforms
    { statusCode := 200, headers := requestIdHeader outcome, body := issuedBody issued outcome }

theorem issueRoute_conforms_cache (req : IssueRequest) :
    cacheTypestate.Conforms (Answers D) (issueRoute D req)
      ((ServerRequest.issueInvoice req).cacheKey D,.unsettled) := by
  refine conforms_quiet_bind (authTenant_quiet _ _) (fun auth => ?_) fun _ => trivial
  refine conforms_quiet_bind (Program.calls_ofExcept _ _) (fun body => ?_) fun _ => trivial
  exact reads_conforms (fun reply => rfl) rfl (slot_conforms (issueWork_conforms _ _ _ _))

theorem onboardWork_conforms (req : OnboardRequest) (auditAction : AuditAction) (actor : AuditActor)
    (body : OnboardBody) : cacheTypestate.Conforms (Worked D key)
      (onboardWork D passThroughUnitOfWork req auditAction actor body key) (key,.unsettled) := by
  refine conforms_quiet_bind (calls_passThrough id) (fun tenant => ?_) fun _ => rfl
  cases tenant with
  | none => exact rfl
  | some tenant =>
    simp only [runOnboardingWith_passThrough]
    refine conforms_quiet_bind (runOnboarding_calls.mono fun o ho => ?_) (fun result => ?_) fun _ => rfl
    · obtain ⟨phase,hcall⟩ := ho
      cases hcall <;> exact id
    · rw [show passThroughUnitOfWork.pool = Signature.Hom.refl Server from rfl,Program.embed_refl]
      exact commit_conforms { statusCode := 200, body := onboardedBody _ result }

theorem onboardInPlace_conforms (req : OnboardRequest) (auditAction : AuditAction) {route : String}
    (hkey : key = (ServerRequest.presented.present req.tenantRef route req.idempotencyKey).map
      fun (tenantRef,route,presentedKey) =>
        buildIdempotencyCacheKey D.runtime (some tenantRef) route presentedKey) :
    cacheTypestate.Conforms (Answers D)
      (onboardInPlace D passThroughUnitOfWork req auditAction route) (key,.unsettled) := by
  refine conforms_quiet_bind (Program.calls_ofExcept _ _) (fun actor => ?_) fun _ => trivial
  refine conforms_quiet_bind (Program.calls_ofExcept _ _) (fun body => ?_) fun _ => trivial
  simp only [show passThroughUnitOfWork.pool = Signature.Hom.refl Server from rfl,
    Program.embed_refl]
  refine reads_conforms (fun reply => rfl) hkey ?_
  have hwork : cacheTypestate.Conforms (Worked D key) _ (key,.unsettled) :=
    onboardWork_conforms req auditAction actor body
  have hslot := slot_conforms hwork
  unfold onboardUnderSlot
  rw [show passThroughUnitOfWork.pool = Signature.Hom.refl Server from rfl]
  simp only [Program.embed_refl]
  exact hslot

theorem onboardWith_conforms_cache (req : OnboardRequest) (auditAction : AuditAction) {route : String}
    (hkey : key = (ServerRequest.presented.present req.tenantRef route req.idempotencyKey).map
      fun (tenantRef,route,presentedKey) =>
        buildIdempotencyCacheKey D.runtime (some tenantRef) route presentedKey) :
    cacheTypestate.Conforms (Answers D) (onboardWith D passThroughUnitOfWork auditAction route req)
      (key,.unsettled) := by
  refine conforms_quiet_bind (calls_passThrough id) (fun acquired => ?_) fun _ => trivial
  cases acquired with
  | false => trivial
  | true =>
    refine (Program.wp_bind _ _ _ _).2 ((Program.wp_tryCatch _ _ _).2 (Program.wp_mono _ ?_
      (onboardInPlace_conforms req auditAction hkey)))
    intro r s h
    cases r with
    | ok reply =>
      -- giving the place back leaves the answer as it is
      exact conforms_quiet_bind (calls_passThrough id) (fun _ => h) fun _ => trivial
    | error e => exact conforms_quiet_bind (calls_passThrough id) (fun _ => trivial) fun _ => trivial

/-- A request that is neither an onboarding nor made for a tenant asks the cache nothing. -/
theorem allows_quiet {header about : Option String} {o : ServerOp}
    (ha : (authority D).allows (.admin header about false) o) : ¬ o.isIdempotency := by
  rcases ha with hslot | ⟨actor,-,hcall⟩
  · cases o with
    | acquireSlot | releaseSlot => exact id
    | _ => cases hslot
  · cases hcall <;> exact id

theorem admin_conforms_cache {header about : Option String} {p : Program Server Thrown Reply}
    (hp : p.Calls ((authority D).allows (.admin header about false))) :
    cacheTypestate.Conforms (Answers D) p (none,.unsettled) :=
  quiet_conforms (hp.mono fun _ => allows_quiet) fun r => by cases r <;> trivial

/-- A tenant's request that asks the cache nothing once it is authenticated. -/
theorem authenticated_conforms_cache {header : Option String} {tenantRef : String}
    {f : AuthenticatedTenant → Program Server Thrown Reply}
    (hf : ∀ auth, (f auth).Calls fun o => ¬ ServerOp.isIdempotency o) :
    cacheTypestate.Conforms (Answers D) ((authTenant header tenantRef).bind f) (none,.unsettled) :=
  conforms_quiet_bind (authTenant_quiet _ _) (fun auth => quiet_conforms (hf auth) fun r => by
    cases r <;> trivial) fun _ => trivial

theorem loadOwnInvoice_quiet (scope : TenantScope) (invoiceId : String) :
    (loadOwnInvoice scope invoiceId).Calls fun o => ¬ ServerOp.isIdempotency o := by
  refine Program.calls_bind (Program.calls_perform id) fun record => ?_
  cases record with
  | none => trivial
  | some record => trivial

theorem cancelRoute_quiet (req : InvoiceRequest) (body : Option CancelBody) :
    cacheTypestate.Conforms (Answers D) (cancelRoute D req body) (none,.unsettled) := by
  refine authenticated_conforms_cache fun auth => ?_
  refine Program.calls_bind (Program.calls_ofExcept _ _) fun body => ?_
  refine Program.calls_bind (loadOwnInvoice_quiet _ _) fun record => ?_
  split
  · trivial
  · refine Program.calls_bind (Program.calls_tryCatch ?_ fun err => ?_) fun result => ?_
    · refine Program.calls_bind (Program.calls_embed (fun _ => id) _) fun response => ?_
      exact Program.calls_bind (Program.calls_perform id) fun _ => trivial
    · exact Program.calls_bind (Program.calls_perform id) fun _ => trivial
    · exact Program.calls_bind (Program.calls_perform id) fun _ => trivial

theorem serverRequest_conforms_cache (D : Deps) (r : ServerRequest) :
    cacheTypestate.Conforms (Answers D) (r.program D) (r.cacheKey D,.unsettled) := by
  cases r with
  | createTenant header body => exact admin_conforms_cache (createTenantRoute_calls body)
  | getTenant header tenantRef => exact admin_conforms_cache getTenantRoute_calls
  | patchTenant header tenantRef body => exact admin_conforms_cache (patchTenantRoute_calls body)
  | deleteTenant header tenantRef => exact admin_conforms_cache deleteTenantRoute_calls
  | issueKey header tenantRef body => exact admin_conforms_cache (issueKeyRoute_calls body)
  | revokeKey header tenantRef tokenId => exact admin_conforms_cache (revokeKeyRoute_calls tokenId)
  | tenantStatus header tenantRef => exact admin_conforms_cache tenantStatusRoute_calls
  | unlock header tenantRef body => exact admin_conforms_cache (unlockRoute_calls body)
  | onboard req => exact onboardWith_conforms_cache req _ rfl
  | rotate req => exact onboardWith_conforms_cache req _ rfl
  | issueInvoice req => exact issueRoute_conforms_cache req
  | getInvoice req =>
    exact authenticated_conforms_cache fun auth =>
      Program.calls_bind (loadOwnInvoice_quiet _ _) fun record => trivial
  | cancelInvoice req body => exact cancelRoute_quiet req body
  | invoiceStatus req query =>
    refine authenticated_conforms_cache fun auth => ?_
    refine Program.calls_bind (loadOwnInvoice_quiet _ _) fun record => ?_
    refine Program.calls_bind (Program.calls_ofExcept _ _) fun query => ?_
    split
    · trivial
    · exact Program.calls_bind (Program.calls_embed (fun _ => id) _) fun _ => trivial
  | checkCompliance req =>
    refine authenticated_conforms_cache fun auth => ?_
    refine Program.calls_bind (loadOwnInvoice_quiet _ _) fun record => ?_
    exact Program.calls_bind (Program.calls_embed (fun _ => id) _) fun _ => trivial

end conformance

/-! ### Runs -/

/-- The cache keeps the response under the key. -/
inductive KeepsResponse (key : String) (response : CachedResponse) : ServerEvent → Prop
  | mk {q : Nat} {ttlMs : Int} {w w' : World} :
      KeepsResponse key response ⟨q,.idempotency (.commit key response ttlMs),.ok (),w,w'⟩

/-- The cache tells a request the response. -/
inductive TellsResponse (key : String) (response : CachedResponse) : ServerEvent → Prop
  | mk {q : Nat} {ttlMs : Int} {w w' : World} : TellsResponse key response
      ⟨q,.idempotency (.begin key ttlMs),.ok (.replay response),w,w'⟩

structure ReplayInv (D : Deps) (requests : Nat → ServerRequest) (c : ServerConfig Reply)
    (t : Nat → Option String × CachePhase) : Prop where
  keys : ∀ q, (t q).1 = (requests q).cacheKey D
  entries : ∀ key response expires,
    c.shared.idempotency.entries.get key = some (.committed response expires) →
      ∃ e ∈ c.history, KeepsResponse key response e
  kept : ∀ e ∈ c.history, ∀ key response, KeepsResponse key response e →
    t e.pid = (some key,.kept response)
  told : ∀ after e before, c.history = after ++ e :: before → ∀ key response,
    TellsResponse key response e → t e.pid = (some key,.told response) ∧
      ∃ e' ∈ before, KeepsResponse key response e'

section store
variable {st : MemoryIdempotencyStore} {now : Date} {key : String} {response : CachedResponse}
  {expires : Int}

theorem committed_begin {key' : String} {ttlMs : Int}
    (h : (st.begin now key' ttlMs).2.entries.get key = some (.committed response expires)) :
    st.entries.get key = some (.committed response expires) := by
  rcases MemoryIdempotencyStore.begin_cases st now key' ttlMs with ⟨hclaimed,-,hslot,hother⟩ | ⟨-,-,hsame⟩
  · by_cases hkey : key = key'
    · subst hkey
      unfold MemoryIdempotencyStore.begin at h hclaimed
      split at h
      · simp only [JsMap.get_set_self] at h
        cases h
      · rename_i hfresh
        rw [hfresh] at hclaimed
        cases hclaimed
      · rename_i hfresh
        rw [hfresh] at hclaimed
        cases hclaimed
    · rw [hother key hkey] at h
      exact h
  · rw [hsame] at h
    exact h

theorem committed_of_replay {ttlMs : Int} (h : (st.begin now key ttlMs).1 = .replay response) :
    ∃ expires, st.entries.get key = some (.committed response expires) := by
  unfold MemoryIdempotencyStore.begin MemoryIdempotencyStore.readFresh at h
  cases hentry : st.entries.get key with
  | none =>
    simp only [hentry] at h
    cases h
  | some entry =>
    simp only [hentry] at h
    by_cases hexpired : entry.expiresAt ≤ now.getTime
    · simp only [hexpired,if_true] at h
      cases h
    · simp only [hexpired,if_false] at h
      cases entry with
      | inFlight e => cases h
      | committed r e =>
        cases h
        exact ⟨e,rfl⟩

/-- What is committed after a call was committed before it, or is by it. -/
theorem committed_handle {o : IdempotencyOp}
    (h : (MemoryIdempotencyStore.handle o now st).2.entries.get key =
      some (.committed response expires)) :
    st.entries.get key = some (.committed response expires) ∨
      ∃ ttlMs, (⟨o,(MemoryIdempotencyStore.handle o now st).1⟩ : Answered IdempotencyStore Thrown) =
        ⟨.commit key response ttlMs,.ok ()⟩ := by
  cases o with
  | begin key' ttlMs => exact .inl (committed_begin h)
  | commit key' response' ttlMs =>
    cases hentry : st.entries.get key' with
    | none =>
      simp only [MemoryIdempotencyStore.handle,MemoryIdempotencyStore.commit,hentry] at h
      exact .inl h
    | some entry =>
      have hhandle : MemoryIdempotencyStore.handle (.commit key' response' ttlMs) now st = (.ok (),
          ⟨st.entries.set key' (.committed response' (now.getTime + ttlMs))⟩) := by
        simp [MemoryIdempotencyStore.handle,MemoryIdempotencyStore.commit,hentry]
      rw [hhandle] at h ⊢
      simp only [JsMap.get_set] at h
      split at h
      · rename_i hkey
        subst hkey
        cases h
        exact .inr ⟨ttlMs,rfl⟩
      · exact .inl h
  | release key' =>
    simp only [MemoryIdempotencyStore.handle,MemoryIdempotencyStore.release,JsMap.get_delete] at h
    split at h
    · cases h
    · exact .inl h

end store

section runs
variable {D : Deps} {requests : Nat → ServerRequest} {c : ServerConfig Reply}
  {t : Nat → Option String × CachePhase} {p : Nat} {o : ServerOp}
  {k : Except Thrown (ServerOp.Ret o) → Program Server Thrown Reply} {x : Choice}

theorem entries_step (h : ReplayInv D requests c t) (key : String) (response : CachedResponse)
    (expires : Int) (hentry : (World.handle D o x c.shared).2.idempotency.entries.get key =
      some (.committed response expires)) :
    ∃ e ∈ (⟨p,o,(World.handle D o x c.shared).1,c.shared,(World.handle D o x c.shared).2⟩ :
      ServerEvent) :: c.history, KeepsResponse key response e := by
  have hold (hbefore : c.shared.idempotency.entries.get key = some (.committed response expires)) :
      ∃ e ∈ (⟨p,o,(World.handle D o x c.shared).1,c.shared,(World.handle D o x c.shared).2⟩ :
        ServerEvent) :: c.history, KeepsResponse key response e := by
    obtain ⟨e,he,hkeeps⟩ := h.entries key response expires hbefore
    exact ⟨e,List.mem_cons_of_mem _ he,hkeeps⟩
  by_cases ho : o.store = some .idempotency
  · cases o with
    | idempotency o =>
      rcases World.handle_cases D (.idempotency o) x c.shared with ⟨e,-,-,hw⟩ | hw
      · rw [hw] at hentry
        exact hold hentry
      · rw [hw] at hentry ⊢
        rcases committed_handle hentry with hbefore | ⟨ttlMs,hcommit⟩
        · rw [← hw]
          exact hold hbefore
        · obtain ⟨rfl,hanswer⟩ := Sigma.mk.inj hcommit
          refine ⟨_,List.mem_cons_self,?_⟩
          simp only [World.serve,eq_of_heq hanswer]
          exact .mk
    | _ => cases ho
  · rw [(World.handle_frame D o x c.shared).idempotency ho] at hentry
    exact hold hentry

theorem cacheTypestate_next_key (s : Option String × CachePhase) (o : ServerOp)
    (a : Except Thrown (ServerOp.Ret o)) : (cacheTypestate.next s o a).1 = s.1 := by
  obtain ⟨key,phase⟩ := s
  simp only [cacheTypestate]
  split <;> simp_all

/-- A request calls the cache while it has no answer, on its own slot. -/
theorem own_slot {o : IdempotencyOp} {s : Option String × CachePhase}
    (ha : cacheTypestate.allows s (.idempotency o)) : s = (some o.key,.unsettled) := by
  obtain ⟨own,phase⟩ := s
  cases phase with
  | unsettled =>
    obtain rfl : own = some o.key := ha
    rfl
  | told response => cases ha
  | kept response => cases ha

/-- A request that has its answer leaves the cache alone. -/
theorem settled_next {key : Option String} {phase : CachePhase} (hphase : phase ≠ .unsettled)
    (ha : cacheTypestate.allows (key,phase) o) (a : Except Thrown (ServerOp.Ret o)) :
    cacheTypestate.next (key,phase) o a = (key,phase) := by
  refine (quiet_allowed ?_ (key,phase)).2 a
  intro ho
  cases o with
  | idempotency o => exact hphase (congrArg Prod.snd (own_slot ha))
  | _ => exact ho

theorem settled_update {q : Nat} {key : String} {phase : CachePhase} (hphase : phase ≠ .unsettled)
    (ha : cacheTypestate.allows (t p) o) (a : Except Thrown (ServerOp.Ret o))
    (hq : t q = (some key,phase)) :
    Function.update t p (cacheTypestate.next (t p) o a) q = (some key,phase) := by
  rw [Function.update_apply]
  split
  · rename_i hqp
    subst hqp
    rw [hq] at ha ⊢
    exact settled_next hphase ha a
  · exact hq

/-- What the cache tells a request is in the store. -/
theorem committed_of_tells {key : String} {response : CachedResponse}
    (h : TellsResponse key response
      ⟨p,o,(World.handle D o x c.shared).1,c.shared,(World.handle D o x c.shared).2⟩) :
    ∃ expires, c.shared.idempotency.entries.get key = some (.committed response expires) := by
  generalize hanswer : (World.handle D o x c.shared).1 = a at h
  cases h with
  | @mk _ ttlMs =>
    rcases World.handle_cases D (.idempotency (.begin key ttlMs)) x c.shared with ⟨e,-,-,hw⟩ | hw
    · rw [hw] at hanswer
      cases hanswer
    · rw [hw] at hanswer
      simp only [World.serve,MemoryIdempotencyStore.handle,Except.ok.injEq] at hanswer
      exact committed_of_replay hanswer

theorem replayInv_step (h : ReplayInv D requests c t) (ha : cacheTypestate.allows (t p) o) :
    ReplayInv D requests (c.after (World.handle D) p o k x)
      (Function.update t p (cacheTypestate.next (t p) o (World.handle D o x c.shared).1)) := by
  constructor
  · intro q
    rw [Function.update_apply]
    split
    · rename_i hq
      subst hq
      rw [cacheTypestate_next_key]
      exact h.keys q
    · exact h.keys q
  · exact entries_step h
  · intro e he key response hkeeps
    rcases List.mem_cons.1 he with rfl | he
    · generalize (World.handle D o x c.shared).1 = a at hkeeps
      cases hkeeps with
      | mk =>
        rw [Function.update_self,own_slot ha]
        rfl
    · exact settled_update (by simp) ha _ (h.kept e he key response hkeeps)
  · intro after e before he key response htells
    rcases List.cons_eq_append_iff.1 he with ⟨rfl,hcons⟩ | ⟨after',rfl,hrest⟩
    · obtain ⟨rfl,rfl⟩ := List.cons.inj hcons
      obtain ⟨expires,hentry⟩ := committed_of_tells htells
      refine ⟨?_,h.entries key response expires hentry⟩
      generalize (World.handle D o x c.shared).1 = a at htells
      cases htells with
      | mk =>
        rw [Function.update_self,own_slot ha]
        rfl
    · obtain ⟨hphase,e',he',hkeeps⟩ := h.told after' e before hrest key response htells
      exact ⟨settled_update (by simp) ha _ hphase,e',he',hkeeps⟩

end runs

/-- Whatever the requests are and however they interleave: a response that the cache tells a request
was kept before that by a request of the same tenant, to the same route and under the same key; the
one answers with it and, if it comes to an end, the other has answered with what it captures. -/
theorem replays_repeat (D : Deps) (w₀ : World) (requests : Nat → ServerRequest)
    (c : ServerConfig Reply) (hempty : w₀.idempotency = .empty)
    (hdigest : ∀ s, 32 ≤ (D.runtime.sha256Base64url s).toList.length)
    (hc : Reach (World.handle D) (fun _ _ _ => True) (startRequests D w₀ requests) c)
    (after : List ServerEvent) (e : ServerEvent) (before : List ServerEvent)
    (he : c.history = after ++ e :: before) (key : String) (response : CachedResponse)
    (htells : TellsResponse key response e) :
    ∃ e' ∈ before, KeepsResponse key response e' ∧
      (requests e'.pid).Repeats D.runtime (requests e.pid) ∧
      (∀ reply, c.procs e.pid = .ret reply → reply = replayed response) ∧
      ∀ reply, c.procs e'.pid = .ret reply → response = captured D reply := by
  obtain ⟨t,hinv,hconforms⟩ := @Typestate.reach_invariant _ _ _ _ _ _ cacheTypestate (Answers D) _ _ _
    _ (ReplayInv D requests) (fun q => ((requests q).cacheKey D,.unsettled))
    { keys := fun q => rfl
      entries := fun key response expires hentry => by
        simp [startRequests,hempty,MemoryIdempotencyStore.empty] at hentry
      kept := fun e he => by simp [startRequests] at he
      told := fun after e before he => by simp [startRequests] at he }
    (fun q => serverRequest_conforms_cache D (requests q))
    (fun c t p x o k h _ _ ha _ => replayInv_step h ha) hc
  obtain ⟨htold,e',he',hkeeps⟩ := hinv.told after e before he key response htells
  have hmem : e' ∈ c.history := by
    rw [he]
    exact List.mem_append_right _ (List.mem_cons_of_mem _ he')
  have hkept := hinv.kept e' hmem key response hkeeps
  have hkey := hinv.keys e.pid
  have hkey' := hinv.keys e'.pid
  rw [htold] at hkey
  rw [hkept] at hkey'
  refine ⟨e',he',hkeeps,ServerRequest.repeats_of_cacheKey hdigest hkey'.symm hkey.symm,?_,?_⟩
  · intro reply hreply
    have hanswers := hconforms e.pid
    rw [hreply,htold] at hanswers
    exact hanswers
  · intro reply hreply
    have hanswers := hconforms e'.pid
    rw [hreply,hkept] at hanswers
    exact hanswers

namespace Sample

/-- A digest as long as the one of the source, and a window of a day. -/
def digestingDeps : Deps :=
  { deps with
    runtime := { runtime with
      sha256Base64url := fun s => s ++ "ABCDEFGHIJKLMNOPQRSTUVWXYZ0123456789_-abcde" }
    idempotencyWindowMs := 86400000 }

/-- The sale is issued, and asked for once more under its key. -/
def saleTwice (_ : Nat) : ServerRequest :=
  .issueInvoice { issueRequest (some (.single "sale-1")) with
    body := some { input := .invoice invoice, submit := some false } }

def saleTwiceRun : List (Nat × Choice) :=
  (List.replicate 9 0 ++ List.replicate 4 1).map fun p => (p,accepted)

end Sample

set_option maxRecDepth 20000 in
theorem replays_repeat_of_a_sale : ∃ c e before key response e',
    (startRequests Sample.digestingDeps Sample.world Sample.saleTwice).run
      (World.handle Sample.digestingDeps) (fun _ _ _ => True) Sample.saleTwiceRun = some c ∧
    c.history = [] ++ e :: before ∧ TellsResponse key response e ∧ e' ∈ before ∧
    KeepsResponse key response e' := by
  have hsample : ∃ c : ServerConfig Reply,
      (startRequests Sample.digestingDeps Sample.world Sample.saleTwice).run
        (World.handle Sample.digestingDeps) (fun _ _ _ => True) Sample.saleTwiceRun = some c ∧
      ∃ (e : ServerEvent) (before : List ServerEvent), c.history = [] ++ e :: before ∧
        ∃ key ttlMs response, (⟨e.op,e.result⟩ : Answered Server Thrown) =
          ⟨.idempotency (.begin key ttlMs),.ok (.replay response)⟩ := by
    refine ⟨_,rfl,?_⟩
    refine ⟨_,_,rfl,?_⟩
    exact ⟨_,_,_,rfl⟩
  obtain ⟨c,hrun,e,before,he,key,ttlMs,response,hanswer⟩ := hsample
  have htells : TellsResponse key response e := by
    obtain ⟨pid,op,result,before,after⟩ := e
    cases hanswer
    exact .mk
  obtain ⟨e',he',hkeeps,-⟩ := replays_repeat Sample.digestingDeps Sample.world Sample.saleTwice c rfl
    (fun s => by simp [Sample.digestingDeps]) (Reach.of_run Sample.saleTwiceRun .init hrun) [] e before
    he key response htells
  exact ⟨c,e,before,key,response,e',hrun,he,htells,he',hkeeps⟩

end Zatca
