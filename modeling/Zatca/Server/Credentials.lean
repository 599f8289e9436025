import Zatca.Server.InvoiceRoutes
import Zatca.Server.RunOnboarding
set_option autoImplicit false

/-! What an onboarding that fails leaves of the tenant's credentials. The last writes are not one:
what comes before the one that fails stays. -/

namespace Zatca
open Interaction

/-- The material in the vault and the expiry on the record. -/
def credentials (D : Deps) (tenantRef : String) (w : World) :
    Except Thrown (Option SignerMaterial) × Option Date :=
  (w.vault.get D.cipher tenantRef,
    (w.tenants.get tenantRef).bind TenantRecord.productionCertificateExpiresAt)

namespace ServerOp

def writesCredentials : ServerOp → Bool
  | .vault (.put _ _) | .vault (.delete _) | .tenants (.create _) | .tenants (.softDelete _)
  | .tenants (.setProductionExpiry _ _) => true
  | _ => false

/-- The writes of the final batch that come after the vault's. -/
def isLateWrite : ServerOp → Bool
  | .tenants (.setProductionExpiry _ _) | .tenants (.setState _ .productionReady _) => true
  | .audit input => input.result = .ok
  | _ => false

end ServerOp

section frame
variable {D : Deps} {o : ServerOp} {x : Choice} {w : World} {tenantRef : String} {α : Type}
  {script : Nat → Choice}

/-- A record that replaces one with the same expiry. -/
theorem expiry_set {st : MemoryTenantStore} {ref : String} {r r' : TenantRecord}
    (hg : st.get ref = some r) (hd : r'.deletedAt = r.deletedAt)
    (he : r'.productionCertificateExpiresAt = r.productionCertificateExpiresAt) :
    ((MemoryTenantStore.mk (st.records.set ref r')).get tenantRef).bind
        TenantRecord.productionCertificateExpiresAt =
      (st.get tenantRef).bind TenantRecord.productionCertificateExpiresAt := by
  by_cases hr : tenantRef = ref
  · subst hr
    have hd' : r'.deletedAt = none := hd.trans (MemoryTenantStore.get_eq_some.1 hg).2
    rw [MemoryTenantStore.get_set_self st tenantRef hd',hg]
    exact he
  · rw [MemoryTenantStore.get_set_ne st r' hr]

theorem TenantRecord.transition_eq {r r' : TenantRecord} {ref : String} {next : TenantState}
    {options : SetStateOptions} {now : Date} (h : r.transition ref next options now = .ok r') :
    r' = r.withState next options now := by
  unfold TenantRecord.transition at h
  split at h
  · cases h
    rfl
  · split at h
    · cases h
      rfl
    · cases h

theorem handle_credentials (h : o.writesCredentials = false) :
    credentials D tenantRef (World.handle D o x w).2 = credentials D tenantRef w := by
  have hframe := World.handle_frame D o x w
  cases o with
  | vault o =>
    have ht := hframe.tenants nofun
    cases o with
    | put ref material => cases h
    | delete ref => cases h
    | get ref =>
      rcases World.handle_cases D (.vault (.get ref)) x w with ⟨e,-,-,hw⟩ | hw
      · rw [hw]
        rfl
      · rw [hw]
        rfl
  | tenants o =>
    have hv := hframe.vault nofun
    rcases World.handle_tenants_cases D o x w with ⟨e,hw⟩ | ⟨ref,-,hw⟩ | ⟨a,ref,r,hwrite,hw⟩
    · rw [hw]
      rfl
    · rw [hw]
      rfl
    · rw [hw]
      refine Prod.ext rfl ?_
      cases hwrite with
      | create input _ => cases h
      | softDelete _ _ => cases h
      | expiry _ _ => cases h
      | patch patch hg => exact expiry_set hg rfl rfl
      | progress scenario passed hg => exact expiry_set hg rfl rfl
      | setState next options hg ht =>
        cases TenantRecord.transition_eq ht
        exact expiry_set hg rfl rfl
  | _ =>
    unfold credentials
    rw [hframe.vault (by simp [ServerOp.store]),hframe.tenants (by simp [ServerOp.store])]

theorem exec_credentials {p : Program Server Thrown α}
    (hp : p.Calls (fun o => ServerOp.writesCredentials o = false)) :
    credentials D tenantRef (p.exec (World.handle D) script w).2 = credentials D tenantRef w :=
  Program.exec_keeps (credentials D tenantRef) (fun _ _ _ ho => handle_credentials ho) hp script w

theorem handle_put (material : SignerMaterial) :
    (∃ e w', World.handle D (.vault (.put tenantRef material)) x w = (.error e,w') ∧
        credentials D tenantRef w' = credentials D tenantRef w) ∨
      ∃ w', World.handle D (.vault (.put tenantRef material)) x w = (.ok (),w') ∧
        credentials D tenantRef w' = (.ok (some material),(credentials D tenantRef w).2) := by
  rcases World.handle_cases D (.vault (.put tenantRef material)) x w with ⟨e,-,-,hw⟩ | hw
  · exact .inl ⟨e,_,hw,rfl⟩
  · exact .inr ⟨_,hw,Prod.ext (MemoryCredentialVault.get_put_self _ _ _ _ _) rfl⟩

theorem handle_expiry (d : Date) :
    (∃ e w', World.handle D (.tenants (.setProductionExpiry tenantRef d)) x w = (.error e,w') ∧
        credentials D tenantRef w' = credentials D tenantRef w) ∨
      ∃ w', World.handle D (.tenants (.setProductionExpiry tenantRef d)) x w = (.ok (),w') ∧
        credentials D tenantRef w' = ((credentials D tenantRef w).1,some d) := by
  rcases World.handle_tenants_cases D (.setProductionExpiry tenantRef d) x w with
    ⟨e,hw⟩ | ⟨ref,ho,-⟩ | ⟨a,ref,r,hwrite,hw⟩
  · exact .inl ⟨e,_,hw,rfl⟩
  · cases ho
  · cases hwrite with
    | expiry _ hg =>
      refine .inr ⟨_,hw,Prod.ext rfl ?_⟩
      simp only [credentials]
      rw [MemoryTenantStore.get_set_self]
      · rfl
      · exact (MemoryTenantStore.get_eq_some.1 hg).2

end frame

section batch
variable {D : Deps} {args : RunOnboardingArgs} {result : OnboardingResult} {d : Date}
  {script : Nat → Choice} {w : World}

theorem persist_eq : persist args result d =
    .call (.vault (.put args.tenantRef (signerMaterial result))) (fun r =>
      (Program.ofExcept r).bind (fun _ =>
        .call (.tenants (.setProductionExpiry args.tenantRef d)) (fun r =>
          (Program.ofExcept r).bind (fun _ =>
            .call (.tenants (.setState args.tenantRef .productionReady {})) (fun r =>
              (Program.ofExcept r).bind (fun promoted =>
                .call (.audit (onboardingAudit args .ok)) (fun r =>
                  (Program.ofExcept r).bind (fun _ => .ret promoted)))))))) := rfl

abbrev ServerCall := (o : ServerOp) × Except Thrown (ServerOp.Ret o)

/-- Whatever came of it. -/
def ServerCall.isOk (c : ServerCall) : Bool := c.2.isOk

/-- What the batch leaves when it fails: nothing, if the vault's write is what fails; otherwise the
new material, and the new expiry once that is written. -/
structure Interrupted (D : Deps) (args : RunOnboardingArgs) (result : OnboardingResult) (d : Date)
    (calls : List ServerCall) (w w' : World) : Prop where
  put : ⟨.vault (.put args.tenantRef (signerMaterial result)),.ok ()⟩ ∈ calls
  late : ∃ c ∈ calls, c.1.isLateWrite ∧ c.isOk = false
  material : (credentials D args.tenantRef w').1 = .ok (some (signerMaterial result))
  expiry : (⟨.tenants (.setProductionExpiry args.tenantRef d),.ok ()⟩ ∈ calls ∧
      (credentials D args.tenantRef w').2 = some d) ∨
    (⟨.tenants (.setProductionExpiry args.tenantRef d),.ok ()⟩ ∉ calls ∧
      (credentials D args.tenantRef w').2 = (credentials D args.tenantRef w).2)

theorem persist_cases :
    (∃ r w', (persist args result d).exec (World.handle D) script w = (.ok r,w') ∧
        ∀ c ∈ (persist args result d).trace (World.handle D) script w, ServerCall.isOk c) ∨
      ∃ e w', (persist args result d).exec (World.handle D) script w = (.error e,w') ∧
        ((credentials D args.tenantRef w' = credentials D args.tenantRef w ∧
            ∀ c ∈ (persist args result d).trace (World.handle D) script w,
              c.1.isLateWrite = false ∧ ServerCall.isOk c = false) ∨
          Interrupted D args result d ((persist args result d).trace (World.handle D) script w)
            w w') := by
  rw [persist_eq]
  simp only [Program.exec_call,Program.trace_call]
  rcases @handle_put D (script 0) w args.tenantRef (signerMaterial result) with ⟨e,w₁,h₁,hc₁⟩ | ⟨w₁,h₁,hc₁⟩
  · rw [h₁]
    refine .inr ⟨e,w₁,rfl,.inl ⟨hc₁,?_⟩⟩
    simp [Program.ofExcept,ServerOp.isLateWrite,ServerCall.isOk,Except.isOk,Except.toBool]
  · rw [h₁]
    simp only [Program.ofExcept,Program.ret_bind,Program.exec_call,Program.trace_call]
    rcases @handle_expiry D (script 1) w₁ args.tenantRef d with
      ⟨e,w₂,h₂,hc₂⟩ | ⟨w₂,h₂,hc₂⟩
    · rw [h₂]
      refine .inr ⟨e,w₂,rfl,.inr ?_⟩
      constructor
      · simp
      · simp [ServerOp.isLateWrite,ServerCall.isOk,Except.isOk,Except.toBool]
      · rw [hc₂,hc₁]
      · refine .inr ⟨by simp,by rw [hc₂,hc₁]⟩
    · rw [h₂]
      simp only [Program.ret_bind,Program.exec_call,Program.trace_call]
      have hc₃ := @handle_credentials D (.tenants (.setState args.tenantRef .productionReady {}))
        (script 2) w₂ args.tenantRef rfl
      have hdone {w' : World} (hc : credentials D args.tenantRef w' =
          credentials D args.tenantRef w₂) : (credentials D args.tenantRef w').1 =
            .ok (some (signerMaterial result)) ∧ (credentials D args.tenantRef w').2 = some d := by
        rw [hc,hc₂,hc₁]
        exact ⟨rfl,rfl⟩
      cases h₃ : World.handle D (.tenants (.setState args.tenantRef .productionReady {})) (script 2)
        w₂ with
      | mk r w₃ =>
        rw [h₃] at hc₃
        cases r with
        | error e =>
          refine .inr ⟨e,w₃,rfl,.inr ?_⟩
          constructor
          · simp
          · simp [ServerOp.isLateWrite,ServerCall.isOk,Except.isOk,Except.toBool]
          · exact (hdone hc₃).1
          · exact .inl ⟨by simp,(hdone hc₃).2⟩
        | ok promoted =>
          simp only [Program.ret_bind,Program.exec_call,Program.trace_call]
          have hc₄ := @handle_credentials D (.audit (onboardingAudit args .ok)) (script 3) w₃
            args.tenantRef rfl
          cases h₄ : World.handle D (.audit (onboardingAudit args .ok)) (script 3) w₃ with
          | mk r w₄ =>
            rw [h₄] at hc₄
            cases r with
            | error e =>
              refine .inr ⟨e,w₄,rfl,.inr ?_⟩
              constructor
              · simp
              · simp [ServerOp.isLateWrite,ServerCall.isOk,Except.isOk,Except.toBool,onboardingAudit]
              · exact (hdone (hc₄.trans hc₃)).1
              · exact .inl ⟨by simp,(hdone (hc₄.trans hc₃)).2⟩
            | ok u =>
              refine .inl ⟨promoted,w₄,rfl,?_⟩
              simp [ServerCall.isOk,Except.isOk,Except.toBool]

end batch

section run
variable {D : Deps} {args : RunOnboardingArgs} {script : Nat → Choice} {w : World}

/-- The calls outside of the final batch. -/
def isQuiet (o : ServerOp) : Prop := o.writesCredentials = false ∧ o.isLateWrite = false

theorem isQuiet_of_runCall {phase : RunPhase} (h : phase ≠ .persist) (o : ServerOp)
    (ho : RunCall args phase o) : isQuiet o := by
  cases ho with
  | put _ | expiry _ | promote | audit => exact absurd rfl h
  | _ => exact ⟨rfl,rfl⟩

theorem claimTenant_quiet : (claimTenant args).Calls isQuiet :=
  claimTenant_calls.mono (isQuiet_of_runCall nofun)

theorem handshake_quiet (existing : TenantRecord) : (handshake D args existing).Calls isQuiet :=
  (handshake_calls existing).mono (isQuiet_of_runCall nofun)

theorem onFailure_quiet (err : Thrown) : (onFailure D args err).Calls isQuiet :=
  (onFailure_calls err).mono (isQuiet_of_runCall nofun)

/-- Nothing that goes wrong on the way hides the error. -/
theorem onFailure_throws (err : Thrown) :
    ((onFailure D args err).exec (World.handle D) script w).1 = .error err := by
  have hswallow {α : Type} (p : Program Server Thrown α) (script : Nat → Choice) (w : World) :
      ∃ w', (swallow p).exec (World.handle D) script w = (.ok (),w') := by
    unfold swallow
    rw [Program.exec_tryCatch,Program.exec_bind]
    cases p.exec (World.handle D) script w with
    | mk r w' =>
      cases r with
      | ok a => exact ⟨_,rfl⟩
      | error e => exact ⟨_,rfl⟩
  unfold onFailure
  simp only [Program.bind_eq]
  obtain ⟨w₁,h₁⟩ := hswallow (Program.perform (S := Server) (.tenants (.setState args.tenantRef
    .failed { lastError := some (errorText D.runtime err) }))) script w
  rw [Program.exec_bind_of_ok h₁]
  obtain ⟨w₂,h₂⟩ := hswallow (Program.perform (S := Server) (.audit (onboardingAudit args .error)))
    ((swallow (Program.perform (S := Server) (.tenants (.setState args.tenantRef .failed
      { lastError := some (errorText D.runtime err) })))).rest (World.handle D) script w) w₁
  rw [Program.exec_bind_of_ok h₂]
  rfl

/-- The run comes to the batch from `w₁`, with `script₁` left. -/
structure Reaches (D : Deps) (args : RunOnboardingArgs) (script : Nat → Choice) (w : World)
    (result : OnboardingResult) (d : Date) (script₁ : Nat → Choice) (w₁ : World) : Prop where
  untouched : credentials D args.tenantRef w₁ = credentials D args.tenantRef w
  calls : ∀ c ∈ (runOnboarding D args).trace (World.handle D) script w,
    c ∈ (persist args result d).trace (World.handle D) script₁ w₁ ∨ isQuiet c.1
  batch : ∀ c ∈ (persist args result d).trace (World.handle D) script₁ w₁,
    c ∈ (runOnboarding D args).trace (World.handle D) script w
  returns : ∀ r w', (persist args result d).exec (World.handle D) script₁ w₁ = (.ok r,w') →
    ∃ a, ((runOnboarding D args).exec (World.handle D) script w).1 = .ok a
  throws : ∀ e w', (persist args result d).exec (World.handle D) script₁ w₁ = (.error e,w') →
    ((runOnboarding D args).exec (World.handle D) script w).1 = .error e ∧
      credentials D args.tenantRef ((runOnboarding D args).exec (World.handle D) script w).2 =
        credentials D args.tenantRef w'

/-- A run that fails before the batch leaves the credentials, and makes none of its calls. -/
theorem runOnboarding_cases :
    (credentials D args.tenantRef ((runOnboarding D args).exec (World.handle D) script w).2 =
        credentials D args.tenantRef w ∧
      ∀ c ∈ (runOnboarding D args).trace (World.handle D) script w, isQuiet c.1) ∨
    ∃ result d script₁ w₁, Reaches D args script w result d script₁ w₁ := by
  have hclaim := Program.trace_calls (h := World.handle D) (@claimTenant_quiet args) script w
  have hkeep := @exec_credentials D w args.tenantRef _ script _
    ((@claimTenant_quiet args).mono fun o ho => ho.1)
  cases h₁ : (claimTenant args).exec (World.handle D) script w with
  | mk r w₁ =>
    rw [h₁] at hkeep
    cases r with
    | error e =>
      refine .inl ⟨?_,?_⟩
      · simp only [runOnboarding,Program.bind_eq,Program.exec_bind,h₁]
        exact hkeep
      · simp only [runOnboarding,Program.bind_eq,Program.trace_bind,h₁,List.append_nil]
        exact hclaim
    | ok existing =>
      generalize hs₁ : (claimTenant args).rest (World.handle D) script w = script₁
      have hrun : (runOnboarding D args).exec (World.handle D) script w =
          ((underClaim D args existing).tryCatch (onFailure D args)).exec (World.handle D) script₁ w₁ := by
        rw [← hs₁]
        exact Program.exec_bind_of_ok h₁
      have htrace : (runOnboarding D args).trace (World.handle D) script w =
          (claimTenant args).trace (World.handle D) script w ++
            ((underClaim D args existing).tryCatch (onFailure D args)).trace (World.handle D)
              script₁ w₁ := by
        simp only [runOnboarding,Program.bind_eq,Program.trace_bind,h₁,hs₁]
      have hshake := Program.trace_calls (h := World.handle D)
        (@handshake_quiet D args existing) script₁ w₁
      have hkeep₂ := @exec_credentials D w₁ args.tenantRef _ script₁ _
        ((@handshake_quiet D args existing).mono fun o ho => ho.1)
      cases h₂ : (handshake D args existing).exec (World.handle D) script₁ w₁ with
      | mk r w₂ =>
        rw [h₂] at hkeep₂
        cases r with
        | error e =>
          refine .inl ⟨?_,fun c hc => ?_⟩
          · rw [hrun]
            simp only [Program.exec_tryCatch,underClaim,Program.bind_eq,Program.exec_bind,h₂]
            rw [exec_credentials ((onFailure_quiet e).mono fun o ho => ho.1),hkeep₂,hkeep]
          · rw [htrace] at hc
            simp only [Program.trace_tryCatch,underClaim,Program.bind_eq,Program.trace_bind,
              Program.exec_bind,h₂,List.append_nil,List.mem_append] at hc
            rcases hc with hc | hc | hc
            · exact hclaim c hc
            · exact hshake c hc
            · exact Program.trace_calls (onFailure_quiet e) _ _ c hc
        | ok handed =>
          obtain ⟨result,d⟩ := handed
          generalize hs₂ : (handshake D args existing).rest (World.handle D) script₁ w₁ = script₂
          have hbatch : (underClaim D args existing).trace (World.handle D) script₁ w₁ =
              (handshake D args existing).trace (World.handle D) script₁ w₁ ++
                (persist args result d).trace (World.handle D) script₂ w₂ := by
            simp only [underClaim,Program.bind_eq,Program.trace_bind,h₂,hs₂]
            split <;> simp [Program.pure_eq]
          refine .inr ⟨result,d,script₂,w₂,hkeep₂.trans hkeep,fun c hc => ?_,fun c hc => ?_,
            fun r w' hp => ?_,fun e w' hp => ?_⟩
          · rw [htrace,Program.trace_tryCatch,hbatch] at hc
            simp only [List.mem_append] at hc
            rcases hc with hc | (hc | hc) | hc
            · exact .inr (hclaim c hc)
            · exact .inr (hshake c hc)
            · exact .inl hc
            · right
              split at hc
              · cases hc
              · exact Program.trace_calls (onFailure_quiet _) _ _ c hc
          · rw [htrace,Program.trace_tryCatch,hbatch]
            simp only [List.mem_append]
            exact .inr (.inl (.inr hc))
          · rw [hrun]
            simp only [Program.exec_tryCatch,underClaim,Program.bind_eq,Program.exec_bind,h₂,hs₂,hp]
            exact ⟨_,rfl⟩
          · rw [hrun]
            simp only [Program.exec_tryCatch,underClaim,Program.bind_eq,Program.exec_bind,h₂,hs₂,hp]
            exact ⟨onFailure_throws e,
              exec_credentials ((onFailure_quiet e).mono fun o ho => ho.1)⟩

/-- No write of the final batch fails once the vault's has been made. -/
def NoLateFailure (D : Deps) (args : RunOnboardingArgs) (script : Nat → Choice) (w : World) : Prop :=
  ∀ c ∈ (runOnboarding D args).trace (World.handle D) script w,
    c.1.isLateWrite → ServerCall.isOk c

/-- What the run writes of the credentials is what the tenant had. -/
def WritesWhatIsThere (D : Deps) (args : RunOnboardingArgs) (script : Nat → Choice) (w : World) :
    Prop :=
  ∀ c ∈ (runOnboarding D args).trace (World.handle D) script w,
    (∀ material, c = ⟨.vault (.put args.tenantRef material),.ok ()⟩ →
      (credentials D args.tenantRef w).1 = .ok (some material)) ∧
    ∀ d, c = ⟨.tenants (.setProductionExpiry args.tenantRef d),.ok ()⟩ →
      (credentials D args.tenantRef w).2 = some d

/-- A run that throws leaves the tenant's credentials as they were. -/
def CredentialsIntact (D : Deps) (args : RunOnboardingArgs) (script : Nat → Choice) (w : World) :
    Prop :=
  ∀ e, ((runOnboarding D args).exec (World.handle D) script w).1 = .error e →
    credentials D args.tenantRef ((runOnboarding D args).exec (World.handle D) script w).2 =
      credentials D args.tenantRef w

theorem persist_writes {result : OnboardingResult} {d : Date} : (persist args result d).Calls
    (fun o => (∀ material, o = ServerOp.vault (.put args.tenantRef material) →
        material = signerMaterial result) ∧
      ∀ d', o = ServerOp.tenants (.setProductionExpiry args.tenantRef d') → d' = d) := by
  refine Program.calls_bind (Program.calls_perform ⟨fun m h => ?_,nofun⟩) fun _ => ?_
  · cases h
    rfl
  · refine Program.calls_bind (Program.calls_perform ⟨nofun,fun d' h => ?_⟩) fun _ => ?_
    · cases h
      rfl
    · refine Program.calls_bind (Program.calls_perform ⟨nofun,nofun⟩) fun promoted => ?_
      exact Program.calls_bind (Program.calls_perform ⟨nofun,nofun⟩) fun _ => trivial

end run

/-- Whatever the registry, the vault, the gateway and the failures. -/
theorem credentialsIntact_iff (D : Deps) (args : RunOnboardingArgs) (script : Nat → Choice)
    (w : World) : CredentialsIntact D args script w ↔
      NoLateFailure D args script w ∨ WritesWhatIsThere D args script w := by
  rcases @runOnboarding_cases D args script w with
    ⟨hkeep,hquiet⟩ | ⟨result,d,script₁,w₁,h⟩
  · refine ⟨fun _ => .inl fun c hc hl => ?_,fun _ e _ => hkeep⟩
    simp [(hquiet c hc).2] at hl
  · rcases @persist_cases D args result d script₁ w₁ with ⟨r,w',hp,hok⟩ | ⟨e,w',hp,hcases⟩
    · refine ⟨fun _ => .inl fun c hc hl => ?_,fun _ e he => ?_⟩
      · rcases h.calls c hc with hc | hc
        · exact hok c hc
        · simp [hc.2] at hl
      · obtain ⟨a,ha⟩ := h.returns r w' hp
        rw [ha] at he
        cases he
    · obtain ⟨hthrow,hcred⟩ := h.throws e w' hp
      rcases hcases with ⟨hkeep,hnone⟩ | hint
      · refine ⟨fun _ => .inl fun c hc hl => ?_,fun _ _ _ => ?_⟩
        · rcases h.calls c hc with hc | hc
          · simp [(hnone c hc).1] at hl
          · simp [hc.2] at hl
        · rw [hcred,hkeep,h.untouched]
      · constructor
        · intro hintact
          right
          have heq := hintact e hthrow
          rw [hcred] at heq
          intro c hc
          rcases h.calls c hc with hc | hc
          · have hw := Program.trace_calls (h := World.handle D) persist_writes script₁ w₁ c hc
            refine ⟨fun material hm => ?_,fun d' hd => ?_⟩
            · subst hm
              rw [← heq,hint.material,hw.1 material rfl]
            · subst hd
              cases hw.2 d' rfl
              rcases hint.expiry with ⟨-,hexp⟩ | ⟨hnot,-⟩
              · rw [← heq,hexp]
              · exact absurd hc hnot
          · refine ⟨fun material hm => ?_,fun d' hd => ?_⟩
            · subst hm
              cases hc.1
            · subst hd
              cases hc.1
        · rintro (hno | hsame) _ _
          · obtain ⟨c,hc,hl,hbad⟩ := hint.late
            have := hno c (h.batch c hc) hl
            rw [hbad] at this
            cases this
          · rw [hcred]
            refine Prod.ext ?_ ?_
            · rw [hint.material,((hsame _ (h.batch _ hint.put)).1 _ rfl)]
            · rcases hint.expiry with ⟨hin,hexp⟩ | ⟨-,hexp⟩
              · rw [hexp,((hsame _ (h.batch _ hin)).2 _ rfl)]
              · rw [hexp,h.untouched]

namespace Sample

def onboardingResult : OnboardingResult where
  privateKey := "new private key"
  csr := "request"
  complianceCertificate := "compliance certificate"
  complianceBinarySecurityToken := "compliance token"
  complianceApiSecret := "compliance secret"
  complianceRequestId := "1"
  productionCertificate := "new certificate"
  productionBinarySecurityToken := "new token"
  productionApiSecret := "new secret"
  productionRequestId := "2"
  complianceTestReport := ⟨true,[],""⟩

/-- An onboarding whose exchange with the gateway goes as `onboardFn` says. -/
def onboardingArgs (onboardFn : Except Thrown OnboardingResult) : RunOnboardingArgs where
  tenantRef
  otp := "123456"
  solutionName := "pos"
  environment := .production
  instanceId := "server-1"
  actor := .admin "ops"
  onboardFn := some (fun _ => Program.ofExcept onboardFn)
  host _ := ⟨"id",clock⟩

/-- The audit append of the success path fails. -/
def auditDown (i : Nat) : Choice :=
  { now := clock, failure := if i = 8 then some (.error "audit store unavailable") else none }

end Sample

/-- A rotation whose last write fails reports a failure and has replaced the credentials. -/
theorem credentialsIntact_fails_after_audit :
    ¬ ∀ script w, CredentialsIntact Sample.deps (Sample.onboardingArgs (.ok Sample.onboardingResult))
      script w := by
  intro hall
  have h := hall Sample.auditDown Sample.world _ rfl
  revert h
  decide

end Zatca
