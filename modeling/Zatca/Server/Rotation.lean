import Zatca.Server.Config
import Zatca.Server.VaultBackends
set_option autoImplicit false

/-! The vault of a database through any number of lives of the server, each booted with a ring of its
own. What a life finds under a key that its ring lacks it cannot read, and says so; what it finds under
a key that its ring has it reads. -/

namespace Zatca
open Interaction

/-! ### Lives -/

/-- A server from its boot on. -/
structure Life where
  env : Boot.ServerEnv
  config : Boot.ServerConfig
  cipher : AesGcmCipher
  loaded : Boot.loadConfig env = .ok config
  booted : Boot.bootCipher config = .ok cipher

/-- How a database keeps an envelope: as `jsonb`, or as a document in the document. -/
structure EnvelopeColumn where
  write : CipherEnvelope → String
  read : String → CipherEnvelope
  read_write : ∀ e, read (write e) = e

theorem length_padded (bs : List UInt8) :
    ((bs ++ List.replicate IV_BYTES 0).take IV_BYTES).length = IV_BYTES := by
  rw [List.length_take_of_le]
  simp

/-- The vector that a draw stands for, one byte a character. -/
def ivBytes (draw : String) : Bytes IV_BYTES := ⟨_,length_padded (draw.toList.map fun c : Char => UInt8.ofNat c.toNat)⟩

namespace Life

variable (A : AesGcm) (E : EnvelopeColumn) (l l' : Life)

def encrypt (iv text : String) : String := E.write (l.cipher.encrypt A (ivBytes iv) text)

def decrypt (envelope : String) : Except Thrown String := l.cipher.decrypt A (E.read envelope)

/-- The key that the life encrypts with. -/
def activeKey : MasterKey := ⟨l.config.activeKid,l.cipher.activeKey.1⟩

theorem booted_cipher : l.cipher.activeKid = l.config.activeKid ∧ ∀ kid key,
    l.cipher.byKid.get kid = some key ↔ ⟨kid,key.1⟩ ∈ l.config.masterKeys := by
  obtain ⟨c,hc,hkid,hring⟩ := Boot.bootCipher_of_loadConfig l.loaded
  obtain rfl := Except.ok.inj (l.booted.symm.trans hc)
  exact ⟨hkid,hring⟩

variable {A E l l'}

/-- A life reads what is sealed under a key of its ring. -/
theorem decrypt_of_mem (h : l.activeKey ∈ l'.config.masterKeys) (iv text : String) :
    l'.decrypt A E (l.encrypt A E iv text) = .ok text := by
  rw [decrypt,encrypt,E.read_write]
  refine AesGcmCipher.decrypt_encrypt ((l'.booted_cipher.2 _ _).2 ?_) _ _
  rwa [l.booted_cipher.1]

theorem activeKey_mem (l : Life) : l.activeKey ∈ l.config.masterKeys := by
  refine (l.booted_cipher.2 _ _).1 ?_
  rw [← l.booted_cipher.1]
  exact l.cipher.active

theorem decrypt_self (iv text : String) : l.decrypt A E (l.encrypt A E iv text) = .ok text :=
  decrypt_of_mem l.activeKey_mem iv text

/-- Nor does it read what is sealed under a kid that its ring lacks. -/
theorem decrypt_of_unknown (h : l.config.activeKid ∉ l'.config.masterKeys.map MasterKey.kid)
    (iv text : String) : l'.decrypt A E (l.encrypt A E iv text) =
      .error (AesGcmCipher.unknownKid l.config.activeKid) := by
  have hnone : l'.cipher.byKid.get l.config.activeKid = none := by
    rw [Option.eq_none_iff_forall_ne_some]
    intro key hkey
    exact h (List.mem_map_of_mem ((l'.booted_cipher.2 _ _).1 hkey))
  rw [decrypt,encrypt,E.read_write,AesGcmCipher.encrypt,AesGcmCipher.decrypt]
  simp only [ne_eq,not_true_eq_false,if_false,l.booted_cipher.1,hnone]

/-- The cipher that the vault of the life is made with. -/
def secretCipher (A : AesGcm) (E : EnvelopeColumn) (l : Life) : SecretCipher :=
  ⟨l.encrypt A E,l.decrypt A E,decrypt_self⟩

end Life

/-! ### What a vault keeps from one life to the next -/

/-- Under one cipher what the other seals is opened. -/
def SecretCipher.Opens (C' C : SecretCipher) : Prop := ∀ iv s, C'.decrypt (C.encrypt iv s) = .ok s

/-- Under one cipher what the other seals is refused. -/
def SecretCipher.Refuses (C' C : SecretCipher) (message : String) : Prop :=
  ∀ iv s, C'.decrypt (C.encrypt iv s) = .error (.zatcaCipherError message)

/-- A vault as each cipher makes it, over one store: `fields` are the envelopes that the store has for
a tenant, and `takes` says which calls of `put` are not refused. -/
structure KeepsEnvelopes {σ : Type}
    (H : SecretCipher → Handler CredentialVault TenantBackendError σ VaultDraw)
    (takes : VaultDraw → String → Bool)
    (fields : σ → String → Option (MaterialField → Option String)) : Prop where
  put : ∀ (C : SecretCipher) (st : σ) (x : VaultDraw) (tenantRef ref : String) (m : SignerMaterial),
    fields (H C (.put ref m) x st).2 tenantRef = if tenantRef = ref ∧ takes x ref then
      some (MemoryCredentialVault.sealMaterial C x.iv m).field else fields st tenantRef
  delete : ∀ (C : SecretCipher) (st : σ) (x : VaultDraw) (tenantRef ref : String),
    fields (H C (.delete ref) x st).2 tenantRef = if tenantRef = ref then none else fields st tenantRef
  get : ∀ (C : SecretCipher) (st : σ) (x : VaultDraw) (ref : String), (H C (.get ref) x st).2 = st
  absent : ∀ (C : SecretCipher) (st : σ) (x : VaultDraw) (ref : String), fields st ref = none →
    (H C (.get ref) x st).1 = .ok none
  opens : ∀ (C C' : SecretCipher) (st : σ) (x : VaultDraw) (ref : String) (iv : Nat → String)
    (m : SignerMaterial), C'.Opens C →
    fields st ref = some (MemoryCredentialVault.sealMaterial C iv m).field →
    (H C' (.get ref) x st).1 = .ok (some m)
  refuses : ∀ (C C' : SecretCipher) (st : σ) (x : VaultDraw) (ref : String) (iv : Nat → String)
    (m : SignerMaterial) (message : String), C'.Refuses C message →
    fields st ref = some (MemoryCredentialVault.sealMaterial C iv m).field →
    (H C' (.get ref) x st).1 = .error (.zatca (.zatcaCipherError message))

section ciphers
variable {C C' : SecretCipher}

theorem decryptOptional_opens (h : C'.Opens C) (iv : String) (s : Option String) :
    MemoryCredentialVault.decryptOptional C' (s.map (C.encrypt iv)) = .ok s := by
  cases s with
  | none => rfl
  | some s => simp [MemoryCredentialVault.decryptOptional,h iv s,Except.map]

end ciphers

namespace CredentialsRow

/-- The envelopes of the columns. -/
def field (row : CredentialsRow) : MaterialField → Option String
  | .privateKey => row.privateKey
  | .productionCertificate => row.productionCertificate
  | .productionBinarySecurityToken => row.productionBinarySecurityToken
  | .productionApiSecret => row.productionApiSecret
  | .complianceCertificate => row.complianceCertificate
  | .complianceBinarySecurityToken => row.complianceBinarySecurityToken
  | .complianceApiSecret => row.complianceApiSecret

/-- The columns of a row are those of the material that it was made of. -/
theorem eq_of_field {C : SecretCipher} {iv : Nat → String} {m : SignerMaterial} {row : CredentialsRow}
    (h : row.field = (MemoryCredentialVault.sealMaterial C iv m).field) :
    row = { row with
      privateKey := some (C.encrypt (iv 0) m.privateKey)
      productionCertificate := some (C.encrypt (iv 1) m.productionCertificate)
      productionBinarySecurityToken := some (C.encrypt (iv 2) m.productionBinarySecurityToken)
      productionApiSecret := some (C.encrypt (iv 3) m.productionApiSecret)
      complianceCertificate := m.complianceCertificate.map (C.encrypt (iv 4))
      complianceBinarySecurityToken := m.complianceBinarySecurityToken.map (C.encrypt (iv 5))
      complianceApiSecret := m.complianceApiSecret.map (C.encrypt (iv 6)) } := by
  obtain ⟨ref,privateKey,certificate,token,secret,cc,cbst,cas,createdAt,updatedAt⟩ := row
  obtain rfl : privateKey = _ := congrFun h .privateKey
  obtain rfl : certificate = _ := congrFun h .productionCertificate
  obtain rfl : token = _ := congrFun h .productionBinarySecurityToken
  obtain rfl : secret = _ := congrFun h .productionApiSecret
  obtain rfl : cc = _ := congrFun h .complianceCertificate
  obtain rfl : cbst = _ := congrFun h .complianceBinarySecurityToken
  obtain rfl : cas = _ := congrFun h .complianceApiSecret
  rfl

end CredentialsRow

namespace PostgresCredentialVault

theorem field_merged (C : SecretCipher) (x : VaultDraw) (ref : String) (m : SignerMaterial)
    (old : Option CredentialsRow) : (CredentialsTable.merged (putRow C x ref m) old).field =
      (MemoryCredentialVault.sealMaterial C x.iv m).field := by
  funext field
  cases old with
  | none => cases field <;> rfl
  | some old => cases field <;> rfl

theorem keepsEnvelopes : KeepsEnvelopes handle (fun x ref => x.onRecord ref)
    fun st ref => (st.rows.get ref).map CredentialsRow.field where
  put C st x tenantRef ref m := by
    rw [handle_put]
    by_cases hrecord : x.onRecord ref = true
    · by_cases h : tenantRef = ref
      · simp [hrecord,h,field_merged]
      · simp [hrecord,h,JsMap.get_set]
    · simp [hrecord]
  delete C st x tenantRef ref := by
    rw [handle_delete,JsMap.get_delete]
    by_cases h : tenantRef = ref
    · simp [h]
    · simp [h]
  get C st x ref := by rw [handle_get]
  absent C st x ref h := by
    rw [handle_get,Option.map_eq_none_iff.1 h]
    rfl
  opens C C' st x ref iv m hopens h := by
    obtain ⟨row,hrow,hfield⟩ := Option.map_eq_some_iff.1 h
    rw [handle_get,hrow,CredentialsRow.eq_of_field hfield]
    simp only [answer,rowToMaterial,openRow,hopens _ _,decryptOptional_opens hopens]
    rfl
  refuses C C' st x ref iv m message hrefuses h := by
    obtain ⟨row,hrow,hfield⟩ := Option.map_eq_some_iff.1 h
    rw [handle_get,hrow,CredentialsRow.eq_of_field hfield]
    simp only [answer,rowToMaterial,openRow,hrefuses _ _]
    rfl

end PostgresCredentialVault

namespace MongoCredentialVault

theorem keepsEnvelopes : KeepsEnvelopes handle (fun _ _ => true)
    fun st ref => (st.docs.get ref).map fun doc => doc.envelopes.get where
  put C st x tenantRef ref m := by
    rw [handle_put,JsMap.get_set]
    by_cases h : tenantRef = ref
    · simp only [h,if_true,and_self,Option.map_some,Option.some.injEq]
      exact funext fun field => envelopes_apply C x m _ field
    · simp [h]
  delete C st x tenantRef ref := by
    rw [handle_delete,JsMap.get_delete]
    by_cases h : tenantRef = ref
    · simp [h]
    · simp [h]
  get C st x ref := by rw [handle_get]
  absent C st x ref h := by
    rw [handle_get,Option.map_eq_none_iff.1 h]
    rfl
  opens C C' st x ref iv m hopens h := by
    obtain ⟨doc,hdoc,hfield⟩ := Option.map_eq_some_iff.1 h
    rw [handle_get,hdoc]
    simp only [answer,openDocument,hfield,SignerMaterial.field,MemoryCredentialVault.sealMaterial,
      decryptRequired,hopens _ _,decryptOptional_opens hopens]
    rfl
  refuses C C' st x ref iv m message hrefuses h := by
    obtain ⟨doc,hdoc,hfield⟩ := Option.map_eq_some_iff.1 h
    rw [handle_get,hdoc]
    simp only [answer,openDocument,hfield,SignerMaterial.field,MemoryCredentialVault.sealMaterial,
      decryptRequired,hrefuses _ _]
    rfl

end MongoCredentialVault
/-! ### Through the lives -/

section lives
variable (A : AesGcm) (E : EnvelopeColumn) {σ : Type}
  {H : SecretCipher → Handler CredentialVault TenantBackendError σ VaultDraw}
  {takes : VaultDraw → String → Bool} {fields : σ → String → Option (MaterialField → Option String)}

/-- Each call under the cipher of the life that makes it. -/
def acrossLives (H : SecretCipher → Handler CredentialVault TenantBackendError σ VaultDraw) :
    Handler CredentialVault TenantBackendError σ (Life × VaultDraw) :=
  fun o x st => H (x.1.secretCipher A E) o x.2 st

/-- The last `put` for the tenant since its last `delete`: the life that made it and what was put, in a
sequence that lists its latest call first. -/
def lastSealed (takes : VaultDraw → String → Bool) (tenantRef : String) :
    List (VaultOp × (Life × VaultDraw)) → Option (Life × SignerMaterial)
  | [] => none
  | (.put ref material,x) :: calls =>
      if tenantRef = ref ∧ takes x.2 ref then some (x.1,material) else lastSealed takes tenantRef calls
  | (.delete ref,_) :: calls => if tenantRef = ref then none else lastSealed takes tenantRef calls
  | (.get _,_) :: calls => lastSealed takes tenantRef calls

/-- What the store has after any calls is what the last put sealed. -/
theorem KeepsEnvelopes.fields_steps (laws : KeepsEnvelopes H takes fields) {st : σ} {tenantRef : String}
    (hempty : fields st tenantRef = none) (calls : List (VaultOp × (Life × VaultDraw))) :
    ∃ iv, fields ((acrossLives A E H).steps calls st) tenantRef =
      (lastSealed takes tenantRef calls.reverse).map fun s =>
        (MemoryCredentialVault.sealMaterial (s.1.secretCipher A E) iv s.2).field := by
  induction calls using List.reverseRecOn with
  | nil => exact ⟨fun _ => "",hempty⟩
  | append_singleton calls c ih =>
    obtain ⟨iv,ih⟩ := ih
    obtain ⟨o,l,x⟩ := c
    rw [Handler.steps_append,List.reverse_append,List.reverse_singleton,List.singleton_append]
    cases o with
    | put ref material =>
      have hput := laws.put (l.secretCipher A E) ((acrossLives A E H).steps calls st) x tenantRef ref
        material
      by_cases h : tenantRef = ref ∧ takes x ref
      · refine ⟨x.iv,hput.trans ?_⟩
        rw [if_pos h,lastSealed,if_pos h]
        rfl
      · refine ⟨iv,hput.trans ?_⟩
        rw [if_neg h,lastSealed,if_neg h]
        exact ih
    | get ref =>
      refine ⟨iv,Eq.trans ?_ ih⟩
      exact congrArg (fun st => fields st tenantRef) (laws.get (l.secretCipher A E) _ x ref)
    | delete ref =>
      have hdelete := laws.delete (l.secretCipher A E) ((acrossLives A E H).steps calls st) x tenantRef
        ref
      refine ⟨iv,hdelete.trans ?_⟩
      by_cases h : tenantRef = ref
      · rw [if_pos h,lastSealed,if_pos h]
        rfl
      · rw [if_neg h,lastSealed,if_neg h]
        exact ih

/-- What a life is answered for a tenant whose secrets were last put so. -/
structure VaultReads (now : Life) (last : Option (Life × SignerMaterial))
    (answer : Except TenantBackendError (Option SignerMaterial)) : Prop where
  absent : last = none → answer = .ok none
  known : ∀ l m, last = some (l,m) → l.activeKey ∈ now.config.masterKeys → answer = .ok (some m)
  unknown : ∀ l m, last = some (l,m) → l.config.activeKid ∉ now.config.masterKeys.map MasterKey.kid →
    answer = .error (.zatca (AesGcmCipher.unknownKid l.config.activeKid))

theorem KeepsEnvelopes.vaultReads (laws : KeepsEnvelopes H takes fields) {st : σ} {tenantRef : String}
    (hempty : fields st tenantRef = none) (calls : List (VaultOp × (Life × VaultDraw))) (now : Life)
    (y : VaultDraw) : VaultReads now (lastSealed takes tenantRef calls.reverse)
      (acrossLives A E H (.get tenantRef) (now,y) ((acrossLives A E H).steps calls st)).1 := by
  obtain ⟨iv,hfields⟩ := laws.fields_steps A E hempty calls
  refine ⟨fun hlast => ?_,fun l m hlast hkey => ?_,fun l m hlast hkid => ?_⟩
  · rw [hlast] at hfields
    exact laws.absent (now.secretCipher A E) _ y _ hfields
  · rw [hlast] at hfields
    have hopens : (now.secretCipher A E).Opens (l.secretCipher A E) :=
      fun iv s => Life.decrypt_of_mem hkey iv s
    exact laws.opens (l.secretCipher A E) (now.secretCipher A E) _ y _ iv m hopens hfields
  · rw [hlast] at hfields
    have hrefuses : (now.secretCipher A E).Refuses (l.secretCipher A E) _ :=
      fun iv s => Life.decrypt_of_unknown hkid iv s
    exact laws.refuses (l.secretCipher A E) (now.secretCipher A E) _ y _ iv m _ hrefuses hfields

/-- Whatever rings the server was booted with from life to life, and whatever its lives have put and
deleted, on the table as in the collection: the material that was last put for a tenant is read back in
every life whose ring has the key that it was put under, and in a life whose ring lacks the kid the
read fails by its name. -/
theorem secrets_outlive_restarts (calls : List (VaultOp × (Life × VaultDraw))) (tenantRef : String)
    (now : Life) (y : VaultDraw) :
    VaultReads now (lastSealed (fun x ref => x.onRecord ref) tenantRef calls.reverse)
      (acrossLives A E PostgresCredentialVault.handle (.get tenantRef) (now,y)
        ((acrossLives A E PostgresCredentialVault.handle).steps calls .empty)).1 ∧
    VaultReads now (lastSealed (fun _ _ => true) tenantRef calls.reverse)
      (acrossLives A E MongoCredentialVault.handle (.get tenantRef) (now,y)
        ((acrossLives A E MongoCredentialVault.handle).steps calls .empty)).1 :=
  ⟨PostgresCredentialVault.keepsEnvelopes.vaultReads A E rfl calls now y,
    MongoCredentialVault.keepsEnvelopes.vaultReads A E rfl calls now y⟩

end lives

theorem Life.exists_of_loadConfig {env : Boot.ServerEnv} {config : Boot.ServerConfig}
    (h : Boot.loadConfig env = .ok config) : ∃ l : Life, l.env = env ∧ l.config = config := by
  obtain ⟨c,hc,-⟩ := Boot.bootCipher_of_loadConfig h
  exact ⟨⟨env,config,c,h,hc⟩,rfl,rfl⟩

/-! A ring that gets a second key, and loses its first. -/
namespace Sample

/-- Every character of the text behind a comma, and a semicolon after it. -/
def quoted : List Char → List Char
  | [] => [';']
  | c :: cs => ',' :: c :: quoted cs

def unquoted : List Char → List Char × List Char
  | ',' :: c :: cs => (c :: (unquoted cs).1,(unquoted cs).2)
  | _ :: cs => ([],cs)
  | [] => ([],[])

theorem unquoted_quoted (cs rest : List Char) : unquoted (quoted cs ++ rest) = (cs,rest) := by
  induction cs with
  | nil => rfl
  | cons c cs ih => simp [quoted,unquoted,ih]

def writeEnvelope (e : CipherEnvelope) : String := String.ofList
  (quoted e.kid.toList ++ (quoted e.alg.toList ++ (quoted e.iv.toList ++ (quoted e.ct.toList ++
    quoted e.tag.toList))))

def readEnvelope (s : String) : CipherEnvelope :=
  let kid := unquoted s.toList
  let alg := unquoted kid.2
  let iv := unquoted alg.2
  let ct := unquoted iv.2
  ⟨String.ofList kid.1,String.ofList alg.1,String.ofList iv.1,String.ofList ct.1,
    String.ofList (unquoted ct.2).1⟩

theorem readEnvelope_writeEnvelope (e : CipherEnvelope) : readEnvelope (writeEnvelope e) = e := by
  have htag := unquoted_quoted e.tag.toList []
  rw [List.append_nil] at htag
  simp [readEnvelope,writeEnvelope,unquoted_quoted,htag]

def envelopeColumn : EnvelopeColumn := ⟨writeEnvelope,readEnvelope,readEnvelope_writeEnvelope⟩

end Sample

/-- What is put under the first key is read by a life that has a second one too, and by no life that
has only the second. -/
theorem secrets_outlive_restarts_of_rotation : ∃ l₁ l₂ l₃ : Life,
    l₁.env = Sample.lifeEnv Sample.firstKey ∧
    l₂.env = Sample.lifeEnv (Sample.firstKey ++ ", " ++ Sample.secondKey) ∧
    l₃.env = Sample.lifeEnv Sample.secondKey ∧
    (let H := acrossLives Sample.aesGcm Sample.envelopeColumn PostgresCredentialVault.handle
    let put : VaultOp × (Life × VaultDraw) := (.put "t1" Sample.rotated,(l₁,Sample.draw fun _ => true))
    (H (.get "t1") (l₂,Sample.draw fun _ => true) (H.steps [put] .empty)).1 = .ok (some Sample.rotated) ∧
    (H (.get "t1") (l₃,Sample.draw fun _ => true) (H.steps [put] .empty)).1 =
      .error (.zatca (AesGcmCipher.unknownKid "v1"))) := by
  obtain ⟨l₁,henv₁,hconfig₁⟩ := Life.exists_of_loadConfig
    (show Boot.loadConfig (Sample.lifeEnv Sample.firstKey) =
      .ok ⟨"ops:0123456789abcdef0123456789abcdef",Sample.ring1.keyring,"v1"⟩ by decide)
  obtain ⟨l₂,henv₂,hconfig₂⟩ := Life.exists_of_loadConfig
    Sample.loadConfig_two_keys
  obtain ⟨l₃,henv₃,hconfig₃⟩ := Life.exists_of_loadConfig
    (show Boot.loadConfig (Sample.lifeEnv Sample.secondKey) =
      .ok ⟨"ops:0123456789abcdef0123456789abcdef",[⟨"v2",List.replicate 32 7⟩],"v2"⟩ by decide)
  have hactive := l₁.activeKey_mem
  rw [hconfig₁] at hactive
  refine ⟨l₁,l₂,l₃,henv₁,henv₂,henv₃,?_,?_⟩
  · refine (secrets_outlive_restarts Sample.aesGcm Sample.envelopeColumn _ "t1" l₂ _).1.known l₁
      Sample.rotated rfl ?_
    rw [List.mem_singleton.1 hactive,hconfig₂]
    exact List.mem_cons_self
  · have hunknown := (secrets_outlive_restarts Sample.aesGcm Sample.envelopeColumn
      [(.put "t1" Sample.rotated,(l₁,Sample.draw fun _ => true))] "t1" l₃
      (Sample.draw fun _ => true)).1.unknown l₁ Sample.rotated rfl
    rw [hconfig₁,hconfig₃] at hunknown
    exact hunknown (by decide)

end Zatca
