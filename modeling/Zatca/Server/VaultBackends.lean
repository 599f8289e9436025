import Mathlib.Data.List.Induction
import Zatca.Library.Sequence
import Zatca.Server.PostgresTenants
import Zatca.Server.Secrets
set_option autoImplicit false

/-! The credential vault on `zatca_server_credentials`, as a table and as a collection, beside the
one in memory. The databases give an envelope back as it was. -/

namespace Zatca
open Interaction

/-- What a vault takes from its surroundings during a call: the vectors of the cipher, the reading of
the clock, and whether `zatca_server_tenants` has a row of this reference. -/
structure VaultDraw where
  iv : Nat → String
  now : Date
  onRecord : String → Bool

/-- The columns; an absent entry is null. -/
structure CredentialsRow where
  tenantRef : String
  privateKey : Option String
  productionCertificate : Option String
  productionBinarySecurityToken : Option String
  productionApiSecret : Option String
  complianceCertificate : Option String
  complianceBinarySecurityToken : Option String
  complianceApiSecret : Option String
  createdAt : Date
  updatedAt : Date
  deriving DecidableEq

inductive VaultSqlOp where
  /-- `INSERT … ON CONFLICT (tenant_ref) DO UPDATE` -/
  | upsert (row : CredentialsRow)
  | select (tenantRef : String)
  | delete (tenantRef : String)

abbrev VaultSqlOp.Ret (_ : VaultSqlOp) : Type := Option CredentialsRow

abbrev VaultSql : Signature := ⟨VaultSqlOp,VaultSqlOp.Ret⟩

structure CredentialsTable where
  rows : JsMap String CredentialsRow

namespace CredentialsTable

def empty : CredentialsTable := ⟨.empty⟩

/-- The columns declared `NOT NULL` have values. -/
def complete (row : CredentialsRow) : Bool :=
  row.privateKey.isSome && row.productionCertificate.isSome &&
    row.productionBinarySecurityToken.isSome && row.productionApiSecret.isSome

/-- The assignments from `EXCLUDED`, to every column but the key and the time of creation. -/
def merged (row : CredentialsRow) : Option CredentialsRow → CredentialsRow
  | none => row
  | some old => { row with createdAt := old.createdAt }

/-- The reference of a row is a foreign key into the tenants. -/
def handle : Handler VaultSql TenantBackendError CredentialsTable (String → Bool)
  | .upsert row, onRecord, st =>
      if ¬ complete row then (.error (.driver "23502"),st)
      else if ¬ onRecord row.tenantRef then (.error (.driver "23503"),st)
      else (.ok none,⟨st.rows.set row.tenantRef (merged row (st.rows.get row.tenantRef))⟩)
  | .select tenantRef, _, st => (.ok (st.rows.get tenantRef),st)
  | .delete tenantRef, _, st => (.ok none,⟨st.rows.delete tenantRef⟩)

end CredentialsTable

namespace PostgresCredentialVault

variable (C : SecretCipher)

def query (o : VaultSqlOp) : Program VaultSql TenantBackendError (Option CredentialsRow) :=
  Program.perform (S := VaultSql) o

def putRow (x : VaultDraw) (tenantRef : String) (material : SignerMaterial) : CredentialsRow where
  tenantRef
  privateKey := some (C.encrypt (x.iv 0) material.privateKey)
  productionCertificate := some (C.encrypt (x.iv 1) material.productionCertificate)
  productionBinarySecurityToken := some (C.encrypt (x.iv 2) material.productionBinarySecurityToken)
  productionApiSecret := some (C.encrypt (x.iv 3) material.productionApiSecret)
  complianceCertificate := material.complianceCertificate.map (C.encrypt (x.iv 4))
  complianceBinarySecurityToken := material.complianceBinarySecurityToken.map (C.encrypt (x.iv 5))
  complianceApiSecret := material.complianceApiSecret.map (C.encrypt (x.iv 6))
  createdAt := x.now
  updatedAt := x.now

def put (x : VaultDraw) (tenantRef : String) (material : SignerMaterial) :
    Program VaultSql TenantBackendError Unit := do
  let _ ← query (.upsert (putRow C x tenantRef material))
  return ()

def missingFields (tenantRef : String) : Thrown :=
  .zatcaCipherError ("Vault row for tenant '" ++ tenantRef ++
    "' is missing required production fields.")

/-- The `try` block of `get`. -/
def openRow (row : CredentialsRow)
    (privateKey productionCertificate productionBst productionApiSecret : String) :
    Except Thrown SignerMaterial := do
  let privateKey ← C.decrypt privateKey
  let productionCertificate ← C.decrypt productionCertificate
  let productionBinarySecurityToken ← C.decrypt productionBst
  let productionApiSecret ← C.decrypt productionApiSecret
  let complianceCertificate ← MemoryCredentialVault.decryptOptional C row.complianceCertificate
  let complianceBinarySecurityToken ←
    MemoryCredentialVault.decryptOptional C row.complianceBinarySecurityToken
  let complianceApiSecret ← MemoryCredentialVault.decryptOptional C row.complianceApiSecret
  return {
    privateKey, productionCertificate, productionBinarySecurityToken, productionApiSecret
    complianceCertificate, complianceBinarySecurityToken, complianceApiSecret }

def rowToMaterial (tenantRef : String) (row : CredentialsRow) : Except Thrown SignerMaterial :=
  match row.privateKey, row.productionCertificate, row.productionBinarySecurityToken,
      row.productionApiSecret with
  | some privateKey, some productionCertificate, some productionBst, some productionApiSecret =>
      (openRow C row privateKey productionCertificate productionBst productionApiSecret).mapError
        (MemoryCredentialVault.decryptFailure tenantRef)
  | _, _, _, _ => .error (missingFields tenantRef)

def get (tenantRef : String) : Program VaultSql TenantBackendError (Option SignerMaterial) := do
  match ← query (.select tenantRef) with
  | none => return none
  | some row =>
      let material ← Program.ofExcept ((rowToMaterial C tenantRef row).mapError .zatca)
      return some material

def delete (tenantRef : String) : Program VaultSql TenantBackendError Unit := do
  let _ ← query (.delete tenantRef)
  return ()

def method (x : VaultDraw) : (o : VaultOp) → Program VaultSql TenantBackendError o.Ret
  | .put tenantRef material => put C x tenantRef material
  | .get tenantRef => get C tenantRef
  | .delete tenantRef => delete tenantRef

/-- A method call that nothing comes between. -/
def handle : Handler CredentialVault TenantBackendError CredentialsTable VaultDraw :=
  fun o x st => (method C x o).exec CredentialsTable.handle (fun _ => x.onRecord) st

end PostgresCredentialVault

/-! ### The collection -/

inductive MaterialField where
  | privateKey
  | productionCertificate
  | productionBinarySecurityToken
  | productionApiSecret
  | complianceCertificate
  | complianceBinarySecurityToken
  | complianceApiSecret
  deriving DecidableEq, Repr

def SignerMaterial.field (m : SignerMaterial) : MaterialField → Option String
  | .privateKey => some m.privateKey
  | .productionCertificate => some m.productionCertificate
  | .productionBinarySecurityToken => some m.productionBinarySecurityToken
  | .productionApiSecret => some m.productionApiSecret
  | .complianceCertificate => m.complianceCertificate
  | .complianceBinarySecurityToken => m.complianceBinarySecurityToken
  | .complianceApiSecret => m.complianceApiSecret

/-- A document, with the envelopes that it has. -/
structure CredentialsDoc where
  _id : String
  envelopes : JsMap MaterialField String
  createdAt : Date
  updatedAt : Date

/-- `{ $set, $setOnInsert, $unset }` -/
structure CredentialsUpdate where
  set : List (MaterialField × String)
  updatedAt : Date
  createdAtOnInsert : Date
  unset : List MaterialField

def CredentialsUpdate.apply (u : CredentialsUpdate) (doc : CredentialsDoc) : CredentialsDoc :=
  { doc with
    envelopes := u.unset.foldl JsMap.delete (u.set.foldl (fun m e => m.set e.1 e.2) doc.envelopes)
    updatedAt := u.updatedAt }

inductive VaultMongoOp where
  /-- With `upsert: true`. -/
  | findOneAndUpdate (tenantRef : String) (update : CredentialsUpdate)
  | findOne (tenantRef : String)
  | deleteOne (tenantRef : String)

abbrev VaultMongoOp.Ret (_ : VaultMongoOp) : Type := Option CredentialsDoc

abbrev VaultMongo : Signature := ⟨VaultMongoOp,VaultMongoOp.Ret⟩

structure CredentialsCollection where
  docs : JsMap String CredentialsDoc

namespace CredentialsCollection

def empty : CredentialsCollection := ⟨.empty⟩

/-- The document to update, or the one that the upsert begins with. -/
def found (st : CredentialsCollection) (tenantRef : String) (update : CredentialsUpdate) :
    CredentialsDoc :=
  (st.docs.get tenantRef).getD
    ⟨tenantRef,.empty,update.createdAtOnInsert,update.updatedAt⟩

def handle : Handler VaultMongo TenantBackendError CredentialsCollection Unit
  | .findOneAndUpdate tenantRef update, _, st =>
      let doc := update.apply (st.found tenantRef update)
      (.ok (some doc),⟨st.docs.set tenantRef doc⟩)
  | .findOne tenantRef, _, st => (.ok (st.docs.get tenantRef),st)
  | .deleteOne tenantRef, _, st => (.ok none,⟨st.docs.delete tenantRef⟩)

end CredentialsCollection

namespace MongoCredentialVault

variable (C : SecretCipher)

def command (o : VaultMongoOp) : Program VaultMongo TenantBackendError (Option CredentialsDoc) :=
  Program.perform (S := VaultMongo) o

/-- An optional field is set where the material has it, and unset where it does not. -/
def optionalSet (field : MaterialField) (envelope : Option String) : List (MaterialField × String) :=
  (envelope.map fun e => (field,e)).toList

def optionalUnset (field : MaterialField) (envelope : Option String) : List MaterialField :=
  if envelope.isNone then [field] else []

def putUpdate (x : VaultDraw) (material : SignerMaterial) : CredentialsUpdate :=
  let cc := material.complianceCertificate.map (C.encrypt (x.iv 4))
  let cbst := material.complianceBinarySecurityToken.map (C.encrypt (x.iv 5))
  let cas := material.complianceApiSecret.map (C.encrypt (x.iv 6))
  { set :=
      [(.privateKey,C.encrypt (x.iv 0) material.privateKey),
        (.productionCertificate,C.encrypt (x.iv 1) material.productionCertificate),
        (.productionBinarySecurityToken,
          C.encrypt (x.iv 2) material.productionBinarySecurityToken),
        (.productionApiSecret,C.encrypt (x.iv 3) material.productionApiSecret)] ++
      optionalSet .complianceCertificate cc ++ optionalSet .complianceBinarySecurityToken cbst ++
      optionalSet .complianceApiSecret cas
    updatedAt := x.now
    createdAtOnInsert := x.now
    unset := optionalUnset .complianceCertificate cc ++
      optionalUnset .complianceBinarySecurityToken cbst ++ optionalUnset .complianceApiSecret cas }

def put (x : VaultDraw) (tenantRef : String) (material : SignerMaterial) :
    Program VaultMongo TenantBackendError Unit := do
  let _ ← command (.findOneAndUpdate tenantRef (putUpdate C x material))
  return ()

/-- The cipher reads an envelope that the document lacks. -/
def decryptRequired : Option String → Except Thrown String
  | none => .error (.typeError "Cannot read properties of undefined (reading 'alg')")
  | some envelope => C.decrypt envelope

def openDocument (doc : CredentialsDoc) : Except Thrown SignerMaterial := do
  let privateKey ← decryptRequired C (doc.envelopes.get .privateKey)
  let productionCertificate ← decryptRequired C (doc.envelopes.get .productionCertificate)
  let productionBinarySecurityToken ←
    decryptRequired C (doc.envelopes.get .productionBinarySecurityToken)
  let productionApiSecret ← decryptRequired C (doc.envelopes.get .productionApiSecret)
  let complianceCertificate ←
    MemoryCredentialVault.decryptOptional C (doc.envelopes.get .complianceCertificate)
  let complianceBinarySecurityToken ←
    MemoryCredentialVault.decryptOptional C (doc.envelopes.get .complianceBinarySecurityToken)
  let complianceApiSecret ←
    MemoryCredentialVault.decryptOptional C (doc.envelopes.get .complianceApiSecret)
  return {
    privateKey, productionCertificate, productionBinarySecurityToken, productionApiSecret
    complianceCertificate, complianceBinarySecurityToken, complianceApiSecret }

def get (tenantRef : String) : Program VaultMongo TenantBackendError (Option SignerMaterial) := do
  match ← command (.findOne tenantRef) with
  | none => return none
  | some doc =>
      let material ← Program.ofExcept (((openDocument C doc).mapError
        (MemoryCredentialVault.decryptFailure tenantRef)).mapError TenantBackendError.zatca)
      return some material

def delete (tenantRef : String) : Program VaultMongo TenantBackendError Unit := do
  let _ ← command (.deleteOne tenantRef)
  return ()

def method (x : VaultDraw) : (o : VaultOp) → Program VaultMongo TenantBackendError o.Ret
  | .put tenantRef material => put C x tenantRef material
  | .get tenantRef => get C tenantRef
  | .delete tenantRef => delete tenantRef

def handle : Handler CredentialVault TenantBackendError CredentialsCollection VaultDraw :=
  fun o x st => (method C x o).exec CredentialsCollection.handle (fun _ => ()) st

end MongoCredentialVault

/-! ### What a vault holds -/

/-- The material of the last `put` for the tenant since its last `delete`, in a sequence that lists
its latest call first; `takes` says which calls of `put` are not refused. -/
def lastPut (takes : VaultDraw → String → Bool) (tenantRef : String) :
    List (VaultOp × VaultDraw) → Option SignerMaterial
  | [] => none
  | (.put ref material,x) :: calls =>
      if tenantRef = ref ∧ takes x ref then some material else lastPut takes tenantRef calls
  | (.delete ref,_) :: calls => if tenantRef = ref then none else lastPut takes tenantRef calls
  | (.get _,_) :: calls => lastPut takes tenantRef calls

/-- What `get` answers after one more call. -/
structure VaultLaws {ε σ : Type} (h : Handler CredentialVault ε σ VaultDraw)
    (takes : VaultDraw → String → Bool) : Prop where
  put : ∀ (st : σ) (x y : VaultDraw) (tenantRef ref : String) (material : SignerMaterial),
    (h (.get tenantRef) y (h (.put ref material) x st).2).1 =
      if tenantRef = ref ∧ takes x ref then .ok (some material) else (h (.get tenantRef) y st).1
  delete : ∀ (st : σ) (x y : VaultDraw) (tenantRef ref : String),
    (h (.get tenantRef) y (h (.delete ref) x st).2).1 =
      if tenantRef = ref then .ok none else (h (.get tenantRef) y st).1
  get : ∀ (st : σ) (x : VaultDraw) (ref : String), (h (.get ref) x st).2 = st

/-- After any calls a vault that begins empty answers with the last material put. -/
theorem VaultLaws.get_steps {ε σ : Type} {h : Handler CredentialVault ε σ VaultDraw}
    {takes : VaultDraw → String → Bool} (laws : VaultLaws h takes) {st : σ} {tenantRef : String}
    {y : VaultDraw} (hempty : (h (.get tenantRef) y st).1 = .ok none)
    (calls : List (VaultOp × VaultDraw)) :
    (h (.get tenantRef) y (h.steps calls st)).1 = .ok (lastPut takes tenantRef calls.reverse) := by
  induction calls using List.reverseRecOn with
  | nil => exact hempty
  | append_singleton calls c ih =>
    obtain ⟨o,x⟩ := c
    rw [Handler.steps_append,List.reverse_append]
    cases o with
    | put ref material =>
      refine (laws.put _ _ _ _ _ _).trans ?_
      rw [ih]
      simp only [List.reverse_singleton,List.singleton_append,lastPut]
      split
      · rfl
      · rfl
    | get ref =>
      have hsame : (h (.get ref) x (h.steps calls st)).2 = h.steps calls st := laws.get _ _ _
      rw [Handler.steps_cons,Handler.steps_nil,hsame]
      exact ih
    | delete ref =>
      refine (laws.delete _ _ _ _ _).trans ?_
      rw [ih]
      simp only [List.reverse_singleton,List.singleton_append,lastPut]
      split
      · rfl
      · rfl

variable (C : SecretCipher)

/-! #### In memory -/

def memoryVault : Handler CredentialVault Thrown MemoryCredentialVault VaultDraw :=
  fun o x v => MemoryCredentialVault.handle C o x.iv v

theorem memoryVault_laws : VaultLaws (memoryVault C) (fun _ _ => true) where
  put v x y tenantRef ref material := by
    simp only [memoryVault,MemoryCredentialVault.handle,MemoryCredentialVault.get,
      MemoryCredentialVault.put,JsMap.get_set,and_true]
    by_cases h : tenantRef = ref
    · simp [h,MemoryCredentialVault.openMaterial_sealMaterial]
    · simp [h]
  delete v x y tenantRef ref := by
    simp only [memoryVault,MemoryCredentialVault.handle,MemoryCredentialVault.get,JsMap.get_delete]
    by_cases h : tenantRef = ref
    · simp [h]
    · simp [h]
  get v x ref := rfl

/-! #### On the table -/

namespace PostgresCredentialVault

/-- The answer of `get`, from the row. -/
def answer (tenantRef : String) : Option CredentialsRow →
    Except TenantBackendError (Option SignerMaterial)
  | none => .ok none
  | some row => ((rowToMaterial C tenantRef row).mapError .zatca).map some

theorem handle_get (tenantRef : String) (x : VaultDraw) (st : CredentialsTable) :
    handle C (.get tenantRef) x st = (answer C tenantRef (st.rows.get tenantRef),st) := by
  simp only [handle,method,get,query,Program.perform,Program.bind_eq,Program.call_bind,
    Program.exec_call,CredentialsTable.handle]
  cases st.rows.get tenantRef with
  | none => rfl
  | some row =>
    simp only [answer,Program.ofExcept,Program.ret_bind]
    cases rowToMaterial C tenantRef row with
    | ok material => rfl
    | error e => rfl

/-- A put whose reference is not on record changes nothing. -/
theorem handle_put (x : VaultDraw) (ref : String) (material : SignerMaterial)
    (st : CredentialsTable) : (handle C (.put ref material) x st).2.rows =
      if x.onRecord ref then
        st.rows.set ref (CredentialsTable.merged (putRow C x ref material) (st.rows.get ref))
      else st.rows := by
  have hcomplete : CredentialsTable.complete (putRow C x ref material) = true := rfl
  simp only [handle,method,put,query,Program.perform,Program.bind_eq,Program.call_bind,
    Program.exec_call,CredentialsTable.handle,hcomplete,not_true_eq_false,if_false]
  by_cases hrecord : x.onRecord ref = true
  · simp [putRow,hrecord]
    rfl
  · simp [putRow,hrecord]
    rfl

theorem handle_delete (x : VaultDraw) (ref : String) (st : CredentialsTable) :
    (handle C (.delete ref) x st).2.rows = st.rows.delete ref := rfl

theorem rowToMaterial_putRow (x : VaultDraw) (tenantRef ref : String) (material : SignerMaterial)
    (old : Option CredentialsRow) :
    rowToMaterial C tenantRef (CredentialsTable.merged (putRow C x ref material) old) =
      .ok material := by
  cases old with
  | none =>
    simp only [CredentialsTable.merged,rowToMaterial,putRow,openRow,C.decrypt_encrypt,
      MemoryCredentialVault.decryptOptional_map]
    rfl
  | some old =>
    simp only [CredentialsTable.merged,rowToMaterial,putRow,openRow,C.decrypt_encrypt,
      MemoryCredentialVault.decryptOptional_map]
    rfl

theorem laws : VaultLaws (handle C) (fun x ref => x.onRecord ref) where
  put st x y tenantRef ref material := by
    rw [handle_get,handle_get,handle_put]
    by_cases hrecord : x.onRecord ref = true
    · by_cases h : tenantRef = ref
      · simp [hrecord,h,answer,rowToMaterial_putRow,Except.mapError,Except.map]
      · simp [hrecord,h,JsMap.get_set]
    · simp [hrecord]
  delete st x y tenantRef ref := by
    rw [handle_get,handle_get,handle_delete,JsMap.get_delete]
    by_cases h : tenantRef = ref
    · simp [h,answer]
    · simp [h]
  get st x ref := by rw [handle_get]

end PostgresCredentialVault

/-! #### In the collection -/

namespace MongoCredentialVault

def answer (tenantRef : String) : Option CredentialsDoc →
    Except TenantBackendError (Option SignerMaterial)
  | none => .ok none
  | some doc => (((openDocument C doc).mapError
      (MemoryCredentialVault.decryptFailure tenantRef)).mapError TenantBackendError.zatca).map some

theorem handle_get (tenantRef : String) (x : VaultDraw) (st : CredentialsCollection) :
    handle C (.get tenantRef) x st = (answer C tenantRef (st.docs.get tenantRef),st) := by
  simp only [handle,method,get,command,Program.perform,Program.bind_eq,Program.call_bind,
    Program.exec_call,CredentialsCollection.handle]
  cases st.docs.get tenantRef with
  | none => rfl
  | some doc =>
    simp only [answer,Program.ofExcept,Program.ret_bind]
    cases openDocument C doc with
    | ok material => rfl
    | error e => rfl

theorem handle_put (x : VaultDraw) (ref : String) (material : SignerMaterial)
    (st : CredentialsCollection) : (handle C (.put ref material) x st).2.docs =
      st.docs.set ref ((putUpdate C x material).apply (st.found ref (putUpdate C x material))) := rfl

theorem handle_delete (x : VaultDraw) (ref : String) (st : CredentialsCollection) :
    (handle C (.delete ref) x st).2.docs = st.docs.delete ref := rfl

/-- The update leaves the envelopes of the new material and no other, whatever the document had. -/
theorem envelopes_apply (x : VaultDraw) (material : SignerMaterial) (doc : CredentialsDoc)
    (field : MaterialField) : ((putUpdate C x material).apply doc).envelopes.get field =
      (MemoryCredentialVault.sealMaterial C x.iv material).field field := by
  obtain ⟨privateKey,productionCertificate,productionBst,productionApiSecret,cc,cbst,cas⟩ := material
  cases cc <;> cases cbst <;> cases cas <;> cases field <;>
    simp [CredentialsUpdate.apply,putUpdate,optionalSet,optionalUnset,JsMap.get_set,JsMap.get_delete,
      MemoryCredentialVault.sealMaterial,SignerMaterial.field]

theorem openDocument_apply (x : VaultDraw) (material : SignerMaterial) (doc : CredentialsDoc) :
    openDocument C ((putUpdate C x material).apply doc) = .ok material := by
  simp only [openDocument,envelopes_apply,SignerMaterial.field,MemoryCredentialVault.sealMaterial,
    decryptRequired,C.decrypt_encrypt,MemoryCredentialVault.decryptOptional_map]
  rfl

theorem laws : VaultLaws (handle C) (fun _ _ => true) where
  put st x y tenantRef ref material := by
    rw [handle_get,handle_get,handle_put,JsMap.get_set]
    by_cases h : tenantRef = ref
    · simp [h,answer,openDocument_apply,Except.mapError,Except.map]
    · simp [h]
  delete st x y tenantRef ref := by
    rw [handle_get,handle_get,handle_delete,JsMap.get_delete]
    by_cases h : tenantRef = ref
    · simp [h,answer]
    · simp [h]
  get st x ref := by rw [handle_get]

end MongoCredentialVault

namespace Sample

def draw (onRecord : String → Bool) : VaultDraw := ⟨fun _ => "",⟨0⟩,onRecord⟩

def withCompliance : SignerMaterial :=
  { privateKey := "PRIV", productionCertificate := "CERT", productionBinarySecurityToken := "BST"
    productionApiSecret := "SECRET", complianceCertificate := some "COMP-CERT" }

def rotated : SignerMaterial := { withCompliance with complianceCertificate := none }

example : (MongoCredentialVault.handle cipher (.get "t1") (draw fun _ => true)
    ((MongoCredentialVault.handle cipher).steps
      [(.put "t1" withCompliance,draw fun _ => true),(.put "t1" rotated,draw fun _ => true)]
      .empty)).1 = .ok (some rotated) := rfl

end Sample

end Zatca
