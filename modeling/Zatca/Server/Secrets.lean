import Zatca.Server.Tenants
set_option autoImplicit false

/-! The secrets of the tenants, encrypted at rest, and the hashed tokens of their callers. -/

namespace Zatca
open Interaction

/-- The cipher of the vault: an envelope opens to the text it was sealed from. -/
structure SecretCipher where
  encrypt : (iv : String) → String → String
  decrypt : String → Except Thrown String
  decrypt_encrypt : ∀ iv s, decrypt (encrypt iv s) = .ok s

/-- The text itself as its envelope. -/
def Sample.cipher : SecretCipher where
  encrypt _ s := s
  decrypt := .ok
  decrypt_encrypt _ _ := rfl

structure SignerMaterial where
  privateKey : String
  productionCertificate : String
  productionBinarySecurityToken : String
  productionApiSecret : String
  complianceCertificate : Option String := none
  complianceBinarySecurityToken : Option String := none
  complianceApiSecret : Option String := none
  deriving DecidableEq, Repr

/-- The same fields, each holding an envelope. -/
abbrev EncryptedSignerMaterial := SignerMaterial

inductive VaultOp where
  | put (tenantRef : String) (material : SignerMaterial)
  | get (tenantRef : String)
  | delete (tenantRef : String)
  deriving DecidableEq, Repr

abbrev VaultOp.Ret : VaultOp → Type
  | .put _ _ => Unit
  | .get _ => Option SignerMaterial
  | .delete _ => Unit

abbrev CredentialVault : Signature := ⟨VaultOp,VaultOp.Ret⟩

/-- The state of `createMemoryCredentialVault`. -/
structure MemoryCredentialVault where
  rows : JsMap String EncryptedSignerMaterial

namespace MemoryCredentialVault

variable (C : SecretCipher)

def empty : MemoryCredentialVault := ⟨.empty⟩

/-- Each field is encrypted under a vector of its own. -/
def sealMaterial (iv : Nat → String) (m : SignerMaterial) : EncryptedSignerMaterial where
  privateKey := C.encrypt (iv 0) m.privateKey
  productionCertificate := C.encrypt (iv 1) m.productionCertificate
  productionBinarySecurityToken := C.encrypt (iv 2) m.productionBinarySecurityToken
  productionApiSecret := C.encrypt (iv 3) m.productionApiSecret
  complianceCertificate := m.complianceCertificate.map (C.encrypt (iv 4))
  complianceBinarySecurityToken := m.complianceBinarySecurityToken.map (C.encrypt (iv 5))
  complianceApiSecret := m.complianceApiSecret.map (C.encrypt (iv 6))

def decryptOptional : Option String → Except Thrown (Option String)
  | none => .ok none
  | some envelope => (C.decrypt envelope).map some

def openMaterial (row : EncryptedSignerMaterial) : Except Thrown SignerMaterial := do
  let complianceCertificate ← decryptOptional C row.complianceCertificate
  let complianceBinarySecurityToken ← decryptOptional C row.complianceBinarySecurityToken
  let complianceApiSecret ← decryptOptional C row.complianceApiSecret
  return {
    privateKey := ← C.decrypt row.privateKey
    productionCertificate := ← C.decrypt row.productionCertificate
    productionBinarySecurityToken := ← C.decrypt row.productionBinarySecurityToken
    productionApiSecret := ← C.decrypt row.productionApiSecret
    complianceCertificate, complianceBinarySecurityToken, complianceApiSecret }

theorem decryptOptional_map (iv : String) (s : Option String) :
    decryptOptional C (s.map (C.encrypt iv)) = .ok s := by
  cases s with
  | none => rfl
  | some s => simp [decryptOptional,C.decrypt_encrypt,Except.map]

theorem openMaterial_sealMaterial (iv : Nat → String) (m : SignerMaterial) :
    openMaterial C (sealMaterial C iv m) = .ok m := by
  simp only [openMaterial,sealMaterial,decryptOptional_map,C.decrypt_encrypt]
  rfl

/-- Whatever else goes wrong while opening a row surfaces as an error of the cipher. -/
def decryptFailure (tenantRef : String) : Thrown → Thrown
  | .zatcaCipherError message => .zatcaCipherError message
  | _ => .zatcaCipherError ("Vault decrypt failed for tenant '" ++ tenantRef ++ "'.")

def put (iv : Nat → String) (tenantRef : String) (material : SignerMaterial)
    (v : MemoryCredentialVault) : MemoryCredentialVault := ⟨v.rows.set tenantRef (sealMaterial C iv material)⟩

def get (tenantRef : String) (v : MemoryCredentialVault) : Except Thrown (Option SignerMaterial) :=
  match v.rows.get tenantRef with
  | none => .ok none
  | some row =>
      match openMaterial C row with
      | .ok material => .ok (some material)
      | .error cause => .error (decryptFailure tenantRef cause)

theorem get_put_self (iv : Nat → String) (tenantRef : String) (material : SignerMaterial)
    (v : MemoryCredentialVault) : (v.put C iv tenantRef material).get C tenantRef =
      .ok (some material) := by
  simp [get,put,openMaterial_sealMaterial]

/-- One method call; the choice is the vectors that the cipher draws. -/
def handle : Handler CredentialVault Thrown MemoryCredentialVault (Nat → String)
  | .put tenantRef material, iv, v => (.ok (),v.put C iv tenantRef material)
  | .get tenantRef, _, v => (v.get C tenantRef,v)
  | .delete tenantRef, _, v => (.ok (),⟨v.rows.delete tenantRef⟩)

end MemoryCredentialVault

inductive KeyEnv where
  | live
  | test
  deriving DecidableEq, Repr

def KeyEnv.literal : KeyEnv → String
  | live => "live"
  | test => "test"

structure IssuedApiKey where
  token : String
  tokenId : String
  deriving DecidableEq, Repr

structure ResolvedApiKey where
  tenantRef : String
  tokenId : String
  deriving DecidableEq, Repr

inductive ApiKeyOp where
  | issue (tenantRef label : String)
  | resolve (presentedToken : String)
  | revoke (tenantRef tokenId : String)
  | revokeAllForTenant (tenantRef : String)
  deriving DecidableEq, Repr

abbrev ApiKeyOp.Ret : ApiKeyOp → Type
  | .issue _ _ => IssuedApiKey
  | .resolve _ => Option ResolvedApiKey
  | .revoke _ _ => Bool
  | .revokeAllForTenant _ => Unit

abbrev ApiKeyStore : Signature := ⟨ApiKeyOp,ApiKeyOp.Ret⟩

structure ParsedToken where
  env : KeyEnv
  tenantRef : String
  tail : String
  deriving DecidableEq, Repr

def isRefChar (c : Char) : Bool := ('a' ≤ c && c ≤ 'z') || c.isDigit || c = '-'

/-- `/^[a-z0-9][a-z0-9-]{0,63}$/` -/
def isTenantRef (tenantRef : String) : Bool :=
  match tenantRef.toList with
  | [] => false
  | c :: cs => (('a' ≤ c && c ≤ 'z') || c.isDigit) && cs.length ≤ 63 && cs.all isRefChar

def isTailChar (c : Char) : Bool := ('A' ≤ c && c ≤ 'Z') || ('2' ≤ c && c ≤ '7')

/-- `/^zts_(live|test)_([a-z0-9-]+)_([A-Z2-7]{32})$/`: none of the groups holds the separator. -/
def parseToken (token : String) : Option ParsedToken :=
  match token.toList.splitOn '_' with
  | [prefixChars,env,tenantRef,tail] =>
      let env? := if env = "live".toList then some KeyEnv.live
        else if env = "test".toList then some KeyEnv.test else none
      if prefixChars = "zts".toList && !tenantRef.isEmpty && tenantRef.all isRefChar &&
          tail.length = 32 && tail.all isTailChar then
        env?.map (fun env => ⟨env,String.ofList tenantRef,String.ofList tail⟩)
      else none
  | _ => none

structure ApiKeyRow where
  tokenId : String
  tenantRef : String
  hash : String
  salt : String
  label : String
  last4 : String
  createdAt : Date
  lastUsedAt : Option Date := none
  revokedAt : Option Date := none
  deriving DecidableEq

/-- The random parts of a new token. -/
structure TokenDraw where
  tail : String
  tokenId : String
  salt : String
  deriving DecidableEq, Repr

/-- The state of `createMemoryApiKeyStore`. -/
structure MemoryApiKeyStore where
  rows : JsMap String ApiKeyRow

namespace MemoryApiKeyStore

/-- `scrypt(password, salt, 32)` and the environment that the store mints tokens for. -/
structure Options where
  scrypt : (password salt : String) → String
  env : KeyEnv

variable (O : Options)

def empty : MemoryApiKeyStore := ⟨.empty⟩

def issue (now : Date) (draw : TokenDraw) (tenantRef label : String) (st : MemoryApiKeyStore) :
    IssuedApiKey × MemoryApiKeyStore :=
  let token := "zts_" ++ O.env.literal ++ "_" ++ tenantRef ++ "_" ++ draw.tail
  let row : ApiKeyRow :=
    { tokenId := draw.tokenId, tenantRef, hash := O.scrypt token draw.salt, salt := draw.salt, label
      last4 := String.ofList (draw.tail.toList.drop (draw.tail.length - 4)), createdAt := now }
  (⟨token,draw.tokenId⟩,⟨st.rows.set draw.tokenId row⟩)

def matchesToken (presentedToken : String) (parsed : ParsedToken) (row : ApiKeyRow) : Bool :=
  row.revokedAt.isNone && row.tenantRef = parsed.tenantRef &&
    O.scrypt presentedToken row.salt = row.hash

def resolve (now : Date) (presentedToken : String) (st : MemoryApiKeyStore) :
    Option ResolvedApiKey × MemoryApiKeyStore :=
  match parseToken presentedToken with
  | none => (none,st)
  | some parsed =>
      if parsed.env ≠ O.env then (none,st)
      else match st.rows.values.find? (matchesToken O presentedToken parsed) with
        | none => (none,st)
        | some row => (some ⟨row.tenantRef,row.tokenId⟩,
            ⟨st.rows.set row.tokenId { row with lastUsedAt := some now }⟩)

def revoke (now : Date) (tenantRef tokenId : String) (st : MemoryApiKeyStore) :
    Bool × MemoryApiKeyStore :=
  match st.rows.get tokenId with
  | none => (false,st)
  | some row =>
      if row.tenantRef ≠ tenantRef || row.revokedAt.isSome then (false,st)
      else (true,⟨st.rows.set tokenId { row with revokedAt := some now }⟩)

/-- Keys stay in place, so the map over the entries keeps them distinct. -/
def revokeAllForTenant (now : Date) (tenantRef : String) (st : MemoryApiKeyStore) :
    MemoryApiKeyStore :=
  ⟨⟨st.rows.entries.map (fun e => (e.1,
      if e.2.tenantRef = tenantRef && e.2.revokedAt.isNone then { e.2 with revokedAt := some now }
      else e.2)),
    by simpa [List.map_map,Function.comp_def] using st.rows.nodup⟩⟩

/-- One method call; the choice is the reading of the clock and the random parts of a token. -/
def handle : Handler ApiKeyStore Thrown MemoryApiKeyStore (Date × TokenDraw)
  | .issue tenantRef label, (now,draw), st =>
      ((.ok (st.issue O now draw tenantRef label).1),(st.issue O now draw tenantRef label).2)
  | .resolve presentedToken, (now,_), st =>
      ((.ok (st.resolve O now presentedToken).1),(st.resolve O now presentedToken).2)
  | .revoke tenantRef tokenId, (now,_), st =>
      ((.ok (st.revoke now tenantRef tokenId).1),(st.revoke now tenantRef tokenId).2)
  | .revokeAllForTenant tenantRef, (now,_), st => (.ok (),st.revokeAllForTenant now tenantRef)

end MemoryApiKeyStore
end Zatca
