import Zatca.Library.Sequence
import Zatca.Server.InvoiceRoutes
set_option autoImplicit false

/-! The bearer tokens of the tenants: which headers the verifier accepts after any history of the
key store. -/

namespace Zatca
open Interaction

/-! ### The form of a token -/

def BASE32 : List Char := "ABCDEFGHIJKLMNOPQRSTUVWXYZ234567".toList

def base32Char (value : UInt32) : Char := BASE32.getD (value &&& 0x1f).toNat 'A'

/-- The inner loop: five bits at a time, as long as there are five. -/
def base32Drain (value : UInt32) : Nat → List Char
  | bits + 5 => base32Char (value >>> UInt32.ofNat bits) :: base32Drain value bits
  | _ => []

def base32Loop (value : UInt32) (bits : Nat) : List UInt8 → List Char
  | [] => if bits > 0 then [base32Char (value <<< UInt32.ofNat (5 - bits))] else []
  | b :: bytes =>
      let value := (value <<< 8) ||| b.toUInt32
      base32Drain value (bits + 8) ++ base32Loop value ((bits + 8) % 5) bytes

def base32Encode (bytes : List UInt8) : List Char := base32Loop 0 0 bytes

theorem isTailChar_base32Char (value : UInt32) : isTailChar (base32Char value) := by
  unfold base32Char
  have hall : BASE32.all isTailChar = true := by decide
  rw [List.getD_eq_getElem?_getD]
  cases hc : BASE32[(value &&& 0x1f).toNat]? with
  | none => decide
  | some c => exact List.all_eq_true.1 hall c (List.mem_of_getElem? hc)

theorem length_base32Drain (value : UInt32) (bits : Nat) :
    (base32Drain value bits).length = bits / 5 := by
  induction bits using base32Drain.induct with
  | case1 bits ih =>
    rw [base32Drain,List.length_cons,ih]
    omega
  | case2 bits h =>
    have hlt : bits < 5 := by
      by_contra hge
      exact h (bits - 5) (by omega)
    rw [base32Drain.eq_2 _ _ h,List.length_nil]
    omega

/-- Every five bits make a character, and so do those left over. -/
theorem length_base32Loop (value : UInt32) {bits : Nat} (hbits : bits < 5) (bytes : List UInt8) :
    (base32Loop value bits bytes).length = (bits + 8 * bytes.length + 4) / 5 := by
  induction bytes generalizing value bits with
  | nil =>
    rw [base32Loop]
    split
    · simp only [List.length_singleton,List.length_nil]
      omega
    · simp only [List.length_nil]
      omega
  | cons b bytes ih =>
    simp only [base32Loop,List.length_append,length_base32Drain,List.length_cons]
    rw [ih _ (Nat.mod_lt _ (by omega))]
    omega

theorem all_base32Drain (value : UInt32) (bits : Nat) :
    (base32Drain value bits).all isTailChar = true := by
  induction bits using base32Drain.induct with
  | case1 bits ih => simp [base32Drain,isTailChar_base32Char,ih]
  | case2 bits h => simp [base32Drain.eq_2 _ _ h]

theorem all_base32Loop (value : UInt32) (bits : Nat) (bytes : List UInt8) :
    (base32Loop value bits bytes).all isTailChar = true := by
  induction bytes generalizing value bits with
  | nil =>
    rw [base32Loop]
    split
    · simp [isTailChar_base32Char]
    · rfl
  | cons b bytes ih =>
    simp only [base32Loop,List.all_append,all_base32Drain,ih,Bool.and_self]

/-- What `issue` makes of its random bytes. -/
def TokenDraw.ofBytes (tail tokenId : List UInt8) (salt : String) : TokenDraw where
  tail := String.ofList ((base32Encode tail).take 32)
  tokenId := (String.ofList (base32Encode tokenId)).toLower
  salt

def TokenDraw.Drawn (draw : TokenDraw) : Prop :=
  ∃ tail tokenId salt, tail.length = 20 ∧ tokenId.length = 10 ∧
    draw = TokenDraw.ofBytes tail tokenId salt

theorem TokenDraw.Drawn.tail {draw : TokenDraw} (h : draw.Drawn) :
    draw.tail.toList.length = 32 ∧ draw.tail.toList.all isTailChar = true := by
  obtain ⟨tail,tokenId,salt,hlen,-,rfl⟩ := h
  have hloop : (base32Encode tail).length = 32 := by
    rw [base32Encode,length_base32Loop _ (by omega),hlen]
  simp only [ofBytes,String.toList_ofList,List.take_of_length_le (Nat.le_of_eq hloop)]
  exact ⟨hloop,all_base32Loop _ _ _⟩

/-! ### The keys that were issued -/

structure ApiKey where
  tenantRef : String
  draw : TokenDraw
  deriving DecidableEq

namespace ApiKey

/-- The shape that the route and the random source give to every key. -/
structure WellFormed (key : ApiKey) : Prop where
  ref : isTenantRef key.tenantRef
  drawn : key.draw.Drawn

def token (O : MemoryApiKeyStore.Options) (key : ApiKey) : String :=
  "zts_" ++ O.env.literal ++ "_" ++ key.tenantRef ++ "_" ++ key.draw.tail

theorem tenantRef_chars {key : ApiKey} (h : key.WellFormed) :
    key.tenantRef.toList.isEmpty = false ∧ key.tenantRef.toList.all isRefChar = true := by
  have href := h.ref
  unfold isTenantRef at href
  cases hc : key.tenantRef.toList with
  | nil => simp [hc] at href
  | cons c cs =>
    rw [hc] at href
    simp only [Bool.and_eq_true] at href
    refine ⟨rfl,?_⟩
    rw [List.all_cons,href.2,Bool.and_true,isRefChar]
    simp only [Bool.or_eq_true] at href ⊢
    exact .inl href.1.1

theorem toList_token (O : MemoryApiKeyStore.Options) (key : ApiKey) :
    (key.token O).toList = ['_'].intercalate
      ["zts".toList,O.env.literal.toList,key.tenantRef.toList,key.draw.tail.toList] := by
  simp only [token,String.toList_append,List.intercalate_cons_cons,List.intercalate_singleton]
  simp

/-- A token parses into the parts that it was made of: none of them holds the separator. -/
theorem parseToken_token (O : MemoryApiKeyStore.Options) {key : ApiKey} (h : key.WellFormed) :
    parseToken (key.token O) = some ⟨O.env,key.tenantRef,key.draw.tail⟩ := by
  have href := tenantRef_chars h
  have htail := h.drawn.tail
  have hsep : ∀ l ∈ ["zts".toList,O.env.literal.toList,key.tenantRef.toList,key.draw.tail.toList],
      '_' ∉ l := by
    intro l hl hc
    simp only [List.mem_cons,List.not_mem_nil,or_false] at hl
    rcases hl with rfl | rfl | rfl | rfl
    · revert hc
      decide
    · revert hc
      cases O.env <;> decide
    · exact absurd (List.all_eq_true.1 href.2 _ hc) (by decide)
    · exact absurd (List.all_eq_true.1 htail.2 _ hc) (by decide)
  unfold parseToken
  rw [toList_token,List.splitOn_intercalate _ hsep (by simp)]
  cases O.env with
  | live => simp [href,htail,KeyEnv.literal]
  | test => simp [href,htail,KeyEnv.literal]

theorem tail_eq_of_token_eq (O : MemoryApiKeyStore.Options) {key key' : ApiKey}
    (h : key.WellFormed) (h' : key'.WellFormed) (he : key.token O = key'.token O) :
    key.draw.tail = key'.draw.tail := by
  have hp := parseToken_token O h
  rw [he,parseToken_token O h',Option.some.injEq] at hp
  exact (congrArg ParsedToken.tail hp).symm

end ApiKey

abbrev ApiKeyCall := ApiKeyOp × (Date × TokenDraw)

def issuedKey : ApiKeyCall → Option ApiKey
  | (.issue tenantRef _,(_,draw)) => some ⟨tenantRef,draw⟩
  | _ => none

def issuedKeys (calls : List ApiKeyCall) : List ApiKey := calls.filterMap issuedKey

/-- The call takes the key back. -/
def revokes (key : ApiKey) : ApiKeyOp → Bool
  | .revoke tenantRef tokenId => tenantRef = key.tenantRef && tokenId = key.draw.tokenId
  | .revokeAllForTenant tenantRef => tenantRef = key.tenantRef
  | _ => false

/-- The key was issued and has not been taken back since. -/
def Live (calls : List ApiKeyCall) (key : ApiKey) : Prop :=
  ∃ pre call post, calls = pre ++ call :: post ∧ issuedKey call = some key ∧
    ∀ c ∈ post, revokes key c.1 = false

theorem Live.mem {calls : List ApiKeyCall} {key : ApiKey} (h : Live calls key) :
    key ∈ issuedKeys calls := by
  obtain ⟨pre,call,post,rfl,hcall,-⟩ := h
  exact List.mem_filterMap.2 ⟨call,by simp,hcall⟩

/-- No two keys share a random part. -/
def DistinctDraws (keys : List ApiKey) : Prop :=
  keys.Pairwise (fun a b => a.draw.tail ≠ b.draw.tail ∧ a.draw.tokenId ≠ b.draw.tokenId)

theorem DistinctDraws.eq_of_tail {keys : List ApiKey} (h : DistinctDraws keys) {a b : ApiKey}
    (ha : a ∈ keys) (hb : b ∈ keys) (he : a.draw.tail = b.draw.tail) : a = b := by
  by_contra hne
  have hsymm : Std.Symm (fun a b : ApiKey => a.draw.tail ≠ b.draw.tail) := ⟨fun _ _ => Ne.symm⟩
  exact (h.imp And.left).forall ha hb hne he

/-! ### The store as a book of keys -/

/-- What a store is for: under every id the key that was issued last, and whether it is live. -/
abbrev KeyBook := String → Option (ApiKey × Bool)

namespace KeyBook

def step (book : KeyBook) : ApiKeyCall → KeyBook
  | (.issue tenantRef _,(_,draw)) => Function.update book draw.tokenId (some (⟨tenantRef,draw⟩,true))
  | (o,_) => fun id => (book id).map (fun e => (e.1,e.2 && !revokes e.1 o))

def run (calls : List ApiKeyCall) : KeyBook := calls.foldl step (fun _ => none)

theorem run_append (calls : List ApiKeyCall) (c : ApiKeyCall) :
    run (calls ++ [c]) = (run calls).step c := by simp [run]

/-- An entry stands under its own id and comes from an issue call. -/
theorem run_mem {calls : List ApiKeyCall} {id : String} {e : ApiKey × Bool}
    (h : run calls id = some e) : e.1.draw.tokenId = id ∧ e.1 ∈ issuedKeys calls := by
  induction calls using List.reverseRecOn generalizing e with
  | nil => cases h
  | append_singleton calls c ih =>
    rw [run_append] at h
    have hkeep (h : ((run calls) id).map (fun e => (e.1,e.2 && !revokes e.1 c.1)) = some e) :
        e.1.draw.tokenId = id ∧ e.1 ∈ issuedKeys (calls ++ [c]) := by
      obtain ⟨e',he',rfl⟩ := Option.map_eq_some_iff.1 h
      have hmem := ih he'
      exact ⟨hmem.1,by rw [issuedKeys,List.filterMap_append]; exact List.mem_append_left _ hmem.2⟩
    obtain ⟨o,now,draw⟩ := c
    cases o with
    | issue tenantRef label =>
      rw [step,Function.update_apply] at h
      by_cases hid : id = draw.tokenId
      · rw [if_pos hid] at h
        cases h
        exact ⟨hid.symm,by simp [issuedKeys,issuedKey]⟩
      · rw [if_neg hid] at h
        have hmem := ih h
        exact ⟨hmem.1,by rw [issuedKeys,List.filterMap_append]; exact List.mem_append_left _ hmem.2⟩
    | resolve presentedToken => exact hkeep h
    | revoke tenantRef tokenId => exact hkeep h
    | revokeAllForTenant tenantRef => exact hkeep h

end KeyBook

theorem issuedKeys_append (calls : List ApiKeyCall) (c : ApiKeyCall) :
    issuedKeys (calls ++ [c]) = issuedKeys calls ++ (issuedKey c).toList := by
  simp only [issuedKeys,List.filterMap_append,List.filterMap_cons,List.filterMap_nil]
  cases issuedKey c with
  | none => rfl
  | some key => rfl

theorem live_append {calls : List ApiKeyCall} {c : ApiKeyCall} {key : ApiKey} :
    Live (calls ++ [c]) key ↔
      issuedKey c = some key ∨ (Live calls key ∧ revokes key c.1 = false) := by
  constructor
  · rintro ⟨pre,call,post,he,hcall,hpost⟩
    induction post using List.reverseRecOn with
    | nil =>
      have hlast := List.append_inj_right' he rfl
      cases hlast
      exact .inl hcall
    | append_singleton post c' _ =>
      rw [← List.cons_append,← List.append_assoc] at he
      have hlast : c = c' := by simpa using List.append_inj_right' he rfl
      subst hlast
      refine .inr ⟨⟨pre,call,post,List.append_inj_left' he rfl,hcall,?_⟩,hpost c (by simp)⟩
      exact fun c' hc' => hpost c' (List.mem_append_left _ hc')
  · rintro (hcall | ⟨⟨pre,call,post,rfl,hcall,hpost⟩,hc⟩)
    · exact ⟨calls,c,[],rfl,hcall,by simp⟩
    · refine ⟨pre,call,post ++ [c],by simp,hcall,?_⟩
      intro c' hc'
      rw [List.mem_append,List.mem_singleton] at hc'
      rcases hc' with hc' | rfl
      · exact hpost c' hc'
      · exact hc

/-- With distinct ids, the book has exactly the live keys as its live entries. -/
theorem KeyBook.run_live {calls : List ApiKeyCall} (h : DistinctDraws (issuedKeys calls))
    {key : ApiKey} : run calls key.draw.tokenId = some (key,true) ↔ Live calls key := by
  induction calls using List.reverseRecOn with
  | nil =>
    constructor
    · intro he
      cases he
    · intro hl
      cases hl.mem
  | append_singleton calls c ih =>
    rw [issuedKeys_append] at h
    have hcalls : DistinctDraws (issuedKeys calls) := (List.pairwise_append.1 h).1
    rw [run_append,live_append]
    have hkeep : ((run calls) key.draw.tokenId).map (fun e => (e.1,e.2 && !revokes e.1 c.1)) =
        some (key,true) ↔ Live calls key ∧ revokes key c.1 = false := by
      rw [← ih hcalls]
      cases run calls key.draw.tokenId with
      | none => simp
      | some e =>
        obtain ⟨key',live⟩ := e
        simp only [Option.map_some,Option.some.injEq,Prod.mk.injEq,Bool.and_eq_true,
          Bool.not_eq_true']
        constructor
        · rintro ⟨rfl,hlive,hr⟩
          exact ⟨⟨rfl,hlive⟩,hr⟩
        · rintro ⟨⟨rfl,hlive⟩,hr⟩
          exact ⟨rfl,hlive,hr⟩
    obtain ⟨o,now,draw⟩ := c
    cases o with
    | issue tenantRef label =>
      have hnew : ∀ k ∈ issuedKeys calls, k.draw.tokenId ≠ draw.tokenId :=
        fun k hk => ((List.pairwise_append.1 h).2.2 k hk ⟨tenantRef,draw⟩ (by simp [issuedKey])).2
      rw [step,Function.update_apply]
      by_cases hid : key.draw.tokenId = draw.tokenId
      · rw [if_pos hid]
        have hold : ¬ Live calls key := fun hl => hnew key hl.mem hid
        simp [issuedKey,hold]
      · rw [if_neg hid,ih hcalls]
        have hne : issuedKey (ApiKeyOp.issue tenantRef label,now,draw) ≠ some key := by
          rintro ⟨⟩
          exact hid rfl
        simp [hne,revokes]
    | resolve presentedToken => exact hkeep.trans (or_iff_right nofun).symm
    | revoke tenantRef tokenId => exact hkeep.trans (or_iff_right nofun).symm
    | revokeAllForTenant tenantRef => exact hkeep.trans (or_iff_right nofun).symm

/-- What the store keeps of a key. -/
structure KeySeal where
  tokenId : String
  tenantRef : String
  salt : String
  hash : String
  live : Bool
  deriving DecidableEq

def ApiKeyRow.seal (row : ApiKeyRow) : KeySeal :=
  ⟨row.tokenId,row.tenantRef,row.salt,row.hash,row.revokedAt.isNone⟩

namespace MemoryApiKeyStore

variable (O : Options)

def entrySeal (e : ApiKey × Bool) : KeySeal :=
  ⟨e.1.draw.tokenId,e.1.tenantRef,e.1.draw.salt,O.scrypt (e.1.token O) e.1.draw.salt,e.2⟩

/-- Row by row, the store is the book. -/
def Represents (st : MemoryApiKeyStore) (book : KeyBook) : Prop :=
  ∀ id, (st.rows.get id).map ApiKeyRow.seal = (book id).map (entrySeal O)

section step
variable {O} {st : MemoryApiKeyStore} {book : KeyBook} (h : Represents O st book)
  (hid : ∀ id e, book id = some e → e.1.draw.tokenId = id)
include h

theorem Represents.of_row {id : String} {row : ApiKeyRow} (hrow : st.rows.get id = some row) :
    ∃ e, book id = some e ∧ row.seal = entrySeal O e := by
  have he := h id
  rw [hrow] at he
  obtain ⟨e,hbook,hseal⟩ := Option.map_eq_some_iff.1 he.symm
  exact ⟨e,hbook,hseal.symm⟩

theorem Represents.of_entry {id : String} {e : ApiKey × Bool} (hbook : book id = some e) :
    ∃ row, st.rows.get id = some row ∧ row.seal = entrySeal O e := by
  have he := h id
  rw [hbook] at he
  exact Option.map_eq_some_iff.1 he

theorem Represents.issue (now : Date) (draw : TokenDraw) (tenantRef label : String) :
    Represents O (st.issue O now draw tenantRef label).2
      (book.step (.issue tenantRef label,(now,draw))) := by
  intro id
  simp only [MemoryApiKeyStore.issue,JsMap.get_set,KeyBook.step,Function.update_apply]
  by_cases hd : id = draw.tokenId
  · simp only [hd,if_true]
    rfl
  · simp only [hd,if_false]
    exact h id

/-- A row that only changes its last use, or nothing. -/
theorem Represents.set_of_seal {id : String} {row row' : ApiKeyRow}
    (hrow : st.rows.get id = some row) (hseal : row'.seal = row.seal) :
    Represents O ⟨st.rows.set id row'⟩ book := by
  intro id'
  simp only [JsMap.get_set]
  by_cases he : id' = id
  · rw [if_pos he,he,← h id,hrow,Option.map_some,Option.map_some,hseal]
  · rw [if_neg he]
    exact h id'

include hid

theorem Represents.row_tokenId {id : String} {row : ApiKeyRow}
    (hrow : st.rows.get id = some row) : row.tokenId = id := by
  obtain ⟨e,hbook,hseal⟩ := h.of_row hrow
  rw [← hid id e hbook]
  exact congrArg KeySeal.tokenId hseal

theorem Represents.resolve (now : Date) (presentedToken : String) :
    Represents O (st.resolve O now presentedToken).2 book := by
  unfold MemoryApiKeyStore.resolve
  split
  · exact h
  · split
    · exact h
    · split
      · exact h
      · rename_i row hfind
        obtain ⟨id,hrow⟩ := JsMap.mem_values_iff.1 (List.mem_of_find?_eq_some hfind)
        have hseal : ({ row with lastUsedAt := some now } : ApiKeyRow).seal = row.seal := rfl
        have htoken : row.tokenId = id := h.row_tokenId hid hrow
        subst htoken
        exact h.set_of_seal hrow hseal

theorem Represents.revoke (now : Date) (draw : TokenDraw) (tenantRef tokenId : String) :
    Represents O (st.revoke now tenantRef tokenId).2
      (book.step (.revoke tenantRef tokenId,(now,draw))) := by
  intro id
  have hstep : (book.step (.revoke tenantRef tokenId,(now,draw)) id).map (entrySeal O) =
      (book id).map (fun e => { entrySeal O e with
        live := e.2 && !(tenantRef = e.1.tenantRef && tokenId = e.1.draw.tokenId) }) := by
    simp [KeyBook.step,entrySeal,revokes,Function.comp_def]
  rw [hstep]
  -- Only the entry under `tokenId` can be the one that is meant.
  by_cases he : id = tokenId
  · subst he
    cases hrow : st.rows.get id with
    | none =>
      have hnone := h id
      rw [hrow] at hnone
      have hbook : book id = none := Option.map_eq_none_iff.1 hnone.symm
      simp [MemoryApiKeyStore.revoke,hrow,hbook]
    | some row =>
      obtain ⟨e,hbook,hseal⟩ := h.of_row hrow
      have htenant : row.tenantRef = e.1.tenantRef := congrArg KeySeal.tenantRef hseal
      have hlive : row.revokedAt.isNone = e.2 := congrArg KeySeal.live hseal
      have htoken : e.1.draw.tokenId = id := hid id e hbook
      simp only [MemoryApiKeyStore.revoke,hrow,hbook,Option.map_some]
      by_cases hskip : row.tenantRef ≠ tenantRef || row.revokedAt.isSome
      · rw [if_pos hskip]
        simp only [hrow,Option.map_some,hseal,Option.some.injEq]
        have hsame : (e.2 && !(tenantRef = e.1.tenantRef && id = e.1.draw.tokenId)) = e.2 := by
          rw [← hlive,← htenant]
          cases hr : row.revokedAt with
          | some d => rfl
          | none =>
            have hne : row.tenantRef ≠ tenantRef := by simpa [hr] using hskip
            simp [hne.symm]
        rw [hsame]
        rfl
      · rw [if_neg hskip]
        have hthis : row.tenantRef = tenantRef := by
          simp only [Bool.or_eq_true,not_or] at hskip
          simpa using hskip.1
        simp only [JsMap.get_set_self,Option.map_some,Option.some.injEq]
        rw [← hseal]
        simp [ApiKeyRow.seal,← htenant,hthis,htoken]
  · have hother : (book id).map (fun e => { entrySeal O e with
        live := e.2 && !(tenantRef = e.1.tenantRef && tokenId = e.1.draw.tokenId) }) =
          (book id).map (entrySeal O) := by
      cases hbook : book id with
      | none => rfl
      | some e =>
        have hne : tokenId ≠ e.1.draw.tokenId := fun hn => he ((hid id e hbook).symm.trans hn.symm)
        simp [hne,entrySeal]
    rw [hother,← h id]
    unfold MemoryApiKeyStore.revoke
    split
    · rfl
    · split
      · rfl
      · rw [JsMap.get_set_ne _ _ he]

omit hid

theorem Represents.revokeAllForTenant (now : Date) (draw : TokenDraw) (tenantRef : String) :
    Represents O (st.revokeAllForTenant now tenantRef)
      (book.step (.revokeAllForTenant tenantRef,(now,draw))) := by
  intro id
  let revoked (row : ApiKeyRow) : ApiKeyRow :=
    if row.tenantRef = tenantRef && row.revokedAt.isNone then { row with revokedAt := some now }
    else row
  have hget : (st.revokeAllForTenant now tenantRef).rows.get id = (st.rows.get id).map revoked :=
    JsMap.lookup_map_snd revoked id st.rows.entries
  rw [hget]
  cases hrow : st.rows.get id with
  | none =>
    have hnone := h id
    rw [hrow] at hnone
    simp [KeyBook.step,Option.map_eq_none_iff.1 hnone.symm]
  | some row =>
    obtain ⟨e,hbook,hseal⟩ := h.of_row hrow
    have htenant : row.tenantRef = e.1.tenantRef := congrArg KeySeal.tenantRef hseal
    have hlive : row.revokedAt.isNone = e.2 := congrArg KeySeal.live hseal
    simp only [KeyBook.step,hbook,Option.map_some,Option.some.injEq,revokes]
    have hentry : entrySeal O (e.1,e.2 && !decide (tenantRef = e.1.tenantRef)) =
        { row.seal with live := e.2 && !decide (tenantRef = e.1.tenantRef) } := by
      rw [hseal]
      rfl
    rw [hentry,← hlive,← htenant]
    by_cases ht : row.tenantRef = tenantRef
    · cases hr : row.revokedAt with
      | none => simp [revoked,ht,hr,ApiKeyRow.seal]
      | some d => simp [revoked,hr,ApiKeyRow.seal]
    · have ht' : tenantRef ≠ row.tenantRef := fun h => ht h.symm
      simp [revoked,ht,ht',ApiKeyRow.seal]

end step

theorem represents_step {st : MemoryApiKeyStore} {book : KeyBook} (h : Represents O st book)
    (hid : ∀ id e, book id = some e → e.1.draw.tokenId = id) (c : ApiKeyCall) :
    Represents O (handle O c.1 c.2 st).2 (book.step c) := by
  obtain ⟨o,now,draw⟩ := c
  cases o with
  | issue tenantRef label => exact h.issue now draw tenantRef label
  | resolve presentedToken =>
    have hsame : book.step (.resolve presentedToken,(now,draw)) = book := by
      funext id
      simp [KeyBook.step,revokes]
    rw [hsame]
    exact h.resolve hid now presentedToken
  | revoke tenantRef tokenId => exact h.revoke hid now draw tenantRef tokenId
  | revokeAllForTenant tenantRef => exact h.revokeAllForTenant now draw tenantRef

/-- After any calls, the store is the book of these calls. -/
theorem represents_steps (calls : List ApiKeyCall) :
    Represents O (Handler.steps (handle O) calls empty) (KeyBook.run calls) := by
  induction calls using List.reverseRecOn with
  | nil =>
    intro id
    rfl
  | append_singleton calls c ih =>
    rw [Handler.steps_append,KeyBook.run_append]
    exact represents_step O ih (fun id e he => (KeyBook.run_mem he).1) c

/-! ### What a presented token resolves to -/

section resolve
variable {O} {calls : List ApiKeyCall} (hscrypt : ∀ salt, Function.Injective (O.scrypt · salt))
  (hkeys : ∀ key ∈ issuedKeys calls, key.WellFormed) (hdraws : DistinctDraws (issuedKeys calls))
include hscrypt hkeys hdraws

/-- A row matches a token if and only if it is the row of the live key that has this token. -/
theorem matchesToken_iff {presented : String} {parsed : ParsedToken} {row : ApiKeyRow} {id : String}
    (hparsed : parseToken presented = some parsed)
    (hrow : (Handler.steps (handle O) calls empty).rows.get id = some row) :
    matchesToken O presented parsed row = true ↔
      ∃ key, Live calls key ∧ presented = key.token O ∧ row.tenantRef = key.tenantRef ∧
        row.tokenId = key.draw.tokenId := by
  obtain ⟨⟨key,live⟩,hbook,hseal⟩ := (represents_steps O calls).of_row hrow
  obtain ⟨hid,hmem⟩ := KeyBook.run_mem hbook
  simp only at hid hmem
  have htokenId : row.tokenId = key.draw.tokenId := congrArg KeySeal.tokenId hseal
  have htenant : row.tenantRef = key.tenantRef := congrArg KeySeal.tenantRef hseal
  have hsalt : row.salt = key.draw.salt := congrArg KeySeal.salt hseal
  have hhash : row.hash = O.scrypt (key.token O) key.draw.salt := congrArg KeySeal.hash hseal
  have hlive : row.revokedAt.isNone = live := congrArg KeySeal.live hseal
  unfold matchesToken
  simp only [hsalt,hhash,hlive,Bool.and_eq_true,decide_eq_true_eq]
  constructor
  · rintro ⟨⟨hl,-⟩,hs⟩
    subst hid
    rw [hl] at hbook
    exact ⟨key,(KeyBook.run_live hdraws).1 hbook,hscrypt _ hs,htenant,htokenId⟩
  · rintro ⟨key',hl,rfl,-,ht⟩
    have hentry := (KeyBook.run_live hdraws).2 hl
    rw [← ht,htokenId,hid,hbook,Option.some.injEq,Prod.mk.injEq] at hentry
    obtain ⟨rfl,rfl⟩ := hentry
    rw [ApiKey.parseToken_token O (hkeys _ hmem)] at hparsed
    cases hparsed
    exact ⟨⟨rfl,htenant⟩,rfl⟩

/-- After any calls, a token resolves if and only if it is the token of a live key, and to that
key. -/
theorem resolve_iff (now : Date) (presented : String) (resolved : ResolvedApiKey) :
    ((Handler.steps (handle O) calls empty).resolve O now presented).1 = some resolved ↔
      ∃ key, Live calls key ∧ presented = key.token O ∧
        resolved = ⟨key.tenantRef,key.draw.tokenId⟩ := by
  unfold MemoryApiKeyStore.resolve
  constructor
  · intro h
    split at h
    · cases h
    · rename_i parsed hparsed
      split at h
      · cases h
      · split at h
        · cases h
        · rename_i row hfind
          cases h
          obtain ⟨id,hrow⟩ := JsMap.mem_values_iff.1 (List.mem_of_find?_eq_some hfind)
          obtain ⟨key,hl,ht,href,hid⟩ := (matchesToken_iff hscrypt hkeys hdraws hparsed hrow).1
            (List.find?_some hfind)
          exact ⟨key,hl,ht,by rw [href,hid]⟩
  · rintro ⟨key,hl,rfl,rfl⟩
    have hwf := hkeys key hl.mem
    have hparsed := ApiKey.parseToken_token O hwf
    obtain ⟨row,hrow,hseal⟩ := (represents_steps O calls).of_entry ((KeyBook.run_live hdraws).2 hl)
    have hmatch : matchesToken O (key.token O) ⟨O.env,key.tenantRef,key.draw.tail⟩ row = true :=
      (matchesToken_iff hscrypt hkeys hdraws hparsed hrow).2
        ⟨key,hl,rfl,congrArg KeySeal.tenantRef hseal,congrArg KeySeal.tokenId hseal⟩
    simp only [hparsed]
    rw [if_neg (by simp)]
    cases hfind : (Handler.steps (handle O) calls empty).rows.values.find?
        (matchesToken O (key.token O) ⟨O.env,key.tenantRef,key.draw.tail⟩) with
    | none =>
      have hno := List.find?_eq_none.1 hfind row (JsMap.mem_values_iff.2 ⟨_,hrow⟩)
      exact absurd hmatch hno
    | some row' =>
      -- Another row would be another key with the same token, hence with the same tail.
      obtain ⟨id',hrow'⟩ := JsMap.mem_values_iff.1 (List.mem_of_find?_eq_some hfind)
      obtain ⟨key',hl',ht',href',hid'⟩ := (matchesToken_iff hscrypt hkeys hdraws hparsed hrow').1
        (List.find?_some hfind)
      have htail := ApiKey.tail_eq_of_token_eq O hwf (hkeys key' hl'.mem) ht'
      have hsame : key = key' := hdraws.eq_of_tail hl.mem hl'.mem htail
      simp only [href',hid',hsame]

end resolve

end MemoryApiKeyStore

/-! ### The verifier -/

theorem isJsSpace_of_refChar {c : Char} (h : isRefChar c = true) : isJsSpace c = false := by
  refine isJsSpace_of_bounds ?_
  simp only [isRefChar,Char.isDigit,Bool.or_eq_true,Bool.and_eq_true,decide_eq_true_eq] at h
  rcases h with (h | h) | rfl
  · exact charBounds_of_le (by decide) (by decide) h
  · exact charBounds_of_le (by decide) (by decide) h
  · decide

theorem isJsSpace_of_tailChar {c : Char} (h : isTailChar c = true) : isJsSpace c = false := by
  refine isJsSpace_of_bounds ?_
  simp only [isTailChar,Bool.or_eq_true,Bool.and_eq_true,decide_eq_true_eq] at h
  rcases h with h | h
  · exact charBounds_of_le (by decide) (by decide) h
  · exact charBounds_of_le (by decide) (by decide) h

/-- A token without white space is what its own header carries. -/
theorem extractBearer_bearer {token : String} (hne : token.toList ≠ [])
    (h : ∀ c ∈ token.toList, isJsSpace c = false) : extractBearer ("Bearer " ++ token) = some token := by
  have hterm : token.toList.any isLineTerminator = false := by
    rw [List.any_eq_false]
    intro c hc hterm
    have hno := h c hc
    simp only [isJsSpace,isLineTerminator,decide_eq_true_eq,Bool.or_eq_false_iff,
      decide_eq_false_iff_not] at hterm hno
    refine hno.1 ?_
    simp only [List.mem_cons] at hterm ⊢
    tauto
  simp [extractBearer_of_trimmed hne (.of_forall h),hterm]

theorem ApiKey.token_chars (O : MemoryApiKeyStore.Options) {key : ApiKey} (h : key.WellFormed) :
    (key.token O).toList ≠ [] ∧ ∀ c ∈ (key.token O).toList, isJsSpace c = false := by
  have htoken : (key.token O).toList = "zts_".toList ++ (O.env.literal.toList ++ ('_' ::
      (key.tenantRef.toList ++ ('_' :: key.draw.tail.toList)))) := by
    simp [token,String.toList_append]
  have hletters : ∀ c ∈ "zts_".toList ++ O.env.literal.toList, isJsSpace c = false := by
    cases O.env <;> simp [KeyEnv.literal,isJsSpace]
  have href := (tenantRef_chars h).2
  have htail := h.drawn.tail.2
  rw [htoken,← List.append_assoc]
  refine ⟨by simp,fun c hc => ?_⟩
  simp only [List.mem_append,List.mem_cons] at hc hletters
  rcases hc with hc | rfl | hc | rfl | hc
  · exact hletters c hc
  · decide
  · exact isJsSpace_of_refChar (List.all_eq_true.1 href c hc)
  · decide
  · exact isJsSpace_of_tailChar (List.all_eq_true.1 htail c hc)

def invalidBearer : Thrown := .zatcaAuthError "Invalid or revoked API key." 401

/-- The verifier on a header that carries a bearer. -/
theorem exec_verifyTenant (D : Deps) (script : Nat → Choice) (w : World) {header bearer : String}
    (tenantRef : String) (h : extractBearer header = some bearer) :
    ((verifyTenant (some header) tenantRef).exec (World.serve D) script w).1 =
      match (w.apiKeys.resolve D.apiKeys (script 0).now bearer).1 with
      | none => .error invalidBearer
      | some key => if key.tenantRef ≠ tenantRef then .error invalidBearer else .ok key := by
  have hne : header ≠ "" := by
    rintro rfl
    have hempty : extractBearer "" = none := by decide
    cases hempty.symm.trans h
  unfold verifyTenant
  split
  · rename_i heq
    cases heq
  · rename_i heq
    exact absurd (Option.some.inj heq) hne
  · rename_i header' heq
    cases heq
    simp only [h,Program.bind_eq,Program.perform,Program.call_bind,Program.exec_call,World.serve,
      MemoryApiKeyStore.handle,Program.ofExcept,Program.ret_bind]
    cases (w.apiKeys.resolve D.apiKeys (script 0).now bearer).1 with
    | none => rfl
    | some key =>
      simp only
      split
      · rfl
      · rfl

theorem exec_verifyTenant_of_none (D : Deps) (script : Nat → Choice) (w : World)
    (header : Option String) (tenantRef : String) (h : header.bind extractBearer = none) :
    ∃ e, ((verifyTenant header tenantRef).exec (World.serve D) script w).1 = .error e := by
  unfold verifyTenant
  split
  · exact ⟨_,rfl⟩
  · exact ⟨_,rfl⟩
  · rename_i header' _
    rw [show extractBearer header' = none from h]
    exact ⟨_,rfl⟩

/-- After any calls on the key store, a header is let through for a tenant if and only if it
carries the token of a live key of this very tenant; and a live key's own header is let through
for its tenant and for no other. -/
theorem tenantBearer_isolation (D : Deps) (calls : List ApiKeyCall) (w : World)
    (script : Nat → Choice) (hscrypt : ∀ salt, Function.Injective (D.apiKeys.scrypt · salt))
    (hkeys : ∀ key ∈ issuedKeys calls, key.WellFormed) (hdraws : DistinctDraws (issuedKeys calls))
    (hw : w.apiKeys = Handler.steps (MemoryApiKeyStore.handle D.apiKeys) calls .empty) :
    (∀ header tenantRef resolved,
      ((verifyTenant header tenantRef).exec (World.serve D) script w).1 = .ok resolved ↔
        ∃ key, Live calls key ∧ key.tenantRef = tenantRef ∧
          header.bind extractBearer = some (key.token D.apiKeys) ∧
          resolved = ⟨key.tenantRef,key.draw.tokenId⟩) ∧
    ∀ key, Live calls key → ∀ tenantRef,
      ((verifyTenant (some ("Bearer " ++ key.token D.apiKeys)) tenantRef).exec (World.serve D)
        script w).1 = if tenantRef = key.tenantRef then .ok ⟨key.tenantRef,key.draw.tokenId⟩
          else .error invalidBearer := by
  have hresolve := fun presented => MemoryApiKeyStore.resolve_iff hscrypt hkeys hdraws
    (script 0).now presented
  constructor
  · intro header tenantRef resolved
    cases hb : header.bind extractBearer with
    | none =>
      obtain ⟨e,he⟩ := exec_verifyTenant_of_none D script w header tenantRef hb
      simp [he]
    | some bearer =>
      obtain ⟨text,rfl,htext⟩ := Option.bind_eq_some_iff.1 hb
      rw [exec_verifyTenant D script w tenantRef htext,hw]
      constructor
      · intro h
        split at h
        · cases h
        · rename_i key hr
          split at h
          · cases h
          · rename_i href
            cases h
            obtain ⟨key',hl,rfl,rfl⟩ := (hresolve bearer _).1 hr
            exact ⟨key',hl,not_not.1 href,rfl,rfl⟩
      · rintro ⟨key,hl,rfl,hbearer,rfl⟩
        rw [(hresolve bearer _).2 ⟨key,hl,Option.some.inj hbearer,rfl⟩]
        simp
  · intro key hl tenantRef
    have hchars := ApiKey.token_chars D.apiKeys (hkeys key hl.mem)
    rw [exec_verifyTenant D script w tenantRef (extractBearer_bearer hchars.1 hchars.2),hw,
      (hresolve _ _).2 ⟨key,hl,rfl,rfl⟩]
    by_cases ht : tenantRef = key.tenantRef
    · simp [ht]
    · have ht' : key.tenantRef ≠ tenantRef := fun h => ht h.symm
      simp [ht,ht']

/-- A key of the tenant, drawn from zero bytes. -/
def Sample.key : ApiKey :=
  ⟨tenantRef,.ofBytes (List.replicate 20 0) (List.replicate 10 0) "salt"⟩

/-- The key is issued, and the keys of another tenant are revoked. -/
def Sample.keyCalls : List ApiKeyCall :=
  [(.issue key.tenantRef "till",(clock,key.draw)),(.revokeAllForTenant "other",(clock,⟨"","",""⟩))]

/-- A server with this key store. -/
def Sample.keyWorld : World :=
  { world with apiKeys := Handler.steps (MemoryApiKeyStore.handle deps.apiKeys) keyCalls .empty }

theorem tenantBearer_of_one_key :
    ((verifyTenant (some ("Bearer " ++ Sample.key.token Sample.deps.apiKeys)) Sample.tenantRef).exec
      (World.serve Sample.deps) (fun _ => Sample.accepted) Sample.keyWorld).1 =
        .ok ⟨Sample.tenantRef,Sample.key.draw.tokenId⟩ ∧
    ((verifyTenant (some ("Bearer " ++ Sample.key.token Sample.deps.apiKeys)) "other").exec
      (World.serve Sample.deps) (fun _ => Sample.accepted) Sample.keyWorld).1 =
        .error invalidBearer := by
  have hscrypt : ∀ salt, Function.Injective (Sample.deps.apiKeys.scrypt · salt) := by
    intro salt a b h
    have hlist := congrArg String.toList h
    simp only [Sample.deps,String.toList_append] at hlist
    exact String.toList_inj.1 (List.append_cancel_right hlist)
  have hissued : issuedKeys Sample.keyCalls = [Sample.key] := rfl
  have hkeys : ∀ key ∈ issuedKeys Sample.keyCalls, key.WellFormed := by
    intro key hkey
    rw [hissued,List.mem_singleton] at hkey
    subst hkey
    exact ⟨by decide,_,_,_,List.length_replicate,List.length_replicate,rfl⟩
  have hlive : Live Sample.keyCalls Sample.key := ⟨[],_,_,rfl,rfl,by simp [revokes]; decide⟩
  have h := (tenantBearer_isolation Sample.deps Sample.keyCalls Sample.keyWorld
    (fun _ => Sample.accepted) hscrypt hkeys (List.pairwise_singleton _ _) rfl).2 Sample.key hlive
  exact ⟨h Sample.tenantRef,h "other"⟩

end Zatca
