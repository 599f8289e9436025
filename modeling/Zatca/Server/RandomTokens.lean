import Zatca.Library.Base32
import Zatca.Server.TenantBearer
set_option autoImplicit false

/-! What the random parts of tokens and references are: base32 of the random bytes, so that
different bytes are never written alike. -/

namespace Zatca

theorem base32Char_eq (value : UInt32) : base32Char value = Base32.digit (value.toNat % 32) := by
  have hall : ∀ n < 32, BASE32.getD n 'A' = Base32.digit n := by decide
  have hlow : (value &&& 0x1f).toNat = value.toNat % 32 := by
    rw [UInt32.toNat_and,show (0x1f : UInt32).toNat = 2^5 - 1 from rfl,Nat.and_two_pow_sub_one_eq_mod]
  rw [base32Char,hlow,hall _ (Nat.mod_lt _ (by omega))]

theorem toNat_shiftCount {n : Nat} (hn : n < 32) : (UInt32.ofNat n).toNat % 32 = n := by
  rw [UInt32.toNat_ofNat']
  omega

/-- The bits that are out are shifted up and, in time, out of the register; what the loop still
reads are the low bits. -/
theorem base32Drain_eq {bytes : List UInt8} {value : UInt32} {i bits : Nat} (hbits : bits ≤ 32)
    (h : Base32.Window bytes (5*i + bits) bits value.toNat) :
    base32Drain value bits =
      (List.range' i (bits/5)).map fun i => Base32.digit (Base32.quintet bytes i) := by
  induction bits using base32Drain.induct generalizing i with
  | case1 bits ih =>
    have hhead : (value.toNat >>> bits) % 32 = Base32.quintet bytes i := by
      apply Base32.Window.shiftRight
      rwa [show 5*i + 5 + bits = 5*i + (bits + 5) by omega]
    have htail : Base32.Window bytes (5*(i+1) + bits) bits value.toNat := by
      rw [show 5*(i+1) + bits = 5*i + (bits + 5) by omega]
      exact h.mono (by omega)
    rw [base32Drain,ih (by omega) htail,base32Char_eq,UInt32.toNat_shiftRight,
      toNat_shiftCount (by omega),hhead,show (bits + 5)/5 = bits/5 + 1 by omega,List.range'_succ,
      List.map_cons]
  | case2 bits hlt =>
    have hfew : bits < 5 := by
      by_contra hge
      exact hlt (bits - 5) (by omega)
    rw [base32Drain.eq_2 _ _ hlt,show bits/5 = 0 by omega]
    rfl

/-- After `c` bytes: the characters that are still to come. -/
theorem base32Loop_eq {bytes rest : List UInt8} {value : UInt32} {c : Nat}
    (hrest : bytes.drop c = rest) (hc : c ≤ bytes.length)
    (h : Base32.Window bytes (8*c) (8*c%5) value.toNat) :
    base32Loop value (8*c%5) rest =
      (List.range' (8*c/5) (Base32.size bytes.length - 8*c/5)).map
        fun i => Base32.digit (Base32.quintet bytes i) := by
  induction rest generalizing value c with
  | nil =>
    have hend : c = bytes.length := by
      have hlen := congrArg List.length hrest
      rw [List.length_drop,List.length_nil] at hlen
      omega
    rw [base32Loop,Base32.size_eq,← hend]
    by_cases hleft : 8*c%5 > 0
    · have hlast : ((value.toNat <<< (5 - 8*c%5)) % 2^32) % 32 = Base32.quintet bytes (8*c/5) := by
        apply Base32.Window.shiftLeft (by omega) _ (by omega) (by omega)
        rwa [show 5*(8*c/5) + 8*c%5 = 8*c by omega]
      rw [if_pos hleft,base32Char_eq,UInt32.toNat_shiftLeft,toNat_shiftCount (by omega),hlast,
        show (8*c + 4)/5 - 8*c/5 = 1 by omega]
      rfl
    · rw [if_neg hleft,show (8*c + 4)/5 - 8*c/5 = 0 by omega]
      rfl
  | cons b rest ih =>
    have hb : bytes[c]? = some b := by
      rw [← List.head?_drop,hrest]
      rfl
    have hlt : c < bytes.length := (List.getElem?_eq_some_iff.1 hb).1
    have hnext : bytes.drop (c+1) = rest := by
      rw [← List.tail_drop,hrest]
      rfl
    -- The window grows by a byte; the loop above leaves at most four bits of it.
    have hpush : Base32.Window bytes (8*(c+1)) (8*c%5 + 8)
        ((value <<< 8) ||| b.toUInt32).toNat := by
      rw [UInt32.toNat_or,UInt32.toNat_shiftLeft,UInt8.toNat_toUInt32]
      exact h.push hb (by omega)
    have hout : Base32.Window bytes (5*(8*c/5) + (8*c%5 + 8)) (8*c%5 + 8)
        ((value <<< 8) ||| b.toUInt32).toNat := by
      rwa [show 5*(8*c/5) + (8*c%5 + 8) = 8*(c+1) by omega]
    have hdrain := base32Drain_eq (by omega) hout
    have hloop := ih hnext hlt (hpush.mono (show 8*(c+1)%5 ≤ 8*c%5 + 8 by omega))
    rw [base32Loop,show (8*c%5 + 8)%5 = 8*(c+1)%5 by omega,hdrain,hloop,← List.map_append,
      show 8*(c+1)/5 = 8*c/5 + (8*c%5 + 8)/5 by omega,Base32.size_eq]
    congr 1
    rw [List.range'_append_1]
    congr 1
    omega

theorem base32Encode_eq (bytes : List UInt8) : base32Encode bytes = Base32.encode bytes := by
  have hloop := base32Loop_eq (rfl : bytes.drop 0 = bytes) (Nat.zero_le _)
    (Base32.window_zero bytes _ (0 : UInt32).toNat)
  rw [base32Encode,Base32.encode,List.range_eq_range']
  exact hloop

example : base32Encode [102,111,111,98,97,114] = "MZXW6YTBOI".toList := by decide

theorem base32Encode_injective {a b : List UInt8} (hlen : a.length = b.length)
    (h : base32Encode a = base32Encode b) : a = b := by
  rw [base32Encode_eq,base32Encode_eq] at h
  apply Base32.encode_injective (f := id) Base32.digit_injective hlen
  simpa using h

/-- References and identifiers are written in lower case. -/
theorem base32Encode_toLower_injective {a b : List UInt8} (hlen : a.length = b.length)
    (h : (base32Encode a).map Char.toLower = (base32Encode b).map Char.toLower) : a = b := by
  rw [base32Encode_eq,base32Encode_eq] at h
  exact Base32.encode_injective (by decide) hlen h

/-! ### What is drawn for a key -/

/-- `randomBytes(20)` and `randomBytes(10)`. -/
structure TokenBytes where
  tail : List UInt8
  tokenId : List UInt8
  salt : String
  length_tail : tail.length = 20
  length_tokenId : tokenId.length = 10

namespace TokenBytes

def draw (x : TokenBytes) : TokenDraw := .ofBytes x.tail x.tokenId x.salt

theorem drawn (x : TokenBytes) : x.draw.Drawn :=
  ⟨x.tail,x.tokenId,x.salt,x.length_tail,x.length_tokenId,rfl⟩

/-- The slice of 32 characters is the whole of the tail. -/
theorem toList_tail (x : TokenBytes) : x.draw.tail.toList = base32Encode x.tail := by
  have hlen : (base32Encode x.tail).length ≤ 32 := by
    rw [base32Encode_eq,Base32.length_encode,Base32.size_eq,x.length_tail]
  simp [draw,TokenDraw.ofBytes,List.take_of_length_le hlen]

theorem toList_tokenId (x : TokenBytes) :
    x.draw.tokenId.toList = (base32Encode x.tokenId).map Char.toLower := by
  change ((String.ofList (base32Encode x.tokenId)).map Char.toLower).toList = _
  simp

theorem tail_injective {x y : TokenBytes} (h : x.draw.tail = y.draw.tail) : x.tail = y.tail := by
  apply base32Encode_injective (x.length_tail.trans y.length_tail.symm)
  rw [← toList_tail,← toList_tail,h]

theorem tokenId_injective {x y : TokenBytes} (h : x.draw.tokenId = y.draw.tokenId) :
    x.tokenId = y.tokenId := by
  apply base32Encode_toLower_injective (x.length_tokenId.trans y.length_tokenId.symm)
  rw [← toList_tokenId,← toList_tokenId,h]

end TokenBytes

/-- Keys whose random bytes differ have different random parts. -/
theorem DistinctDraws.of_bytes {keys : List (String × TokenBytes)}
    (h : keys.Pairwise fun a b => a.2.tail ≠ b.2.tail ∧ a.2.tokenId ≠ b.2.tokenId) :
    DistinctDraws (keys.map fun key => ⟨key.1,key.2.draw⟩) := by
  rw [DistinctDraws,List.pairwise_map]
  apply h.imp
  intro a b hab
  exact ⟨fun ht => hab.1 (TokenBytes.tail_injective ht),
    fun ht => hab.2 (TokenBytes.tokenId_injective ht)⟩

/-- The tail is the end of the token, and every tail is as long as any other. -/
theorem tail_eq_of_issue_eq {O O' : MemoryApiKeyStore.Options} {st st' : MemoryApiKeyStore}
    {now now' : Date} {x y : TokenBytes} {tenantRef tenantRef' label label' : String}
    (h : (st.issue O now x.draw tenantRef label).1.token =
      (st'.issue O' now' y.draw tenantRef' label').1.token) : x.tail = y.tail := by
  apply TokenBytes.tail_injective
  apply String.toList_inj.1
  have hlist := congrArg String.toList h
  simp only [MemoryApiKeyStore.issue,String.toList_append] at hlist
  apply List.append_inj_right' hlist
  rw [x.drawn.tail.1,y.drawn.tail.1]

/-- The loop writes base32 whatever has been shifted out of its accumulator: every character is
five bits of the bytes in a row, zeros behind their end. So it is injective on bytes of one
length, and no two tokens with different random tails are equal. -/
theorem base32Encode_rfc4648 :
    (∀ bytes : List UInt8, (base32Encode bytes).length = Base32.size bytes.length ∧
      ∀ i < Base32.size bytes.length,
        (base32Encode bytes)[i]? = some (Base32.digit (Base32.quintet bytes i))) ∧
    (∀ a b : List UInt8, a.length = b.length → base32Encode a = base32Encode b → a = b) ∧
    ∀ (O O' : MemoryApiKeyStore.Options) (st st' : MemoryApiKeyStore) (now now' : Date)
      (x y : TokenBytes) (tenantRef tenantRef' label label' : String), x.tail ≠ y.tail →
        (st.issue O now x.draw tenantRef label).1.token ≠
          (st'.issue O' now' y.draw tenantRef' label').1.token := by
  refine ⟨fun bytes => ?_,fun a b => base32Encode_injective,?_⟩
  · rw [base32Encode_eq]
    exact ⟨Base32.length_encode bytes,fun i hi => Base32.getElem?_encode bytes hi⟩
  · intro O O' st st' now now' x y tenantRef tenantRef' label label' hne h
    exact hne (tail_eq_of_issue_eq h)

/-- Twenty equal bytes. -/
def Sample.tokenBytes (b : UInt8) : TokenBytes where
  tail := List.replicate 20 b
  tokenId := List.replicate 10 b
  salt := "salt"
  length_tail := List.length_replicate
  length_tokenId := List.length_replicate

/-- The accumulator has wrapped long before the twentieth byte. -/
theorem base32Encode_rfc4648_sample :
    (base32Encode (Sample.tokenBytes 255).tail)[31]? = some '7' ∧
    (MemoryApiKeyStore.empty.issue Sample.deps.apiKeys Sample.clock (Sample.tokenBytes 255).draw
        Sample.tenantRef "till").1.token ≠
      (MemoryApiKeyStore.empty.issue Sample.deps.apiKeys Sample.clock (Sample.tokenBytes 254).draw
        Sample.tenantRef "till").1.token := by
  constructor
  · exact (base32Encode_rfc4648.1 _).2 31 (by decide)
  · exact base32Encode_rfc4648.2.2 _ _ _ _ _ _ _ _ _ _ _ _ (by decide)

end Zatca
