import Mathlib.Data.List.TakeWhile
set_option autoImplicit false

/-! Base64 with padding, and a decoder that skips what is not of the alphabet. -/

namespace Base64

def digit (n : Nat) : Char :=
  if n < 26 then Char.ofNat (65 + n) else if n < 52 then Char.ofNat (71 + n)
  else if n < 62 then Char.ofNat (n - 4) else if n = 62 then '+' else '/'

/-- The alphabet for file names is read as well. -/
def digitValue (c : Char) : Option Nat :=
  if 'A' ≤ c ∧ c ≤ 'Z' then some (c.toNat - 65) else if 'a' ≤ c ∧ c ≤ 'z' then some (c.toNat - 71)
  else if '0' ≤ c ∧ c ≤ '9' then some (c.toNat + 4) else if c = '+' ∨ c = '-' then some 62
  else if c = '/' ∨ c = '_' then some 63 else none

/-- Three bytes as four numbers of six bits. -/
def sextets : List UInt8 → List Nat
  | a :: b :: c :: rest =>
    a.toNat / 4 :: (a.toNat % 4 * 16 + b.toNat / 16) :: (b.toNat % 16 * 4 + c.toNat / 64) ::
      c.toNat % 64 :: sextets rest
  | [a,b] => [a.toNat / 4,a.toNat % 4 * 16 + b.toNat / 16,b.toNat % 16 * 4]
  | [a] => [a.toNat / 4,a.toNat % 4 * 16]
  | [] => []

def bytes : List Nat → List UInt8
  | a :: b :: c :: d :: rest =>
    UInt8.ofNat (a * 4 + b / 16) :: UInt8.ofNat (b % 16 * 16 + c / 4) ::
      UInt8.ofNat (c % 4 * 64 + d) :: bytes rest
  | [a,b,c] => [UInt8.ofNat (a * 4 + b / 16),UInt8.ofNat (b % 16 * 16 + c / 4)]
  | [a,b] => [UInt8.ofNat (a * 4 + b / 16)]
  | _ => []

def encode (bs : List UInt8) : List Char :=
  (sextets bs).map digit ++ List.replicate ((3 - bs.length % 3) % 3) '='

def decode (cs : List Char) : List UInt8 := bytes ((cs.takeWhile fun c => c != '=').filterMap digitValue)

theorem sextets_lt (bs : List UInt8) : ∀ n ∈ sextets bs, n < 64 := by
  fun_induction sextets bs with
  | case1 a b c rest ih =>
    have ha := a.toNat_lt
    have hb := b.toNat_lt
    have hc := c.toNat_lt
    simp only [List.forall_mem_cons]
    refine ⟨?_,?_,?_,?_,ih⟩ <;> omega
  | case2 a b =>
    have ha := a.toNat_lt
    have hb := b.toNat_lt
    simp only [List.forall_mem_cons,List.not_mem_nil,false_imp_iff,implies_true,and_true]
    refine ⟨?_,?_,?_⟩ <;> omega
  | case3 a =>
    have ha := a.toNat_lt
    simp only [List.forall_mem_cons,List.not_mem_nil,false_imp_iff,implies_true,and_true]
    refine ⟨?_,?_⟩ <;> omega
  | case4 => simp

theorem bytes_sextets (bs : List UInt8) : bytes (sextets bs) = bs := by
  have hbyte : ∀ (a : UInt8) (n : Nat), n = a.toNat → UInt8.ofNat n = a := by
    rintro a n rfl
    exact UInt8.ofNat_toNat
  fun_induction sextets bs with
  | case1 a b c rest ih =>
    have ha := a.toNat_lt
    have hb := b.toNat_lt
    have hc := c.toNat_lt
    rw [bytes,ih,hbyte a _ (by omega),hbyte b _ (by omega),hbyte c _ (by omega)]
  | case2 a b =>
    have ha := a.toNat_lt
    have hb := b.toNat_lt
    rw [bytes,hbyte a _ (by omega),hbyte b _ (by omega)]
  | case3 a =>
    have ha := a.toNat_lt
    rw [bytes,hbyte a _ (by omega)]
  | case4 => rfl

theorem digitValue_digit : ∀ n < 64, digitValue (digit n) = some n := by decide

/-- The characters of the encoding. -/
def isDigit (c : Char) : Bool := c.isAlphanum || c == '+' || c == '/'

theorem isDigit_digit : ∀ n < 64, isDigit (digit n) = true := by decide

theorem decode_encode (bs : List UInt8) : decode (encode bs) = bs := by
  have hlt := sextets_lt bs
  have hkeep : ∀ c ∈ (sextets bs).map digit, (c != '=') = true := by
    intro c hc
    obtain ⟨n,hn,rfl⟩ := List.mem_map.1 hc
    have hd := isDigit_digit n (hlt n hn)
    cases h : digit n != '=' with
    | true => rfl
    | false =>
      have heq : digit n = '=' := by simpa using h
      rw [heq] at hd
      exact absurd hd (by decide)
  have htake : (encode bs).takeWhile (fun c => c != '=') = (sextets bs).map digit := by
    rw [encode,List.takeWhile_append_of_pos hkeep]
    cases (3 - bs.length % 3) % 3 with
    | zero => simp
    | succ k => simp [List.replicate_succ]
  have hread : ((sextets bs).map digit).filterMap digitValue = sextets bs := by
    rw [List.filterMap_map]
    have : ∀ l : List Nat, (∀ n ∈ l, n < 64) → l.filterMap (digitValue ∘ digit) = l := by
      intro l hl
      induction l with
      | nil => rfl
      | cons n l ih =>
        obtain ⟨hn,hl⟩ := List.forall_mem_cons.1 hl
        rw [List.filterMap_cons_some (show (digitValue ∘ digit) n = some n from digitValue_digit n hn),
          ih hl]
    exact this _ hlt
  rw [decode,htake,hread,bytes_sextets]

example : encode [77,97,110,33] = "TWFuIQ==".toList := by decide

end Base64
