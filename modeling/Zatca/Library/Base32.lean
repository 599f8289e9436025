import Mathlib.Algebra.Order.Floor.Div
import Mathlib.Data.List.Range
import Mathlib.Data.Nat.Init
set_option autoImplicit false

/-! Base32 without padding (RFC 4648): the bits of the bytes in groups of five, and the window of a
shifting accumulator through which an encoder sees them. -/

namespace Base32

/-- Bit `j`, each byte with its most significant bit first; behind the last byte there are zeros. -/
def bit (bytes : List UInt8) (j : Nat) : Bool :=
  (bytes.getD (j/8) 0).toNat.testBit (7 - j%8)

/-- The bits `5*i` to `5*i + 4` as a number. -/
def quintet (bytes : List UInt8) (i : Nat) : Nat :=
  Nat.ofBits fun k : Fin 5 => bit bytes (5*i + (4 - k))

/-- The letters, and the numerals from 2 on. -/
def digit (n : Nat) : Char := if n < 26 then Char.ofNat (65 + n) else Char.ofNat (24 + n)

example : (List.range 32).map digit = "ABCDEFGHIJKLMNOPQRSTUVWXYZ234567".toList := by decide

/-- The number of characters for `n` bytes: eight bits a byte, five a character, rounded up. -/
def size (n : Nat) : Nat := 8*n ⌈/⌉ 5

def encode (bytes : List UInt8) : List Char :=
  (List.range (size bytes.length)).map fun i => digit (quintet bytes i)

theorem size_eq (n : Nat) : size n = (8*n + 4)/5 := by
  rw [size,Nat.ceilDiv_eq_add_pred_div]
  omega

@[simp] theorem length_encode (bytes : List UInt8) : (encode bytes).length = size bytes.length := by
  simp [encode]

theorem getElem?_encode (bytes : List UInt8) {i : Nat} (hi : i < size bytes.length) :
    (encode bytes)[i]? = some (digit (quintet bytes i)) := by
  simp [encode,hi]

theorem quintet_lt (bytes : List UInt8) (i : Nat) : quintet bytes i < 32 :=
  Nat.ofBits_lt_two_pow _

theorem testBit_quintet (bytes : List UInt8) (i : Nat) {k : Nat} (hk : k < 5) :
    (quintet bytes i).testBit k = bit bytes (5*i + (4 - k)) := Nat.testBit_ofBits_lt _ k hk

theorem quintet_eq_of_testBit {bytes : List UInt8} {i n : Nat} (hn : n < 32)
    (h : ∀ k < 5, n.testBit k = bit bytes (5*i + (4 - k))) : n = quintet bytes i := by
  apply Nat.eq_of_testBit_eq
  intro k
  by_cases hk : k < 5
  · rw [h k hk,testBit_quintet _ _ hk]
  · have hpow : 2^5 ≤ 2^k := Nat.pow_le_pow_right (by omega) (by omega)
    have hq := quintet_lt bytes i
    rw [Nat.testBit_lt_two_pow (by omega),Nat.testBit_lt_two_pow (by omega)]

/-! ### Nothing is lost -/

theorem digit_injective : ∀ m < 32, ∀ n < 32, digit m = digit n → m = n := by decide

theorem bit_of_length_le {bytes : List UInt8} {j : Nat} (h : 8*bytes.length ≤ j) :
    bit bytes j = false := by
  have hend : bytes.length ≤ j/8 := by omega
  simp [bit,List.getD_eq_getElem?_getD,hend]

theorem bit_eq_of_quintet_eq {a b : List UInt8} (hlen : a.length = b.length)
    (h : ∀ i < size a.length, quintet a i = quintet b i) (j : Nat) : bit a j = bit b j := by
  by_cases hj : j < 8*a.length
  · have hi : j/5 < size a.length := by
      rw [size_eq]
      omega
    have hq := congrArg (Nat.testBit · (4 - j%5)) (h (j/5) hi)
    simp only [testBit_quintet _ _ (show 4 - j%5 < 5 by omega)] at hq
    rwa [show 5*(j/5) + (4 - (4 - j%5)) = j by omega] at hq
  · rw [bit_of_length_le (by omega),bit_of_length_le (by omega)]

theorem getD_eq_of_bit_eq {a b : List UInt8} (h : ∀ j, bit a j = bit b j) (c : Nat) :
    a.getD c 0 = b.getD c 0 := by
  apply UInt8.toNat_inj.1
  apply Nat.eq_of_testBit_eq
  intro k
  by_cases hk : k < 8
  · have hbit := h (8*c + (7 - k))
    simp only [bit] at hbit
    rwa [show (8*c + (7 - k))/8 = c by omega,show 7 - (8*c + (7 - k))%8 = k by omega] at hbit
  · have hpow : 2^8 ≤ 2^k := Nat.pow_le_pow_right (by omega) (by omega)
    have ha := (a.getD c 0).toNat_lt
    have hb := (b.getD c 0).toNat_lt
    rw [Nat.testBit_lt_two_pow (by omega),Nat.testBit_lt_two_pow (by omega)]

theorem eq_of_quintet_eq {a b : List UInt8} (hlen : a.length = b.length)
    (h : ∀ i < size a.length, quintet a i = quintet b i) : a = b := by
  apply List.ext_getElem hlen
  intro c ha hb
  have hget := getD_eq_of_bit_eq (bit_eq_of_quintet_eq hlen h) c
  simpa [List.getD_eq_getElem?_getD,ha,hb] using hget

/-- Bytes of one length are told apart by what is written of them, also when it is written with
other characters, as long as these differ. -/
theorem encode_injective {f : Char → Char}
    (hf : ∀ m < 32, ∀ n < 32, f (digit m) = f (digit n) → m = n) {a b : List UInt8}
    (hlen : a.length = b.length) (h : (encode a).map f = (encode b).map f) : a = b := by
  apply eq_of_quintet_eq hlen
  intro i hi
  have hchar := congrArg (·[i]?) h
  simp only [List.getElem?_map,getElem?_encode a hi,getElem?_encode b (hlen ▸ hi),Option.map_some,
    Option.some.injEq] at hchar
  exact hf _ (quintet_lt a i) _ (quintet_lt b i) hchar

/-! ### An accumulator that keeps the bits read last -/

/-- The low `w` bits of the accumulator are the last of the first `p` bits; nothing is said about
what has been shifted further up. -/
def Window (bytes : List UInt8) (p w value : Nat) : Prop :=
  ∀ k < w, value.testBit k = bit bytes (p - 1 - k)

theorem window_zero (bytes : List UInt8) (p value : Nat) : Window bytes p 0 value := by
  intro k hk
  omega

theorem Window.mono {bytes : List UInt8} {p w w' value : Nat} (h : Window bytes p w value)
    (hw : w' ≤ w) : Window bytes p w' value := fun k hk => h k (by omega)

/-- The next byte is shifted in; the register of `m` bits may drop what is above the window. -/
theorem Window.push {bytes : List UInt8} {c w m value : Nat} {b : UInt8}
    (h : Window bytes (8*c) w value) (hb : bytes[c]? = some b) (hm : w + 8 ≤ m) :
    Window bytes (8*(c+1)) (w+8) ((value <<< 8) % 2^m ||| b.toNat) := by
  intro k hk
  have hkm : k < m := by omega
  rw [Nat.testBit_or,Nat.testBit_mod_two_pow,Nat.testBit_shiftLeft]
  by_cases h8 : k < 8
  · have hlow : ¬ k ≥ 8 := by omega
    have hbit : bit bytes (8*(c+1) - 1 - k) = b.toNat.testBit k := by
      rw [bit,show (8*(c+1) - 1 - k)/8 = c by omega,show 7 - (8*(c+1) - 1 - k)%8 = k by omega]
      simp [List.getD_eq_getElem?_getD,hb]
    simp [hlow,hbit]
  · have hpow : 2^8 ≤ 2^k := Nat.pow_le_pow_right (by omega) (by omega)
    have hb256 := b.toNat_lt
    have hhigh : b.toNat.testBit k = false := Nat.testBit_lt_two_pow (by omega)
    have hold := h (k - 8) (by omega)
    rw [show 8*c - 1 - (k - 8) = 8*(c+1) - 1 - k by omega] at hold
    simp [hkm,show k ≥ 8 by omega,hhigh,hold]

/-- Five bits of the window, above `r` bits that are left for later. -/
theorem Window.shiftRight {bytes : List UInt8} {i r value : Nat}
    (h : Window bytes (5*i + 5 + r) (r+5) value) : (value >>> r) % 32 = quintet bytes i := by
  apply quintet_eq_of_testBit (Nat.mod_lt _ (by omega))
  intro k hk
  have hold := h (r + k) (by omega)
  rw [show 5*i + 5 + r - 1 - (r + k) = 5*i + (4 - k) by omega] at hold
  rw [show (32 : Nat) = 2^5 from rfl,Nat.testBit_mod_two_pow,Nat.testBit_shiftRight,hold]
  simp [hk]

/-- What is left over at the end is filled up with zeros. -/
theorem Window.shiftLeft {bytes : List UInt8} {i w m value : Nat} (hend : 8*bytes.length = 5*i + w)
    (h : Window bytes (5*i + w) w value) (hw : w ≤ 5) (hm : 5 ≤ m) :
    ((value <<< (5 - w)) % 2^m) % 32 = quintet bytes i := by
  apply quintet_eq_of_testBit (Nat.mod_lt _ (by omega))
  intro k hk
  have hkm : k < m := by omega
  rw [show (32 : Nat) = 2^5 from rfl,Nat.testBit_mod_two_pow,Nat.testBit_mod_two_pow,
    Nat.testBit_shiftLeft]
  by_cases hpad : k < 5 - w
  · rw [bit_of_length_le (by omega)]
    simp [show ¬ k ≥ 5 - w by omega]
  · have hold := h (k - (5 - w)) (by omega)
    rw [show 5*i + w - 1 - (k - (5 - w)) = 5*i + (4 - k) by omega] at hold
    simp [hk,hkm,show k ≥ 5 - w by omega,hold]

end Base32
