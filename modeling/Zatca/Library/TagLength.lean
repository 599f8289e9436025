import Mathlib.Data.List.TakeWhile
set_option autoImplicit false

/-! Rows of entries, each a tag of one byte, a length of one byte and that many bytes. -/

namespace TagLength

/-- The length of an entry fits its byte. -/
structure Entry where
  tag : UInt8
  value : List UInt8
  short : value.length ≤ 255
  deriving DecidableEq

def Entry.bytes (e : Entry) : List UInt8 := e.tag :: UInt8.ofNat e.value.length :: e.value

def encode (es : List Entry) : List UInt8 := es.flatMap Entry.bytes

/-- The entry at the front and what follows it. -/
def readEntry : List UInt8 → Option (Entry × List UInt8)
  | tag :: length :: rest =>
    if length.toNat ≤ rest.length then
      some (⟨tag,rest.take length.toNat,by
        have hl := length.toNat_lt
        rw [List.length_take]
        omega⟩,rest.drop length.toNat)
    else none
  | _ => none

/-- Reads entries until nothing is left. -/
def readFrom : Nat → List UInt8 → Option (List Entry)
  | _, [] => some []
  | 0, _ :: _ => none
  | fuel + 1, b :: bs => do
    let (e,rest) ← readEntry (b :: bs)
    let es ← readFrom fuel rest
    some (e :: es)

def read (bs : List UInt8) : Option (List Entry) := readFrom bs.length bs

theorem Entry.ext_value {e e' : Entry} (ht : e.tag = e'.tag) (hv : e.value = e'.value) : e = e' := by
  cases e
  cases e'
  cases ht
  cases hv
  rfl

@[simp] theorem encode_nil : encode [] = [] := rfl

@[simp] theorem encode_cons (e : Entry) (es : List Entry) :
    encode (e :: es) = e.bytes ++ encode es := rfl

theorem encode_append (es es' : List Entry) : encode (es ++ es') = encode es ++ encode es' :=
  List.flatMap_append

theorem length_bytes (e : Entry) : e.bytes.length = e.value.length + 2 := rfl

/-- An entry is read without what follows it. -/
theorem readEntry_bytes (e : Entry) (rest : List UInt8) :
    readEntry (e.bytes ++ rest) = some (e,rest) := by
  have hl : (UInt8.ofNat e.value.length).toNat = e.value.length := by
    have hs := e.short
    rw [UInt8.toNat_ofNat']
    omega
  have hle : (UInt8.ofNat e.value.length).toNat ≤ (e.value ++ rest).length := by
    rw [hl,List.length_append]
    omega
  rw [Entry.bytes,List.cons_append,List.cons_append,readEntry,if_pos hle]
  simp only [hl,List.take_left',List.drop_left']

/-- What is read is what stands there. -/
theorem bytes_of_readEntry {bs rest : List UInt8} {e : Entry} (h : readEntry bs = some (e,rest)) :
    bs = e.bytes ++ rest := by
  unfold readEntry at h
  split at h
  · rename_i tag length tail
    split at h
    · rename_i hle
      cases h
      have hlen : (tail.take length.toNat).length = length.toNat := by
        rw [List.length_take]
        omega
      simp [Entry.bytes,hlen]
    · cases h
  · cases h

theorem readFrom_encode {es : List Entry} {fuel : Nat} (h : (encode es).length ≤ fuel) :
    readFrom fuel (encode es) = some es := by
  induction es generalizing fuel with
  | nil => cases fuel <;> rfl
  | cons e es ih =>
    rw [encode_cons,List.length_append,length_bytes] at h
    cases fuel with
    | zero => omega
    | succ fuel =>
      have hread : readEntry (e.tag :: (UInt8.ofNat e.value.length :: e.value ++ encode es)) =
          some (e,encode es) := readEntry_bytes e (encode es)
      have hrest : readFrom fuel (encode es) = some es := ih (by omega)
      rw [encode_cons,Entry.bytes,List.cons_append,readFrom,hread]
      simp only [Option.bind_eq_bind,Option.bind_some,hrest]

theorem read_encode (es : List Entry) : read (encode es) = some es := readFrom_encode le_rfl

theorem encode_of_readFrom {bs : List UInt8} {es : List Entry} {fuel : Nat}
    (h : readFrom fuel bs = some es) : encode es = bs := by
  induction fuel generalizing bs es with
  | zero =>
    cases bs with
    | nil =>
      cases h
      rfl
    | cons b bs => cases h
  | succ fuel ih =>
    cases bs with
    | nil =>
      cases h
      rfl
    | cons b bs =>
      rw [readFrom,Option.bind_eq_bind,Option.bind_eq_some_iff] at h
      obtain ⟨⟨e,rest⟩,he,h⟩ := h
      rw [Option.bind_eq_bind,Option.bind_eq_some_iff] at h
      obtain ⟨es',hes,h⟩ := h
      cases h
      rw [encode_cons,ih hes,bytes_of_readEntry he]

/-- A text of bytes is the encoding of the entries that are read from it, and of no others. -/
theorem read_eq_some {bs : List UInt8} {es : List Entry} : read bs = some es ↔ encode es = bs := by
  constructor
  · exact encode_of_readFrom
  · rintro rfl
    exact read_encode es

end TagLength
