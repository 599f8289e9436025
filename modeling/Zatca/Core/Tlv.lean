import Zatca.Core.Types
import Zatca.Library.Base64
import Zatca.Library.TagLength
set_option autoImplicit false
namespace Zatca
open TagLength

theorem ok_of_bind {ε α β : Type} {x : Except ε α} {f : α → Except ε β} {b : β}
    (h : (x >>= f) = .ok b) : ∃ a, x = .ok a ∧ f a = .ok b := by
  cases x with
  | error e => cases h
  | ok a => exact ⟨a,rfl,h⟩

/-- `Buffer.from(s, "utf8")`. -/
def utf8 (s : String) : List UInt8 := s.toUTF8.data.toList

theorem utf8_injective {s t : String} (h : utf8 s = utf8 t) : s = t :=
  String.toByteArray_inj.1 (ByteArray.ext (Array.toList_inj.1 h))

inductive TLVValue where
  | string (s : String)
  | uint8Array (bytes : List UInt8)

def TLVValue.bytes : TLVValue → List UInt8
  | .string s => utf8 s
  | .uint8Array bytes => bytes

namespace Uint8Array

/-- `new Uint8Array(length)`. -/
def new (length : Nat) : List UInt8 := List.replicate length 0

/-- `target.set(source, offset)`; a source that does not fit is a `RangeError`. -/
def set (target source : List UInt8) (offset : Nat) : Except Thrown (List UInt8) :=
  if target.length < offset + source.length then .error (.error "offset is out of bounds")
  else .ok (target.take offset ++ source ++ target.drop (offset + source.length))

/-- A stretch of a buffer is replaced. -/
theorem set_stretch (before stretch after source : List UInt8) (h : source.length = stretch.length) :
    set (before ++ (stretch ++ after)) source before.length = .ok (before ++ (source ++ after)) := by
  have hfits : ¬ (before ++ (stretch ++ after)).length < before.length + source.length := by
    simp only [List.length_append]
    omega
  have hdrop : (before ++ (stretch ++ after)).drop (before.length + source.length) = after := by
    rw [← List.drop_drop,List.drop_left,h,List.drop_left]
  rw [set,if_neg hfits,List.take_left,hdrop,List.append_assoc]

end Uint8Array

/-! ### The two loops of `createTLV` -/

def exceedsLengthCap (tagNumber byteLength : Nat) : Thrown :=
  .error ("TLV tag " ++ toString tagNumber ++ " exceeds the 255-byte length cap (got " ++
    toString byteLength ++ " bytes).")

/-- The body of `values.forEach`. -/
def pushSegment (state : List (List UInt8) × Nat) (entry : TLVValue × Nat) :
    Except Thrown (List (List UInt8) × Nat) := do
  let (segments,totalLength) := state
  let (value,index) := entry
  let tagNumber := index + 1
  let bytes := value.bytes
  if bytes.length > 255 then throw (exceedsLengthCap tagNumber bytes.length)
  let segment := Uint8Array.new (2 + bytes.length)
  let segment := segment.set 0 (UInt8.ofNat tagNumber)
  let segment := segment.set 1 (UInt8.ofNat bytes.length)
  let segment ← Uint8Array.set segment bytes 2
  return (segments ++ [segment],totalLength + segment.length)

/-- The body of the loop that fills the output. -/
def copySegment (state : List UInt8 × Nat) (segment : List UInt8) :
    Except Thrown (List UInt8 × Nat) := do
  let (out,offset) := state
  let out ← Uint8Array.set out segment offset
  return (out,offset + segment.length)

/-- A `RangeError` when a value is too long for a length of one byte. -/
def createTLV (values : List TLVValue) : Except Thrown (List UInt8) := do
  let (segments,totalLength) ← values.zipIdx.foldlM pushSegment ([],0)
  let (out,_) ← segments.foldlM copySegment (Uint8Array.new totalLength,0)
  return out

def encodeTLVAsBase64 (values : List TLVValue) : Except Thrown String := do
  let tlv ← createTLV values
  return String.ofList (Base64.encode tlv)

/-! ### What the loops leave -/

/-- The values fit their lengths. -/
def Short (values : List TLVValue) : Prop := ∀ v ∈ values, v.bytes.length ≤ 255

theorem pushSegment_short {segments : List (List UInt8)} {totalLength index : Nat} {v : TLVValue}
    (h : v.bytes.length ≤ 255) :
    pushSegment (segments,totalLength) (v,index) =
      .ok (segments ++ [Entry.bytes ⟨UInt8.ofNat (index + 1),v.bytes,h⟩],
        totalLength + (v.bytes.length + 2)) := by
  have hstart : ((Uint8Array.new (2 + v.bytes.length)).set 0 (UInt8.ofNat (index + 1))).set 1
      (UInt8.ofNat v.bytes.length) =
        [UInt8.ofNat (index + 1),UInt8.ofNat v.bytes.length] ++
          (Uint8Array.new v.bytes.length ++ []) := by
    rw [Nat.add_comm,List.append_nil]
    rfl
  have hlen : v.bytes.length = (Uint8Array.new v.bytes.length).length :=
    List.length_replicate.symm
  have hset := Uint8Array.set_stretch
    [UInt8.ofNat (index + 1),UInt8.ofNat v.bytes.length] (Uint8Array.new v.bytes.length) [] v.bytes hlen
  have hnot : ¬ v.bytes.length > 255 := by omega
  rw [List.append_nil v.bytes] at hset
  simp only [pushSegment,if_neg hnot,hstart]
  exact congrArg (fun r => Except.bind r fun segment =>
    Except.ok (segments ++ [segment],totalLength + segment.length)) hset

theorem pushSegment_long (segments : List (List UInt8)) (totalLength index : Nat) {v : TLVValue}
    (h : 255 < v.bytes.length) : ∃ e, pushSegment (segments,totalLength) (v,index) = .error e := by
  refine ⟨exceedsLengthCap (index + 1) v.bytes.length,?_⟩
  simp only [pushSegment,if_pos (show v.bytes.length > 255 from h)]
  rfl

/-- The first loop makes an entry of every value, tagged from the index on. -/
theorem foldlM_pushSegment {values : List TLVValue} (h : Short values)
    (segments : List (List UInt8)) (totalLength index : Nat) : ∃ es : List Entry,
    (values.zipIdx index).foldlM pushSegment (segments,totalLength) =
      .ok (segments ++ es.map Entry.bytes,totalLength + (encode es).length) ∧
    es.map Entry.tag = (List.range' (index + 1) values.length).map UInt8.ofNat ∧
    es.map Entry.value = values.map TLVValue.bytes := by
  induction values generalizing segments totalLength index with
  | nil =>
    refine ⟨[],?_,rfl,rfl⟩
    simp [pure,Except.pure]
  | cons v values ih =>
    have hv : v.bytes.length ≤ 255 := h v List.mem_cons_self
    have hvalues : Short values := fun w hw => h w (List.mem_cons_of_mem _ hw)
    let e : Entry := ⟨UInt8.ofNat (index + 1),v.bytes,hv⟩
    obtain ⟨es,hfold,htags,hbytes⟩ :=
      ih hvalues (segments ++ [e.bytes]) (totalLength + (v.bytes.length + 2)) (index + 1)
    refine ⟨e :: es,?_,?_,?_⟩
    · rw [List.zipIdx_cons,List.foldlM_cons,pushSegment_short hv]
      refine hfold.trans ?_
      rw [encode_cons,List.length_append,length_bytes,List.append_assoc,Nat.add_assoc]
      rfl
    · rw [List.map_cons,htags,List.length_cons,List.range'_succ,List.map_cons]
    · rw [List.map_cons,hbytes,List.map_cons]

theorem foldlM_pushSegment_error {values : List TLVValue} (h : ¬ Short values)
    (segments : List (List UInt8)) (totalLength index : Nat) :
    ∃ e, (values.zipIdx index).foldlM pushSegment (segments,totalLength) = .error e := by
  induction values generalizing segments totalLength index with
  | nil => exact absurd (fun v hv => absurd hv List.not_mem_nil) h
  | cons v values ih =>
    rw [List.zipIdx_cons,List.foldlM_cons]
    by_cases hv : v.bytes.length ≤ 255
    · have hvalues : ¬ Short values := fun hs => h (List.forall_mem_cons.2 ⟨hv,hs⟩)
      rw [pushSegment_short hv]
      exact ih hvalues _ _ _
    · obtain ⟨e,he⟩ := pushSegment_long segments totalLength index (not_le.1 hv)
      rw [he]
      exact ⟨e,rfl⟩

/-- The second loop fills what is left of the output, in order. -/
theorem foldlM_copySegment (segments : List (List UInt8)) (before : List UInt8) :
    segments.foldlM copySegment (before ++ Uint8Array.new segments.flatten.length,before.length) =
      .ok (before ++ segments.flatten,(before ++ segments.flatten).length) := by
  induction segments generalizing before with
  | nil =>
    have hzero : Uint8Array.new ([] : List (List UInt8)).flatten.length = [] := rfl
    rw [hzero,List.flatten_nil,List.append_nil]
    rfl
  | cons segment segments ih =>
    have hroom : Uint8Array.new (segment :: segments).flatten.length =
        Uint8Array.new segment.length ++ Uint8Array.new segments.flatten.length := by
      rw [List.flatten_cons,List.length_append]
      exact List.replicate_append_replicate.symm
    have hlen : segment.length = (Uint8Array.new segment.length).length :=
      List.length_replicate.symm
    have hset := Uint8Array.set_stretch before (Uint8Array.new segment.length)
      (Uint8Array.new segments.flatten.length) segment hlen
    have hstep : copySegment (before ++ Uint8Array.new (segment :: segments).flatten.length,
        before.length) segment = .ok (before ++ segment ++ Uint8Array.new segments.flatten.length,
          (before ++ segment).length) := by
      rw [hroom,List.append_assoc,List.length_append]
      simp only [copySegment,hset]
      rfl
    have hrest := ih (before ++ segment)
    rw [List.foldlM_cons,hstep]
    refine hrest.trans ?_
    rw [List.flatten_cons,List.append_assoc]

theorem createTLV_of_segments {values : List TLVValue} {es : List Entry}
    (h : values.zipIdx.foldlM pushSegment ([],0) = .ok (es.map Entry.bytes,(encode es).length)) :
    createTLV values = .ok (encode es) := by
  have hcopy := foldlM_copySegment (es.map Entry.bytes) []
  rw [← List.flatMap_def] at hcopy
  rw [createTLV,h]
  simp only [List.nil_append] at hcopy
  refine (congrArg (fun r => Except.bind r fun r => Except.ok r.1) hcopy).trans ?_
  rfl

/-- What is written for values that fit: one entry for each, tagged from one on. -/
theorem createTLV_short {values : List TLVValue} (h : Short values) : ∃ es : List Entry,
    createTLV values = .ok (encode es) ∧
    es.map Entry.tag = (List.range' 1 values.length).map UInt8.ofNat ∧
    es.map Entry.value = values.map TLVValue.bytes := by
  obtain ⟨es,hfold,htags,hbytes⟩ := foldlM_pushSegment h [] 0 0
  refine ⟨es,?_,htags,hbytes⟩
  refine createTLV_of_segments (hfold.trans ?_)
  rw [List.nil_append,Nat.zero_add]

theorem createTLV_long {values : List TLVValue} (h : ¬ Short values) :
    ∃ e, createTLV values = .error e := by
  obtain ⟨e,he⟩ := foldlM_pushSegment_error h [] 0 0
  refine ⟨e,?_⟩
  rw [createTLV,he]
  rfl

theorem short_of_createTLV {values : List TLVValue} {out : List UInt8}
    (h : createTLV values = .ok out) : Short values := by
  by_contra hlong
  obtain ⟨e,he⟩ := createTLV_long hlong
  rw [he] at h
  cases h

/-- What stops a row of values stops it with more behind it. -/
theorem createTLV_append_error {values more : List TLVValue} {e : Thrown}
    (h : createTLV values = .error e) : createTLV (values ++ more) = .error e := by
  have hlong : ¬ Short values := by
    intro hs
    obtain ⟨es,hok,-,-⟩ := createTLV_short hs
    rw [hok] at h
    cases h
  obtain ⟨e',he'⟩ := foldlM_pushSegment_error hlong [] 0 0
  have hsame : createTLV values = .error e' := by
    rw [createTLV,he']
    rfl
  rw [hsame] at h
  cases h
  rw [createTLV,List.zipIdx_append,List.foldlM_append,he']
  rfl

/-- A reader of entries consumes what `createTLV` writes and finds the values under the tags from
one on; only a value too long is refused, and no two rows of byte strings are written alike. -/
theorem createTLV_roundTrip :
    (∀ values : List TLVValue, values.length ≤ 255 →
      ((∃ e, createTLV values = .error e) ↔ ∃ v ∈ values, 255 < v.bytes.length) ∧
      ∀ out, createTLV values = .ok out → ∃ es : List Entry, read out = some es ∧
        es.map (fun e => e.tag.toNat) = List.range' 1 values.length ∧
        es.map Entry.value = values.map TLVValue.bytes) ∧
    ∀ (xs ys : List (List UInt8)) (out : List UInt8),
      createTLV (xs.map .uint8Array) = .ok out → createTLV (ys.map .uint8Array) = .ok out → xs = ys := by
  have hread : ∀ (values : List TLVValue) (out : List UInt8), createTLV values = .ok out →
      ∃ es : List Entry, read out = some es ∧
        es.map Entry.tag = (List.range' 1 values.length).map UInt8.ofNat ∧
        es.map Entry.value = values.map TLVValue.bytes := by
    intro values out hout
    obtain ⟨es,hok,htags,hbytes⟩ := createTLV_short (short_of_createTLV hout)
    rw [hok] at hout
    cases hout
    exact ⟨es,read_encode es,htags,hbytes⟩
  constructor
  · intro values hlen
    constructor
    · constructor
      · rintro ⟨e,he⟩
        by_contra hnone
        have hs : Short values := fun v hv => not_lt.1 fun hlt => hnone ⟨v,hv,hlt⟩
        obtain ⟨es,hok,-,-⟩ := createTLV_short hs
        rw [hok] at he
        cases he
      · rintro ⟨v,hv,hlt⟩
        exact createTLV_long fun hs => absurd (hs v hv) (by omega)
    · intro out hout
      obtain ⟨es,hes,htags,hbytes⟩ := hread values out hout
      refine ⟨es,hes,?_,hbytes⟩
      have hnat := congrArg (List.map UInt8.toNat) htags
      rw [List.map_map,List.map_map] at hnat
      refine hnat.trans ?_
      have hid : ∀ n ∈ List.range' 1 values.length, (UInt8.toNat ∘ UInt8.ofNat) n = n := by
        intro n hn
        rw [List.mem_range'_1] at hn
        rw [Function.comp_apply,UInt8.toNat_ofNat']
        omega
      rw [List.map_congr_left hid,List.map_id']
  · intro xs ys out hx hy
    obtain ⟨es,hes,-,hxs⟩ := hread _ _ hx
    obtain ⟨es',hes',-,hys⟩ := hread _ _ hy
    rw [hes] at hes'
    cases hes'
    have hvalues : ∀ zs : List (List UInt8), (zs.map TLVValue.uint8Array).map TLVValue.bytes = zs := by
      intro zs
      rw [List.map_map]
      exact List.map_id zs
    rw [hvalues] at hxs hys
    exact hxs.symm.trans hys

example : createTLV [.uint8Array [7,8],.uint8Array []] = .ok [1,2,7,8,2,0] := by decide

end Zatca
