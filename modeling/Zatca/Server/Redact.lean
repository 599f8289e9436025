import Zatca.Core.Ecma
import Zatca.Library.JsMap
set_option autoImplicit false

/-! The redaction of audit payloads, on values as `JSON.parse` makes them: every array and every
object is a new one. -/

namespace Zatca

/-! ### Sensitive keys -/

def SENSITIVE_KEYS : List String :=
  ["privatekey","private_key","apisecret","api_secret","complianceapisecret","productionapisecret",
    "binarysecuritytoken","binary_security_token","compliancebinarysecuritytoken",
    "productionbinarysecuritytoken","apikey","api_key","otp","authorization","token","bearer",
    "masterkey","master_key","masterkeys","csr","csid","pem","pemcertificate","compliancecsidvalue",
    "productioncsidvalue","signature","signaturevalue","signedxml","password","secret"]

/-- `key.toLowerCase()`, as far as it can meet a text of ASCII letters: beside the capitals only the
Kelvin sign has such a lower case. -/
def asciiLowerCase (key : String) : String :=
  String.ofList (key.toList.map fun c => if c.val = 0x212A then 'k' else c.toLower)

/-- `/(secret|token|password)/i.test(key)`: the letters of other scripts fold to none of these. -/
def matchesSensitiveRe (key : String) : Bool :=
  ["secret","token","password"].any fun word =>
    (key.toList.map Char.toLower).tails.any fun rest => word.toList.isPrefixOf rest

def isSensitiveKey (key : String) : Bool :=
  SENSITIVE_KEYS.contains (asciiLowerCase key) || matchesSensitiveRe key

example : ["apiKEY","API_Secret","clientSecretValue","csid"].all isSensitiveKey = true := by decide
example : isSensitiveKey "__proto__" = false := by decide

def REDACTED : Json := .str "[REDACTED]"

/-! ### The walk -/

/-- A value with the identities of its arrays and objects. -/
inductive JsValue where
  | null
  | bool (b : Bool)
  | num (q : ℚ)
  | str (s : String)
  | arr (ref : Nat) (items : List JsValue)
  | obj (ref : Nat) (fields : List (String × JsValue))

/-- `out[key] = value` on an object made by `{}`: under `__proto__` stands a setter of the prototype,
which adds no property. The entries come in the order of the properties, so a new key is the last. -/
def assign (out : List (String × Json)) (key : String) (value : Json) : List (String × Json) :=
  if key = "__proto__" then out
  else if key ∈ out.map Prod.fst then out.map fun e => if e.1 = key then (key,value) else e
  else out ++ [(key,value)]

mutual
/-- `seen` remembers what an array or an object was copied to. A copy is complete when its original
is met again, as no value of a tree holds itself. -/
def walk : JsValue → JsMap Nat Json → Json × JsMap Nat Json
  | .null, seen => (.null,seen)
  | .bool b, seen => (.bool b,seen)
  | .num q, seen => (.num q,seen)
  | .str s, seen => (.str s,seen)
  | .arr ref items, seen =>
    match seen.get ref with
    | some out => (out,seen)
    | none =>
      let (out,seen) := walkItems items seen
      (.arr out,seen.set ref (.arr out))
  | .obj ref fields, seen =>
    match seen.get ref with
    | some out => (out,seen)
    | none =>
      let (out,seen) := walkFields fields [] seen
      (.obj out,seen.set ref (.obj out))
def walkItems : List JsValue → JsMap Nat Json → List Json × JsMap Nat Json
  | [], seen => ([],seen)
  | item :: items, seen =>
    let (out,seen) := walk item seen
    let (outs,seen) := walkItems items seen
    (out :: outs,seen)
def walkFields : List (String × JsValue) → List (String × Json) → JsMap Nat Json →
    List (String × Json) × JsMap Nat Json
  | [], out, seen => (out,seen)
  | (key,child) :: fields, out, seen =>
    if isSensitiveKey key then walkFields fields (assign out key REDACTED) seen
    else
      let (copy,seen) := walk child seen
      walkFields fields (assign out key copy) seen
end

def redactSecrets (input : JsValue) : Json := (walk input .empty).1

/-! ### What was parsed -/

mutual
def JsValue.plain : JsValue → Json
  | .null => .null
  | .bool b => .bool b
  | .num q => .num q
  | .str s => .str s
  | .arr _ items => .arr (plainItems items)
  | .obj _ fields => .obj (plainFields fields)
def plainItems : List JsValue → List Json
  | [] => []
  | item :: items => item.plain :: plainItems items
def plainFields : List (String × JsValue) → List (String × Json)
  | [] => []
  | (key,child) :: fields => (key,child.plain) :: plainFields fields
end

mutual
def JsValue.refs : JsValue → List Nat
  | .arr ref items => ref :: refsItems items
  | .obj ref fields => ref :: refsFields fields
  | _ => []
def refsItems : List JsValue → List Nat
  | [] => []
  | item :: items => item.refs ++ refsItems items
def refsFields : List (String × JsValue) → List Nat
  | [] => []
  | (_,child) :: fields => child.refs ++ refsFields fields
end

mutual
/-- No object has two properties of one name. -/
def Json.distinct : Json → Bool
  | .arr xs => distinctItems xs
  | .obj fields => decide (fields.map Prod.fst).Nodup && distinctFields fields
  | _ => true
def distinctItems : List Json → Bool
  | [] => true
  | x :: xs => x.distinct && distinctItems xs
def distinctFields : List (String × Json) → Bool
  | [] => true
  | (_,x) :: fields => x.distinct && distinctFields fields
end

/-- The values that `JSON.parse` returns. -/
structure JsValue.Parsed (v : JsValue) : Prop where
  fresh : v.refs.Nodup
  distinct : v.plain.distinct = true

/-! ### The walk without identities -/

mutual
def redacted : Json → Json
  | .arr xs => .arr (redactedItems xs)
  | .obj fields => .obj (redactedFields fields)
  | v => v
def redactedItems : List Json → List Json
  | [] => []
  | x :: xs => redacted x :: redactedItems xs
def redactedFields : List (String × Json) → List (String × Json)
  | [] => []
  | (key,x) :: fields =>
    if key = "__proto__" then redactedFields fields
    else (key,if isSensitiveKey key then REDACTED else redacted x) :: redactedFields fields
end

theorem assign_of_new {out : List (String × Json)} {key : String} (h : key ∉ out.map Prod.fst)
    (value : Json) :
    assign out key value = out ++ if key = "__proto__" then [] else [(key,value)] := by
  by_cases hproto : key = "__proto__"
  · simp [assign,hproto]
  · simp [assign,hproto,h]

theorem keys_assign_subset {out : List (String × Json)} {key k : String} (value : Json)
    (hne : k ≠ key) (h : k ∉ out.map Prod.fst) : k ∉ (assign out key value).map Prod.fst := by
  rw [assign]
  split
  · exact h
  · split
    · rw [List.map_map]
      intro hk
      obtain ⟨e,he,hek⟩ := List.mem_map.1 hk
      rw [Function.comp_apply] at hek
      split at hek
      · exact hne hek.symm
      · exact h (hek ▸ List.mem_map_of_mem he)
    · rw [List.map_append,List.mem_append]
      rintro (hk | hk)
      · exact h hk
      · exact hne (by simpa using hk)

theorem plainFields_keys (fields : List (String × JsValue)) :
    (plainFields fields).map Prod.fst = fields.map Prod.fst := by
  induction fields with
  | nil => rfl
  | cons e fields ih => simp [plainFields,ih]

/-- Copies are remembered of the values walked over, and of no others. -/
def Remembers (seen seen' : JsMap Nat Json) (refs : List Nat) : Prop :=
  ∀ ref, ref ∉ refs → seen'.get ref = seen.get ref

theorem Remembers.trans {a b c : JsMap Nat Json} {xs ys : List Nat} (h : Remembers a b xs)
    (h' : Remembers b c ys) : Remembers a c (xs ++ ys) := by
  intro ref href
  rw [List.mem_append,not_or] at href
  rw [h' ref href.2,h ref href.1]

theorem Remembers.set {a b : JsMap Nat Json} {refs : List Nat} (h : Remembers a b refs) (ref : Nat)
    (out : Json) : Remembers a (b.set ref out) (ref :: refs) := by
  intro r hr
  rw [List.mem_cons,not_or] at hr
  rw [JsMap.get_set,if_neg hr.1]
  exact h r hr.2

/-- None of the values has been walked over. -/
def Unseen (seen : JsMap Nat Json) (refs : List Nat) : Prop := ∀ ref ∈ refs, seen.get ref = none

theorem Unseen.after {a b : JsMap Nat Json} {xs ys : List Nat} (h : Unseen a (xs ++ ys))
    (hr : Remembers a b xs) (hd : (xs ++ ys).Nodup) : Unseen b ys := by
  intro ref href
  have hnot : ref ∉ xs := fun hx => (List.nodup_append.1 hd).2.2 ref hx ref href rfl
  rw [hr ref hnot]
  exact h ref (List.mem_append_right _ href)

mutual
/-- On a tree no copy is ever looked up. -/
theorem walk_eq : ∀ (v : JsValue) (seen : JsMap Nat Json), v.refs.Nodup → Unseen seen v.refs →
    v.plain.distinct = true →
    (walk v seen).1 = redacted v.plain ∧ Remembers seen (walk v seen).2 v.refs
  | .null, _, _, _, _ => ⟨rfl,fun _ _ => rfl⟩
  | .bool _, _, _, _, _ => ⟨rfl,fun _ _ => rfl⟩
  | .num _, _, _, _, _ => ⟨rfl,fun _ _ => rfl⟩
  | .str _, _, _, _, _ => ⟨rfl,fun _ _ => rfl⟩
  | .arr ref items, seen, hd, hu, hk => by
    have hnone : seen.get ref = none := hu ref List.mem_cons_self
    have hitems := walkItems_eq items seen (List.nodup_cons.1 hd).2
      (fun r hr => hu r (List.mem_cons_of_mem _ hr)) hk
    simp only [walk,hnone]
    exact ⟨congrArg Json.arr hitems.1,hitems.2.set ref _⟩
  | .obj ref fields, seen, hd, hu, hk => by
    have hnone : seen.get ref = none := hu ref List.mem_cons_self
    simp only [JsValue.plain,Json.distinct,Bool.and_eq_true,decide_eq_true_eq] at hk
    rw [plainFields_keys] at hk
    have hfields := walkFields_eq fields [] seen (List.nodup_cons.1 hd).2
      (fun r hr => hu r (List.mem_cons_of_mem _ hr)) hk.2 hk.1 (by simp)
    simp only [walk,hnone]
    exact ⟨congrArg Json.obj hfields.1,hfields.2.set ref _⟩
theorem walkItems_eq : ∀ (items : List JsValue) (seen : JsMap Nat Json), (refsItems items).Nodup →
    Unseen seen (refsItems items) → distinctItems (plainItems items) = true →
    (walkItems items seen).1 = redactedItems (plainItems items) ∧
      Remembers seen (walkItems items seen).2 (refsItems items)
  | [], _, _, _, _ => ⟨rfl,fun _ _ => rfl⟩
  | item :: items, seen, hd, hu, hk => by
    simp only [plainItems,distinctItems,Bool.and_eq_true] at hk
    have hitem := walk_eq item seen (List.nodup_append.1 hd).1
      (fun r hr => hu r (List.mem_append_left _ hr)) hk.1
    have hitems := walkItems_eq items (walk item seen).2 (List.nodup_append.1 hd).2.1
      (hu.after hitem.2 hd) hk.2
    simp only [walkItems,plainItems,redactedItems,hitem.1,hitems.1,true_and]
    exact hitem.2.trans hitems.2
theorem walkFields_eq : ∀ (fields : List (String × JsValue)) (out : List (String × Json))
    (seen : JsMap Nat Json), (refsFields fields).Nodup → Unseen seen (refsFields fields) →
    distinctFields (plainFields fields) = true → (fields.map Prod.fst).Nodup →
    (∀ key ∈ fields.map Prod.fst, key ∉ out.map Prod.fst) →
    (walkFields fields out seen).1 = out ++ redactedFields (plainFields fields) ∧
      Remembers seen (walkFields fields out seen).2 (refsFields fields)
  | [], out, _, _, _, _, _, _ => ⟨(List.append_nil out).symm,fun _ _ => rfl⟩
  | (key,child) :: fields, out, seen, hd, hu, hk, hn, ho => by
    simp only [plainFields,distinctFields,Bool.and_eq_true] at hk
    obtain ⟨hkey,hn⟩ := List.nodup_cons.1 hn
    have hnew : key ∉ out.map Prod.fst := ho key List.mem_cons_self
    have hout (value : Json) : ∀ k ∈ fields.map Prod.fst,
        k ∉ (assign out key value).map Prod.fst := fun k hk =>
      keys_assign_subset value (fun h => hkey (h ▸ hk)) (ho k (List.mem_cons_of_mem _ hk))
    have hgoal (value : Json) : assign out key value ++ redactedFields (plainFields fields) =
        out ++ if key = "__proto__" then redactedFields (plainFields fields)
          else (key,value) :: redactedFields (plainFields fields) := by
      rw [assign_of_new hnew,List.append_assoc]
      split
      · rfl
      · rfl
    cases hs : isSensitiveKey key with
    | true =>
      have hrest := walkFields_eq fields (assign out key REDACTED) seen (List.nodup_append.1 hd).2.1
        (fun r hr => hu r (List.mem_append_right _ hr)) hk.2 hn (hout REDACTED)
      simp only [walkFields,hs,if_true,plainFields,redactedFields]
      refine ⟨hrest.1.trans (hgoal REDACTED),fun r hr => hrest.2 r fun h => hr ?_⟩
      exact List.mem_append_right _ h
    | false =>
      have hchild := walk_eq child seen (List.nodup_append.1 hd).1
        (fun r hr => hu r (List.mem_append_left _ hr)) hk.1
      have hrest := walkFields_eq fields (assign out key (walk child seen).1) (walk child seen).2
        (List.nodup_append.1 hd).2.1 (hu.after hchild.2 hd) hk.2 hn (hout _)
      simp only [walkFields,hs,plainFields,redactedFields]
      rw [← hchild.1]
      exact ⟨hrest.1.trans (hgoal _),hchild.2.trans hrest.2⟩
end

theorem redactSecrets_eq {v : JsValue} (h : v.Parsed) : redactSecrets v = redacted v.plain :=
  (walk_eq v .empty h.fresh (fun _ _ => rfl) h.distinct).1

/-! ### Where a value stands -/

inductive JsonStep where
  | key (name : String)
  | index (i : Nat)
  deriving DecidableEq

namespace Json

def step : JsonStep → Json → Option Json
  | .key name, v => v.field name
  | .index i, .arr xs => xs[i]?
  | .index _, _ => none

def at? : List JsonStep → Json → Option Json
  | [], v => some v
  | s :: path, v => (v.step s).bind (at? path)

/-- A leaf, or what is seen of an array and of an object from outside. -/
inductive Face where
  | leaf (v : Json)
  | array (length : Nat)
  | object (keys : List String)

def face : Json → Face
  | .arr xs => .array xs.length
  | .obj fields => .object (fields.map Prod.fst)
  | v => .leaf v

end Json

/-- No step of the path enters a sensitive key. -/
def OpenPath (path : List JsonStep) : Prop := ∀ key, .key key ∈ path → isSensitiveKey key = false

theorem OpenPath.tail {s : JsonStep} {path : List JsonStep} (h : OpenPath (s :: path)) :
    OpenPath path := fun key hk => h key (List.mem_cons_of_mem s hk)

mutual
/-- The values differ only in what is stored under sensitive keys. -/
inductive SameOutsideSecrets : Json → Json → Prop
  | null : SameOutsideSecrets .null .null
  | bool (b : Bool) : SameOutsideSecrets (.bool b) (.bool b)
  | num (q : ℚ) : SameOutsideSecrets (.num q) (.num q)
  | str (s : String) : SameOutsideSecrets (.str s) (.str s)
  | arr {xs ys : List Json} : SameItems xs ys → SameOutsideSecrets (.arr xs) (.arr ys)
  | obj {xs ys : List (String × Json)} : SameFields xs ys → SameOutsideSecrets (.obj xs) (.obj ys)
inductive SameItems : List Json → List Json → Prop
  | nil : SameItems [] []
  | cons {x y : Json} {xs ys : List Json} :
      SameOutsideSecrets x y → SameItems xs ys → SameItems (x :: xs) (y :: ys)
inductive SameFields : List (String × Json) → List (String × Json) → Prop
  | nil : SameFields [] []
  | secret {key : String} {xs ys : List (String × Json)} (x y : Json) :
      isSensitiveKey key = true → SameFields xs ys → SameFields ((key,x) :: xs) ((key,y) :: ys)
  | cons {key : String} {x y : Json} {xs ys : List (String × Json)} :
      SameOutsideSecrets x y → SameFields xs ys → SameFields ((key,x) :: xs) ((key,y) :: ys)
end

mutual
theorem redacted_same : ∀ {x y : Json}, SameOutsideSecrets x y → redacted x = redacted y
  | _, _, .null => rfl
  | _, _, .bool _ => rfl
  | _, _, .num _ => rfl
  | _, _, .str _ => rfl
  | _, _, .arr h => congrArg Json.arr (redactedItems_same h)
  | _, _, .obj h => congrArg Json.obj (redactedFields_same h)
theorem redactedItems_same : ∀ {xs ys : List Json}, SameItems xs ys →
    redactedItems xs = redactedItems ys
  | _, _, .nil => rfl
  | _, _, .cons hx hxs => by rw [redactedItems,redactedItems,redacted_same hx,redactedItems_same hxs]
theorem redactedFields_same : ∀ {xs ys : List (String × Json)}, SameFields xs ys →
    redactedFields xs = redactedFields ys
  | _, _, .nil => rfl
  | _, _, .secret _ _ hs hxs => by
    simp only [redactedFields,hs,if_true,redactedFields_same hxs]
  | _, _, .cons hx hxs => by
    simp only [redactedFields,redacted_same hx,redactedFields_same hxs]
end

mutual
theorem redacted_redacted : ∀ v : Json, redacted (redacted v) = redacted v
  | .null => rfl
  | .bool _ => rfl
  | .num _ => rfl
  | .str _ => rfl
  | .arr xs => congrArg Json.arr (redactedItems_redacted xs)
  | .obj fields => congrArg Json.obj (redactedFields_redacted fields)
theorem redactedItems_redacted : ∀ xs : List Json,
    redactedItems (redactedItems xs) = redactedItems xs
  | [] => rfl
  | x :: xs => by
    simp only [redactedItems,redacted_redacted x,redactedItems_redacted xs]
theorem redactedFields_redacted : ∀ fields : List (String × Json),
    redactedFields (redactedFields fields) = redactedFields fields
  | [] => rfl
  | (key,x) :: fields => by
    have ih := redactedFields_redacted fields
    by_cases hproto : key = "__proto__"
    · simp only [redactedFields,hproto,if_true,ih]
    · cases hs : isSensitiveKey key with
      | true => simp only [redactedFields,hproto,hs,if_false,if_true,ih]
      | false => simp [redactedFields,hproto,hs,ih,redacted_redacted x]
end

/-! ### What a step finds after the redaction -/

theorem redactedItems_eq (xs : List Json) : redactedItems xs = xs.map redacted := by
  induction xs with
  | nil => rfl
  | cons x xs ih => simp [redactedItems,ih]

theorem lookup_redactedFields (name : String) (fields : List (String × Json)) :
    (redactedFields fields).lookup name = if name = "__proto__" then none
      else (fields.lookup name).map fun x => if isSensitiveKey name then REDACTED else redacted x := by
  induction fields with
  | nil => simp [redactedFields]
  | cons e fields ih =>
    obtain ⟨key,x⟩ := e
    by_cases hkey : name = key
    · subst hkey
      by_cases hproto : name = "__proto__"
      · simpa [redactedFields,hproto] using ih
      · simp [redactedFields,hproto]
    · have hne := beq_false_of_ne hkey
      by_cases hproto : key = "__proto__"
      · simp only [redactedFields,hproto,if_true,ih,List.lookup_cons]
        rw [← hproto,hne]
      · simp only [redactedFields,hproto,if_false,List.lookup_cons,hne,ih]

theorem step_key_redacted (name : String) (v : Json) :
    (redacted v).step (.key name) = if name = "__proto__" then none
      else (v.step (.key name)).map fun x => if isSensitiveKey name then REDACTED else redacted x := by
  cases v with
  | obj fields => exact lookup_redactedFields name fields
  | _ => simp [redacted,Json.step,Json.field]

theorem step_index_redacted (i : Nat) (v : Json) :
    (redacted v).step (.index i) = (v.step (.index i)).map redacted := by
  cases v with
  | arr xs => simp [redacted,Json.step,redactedItems_eq]
  | _ => rfl

/-- Below a sensitive key there is the marker. -/
theorem redacted_masked (path : List JsonStep) (key : String) (hs : isSensitiveKey key = true)
    (v x : Json) (h : (redacted v).at? (path ++ [.key key]) = some x) : x = REDACTED := by
  induction path generalizing v with
  | nil =>
    simp only [List.nil_append,Json.at?,step_key_redacted,hs,if_true] at h
    split at h
    · cases h
    · cases hstep : v.step (.key key) with
      | none => rw [hstep] at h; cases h
      | some y => rw [hstep] at h; exact (Option.some.inj h).symm
  | cons s path ih =>
    have hmarker : REDACTED.at? (path ++ [.key key]) = none := by
      cases path with
      | nil => rfl
      | cons s path => cases s <;> rfl
    simp only [List.cons_append,Json.at?] at h
    cases s with
    | index i =>
      rw [step_index_redacted] at h
      cases hstep : v.step (.index i) with
      | none => rw [hstep] at h; cases h
      | some y => rw [hstep] at h; exact ih y h
    | key name =>
      rw [step_key_redacted] at h
      split at h
      · cases h
      · cases hstep : v.step (.key name) with
        | none => rw [hstep] at h; cases h
        | some y =>
          rw [hstep,Option.map_some,Option.bind_some] at h
          split at h
          · rw [hmarker] at h
            cases h
          · exact ih y h

/-! ### Objects without `__proto__` -/

mutual
/-- No object outside of the secrets has a property `__proto__`. -/
def protoFree : Json → Bool
  | .arr xs => protoFreeItems xs
  | .obj fields => protoFreeFields fields
  | _ => true
def protoFreeItems : List Json → Bool
  | [] => true
  | x :: xs => protoFree x && protoFreeItems xs
def protoFreeFields : List (String × Json) → Bool
  | [] => true
  | (key,x) :: fields => decide (key ≠ "__proto__") && (isSensitiveKey key || protoFree x) &&
      protoFreeFields fields
end

theorem protoFreeItems_iff {xs : List Json} :
    protoFreeItems xs = true ↔ ∀ x ∈ xs, protoFree x = true := by
  induction xs with
  | nil => simp [protoFreeItems]
  | cons x xs ih => simp [protoFreeItems,ih]

theorem protoFreeFields_iff {fields : List (String × Json)} :
    protoFreeFields fields = true ↔ ∀ e ∈ fields,
      e.1 ≠ "__proto__" ∧ (isSensitiveKey e.1 = false → protoFree e.2 = true) := by
  induction fields with
  | nil => simp [protoFreeFields]
  | cons e fields ih =>
    obtain ⟨key,x⟩ := e
    cases hs : isSensitiveKey key with
    | true => simp [protoFreeFields,ih,hs]
    | false => simp [protoFreeFields,ih,hs]

theorem keys_redactedFields (fields : List (String × Json)) :
    (redactedFields fields).map Prod.fst = (fields.map Prod.fst).filter (· ≠ "__proto__") := by
  induction fields with
  | nil => rfl
  | cons e fields ih =>
    obtain ⟨key,x⟩ := e
    by_cases hproto : key = "__proto__"
    · simpa [redactedFields,hproto] using ih
    · simpa [redactedFields,hproto] using ih

theorem face_redacted {v : Json} (h : protoFree v = true) : (redacted v).face = v.face := by
  cases v with
  | arr xs => simp [redacted,Json.face,redactedItems_eq]
  | obj fields =>
    have hkeys : (fields.map Prod.fst).filter (· ≠ "__proto__") = fields.map Prod.fst := by
      refine List.filter_eq_self.2 fun key hkey => ?_
      obtain ⟨e,he,rfl⟩ := List.mem_map.1 hkey
      simpa using (protoFreeFields_iff.1 h e he).1
    simp only [redacted,Json.face,keys_redactedFields,hkeys]
  | _ => rfl

/-- Outside of the secrets the redaction shows what the value shows. -/
def Preserves (v : Json) : Prop := ∀ path, OpenPath path →
  ((redacted v).at? path).map Json.face = (v.at? path).map Json.face

theorem preserves_of_protoFree {v : Json} (h : protoFree v = true) : Preserves v := by
  intro path hpath
  induction path generalizing v with
  | nil => exact congrArg some (face_redacted h)
  | cons s path ih =>
    simp only [Json.at?]
    cases s with
    | index i =>
      rw [step_index_redacted]
      cases hstep : v.step (.index i) with
      | none => rfl
      | some y =>
        refine ih ?_ hpath.tail
        cases v with
        | arr xs => exact protoFreeItems_iff.1 h y (List.mem_of_getElem? hstep)
        | _ => cases hstep
    | key name =>
      have hopen : isSensitiveKey name = false := hpath name List.mem_cons_self
      cases v with
      | obj fields =>
        rw [step_key_redacted]
        cases hstep : fields.lookup name with
        | none =>
          have hnone : (Json.obj fields).step (.key name) = none := hstep
          rw [hnone]
          split
          · rfl
          · rfl
        | some y =>
          have hmem : (name,y) ∈ fields := by
            obtain ⟨before,after,rfl,-⟩ := List.lookup_eq_some_iff.1 hstep
            simp
          have hfree := protoFreeFields_iff.1 h (name,y) hmem
          have hsome : (Json.obj fields).step (.key name) = some y := hstep
          rw [if_neg hfree.1,hsome,Option.map_some,Option.bind_some,hopen]
          exact ih (hfree.2 hopen) hpath.tail
      | _ => rfl

theorem preserves_item {xs : List Json} (h : Preserves (.arr xs)) : ∀ x ∈ xs, Preserves x := by
  intro x hx path hpath
  obtain ⟨i,hi,rfl⟩ := List.mem_iff_getElem.1 hx
  have hstep : (Json.arr xs).step (.index i) = some xs[i] := List.getElem?_eq_getElem hi
  have hat := h (.index i :: path) fun key hkey => hpath key (by simpa using hkey)
  simpa only [Json.at?,step_index_redacted,hstep,Option.map_some,Option.bind_some] using hat

theorem keys_of_preserves {fields : List (String × Json)} (h : Preserves (.obj fields)) :
    ∀ e ∈ fields, e.1 ≠ "__proto__" := by
  have hface := h [] fun key hkey => absurd hkey List.not_mem_nil
  simp only [Json.at?,redacted,Json.face,Option.map_some,Option.some.injEq,Json.Face.object.injEq,
    keys_redactedFields] at hface
  intro e he
  have hkept := List.filter_eq_self.1 hface e.1 (List.mem_map_of_mem he)
  simpa using hkept

theorem preserves_field {fields : List (String × Json)} (h : Preserves (.obj fields))
    (hd : (fields.map Prod.fst).Nodup) : ∀ e ∈ fields, isSensitiveKey e.1 = false →
      Preserves e.2 := by
  intro e he hopen path hpath
  have hstep : (Json.obj fields).step (.key e.1) = some e.2 :=
    (JsMap.lookup_eq_some_iff hd).2 he
  have hat := h (.key e.1 :: path) fun key hkey => by
    rcases List.mem_cons.1 hkey with hkey | hkey
    · cases hkey
      exact hopen
    · exact hpath key hkey
  simpa [Json.at?,step_key_redacted,hstep,keys_of_preserves h e he,hopen] using hat

mutual
theorem protoFree_of_preserves : ∀ v : Json, v.distinct = true → Preserves v → protoFree v = true
  | .null, _, _ => rfl
  | .bool _, _, _ => rfl
  | .num _, _, _ => rfl
  | .str _, _, _ => rfl
  | .arr xs, hd, h => protoFreeItems_of_preserves xs hd (preserves_item h)
  | .obj fields, hd, h => by
    simp only [Json.distinct,Bool.and_eq_true,decide_eq_true_eq] at hd
    exact protoFreeFields_of_preserves fields hd.2 (keys_of_preserves h) (preserves_field h hd.1)
theorem protoFreeItems_of_preserves : ∀ xs : List Json, distinctItems xs = true →
    (∀ x ∈ xs, Preserves x) → protoFreeItems xs = true
  | [], _, _ => rfl
  | x :: xs, hd, h => by
    simp only [distinctItems,Bool.and_eq_true] at hd
    obtain ⟨hx,hxs⟩ := List.forall_mem_cons.1 h
    rw [protoFreeItems,protoFree_of_preserves x hd.1 hx,protoFreeItems_of_preserves xs hd.2 hxs]
    rfl
theorem protoFreeFields_of_preserves : ∀ fields : List (String × Json),
    distinctFields fields = true → (∀ e ∈ fields, e.1 ≠ "__proto__") →
    (∀ e ∈ fields, isSensitiveKey e.1 = false → Preserves e.2) → protoFreeFields fields = true
  | [], _, _, _ => rfl
  | (key,x) :: fields, hd, hk, h => by
    simp only [distinctFields,Bool.and_eq_true] at hd
    obtain ⟨hkey,hkeys⟩ := List.forall_mem_cons.1 hk
    obtain ⟨hx,hfields⟩ := List.forall_mem_cons.1 h
    have hrest := protoFreeFields_of_preserves fields hd.2 hkeys hfields
    cases hs : isSensitiveKey key with
    | true => simp [protoFreeFields,hkey,hs,hrest]
    | false => simp [protoFreeFields,hkey,hs,hrest,protoFree_of_preserves x hd.1 (hx hs)]
end

/-! ### The audit payloads -/

/-- Nothing of a secret shows, everything else does, and a second redaction changes nothing. -/
structure RedactsWell (v : JsValue) : Prop where
  noninterfering : ∀ w : JsValue, w.Parsed → SameOutsideSecrets v.plain w.plain →
    redactSecrets v = redactSecrets w
  masked : ∀ path key x, isSensitiveKey key = true →
    (redactSecrets v).at? (path ++ [.key key]) = some x → x = REDACTED
  preserved : ∀ path, OpenPath path →
    ((redactSecrets v).at? path).map Json.face = (v.plain.at? path).map Json.face
  idempotent : ∀ w : JsValue, w.Parsed → w.plain = redactSecrets v → redactSecrets w = redactSecrets v

/-- All four hold of a parsed value if and only if no object outside of its secrets has a property
`__proto__`; only the keys and leaves of such an object can be lost. -/
theorem redactsWell_iff (v : JsValue) (hv : v.Parsed) : RedactsWell v ↔ protoFree v.plain = true := by
  constructor
  · intro h
    refine protoFree_of_preserves v.plain hv.distinct fun path hpath => ?_
    rw [← redactSecrets_eq hv]
    exact h.preserved path hpath
  · intro h
    refine ⟨fun w hw hsame => ?_,fun path key x hs hx => ?_,fun path hpath => ?_,fun w hw heq => ?_⟩
    · rw [redactSecrets_eq hv,redactSecrets_eq hw,redacted_same hsame]
    · rw [redactSecrets_eq hv] at hx
      exact redacted_masked path key hs v.plain x hx
    · rw [redactSecrets_eq hv]
      exact preserves_of_protoFree h path hpath
    · rw [redactSecrets_eq hw,heq,redactSecrets_eq hv,redacted_redacted]

namespace Sample

/-- The payload of a request that sets an API secret. -/
def auditPayload : JsValue :=
  .obj 0 [("label",.str "till"),("apiSecret",.obj 1 [("value",.str "s3cret")]),
    ("scopes",.arr 2 [.str "issue",.obj 3 [("otp",.str "123456")]])]

/-- `JSON.parse('{"__proto__":{"label":"till"}}')` -/
def protoPayload : JsValue := .obj 0 [("__proto__",.obj 1 [("label",.str "till")])]

example : redactSecrets auditPayload = .obj [("label",.str "till"),("apiSecret",REDACTED),
    ("scopes",.arr [.str "issue",.obj [("otp",REDACTED)]])] := by decide

end Sample

theorem redactsWell_auditPayload : RedactsWell Sample.auditPayload :=
  (redactsWell_iff Sample.auditPayload ⟨by decide,by decide⟩).2 (by decide)

/-- The property is taken for the prototype, and the copy is empty. -/
theorem redactsWell_fails_on_proto : Sample.protoPayload.Parsed ∧
    redactSecrets Sample.protoPayload = .obj [] ∧ ¬ RedactsWell Sample.protoPayload := by
  refine ⟨⟨by decide,by decide⟩,by decide,fun h => ?_⟩
  have hface := h.preserved [] fun key hkey => absurd hkey List.not_mem_nil
  cases hface

end Zatca
