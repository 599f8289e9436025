import Mathlib.Algebra.Ring.Nat
import Zatca.Library.JsMap
set_option autoImplicit false

/-!
Trees of ECMAScript values: what an object or an array holds under a key, itself or through its
prototype, and how assigning and deleting a property along a path of keys changes what other paths
lead to.
-/

namespace JsTree
open JsMap

/-- What the prototypes hold. -/
inductive Builtin where
  | objectPrototype
  | arrayPrototype
  | function (ofArray : Bool) (name : String)
  deriving DecidableEq

/-- An array has its elements, where none is a hole, and the properties under other keys. -/
inductive Value where
  | undefined
  | null
  | text (s : String)
  | number (n : Nat)
  | builtin (b : Builtin)
  | object (fields : List (String × Value))
  | array (items : List (Option Value)) (named : List (String × Value))

/-- The functions of `Object.prototype`. -/
def objectFunctions : List String := ["constructor","__defineGetter__","__defineSetter__",
  "hasOwnProperty","__lookupGetter__","__lookupSetter__","isPrototypeOf","propertyIsEnumerable",
  "toString","valueOf","toLocaleString"]

/-- The functions of `Array.prototype`. -/
def arrayFunctions : List String := ["constructor","at","concat","copyWithin","fill","find",
  "findIndex","findLast","findLastIndex","lastIndexOf","pop","push","reverse","shift","unshift",
  "slice","sort","splice","includes","indexOf","join","keys","entries","values","forEach","filter",
  "flat","flatMap","map","every","some","reduce","reduceRight","toReversed","toSorted","toSpliced",
  "toLocaleString","toString","with"]

namespace Value

/-- A value that has properties of its own. -/
def isNode : Value → Bool
  | object _ | array _ _ => true
  | _ => false

/-- `typeof value === "object"`, where `null` is left out. -/
def isObject : Value → Bool
  | object _ | array _ _ => true
  | builtin b => b = .objectPrototype || b = .arrayPrototype
  | _ => false

def isUndefined : Value → Bool
  | undefined => true
  | _ => false

/-- The index that a key writes: the numeral of a number below the greatest length. -/
def arrayIndex (key : String) : Option Nat :=
  let n := key.toList.foldl (fun n c => n*10 + (c.toNat - 48)) 0
  if Nat.toDigits 10 n = key.toList ∧ n < 2^32 - 1 then some n else none

/-- The property itself, if there is one. -/
def own (v : Value) (key : String) : Option Value :=
  match v with
  | object fields => fields.lookup key
  | array items named =>
    if key = "length" then some (number items.length)
    else match arrayIndex key with
      | some i => items[i]?.join
      | none => named.lookup key
  | _ => none

def ofObjectPrototype (key : String) : Value :=
  if key ∈ objectFunctions then builtin (.function false key) else undefined

def ofArrayPrototype (key : String) : Value :=
  if key ∈ arrayFunctions then builtin (.function true key) else ofObjectPrototype key

/-- What the prototype chain of an object has under a key, and what the prototypes have themselves. -/
def inherited (v : Value) (key : String) : Value :=
  match v with
  | object _ => if key = "__proto__" then builtin .objectPrototype else ofObjectPrototype key
  | array _ _ => if key = "__proto__" then builtin .arrayPrototype else ofArrayPrototype key
  | builtin .objectPrototype => if key = "__proto__" then null else ofObjectPrototype key
  | builtin .arrayPrototype =>
    if key = "length" then number 0
    else if key = "__proto__" then builtin .objectPrototype else ofArrayPrototype key
  | _ => undefined

/-- `value[key]` of an object. -/
def member (v : Value) (key : String) : Value := (v.own key).getD (v.inherited key)

/-- Assigning an element past the end leaves holes before it. -/
def setItem (items : List (Option Value)) (i : Nat) (u : Value) : List (Option Value) :=
  if i < items.length then items.set i (some u)
  else items ++ List.replicate (i - items.length) none ++ [some u]

/-- `value[key] = u`, for another key than the length of an array. -/
def assign (v : Value) (key : String) (u : Value) : Value :=
  match v with
  | object fields => object (setEntry key u fields)
  | array items named =>
    match arrayIndex key with
    | some i => array (setItem items i u) named
    | none => array items (setEntry key u named)
  | v => v

/-- `delete value[key]`, for another key than the length of an array. -/
def remove (v : Value) (key : String) : Value :=
  match v with
  | object fields => object (fields.filter fun e => e.1 ≠ key)
  | array items named =>
    match arrayIndex key with
    | some i => array (items.set i none) named
    | none => array items (named.filter fun e => e.1 ≠ key)
  | v => v

/-- The key is the length of an array, which cannot be deleted and is assigned in its own way. -/
def isLength (v : Value) (key : String) : Bool :=
  match v with
  | array _ _ => key = "length"
  | _ => false

/-! ### One value -/

theorem arrayIndex_injective {key key' : String} {i : Nat} (h : arrayIndex key = some i)
    (h' : arrayIndex key' = some i) : key = key' := by
  have hkey : ∀ {k : String}, arrayIndex k = some i → Nat.toDigits 10 i = k.toList := by
    intro k hk
    rw [arrayIndex] at hk
    split at hk
    · rename_i hdigits
      cases hk
      exact hdigits.1
    · cases hk
  exact String.toList_inj.1 ((hkey h).symm.trans (hkey h'))

theorem getElem_setItem (items : List (Option Value)) (i j : Nat) (u : Value) :
    (setItem items i u)[j]?.join = if j = i then some u else items[j]?.join := by
  by_cases hi : i < items.length
  · rw [setItem,if_pos hi,List.getElem?_set]
    by_cases hj : j = i
    · simp [hj,hi]
    · have hij : i ≠ j := fun h => hj h.symm
      simp [hj,hij]
  · rw [setItem,if_neg hi,List.append_assoc]
    by_cases hlt : j < items.length
    · have hj : j ≠ i := by omega
      rw [List.getElem?_append_left hlt,if_neg hj]
    · have hnone : items[j]? = none := List.getElem?_eq_none (by omega)
      rw [List.getElem?_append_right (by omega),hnone]
      by_cases hj : j = i
      · have hlen : j - items.length = (List.replicate (i - items.length) (none : Option Value)).length := by
          simp [hj]
        rw [hlen,List.getElem?_concat_length,if_pos hj]
        rfl
      · rw [if_neg hj]
        rcases Nat.lt_or_ge j i with hji | hji
        · rw [List.getElem?_append_left (by simp; omega),List.getElem?_replicate]
          split <;> rfl
        · rw [List.getElem?_eq_none (by simp; omega)]

@[simp] theorem isNode_assign (v u : Value) (key : String) : (v.assign key u).isNode = v.isNode := by
  cases v with
  | array items named =>
    simp only [assign]
    split <;> rfl
  | _ => rfl

@[simp] theorem isNode_remove (v : Value) (key : String) : (v.remove key).isNode = v.isNode := by
  cases v with
  | array items named =>
    simp only [remove]
    split <;> rfl
  | _ => rfl

theorem isObject_of_isNode {v : Value} (h : v.isNode = true) : v.isObject = true := by
  cases v <;> first | rfl | cases h

@[simp] theorem inherited_assign (v u : Value) (key key' : String) :
    (v.assign key u).inherited key' = v.inherited key' := by
  cases v with
  | array items named =>
    simp only [assign]
    split <;> rfl
  | _ => rfl

@[simp] theorem inherited_remove (v : Value) (key key' : String) :
    (v.remove key).inherited key' = v.inherited key' := by
  cases v with
  | array items named =>
    simp only [remove]
    split <;> rfl
  | _ => rfl

theorem own_assign_self {v : Value} (hv : v.isNode = true) {key : String}
    (hkey : v.isLength key = false) (u : Value) : (v.assign key u).own key = some u := by
  cases v with
  | object fields => simp [assign,own,lookup_setEntry]
  | array items named =>
    have hlength : key ≠ "length" := by simpa [isLength] using hkey
    simp only [assign]
    cases hi : arrayIndex key with
    | some i => simp [own,hlength,hi,getElem_setItem]
    | none => simp [own,hlength,hi,lookup_setEntry]
  | _ => cases hv

/-- Assigning under another key changes nothing, except that an array may grow. -/
theorem own_assign_ne {v : Value} {key key' : String} (h : key' ≠ key)
    (hgrow : v.isLength key' = false ∨ (v.own key).isSome) (u : Value) :
    (v.assign key u).own key' = v.own key' := by
  cases v with
  | object fields => simp [assign,own,lookup_setEntry,h]
  | array items named =>
    simp only [assign]
    cases hi : arrayIndex key with
    | none => simp [own,lookup_setEntry,h]
    | some i =>
      simp only [own]
      by_cases hlength : key' = "length"
      · rw [if_pos hlength,if_pos hlength]
        rcases hgrow with hgrow | hgrow
        · simp [isLength,hlength] at hgrow
        · have hkey : key ≠ "length" := fun hk => h (hlength.trans hk.symm)
          simp only [own,if_neg hkey,hi] at hgrow
          have hlt : i < items.length := by
            by_contra hge
            rw [List.getElem?_eq_none (by omega)] at hgrow
            cases hgrow
          simp [setItem,hlt]
      · rw [if_neg hlength,if_neg hlength]
        cases hj : arrayIndex key' with
        | none => rfl
        | some j =>
          have hne : j ≠ i := by
            intro he
            exact h (arrayIndex_injective hj (he ▸ hi))
          simp [getElem_setItem,hne]
  | _ => rfl

theorem own_remove_self {v : Value} {key : String} (hkey : v.isLength key = false) :
    (v.remove key).own key = none := by
  cases v with
  | object fields => simp only [remove,own,lookup_filter_ne,if_true]
  | array items named =>
    have hlength : key ≠ "length" := by simpa [isLength] using hkey
    simp only [remove]
    cases hi : arrayIndex key with
    | none => simp only [own,if_neg hlength,hi,lookup_filter_ne,if_true]
    | some i =>
      simp only [own,if_neg hlength,hi,List.getElem?_set_self']
      cases items[i]? <;> rfl
  | _ => rfl

theorem own_remove_ne {v : Value} {key key' : String} (h : key' ≠ key) :
    (v.remove key).own key' = v.own key' := by
  cases v with
  | object fields => simp only [remove,own,lookup_filter_ne,if_neg h]
  | array items named =>
    simp only [remove]
    cases hi : arrayIndex key with
    | none => simp only [own,lookup_filter_ne,if_neg h]
    | some i =>
      simp only [own,List.length_set]
      by_cases hlength : key' = "length"
      · rw [if_pos hlength,if_pos hlength]
      · rw [if_neg hlength,if_neg hlength]
        cases hj : arrayIndex key' with
        | none => rfl
        | some j =>
          have hne : i ≠ j := by
            intro he
            exact h (arrayIndex_injective hj (he ▸ hi))
          simp [List.getElem?_set_ne hne]
  | _ => rfl

theorem member_assign_self {v : Value} (hv : v.isNode = true) {key : String}
    (hkey : v.isLength key = false) (u : Value) : (v.assign key u).member key = u := by
  rw [member,own_assign_self hv hkey]
  rfl

theorem member_assign_ne {v : Value} {key key' : String} (h : key' ≠ key)
    (hgrow : v.isLength key' = false ∨ (v.own key).isSome) (u : Value) :
    (v.assign key u).member key' = v.member key' := by
  rw [member,own_assign_ne h hgrow,inherited_assign,member]

theorem member_remove_self {v : Value} {key : String} (hkey : v.isLength key = false) :
    (v.remove key).member key = v.inherited key := by
  rw [member,own_remove_self hkey,inherited_remove]
  rfl

theorem member_remove_ne {v : Value} {key key' : String} (h : key' ≠ key) :
    (v.remove key).member key' = v.member key' := by
  rw [member,own_remove_ne h,inherited_remove,member]

/-! ### Paths -/

/-- What a path of keys leads to; only an object has something under a key. -/
def walk (v : Value) : List String → Value
  | [] => v
  | key :: path => if v.isObject then (v.member key).walk path else undefined

/-- The tree with the value at the end of a path changed, where the path leads through properties of
the values themselves. -/
def update (f : Value → Value) (v : Value) : List String → Value
  | [] => f v
  | key :: path =>
    match v.own key with
    | some u => v.assign key (u.update f path)
    | none => v

theorem walk_of_notObject {v : Value} (h : v.isObject = false) {path : List String}
    (hpath : path ≠ []) : v.walk path = undefined := by
  obtain ⟨key,path,rfl⟩ := List.exists_cons_of_ne_nil hpath
  rw [walk,h]
  rfl

@[simp] theorem walk_undefined (path : List String) : undefined.walk path = undefined := by
  cases path <;> rfl

theorem walk_append (v : Value) (path rest : List String) :
    v.walk (path ++ rest) = (v.walk path).walk rest := by
  induction path generalizing v with
  | nil => rfl
  | cons key path ih =>
    rw [List.cons_append,walk,walk]
    split
    · exact ih _
    · rw [walk_undefined]

theorem walk_concat (v : Value) (path : List String) (key : String) : v.walk (path ++ [key]) =
    if (v.walk path).isObject then (v.walk path).member key else undefined := by
  rw [walk_append,walk]
  rfl

theorem isNode_ofObjectPrototype (key : String) : (ofObjectPrototype key).isNode = false := by
  rw [ofObjectPrototype]
  split <;> rfl

theorem isNode_ofArrayPrototype (key : String) : (ofArrayPrototype key).isNode = false := by
  rw [ofArrayPrototype]
  split
  · rfl
  · exact isNode_ofObjectPrototype key

/-- What is inherited is no value of the tree. -/
theorem isNode_inherited (v : Value) (key : String) : (v.inherited key).isNode = false := by
  unfold inherited
  split
  · split
    · rfl
    · exact isNode_ofObjectPrototype key
  · split
    · rfl
    · exact isNode_ofArrayPrototype key
  · split
    · rfl
    · exact isNode_ofObjectPrototype key
  · split
    · rfl
    · split
      · rfl
      · exact isNode_ofArrayPrototype key
  · rfl

theorem own_of_notNode {v : Value} (h : v.isNode = false) (key : String) : v.own key = none := by
  cases v <;> first | rfl | cases h

theorem isNode_walk_of_notNode {v : Value} (h : v.isNode = false) (path : List String) :
    (v.walk path).isNode = false := by
  induction path generalizing v with
  | nil => exact h
  | cons key path ih =>
    rw [walk]
    split
    · refine ih ?_
      rw [member,own_of_notNode h]
      exact isNode_inherited v key
    · rfl

/-- A path to a value of the tree leads through properties of the values themselves. -/
theorem exists_own {v : Value} {key : String} {path : List String}
    (h : (v.walk (key :: path)).isNode = true) :
    v.isNode = true ∧ v.isLength key = false ∧
      ∃ u, v.own key = some u ∧ (u.walk path).isNode = true := by
  have hnode : v.isNode = true := by
    by_contra hv
    rw [isNode_walk_of_notNode (by simpa using hv)] at h
    cases h
  rw [walk,if_pos (isObject_of_isNode hnode),member] at h
  cases hown : v.own key with
  | none =>
    rw [hown,Option.getD_none,isNode_walk_of_notNode (isNode_inherited v key)] at h
    cases h
  | some u =>
    rw [hown,Option.getD_some] at h
    refine ⟨hnode,?_,u,rfl,h⟩
    cases v with
    | array items named =>
      by_cases hlength : key = "length"
      · simp only [own,if_pos hlength,Option.some.injEq] at hown
        rw [← hown,isNode_walk_of_notNode rfl] at h
        cases h
      · simp [isLength,hlength]
    | _ => rfl

theorem walk_update_self {f : Value → Value} {v : Value} {path : List String}
    (h : (v.walk path).isNode = true) : (v.update f path).walk path = f (v.walk path) := by
  induction path generalizing v with
  | nil => rfl
  | cons key path ih =>
    obtain ⟨hnode,hlength,u,hown,hu⟩ := exists_own h
    have hobject : (v.assign key (u.update f path)).isObject = true :=
      isObject_of_isNode (by rw [isNode_assign,hnode])
    have hmember : v.member key = u := by rw [member,hown,Option.getD_some]
    simp only [update,hown]
    rw [walk,if_pos hobject,member_assign_self hnode hlength,ih hu,walk,
      if_pos (isObject_of_isNode hnode),hmember]

/-- A change under one key of one value is not seen along a path that leads elsewhere. -/
theorem walk_update_apart {f : Value → Value} {v : Value} {path : List String} {key : String}
    (h : (v.walk path).isNode = true) (hnode : (f (v.walk path)).isNode = true)
    (hf : ∀ key', key' ≠ key → (f (v.walk path)).member key' = (v.walk path).member key')
    {rest : List String} (hlong : ¬ path ++ [key] <+: rest) (hshort : ¬ rest <+: path ++ [key]) :
    (v.update f path).walk rest = v.walk rest := by
  induction path generalizing v rest with
  | nil =>
    cases rest with
    | nil => exact absurd List.nil_prefix hshort
    | cons key' rest =>
      have hne : key' ≠ key := by
        rintro rfl
        exact hlong (by simp)
      rw [walk] at hnode hf h
      have hself : v.update f [] = f v := rfl
      rw [hself,walk,if_pos (isObject_of_isNode hnode),walk,if_pos (isObject_of_isNode h),
        hf key' hne]
  | cons step path ih =>
    cases rest with
    | nil => exact absurd List.nil_prefix hshort
    | cons key' rest =>
      obtain ⟨hv,hlength,u,hown,hu⟩ := exists_own h
      have hobject : (v.assign step (u.update f path)).isObject = true :=
        isObject_of_isNode (by rw [isNode_assign,hv])
      have hmember : v.member step = u := by rw [member,hown,Option.getD_some]
      have hwalk : v.walk (step :: path) = u.walk path := by
        rw [walk,if_pos (isObject_of_isNode hv),hmember]
      simp only [update,hown]
      rw [walk,if_pos hobject,walk,if_pos (isObject_of_isNode hv)]
      by_cases hstep : key' = step
      · subst hstep
        rw [member_assign_self hv hlength,hmember]
        rw [hwalk] at hnode hf
        refine ih hu hnode hf ?_ ?_
        · intro hp
          exact hlong (List.cons_prefix_cons.2 ⟨rfl,hp⟩)
        · intro hp
          exact hshort (List.cons_prefix_cons.2 ⟨rfl,hp⟩)
      · rw [member_assign_ne hstep (.inr (by rw [hown]; rfl))]

end Value
end JsTree
