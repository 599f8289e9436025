import Zatca.Core.Number
import Zatca.Core.Types
import Zatca.Library.JsTree
set_option autoImplicit false

/-! Reading and editing a parsed document by paths of tags, with all that a path can meet: repeated
elements, texts, missing nodes, the root, and what objects and arrays inherit. -/

namespace Zatca.DocumentEdits
open JsTree
open JsTree.Value

/-! ### Paths -/

/-- `path_query.split("/")`. -/
def segments (path_query : String) : List String :=
  (path_query.toList.splitOn '/').map String.ofList

def FORBIDDEN_PATH_SEGMENTS : List String := ["__proto__","constructor","prototype"]

def isForbiddenSegment (segment : String) : Bool := FORBIDDEN_PATH_SEGMENTS.contains segment

def pathHasForbiddenSegment (path : String) : Bool := (segments path).any isForbiddenSegment

/-- The walk along the segments of a path. It ends where the segments that remain are joined to the
empty text: where none remains, or one that is empty. -/
def getElement (xml_object : Value) : List String → Value
  | [] => xml_object
  | current_tag :: path =>
    if current_tag = "" ∧ path = [] then xml_object
    else if xml_object.isObject then getElement (xml_object.member current_tag) path
    else .undefined

/-- The tags that the walk takes. -/
def tags : List String → List String
  | [] => []
  | tag :: path => if tag = "" ∧ path = [] then [] else tag :: tags path

/-! ### Matching -/

/-- `a === b`, where an object in `b` is made for the comparison: no object is the same as it. -/
def strictEquals : Value → Value → Bool
  | .undefined, .undefined => true
  | .null, .null => true
  | .text a, .text b => a = b
  | .number a, .number b => a = b
  | .builtin a, .builtin b => a = b
  | _, _ => false

abbrev Condition := List (String × Value)

def matchesSubset (item : Value) (pattern : Condition) : Bool :=
  item.isObject && pattern.all fun (key,value) => strictEquals (item.member key) value

def filterByMatchSubset (arr : List Value) (predicate : Condition) : List Value :=
  arr.filter fun x => matchesSubset x predicate

def isEmpty : Value → Bool
  | .undefined => true
  | .null => true
  | .array items _ => items.isEmpty
  | .object fields => fields.isEmpty
  | .builtin b => b = .objectPrototype || b = .arrayPrototype
  | .text s => s = ""
  | .number n => n = 0

/-- The elements of an array, where a hole reads as `undefined`; another value by itself. -/
def elements : Value → List Value
  | .array items _ => items.map fun item => item.getD .undefined
  | .builtin .arrayPrototype => []
  | v => [v]

def queryResult (xml_object : Value) : Option Condition → List Value
  | none => elements xml_object
  | some condition => filterByMatchSubset (elements xml_object) condition

/-! ### The document -/

structure Document where
  xml_object : Value

/-- `!value` of the root. -/
def isFalsy : Value → Bool
  | .object _ => false
  | .array _ _ => false
  | v => isEmpty v

/-- The result of a query for what was found. -/
def found (xml_object : Value) (condition : Option Condition) : Option (List Value) :=
  if xml_object.isUndefined then none
  else if (queryResult xml_object condition).isEmpty then none
  else some (queryResult xml_object condition)

def get (doc : Document) (path_query : String) (condition : Option Condition := none) :
    Option (List Value) :=
  if isFalsy doc.xml_object then none
  else found (getElement doc.xml_object (segments path_query)) condition

/-- The document with one of its values changed. What a path finds in a prototype is no value of the
document. -/
def Document.change (doc : Document) (path : List String) (changed : Value) : Document :=
  if (doc.xml_object.walk path).isNode then ⟨doc.xml_object.update (fun _ => changed) path⟩ else doc

/-- What is left of an array without the elements that match; `filter` passes over holes. None where
the property is to be deleted. -/
def remaining (target : Value) (condition : Option Condition) : Option (List Value) :=
  match target, condition with
  | .array items _, some condition =>
    let filtered := (items.filterMap id).filter fun element => !matchesSubset element condition
    if filtered.isEmpty then none else some filtered
  | _, _ => none

/-- The parent after the deletion. -/
def withoutMatches (parent_xml_object : Value) (last_tag : String) (condition : Option Condition) :
    Except Thrown Value :=
  match remaining (parent_xml_object.member last_tag) condition with
  | some filtered => .ok (parent_xml_object.assign last_tag (.array (filtered.map some) []))
  | none =>
    if parent_xml_object.isLength last_tag then
      .error (.typeError "Cannot delete property 'length' of [object Array]")
    else .ok (parent_xml_object.remove last_tag)

def delete (doc : Document) (path_query : String) (condition : Option Condition := none) :
    Except Thrown Bool × Document :=
  if isFalsy doc.xml_object then (.ok false,doc)
  else if pathHasForbiddenSegment path_query then (.ok false,doc)
  else if (found (getElement doc.xml_object (segments path_query)) condition).isNone then (.ok false,doc)
  else
    match (tags (segments path_query)).getLast? with
    -- the root has no parent
    | none => (.ok true,doc)
    | some last_tag =>
      let parent := (tags (segments path_query)).dropLast
      match withoutMatches (doc.xml_object.walk parent) last_tag condition with
      | .error e => (.error e,doc)
      | .ok changed => (.ok true,doc.change parent changed)

/-! ### Setting -/

/-- What `set` takes: `XMLObject | string`. -/
inductive SetXml where
  | text (s : String)
  | object (fields : List (String × Value))

def SetXml.value : SetXml → Value
  | text s => .text s
  | object fields => .object fields

/-- The value of a digit, up to `f`. -/
def radixDigit (c : Char) : Nat :=
  if c.isDigit then c.toNat - 48 else if c.isLower then c.toNat - 87 else c.toNat - 55

def radixNumber (radix : Nat) (ds : List Char) : Option ℚ :=
  if ds ≠ [] ∧ ds.all fun c => c.isAlphanum && radixDigit c < radix then
    some (ds.foldl (fun n c => n*radix + radixDigit c) 0 : Nat)
  else none

def isExponent : List Char → Bool
  | [] => true
  | e :: '+' :: ds => (e = 'e' || e = 'E') && !ds.isEmpty && ds.all Char.isDigit
  | e :: '-' :: ds => (e = 'e' || e = 'E') && !ds.isEmpty && ds.all Char.isDigit
  | e :: ds => (e = 'e' || e = 'E') && !ds.isEmpty && ds.all Char.isDigit

def decimalNumber (cs : List Char) : Option ℚ :=
  let read := Numeral.scan cs
  if (read.1.whole = [] ∧ read.1.fraction = []) ∨ isExponent read.2 = false then none
  else some (read.1.value * 10^Number.parseExponent read.2)

/-- `Number(s)`, where it is finite, as the decimal that the text denotes. -/
def numberOfText (s : String) : Option ℚ :=
  match trimChars s.toList with
  | [] => some 0
  | '0' :: 'x' :: ds => radixNumber 16 ds
  | '0' :: 'X' :: ds => radixNumber 16 ds
  | '0' :: 'o' :: ds => radixNumber 8 ds
  | '0' :: 'O' :: ds => radixNumber 8 ds
  | '0' :: 'b' :: ds => radixNumber 2 ds
  | '0' :: 'B' :: ds => radixNumber 2 ds
  | '+' :: '-' :: _ => none
  | '+' :: ds => decimalNumber ds
  | ds => decimalNumber ds

/-- The length that a value stands for; an object, and an array of two elements, is no number. -/
def arrayLength : Value → Option Nat
  | .text s => (numberOfText s).bind fun q =>
    if q.den = 1 ∧ 0 ≤ q ∧ q < 2^32 then some q.num.toNat else none
  | .number n => if n < 2^32 then some n else none
  | _ => none

def setLength (items : List (Option Value)) (n : Nat) : List (Option Value) :=
  items.take n ++ List.replicate (n - items.length) none

/-- What a function does not let be assigned. -/
def functionReadOnly : List String := ["length","name","arguments","caller"]

/-- `branch[tag] = value`; none when it throws. A text or a number takes no property. -/
def store (branch : Value) (tag : String) (value : Value) : Option Value :=
  match branch with
  | .object fields => some ((Value.object fields).assign tag value)
  | .array items named =>
    if tag = "length" then (arrayLength value).map fun n => .array (setLength items n) named
    else some ((Value.array items named).assign tag value)
  | .builtin b => if tag ∈ functionReadOnly then none else some (.builtin b)
  | _ => none

/-- What a tag is set to: an array, or any other value that is there, is extended. -/
def setValue (old : Value) (overwrite : Bool) (set_xml : Value) : Value :=
  if overwrite || old.isUndefined then set_xml
  else .array ((elements old ++ [set_xml]).map some) []

def set (doc : Document) (path_query : String) (overwrite : Bool) (set_xml : SetXml) :
    Bool × Document :=
  if isFalsy doc.xml_object then (false,doc)
  else if pathHasForbiddenSegment path_query then (false,doc)
  else
    match (segments path_query).getLast? with
    | none => (false,doc)
    | some tag =>
      let path_tags := (segments path_query).dropLast
      let branch := getElement doc.xml_object path_tags
      if isEmpty branch then (false,doc)
      else
        match store branch tag (setValue (branch.member tag) overwrite set_xml.value) with
        | none => (false,doc)
        | some changed => (true,doc.change (tags path_tags) changed)

/-! ### The laws -/

/-- Neither path leads through what the other leads to. -/
def Apart (path other : String) : Prop :=
  ¬ tags (segments path) <+: tags (segments other) ∧ ¬ tags (segments other) <+: tags (segments path)

/-- The elements of the array at a path that do not match. -/
def siblings (doc : Document) (path : String) (condition : Condition) : List Value :=
  match getElement doc.xml_object (segments path) with
  | .array items _ => (items.filterMap id).filter fun element => !matchesSubset element condition
  | _ => []

theorem Apart.symm {path other : String} (h : Apart path other) : Apart other path := ⟨h.2,h.1⟩

structure DeleteLaw (doc : Document) (path : String) (condition : Option Condition) : Prop where
  removed : (delete doc path condition).1 = .ok true ↔
    get doc path condition ≠ none ∧ get (delete doc path condition).2 path condition = none
  apart : (delete doc path condition).1 = .ok true → ∀ other condition', Apart path other →
    get (delete doc path condition).2 other condition' = get doc other condition'
  siblings : (delete doc path condition).1 = .ok true → ∀ pattern, condition = some pattern →
    siblings doc path pattern ≠ [] →
      get (delete doc path condition).2 path = some (siblings doc path pattern)
  unchanged : (delete doc path condition).1 = .ok false → (delete doc path condition).2 = doc

structure SetLaw (doc : Document) (path : String) (overwrite : Bool) (set_xml : SetXml) : Prop where
  result : (set doc path overwrite set_xml).1 = true →
    get (set doc path overwrite set_xml).2 path =
      some (if overwrite then [set_xml.value] else (get doc path).getD [] ++ [set_xml.value])
  unchanged : (set doc path overwrite set_xml).1 = false → (set doc path overwrite set_xml).2 = doc

/-- The path is refused, or leads to nothing that matches, or to the value under a tag; without a
condition the tag is no name that its parent inherits. -/
def DeletesCleanly (doc : Document) (path : String) (condition : Option Condition) : Prop :=
  pathHasForbiddenSegment path = true ∨ get doc path condition = none ∨
    ∃ parent tag, tags (segments path) = parent ++ [tag] ∧
      (condition = none → ((doc.xml_object.walk parent).inherited tag).isUndefined = true)

/-- Nothing can be set under the tag of this value. -/
def refuses (branch : Value) (tag : String) : Bool :=
  isEmpty branch ||
    match branch with
    | .object _ => false
    | .array _ _ => false
    | .builtin _ => tag ∈ functionReadOnly
    | _ => true

/-- The path is refused, or its parent takes nothing, or the parent is an object or an array, the tag
is not the length of an array, and the walk along the path ends under that tag of that parent. -/
def SetsCleanly (doc : Document) (path : String) : Prop :=
  pathHasForbiddenSegment path = true ∨ ∃ path_tags tag, segments path = path_tags ++ [tag] ∧
    (refuses (doc.xml_object.walk (tags path_tags)) tag = true ∨
      ((doc.xml_object.walk (tags path_tags)).isNode = true ∧
        (doc.xml_object.walk (tags path_tags)).isLength tag = false ∧
        tags (segments path) = tags path_tags ++ [tag]))

/-! ### Walking -/

theorem getElement_eq (v : Value) (path : List String) : getElement v path = v.walk (tags path) := by
  induction path generalizing v with
  | nil => rfl
  | cons tag path ih =>
    rw [getElement,tags]
    split
    · rfl
    · rw [walk,ih]

theorem tags_concat (path : List String) (tag : String) :
    tags (path ++ [tag]) = if tag = "" then path else path ++ [tag] := by
  induction path with
  | nil =>
    simp only [List.nil_append,tags]
    split <;> simp_all
  | cons first path ih =>
    have hne : path ++ [tag] ≠ [] := by simp
    rw [List.cons_append,tags,if_neg fun h => hne h.2,ih]
    split <;> rfl

theorem segments_ne_nil (path : String) : segments path ≠ [] := by
  simp [segments,List.splitOn_ne_nil]

theorem isFalsy_of_isNode {v : Value} (h : v.isNode = true) : isFalsy v = false := by
  cases v <;> first | rfl | cases h

theorem get_eq {doc : Document} (hroot : doc.xml_object.isNode = true) (path : String)
    (condition : Option Condition) :
    get doc path condition = found (doc.xml_object.walk (tags (segments path))) condition := by
  rw [get,isFalsy_of_isNode hroot,getElement_eq]
  rfl

/-! ### What is found -/

theorem elements_of_notObject {v : Value} (h : v.isObject = false) : elements v = [v] := by
  cases v with
  | builtin b =>
    cases b with
    | function ofArray name => rfl
    | _ => cases h
  | array items named => cases h
  | _ => rfl

theorem isObject_inherited {tag : String} (htag : tag ≠ "__proto__") (v : Value) :
    (v.inherited tag).isObject = false := by
  have hobject : ∀ tag, (ofObjectPrototype tag).isObject = false := by
    intro tag
    rw [ofObjectPrototype]
    split <;> rfl
  have harray : ∀ tag, (ofArrayPrototype tag).isObject = false := by
    intro tag
    rw [ofArrayPrototype]
    split
    · rfl
    · exact hobject tag
  unfold inherited
  split
  · rw [if_neg htag]
    exact hobject tag
  · rw [if_neg htag]
    exact harray tag
  · rw [if_neg htag]
    exact hobject tag
  · split
    · rfl
    · exact harray tag
  · rfl

theorem found_some_of_notObject {v : Value} (h : v.isObject = false) (pattern : Condition) :
    found v (some pattern) = none := by
  have hempty : queryResult v (some pattern) = [] := by
    simp [queryResult,filterByMatchSubset,elements_of_notObject h,matchesSubset,h]
  rw [found,hempty]
  simp

theorem found_none_of_notObject {v : Value} (h : v.isObject = false) :
    found v none = none ↔ v.isUndefined = true := by
  rw [found]
  split
  · simp_all
  · simp_all [queryResult,elements_of_notObject h]

theorem found_of_isUndefined {v : Value} (h : v.isUndefined = true) (condition : Option Condition) :
    found v condition = none := by
  rw [found,if_pos h]

/-! ### Deleting -/

/-- The last tag of a path that is not refused is no name of a prototype. -/
theorem last_ne_proto {path : String} (h : pathHasForbiddenSegment path = false)
    {parent : List String} {tag : String} (htags : tags (segments path) = parent ++ [tag]) :
    tag ≠ "__proto__" := by
  have hsub : ∀ segs : List String, ∀ t ∈ tags segs, t ∈ segs := by
    intro segs
    induction segs with
    | nil => simp [tags]
    | cons first rest ih =>
      intro t ht
      rw [tags] at ht
      split at ht
      · cases ht
      · rcases List.mem_cons.1 ht with rfl | ht
        · exact List.mem_cons_self
        · exact List.mem_cons_of_mem first (ih t ht)
  rintro rfl
  have hmem : "__proto__" ∈ segments path := hsub _ _ (by simp [htags])
  simp only [pathHasForbiddenSegment,List.any_eq_false] at h
  exact h _ hmem (by decide)

theorem isNone_found {doc : Document} (hroot : doc.xml_object.isNode = true) {path : String}
    {condition : Option Condition} (hget : get doc path condition ≠ none) :
    (found (getElement doc.xml_object (segments path)) condition).isNone = false := by
  rw [getElement_eq]
  rw [get_eq hroot] at hget
  cases h : found (doc.xml_object.walk (tags (segments path))) condition with
  | none => exact absurd h hget
  | some r => rfl

/-- What `delete` does with a path that is not refused and leads to something that matches. -/
theorem delete_eq {doc : Document} (hroot : doc.xml_object.isNode = true) {path : String}
    {condition : Option Condition} (hpath : pathHasForbiddenSegment path = false)
    (hget : get doc path condition ≠ none) {parent : List String} {tag : String}
    (htags : tags (segments path) = parent ++ [tag]) :
    delete doc path condition =
      match withoutMatches (doc.xml_object.walk parent) tag condition with
      | .error e => (.error e,doc)
      | .ok changed => (.ok true,doc.change parent changed) := by
  have hfound := isNone_found hroot hget
  rw [delete,isFalsy_of_isNode hroot,hpath,hfound,htags]
  simp

/-- A path that is refused or leads to nothing that matches deletes nothing. -/
theorem delete_eq_false {doc : Document} (hroot : doc.xml_object.isNode = true) {path : String}
    {condition : Option Condition}
    (h : pathHasForbiddenSegment path = true ∨ get doc path condition = none) :
    delete doc path condition = (.ok false,doc) := by
  rw [delete,isFalsy_of_isNode hroot]
  by_cases hpath : pathHasForbiddenSegment path = true
  · simp [hpath]
  · have hget := h.resolve_left hpath
    rw [get_eq hroot,← getElement_eq] at hget
    simp [hpath,hget]

theorem delete_root {doc : Document} (hroot : doc.xml_object.isNode = true) {path : String}
    {condition : Option Condition} (hpath : pathHasForbiddenSegment path = false)
    (hget : get doc path condition ≠ none) (htags : tags (segments path) = []) :
    delete doc path condition = (.ok true,doc) := by
  have hfound := isNone_found hroot hget
  rw [delete,isFalsy_of_isNode hroot,hpath,hfound,htags]
  rfl

theorem own_of_isNode_member {v : Value} {key : String} (h : (v.member key).isNode = true) :
    v.isNode = true ∧ v.isLength key = false ∧ (v.own key).isSome = true := by
  have hnode : v.isNode = true := by
    by_contra hv
    rw [member,own_of_notNode (by simpa using hv),Option.getD_none,isNode_inherited] at h
    cases h
  have hwalk : (v.walk [key]).isNode = true := by
    rw [walk,if_pos (isObject_of_isNode hnode)]
    exact h
  obtain ⟨-,hlength,u,hown,-⟩ := exists_own hwalk
  exact ⟨hnode,hlength,by rw [hown]; rfl⟩

theorem remaining_none (target : Value) : remaining target none = none := by
  cases target <;> rfl

theorem isUndefined_inherited_length {v : Value} {key : String} (h : v.isLength key = true) :
    (v.inherited key).isUndefined = true := by
  cases v with
  | array items named =>
    have hkey : key = "length" := by simpa [isLength] using h
    have hfree : (ofArrayPrototype "length").isUndefined = true := by decide
    rw [hkey]
    exact hfree
  | _ => cases h

/-- Only an array is filtered. -/
theorem isNode_of_remaining {target : Value} {condition : Option Condition} {filtered : List Value}
    (h : remaining target condition = some filtered) : target.isNode = true := by
  unfold remaining at h
  split at h
  · rfl
  · cases h

/-- The parent after a deletion: what is under other tags stays, and under this tag is what is left of
the array, or what the parent inherits. -/
theorem withoutMatches_spec {v changed : Value} {tag : String} {condition : Option Condition}
    (h : withoutMatches v tag condition = .ok changed) :
    changed.isNode = v.isNode ∧ (∀ tag', tag' ≠ tag → changed.member tag' = v.member tag') ∧
      changed.member tag = match remaining (v.member tag) condition with
        | some filtered => .array (filtered.map some) []
        | none => v.inherited tag := by
  rw [withoutMatches] at h
  cases hleft : remaining (v.member tag) condition with
  | some filtered =>
    obtain ⟨hnode,hlength,hown⟩ := own_of_isNode_member (isNode_of_remaining hleft)
    simp only [hleft,Except.ok.injEq] at h
    subst h
    exact ⟨isNode_assign _ _ _,fun tag' hne => member_assign_ne hne (.inr hown) _,
      member_assign_self hnode hlength _⟩
  | none =>
    simp only [hleft] at h
    split at h
    · cases h
    · rename_i hlength
      cases h
      exact ⟨isNode_remove _ _,fun tag' hne => member_remove_ne hne,
        member_remove_self (by simpa using hlength)⟩

/-- After a deletion nothing that matches is under the tag, if without a condition nothing is
inherited under it. -/
theorem found_withoutMatches {v changed : Value} {tag : String} {condition : Option Condition}
    (htag : tag ≠ "__proto__") (h : withoutMatches v tag condition = .ok changed)
    (hinherited : condition = none → (v.inherited tag).isUndefined = true) :
    found (changed.member tag) condition = none := by
  rw [(withoutMatches_spec h).2.2]
  cases hleft : remaining (v.member tag) condition with
  | none =>
    cases condition with
    | none => exact found_of_isUndefined (hinherited rfl) none
    | some pattern => exact found_some_of_notObject (isObject_inherited htag v) pattern
  | some filtered =>
    cases condition with
    | none => cases hmember : v.member tag <;> simp [remaining,hmember] at hleft
    | some pattern =>
      have hnone : ∀ e ∈ filtered, matchesSubset e pattern = false := by
        unfold remaining at hleft
        split at hleft
        · rename_i hcondition
          cases hcondition
          simp only at hleft
          split at hleft
          · cases hleft
          · cases hleft
            intro e he
            simpa using (List.mem_filter.1 he).2
        · cases hleft
      have hempty : queryResult (.array (filtered.map some) []) (some pattern) = [] := by
        simpa [queryResult,filterByMatchSubset,elements,List.filter_eq_nil_iff] using hnone
      rw [found,hempty]
      simp

/-! ### The document after a change -/

theorem isNode_update {f : Value → Value} {v : Value} {path : List String} (hv : v.isNode = true)
    (hf : (f (v.walk path)).isNode = true) : (v.update f path).isNode = true := by
  cases path with
  | nil => exact hf
  | cons key path =>
    rw [update]
    split
    · rw [isNode_assign,hv]
    · exact hv

theorem isNode_change {doc : Document} (hroot : doc.xml_object.isNode = true) {path : List String}
    (hpath : (doc.xml_object.walk path).isNode = true) {changed : Value}
    (hchanged : changed.isNode = true) : (doc.change path changed).xml_object.isNode = true := by
  rw [Document.change,if_pos hpath]
  exact isNode_update hroot hchanged

/-- Below the changed value the paths lead on from the new one. -/
theorem walk_change {doc : Document} {path : List String}
    (hpath : (doc.xml_object.walk path).isNode = true) (changed : Value) (rest : List String) :
    (doc.change path changed).xml_object.walk (path ++ rest) = changed.walk rest := by
  rw [Document.change,if_pos hpath,walk_append,walk_update_self hpath]

theorem get_change_apart {doc : Document} (hroot : doc.xml_object.isNode = true)
    {parent : List String} (hparent : (doc.xml_object.walk parent).isNode = true) {changed : Value}
    (hchanged : changed.isNode = true) {path : String} {tag : String}
    (htags : tags (segments path) = parent ++ [tag])
    (hmember : ∀ tag', tag' ≠ tag → changed.member tag' = (doc.xml_object.walk parent).member tag')
    {other : String} (hapart : Apart path other) (condition : Option Condition) :
    get (doc.change parent changed) other condition = get doc other condition := by
  rw [get_eq (isNode_change hroot hparent hchanged),get_eq hroot,Document.change,if_pos hparent]
  rw [Apart,htags] at hapart
  rw [walk_update_apart hparent hchanged hmember hapart.1 hapart.2]

/-! ### The law of deleting -/

theorem get_eq_member {doc : Document} (hroot : doc.xml_object.isNode = true) {path : String}
    {parent : List String} {tag : String} (htags : tags (segments path) = parent ++ [tag])
    (hparent : (doc.xml_object.walk parent).isObject = true) (condition : Option Condition) :
    get doc path condition = found ((doc.xml_object.walk parent).member tag) condition := by
  rw [get_eq hroot,htags,walk_concat,if_pos hparent]

/-- What matches, and is not inherited, is a property of a value of the document. -/
theorem isNode_parent {doc : Document} (hroot : doc.xml_object.isNode = true) {path : String}
    {condition : Option Condition} (hpath : pathHasForbiddenSegment path = false)
    (hget : get doc path condition ≠ none) {parent : List String} {tag : String}
    (htags : tags (segments path) = parent ++ [tag])
    (hinherited : condition = none → ((doc.xml_object.walk parent).inherited tag).isUndefined = true) :
    (doc.xml_object.walk parent).isNode = true := by
  by_contra hnode
  rw [get_eq hroot,htags,walk_concat] at hget
  split at hget
  · rw [member,own_of_notNode (by simpa using hnode),Option.getD_none] at hget
    cases condition with
    | none => exact hget (found_of_isUndefined (hinherited rfl) none)
    | some pattern =>
      have htag := last_ne_proto hpath htags
      exact hget (found_some_of_notObject (isObject_inherited htag _) pattern)
  · exact hget (found_of_isUndefined rfl condition)

theorem found_array (xs : List Value) :
    found (.array (xs.map some) []) none = if xs = [] then none else some xs := by
  have helements : elements (.array (xs.map some) []) = xs := by
    simp [elements,Function.comp_def]
  rw [found,queryResult,helements]
  cases xs <;> rfl

theorem DeleteLaw.of_eq_self {doc : Document} {path : String} {condition : Option Condition}
    {r : Except Thrown Bool} (h : delete doc path condition = (r,doc)) (hr : r ≠ .ok true) :
    DeleteLaw doc path condition where
  removed := by
    rw [h]
    constructor
    · intro htrue
      exact absurd htrue hr
    · intro hget
      exact absurd hget.2 hget.1
  apart htrue := by
    rw [h] at htrue
    exact absurd htrue hr
  siblings htrue := by
    rw [h] at htrue
    exact absurd htrue hr
  unchanged _ := by rw [h]

theorem deleteLaw_of_cleanly {doc : Document} (hroot : doc.xml_object.isNode = true) {path : String}
    {condition : Option Condition} (h : DeletesCleanly doc path condition) :
    DeleteLaw doc path condition := by
  by_cases hrefused : pathHasForbiddenSegment path = true ∨ get doc path condition = none
  · exact .of_eq_self (delete_eq_false hroot hrefused) (by simp)
  · obtain ⟨hpath,hget⟩ := not_or.1 hrefused
    rw [Bool.not_eq_true] at hpath
    obtain ⟨parent,tag,htags,hinherited⟩ := (h.resolve_left (by simp [hpath])).resolve_left hget
    have hnode := isNode_parent hroot hpath hget htags hinherited
    have hdelete := delete_eq hroot hpath hget htags
    cases hchanged : withoutMatches (doc.xml_object.walk parent) tag condition with
    | error e =>
      rw [hchanged] at hdelete
      exact .of_eq_self hdelete (by simp)
    | ok changed =>
      rw [hchanged] at hdelete
      obtain ⟨hkind,hothers,hmember⟩ := withoutMatches_spec hchanged
      have hnode' : changed.isNode = true := hkind.trans hnode
      have hafter : ∀ condition', get (doc.change parent changed) path condition' =
          found (changed.member tag) condition' := by
        intro condition'
        rw [get_eq (isNode_change hroot hnode hnode'),htags,walk_change hnode,walk,
          if_pos (isObject_of_isNode hnode')]
        rfl
      have hgone : get (doc.change parent changed) path condition = none := by
        rw [hafter]
        exact found_withoutMatches (last_ne_proto hpath htags) hchanged hinherited
      constructor
      · rw [hdelete]
        simp [hget,hgone]
      · intro _ other condition' hapart
        rw [hdelete]
        exact get_change_apart hroot hnode hnode' htags hothers hapart condition'
      · intro _ pattern hpattern hleft
        rw [hdelete,hafter,hmember]
        have htarget : getElement doc.xml_object (segments path) =
            (doc.xml_object.walk parent).member tag := by
          rw [getElement_eq,htags,walk_concat,if_pos (isObject_of_isNode hnode)]
        rw [siblings,htarget] at hleft ⊢
        cases htree : (doc.xml_object.walk parent).member tag with
        | array items named =>
          simp only [htree] at hleft
          simp only [remaining,hpattern,List.isEmpty_iff,if_neg hleft]
          rw [found_array,if_neg hleft]
        | _ =>
          simp only [htree] at hleft
          exact absurd rfl hleft
      · rw [hdelete]
        simp

/-- Deleting keeps its law exactly where the path is refused, nothing matches, or a tag is deleted
that is not inherited too. -/
theorem deleteLaw_iff {doc : Document} (hroot : doc.xml_object.isNode = true) (path : String)
    (condition : Option Condition) :
    DeleteLaw doc path condition ↔ DeletesCleanly doc path condition := by
  refine ⟨fun h => ?_,deleteLaw_of_cleanly hroot⟩
  by_contra hnot
  simp only [DeletesCleanly,not_or,Bool.not_eq_true,not_exists,not_and] at hnot
  obtain ⟨hpath,hget,hnot⟩ := hnot
  rcases List.eq_nil_or_concat' (tags (segments path)) with htags | ⟨parent,tag,htags⟩
  · have hdelete := delete_root hroot hpath hget htags
    have hremoved := h.removed
    rw [hdelete] at hremoved
    exact hget (hremoved.1 rfl).2
  · have hinherited := hnot parent tag htags
    simp only [Classical.not_imp] at hinherited
    obtain ⟨rfl,hinherited⟩ := hinherited
    have hdelete := delete_eq hroot hpath hget htags
    have hlength : (doc.xml_object.walk parent).isLength tag = false := by
      by_contra hlength
      exact hinherited (isUndefined_inherited_length (by simpa using hlength))
    have hremove : withoutMatches (doc.xml_object.walk parent) tag none =
        .ok ((doc.xml_object.walk parent).remove tag) := by
      rw [withoutMatches,remaining_none,hlength]
      rfl
    rw [hremove] at hdelete
    have hremoved := h.removed
    rw [hdelete] at hremoved
    have hgone := (hremoved.1 rfl).2
    by_cases hnode : (doc.xml_object.walk parent).isNode = true
    · have hnode' : ((doc.xml_object.walk parent).remove tag).isNode = true := by
        rw [isNode_remove,hnode]
      rw [get_eq (isNode_change hroot hnode hnode'),htags,walk_change hnode,walk,
        if_pos (isObject_of_isNode hnode'),member_remove_self hlength] at hgone
      have htag := last_ne_proto hpath htags
      exact hinherited ((found_none_of_notObject (isObject_inherited htag _)).1 hgone)
    · have hsame : ∀ changed, doc.change parent changed = doc := by
        intro changed
        rw [Document.change,if_neg hnode]
      exact hget (hsame _ ▸ hgone)

/-! ### The law of setting -/

theorem set_eq {doc : Document} (hroot : doc.xml_object.isNode = true) {path : String}
    (hpath : pathHasForbiddenSegment path = false) {path_tags : List String} {tag : String}
    (hsegments : segments path = path_tags ++ [tag]) (overwrite : Bool) (set_xml : SetXml) :
    set doc path overwrite set_xml =
      if isEmpty (doc.xml_object.walk (tags path_tags)) then (false,doc)
      else
        match store (doc.xml_object.walk (tags path_tags)) tag (setValue
          ((doc.xml_object.walk (tags path_tags)).member tag) overwrite set_xml.value) with
        | none => (false,doc)
        | some changed => (true,doc.change (tags path_tags) changed) := by
  rw [set,isFalsy_of_isNode hroot,hpath,hsegments]
  simp only [List.getLast?_append,List.getLast?_singleton,Option.some_or,List.dropLast_concat,
    getElement_eq]
  rfl

theorem store_of_refuses {branch : Value} {tag : String} (h : refuses branch tag = true)
    (hempty : isEmpty branch = false) (value : Value) : store branch tag value = none := by
  cases branch with
  | object fields => simp [refuses,hempty] at h
  | array items named => simp [refuses,hempty] at h
  | builtin b =>
    have htag : tag ∈ functionReadOnly := by simpa [refuses,hempty] using h
    rw [store,if_pos htag]
  | _ => rfl

theorem store_node {branch : Value} {tag : String} (hnode : branch.isNode = true)
    (hlength : branch.isLength tag = false) (value : Value) :
    store branch tag value = some (branch.assign tag value) := by
  cases branch with
  | object fields => rfl
  | array items named =>
    have htag : tag ≠ "length" := by simpa [isLength] using hlength
    rw [store,if_neg htag]
  | _ => cases hnode

theorem elements_setXml (x : SetXml) : elements x.value = [x.value] := by
  cases x <;> rfl

theorem found_setXml (x : SetXml) : found x.value none = some [x.value] := by
  cases x <;> rfl

theorem found_eq_elements (v : Value) (h : v.isUndefined = false) :
    (found v none).getD [] = elements v := by
  rw [found,h]
  cases helements : elements v <;> simp [queryResult,helements]

/-- The results that the tag holds afterwards. -/
theorem found_setValue (old : Value) (overwrite : Bool) (x : SetXml) :
    found (setValue old overwrite x.value) none =
      some (if overwrite then [x.value] else (found old none).getD [] ++ [x.value]) := by
  cases overwrite with
  | true => exact found_setXml x
  | false =>
    cases hold : old.isUndefined with
    | true => simp [setValue,hold,found_setXml,found_of_isUndefined hold]
    | false =>
      have hvalue : setValue old false x.value = .array ((elements old ++ [x.value]).map some) [] := by
        rw [setValue,hold]
        rfl
      rw [hvalue,found_array,if_neg (by simp),found_eq_elements old hold]
      rfl

theorem SetLaw.of_eq_self {doc : Document} {path : String} {overwrite : Bool} {x : SetXml}
    (h : set doc path overwrite x = (false,doc)) : SetLaw doc path overwrite x where
  result htrue := by
    rw [h] at htrue
    cases htrue
  unchanged _ := by rw [h]

theorem set_forbidden {doc : Document} (hroot : doc.xml_object.isNode = true) {path : String}
    (hpath : pathHasForbiddenSegment path = true) (overwrite : Bool) (x : SetXml) :
    set doc path overwrite x = (false,doc) := by
  rw [set,isFalsy_of_isNode hroot,hpath]
  rfl

theorem setLaw_of_cleanly {doc : Document} (hroot : doc.xml_object.isNode = true) {path : String}
    (h : SetsCleanly doc path) (overwrite : Bool) (x : SetXml) : SetLaw doc path overwrite x := by
  cases hpath : pathHasForbiddenSegment path with
  | true => exact .of_eq_self (set_forbidden hroot hpath overwrite x)
  | false =>
    obtain ⟨path_tags,tag,hsegments,h⟩ := h.resolve_left (by simp [hpath])
    have hset := set_eq hroot hpath hsegments overwrite x
    cases hempty : isEmpty (doc.xml_object.walk (tags path_tags)) with
    | true => exact .of_eq_self (by rw [hset,hempty]; rfl)
    | false =>
      rw [hempty] at hset
      rcases h with hrefuses | ⟨hnode,hlength,htags⟩
      · rw [store_of_refuses hrefuses hempty] at hset
        exact .of_eq_self hset
      · rw [store_node hnode hlength] at hset
        have hnode' : ∀ value, ((doc.xml_object.walk (tags path_tags)).assign tag value).isNode = true :=
          fun value => (isNode_assign _ value tag).trans hnode
        constructor
        · intro _
          rw [hset]
          simp only [Bool.false_eq_true,if_false]
          rw [get_eq (isNode_change hroot hnode (hnode' _)),htags,walk_change hnode,walk,
            if_pos (isObject_of_isNode (hnode' _)),member_assign_self hnode hlength,
            get_eq_member hroot htags (isObject_of_isNode hnode)]
          exact found_setValue _ overwrite x
        · intro hfalse
          rw [hset] at hfalse
          cases hfalse

/-! ### Where setting breaks its law -/

theorem tags_cases (path : List String) : path = tags path ∨ path = tags path ++ [""] := by
  rcases List.eq_nil_or_concat' path with rfl | ⟨front,last,rfl⟩
  · exact .inl rfl
  · rw [tags_concat]
    split
    · rename_i hlast
      rw [hlast]
      exact .inr rfl
    · exact .inl rfl

/-- What was there is not what was there with one more result. -/
theorem ne_append_self (results : Option (List Value)) (x : Value) :
    results ≠ some (results.getD [] ++ [x]) := by
  cases results <;> simp

theorem arrayIndex_empty : arrayIndex "" = none := by decide

/-- A property under the empty key changes no number of results. -/
theorem length_elements_assign (v u : Value) :
    (elements (v.assign "" u)).length = (elements v).length := by
  cases v with
  | array items named => simp [assign,arrayIndex_empty,elements]
  | _ => rfl

theorem found_node {v : Value} (hnode : v.isNode = true) (hempty : isEmpty v = false) :
    found v none = some (elements v) := by
  cases v with
  | object fields => rfl
  | array items named =>
    cases items with
    | nil => cases hempty
    | cons item items => rfl
  | _ => cases hnode

theorem decimalNumber_digit {c : Char} (hc : c.isDigit = true) :
    decimalNumber [c] = some (Digits.value [c] : ℚ) := by
  have hscan : Numeral.scan [c] = (⟨false,[c],[]⟩,[]) := by
    have hsign : c ≠ '-' := by
      rintro rfl
      cases hc
    simp [Numeral.scan,hc,hsign]
  rw [decimalNumber,hscan]
  simp [isExponent,Number.parseExponent,Numeral.value,Numeral.magnitude]

/-- A digit is the length it writes. -/
theorem arrayLength_digit {c : Char} (hc : c.isDigit = true) {s : String}
    (hs : numberOfText s = decimalNumber [c]) : arrayLength (.text s) = some (Digits.value [c]) := by
  have hlt : (Digits.value [c] : ℚ) < 2^32 := by
    have h := Digits.value_digit hc
    have h' : Digits.value [c] < 2^32 := by omega
    exact_mod_cast h'
  simp [arrayLength,hs,decimalNumber_digit hc,hlt]

theorem eq_elements_of_found {v : Value} {results : List Value} (h : found v none = some results) :
    results = elements v := by
  rw [found] at h
  split at h
  · cases h
  · split at h
    · cases h
    · cases h
      rfl

theorem member_setLength (items : List (Option Value)) (named : List (String × Value)) (n : Nat) :
    (Value.array (setLength items n) named).member "" = (Value.array items named).member "" := by
  have hkey : "" ≠ "length" := by decide
  simp only [member,own,if_neg hkey,arrayIndex_empty,inherited]

section broken

variable {doc : Document} (hroot : doc.xml_object.isNode = true) {path : String}
  (hpath : pathHasForbiddenSegment path = false) {path_tags : List String} {tag : String}
  (hsegments : segments path = path_tags ++ [tag])
  (hempty : isEmpty (doc.xml_object.walk (tags path_tags)) = false)
  (h : ∀ overwrite x, SetLaw doc path overwrite x)
include hroot hpath hsegments hempty h

/-- What a call that stores something makes of the query. -/
theorem get_of_store {overwrite : Bool} {x : SetXml} {changed : Value}
    (hstore : store (doc.xml_object.walk (tags path_tags)) tag (setValue
      ((doc.xml_object.walk (tags path_tags)).member tag) overwrite x.value) = some changed) :
    get (doc.change (tags path_tags) changed) path =
      some (if overwrite then [x.value] else (get doc path).getD [] ++ [x.value]) := by
  have hset := set_eq hroot hpath hsegments overwrite x
  rw [hempty,hstore] at hset
  have hresult := (h overwrite x).result
  rw [hset] at hresult
  exact hresult rfl

/-- A function takes properties, but is no value of the document. -/
theorem isNode_of_setLaws (hrefuses : refuses (doc.xml_object.walk (tags path_tags)) tag = false) :
    (doc.xml_object.walk (tags path_tags)).isNode = true := by
  by_contra hnode
  have hsame : ∀ changed, doc.change (tags path_tags) changed = doc := by
    intro changed
    rw [Document.change,if_neg hnode]
  cases hbranch : doc.xml_object.walk (tags path_tags) with
  | builtin b =>
    rw [hbranch] at hrefuses hempty
    have htag : tag ∉ functionReadOnly := by simpa [refuses,hempty] using hrefuses
    have hstore : store (doc.xml_object.walk (tags path_tags)) tag (setValue
        ((doc.xml_object.walk (tags path_tags)).member tag) false (SetXml.text "").value) =
        some (.builtin b) := by
      rw [hbranch,store,if_neg htag]
    rw [← hbranch] at hempty
    have hget := get_of_store hroot hpath hsegments hempty h hstore
    rw [hsame] at hget
    exact ne_append_self _ _ hget
  | object fields =>
    rw [hbranch] at hnode
    exact hnode rfl
  | array items named =>
    rw [hbranch] at hnode
    exact hnode rfl
  | _ =>
    rw [hbranch] at hrefuses
    simp [refuses] at hrefuses

/-- The length of an array becomes a number. -/
theorem notLength_of_setLaws : (doc.xml_object.walk (tags path_tags)).isLength tag = false := by
  by_contra hlength
  cases hbranch : doc.xml_object.walk (tags path_tags) with
  | array items named =>
    have hnode : (doc.xml_object.walk (tags path_tags)).isNode = true := by rw [hbranch]; rfl
    have htag : tag = "length" := by simpa [hbranch,isLength] using hlength
    have hget : ∀ s n, arrayLength (.text s) = some n →
        get (doc.change (tags path_tags) (.array (setLength items n) named)) path =
          some [.text s] := by
      intro s n hn
      have hstore : store (doc.xml_object.walk (tags path_tags)) tag (setValue
          ((doc.xml_object.walk (tags path_tags)).member tag) true (SetXml.text s).value) =
          some (.array (setLength items n) named) := by
        have hvalue : setValue ((doc.xml_object.walk (tags path_tags)).member tag) true
            (SetXml.text s).value = .text s := rfl
        rw [hvalue,hbranch,store,if_pos htag,hn]
        rfl
      exact get_of_store hroot hpath hsegments hempty h hstore
    have htags : tags (segments path) = path_tags ++ ["length"] := by
      rw [hsegments,tags_concat,htag]
      rfl
    have hafter : ∀ n, get (doc.change (tags path_tags) (.array (setLength items n) named)) path =
        found ((doc.change (tags path_tags) (.array (setLength items n) named)).xml_object.walk
          (path_tags ++ ["length"])) none := by
      intro n
      rw [get_eq (isNode_change hroot hnode rfl),htags]
    have hone := hget "1" 1 (arrayLength_digit (c := '1') rfl rfl)
    have htwo := hget "2" 2 (arrayLength_digit (c := '2') rfl rfl)
    rw [hafter] at hone htwo
    rcases tags_cases path_tags with hpath_tags | hpath_tags
    · have hshort : path_tags ++ ["length"] = tags path_tags ++ ["length"] := by rw [← hpath_tags]
      rw [hshort,walk_change hnode] at hone
      have hnumber : found ((Value.array (setLength items 1) named).walk ["length"]) none =
          some [.number (setLength items 1).length] := rfl
      rw [hnumber] at hone
      simp at hone
    · have hlong : path_tags ++ ["length"] = tags path_tags ++ ["","length"] := by
        conv_lhs => rw [hpath_tags]
        simp
      rw [hlong,walk_change hnode,walk,member_setLength] at hone htwo
      have hsame := hone.symm.trans htwo
      simp at hsame
  | _ => simp [hbranch,isLength] at hlength

/-- The walk along the path ends under the tag that is set. -/
theorem tags_of_setLaws (hnode : (doc.xml_object.walk (tags path_tags)).isNode = true)
    (hlength : (doc.xml_object.walk (tags path_tags)).isLength tag = false) :
    tags (segments path) = tags path_tags ++ [tag] := by
  have hstore : store (doc.xml_object.walk (tags path_tags)) tag (setValue
      ((doc.xml_object.walk (tags path_tags)).member tag) false (SetXml.text "").value) = _ :=
    store_node hnode hlength _
  have hafter := get_of_store hroot hpath hsegments hempty h hstore
  have hnode' : ∀ value, ((doc.xml_object.walk (tags path_tags)).assign tag value).isNode = true :=
    fun value => (isNode_assign _ value tag).trans hnode
  rw [get_eq (isNode_change hroot hnode (hnode' _)),get_eq hroot] at hafter
  rcases tags_cases path_tags with hpath_tags | hpath_tags
  · rw [hsegments,tags_concat,← hpath_tags]
    split
    · rename_i htag
      -- the tag is empty, and the query sees the parent itself
      have htags : tags (segments path) = tags path_tags ++ [] := by
        rw [hsegments,tags_concat,if_pos htag,List.append_nil,← hpath_tags]
      rw [htags,walk_change hnode,List.append_nil,found_node hnode hempty,htag] at hafter
      have hlen := congrArg List.length (eq_elements_of_found hafter)
      rw [walk,length_elements_assign] at hlen
      simp at hlen
    · rfl
  · rw [hsegments,tags_concat]
    split
    · rename_i htag
      rw [htag]
      exact hpath_tags
    · rename_i htag
      -- the query goes through the empty tag, the assignment does not
      have htags : tags (segments path) = tags path_tags ++ ["",tag] := by
        rw [hsegments,tags_concat,if_neg htag]
        conv_lhs => rw [hpath_tags]
        simp
      have hne : "" ≠ tag := fun he => htag he.symm
      have hfree : (doc.xml_object.walk (tags path_tags)).isLength "" = false := by
        cases doc.xml_object.walk (tags path_tags) <;> rfl
      have hbefore : (doc.xml_object.walk (tags path_tags)).walk ["",tag] =
          ((doc.xml_object.walk (tags path_tags)).member "").walk [tag] := by
        rw [walk,if_pos (isObject_of_isNode hnode)]
      rw [htags,walk_change hnode,walk_append,hbefore,walk,if_pos (isObject_of_isNode (hnode' _)),
        member_assign_ne hne (.inl hfree)] at hafter
      exact absurd hafter (ne_append_self _ _)

end broken

theorem setLaw_iff {doc : Document} (hroot : doc.xml_object.isNode = true) (path : String) :
    (∀ overwrite x, SetLaw doc path overwrite x) ↔ SetsCleanly doc path := by
  refine ⟨fun h => ?_,setLaw_of_cleanly hroot⟩
  cases hpath : pathHasForbiddenSegment path with
  | true => exact .inl hpath
  | false =>
    rcases List.eq_nil_or_concat' (segments path) with hnil | ⟨path_tags,tag,hsegments⟩
    · exact absurd hnil (segments_ne_nil path)
    · refine .inr ⟨path_tags,tag,hsegments,?_⟩
      cases hrefuses : refuses (doc.xml_object.walk (tags path_tags)) tag with
      | true => exact .inl rfl
      | false =>
        have hempty : isEmpty (doc.xml_object.walk (tags path_tags)) = false := by
          by_contra hempty
          simp [refuses,hempty] at hrefuses
        have hnode := isNode_of_setLaws hroot hpath hsegments hempty h hrefuses
        have hlength := notLength_of_setLaws hroot hpath hsegments hempty h
        exact .inr ⟨hnode,hlength,tags_of_setLaws hroot hpath hsegments hempty h hnode hlength⟩

/-- The edits of a tree keep their laws exactly where the path of a deletion is no root and ends in no
inherited name, and the path of a setting ends under the tag it sets, in an object or an array. -/
theorem edits_lawful_iff (fields : List (String × Value)) (path : String)
    (condition : Option Condition) :
    (DeleteLaw ⟨.object fields⟩ path condition ∧
        ∀ overwrite x, SetLaw ⟨.object fields⟩ path overwrite x) ↔
      DeletesCleanly ⟨.object fields⟩ path condition ∧ SetsCleanly ⟨.object fields⟩ path := by
  have hroot : (Document.mk (.object fields)).xml_object.isNode = true := rfl
  rw [deleteLaw_iff hroot,setLaw_iff hroot]

/-- The root is reported as deleted and stays. -/
theorem not_deleteLaw_root :
    ¬ DeleteLaw ⟨.object [("Invoice",.object [("cbc:ID",.text "1")])]⟩ "" none := by
  intro h
  have htags : tags (segments "") = [] := by decide
  have hget : get ⟨.object [("Invoice",.object [("cbc:ID",.text "1")])]⟩ "" ≠ none := by
    rw [get_eq rfl,htags]
    exact fun h => Option.some_ne_none _ h
  have hremoved := h.removed
  rw [delete_root rfl (by decide) hget htags] at hremoved
  exact hget (hremoved.1 rfl).2

/-! ### The deletions before hashing -/

/-- What `getPureInvoiceString` deletes from its copy of the invoice. -/
def pureDeletions : List (String × Option Condition) :=
  [("Invoice/ext:UBLExtensions",none),("Invoice/cac:Signature",none),
    ("Invoice/cac:AdditionalDocumentReference",some [("cbc:ID",.text "QR")])]

def deleteEach (doc : Document) (deletions : List (String × Option Condition)) : Document :=
  deletions.foldl (fun doc d => (delete doc d.1 d.2).2) doc

/-- A path to a tag of an element of the document that no value inherits. -/
structure PlainPath (path : String) : Prop where
  allowed : pathHasForbiddenSegment path = false
  tags : ∃ parent tag, tags (segments path) = parent ++ [tag] ∧ tag ∉ objectFunctions ∧
    tag ∉ arrayFunctions ∧ tag ≠ "__proto__" ∧ tag ≠ "length"

theorem isUndefined_inherited {tag : String} (hobject : tag ∉ objectFunctions)
    (harray : tag ∉ arrayFunctions) (hproto : tag ≠ "__proto__") (hlength : tag ≠ "length")
    (v : Value) : (v.inherited tag).isUndefined = true := by
  have hfree : ofObjectPrototype tag = .undefined := if_neg hobject
  have hfree' : ofArrayPrototype tag = .undefined := by rw [ofArrayPrototype,if_neg harray,hfree]
  cases v with
  | builtin b => cases b <;> simp [inherited,hproto,hlength,hfree,hfree',isUndefined]
  | _ => simp [inherited,hproto,hfree,hfree',isUndefined]

/-- A deletion under a plain path. -/
theorem PlainPath.deletes {path : String} (h : PlainPath path) {doc : Document}
    (hroot : doc.xml_object.isNode = true) (condition : Option Condition) :
    (delete doc path condition).2.xml_object.isNode = true ∧
      get (delete doc path condition).2 path condition = none ∧
      ∀ other condition', Apart path other →
        get (delete doc path condition).2 other condition' = get doc other condition' := by
  by_cases hget : get doc path condition = none
  · rw [delete_eq_false hroot (.inr hget)]
    exact ⟨hroot,hget,fun _ _ _ => rfl⟩
  · obtain ⟨parent,tag,htags,hobject,harray,hproto,hlength⟩ := h.tags
    have hinherited := isUndefined_inherited hobject harray hproto hlength
      (doc.xml_object.walk parent)
    have hclean : DeletesCleanly doc path condition :=
      .inr (.inr ⟨parent,tag,htags,fun _ => hinherited⟩)
    have hlaw := deleteLaw_of_cleanly hroot hclean
    have hdelete := delete_eq hroot h.allowed hget htags
    have hnode := isNode_parent hroot h.allowed hget htags fun _ => hinherited
    have hnotLength : (doc.xml_object.walk parent).isLength tag = false := by
      cases doc.xml_object.walk parent <;> simp [isLength,hlength]
    cases hchanged : withoutMatches (doc.xml_object.walk parent) tag condition with
    | error e =>
      rw [withoutMatches,hnotLength] at hchanged
      split at hchanged
      · cases hchanged
      · cases hchanged
    | ok changed =>
      rw [hchanged] at hdelete
      have htrue : (delete doc path condition).1 = .ok true := by rw [hdelete]
      refine ⟨?_,(hlaw.removed.1 htrue).2,hlaw.apart htrue⟩
      rw [hdelete]
      exact isNode_change hroot hnode ((withoutMatches_spec hchanged).1.trans hnode)

/-- After deletions apart from each other nothing that matched any of them is left, and everything
apart from them reads as before. -/
theorem get_deleteEach {deletions : List (String × Option Condition)}
    (hplain : ∀ d ∈ deletions, PlainPath d.1)
    (hapart : deletions.Pairwise fun d d' => Apart d.1 d'.1) {doc : Document}
    (hroot : doc.xml_object.isNode = true) :
    (∀ d ∈ deletions, get (deleteEach doc deletions) d.1 d.2 = none) ∧
      ∀ other condition, (∀ d ∈ deletions, Apart d.1 other) →
        get (deleteEach doc deletions) other condition = get doc other condition := by
  induction deletions generalizing doc with
  | nil =>
    refine ⟨by simp,fun _ _ _ => rfl⟩
  | cons d deletions ih =>
    obtain ⟨hd,hrest⟩ := List.forall_mem_cons.1 hplain
    obtain ⟨hfirst,hpairs⟩ := List.pairwise_cons.1 hapart
    obtain ⟨hnode,hgone,hothers⟩ := hd.deletes hroot d.2
    obtain ⟨hdone,hkept⟩ := ih hrest hpairs hnode
    constructor
    · intro d' hd'
      rcases List.mem_cons.1 hd' with rfl | hd'
      · exact (hkept d'.1 d'.2 fun e he => (hfirst e he).symm).trans hgone
      · exact hdone d' hd'
    · intro other condition h
      obtain ⟨hother,hothers'⟩ := List.forall_mem_cons.1 h
      exact (hkept other condition hothers').trans (hothers other condition hother)

theorem pureDeletions_plain : ∀ d ∈ pureDeletions, PlainPath d.1 := by
  have hplain : ∀ tag path, pathHasForbiddenSegment path = false →
      tags (segments path) = ["Invoice"] ++ [tag] → tag ∉ objectFunctions → tag ∉ arrayFunctions →
      tag ≠ "__proto__" → tag ≠ "length" → PlainPath path := fun tag path hallowed htags h₁ h₂ h₃ h₄ =>
    ⟨hallowed,["Invoice"],tag,htags,h₁,h₂,h₃,h₄⟩
  simp only [pureDeletions,List.forall_mem_cons]
  refine ⟨hplain "ext:UBLExtensions" _ ?_ ?_ ?_ ?_ ?_ ?_,hplain "cac:Signature" _ ?_ ?_ ?_ ?_ ?_ ?_,
    hplain "cac:AdditionalDocumentReference" _ ?_ ?_ ?_ ?_ ?_ ?_,by simp⟩ <;> decide

/-- The document that is hashed has no signature, no extensions and no QR reference, and is otherwise
the invoice. -/
theorem get_pureInvoice {doc : Document} (hroot : doc.xml_object.isNode = true) :
    (∀ d ∈ pureDeletions, get (deleteEach doc pureDeletions) d.1 d.2 = none) ∧
      ∀ other condition, (∀ d ∈ pureDeletions, Apart d.1 other) →
        get (deleteEach doc pureDeletions) other condition = get doc other condition := by
  have hapart : pureDeletions.Pairwise fun d d' => Apart d.1 d'.1 := by
    simp only [pureDeletions,List.pairwise_cons,List.forall_mem_cons,Apart]
    decide
  exact get_deleteEach pureDeletions_plain hapart hroot

end Zatca.DocumentEdits
