import Zatca.Core.XmlQuery
import Zatca.Library.GroupBy
import Zatca.Library.XmlContext
set_option autoImplicit false

/-! The objects that the XML package makes of elements, and the text that it prints for them. -/

namespace Zatca
open Xml Xml.Content

/-! ### Reading -/

/-- A tag with the values of its elements. -/
abbrev Groups := List (String × List Json)

def oneOrMany : List Json → Json
  | [v] => v
  | vs => .arr vs

def textField (text : List Char) : List (String × Json) :=
  if text = [] then [] else [("#text",.str (String.ofList text))]

def attributeField (a : List Char × List Char) : String × Json :=
  (String.ofList ('@' :: '_' :: a.1),.str (String.ofList a.2))

def fieldsOf (children : Groups) (text : List Char) (attributes : Attributes) : List (String × Json) :=
  children.map (fun g => (g.1,oneOrMany g.2)) ++ (textField text ++ attributes.map attributeField)

/-- An element without children and attributes is its text. -/
def elementValue (children : Groups) (text : List Char) (attributes : Attributes) : Json :=
  if children = [] ∧ attributes = [] then .str (String.ofList text)
  else .obj (fieldsOf children text attributes)

def entries : Elements → List (String × Json)
  | .nil => []
  | .element n as t c rest =>
    (String.ofList n,elementValue (GroupBy.collect (entries c)) t as) :: entries rest

def documentObject (es : Elements) : Json := .obj (fieldsOf (GroupBy.collect (entries es)) [] [])

/-! ### Printing -/

section layout

variable {σ : Type} (leaf : String → Content σ)

def indentation (level : Nat) : List Char := List.replicate (4 * level) ' '

def isAttributeKey (key : String) : Bool := ['@','_'].isPrefixOf key.toList

def isChildKey (key : String) : Bool := !isAttributeKey key && key != "#text"

def attributeOf (field : String × Json) : Option (List Char × List Char) :=
  match field.2 with
  | .str s => if isAttributeKey field.1 then some (field.1.toList.drop 2,s.toList) else none
  | _ => none

def attributesOf : Json → Attributes
  | .obj fields => fields.filterMap attributeOf
  | _ => []

def textOf (fields : List (String × Json)) : Content σ :=
  match fields.lookup "#text" with
  | some (.str s) => leaf s
  | _ => .nil

mutual
/-- The elements of a tag, each on its line. -/
def named (level : Nat) (name : String) : Json → Content σ
  | .arr xs => namedAll level name xs
  | .str s => text (indentation level) (element name.toList [] (leaf s) (text ['\n'] nil))
  | .obj fields => text (indentation level) (element name.toList (attributesOf (.obj fields))
      (if fields.any (fun field => isChildKey field.1) then
        text ['\n'] ((lines (level + 1) fields).append (text (indentation level) nil))
      else textOf leaf fields) (text ['\n'] nil))
  | _ => nil
def namedAll (level : Nat) (name : String) : List Json → Content σ
  | [] => nil
  | x :: xs => (named level name x).append (namedAll level name xs)
def lines (level : Nat) : List (String × Json) → Content σ
  | [] => nil
  | (key,value) :: fields =>
    if isChildKey key then (named level key value).append (lines level fields) else lines level fields
end

/-- What stands between the tags of an element. -/
def inner (level : Nat) : Json → Content σ
  | .str s => leaf s
  | .obj fields =>
    if fields.any (fun field => isChildKey field.1) then
      text ['\n'] ((lines leaf (level + 1) fields).append (text (indentation level) nil))
    else textOf leaf fields
  | _ => nil

end layout

def textLeaf (m : String → String) (s : String) : Content Empty := text (m s).toList nil

example : (lines (textLeaf id) 1 [("a",.obj [("b",.arr [.str "1",.str "2"]),("@_c",.str "x")])]).print
    Empty.elim = "    <a c=\"x\">\n        <b>1</b>\n        <b>2</b>\n    </a>\n".toList := by decide

/-! ### The objects of elements -/

/-- A text that is read as it is printed, an apostrophe being printed as a reference. -/
structure PlainText (s : String) : Prop where
  charData : CharData s.toList
  trimmed : trimChars s.toList = s.toList
  unescaped : '>' ∉ s.toList ∧ '"' ∉ s.toList

/-- The parts of an object that an element is read as. -/
structure Shape (children : Groups) (text : List Char) (attributes : Attributes) : Prop where
  names : ∀ g ∈ children, isName g.1.toList = true
  values : ∀ g ∈ children, g.2 ≠ []
  nodup : (children.map Prod.fst).Nodup
  areAttributes : areAttributes attributes = true
  mixed : children = [] ∨ text = []
  object : children ≠ [] ∨ attributes ≠ []

/-- What elements with such texts are read as. -/
inductive IsElement (ok : String → Prop) : Json → Prop where
  | text {s : String} (h : ok s) : IsElement ok (.str s)
  | object {children : Groups} {text : List Char} {attributes : Attributes}
      (hshape : Shape children text attributes) (htext : text ≠ [] → ok (String.ofList text))
      (hchildren : ∀ g ∈ children, ∀ v ∈ g.2, IsElement ok v) :
      IsElement ok (.obj (fieldsOf children text attributes))

theorem IsElement.mono {ok ok' : String → Prop} (himp : ∀ s, ok s → ok' s) {v : Json}
    (h : IsElement ok v) : IsElement ok' v := by
  induction h with
  | text h => exact .text (himp _ h)
  | object hshape htext _ ih => exact .object hshape (fun hne => himp _ (htext hne)) ih

/-! ### Keys -/

theorem isChildKey_of_name {key : String} (h : isName key.toList = true) : isChildKey key = true := by
  have hout : ∀ c, (c.isAlphanum || c == ':') = false → c ∉ key.toList := fun c hc => notMem_name h hc
  have hat := hout '@' (by decide)
  have hhash := hout '#' (by decide)
  have hattribute : isAttributeKey key = false := by
    rw [isAttributeKey,← Bool.not_eq_true,List.isPrefixOf_iff_prefix]
    exact fun hp => hat (hp.subset (by decide))
  have htext : key ≠ "#text" := by
    rintro rfl
    exact hhash (by decide)
  simp [isChildKey,hattribute,htext]

theorem isAttributeKey_attributeField (a : List Char × List Char) :
    isAttributeKey (attributeField a).1 = true := by
  simp [isAttributeKey,attributeField]

theorem not_childKey_textField {text : List Char} {field : String × Json} (h : field ∈ textField text) :
    isChildKey field.1 = false := by
  unfold textField at h
  split at h
  · cases h
  · rw [List.mem_singleton] at h
    subst h
    have htext : isChildKey "#text" = false := by decide
    exact htext

theorem not_childKey_attributeField (a : List Char × List Char) :
    isChildKey (attributeField a).1 = false := by
  simp [isChildKey,isAttributeKey_attributeField]

section printing

variable {σ : Type} (leaf : String → Content σ) {children : Groups} {text : List Char}
  {attributes : Attributes}

theorem lines_append (level : Nat) (fs gs : List (String × Json)) :
    lines leaf level (fs ++ gs) = (lines leaf level fs).append (lines leaf level gs) := by
  induction fs with
  | nil => rfl
  | cons f fs ih =>
    obtain ⟨key,value⟩ := f
    rw [List.cons_append,lines,lines]
    split
    · rw [ih,append_assoc]
    · exact ih

theorem lines_of_not_child (level : Nat) {fs : List (String × Json)}
    (h : ∀ f ∈ fs, isChildKey f.1 = false) : lines leaf level fs = nil := by
  induction fs with
  | nil => rfl
  | cons f fs ih =>
    obtain ⟨key,value⟩ := f
    obtain ⟨hf,hfs⟩ := List.forall_mem_cons.1 h
    simp only at hf
    rw [lines,hf,if_neg (by simp),ih hfs]

theorem not_child_rest {f : String × Json}
    (h : f ∈ textField text ++ attributes.map attributeField) : isChildKey f.1 = false := by
  rcases List.mem_append.1 h with h | h
  · exact not_childKey_textField h
  · obtain ⟨a,-,rfl⟩ := List.mem_map.1 h
    exact not_childKey_attributeField a

/-- Only the children have lines. -/
theorem lines_fieldsOf (level : Nat) : lines leaf level (fieldsOf children text attributes) =
    lines leaf level (children.map fun g => (g.1,oneOrMany g.2)) := by
  rw [fieldsOf,lines_append,lines_of_not_child leaf level fun f hf => not_child_rest hf,append_nil]

theorem any_childKey (hnames : ∀ g ∈ children, isName g.1.toList = true) :
    (fieldsOf children text attributes).any (fun field => isChildKey field.1) =
      decide (children ≠ []) := by
  rw [fieldsOf,List.any_append]
  have hrest : (textField text ++ attributes.map attributeField).any
      (fun field => isChildKey field.1) = false := by
    rw [List.any_eq_false]
    intro f hf
    rw [not_child_rest hf]
    simp
  rw [hrest,Bool.or_false]
  cases children with
  | nil => rfl
  | cons g gs =>
    have hg := isChildKey_of_name (hnames g List.mem_cons_self)
    simp [hg]

theorem attributesOf_fieldsOf (h : ∀ g ∈ children, isName g.1.toList = true) :
    attributesOf (.obj (fieldsOf children text attributes)) = attributes := by
  have hchildren : (children.map fun g => (g.1,oneOrMany g.2)).filterMap attributeOf = [] := by
    rw [List.filterMap_eq_nil_iff]
    intro f hf
    obtain ⟨g,hg,rfl⟩ := List.mem_map.1 hf
    have hkey := isChildKey_of_name (h g hg)
    simp only [isChildKey,Bool.and_eq_true,Bool.not_eq_true'] at hkey
    unfold attributeOf
    simp only [hkey.1]
    split <;> rfl
  have htext : (textField text).filterMap attributeOf = [] := by
    rw [List.filterMap_eq_nil_iff]
    intro f hf
    unfold textField at hf
    split at hf
    · cases hf
    · rw [List.mem_singleton] at hf
      subst hf
      have hkey : isAttributeKey "#text" = false := by decide
      simp [attributeOf,hkey]
  have hattribute : attributeOf ∘ attributeField = some := by
    funext a
    simp [attributeOf,attributeField,isAttributeKey]
  rw [attributesOf,fieldsOf,List.filterMap_append,List.filterMap_append,hchildren,htext,
    List.nil_append,List.nil_append,List.filterMap_map,hattribute,List.filterMap_some]

theorem textOf_fieldsOf (hchildren : ∀ g ∈ children, isName g.1.toList = true) :
    textOf leaf (fieldsOf children text attributes) =
      if text = [] then nil else leaf (String.ofList text) := by
  have hskip : ∀ (fs : List (String × Json)) (rest : List (String × Json)),
      (∀ f ∈ fs, f.1 ≠ "#text") → (fs ++ rest).lookup "#text" = rest.lookup "#text" := by
    intro fs rest hfs
    induction fs with
    | nil => rfl
    | cons f fs ih =>
      obtain ⟨key,value⟩ := f
      obtain ⟨hf,hfs⟩ := List.forall_mem_cons.1 hfs
      have hkey : ("#text" == key) = false := beq_eq_false_iff_ne.2 fun h => hf h.symm
      rw [List.cons_append,List.lookup_cons,hkey]
      exact ih hfs
  have hnames : ∀ f ∈ children.map (fun g => (g.1,oneOrMany g.2)), f.1 ≠ "#text" := by
    intro f hf
    obtain ⟨g,hg,rfl⟩ := List.mem_map.1 hf
    have hkey := isChildKey_of_name (hchildren g hg)
    simp only [isChildKey,Bool.and_eq_true,bne_iff_ne] at hkey
    exact hkey.2
  have hattributes : ∀ f ∈ attributes.map attributeField, f.1 ≠ "#text" := by
    intro f hf
    obtain ⟨a,-,rfl⟩ := List.mem_map.1 hf
    intro h
    have hkey := isAttributeKey_attributeField a
    rw [h] at hkey
    exact absurd hkey (by decide)
  have hend : (attributes.map attributeField).lookup "#text" = none := by
    have h := hskip (attributes.map attributeField) [] hattributes
    rwa [List.append_nil] at h
  rw [textOf,fieldsOf,hskip _ _ hnames]
  by_cases htext : text = []
  · rw [textField,if_pos htext,if_pos htext,List.nil_append,hend]
  · rw [textField,if_neg htext,if_neg htext]
    simp

/-- What stands between the tags of an object with the shape. -/
theorem inner_fieldsOf (hshape : Shape children text attributes) (level : Nat) :
    inner leaf level (.obj (fieldsOf children text attributes)) =
      if children = [] then (if text = [] then nil else leaf (String.ofList text))
      else .text ['\n'] ((lines leaf (level + 1) (children.map fun g => (g.1,oneOrMany g.2))).append
        (.text (indentation level) nil)) := by
  rw [inner,any_childKey hshape.names,lines_fieldsOf,textOf_fieldsOf leaf hshape.names]
  by_cases h : children = []
  · simp [h]
  · simp [h]

theorem named_of_isElement {ok : String → Prop} {v : Json} (h : IsElement ok v) (level : Nat)
    (name : String) : named leaf level name v = .text (indentation level)
      (element name.toList (attributesOf v) (inner leaf level v) (.text ['\n'] nil)) := by
  cases h with
  | text => rfl
  | object => rw [named,inner]

theorem named_oneOrMany {ok : String → Prop} {vs : List Json} (hvs : ∀ v ∈ vs, IsElement ok v)
    (level : Nat) (name : String) :
    named leaf level name (oneOrMany vs) = namedAll leaf level name vs := by
  match vs, hvs with
  | [], _ => rw [oneOrMany,named]; exact fun v h => absurd h (by simp)
  | [v], hvs => rw [oneOrMany,namedAll,namedAll,append_nil]
  | v :: w :: vs, hvs => rw [oneOrMany,named]; exact fun v' h => absurd h (by simp)

end printing

end Zatca
