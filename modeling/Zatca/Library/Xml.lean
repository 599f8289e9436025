set_option autoImplicit false

/-!
Content of XML elements with places that are filled later, the text it is printed as and the
elements a reader finds in that text. The fragment has no references, comments and CDATA sections.
-/

namespace Xml

abbrev Attributes := List (List Char × List Char)

/-- What stands between a start tag and its end tag, one item after another. -/
inductive Content (σ : Type) where
  | nil
  | text (chars : List Char) (rest : Content σ)
  | slot (s : σ) (rest : Content σ)
  | element (name : List Char) (attributes : Attributes) (children rest : Content σ)

/-- Elements in a row, each with its own character data and its children. -/
inductive Elements where
  | nil
  | element (name : List Char) (attributes : Attributes) (text : List Char)
      (children rest : Elements)
  deriving DecidableEq

def printAttributes : Attributes → List Char
  | [] => []
  | (n,v) :: as => ' ' :: (n ++ '=' :: '"' :: (v ++ '"' :: printAttributes as))

def startTag (name : List Char) (attributes : Attributes) : List Char :=
  '<' :: (name ++ printAttributes attributes ++ ['>'])

def endTag (name : List Char) : List Char := '<' :: '/' :: (name ++ ['>'])

namespace Content

variable {σ τ : Type}

def print (f : σ → List Char) : Content σ → List Char
  | nil => []
  | text cs rest => cs ++ rest.print f
  | slot s rest => f s ++ rest.print f
  | element n as c rest => startTag n as ++ (c.print f ++ (endTag n ++ rest.print f))

def append : Content σ → Content σ → Content σ
  | nil, d => d
  | text cs rest, d => text cs (rest.append d)
  | slot s rest, d => slot s (rest.append d)
  | element n as c rest, d => element n as c (rest.append d)

def fill (g : σ → Content τ) : Content σ → Content τ
  | nil => nil
  | text cs rest => text cs (rest.fill g)
  | slot s rest => (g s).append (rest.fill g)
  | element n as c rest => element n as (c.fill g) (rest.fill g)

theorem print_append (f : σ → List Char) (c d : Content σ) :
    (c.append d).print f = c.print f ++ d.print f := by
  induction c with
  | nil => rfl
  | text cs rest ih => simp [append,print,ih]
  | slot s rest ih => simp [append,print,ih]
  | element n as c rest _ ih => simp [append,print,ih]

/-- Content is filled before or after it is printed. -/
theorem print_fill (f : τ → List Char) (g : σ → Content τ) (c : Content σ) :
    (c.fill g).print f = c.print fun s => (g s).print f := by
  induction c with
  | nil => rfl
  | text cs rest ih => simp [fill,print,ih]
  | slot s rest ih => simp [fill,print,print_append,ih]
  | element n as c rest hc ih => simp [fill,print,hc,ih]

/-! ### Reading -/

/-- The character data that stands directly in the content. -/
def chars : Content Empty → List Char
  | nil => []
  | text cs rest => cs ++ rest.chars
  | slot s _ => s.elim
  | element _ _ _ rest => rest.chars

/-- The elements of the content; the character data of each is trimmed. -/
def elements (trim : List Char → List Char) : Content Empty → Elements
  | nil => .nil
  | text _ rest => rest.elements trim
  | slot s _ => s.elim
  | element n as c rest => .element n as (trim c.chars) (c.elements trim) (rest.elements trim)

def bare : Content Empty → Bool
  | nil => true
  | text _ rest => rest.bare
  | slot s _ => s.elim
  | element _ _ _ _ => false

end Content

/-! ### Well-formed text -/

def isBlank (c : Char) : Bool := c == ' ' || c == '\t' || c == '\n'

def isXmlChar (c : Char) : Bool :=
  c == '\t' || c == '\n' || c == '\r' || (0x20 ≤ c.val && c.val ≤ 0xFFFD) || 0x10000 ≤ c.val

/-- Characters that stand for themselves between tags. -/
def isPlain (c : Char) : Bool := isXmlChar c && c != '<' && c != '&' && c != '\r'

/-- Character data that is read as it is written. -/
structure CharData (cs : List Char) : Prop where
  plain : ∀ c ∈ cs, isPlain c = true
  noSectionEnd : ¬ "]]>".toList <:+: cs

def isName (n : List Char) : Bool := n.head?.any Char.isAlpha && n.all fun c => c.isAlphanum || c == ':'

def isAttributeValue (v : List Char) : Bool :=
  v.all fun c => isPlain c && c != '>' && c != '"' && c != '\t' && c != '\n'

def areAttributes (as : Attributes) : Bool :=
  as.all (fun a => isName a.1 && isAttributeValue a.2) && decide (as.map Prod.fst).Nodup

/-- Every element has a name and attributes, and holds character data or elements, not both. -/
def Content.WellFormed : Content Empty → Prop
  | nil => True
  | text _ rest => rest.WellFormed
  | slot s _ => s.elim
  | element n as c rest => isName n = true ∧ areAttributes as = true ∧ CharData c.chars ∧
      (c.bare = true ∨ ∀ x ∈ c.chars, isBlank x = true) ∧ c.WellFormed ∧ rest.WellFormed

/-- A text with its declaration, which blanks may precede. -/
structure Document where
  lead : List Char
  body : Content Empty

def declaration : List Char := "<?xml version=\"1.0\" encoding=\"UTF-8\"?>".toList

namespace Document

def print (d : Document) : List Char := d.lead ++ (declaration ++ d.body.print Empty.elim)

/-- The declaration is read as an element before the root. -/
def elements (trim : List Char → List Char) (d : Document) : Elements :=
  .element "?xml".toList
    [("version".toList,"1.0".toList),("encoding".toList,"UTF-8".toList)] [] .nil
    (d.body.elements trim)

structure WellFormed (d : Document) : Prop where
  lead : ∀ c ∈ d.lead, isBlank c = true
  body : d.body.WellFormed
  blank : ∀ c ∈ d.body.chars, isBlank c = true
  root : ∃ n as c c', d.body.elements id = .element n as c c' .nil

end Document

/-- The parser finds in every well-formed document the elements that were written. -/
def Reads (trim : List Char → List Char) (parse : List Char → Option Elements) : Prop :=
  ∀ d : Document, d.WellFormed → parse d.print = some (d.elements trim)

/-! ### Looking elements up -/

namespace Elements

def append : Elements → Elements → Elements
  | nil, d => d
  | element n as t c rest, d => element n as t c (rest.append d)

/-- The `i`-th element of the name, counted from zero. -/
def find (name : List Char) : Nat → Elements → Option (List Char × Elements)
  | _, nil => none
  | i, element n _ t c rest =>
    if n = name then
      match i with
      | 0 => some (t,c)
      | i + 1 => rest.find name i
    else rest.find name i

/-- The element that a path of names leads to. -/
def follow : List (List Char × Nat) → List Char × Elements → Option (List Char × Elements)
  | [], found => some found
  | (n,i) :: path, found => (found.2.find n i).bind (follow path)

def textAt (path : List (List Char × Nat)) (es : Elements) : Option (List Char) :=
  (follow path ([],es)).map Prod.fst

def names : Elements → List (List Char)
  | nil => []
  | element n _ _ _ rest => n :: rest.names

theorem find_append {name : List Char} {es : Elements} (h : name ∉ es.names) (fs : Elements)
    (i : Nat) : (es.append fs).find name i = fs.find name i := by
  induction es with
  | nil => rfl
  | element n as t c rest _ ih =>
    simp only [names,List.mem_cons,not_or] at h
    have hn : n ≠ name := fun h' => h.1 h'.symm
    simp [append,find,hn,ih h.2]

theorem find_append_of_some {name : List Char} {es : Elements} {i : Nat}
    {found : List Char × Elements} (h : es.find name i = some found) (fs : Elements) :
    (es.append fs).find name i = some found := by
  induction es generalizing i with
  | nil => cases h
  | element n as t c rest _ ih =>
    simp only [append,find] at h ⊢
    split at h
    · rename_i hn
      rw [if_pos hn]
      cases i with
      | zero => exact h
      | succ i => exact ih h
    · rename_i hn
      rw [if_neg hn]
      exact ih h

theorem follow_append (p q : List (List Char × Nat)) (found : List Char × Elements) :
    follow (p ++ q) found = (follow p found).bind (follow q) := by
  induction p generalizing found with
  | nil => rfl
  | cons step p ih =>
    obtain ⟨n,i⟩ := step
    simp only [List.cons_append,follow]
    cases found.2.find n i with
    | none => rfl
    | some found => exact ih found

/-- Names, attributes and nesting without the character data. -/
def shape : Elements → Elements
  | nil => nil
  | element n as _ c rest => element n as [] c.shape rest.shape

theorem append_nil (es : Elements) : es.append nil = es := by
  induction es with
  | nil => rfl
  | element n as t c rest _ ih => simp [append,ih]

theorem shape_append (es fs : Elements) : (es.append fs).shape = es.shape.append fs.shape := by
  induction es with
  | nil => rfl
  | element n as t c rest _ ih => simp [append,shape,ih]

end Elements

namespace Content

variable {σ : Type} (trim : List Char → List Char)

theorem elements_append (c d : Content Empty) :
    (c.append d).elements trim = (c.elements trim).append (d.elements trim) := by
  induction c with
  | nil => rfl
  | text cs rest ih => exact ih
  | slot s => exact s.elim
  | element n as c rest _ ih => simp [append,elements,Elements.append,ih]

theorem chars_append (c d : Content Empty) : (c.append d).chars = c.chars ++ d.chars := by
  induction c with
  | nil => rfl
  | text cs rest ih => simp [append,chars,ih]
  | slot s => exact s.elim
  | element n as c rest _ ih => simp [append,chars,ih]

/-- The shape of filled content is that of the template and of what the slots are filled with. -/
theorem shape_fill {g h : σ → Content Empty} (c : Content σ)
    (hs : ∀ s, ((g s).elements trim).shape = ((h s).elements trim).shape) :
    ((c.fill g).elements trim).shape = ((c.fill h).elements trim).shape := by
  induction c with
  | nil => rfl
  | text cs rest ih => exact ih
  | slot s rest ih =>
    simp only [fill,elements_append,Elements.shape_append,hs s,ih]
  | element n as c rest hc ih => simp [fill,elements,Elements.shape,hc,ih]

/-! ### Templates whose filling is well formed -/

/-- No character data but blanks, no slot of character data. -/
def isSpaced (isText : σ → Bool) : Content σ → Bool
  | nil => true
  | text cs rest => cs.all isBlank && rest.isSpaced isText
  | slot s rest => !isText s && rest.isSpaced isText
  | element _ _ _ rest => rest.isSpaced isText

/-- One run of character data, constant or filled in. -/
def isRun (isText : σ → Bool) : Content σ → Bool
  | text cs nil => cs.all fun c => isPlain c && c != ']'
  | slot s nil => isText s
  | _ => false

def isTemplate (isText : σ → Bool) : Content σ → Bool
  | nil => true
  | text _ rest => rest.isTemplate isText
  | slot _ rest => rest.isTemplate isText
  | element n as c rest => isName n && areAttributes as &&
      (c.isRun isText || c.isSpaced isText) && c.isTemplate isText && rest.isTemplate isText

theorem charData_of_blank {cs : List Char} (h : ∀ c ∈ cs, isBlank c = true) : CharData cs where
  plain c hc := by
    have hb := h c hc
    simp only [isBlank,Bool.or_eq_true,beq_iff_eq] at hb
    obtain (rfl | rfl) | rfl := hb <;> decide
  noSectionEnd hs := by
    have hb := h ']' (hs.subset (by decide))
    exact absurd hb (by decide)

theorem wellFormed_append {c d : Content Empty} (hc : c.WellFormed) (hd : d.WellFormed) :
    (c.append d).WellFormed := by
  induction c with
  | nil => exact hd
  | text cs rest ih => exact ih hc
  | slot s => exact s.elim
  | element n as c rest _ ih =>
    obtain ⟨hn,has,hchars,hmixed,hchildren,hrest⟩ := hc
    exact ⟨hn,has,hchars,hmixed,hchildren,ih hrest⟩

variable {isText : σ → Bool} {g : σ → Content Empty}

theorem blank_fill
    (hMarkup : ∀ s, isText s = false → ∀ x ∈ (g s).chars, isBlank x = true) {c : Content σ} (hc : c.isSpaced isText = true) :
    ∀ x ∈ (c.fill g).chars, isBlank x = true := by
  induction c with
  | nil => simp [fill,chars]
  | text cs rest ih =>
    simp only [isSpaced,Bool.and_eq_true,List.all_eq_true] at hc
    simp only [fill,chars,List.mem_append]
    rintro x (hx | hx)
    · exact hc.1 x hx
    · exact ih hc.2 x hx
  | slot s rest ih =>
    simp only [isSpaced,Bool.and_eq_true,Bool.not_eq_true'] at hc
    simp only [fill,chars_append,List.mem_append]
    rintro x (hx | hx)
    · exact hMarkup s hc.1 x hx
    · exact ih hc.2 x hx
  | element n as c rest _ ih => exact ih hc

/-- A run of character data is filled with character data and no element. -/
theorem run_fill (hText : ∀ s, isText s = true → ∃ v, g s = text v nil ∧ CharData v)
    {c : Content σ} (hc : c.isRun isText = true) :
    CharData (c.fill g).chars ∧ (c.fill g).bare = true := by
  match c, hc with
  | text cs nil, hc =>
    simp only [isRun,List.all_eq_true,Bool.and_eq_true,bne_iff_ne] at hc
    refine ⟨⟨fun c h => ?_,fun hs => ?_⟩,rfl⟩
    · exact (hc c (by simpa [fill,chars] using h)).1
    · have hm : ']' ∈ cs := by simpa [fill,chars] using hs.subset (by decide : ']' ∈ "]]>".toList)
      exact (hc _ hm).2 rfl
  | slot s nil, hc =>
    obtain ⟨v,hv,hd⟩ := hText s hc
    simp only [fill,hv,append,chars,bare,List.append_nil]
    exact ⟨hd,trivial⟩

theorem wellFormed_fill (hText : ∀ s, isText s = true → ∃ v, g s = text v nil ∧ CharData v)
    (hMarkup : ∀ s, isText s = false →
      (g s).WellFormed ∧ ∀ x ∈ (g s).chars, isBlank x = true)
    {c : Content σ} (hc : c.isTemplate isText = true) : (c.fill g).WellFormed := by
  induction c with
  | nil => trivial
  | text cs rest ih => exact ih hc
  | slot s rest ih =>
    have hs : (g s).WellFormed := by
      cases ht : isText s with
      | true =>
        obtain ⟨v,hv,_⟩ := hText s ht
        rw [hv]
        trivial
      | false => exact (hMarkup s ht).1
    exact wellFormed_append hs (ih hc)
  | element n as c rest hchildren ih =>
    simp only [isTemplate,Bool.and_eq_true,Bool.or_eq_true] at hc
    obtain ⟨⟨⟨⟨hn,has⟩,hheld⟩,hc⟩,hrest⟩ := hc
    rcases hheld with hrun | hspaced
    · have h := run_fill hText hrun
      exact ⟨hn,has,h.1,.inl h.2,hchildren hc,ih hrest⟩
    · have h := blank_fill (fun s hs => (hMarkup s hs).2) hspaced
      exact ⟨hn,has,charData_of_blank h,.inr h,hchildren hc,ih hrest⟩

end Content

end Xml
