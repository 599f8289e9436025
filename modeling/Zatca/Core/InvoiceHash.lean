import Zatca.Core.Signing
import Zatca.Core.XmlRoundTrip
set_option autoImplicit false

/-! What is hashed: the hash of an invoice does not depend on what signing adds to it. -/

namespace Zatca
open Xml Xml.Content Placeholder

/-! ### The object of a document -/

/-- A field that is printed as one element or more. -/
def IsChild (v : Json) : Prop :=
  IsElement PlainText v ∨ ∃ vs, v = .arr vs ∧ vs ≠ [] ∧ ∀ w ∈ vs, IsElement PlainText w

structure IsRoot (fields : List (String × Json)) (attributes : Attributes) : Prop where
  names : ∀ f ∈ fields, isName f.1.toList = true
  children : ∀ f ∈ fields, IsChild f.2
  nodup : (fields.map Prod.fst).Nodup
  areAttributes : areAttributes attributes = true

def rootObject (fields : List (String × Json)) (attributes : Attributes) : Json :=
  .obj (fields ++ attributes.map attributeField)

/-- The elements of one tag. -/
def valuesOf : Json → List Json
  | .arr vs => vs
  | v => [v]

/-- The elements that the fields are printed as, in their order. -/
def elementsOf (fields : List (String × Json)) : List (String × Json) :=
  fields.flatMap fun f => (valuesOf f.2).map fun v => (f.1,v)

def rootDocument (root : String) (v : Json) : Document :=
  ⟨[],text ['\n'] (named (textLeaf id) 0 root v)⟩

theorem valuesOf_element {ok : String → Prop} {v : Json} (h : IsElement ok v) : valuesOf v = [v] := by
  cases h <;> rfl

namespace IsChild

variable {v : Json} (h : IsChild v)
include h

theorem values : ∀ w ∈ valuesOf v, IsElement PlainText w := by
  rcases h with hv | ⟨vs,rfl,-,hall⟩
  · rw [valuesOf_element hv]
    exact fun w hw => List.mem_singleton.1 hw ▸ hv
  · exact hall

theorem values_ne_nil : valuesOf v ≠ [] := by
  rcases h with hv | ⟨vs,rfl,hne,-⟩
  · rw [valuesOf_element hv]
    exact List.cons_ne_nil v []
  · exact hne

theorem named_values {σ : Type} (leaf : String → Content σ) (level : Nat) (key : String) :
    named leaf level key v = block leaf level ((valuesOf v).map fun w => (key,w)) := by
  rcases h with hv | ⟨vs,rfl,-,-⟩
  · rw [valuesOf_element hv,List.map_singleton,block,block,append_nil]
  · rw [valuesOf,block_namedAll,named]

end IsChild

theorem elementsOf_cons (f : String × Json) (fs : List (String × Json)) :
    elementsOf (f :: fs) = ((valuesOf f.2).map fun v => (f.1,v)) ++ elementsOf fs := List.flatMap_cons

theorem elementsOf_append (fs gs : List (String × Json)) :
    elementsOf (fs ++ gs) = elementsOf fs ++ elementsOf gs := List.flatMap_append

theorem mem_elementsOf {fields : List (String × Json)} {e : String × Json} (he : e ∈ elementsOf fields) :
    ∃ f ∈ fields, e.1 = f.1 ∧ e.2 ∈ valuesOf f.2 := by
  obtain ⟨f,hf,he⟩ := List.mem_flatMap.1 he
  obtain ⟨v,hv,rfl⟩ := List.mem_map.1 he
  exact ⟨f,hf,rfl,hv⟩

theorem lines_elementsOf {σ : Type} (leaf : String → Content σ) (level : Nat)
    {fields : List (String × Json)} (hnames : ∀ f ∈ fields, isName f.1.toList = true)
    (hchildren : ∀ f ∈ fields, IsChild f.2) :
    lines leaf level fields = block leaf level (elementsOf fields) := by
  induction fields with
  | nil => rfl
  | cons f fs ih =>
    obtain ⟨key,v⟩ := f
    obtain ⟨hname,hnames⟩ := List.forall_mem_cons.1 hnames
    obtain ⟨hf,hchildren⟩ := List.forall_mem_cons.1 hchildren
    rw [lines,if_pos (isChildKey_of_name hname),elementsOf_cons,block_append,ih hnames hchildren,
      IsChild.named_values hf]

section root

variable {fields : List (String × Json)} {attributes : Attributes} (h : IsRoot fields attributes)
include h

theorem attributesOf_rootObject : attributesOf (rootObject fields attributes) = attributes := by
  have hfields : fields.filterMap attributeOf = [] := by
    rw [List.filterMap_eq_nil_iff]
    intro f hf
    have hkey := isChildKey_of_name (h.names f hf)
    simp only [isChildKey,Bool.and_eq_true,Bool.not_eq_true'] at hkey
    unfold attributeOf
    simp only [hkey.1]
    split <;> rfl
  have hattribute : attributeOf ∘ attributeField = some := by
    funext a
    simp [attributeOf,attributeField,isAttributeKey]
  rw [rootObject,attributesOf,List.filterMap_append,hfields,List.nil_append,List.filterMap_map,
    hattribute,List.filterMap_some]

/-- What stands in the root. -/
def rootContent (es : List (String × Json)) : Content Empty :=
  if es = [] then nil else
    .text ['\n'] ((block (textLeaf id) 1 es).append (.text (indentation 0) nil))

theorem named_rootObject (root : String) :
    named (textLeaf id) 0 root (rootObject fields attributes) = .text (indentation 0)
      (element root.toList attributes (rootContent (elementsOf fields)) (.text ['\n'] nil)) := by
  have hattributes := attributesOf_rootObject h
  rw [rootObject] at hattributes ⊢
  rw [named,hattributes]
  have hno : ∀ f ∈ attributes.map attributeField, isChildKey f.1 = false := by
    intro f hf
    obtain ⟨a,-,rfl⟩ := List.mem_map.1 hf
    exact not_childKey_attributeField a
  cases hfields : fields with
  | nil =>
    have hany : (attributes.map attributeField).any (fun f => isChildKey f.1) = false := by
      rw [List.any_eq_false]
      intro f hf
      simp [hno f hf]
    have htext : textOf (textLeaf id) (attributes.map attributeField) = nil :=
      @textOf_fieldsOf Empty (textLeaf id) [] [] attributes fun g hg => absurd hg List.not_mem_nil
    rw [List.nil_append,hany,if_neg (by simp),htext]
    rfl
  | cons f fs =>
    rw [← hfields]
    have hmem : f ∈ fields := hfields ▸ List.mem_cons_self
    have hany : (fields ++ attributes.map attributeField).any (fun f => isChildKey f.1) = true := by
      rw [List.any_append,Bool.or_eq_true]
      exact .inl (List.any_eq_true.2 ⟨f,hmem,isChildKey_of_name (h.names f hmem)⟩)
    have hne : elementsOf fields ≠ [] := by
      rw [hfields,elementsOf_cons]
      exact List.append_ne_nil_of_left_ne_nil
        (List.map_eq_nil_iff.not.2 (h.children f hmem).values_ne_nil) _
    rw [hany,if_pos rfl,lines_append,lines_of_not_child _ _ hno,append_nil,
      lines_elementsOf _ _ h.names h.children,rootContent,if_neg hne]

theorem fits_rootContent : Fits (rootContent (elementsOf fields)) := by
  have helement : ∀ e ∈ elementsOf fields, IsElement PlainText e.2 := by
    intro e he
    obtain ⟨f,hf,-,hv⟩ := mem_elementsOf he
    exact (h.children f hf).values e.2 hv
  have hleaf : ∀ s, PlainText s → Fits (textLeaf id s) := fun s hs => fits_text hs.charData
  unfold rootContent
  split
  · exact Fits.of_blank (fun x hx => absurd hx List.not_mem_nil) trivial
  · refine Fits.of_blank (fun x hx => ?_) (wellFormed_append
      (@wellFormed_block PlainText (textLeaf id) _ _ fun e he => ?_) trivial)
    · rw [chars,chars_append,chars,chars,List.append_nil,List.mem_append,List.mem_append] at hx
      rcases hx with hx | hx | hx
      · rw [List.mem_singleton.1 hx]
        decide
      · exact chars_block helement 1 x hx
      · exact isBlank_indentation 0 x hx
    · obtain ⟨f,hf,hsame,-⟩ := mem_elementsOf he
      exact ⟨hsame ▸ h.names f hf,helement e he,fits_inner hleaf (helement e he) 1⟩

theorem wellFormed_rootDocument {root : String} (hroot : isName root.toList = true) :
    (rootDocument root (rootObject fields attributes)).WellFormed := by
  have hfits := fits_rootContent h
  refine ⟨fun c hc => absurd hc List.not_mem_nil,?_,?_,?_⟩
  · rw [rootDocument,named_rootObject h]
    exact ⟨hroot,h.areAttributes,hfits.charData,hfits.mixed,hfits.wellFormed,trivial⟩
  · rw [rootDocument,named_rootObject h]
    have hbreaks : ∀ c ∈ ['\n','\n'], isBlank c = true := forall_mem_of_all (by decide)
    exact hbreaks
  · rw [rootDocument,named_rootObject h]
    exact ⟨_,_,_,_,rfl⟩

end root

/-! ### The XML package -/

/-- An apostrophe is printed as a reference. -/
def escapeApostrophes (cs : List Char) : List Char :=
  cs.flatMap fun c => if c = Char.ofNat 0x27 then "&apos;".toList else [c]

/-- What the XML package is relied on for: it reads every well-formed document, and prints an object
with the declaration in the layout above. -/
structure SigningPackages.Lawful (P : SigningPackages) : Prop where
  parse : ∀ d : Document, d.WellFormed →
    P.parse (String.ofList d.print) = .ok (documentObject (d.elements trimChars))
  build : ∀ root fields attributes, isName root.toList = true → IsRoot fields attributes →
    P.build (.obj [("?xml",xmlDeclaration),(root,rootObject fields attributes)]) =
      String.ofList (escapeApostrophes (rootDocument root (rootObject fields attributes)).print)

theorem replaceAll_escape {cs : List Char} (h : '&' ∉ cs) :
    Placeholder.replaceAll "&apos;".toList "'".toList 0 (escapeApostrophes cs) = cs := by
  induction cs with
  | nil => rfl
  | cons c cs ih =>
    simp only [List.mem_cons,not_or] at h
    have ih := ih h.2
    have hescape : escapeApostrophes (c :: cs) =
        (if c = Char.ofNat 0x27 then "&apos;".toList else [c]) ++ escapeApostrophes cs := rfl
    rw [hescape]
    by_cases hc : c = Char.ofNat 0x27
    · subst hc
      rw [if_pos rfl]
      exact congrArg (Char.ofNat 0x27 :: ·) ih
    · have hno : ¬ "&apos;".toList.isPrefixOf (c :: escapeApostrophes cs) = true := by
        rw [List.isPrefixOf_iff_prefix]
        exact fun hp => h.1 (List.cons_prefix_cons.1 hp).1
      rw [if_neg hc,List.singleton_append,Placeholder.replaceAll,if_neg hno,ih]

theorem amp_notMem_startTag {n : List Char} {as : Attributes} (hn : isName n = true)
    (has : areAttributes as = true) : '&' ∉ startTag n as := by
  have hattributes : '&' ∉ printAttributes as := by
    have hmem := areAttributes_mem has
    clear has
    induction as with
    | nil => simp [printAttributes]
    | cons a as ih =>
      obtain ⟨k,v⟩ := a
      obtain ⟨⟨hk,hv⟩,has⟩ := List.forall_mem_cons.1 hmem
      have hk' : '&' ∉ k := notMem_name hk (by decide)
      have hv' : '&' ∉ v := notMem_value hv (by decide)
      simp [printAttributes,hk',hv',ih has]
  have hn' : '&' ∉ n := notMem_name hn (by decide)
  simp [startTag,hn',hattributes]

/-- Well-formed content of the fragment has no reference. -/
theorem amp_notMem_print {c : Content Empty} (hc : c.WellFormed) (h : '&' ∉ c.chars) :
    '&' ∉ c.print Empty.elim := by
  induction c with
  | nil => exact List.not_mem_nil
  | text cs rest ih =>
    rw [chars,List.mem_append,not_or] at h
    rw [print,List.mem_append,not_or]
    exact ⟨h.1,ih hc h.2⟩
  | slot s => exact s.elim
  | element n as c rest hchildren ih =>
    obtain ⟨hn,has,hchars,-,hwf,hrest⟩ := hc
    have hinside : '&' ∉ c.chars := fun hm => absurd (hchars.plain _ hm) (by decide)
    have hend : '&' ∉ endTag n := by
      have hn' : '&' ∉ n := notMem_name hn (by decide)
      simp [endTag,hn']
    simp only [print,List.mem_append,not_or]
    exact ⟨amp_notMem_startTag hn has,hchildren hwf hinside,hend,ih hrest h⟩

theorem amp_notMem_document {d : Document} (h : d.WellFormed) : '&' ∉ d.print := by
  have hblank : ∀ {cs : List Char}, (∀ c ∈ cs, isBlank c = true) → '&' ∉ cs :=
    fun hcs hm => absurd (hcs _ hm) (by decide)
  have hdeclaration : '&' ∉ declaration := by decide
  simp only [Document.print,List.mem_append,not_or]
  exact ⟨hblank h.lead,hdeclaration,amp_notMem_print h.body (hblank h.blank)⟩

section packages

variable {P : SigningPackages} (laws : P.Lawful)
include laws

theorem xmlText_root {root : String} (hroot : isName root.toList = true)
    {fields : List (String × Json)} {attributes : Attributes} (h : IsRoot fields attributes) :
    xmlText P ⟨.obj [("?xml",xmlDeclaration),(root,rootObject fields attributes)]⟩ =
      String.ofList (rootDocument root (rootObject fields attributes)).print := by
  have hdollar : NoPattern "'".toList := noPattern_of_notMem (by decide)
  rw [xmlText]
  simp only
  have hprinted : (String.ofList (escapeApostrophes
      (rootDocument root (rootObject fields attributes)).print)).toList =
        escapeApostrophes (rootDocument root (rootObject fields attributes)).print := String.toList_ofList
  rw [laws.build root fields attributes hroot h,hprinted,substituteAll_of_noPattern hdollar,
    replaceAll_escape (amp_notMem_document (wellFormed_rootDocument h hroot))]

end packages

/-! ### Deleting from an invoice -/

def invoiceObject (fields : List (String × Json)) (attributes : Attributes) : XMLDocument :=
  ⟨.obj [("?xml",xmlDeclaration),("Invoice",rootObject fields attributes)]⟩

section deletion

variable {fields : List (String × Json)} {attributes : Attributes} {tag : String}

theorem lookup_attributes (htag : isName tag.toList = true) :
    (attributes.map attributeField).lookup tag = none := by
  rw [List.lookup_eq_none_iff]
  intro f hf
  obtain ⟨a,-,rfl⟩ := List.mem_map.1 hf
  rw [bne_iff_ne]
  rintro rfl
  have hno := not_childKey_attributeField a
  rw [isChildKey_of_name htag] at hno
  cases hno

theorem attributes_without (htag : isName tag.toList = true) :
    (attributes.map attributeField).filter (fun f => f.1 ≠ tag) = attributes.map attributeField := by
  rw [List.filter_eq_self]
  intro f hf
  have hnone : (attributes.map attributeField).lookup tag = none := lookup_attributes htag
  have hne := List.lookup_eq_none_iff.1 hnone f hf
  rw [bne_iff_ne] at hne
  simpa using hne.symm

/-- Whether the deletion is about the element. -/
def meets (condition : Option (List (String × Json))) (v : Json) : Bool :=
  condition.all fun pattern => matchesSubset v pattern

theorem get_invoice (htag : isName tag.toList = true) (condition : Option (List (String × Json))) :
    (invoiceObject fields attributes).get ["Invoice",tag] condition =
      match fields.lookup tag with
      | none => none
      | some x =>
        if ((valuesOf x).filter (meets condition)).isEmpty then none
        else some ((valuesOf x).filter (meets condition)) := by
  have helement : XMLDocument.getElement (some (invoiceObject fields attributes).xml_object)
      ["Invoice",tag] = fields.lookup tag := by
    have hfield : XMLDocument.getElement (some (invoiceObject fields attributes).xml_object)
        ["Invoice",tag] = (fields ++ attributes.map attributeField).lookup tag := rfl
    rw [hfield,List.lookup_append,lookup_attributes htag,Option.or_none]
  rw [XMLDocument.get,helement]
  cases fields.lookup tag with
  | none => rfl
  | some x =>
    cases condition with
    | none =>
      have hall : (valuesOf x).filter (meets none) = valuesOf x := List.filter_eq_self.2 fun _ _ => rfl
      simp only [hall]
      cases x <;> rfl
    | some pattern => cases x <;> rfl

theorem withoutMatch_invoice (condition : Option (List (String × Json))) :
    withoutMatch condition ["Invoice",tag] (invoiceObject fields attributes).xml_object =
      .obj [("?xml",xmlDeclaration),("Invoice",.obj (withoutField condition tag
        (fields ++ attributes.map attributeField)))] := by
  have hxml : ¬ "?xml" = "Invoice" := by decide
  simp only [invoiceObject,withoutMatch,List.map_cons,List.map_nil,if_neg hxml,if_true,rootObject]

/-- One element of the tag at least is deleted. -/
theorem withoutField_eq {condition : Option (List (String × Json))} {fs : List (String × Json)} {x : Json}
    (hx : fs.lookup tag = some x) (hmet : (valuesOf x).filter (meets condition) ≠ []) :
    withoutField condition tag fs =
      if ((valuesOf x).filter fun v => !meets condition v).isEmpty then fs.filter fun f => f.1 ≠ tag
      else JsMap.setEntry tag (.arr ((valuesOf x).filter fun v => !meets condition v)) fs := by
  unfold withoutField
  rw [hx]
  cases condition with
  | none =>
    have hnone : (valuesOf x).filter (fun v => !meets none v) = [] := by
      simp [meets]
    rw [hnone,List.isEmpty_nil,if_pos rfl]
    cases x <;> rfl
  | some pattern =>
    have hone : valuesOf x = [x] → (valuesOf x).filter (fun v => !meets (some pattern) v) = [] := by
      intro hv
      rw [hv] at hmet ⊢
      cases hm : meets (some pattern) x with
      | true => simp [hm]
      | false => simp [hm] at hmet
    cases x with
    | arr vs => rfl
    | null => rw [hone rfl,List.isEmpty_nil,if_pos rfl]
    | bool b => rw [hone rfl,List.isEmpty_nil,if_pos rfl]
    | num q => rw [hone rfl,List.isEmpty_nil,if_pos rfl]
    | str t => rw [hone rfl,List.isEmpty_nil,if_pos rfl]
    | obj gs => rw [hone rfl,List.isEmpty_nil,if_pos rfl]

theorem setEntry_middle {a : List (String × Json)} (ha : tag ∉ a.map Prod.fst) (x y : Json)
    (b : List (String × Json)) : JsMap.setEntry tag y (a ++ (tag,x) :: b) = a ++ (tag,y) :: b := by
  induction a with
  | nil => rw [List.nil_append,List.nil_append,JsMap.setEntry,if_pos rfl]
  | cons f a ih =>
    simp only [List.map_cons,List.mem_cons,not_or] at ha
    have hne : f.1 ≠ tag := fun hsame => ha.1 hsame.symm
    rw [List.cons_append,JsMap.setEntry,if_neg hne,ih ha.2,List.cons_append]

theorem filter_without {a : List (String × Json)} (ha : tag ∉ a.map Prod.fst) :
    a.filter (fun f => f.1 ≠ tag) = a := by
  rw [List.filter_eq_self]
  intro f hf
  refine decide_eq_true fun hsame => ha ?_
  rw [← hsame]
  exact List.mem_map_of_mem hf

theorem elementsOf_without (h : tag ∉ fields.map Prod.fst) (q : Json → Bool) :
    (elementsOf fields).filter (fun e => !(e.1 = tag && q e.2)) = elementsOf fields := by
  rw [List.filter_eq_self]
  intro e he
  obtain ⟨f,hf,hsame,-⟩ := mem_elementsOf he
  have hne : e.1 ≠ tag := fun htag => h (htag ▸ hsame ▸ List.mem_map_of_mem hf)
  simp [hne]

theorem notMem_middle {a b : List (String × Json)} {x : Json}
    (h : ((a ++ (tag,x) :: b).map Prod.fst).Nodup) : tag ∉ a.map Prod.fst ∧ tag ∉ b.map Prod.fst := by
  simp only [List.map_append,List.map_cons,List.nodup_append,List.nodup_cons] at h
  exact ⟨fun hmem => h.2.2 tag hmem tag List.mem_cons_self rfl,h.2.1.1⟩

theorem elementsOf_middle (a b : List (String × Json)) (x : Json) : elementsOf (a ++ (tag,x) :: b) =
    elementsOf a ++ ((valuesOf x).map (fun v => (tag,v)) ++ elementsOf b) := by
  rw [elementsOf_append,elementsOf_cons]

theorem elementsOf_filter_middle {a b : List (String × Json)} {x : Json}
    (h : ((a ++ (tag,x) :: b).map Prod.fst).Nodup) (q : Json → Bool) :
    (elementsOf (a ++ (tag,x) :: b)).filter (fun e => !(e.1 = tag && q e.2)) =
      elementsOf a ++ (((valuesOf x).filter fun v => !q v).map (fun v => (tag,v)) ++ elementsOf b) := by
  obtain ⟨ha,hb⟩ := notMem_middle h
  rw [elementsOf_middle,List.filter_append,List.filter_append,elementsOf_without ha,
    elementsOf_without hb,List.filter_map]
  congr 3
  refine List.filter_congr fun v _ => ?_
  simp

theorem IsRoot.sublist (h : IsRoot fields attributes) {kept : List (String × Json)}
    (hkept : kept.Sublist fields) : IsRoot kept attributes where
  names f hf := h.names f (hkept.subset hf)
  children f hf := h.children f (hkept.subset hf)
  nodup := h.nodup.sublist (hkept.map Prod.fst)
  areAttributes := h.areAttributes

theorem IsRoot.replace {a b : List (String × Json)} {x y : Json}
    (h : IsRoot (a ++ (tag,x) :: b) attributes) (hy : IsChild y) :
    IsRoot (a ++ (tag,y) :: b) attributes where
  names := by
    have hnames := h.names
    simp only [List.forall_mem_append,List.forall_mem_cons] at hnames ⊢
    exact hnames
  children := by
    have hchildren := h.children
    simp only [List.forall_mem_append,List.forall_mem_cons] at hchildren ⊢
    exact ⟨hchildren.1,hy,hchildren.2.2⟩
  nodup := by
    have hnodup := h.nodup
    rw [List.map_append,List.map_cons] at hnodup ⊢
    exact hnodup
  areAttributes := h.areAttributes

/-- The elements that the deletion is about go, whether the tag has one or several; the others stay
in their order. -/
theorem delete_invoice (h : IsRoot fields attributes) (htag : isName tag.toList = true)
    (condition : Option (List (String × Json))) : ∃ kept, IsRoot kept attributes ∧
      elementsOf kept = (elementsOf fields).filter (fun e => !(e.1 = tag && meets condition e.2)) ∧
      ((invoiceObject fields attributes).delete ["Invoice",tag] condition).2 =
        invoiceObject kept attributes := by
  rw [XMLDocument.delete,get_invoice htag]
  cases hlookup : fields.lookup tag with
  | none =>
    have hnot : tag ∉ fields.map Prod.fst := by
      intro hmem
      obtain ⟨f,hf,hsame⟩ := List.mem_map.1 hmem
      have hne := List.lookup_eq_none_iff.1 hlookup f hf
      rw [bne_iff_ne] at hne
      exact hne hsame.symm
    exact ⟨fields,h,(elementsOf_without hnot _).symm,rfl⟩
  | some x =>
    obtain ⟨a,b,rfl,-⟩ := List.lookup_eq_some_iff.1 hlookup
    obtain ⟨ha,hb⟩ := notMem_middle h.nodup
    have hfilter := elementsOf_filter_middle h.nodup (meets condition)
    by_cases hmet : (valuesOf x).filter (meets condition) = []
    · -- nothing of the tag is meant
      refine ⟨_,h,?_,?_⟩
      · have hall : (valuesOf x).filter (fun v => !meets condition v) = valuesOf x := by
          rw [List.filter_eq_self]
          intro v hv
          have hno := List.filter_eq_nil_iff.1 hmet v hv
          simpa using hno
        rw [hfilter,hall,elementsOf_middle]
      · simp only [hmet,List.isEmpty_nil,if_true,Option.isNone_none]
    · have hsome : ¬ ((valuesOf x).filter (meets condition)).isEmpty = true := by
        rwa [List.isEmpty_iff]
      have hlookup' : ((a ++ (tag,x) :: b) ++ attributes.map attributeField).lookup tag = some x := by
        rw [List.lookup_append,hlookup,Option.some_or]
      simp only [if_neg hsome,Option.isNone_some,Bool.false_eq_true,if_false]
      rw [withoutMatch_invoice,withoutField_eq hlookup' hmet]
      by_cases hrest : (valuesOf x).filter (fun v => !meets condition v) = []
      · -- the field goes as a whole
        refine ⟨a ++ b,h.sublist ((List.sublist_cons_self _ b).append_left a),?_,?_⟩
        · rw [hfilter,hrest,elementsOf_append]
          rfl
        · have hkept : ((a ++ (tag,x) :: b) ++ attributes.map attributeField).filter
              (fun f => f.1 ≠ tag) = (a ++ b) ++ attributes.map attributeField := by
            rw [List.filter_append,List.filter_append,attributes_without htag,filter_without ha,
              List.filter_cons_of_neg (by simp),filter_without hb]
          rw [hrest,List.isEmpty_nil,if_pos rfl,hkept]
          rfl
      · -- the field stays with what is left of it
        have hx : IsChild x := h.children (tag,x) (by simp)
        have hkept : IsChild (.arr ((valuesOf x).filter fun v => !meets condition v)) :=
          .inr ⟨_,rfl,hrest,fun w hw => hx.values w (List.mem_of_mem_filter hw)⟩
        refine ⟨_,h.replace hkept,?_,?_⟩
        · rw [hfilter,elementsOf_middle]
          rfl
        · have hsomeRest : ¬ ((valuesOf x).filter fun v => !meets condition v).isEmpty = true := by
            rwa [List.isEmpty_iff]
          rw [if_neg hsomeRest,List.append_assoc,List.cons_append,setEntry_middle ha]
          rw [invoiceObject,rootObject,List.append_assoc,List.cons_append]

end deletion

/-! ### The hash -/

/-- What signing adds to an invoice. -/
def isAddition (e : String × Json) : Bool :=
  e.1 = "ext:UBLExtensions" || e.1 = "cac:Signature" ||
    (e.1 = "cac:AdditionalDocumentReference" && matchesSubset e.2 [("cbc:ID",.str "QR")])

theorem pureInvoice_invoice {fields : List (String × Json)} {attributes : Attributes}
    (h : IsRoot fields attributes) : ∃ kept, IsRoot kept attributes ∧
      elementsOf kept = (elementsOf fields).filter (fun e => !isAddition e) ∧
      pureInvoice (invoiceObject fields attributes) = invoiceObject kept attributes := by
  obtain ⟨first,hfirst,hfirstElements,hdelete⟩ :=
    delete_invoice h (by decide : isName "ext:UBLExtensions".toList = true) none
  obtain ⟨second,hsecond,hsecondElements,hdelete'⟩ :=
    delete_invoice hfirst (by decide : isName "cac:Signature".toList = true) none
  obtain ⟨third,hthird,hthirdElements,hdelete''⟩ :=
    delete_invoice hsecond (by decide : isName "cac:AdditionalDocumentReference".toList = true)
      (some [("cbc:ID",.str "QR")])
  refine ⟨third,hthird,?_,?_⟩
  · rw [hthirdElements,hsecondElements,hfirstElements,List.filter_filter,List.filter_filter]
    refine List.filter_congr fun e _ => ?_
    simp only [meets,isAddition,Option.all_none,Option.all_some,Bool.and_true,Bool.not_or]
    cases decide (e.1 = "ext:UBLExtensions") <;> cases decide (e.1 = "cac:Signature") <;> simp
  · rw [pureInvoice]
    simp only [hdelete,hdelete',hdelete'']

/-- An invoice whose texts are read as they are printed. -/
structure IsInvoice (children : Groups) (attributes : Attributes) : Prop where
  shape : Shape children [] attributes
  elements : ∀ g ∈ children, ∀ v ∈ g.2, IsElement PlainText v

def invoiceDocument (children : Groups) (attributes : Attributes) : XMLDocument :=
  ⟨.obj [("?xml",xmlDeclaration),("Invoice",.obj (fieldsOf children [] attributes))]⟩

/-- The elements that are not added by signing. -/
def unsigned (children : Groups) : List (String × Json) :=
  (GroupBy.spread children).filter fun e => !isAddition e

theorem values_oneOrMany {ok : String → Prop} {vs : List Json} (h : ∀ v ∈ vs, IsElement ok v) :
    valuesOf (oneOrMany vs) = vs := by
  match vs, h with
  | [], _ => rfl
  | [v], h => exact valuesOf_element (h v List.mem_cons_self)
  | _ :: _ :: _, _ => rfl

theorem elementsOf_groups {ok : String → Prop} {children : Groups}
    (h : ∀ g ∈ children, ∀ v ∈ g.2, IsElement ok v) :
    elementsOf (children.map fun g => (g.1,oneOrMany g.2)) = GroupBy.spread children := by
  rw [elementsOf,List.flatMap_map]
  refine List.flatMap_congr fun g hg => ?_
  simp only [values_oneOrMany (h g hg)]

section invoice

variable {children : Groups} {attributes : Attributes} (h : IsInvoice children attributes)
include h

theorem isChild_oneOrMany : ∀ g ∈ children, IsChild (oneOrMany g.2) := by
  intro g hg
  have helements := h.elements g hg
  have hne := h.shape.values g hg
  match hvs : g.2 with
  | [] => exact absurd hvs hne
  | [v] =>
    rw [hvs] at helements
    exact .inl (helements v List.mem_cons_self)
  | v :: w :: vs =>
    rw [hvs] at helements
    exact .inr ⟨v :: w :: vs,rfl,List.cons_ne_nil _ _,helements⟩

theorem isRoot_invoice : IsRoot (children.map fun g => (g.1,oneOrMany g.2)) attributes where
  names := by
    intro f hf
    obtain ⟨g,hg,rfl⟩ := List.mem_map.1 hf
    exact h.shape.names g hg
  children := by
    intro f hf
    obtain ⟨g,hg,rfl⟩ := List.mem_map.1 hf
    exact isChild_oneOrMany h g hg
  nodup := by
    rw [List.map_map]
    exact h.shape.nodup
  areAttributes := h.shape.areAttributes

theorem entries_rootDocument : entries ((rootDocument "Invoice"
    (.obj (fieldsOf children [] attributes))).elements trimChars) =
      [("?xml",xmlDeclaration),("Invoice",.obj (fieldsOf children [] attributes))] := by
  have helement : IsElement PlainText (.obj (fieldsOf children [] attributes)) :=
    .object h.shape (fun hne => absurd rfl hne) h.elements
  have hroot := @entries_named (textLeaf id) PlainText _ helement 0 "Invoice"
  rw [reading_self helement] at hroot
  exact congrArg (("?xml",xmlDeclaration) :: ·) hroot

variable {P : SigningPackages} (laws : P.Lawful)
include laws

/-- What is printed for the invoice is read as the invoice. -/
theorem newXMLDocument_xmlText : newXMLDocument P (xmlText P (invoiceDocument children attributes)) =
    .ok (invoiceDocument children attributes) := by
  have hroot : isName "Invoice".toList = true := by decide
  have hne : String.ofList (rootDocument "Invoice" (.obj (fieldsOf children [] attributes))).print ≠ "" := by
    intro hempty
    have hchars := congrArg String.toList hempty
    rw [String.toList_ofList] at hchars
    cases hchars
  have htext := xmlText_root laws hroot (isRoot_invoice h)
  have hobject : rootObject (children.map fun g => (g.1,oneOrMany g.2)) attributes =
      .obj (fieldsOf children [] attributes) := rfl
  rw [hobject] at htext
  have hwf := wellFormed_rootDocument (isRoot_invoice h) hroot
  rw [hobject] at hwf
  have hdistinct : GroupBy.collect [("?xml",xmlDeclaration),("Invoice",.obj (fieldsOf children [] attributes))] =
      [("?xml",[xmlDeclaration]),("Invoice",[.obj (fieldsOf children [] attributes)])] := rfl
  rw [invoiceDocument,htext,newXMLDocument,if_neg hne,laws.parse _ hwf,documentObject,
    entries_rootDocument h,hdistinct]
  rfl

omit h in
/-- A well-formed text whose root is an invoice is read as an object that can be printed. -/
theorem parse_invoice {d : Document} (hd : d.WellFormed) (hgt : '>' ∉ d.body.characters)
    (hquote : '"' ∉ d.body.characters) {as : Attributes} {t : List Char} {c : Elements}
    (hroot : d.body.elements trimChars = .element "Invoice".toList as t c .nil) :
    ∃ v, IsElement PlainText v ∧
      P.parse (String.ofList d.print) = .ok (.obj [("?xml",xmlDeclaration),("Invoice",v)]) := by
  have helements := isElement_of_content hd.body hgt hquote
  rw [hroot] at helements
  refine ⟨elementValue (GroupBy.collect (entries c)) t as,?_,?_⟩
  · exact (helements (String.ofList "Invoice".toList,_) List.mem_cons_self).2
  · rw [laws.parse d hd,documentObject,Document.elements,hroot]
    rfl

theorem getPureInvoiceString_invoice : ∃ kept, IsRoot kept attributes ∧
    elementsOf kept = unsigned children ∧
    getPureInvoiceString P (invoiceDocument children attributes) =
      (P.canonicalize (String.ofList (rootDocument "Invoice" (rootObject kept attributes)).print)).bind
        fun canonicalized => match canonicalized with
          | some content => .ok content
          | none => .error noCanonicalText := by
  obtain ⟨kept,hkept,helements,hpure⟩ := pureInvoice_invoice (isRoot_invoice h)
  refine ⟨kept,hkept,?_,?_⟩
  · rw [helements,elementsOf_groups h.elements,unsigned]
  · rw [getPureInvoiceString,newXMLDocument_xmlText h laws]
    have htext := xmlText_root laws (by decide : isName "Invoice".toList = true) hkept
    have hpure' : pureInvoice (invoiceDocument children attributes) =
        ⟨.obj [("?xml",xmlDeclaration),("Invoice",rootObject kept attributes)]⟩ := hpure
    simp only [bind,Except.bind,hpure',htext]
    rfl

end invoice

/-- Whatever extensions, signature and QR code an invoice carries, and in as many elements as it
carries them, its hash is that of the other elements. -/
theorem getInvoiceHash_of_unsigned {P : SigningPackages} (laws : P.Lawful) {children children' : Groups}
    {attributes : Attributes} (h : IsInvoice children attributes) (h' : IsInvoice children' attributes)
    (hsame : unsigned children = unsigned children') :
    getInvoiceHash P (invoiceDocument children attributes) =
      getInvoiceHash P (invoiceDocument children' attributes) := by
  obtain ⟨kept,hkept,helements,hstring⟩ := getPureInvoiceString_invoice h laws
  obtain ⟨kept',hkept',helements',hstring'⟩ := getPureInvoiceString_invoice h' laws
  have hdocument : rootDocument "Invoice" (rootObject kept attributes) =
      rootDocument "Invoice" (rootObject kept' attributes) := by
    rw [rootDocument,rootDocument,named_rootObject hkept,named_rootObject hkept',helements,helements',
      hsame]
  rw [getInvoiceHash,getInvoiceHash,hstring,hstring',hdocument]

theorem plainText_of_all {s : String}
    (h : s.toList.all (fun c => isPlain c && c != ']' && c != '>' && c != '"') = true)
    (htrimmed : trimChars s.toList = s.toList) : PlainText s := by
  simp only [List.all_eq_true,Bool.and_eq_true,bne_iff_ne] at h
  refine ⟨⟨fun c hc => (h c hc).1.1.1,fun hend => ?_⟩,htrimmed,fun hc => (h _ hc).1.2 rfl,
    fun hc => (h _ hc).2 rfl⟩
  exact (h ']' (hend.subset (by decide))).1.1.2 rfl

/-! An invoice before and after it is signed. -/
namespace Sample

def invoiceAttributes : Attributes :=
  [("xmlns".toList,"urn:oasis:names:specification:ubl:schema:xsd:Invoice-2".toList),
    ("xmlns:cac".toList,"urn:oasis:names:specification:ubl:schema:xsd:CommonAggregateComponents-2".toList),
    ("xmlns:cbc".toList,"urn:oasis:names:specification:ubl:schema:xsd:CommonBasicComponents-2".toList)]

def reference (id tag content : String) : Json :=
  .obj (fieldsOf [("cbc:ID",[.str id]),(tag,[.str content])] [] [])

def unsignedInvoice : Groups :=
  [("cbc:ID",[.str "INV-1"]),
    ("cac:AdditionalDocumentReference",[reference "ICV" "cbc:UUID" "7"])]

def signedInvoice : Groups :=
  [("ext:UBLExtensions",[.str "the signature"]),("cbc:ID",[.str "INV-1"]),
    ("cac:AdditionalDocumentReference",[reference "ICV" "cbc:UUID" "7",
      reference "QR" "cac:Attachment" "AQRBY21l"]),
    ("cac:Signature",[.str "urn:oasis:names:specification:ubl:signature:Invoice"])]

def hashedText : String :=
  "<Invoice xmlns=\"urn:oasis:names:specification:ubl:schema:xsd:Invoice-2\" xmlns:cac=\"urn:oasis:names:specification:ubl:schema:xsd:CommonAggregateComponents-2\" xmlns:cbc=\"urn:oasis:names:specification:ubl:schema:xsd:CommonBasicComponents-2\">
    <cbc:ID>INV-1</cbc:ID>
    <cac:AdditionalDocumentReference>
        <cbc:ID>ICV</cbc:ID>
        <cbc:UUID>7</cbc:UUID>
    </cac:AdditionalDocumentReference>
</Invoice>"

def hashedDigest : List UInt8 :=
  [0x3f,0x4f,0xe7,0xc5,0xe0,0xdc,0x8e,0x0d,0xbd,0x86,0x8c,0x65,0xb6,0x20,0xfd,0x34,
    0xed,0x10,0x65,0x3c,0xf3,0xec,0x4d,0xe5,0x95,0x61,0x1f,0x26,0x9c,0x24,0xf0,0x84]

/-- Packages that know one digest and no key. -/
def signingPackages : SigningPackages where
  parse s :=
    match Xml.parse trimChars s.toList with
    | some es => .ok (documentObject es)
    | none => .error (.error "Start tag expected.")
  build v :=
    match v with
    | .obj [_,(root,v)] => String.ofList (escapeApostrophes (rootDocument root v).print)
    | _ => ""
  canonicalize s := .ok (some (String.ofList (s.toList.drop (declaration.length + 1)).dropLast))
  sha256 bs := if bs = utf8 hashedText then hashedDigest else []
  sign _ _ := none
  certificates := certificateParsers

theorem lawful_signingPackages : signingPackages.Lawful where
  parse d h := by
    have hread := reads_parse trimChars d h
    simp only [signingPackages,String.toList_ofList,hread]
  build root fields attributes _ _ := rfl

theorem isElement_reference {id tag content : String} (htag : isName tag.toList = true)
    (hother : tag ≠ "cbc:ID") (hid : PlainText id) (hcontent : PlainText content) :
    IsElement PlainText (reference id tag content) := by
  have hname : isName "cbc:ID".toList = true := by decide
  refine .object ⟨?_,?_,?_,rfl,.inr rfl,.inl (List.cons_ne_nil _ _)⟩ (fun hne => absurd rfl hne) ?_
  · simp only [List.forall_mem_cons,List.not_mem_nil,false_implies,implies_true,and_true]
    exact ⟨hname,htag⟩
  · simp
  · simpa using hother.symm
  · simp only [List.forall_mem_cons,List.not_mem_nil,false_implies,implies_true,
      and_true]
    exact ⟨.text hid,.text hcontent⟩

theorem isInvoice_unsignedInvoice : IsInvoice unsignedInvoice invoiceAttributes where
  shape := ⟨by decide,by decide,by decide,by decide,.inr rfl,.inl (List.cons_ne_nil _ _)⟩
  elements := by
    have hid : PlainText "INV-1" := plainText_of_all (by decide) (by decide)
    have hicv : IsElement PlainText (reference "ICV" "cbc:UUID" "7") :=
      isElement_reference (by decide) (by decide) (plainText_of_all (by decide) (by decide))
        (plainText_of_all (by decide) (by decide))
    simp only [unsignedInvoice,List.forall_mem_cons,List.not_mem_nil,false_implies,implies_true,
      and_true]
    exact ⟨.text hid,hicv⟩

theorem isInvoice_signedInvoice : IsInvoice signedInvoice invoiceAttributes where
  shape := ⟨by decide,by decide,by decide,by decide,.inr rfl,.inl (List.cons_ne_nil _ _)⟩
  elements := by
    have hplain : PlainText "INV-1" ∧ PlainText "the signature" ∧
        PlainText "urn:oasis:names:specification:ubl:signature:Invoice" :=
      ⟨plainText_of_all (by decide) (by decide),plainText_of_all (by decide) (by decide),
        plainText_of_all (by decide) (by decide)⟩
    have hicv : IsElement PlainText (reference "ICV" "cbc:UUID" "7") :=
      isElement_reference (by decide) (by decide) (plainText_of_all (by decide) (by decide))
        (plainText_of_all (by decide) (by decide))
    have hqr : IsElement PlainText (reference "QR" "cac:Attachment" "AQRBY21l") :=
      isElement_reference (by decide) (by decide) (plainText_of_all (by decide) (by decide))
        (plainText_of_all (by decide) (by decide))
    simp only [signedInvoice,List.forall_mem_cons,List.not_mem_nil,false_implies,implies_true,
      and_true]
    exact ⟨.text hplain.2.1,.text hplain.1,⟨hicv,hqr⟩,.text hplain.2.2⟩

end Sample

theorem getInvoiceHash_of_signedInvoice :
    getInvoiceHash Sample.signingPackages (invoiceDocument Sample.unsignedInvoice Sample.invoiceAttributes) =
      getInvoiceHash Sample.signingPackages (invoiceDocument Sample.signedInvoice Sample.invoiceAttributes) :=
  getInvoiceHash_of_unsigned Sample.lawful_signingPackages Sample.isInvoice_unsignedInvoice
    Sample.isInvoice_signedInvoice (by decide)

end Zatca
