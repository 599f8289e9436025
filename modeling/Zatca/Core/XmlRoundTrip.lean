import Zatca.Core.XmlObjects
set_option autoImplicit false

/-! What is printed for an object is read back as the object, and what is read can be printed. -/

namespace Zatca
open Xml Xml.Content

/-! ### Character data -/

theorem isJsSpace_of_blank {c : Char} (h : isBlank c = true) : isJsSpace c = true := by
  simp only [isBlank,Bool.or_eq_true,beq_iff_eq] at h
  rcases h with (rfl | rfl) | rfl
  · decide
  · decide
  · decide

theorem trimChars_of_blank {cs : List Char} (h : ∀ c ∈ cs, isBlank c = true) : trimChars cs = [] := by
  have hdrop : cs.dropWhile isJsSpace = [] := by
    rw [List.dropWhile_eq_nil_iff]
    exact fun c hc => isJsSpace_of_blank (h c hc)
  rw [trimChars,hdrop]
  rfl

theorem infix_of_trimChars (cs : List Char) : trimChars cs <:+: cs :=
  (Trim.trim_leads cs).isInfix.trans (List.dropWhile_suffix _).isInfix

theorem plainText_trimChars {cs : List Char} (h : CharData cs) (hgt : '>' ∉ cs) (hquote : '"' ∉ cs) :
    PlainText (String.ofList (trimChars cs)) := by
  refine ⟨?_,?_,?_,?_⟩
  · rw [String.toList_ofList]
    exact h.of_infix (infix_of_trimChars cs)
  · rw [String.toList_ofList]
    exact trimChars_of_trimmed (trimmed_trimChars cs)
  · rw [String.toList_ofList]
    exact fun hc => hgt ((infix_of_trimChars cs).subset hc)
  · rw [String.toList_ofList]
    exact fun hc => hquote ((infix_of_trimChars cs).subset hc)

/-! ### Elements in a row -/

theorem entries_append (es fs : Elements) : entries (es.append fs) = entries es ++ entries fs := by
  induction es with
  | nil => rfl
  | element n as t c rest _ ih => simp [Elements.append,entries,ih]

/-- What an element is read as when it is printed with such texts. -/
def reading (leaf : String → Content Empty) (level : Nat) (v : Json) : Json :=
  elementValue (GroupBy.collect (entries ((inner leaf level v).elements trimChars)))
    (trimChars (inner leaf level v).chars) (attributesOf v)

section block

variable {σ : Type} (leaf : String → Content σ)

def block (level : Nat) : List (String × Json) → Content σ
  | [] => nil
  | e :: es => (named leaf level e.1 e.2).append (block level es)

theorem block_append (level : Nat) (es fs : List (String × Json)) :
    block leaf level (es ++ fs) = (block leaf level es).append (block leaf level fs) := by
  induction es with
  | nil => rfl
  | cons e es ih => rw [List.cons_append,block,block,ih,append_assoc]

theorem block_namedAll (level : Nat) (name : String) (vs : List Json) :
    block leaf level (vs.map fun v => (name,v)) = namedAll leaf level name vs := by
  induction vs with
  | nil => rfl
  | cons v vs ih => rw [List.map_cons,block,namedAll,ih]

theorem lines_eq_block {ok : String → Prop} {children : Groups}
    (hnames : ∀ g ∈ children, isName g.1.toList = true)
    (hvalues : ∀ g ∈ children, ∀ v ∈ g.2, IsElement ok v) (level : Nat) :
    lines leaf level (children.map fun g => (g.1,oneOrMany g.2)) =
      block leaf level (GroupBy.spread children) := by
  induction children with
  | nil => rfl
  | cons g gs ih =>
    obtain ⟨hname,hnames⟩ := List.forall_mem_cons.1 hnames
    obtain ⟨hg,hvalues⟩ := List.forall_mem_cons.1 hvalues
    have hspread : GroupBy.spread (g :: gs) = g.2.map (fun v => (g.1,v)) ++ GroupBy.spread gs := rfl
    rw [List.map_cons,lines,if_pos (isChildKey_of_name hname),named_oneOrMany leaf hg,
      ih hnames hvalues,hspread,block_append,block_namedAll]

variable {leaf}

theorem inner_children {ok : String → Prop} {children : Groups} {text : List Char}
    {attributes : Attributes} (hshape : Shape children text attributes) (hne : children ≠ [])
    (hchildren : ∀ g ∈ children, ∀ v ∈ g.2, IsElement ok v) (level : Nat) :
    inner leaf level (.obj (fieldsOf children text attributes)) =
      .text ['\n'] ((block leaf (level + 1) (GroupBy.spread children)).append
        (.text (indentation level) nil)) := by
  rw [inner_fieldsOf leaf hshape,if_neg hne,lines_eq_block leaf hshape.names hchildren]

end block

section reading

variable {leaf : String → Content Empty} {ok : String → Prop}

theorem isBlank_indentation (level : Nat) : ∀ c ∈ indentation level, isBlank c = true := by
  intro c hc
  rw [(List.mem_replicate.1 hc).2]
  decide

theorem chars_named {v : Json} (h : IsElement ok v) (level : Nat) (name : String) :
    ∀ c ∈ (named leaf level name v).chars, isBlank c = true := by
  intro c hc
  rw [named_of_isElement leaf h,chars,chars,chars,chars,List.append_nil,List.mem_append] at hc
  rcases hc with hc | hc
  · exact isBlank_indentation level c hc
  · rw [List.mem_singleton.1 hc]
    decide

theorem chars_block {es : List (String × Json)} (h : ∀ e ∈ es, IsElement ok e.2) (level : Nat) :
    ∀ c ∈ (block leaf level es).chars, isBlank c = true := by
  induction es with
  | nil => exact fun c hc => absurd hc List.not_mem_nil
  | cons e es ih =>
    obtain ⟨he,hes⟩ := List.forall_mem_cons.1 h
    intro c hc
    rw [block,chars_append,List.mem_append] at hc
    rcases hc with hc | hc
    · exact chars_named he level e.1 c hc
    · exact ih hes c hc

theorem entries_named {v : Json} (h : IsElement ok v) (level : Nat) (name : String) :
    entries ((named leaf level name v).elements trimChars) = [(name,reading leaf level v)] := by
  rw [named_of_isElement leaf h]
  simp only [elements,entries,String.ofList_toList]
  rfl

theorem entries_block {es : List (String × Json)} (h : ∀ e ∈ es, IsElement ok e.2) (level : Nat) :
    entries ((block leaf level es).elements trimChars) =
      es.map fun e => (e.1,reading leaf level e.2) := by
  induction es with
  | nil => rfl
  | cons e es ih =>
    obtain ⟨he,hes⟩ := List.forall_mem_cons.1 h
    rw [block,elements_append,entries_append,entries_named he,ih hes]
    rfl

theorem mem_spread {children : Groups} {q : Json → Prop} (h : ∀ g ∈ children, ∀ v ∈ g.2, q v) :
    ∀ e ∈ GroupBy.spread children, q e.2 := by
  intro e he
  obtain ⟨g,hg,he⟩ := List.mem_flatMap.1 he
  obtain ⟨v,hv,rfl⟩ := List.mem_map.1 he
  exact h g hg v hv

theorem isName_spread {children : Groups} (h : ∀ g ∈ children, isName g.1.toList = true) :
    ∀ e ∈ GroupBy.spread children, isName e.1.toList = true := by
  intro e he
  obtain ⟨g,hg,he⟩ := List.mem_flatMap.1 he
  obtain ⟨v,-,rfl⟩ := List.mem_map.1 he
  exact h g hg

theorem spread_map (children : Groups) (f : Json → Json) :
    (GroupBy.spread children).map (fun e => (e.1,f e.2)) =
      GroupBy.spread (children.map fun g => (g.1,g.2.map f)) := by
  induction children with
  | nil => rfl
  | cons g gs ih =>
    simp only [GroupBy.spread,List.flatMap_cons,List.map_append,List.map_cons,List.map_map] at ih ⊢
    rw [ih]
    rfl

variable {children : Groups} {text : List Char} {attributes : Attributes}

theorem chars_inner_children (hshape : Shape children text attributes) (hne : children ≠ [])
    (hchildren : ∀ g ∈ children, ∀ v ∈ g.2, IsElement ok v) (level : Nat) :
    ∀ c ∈ (inner leaf level (.obj (fieldsOf children text attributes))).chars, isBlank c = true := by
  intro c hc
  rw [inner_children hshape hne hchildren,chars,chars_append,chars,chars,List.append_nil] at hc
  rcases List.mem_append.1 hc with hc | hc
  · rw [List.mem_singleton.1 hc]
    decide
  · rcases List.mem_append.1 hc with hc | hc
    · exact chars_block (fun e he => mem_spread hchildren e he) _ c hc
    · exact isBlank_indentation level c hc

/-- An object with children is read child by child. -/
theorem reading_children (hshape : Shape children text attributes) (hne : children ≠ [])
    (hchildren : ∀ g ∈ children, ∀ v ∈ g.2, IsElement ok v) (level : Nat) :
    reading leaf level (.obj (fieldsOf children text attributes)) =
      .obj (fieldsOf (children.map fun g => (g.1,g.2.map (reading leaf (level + 1)))) [] attributes) := by
  have hentries : entries ((inner leaf level (.obj (fieldsOf children text attributes))).elements
      trimChars) = GroupBy.spread (children.map fun g => (g.1,g.2.map (reading leaf (level + 1)))) := by
    rw [inner_children hshape hne hchildren,elements,elements_append,elements,elements,
      Elements.append_nil,entries_block fun e he => mem_spread hchildren e he,
      spread_map]
  have hcollect : GroupBy.collect (GroupBy.spread
      (children.map fun g => (g.1,g.2.map (reading leaf (level + 1))))) =
        children.map fun g => (g.1,g.2.map (reading leaf (level + 1))) := by
    refine GroupBy.collect_spread ?_ ?_
    · rw [List.map_map]
      exact hshape.nodup
    · intro g hg
      obtain ⟨g',hg',rfl⟩ := List.mem_map.1 hg
      simpa using hshape.values g' hg'
  rw [reading,hentries,hcollect,trimChars_of_blank (chars_inner_children hshape hne hchildren level),
    attributesOf_fieldsOf hshape.names,elementValue,if_neg]
  simp [hne]

theorem reading_text (m : String → String) (level : Nat) (s : String) :
    reading (textLeaf m) level (.str s) = .str (String.ofList (trimChars (m s).toList)) := by
  simp [reading,inner,textLeaf,elements,entries,chars,attributesOf,GroupBy.collect,elementValue]

theorem reading_attributes (hshape : Shape [] text attributes) (m : String → String) (level : Nat) :
    reading (textLeaf m) level (.obj (fieldsOf [] text attributes)) = .obj (fieldsOf []
      (if text = [] then [] else trimChars (m (String.ofList text)).toList) attributes) := by
  have hattributes : attributes ≠ [] := by
    rcases hshape.object with h | h
    · exact absurd rfl h
    · exact h
  rw [reading,inner_fieldsOf _ hshape,attributesOf_fieldsOf hshape.names,if_pos rfl]
  by_cases htext : text = []
  · rw [if_pos htext,if_pos htext,elementValue,if_neg (by simp [hattributes])]
    rfl
  · rw [if_neg htext,if_neg htext]
    simp [textLeaf,elements,entries,chars,GroupBy.collect,elementValue,hattributes]

end reading

/-! ### Reading what is printed -/

theorem reading_self {v : Json} (h : IsElement PlainText v) (level : Nat) :
    reading (textLeaf id) level v = v := by
  induction h generalizing level with
  | text h => rw [reading_text,id,h.trimmed,String.ofList_toList]
  | @object children text attributes hshape htext hchildren ih =>
    by_cases hne : children = []
    · subst hne
      rw [reading_attributes hshape]
      by_cases hempty : text = []
      · rw [if_pos hempty,hempty]
      · have htrimmed := (htext hempty).trimmed
        rw [String.toList_ofList] at htrimmed
        rw [if_neg hempty,id,String.toList_ofList,htrimmed]
    · have htext : text = [] := hshape.mixed.resolve_left hne
      have hmap : (children.map fun g => (g.1,g.2.map (reading (textLeaf id) (level + 1)))) =
          children := by
        conv_rhs => rw [← List.map_id children]
        refine List.map_congr_left fun g hg => ?_
        have hvalues : g.2.map (reading (textLeaf id) (level + 1)) = g.2 := by
          conv_rhs => rw [← List.map_id g.2]
          exact List.map_congr_left fun v hv => ih g hg v hv (level + 1)
        rw [hvalues]
        rfl
      rw [reading_children hshape hne hchildren,hmap,htext]

/-! ### What is printed is well formed -/

section wellFormed

variable {ok : String → Prop} {leaf : String → Content Empty}

theorem wellFormed_named {v : Json} (h : IsElement ok v) {level : Nat} {name : String}
    (hname : isName name.toList = true) (hfits : Fits (inner leaf level v)) :
    (named leaf level name v).WellFormed := by
  rw [named_of_isElement _ h]
  refine ⟨hname,?_,hfits.charData,hfits.mixed,hfits.wellFormed,trivial⟩
  cases h with
  | text => rfl
  | object hshape =>
    rw [attributesOf_fieldsOf hshape.names]
    exact hshape.areAttributes

theorem wellFormed_block {es : List (String × Json)} {level : Nat}
    (h : ∀ e ∈ es, isName e.1.toList = true ∧ IsElement ok e.2 ∧ Fits (inner leaf level e.2)) :
    (block leaf level es).WellFormed := by
  induction es with
  | nil => trivial
  | cons e es ih =>
    obtain ⟨⟨hname,he,hfits⟩,hes⟩ := List.forall_mem_cons.1 h
    exact wellFormed_append (wellFormed_named he hname hfits) (ih hes)

/-- Whatever an element may hold may stand for its text. -/
theorem fits_inner (hleaf : ∀ s, ok s → Fits (leaf s)) {v : Json} (h : IsElement ok v)
    (level : Nat) : Fits (inner leaf level v) := by
  induction h generalizing level with
  | text h => exact hleaf _ h
  | @object children text attributes hshape htext hchildren ih =>
    by_cases hne : children = []
    · rw [inner_fieldsOf _ hshape,if_pos hne]
      split
      · exact Fits.of_blank (fun x hx => absurd hx List.not_mem_nil) trivial
      · rename_i hempty
        exact hleaf _ (htext hempty)
    · refine Fits.of_blank (chars_inner_children hshape hne hchildren level) ?_
      rw [inner_children hshape hne hchildren]
      refine wellFormed_append (@wellFormed_block ok leaf _ _ ?_) trivial
      exact fun e he => ⟨isName_spread hshape.names e he,mem_spread hchildren e he,
        mem_spread (fun g hg v hv => ih g hg v hv (level + 1)) e he⟩

end wellFormed

/-! ### What is read can be printed -/

/-- The entries of well-formed content without references. -/
theorem isElement_of_content {c : Content Empty} (hc : c.WellFormed) (hgt : '>' ∉ c.characters)
    (hquote : '"' ∉ c.characters) : ∀ e ∈ entries (c.elements trimChars),
      isName e.1.toList = true ∧ IsElement PlainText e.2 := by
  induction c with
  | nil => exact fun e he => absurd he List.not_mem_nil
  | text cs rest ih =>
    rw [characters,List.mem_append,not_or] at hgt hquote
    exact ih hc hgt.2 hquote.2
  | slot s => exact s.elim
  | element n as c rest hchildren ih =>
    obtain ⟨hn,has,hchars,hmixed,hwf,hrest⟩ := hc
    rw [characters,List.mem_append,not_or] at hgt hquote
    have hentries := hchildren hwf hgt.1 hquote.1
    obtain ⟨hnodup,hgroups⟩ := GroupBy.collect_spec
      (p := fun key : String => isName key.toList = true) hentries
    have hplain : PlainText (String.ofList (trimChars c.chars)) := plainText_trimChars hchars
      (fun h => hgt.1 (characters_of_chars h)) (fun h => hquote.1 (characters_of_chars h))
    refine List.forall_mem_cons.2 ⟨⟨?_,?_⟩,ih hrest hgt.2 hquote.2⟩
    · rw [String.toList_ofList]
      exact hn
    · unfold elementValue
      split
      · exact .text hplain
      · rename_i hobject
        refine .object ⟨fun g hg => (hgroups g hg).1,fun g hg => (hgroups g hg).2.1,hnodup,has,?_,?_⟩
          (fun _ => hplain) fun g hg => (hgroups g hg).2.2
        · rcases hmixed with hbare | hblank
          · rw [elements_of_bare trimChars hbare]
            exact .inl rfl
          · exact .inr (trimChars_of_blank hblank)
        · exact not_and_or.1 hobject

end Zatca
