import Zatca.Library.Xml
set_option autoImplicit false

/-!
An executable parser of the fragment: tags are told from character data first, then the nesting is
rebuilt. It reads every well-formed document.
-/

namespace Xml

inductive Token where
  | char (c : Char)
  | start (name : List Char) (attributes : Attributes)
  | stop (name : List Char)
  | bad
  deriving DecidableEq

/-- Where in ` name="value"` the reader stands; what it has read of the part is kept reversed. -/
inductive AttributeState where
  | between
  | name (read : List Char)
  | equals (name : List Char)
  | value (name read : List Char)

def readAttributes : AttributeState → List Char → Option Attributes
  | .between, [] => some []
  | .between, c :: cs => if c = ' ' then readAttributes (.name []) cs else none
  | .name read, c :: cs =>
    if c = '=' then readAttributes (.equals read.reverse) cs
    else readAttributes (.name (c :: read)) cs
  | .equals n, c :: cs => if c = '"' then readAttributes (.value n []) cs else none
  | .value n read, c :: cs =>
    if c = '"' then (readAttributes .between cs).map fun as => (n,read.reverse) :: as
    else readAttributes (.value n (c :: read)) cs
  | _, [] => none

/-- What stands between `<` and `>`. -/
def readTag : List Char → Token
  | '/' :: n => .stop n
  | cs =>
    match readAttributes .between (cs.dropWhile fun c => c != ' ') with
    | some as => .start (cs.takeWhile fun c => c != ' ') as
    | none => .bad

/-- The tag that is open is kept reversed. -/
def lex : Option (List Char) → List Char → List Token
  | none, [] => []
  | some _, [] => [.bad]
  | none, c :: cs => if c = '<' then lex (some []) cs else .char c :: lex none cs
  | some tag, c :: cs =>
    if c = '>' then readTag tag.reverse :: lex none cs else lex (some (c :: tag)) cs

/-- Content up to the end tag that closes it, which stays unread. -/
def readContent (trim : List Char → List Char) :
    Nat → List Token → Option ((List Char × Elements) × List Token)
  | 0, _ => none
  | _ + 1, [] => some (([],.nil),[])
  | fuel + 1, .char c :: ts => do
    let ((cs,es),rest) ← readContent trim fuel ts
    some ((c :: cs,es),rest)
  | _ + 1, .stop n :: ts => some (([],.nil),.stop n :: ts)
  | _ + 1, .bad :: _ => none
  | fuel + 1, .start n as :: ts => do
    let ((cs,es),rest) ← readContent trim fuel ts
    match rest with
    | .stop m :: rest =>
      if m = n then
        let ((cs',es'),rest') ← readContent trim fuel rest
        some ((cs',.element n as (trim cs) es es'),rest')
      else none
    | _ => none

def parse (trim : List Char → List Char) (text : List Char) : Option Elements :=
  let afterLead := text.dropWhile isBlank
  if declaration.isPrefixOf afterLead then
    let tokens := lex none (afterLead.drop declaration.length)
    match readContent trim (tokens.length + 1) tokens with
    | some ((cs,es),[]) =>
      if cs.all isBlank then
        some (.element "?xml".toList
          [("version".toList,"1.0".toList),("encoding".toList,"UTF-8".toList)] [] .nil es)
      else none
    | _ => none
  else none

/-! ### Tags -/

theorem readAttributes_name {n : List Char} (hn : '=' ∉ n) (read cs : List Char) :
    readAttributes (.name read) (n ++ '=' :: cs) =
      readAttributes (.equals (read.reverse ++ n)) cs := by
  induction n generalizing read with
  | nil => simp [readAttributes]
  | cons c n ih =>
    simp only [List.mem_cons,not_or] at hn
    have hc : c ≠ '=' := fun h => hn.1 h.symm
    simp [readAttributes,hc,ih hn.2]

theorem readAttributes_value {v : List Char} (hv : '"' ∉ v) (n read cs : List Char) :
    readAttributes (.value n read) (v ++ '"' :: cs) =
      (readAttributes .between cs).map fun as => (n,read.reverse ++ v) :: as := by
  induction v generalizing read with
  | nil => simp [readAttributes]
  | cons c v ih =>
    simp only [List.mem_cons,not_or] at hv
    have hc : c ≠ '"' := fun h => hv.1 h.symm
    simp [readAttributes,hc,ih hv.2]

theorem isNameChar_of_mem {n : List Char} (hn : isName n = true) {c : Char} (hc : c ∈ n) :
    (c.isAlphanum || c == ':') = true := by
  simp only [isName,Bool.and_eq_true,List.all_eq_true] at hn
  exact hn.2 c hc

theorem notMem_name {n : List Char} (hn : isName n = true) {c : Char}
    (hc : (c.isAlphanum || c == ':') = false) : c ∉ n := fun h => by
  have := isNameChar_of_mem hn h
  simp [hc] at this

theorem notMem_value {v : List Char} (hv : isAttributeValue v = true) {c : Char}
    (hc : (isPlain c && c != '>' && c != '"' && c != '\t' && c != '\n') = false) : c ∉ v :=
  fun h => by
    have := List.all_eq_true.1 hv c h
    simp [hc] at this

theorem readAttributes_print {as : Attributes}
    (h : ∀ a ∈ as, isName a.1 = true ∧ isAttributeValue a.2 = true) :
    readAttributes .between (printAttributes as) = some as := by
  induction as with
  | nil => rfl
  | cons a as ih =>
    obtain ⟨n,v⟩ := a
    obtain ⟨⟨hn,hv⟩,has⟩ := List.forall_mem_cons.1 h
    rw [printAttributes,readAttributes,if_pos rfl,
      readAttributes_name (notMem_name hn (by decide)),readAttributes,if_pos rfl,
      readAttributes_value (notMem_value hv (by decide)),ih has]
    rfl

theorem areAttributes_mem {as : Attributes} (h : areAttributes as = true) :
    ∀ a ∈ as, isName a.1 = true ∧ isAttributeValue a.2 = true := by
  simp only [areAttributes,Bool.and_eq_true,List.all_eq_true] at h
  exact h.1

theorem gt_notMem_printAttributes {as : Attributes}
    (h : ∀ a ∈ as, isName a.1 = true ∧ isAttributeValue a.2 = true) :
    '>' ∉ printAttributes as := by
  induction as with
  | nil => simp [printAttributes]
  | cons a as ih =>
    obtain ⟨n,v⟩ := a
    obtain ⟨⟨hn,hv⟩,has⟩ := List.forall_mem_cons.1 h
    have hn' : '>' ∉ n := notMem_name hn (by decide)
    have hv' : '>' ∉ v := notMem_value hv (by decide)
    simp [printAttributes,hn',hv',ih has]

theorem printAttributes_head (as : Attributes) : ∀ c ∈ (printAttributes as).head?, c = ' ' := by
  cases as with
  | nil => simp [printAttributes]
  | cons a as => simp [printAttributes]

theorem readTag_start {n : List Char} {as : Attributes} (hn : isName n = true)
    (has : areAttributes as = true) : readTag (n ++ printAttributes as) = .start n as := by
  have hspace : ∀ c ∈ n, (c != ' ') = true := fun c hc => by
    have : ' ' ∉ n := notMem_name hn (by decide)
    simp only [bne_iff_ne]
    rintro rfl
    exact this hc
  have hdrop : (n ++ printAttributes as).dropWhile (fun c => c != ' ') = printAttributes as := by
    rw [List.dropWhile_append_of_pos hspace]
    have := printAttributes_head as
    cases hp : printAttributes as with
    | nil => rfl
    | cons c cs => simp [hp] at this; simp [this]
  have htake : (n ++ printAttributes as).takeWhile (fun c => c != ' ') = n := by
    rw [List.takeWhile_append_of_pos hspace]
    have := printAttributes_head as
    cases hp : printAttributes as with
    | nil => simp
    | cons c cs => simp [hp] at this; simp [this]
  have hslash : '/' ∉ n := notMem_name hn (by decide)
  have hne : n ≠ [] := by rintro rfl; simp [isName] at hn
  obtain ⟨c,n,rfl⟩ := List.exists_cons_of_ne_nil hne
  have hc : c ≠ '/' := fun h => hslash (by simp [h])
  rw [readTag]
  · rw [hdrop,readAttributes_print (areAttributes_mem has),htake]
  · intro m hm
    simp only [List.cons_append,List.cons.injEq] at hm
    exact hc hm.1

/-! ### Tokens -/

def Content.tokens : Content Empty → List Token
  | nil => []
  | text cs rest => cs.map .char ++ rest.tokens
  | slot s _ => s.elim
  | element n as c rest => .start n as :: (c.tokens ++ .stop n :: rest.tokens)

theorem lex_text {t : List Char} (ht : '<' ∉ t) (cs : List Char) :
    lex none (t ++ cs) = t.map .char ++ lex none cs := by
  induction t with
  | nil => rfl
  | cons c t ih =>
    simp only [List.mem_cons,not_or] at ht
    have hc : c ≠ '<' := fun h => ht.1 h.symm
    simp [lex,hc,ih ht.2]

theorem lex_tag {t : List Char} (ht : '>' ∉ t) (read cs : List Char) :
    lex (some read) (t ++ '>' :: cs) = readTag (read.reverse ++ t) :: lex none cs := by
  induction t generalizing read with
  | nil => simp [lex]
  | cons c t ih =>
    simp only [List.mem_cons,not_or] at ht
    have hc : c ≠ '>' := fun h => ht.1 h.symm
    simp [lex,hc,ih ht.2]

theorem CharData.lt_notMem {cs : List Char} (h : CharData cs) : '<' ∉ cs := fun hm =>
  absurd (h.plain _ hm) (by decide)

theorem lex_print {c : Content Empty} (hc : c.WellFormed) (hlt : '<' ∉ c.chars) (cs : List Char) :
    lex none (c.print Empty.elim ++ cs) = c.tokens ++ lex none cs := by
  induction c generalizing cs with
  | nil => rfl
  | text t rest ih =>
    simp only [Content.chars,List.mem_append,not_or] at hlt
    simp only [Content.print,Content.tokens,List.append_assoc]
    rw [lex_text hlt.1,ih hc hlt.2]
  | slot s => exact s.elim
  | element n as c rest hchildren ih =>
    obtain ⟨hn,has,hchars,_,hwf,hrest⟩ := hc
    have hgt : '>' ∉ n ++ printAttributes as := by
      rw [List.mem_append,not_or]
      exact ⟨notMem_name hn (by decide),gt_notMem_printAttributes (areAttributes_mem has)⟩
    have hgt' : '>' ∉ '/' :: n := by
      rw [List.mem_cons,not_or]
      exact ⟨by decide,notMem_name hn (by decide)⟩
    have hstart := fun text => lex_tag hgt [] text
    have hstop := fun text => lex_tag hgt' [] text
    simp only [List.append_assoc,List.cons_append] at hstart hstop
    simp only [Content.print,Content.tokens,startTag,endTag,List.append_assoc,List.cons_append,
      List.nil_append]
    rw [lex,if_pos rfl,hstart,hchildren hwf hchars.lt_notMem,lex,if_pos rfl,hstop,ih hrest hlt]
    have hend : readTag ('/' :: n) = .stop n := rfl
    simp only [List.reverse_nil,List.nil_append,readTag_start hn has,hend]

/-! ### Content -/

theorem readContent_chars (trim : List Char → List Char) (t : List Char) (fuel : Nat)
    (ts : List Token) : readContent trim (t.length + fuel) (t.map .char ++ ts) =
      (readContent trim fuel ts).map fun r => ((t ++ r.1.1,r.1.2),r.2) := by
  induction t with
  | nil => simp
  | cons c t ih =>
    have hfuel : (c :: t).length + fuel = (t.length + fuel) + 1 := by simp only [List.length_cons]; omega
    rw [hfuel]
    simp only [List.map_cons,List.cons_append,readContent,ih]
    cases readContent trim fuel ts <;> rfl

theorem readContent_tokens (trim : List Char → List Char) (c : Content Empty) {rest : List Token}
    (hrest : ∀ t ∈ rest.head?, ∃ n, t = .stop n) {fuel : Nat} (hfuel : c.tokens.length < fuel) :
    readContent trim fuel (c.tokens ++ rest) = some ((c.chars,c.elements trim),rest) := by
  induction c generalizing fuel rest with
  | nil =>
    obtain ⟨fuel,rfl⟩ := Nat.exists_eq_add_one.2 hfuel
    cases rest with
    | nil => rfl
    | cons t ts =>
      obtain ⟨n,rfl⟩ := hrest t rfl
      rfl
  | text t c ih =>
    simp only [Content.tokens,List.length_append,List.length_map] at hfuel
    obtain ⟨k,rfl⟩ := Nat.exists_eq_add_of_lt (show t.length < fuel by omega)
    have hk : c.tokens.length < k + 1 := by omega
    rw [Content.tokens,List.append_assoc,Nat.add_assoc,readContent_chars,ih hrest hk]
    rfl
  | slot s => exact s.elim
  | element n as c d hc hd =>
    simp only [Content.tokens,List.length_cons,List.length_append] at hfuel
    obtain ⟨fuel,rfl⟩ := Nat.exists_eq_add_one.2 (Nat.zero_lt_of_lt hfuel)
    have hstop : ∀ t ∈ (Token.stop n :: (d.tokens ++ rest)).head?, ∃ m, t = .stop m := by simp
    have hchildren := hc hstop (show c.tokens.length < fuel by omega)
    have hsiblings := hd hrest (show d.tokens.length < fuel by omega)
    simp only [Content.tokens,List.cons_append,List.append_assoc,readContent,hchildren]
    simp [hsiblings,Content.chars,Content.elements]

theorem dropWhile_lead {lead : List Char} (h : ∀ c ∈ lead, isBlank c = true) (cs : List Char) :
    (lead ++ (declaration ++ cs)).dropWhile isBlank = declaration ++ cs := by
  rw [List.dropWhile_append_of_pos h]
  rfl

/-- The parser reads what is printed. -/
theorem reads_parse (trim : List Char → List Char) : Reads trim (parse trim) := by
  intro d hd
  have hlt : '<' ∉ d.body.chars := fun h => absurd (hd.blank _ h) (by decide)
  have htokens : lex none (d.body.print Empty.elim) = d.body.tokens := by
    have := lex_print hd.body hlt []
    simpa [lex] using this
  have hend : ∀ t ∈ ([] : List Token).head?, ∃ n, t = .stop n := by simp
  have hread := readContent_tokens trim d.body hend (Nat.lt_add_one d.body.tokens.length)
  have hdeclaration : declaration.isPrefixOf (declaration ++ d.body.print Empty.elim) = true :=
    List.isPrefixOf_iff_prefix.2 (List.prefix_append _ _)
  rw [List.append_nil] at hread
  simp only [parse,Document.print,dropWhile_lead hd.lead,hdeclaration,List.drop_left,htokens,hread]
  rw [if_pos trivial,if_pos (List.all_eq_true.2 hd.blank)]
  rfl

end Xml
