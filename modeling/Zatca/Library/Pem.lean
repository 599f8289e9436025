import Mathlib.Data.List.DropRight
set_option autoImplicit false

/-! Texts between boundary lines. A line ends before a line feed and loses the blanks at its end, so
that it reads the same where lines end with a carriage return and a line feed. -/

namespace Pem

/-- A space or a control character. -/
def isBlank (c : Char) : Bool := c.val ≤ 0x20

inductive Newline where
  | lf
  | crlf
  deriving DecidableEq, Repr

def Newline.chars : Newline → List Char
  | .lf => ['\n']
  | .crlf => ['\r','\n']

def lines (cs : List Char) : List (List Char) := (cs.splitOn '\n').map (List.rdropWhile isBlank)

def dashes : List Char := ['-','-','-','-','-']

def beginLine (label : List Char) : List Char :=
  dashes ++ ['B','E','G','I','N',' '] ++ label ++ dashes

def endLine (label : List Char) : List Char := dashes ++ ['E','N','D',' '] ++ label ++ dashes

/-- The lines between the first boundary with one of the labels and the end that belongs to it. -/
def blockOf (labels : List (List Char)) : List (List Char) → Option (List Char × List (List Char))
  | [] => none
  | l :: ls =>
    match labels.find? fun label => l = beginLine label with
    | none => blockOf labels ls
    | some label =>
      if ls.contains (endLine label) then some (label,ls.takeWhile (· ≠ endLine label)) else none

def block (labels : List (List Char)) (cs : List Char) : Option (List Char × List (List Char)) :=
  blockOf labels (lines cs)

/-- A body between the boundary lines of a label. -/
def frame (label : List Char) (newline : Newline) (body : List Char) : List Char :=
  beginLine label ++ newline.chars ++ body ++ newline.chars ++ endLine label

/-! ### Lines -/

theorem lines_lf (cs ds : List Char) : lines (cs ++ '\n' :: ds) = lines cs ++ lines ds := by
  simp [lines,List.splitOn_append_cons_self]

theorem lines_of_notMem {cs : List Char} (h : '\n' ∉ cs) : lines cs = [cs.rdropWhile isBlank] := by
  simp [lines,List.splitOn_eq_singleton h]

/-- A text is one line, or a line before a line feed and a shorter text. -/
theorem lines_cases {P : List Char → Prop} (hone : ∀ cs, '\n' ∉ cs → P cs)
    (hmore : ∀ l cs, '\n' ∉ l → P cs → P (l ++ '\n' :: cs)) (cs : List Char) : P cs := by
  induction hn : cs.length using Nat.strong_induction_on generalizing cs with
  | _ n ih =>
    by_cases h : '\n' ∈ cs
    · obtain ⟨l,rest,rfl,hl⟩ := List.eq_append_cons_of_mem h
      have hlt : rest.length < n := by
        rw [← hn,List.length_append,List.length_cons]
        omega
      exact hmore l rest hl (ih _ hlt rest rfl)
    · exact hone cs h

theorem mem_of_mem_lines {cs l : List Char} (hl : l ∈ lines cs) {c : Char} (hc : c ∈ l) : c ∈ cs := by
  induction cs using lines_cases with
  | hone cs h =>
    rw [lines_of_notMem h,List.mem_singleton] at hl
    rw [hl] at hc
    exact (List.rdropWhile_prefix isBlank _).subset hc
  | hmore l' cs h ih =>
    rw [lines_lf,lines_of_notMem h,List.singleton_append,List.mem_cons] at hl
    rcases hl with rfl | hl
    · exact List.mem_append_left _ ((List.rdropWhile_prefix isBlank _).subset hc)
    · exact List.mem_append_right _ (List.mem_cons_of_mem _ (ih hl))

/-- Blanks at the end of the last line are not seen. -/
theorem lines_concat_blank {c : Char} (hblank : isBlank c = true) (hc : c ≠ '\n') (cs : List Char) :
    lines (cs ++ [c]) = lines cs := by
  induction cs using lines_cases with
  | hone cs h =>
    have hnot : '\n' ∉ cs ++ [c] := by simp [h,hc.symm]
    rw [lines_of_notMem h,lines_of_notMem hnot,List.rdropWhile_concat_pos _ _ _ hblank]
  | hmore l cs h ih => rw [List.append_assoc,List.cons_append,lines_lf,lines_lf,ih]

theorem lines_newline (newline : Newline) (cs ds : List Char) :
    lines (cs ++ newline.chars ++ ds) = lines cs ++ lines ds := by
  cases newline with
  | lf => simp [Newline.chars,lines_lf]
  | crlf =>
    have hcr : cs ++ Newline.crlf.chars ++ ds = (cs ++ ['\r']) ++ '\n' :: ds := by
      simp [Newline.chars]
    rw [hcr,lines_lf,lines_concat_blank (by decide) (by decide)]

/-- What follows a text in blanks only adds empty lines. -/
theorem lines_append_blanks {after : List Char} (h : ∀ c ∈ after, isBlank c = true)
    (cs : List Char) : ∃ n, lines (cs ++ after) = lines cs ++ List.replicate n [] := by
  induction after generalizing cs with
  | nil => exact ⟨0,by simp⟩
  | cons c after ih =>
    obtain ⟨hc,hafter⟩ := List.forall_mem_cons.1 h
    by_cases hlf : c = '\n'
    · obtain ⟨n,hn⟩ := ih hafter []
      refine ⟨n+1,?_⟩
      rw [hlf,lines_lf,← List.nil_append after,hn,List.replicate_succ]
      rfl
    · obtain ⟨n,hn⟩ := ih hafter (cs ++ [c])
      refine ⟨n,?_⟩
      rw [List.append_cons,hn,lines_concat_blank hc hlf]

/-- What precedes a text in blank lines only adds empty lines. -/
theorem lines_blanks_append {before : List Char} (h : ∀ c ∈ before, isBlank c = true)
    (hstart : before = [] ∨ before.getLast? = some '\n') (cs : List Char) :
    ∃ n, lines (before ++ cs) = List.replicate n [] ++ lines cs := by
  rcases hstart with rfl | hlast
  · exact ⟨0,by simp⟩
  · obtain ⟨rest,rfl⟩ := List.getLast?_eq_some_iff.1 hlast
    obtain ⟨n,hn⟩ := lines_append_blanks (fun c hc => h c (List.mem_append_left _ hc)) []
    refine ⟨n+1,?_⟩
    rw [List.append_assoc,List.singleton_append,lines_lf,← List.nil_append rest,hn,
      List.replicate_succ]
    rfl

/-! ### Blocks -/

variable {labels : List (List Char)} {label : List Char}

theorem beginLine_ne_nil (label : List Char) : beginLine label ≠ [] := by
  simp [beginLine,dashes]

theorem beginLine_inj {label label' : List Char} : beginLine label = beginLine label' ↔
    label = label' := by
  simp [beginLine]

theorem blockOf_replicate (n : Nat) (ls : List (List Char)) :
    blockOf labels (List.replicate n [] ++ ls) = blockOf labels ls := by
  induction n with
  | zero => rfl
  | succ n ih =>
    have hnone : labels.find? (fun label => ([] : List Char) = beginLine label) = none := by
      simp [List.find?_eq_none,fun label => (beginLine_ne_nil label).symm]
    rw [List.replicate_succ,List.cons_append,blockOf,hnone]
    exact ih

/-- A text without a begin line has no block. -/
theorem block_eq_none {cs : List Char}
    (h : ∀ l ∈ lines cs, ∀ label ∈ labels, l ≠ beginLine label) : block labels cs = none := by
  rw [block]
  generalize lines cs = ls at h
  induction ls with
  | nil => rfl
  | cons l ls ih =>
    obtain ⟨hl,hls⟩ := List.forall_mem_cons.1 h
    have hnone : labels.find? (fun label => l = beginLine label) = none := by
      simpa [List.find?_eq_none] using hl
    rw [blockOf,hnone]
    exact ih hls

theorem blockOf_begin (hlabel : label ∈ labels) (ls : List (List Char)) :
    blockOf labels (beginLine label :: ls) =
      if endLine label ∈ ls then some (label,ls.takeWhile (· ≠ endLine label)) else none := by
  have hfind : labels.find? (fun label' => beginLine label = beginLine label') = some label := by
    simp only [beginLine_inj]
    cases hfound : labels.find? (fun label' => decide (label = label')) with
    | none => simpa using List.find?_eq_none.1 hfound label hlabel
    | some found =>
      have heq : label = found := by simpa using List.find?_some hfound
      rw [heq]
  rw [blockOf,hfind]
  simp only [List.contains_iff_mem]

/-- A boundary line is a line as it is. -/
theorem lines_boundary {word : List Char} (h : '\n' ∉ word) :
    lines (word ++ dashes) = [word ++ dashes] := by
  have hself : (word ++ dashes).rdropWhile isBlank = word ++ dashes := by
    rw [List.rdropWhile_eq_self_iff]
    intro hl
    simp [dashes,isBlank]
  have hnot : '\n' ∉ word ++ dashes := by simp [h,dashes]
  rw [lines_of_notMem hnot,hself]

theorem lines_frame (h : '\n' ∉ label) (newline : Newline) {indent : List Char}
    (hindent : '\n' ∉ indent) (body after : List Char) :
    lines (indent ++ (frame label newline body ++ after)) =
      (indent ++ beginLine label) :: (lines body ++ lines (endLine label ++ after)) := by
  have hbegin : lines (indent ++ beginLine label) = [indent ++ beginLine label] := by
    rw [beginLine,← List.append_assoc]
    exact lines_boundary (by simp [h,hindent,dashes])
  have hassoc : indent ++ (frame label newline body ++ after) = (indent ++ beginLine label) ++
      newline.chars ++ (body ++ newline.chars ++ (endLine label ++ after)) := by
    simp [frame]
  rw [hassoc,lines_newline,lines_newline,hbegin]
  rfl

theorem lines_endLine (h : '\n' ∉ label) {after : List Char}
    (hafter : ∀ c ∈ after, isBlank c = true) :
    ∃ n, lines (endLine label ++ after) = endLine label :: List.replicate n [] := by
  obtain ⟨n,hn⟩ := lines_append_blanks hafter (endLine label)
  have hend : lines (endLine label) = [endLine label] := lines_boundary (by simp [h,dashes])
  exact ⟨n,by rw [hn,hend]; rfl⟩

/-- The block of a framed text is the lines of its body, whatever stands around it. -/
theorem block_frame (hlabel : label ∈ labels) (h : '\n' ∉ label) (newline : Newline)
    {before body after : List Char} (hbefore : ∀ c ∈ before, isBlank c = true)
    (hstart : before = [] ∨ before.getLast? = some '\n') (hafter : ∀ c ∈ after, isBlank c = true)
    (hbody : '-' ∉ body) :
    block labels (before ++ (frame label newline body ++ after)) = some (label,lines body) := by
  obtain ⟨m,hm⟩ := lines_blanks_append hbefore hstart (frame label newline body ++ after)
  obtain ⟨n,hn⟩ := lines_endLine h hafter
  have hnot : ∀ l ∈ lines body, decide (l ≠ endLine label) = true := by
    intro l hl
    refine decide_eq_true fun heq => hbody (mem_of_mem_lines hl ?_)
    simp [heq,endLine,dashes]
  have hframe := lines_frame h newline (List.not_mem_nil) body after
  rw [List.nil_append,List.nil_append] at hframe
  rw [block,hm,blockOf_replicate,hframe,blockOf_begin hlabel,hn,if_pos (by simp),
    List.takeWhile_append_of_pos hnot]
  simp

/-- Blanks that end within a line leave some of them on it. -/
theorem lines_indented {before : List Char} (h : ∀ c ∈ before, isBlank c = true)
    (hstart : ¬ (before = [] ∨ before.getLast? = some '\n')) (cs : List Char) :
    ∃ n c indent, isBlank c = true ∧ '\n' ∉ c :: indent ∧
      lines (before ++ cs) = List.replicate n [] ++ lines (c :: indent ++ cs) := by
  induction before using lines_cases with
  | hone before hnot =>
    cases before with
    | nil => exact absurd (Or.inl rfl) hstart
    | cons c indent => exact ⟨0,c,indent,h c List.mem_cons_self,hnot,rfl⟩
  | hmore l rest hl ih =>
    have hrest : ¬ (rest = [] ∨ rest.getLast? = some '\n') := by
      rintro (rfl | hlast)
      · exact hstart (.inr (by simp))
      · exact hstart (.inr (by simp [List.getLast?_append,List.getLast?_cons,hlast]))
    obtain ⟨n,c,indent,hc,hlf,hlines⟩ :=
      ih (fun c hc => h c (List.mem_append_right _ (List.mem_cons_of_mem _ hc))) hrest
    have hblank : lines l = [[]] := by
      rw [lines_of_notMem hl,List.rdropWhile_eq_nil_iff.2 fun c hc =>
        h c (List.mem_append_left _ hc)]
    refine ⟨n+1,c,indent,hc,hlf,?_⟩
    rw [List.append_assoc,List.cons_append,lines_lf,hlines,hblank,List.replicate_succ]
    rfl

/-- A boundary that does not begin its line is none. -/
theorem block_frame_indented (h : '\n' ∉ label) (newline : Newline) {before body after : List Char}
    (hbefore : ∀ c ∈ before, isBlank c = true)
    (hstart : ¬ (before = [] ∨ before.getLast? = some '\n'))
    (hafter : ∀ c ∈ after, isBlank c = true) (hbody : '-' ∉ body) :
    block labels (before ++ (frame label newline body ++ after)) = none := by
  obtain ⟨m,c,indent,hc,hlf,hm⟩ :=
    lines_indented hbefore hstart (frame label newline body ++ after)
  obtain ⟨n,hn⟩ := lines_endLine h hafter
  refine block_eq_none fun l hl label' hlabel' => ?_
  rw [hm,lines_frame h newline hlf,hn] at hl
  simp only [List.mem_append,List.mem_cons,List.mem_replicate] at hl
  rcases hl with ⟨-,rfl⟩ | rfl | hl | rfl | ⟨-,rfl⟩
  · exact (beginLine_ne_nil label').symm
  · intro heq
    have hdash : c = '-' := (List.cons.inj heq).1
    rw [hdash] at hc
    exact absurd hc (by decide)
  · rintro rfl
    exact hbody (mem_of_mem_lines hl (by simp [beginLine,dashes]))
  · simp [endLine,beginLine,dashes]
  · exact (beginLine_ne_nil label').symm

end Pem
