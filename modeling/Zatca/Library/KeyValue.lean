import Zatca.Library.Trim
set_option autoImplicit false

/-! Configuration texts: sections in brackets, and one `key = value` a line. -/

namespace KeyValue

/-- The blanks within a line. -/
def isSpace (c : Char) : Bool := c == ' ' || c == '\t' || c == '\r'

def trim (cs : List Char) : List Char := (cs.dropWhile isSpace).rdropWhile isSpace

inductive Item where
  | head (name : List Char)
  | entry (key value : List Char)
  deriving DecidableEq

/-- What a line adds; a line that is neither blank, nor a section, nor an entry cannot be read. -/
def readLine (l : List Char) : Option (List Item) :=
  match l.dropWhile isSpace with
  | [] => some []
  | '[' :: cs =>
    match (cs.rdropWhile isSpace).getLast? with
    | some ']' => some [.head (trim (cs.rdropWhile isSpace).dropLast)]
    | _ => none
  | c :: cs =>
    match (c :: cs).dropWhile (· ≠ '=') with
    | [] => none
    | _ :: value => some [.entry (trim ((c :: cs).takeWhile (· ≠ '='))) (trim value)]

def readLines : List (List Char) → Option (List Item)
  | [] => some []
  | l :: ls => do
    let items ← readLine l
    let rest ← readLines ls
    some (items ++ rest)

def read (cs : List Char) : Option (List Item) := readLines (cs.splitOn '\n')

/-! ### Blanks at the ends -/

def Trimmed (cs : List Char) : Prop :=
  (∀ c ∈ cs.head?, isSpace c = false) ∧ ∀ c ∈ cs.getLast?, isSpace c = false

theorem trim_of_trimmed {cs : List Char} (h : Trimmed cs) : trim cs = cs := Trim.trim_of_trimmed h

theorem mem_of_mem_trim {c : Char} {cs : List Char} (h : c ∈ trim cs) : c ∈ cs :=
  Trim.mem_of_mem_trim h

theorem trimmed_trim (cs : List Char) : Trimmed (trim cs) := Trim.trimmed_trim cs

theorem trim_cons_space {c : Char} (h : isSpace c = true) (cs : List Char) :
    trim (c :: cs) = trim cs := by
  rw [trim,List.dropWhile_cons_of_pos h,trim]

theorem trim_concat_space {c : Char} (h : isSpace c = true) (cs : List Char) :
    trim (cs ++ [c]) = trim cs := by
  induction cs with
  | nil => simp [trim,h]
  | cons d cs ih =>
    by_cases hd : isSpace d = true
    · rw [List.cons_append,trim_cons_space hd,trim_cons_space hd,ih]
    · rw [List.cons_append,trim,List.dropWhile_cons_of_neg hd,← List.cons_append,
        List.rdropWhile_concat_pos _ _ _ h,trim,List.dropWhile_cons_of_neg hd]

/-! ### Values that stand on one line -/

structure OneLine (value : List Char) : Prop where
  trimmed : Trimmed value
  newline : '\n' ∉ value

theorem OneLine.of_trim {value : List Char} (h : trim value = value) (hnewline : '\n' ∉ value) :
    OneLine value := ⟨h ▸ trimmed_trim value,hnewline⟩

theorem OneLine.append_left {value lead : List Char} (h : OneLine value)
    (hsolid : ∀ c ∈ lead, isSpace c = false) (hlead : '\n' ∉ lead) : OneLine (lead ++ value) := by
  constructor
  · constructor
    · intro c hc
      rw [List.head?_append] at hc
      cases hhead : lead.head? with
      | none =>
        rw [hhead] at hc
        exact h.trimmed.1 c hc
      | some d =>
        rw [hhead] at hc
        cases hc
        exact hsolid c (List.mem_of_mem_head? hhead)
    · intro c hc
      rw [List.getLast?_append] at hc
      cases hlast : value.getLast? with
      | none =>
        rw [hlast] at hc
        exact hsolid c (List.mem_of_mem_getLast? hc)
      | some d =>
        rw [hlast] at hc
        cases hc
        exact h.trimmed.2 c hlast
  · simp [hlead,h.newline]

/-- A key that is read back: not blank at an end, without an equality sign and not taken for a
section. -/
def isKey (key : List Char) : Bool :=
  key.head?.any (fun c => !isSpace c && c != '[') && key.getLast?.all (fun c => !isSpace c) &&
    !key.contains '=' && !key.contains '\n'

theorem newline_notMem_of_isKey {key : List Char} (h : isKey key = true) : '\n' ∉ key := by
  simp only [isKey,Bool.and_eq_true,Bool.not_eq_true',List.contains_eq_mem,
    decide_eq_false_iff_not] at h
  exact h.2

theorem readLine_entry {key value : List Char} (hkey : isKey key = true) (hvalue : Trimmed value) :
    readLine (key ++ ' ' :: '=' :: ' ' :: value) = some [.entry key value] := by
  cases key with
  | nil => simp [isKey] at hkey
  | cons k ks =>
    simp only [isKey,List.head?_cons,Option.any_some,Bool.and_eq_true,Bool.not_eq_true',
      bne_iff_ne,Option.all_eq_true,List.contains_eq_mem,decide_eq_false_iff_not] at hkey
    obtain ⟨⟨⟨⟨hk,hbracket⟩,hlast⟩,heq⟩,-⟩ := hkey
    have htrimmed : Trimmed (k :: ks) := ⟨by simpa using hk,hlast⟩
    have hall : ∀ c ∈ k :: ks ++ [' '], (decide (c ≠ '=')) = true := by
      intro c hc
      have hne : c ≠ '=' := by
        intro h
        rw [h,List.mem_append] at hc
        rcases hc with hc | hc
        · exact heq hc
        · simp at hc
      simp [hne]
    have hsplit : k :: ks ++ ' ' :: '=' :: ' ' :: value =
        (k :: ks ++ [' ']) ++ '=' :: ' ' :: value := by simp
    have hdrop : (k :: ks ++ ' ' :: '=' :: ' ' :: value).dropWhile (· ≠ '=') =
        '=' :: ' ' :: value := by
      rw [hsplit,List.dropWhile_append_of_pos hall]
      rfl
    have htake : (k :: ks ++ ' ' :: '=' :: ' ' :: value).takeWhile (· ≠ '=') = k :: ks ++ [' '] := by
      rw [hsplit,List.takeWhile_append_of_pos hall]
      simp
    have hspace : isSpace ' ' = true := rfl
    have hline : (k :: ks ++ ' ' :: '=' :: ' ' :: value).dropWhile isSpace =
        k :: (ks ++ ' ' :: '=' :: ' ' :: value) :=
      List.dropWhile_cons_of_neg (by simp [hk])
    rw [List.cons_append] at hdrop htake
    simp only [readLine,hline,hdrop,htake,trim_concat_space hspace,trim_of_trimmed htrimmed,
      trim_cons_space hspace,trim_of_trimmed hvalue]

theorem value_of_readLine {l key value : List Char} {items : List Item}
    (h : readLine l = some items) (hm : .entry key value ∈ items) :
    Trimmed value ∧ ∀ c ∈ value, c ∈ l := by
  have hsub : ∀ c, c ∈ l.dropWhile isSpace → c ∈ l := fun c hc =>
    (List.dropWhile_suffix isSpace).subset hc
  unfold readLine at h
  split at h
  · cases h
    cases hm
  · split at h
    · cases h
      simp at hm
    · cases h
  · rename_i c cs _ hl
    split at h
    · cases h
    · rename_i d rest hrest
      cases h
      simp only [List.mem_singleton,Item.entry.injEq] at hm
      obtain ⟨-,rfl⟩ := hm
      refine ⟨trimmed_trim rest,fun x hx => ?_⟩
      have hin : x ∈ (c :: cs).dropWhile (· ≠ '=') := hrest ▸ List.mem_cons_of_mem d (mem_of_mem_trim hx)
      exact hsub x (hl ▸ (List.dropWhile_suffix _).subset hin)

/-! ### Whole texts -/

theorem readLines_map {α : Type} {line : α → List Char} {items : α → List Item} {xs : List α}
    (h : ∀ x ∈ xs, readLine (line x) = some (items x)) :
    readLines (xs.map line) = some (xs.flatMap items) := by
  induction xs with
  | nil => rfl
  | cons x xs ih =>
    obtain ⟨hx,hxs⟩ := List.forall_mem_cons.1 h
    rw [List.map_cons,readLines,hx,ih hxs]
    rfl

theorem read_intercalate {ls : List (List Char)} (hls : ls ≠ []) (h : ∀ l ∈ ls, '\n' ∉ l) :
    read (['\n'].intercalate ls) = readLines ls := by
  rw [read,List.splitOn_intercalate _ h hls]

theorem notMem_of_mem_splitOn {c : Char} {cs l : List Char} (h : l ∈ cs.splitOn c) : c ∉ l := by
  induction cs generalizing l with
  | nil =>
    simp at h
    simp [h]
  | cons d cs ih =>
    rw [List.splitOn_cons_eq_if_modifyHead] at h
    obtain ⟨l₀,ls,hls⟩ := List.exists_cons_of_ne_nil (List.splitOn_ne_nil c cs)
    rw [hls] at h ih
    by_cases hd : (d == c) = true
    · rw [if_pos hd,List.mem_cons] at h
      rcases h with rfl | h
      · simp
      · exact ih h
    · rw [if_neg hd,List.modifyHead_cons,List.mem_cons] at h
      rcases h with rfl | h
      · have hne : c ≠ d := fun he => hd (by simp [he])
        simp [hne,ih List.mem_cons_self]
      · exact ih (List.mem_cons_of_mem l₀ h)

theorem mem_of_readLines {ls : List (List Char)} {items : List Item} (h : readLines ls = some items)
    {item : Item} (hm : item ∈ items) :
    ∃ l ∈ ls, ∃ part, readLine l = some part ∧ item ∈ part := by
  induction ls generalizing items with
  | nil =>
    cases h
    cases hm
  | cons l ls ih =>
    simp only [readLines,Option.bind_eq_bind,Option.bind_eq_some_iff,Option.some.injEq] at h
    obtain ⟨part,hpart,rest,hrest,rfl⟩ := h
    rcases List.mem_append.1 hm with hm | hm
    · exact ⟨l,List.mem_cons_self,part,hpart,hm⟩
    · obtain ⟨l',hl',h⟩ := ih hrest hm
      exact ⟨l',List.mem_cons_of_mem l hl',h⟩

/-- Every value that is read stands on one line. -/
theorem oneLine_of_read {cs key value : List Char} {items : List Item} (h : read cs = some items)
    (hm : .entry key value ∈ items) : OneLine value := by
  obtain ⟨l,hl,part,hpart,hmem⟩ := mem_of_readLines h hm
  have hvalue := value_of_readLine hpart hmem
  exact ⟨hvalue.1,fun hc => notMem_of_mem_splitOn hl (hvalue.2 _ hc)⟩

end KeyValue
