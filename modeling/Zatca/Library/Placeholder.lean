import Mathlib.Data.List.Infix
import Mathlib.Data.List.TakeWhile
import Mathlib.Logic.Function.Basic
set_option autoImplicit false

/-!
Filling a text by replacing the first occurrence of one placeholder after another, as
`String.prototype.replace` does it, and when this is the simultaneous substitution.
-/

namespace Placeholder

/-! ### One replacement -/

/-- What stands before and after the first occurrence of the pattern. -/
def splitFirst (pattern : List Char) : List Char → Option (List Char × List Char)
  | [] => if pattern = [] then some ([],[]) else none
  | c :: cs =>
    if pattern.isPrefixOf (c :: cs) then some ([],(c :: cs).drop pattern.length)
    else (splitFirst pattern cs).map fun split => (c :: split.1,split.2)

/-- The characters that make a pattern with a dollar sign before them: the dollar sign, the match,
what precedes it and what follows it. -/
def patternChars : List Char := ['$','&',Char.ofNat 0x60,Char.ofNat 0x27]

/-- A replacement text with its patterns expanded. A search text has no captures, so a dollar sign
before any other character stands for itself; `true` when a dollar sign has just been read. -/
def expand (found before after : List Char) : Bool → List Char → List Char
  | false, [] => []
  | true, [] => ['$']
  | false, c :: cs =>
    if c = '$' then expand found before after true cs else c :: expand found before after false cs
  | true, c :: cs =>
    (if c = '$' then ['$'] else if c = '&' then found else if c = Char.ofNat 0x60 then before
      else if c = Char.ofNat 0x27 then after else ['$',c]) ++ expand found before after false cs

def replaceFirst (pattern replacement text : List Char) : List Char :=
  match splitFirst pattern text with
  | none => text
  | some (before,after) => before ++ expand pattern before after false replacement ++ after

/-- No dollar sign starts a pattern. -/
def NoPattern (replacement : List Char) : Prop := ∀ c ∈ patternChars, ¬ ['$',c] <:+: replacement

theorem NoPattern.tail {c : Char} {cs : List Char} (h : NoPattern (c :: cs)) : NoPattern cs :=
  fun d hd hs => h d hd (hs.trans (List.suffix_cons c cs).isInfix)

theorem noPattern_of_notMem {cs : List Char} (h : '$' ∉ cs) : NoPattern cs :=
  fun _ _ hs => h (hs.subset (List.mem_cons_self ..))

/-- Nothing is expanded in a text without a pattern, also when another text follows it. -/
theorem expand_append (found before after : List Char) {cs rest : List Char}
    (hrest : ∀ c ∈ rest.head?, c ∉ patternChars) :
    (NoPattern cs → expand found before after false (cs ++ rest) =
        cs ++ expand found before after false rest) ∧
      (NoPattern ('$' :: cs) → expand found before after true (cs ++ rest) =
        '$' :: cs ++ expand found before after false rest) := by
  have hkeep : ∀ c cs, c ∉ patternChars → expand found before after true (c :: cs) =
      '$' :: c :: expand found before after false cs := by
    intro c cs hc
    simp only [patternChars,List.mem_cons,List.not_mem_nil,or_false,not_or] at hc
    rw [expand,if_neg hc.1,if_neg hc.2.1,if_neg hc.2.2.1,if_neg hc.2.2.2]
    rfl
  induction cs with
  | nil =>
    refine ⟨fun _ => rfl,fun _ => ?_⟩
    cases rest with
    | nil => rfl
    | cons c rest =>
      have hc := hrest c rfl
      have hdollar : c ≠ '$' := fun h => hc (h ▸ by decide)
      rw [List.nil_append,hkeep c rest hc,expand,if_neg hdollar]
      rfl
  | cons c cs ih =>
    refine ⟨fun h => ?_,fun h => ?_⟩
    · by_cases hc : c = '$'
      · rw [List.cons_append,expand,if_pos hc,ih.2 (hc ▸ h),hc]
      · rw [List.cons_append,expand,if_neg hc,ih.1 h.tail]
        rfl
    · rw [List.cons_append,hkeep c _ fun hm => h c hm ⟨[],cs,rfl⟩,ih.1 h.tail.tail]
      rfl

theorem expand_of_notMem (found before after : List Char) {cs : List Char} (h : '$' ∉ cs)
    (rest : List Char) : expand found before after false (cs ++ rest) =
      cs ++ expand found before after false rest := by
  induction cs with
  | nil => rfl
  | cons c cs ih =>
    simp only [List.mem_cons,not_or] at h
    have hc : c ≠ '$' := fun h' => h.1 h'.symm
    rw [List.cons_append,expand,if_neg hc,ih h.2]
    rfl

theorem expand_of_noPattern {cs : List Char} (h : NoPattern cs) (found before after : List Char) :
    expand found before after false cs = cs := by
  have hnil : ∀ c ∈ ([] : List Char).head?, c ∉ patternChars := by simp
  simpa [expand] using (expand_append found before after hnil).1 h

theorem splitFirst_append {pattern : List Char} (cs : List Char) :
    splitFirst pattern (pattern ++ cs) = some ([],cs) := by
  cases hp : pattern ++ cs with
  | nil => obtain ⟨rfl,rfl⟩ := List.append_eq_nil_iff.1 hp; rfl
  | cons c ds =>
    have h : pattern.isPrefixOf (c :: ds) = true :=
      List.isPrefixOf_iff_prefix.2 (hp ▸ List.prefix_append _ _)
    rw [splitFirst,if_pos h,← hp,List.drop_left]

/-- A text is passed over that lacks the first character of the pattern. -/
theorem splitFirst_skip_head {p : Char} {ps xs : List Char} (h : p ∉ xs) (ys : List Char) :
    splitFirst (p :: ps) (xs ++ ys) =
      (splitFirst (p :: ps) ys).map fun split => (xs ++ split.1,split.2) := by
  induction xs with
  | nil => simp
  | cons c xs ih =>
    have hc : p ≠ c := List.ne_of_not_mem_cons h
    have hxs : p ∉ xs := List.not_mem_of_not_mem_cons h
    have hnot : (p :: ps).isPrefixOf (c :: (xs ++ ys)) = false := by
      have hne : (p == c) = false := beq_eq_false_iff_ne.2 hc
      rw [List.isPrefixOf,hne,Bool.false_and]
    rw [List.cons_append,splitFirst,hnot,ih hxs,Option.map_map]
    rfl

/-- An occurrence that starts in the first part and does not lie in it ends in the second: the last
character of the first and the first character of the second both belong to the pattern. -/
theorem prefix_append_cases {pattern xs ys : List Char} (hne : xs ≠ [])
    (h : pattern <+: xs ++ ys) : pattern <+: xs ∨
      (∃ c ∈ xs.getLast?, c ∈ pattern) ∧ ∃ c ∈ ys.head?, c ∈ pattern := by
  rcases Nat.lt_or_ge xs.length pattern.length with hlt | hge
  · right
    obtain ⟨zs,hzs⟩ := List.prefix_of_prefix_length_le (List.prefix_append xs ys) h (by omega)
    have hzne : zs ≠ [] := by
      rintro rfl
      rw [List.append_nil] at hzs
      exact absurd (congrArg List.length hzs) (by omega)
    have hrest : zs <+: ys := by
      rw [← hzs] at h
      exact (List.prefix_append_right_inj xs).1 h
    obtain ⟨z,zs,rfl⟩ := List.exists_cons_of_ne_nil hzne
    obtain ⟨ws,rfl⟩ := hrest
    refine ⟨⟨xs.getLast hne,List.getLast?_eq_some_getLast hne,?_⟩,z,rfl,?_⟩
    · rw [← hzs]
      exact List.mem_append_left _ (List.getLast_mem hne)
    · simp [← hzs]
  · exact .inl (List.prefix_of_prefix_length_le h (List.prefix_append xs ys) hge)

/-- The search passes over a part that has no occurrence and ends, or is followed, by a character
that no occurrence crosses. -/
theorem splitFirst_skip {pattern xs ys : List Char} (hxs : ¬ pattern <:+: xs)
    (hedge : (∀ c ∈ xs.getLast?, c ∉ pattern) ∨ ∀ c ∈ ys.head?, c ∉ pattern) :
    splitFirst pattern (xs ++ ys) =
      (splitFirst pattern ys).map fun split => (xs ++ split.1,split.2) := by
  induction xs with
  | nil => simp
  | cons x xs ih =>
    have hno : ¬ pattern.isPrefixOf (x :: (xs ++ ys)) = true := by
      intro h
      have hp : pattern <+: (x :: xs) ++ ys := List.isPrefixOf_iff_prefix.1 h
      rcases prefix_append_cases (List.cons_ne_nil x xs) hp with hin | ⟨⟨c,hc,hcp⟩,d,hd,hdp⟩
      · exact hxs hin.isInfix
      · rcases hedge with hlast | hhead
        · exact hlast c hc hcp
        · exact hhead d hd hdp
    have htail : ¬ pattern <:+: xs := fun h => hxs (h.trans (List.suffix_cons x xs).isInfix)
    have hedge' : (∀ c ∈ xs.getLast?, c ∉ pattern) ∨ ∀ c ∈ ys.head?, c ∉ pattern := by
      refine hedge.imp_left fun hlast c hc => hlast c ?_
      rw [List.getLast?_cons]
      simp only [Option.mem_def] at hc ⊢
      simp [hc]
    rw [List.cons_append,splitFirst,if_neg hno,ih htail hedge']
    cases splitFirst pattern ys <;> rfl

/-! ### All occurrences -/

/-- `String.prototype.replaceAll` on what follows so much of the text, when so many characters of it
have been replaced already. -/
def substituteAll (pattern replacement : List Char) : List Char → Nat → List Char → List Char
  | _, _, [] => []
  | before, k + 1, c :: cs => substituteAll pattern replacement (before ++ [c]) k cs
  | before, 0, c :: cs =>
    if pattern.isPrefixOf (c :: cs) then
      expand pattern before ((c :: cs).drop pattern.length) false replacement ++
        substituteAll pattern replacement (before ++ [c]) (pattern.length - 1) cs
    else c :: substituteAll pattern replacement (before ++ [c]) 0 cs

/-- The same with a replacement that stands for itself. -/
def replaceAll (pattern replacement : List Char) : Nat → List Char → List Char
  | _, [] => []
  | k + 1, _ :: cs => replaceAll pattern replacement k cs
  | 0, c :: cs =>
    if pattern.isPrefixOf (c :: cs) then
      replacement ++ replaceAll pattern replacement (pattern.length - 1) cs
    else c :: replaceAll pattern replacement 0 cs

theorem substituteAll_of_noPattern {replacement : List Char} (h : NoPattern replacement)
    (pattern before : List Char) (k : Nat) (cs : List Char) :
    substituteAll pattern replacement before k cs = replaceAll pattern replacement k cs := by
  induction cs generalizing before k with
  | nil => cases k <;> rfl
  | cons c cs ih =>
    cases k with
    | zero => simp only [substituteAll,replaceAll,ih,expand_of_noPattern h]
    | succ k => exact ih (before ++ [c]) k

section all

variable {pattern : List Char} (replacement : List Char)

theorem replaceAll_of_length_le {k : Nat} {cs : List Char} (h : cs.length ≤ k) :
    replaceAll pattern replacement k cs = [] := by
  induction cs generalizing k with
  | nil => cases k <;> rfl
  | cons c cs ih =>
    cases k with
    | zero => simp at h
    | succ k =>
      simp only [List.length_cons] at h
      exact ih (by omega)

theorem replaceAll_self (hne : pattern ≠ []) :
    replaceAll pattern replacement 0 pattern = replacement := by
  obtain ⟨c,cs,rfl⟩ := List.exists_cons_of_ne_nil hne
  have hself : (c :: cs).isPrefixOf (c :: cs) = true := List.isPrefixOf_iff_prefix.2 List.prefix_rfl
  rw [replaceAll,if_pos hself,replaceAll_of_length_le replacement (by simp),List.append_nil]

theorem replaceAll_skip {xs ys : List Char} (hxs : ¬ pattern <:+: xs)
    (hedge : ∀ c ∈ xs.getLast?, c ∉ pattern) :
    replaceAll pattern replacement 0 (xs ++ ys) = xs ++ replaceAll pattern replacement 0 ys := by
  induction xs with
  | nil => rfl
  | cons x xs ih =>
    have hno : ¬ pattern.isPrefixOf (x :: (xs ++ ys)) = true := by
      intro h
      have hp : pattern <+: (x :: xs) ++ ys := List.isPrefixOf_iff_prefix.1 h
      rcases prefix_append_cases (List.cons_ne_nil x xs) hp with hin | ⟨⟨c,hc,hcp⟩,-⟩
      · exact hxs hin.isInfix
      · exact hedge c hc hcp
    have htail : ¬ pattern <:+: xs := fun h => hxs (h.trans (List.suffix_cons x xs).isInfix)
    have hedge' : ∀ c ∈ xs.getLast?, c ∉ pattern := by
      intro c hc
      refine hedge c ?_
      rw [List.getLast?_cons]
      simp only [Option.mem_def] at hc ⊢
      simp [hc]
    rw [List.cons_append,replaceAll,if_neg hno,ih htail hedge',List.cons_append]

theorem replaceAll_of_notInfix {cs : List Char} (h : ¬ pattern <:+: cs) :
    replaceAll pattern replacement 0 cs = cs := by
  induction cs with
  | nil => rfl
  | cons c cs ih =>
    have hno : ¬ pattern.isPrefixOf (c :: cs) = true := fun hp =>
      h (List.isPrefixOf_iff_prefix.1 hp).isInfix
    rw [replaceAll,if_neg hno,ih fun hi => h (hi.trans (List.suffix_cons c cs).isInfix)]

/-- No occurrence crosses a character that the pattern lacks. -/
theorem replaceAll_append_cons (hne : pattern ≠ []) {c : Char} (hc : c ∉ pattern) {k : Nat}
    {xs : List Char} (hk : k ≤ xs.length) (ys : List Char) :
    replaceAll pattern replacement k (xs ++ c :: ys) =
      replaceAll pattern replacement k xs ++ c :: replaceAll pattern replacement 0 ys := by
  induction xs generalizing k with
  | nil =>
    have hzero : k = 0 := by simpa using hk
    have hno : ¬ pattern.isPrefixOf (c :: ys) = true := by
      intro h
      obtain ⟨p,ps,rfl⟩ := List.exists_cons_of_ne_nil hne
      have hp : p = c := (List.cons_prefix_cons.1 (List.isPrefixOf_iff_prefix.1 h)).1
      exact hc (hp ▸ List.mem_cons_self)
    have hstep : replaceAll pattern replacement 0 (c :: ys) =
        c :: replaceAll pattern replacement 0 ys := by rw [replaceAll,if_neg hno]
    rw [hzero,List.nil_append,hstep]
    rfl
  | cons x xs ih =>
    cases k with
    | succ k =>
      simp only [List.length_cons] at hk
      exact ih (by omega)
    | zero =>
      by_cases hp : pattern.isPrefixOf (x :: xs) = true
      · have hleads := List.isPrefixOf_iff_prefix.1 hp
        have hpc : pattern.isPrefixOf (x :: (xs ++ c :: ys)) = true :=
          List.isPrefixOf_iff_prefix.2 (hleads.trans (List.prefix_append (x :: xs) (c :: ys)))
        have hlength := hleads.length_le
        simp only [List.length_cons] at hlength
        rw [List.cons_append,replaceAll,if_pos hpc,ih (by omega),replaceAll,if_pos hp,
          List.append_assoc]
      · have hpc : ¬ pattern.isPrefixOf (x :: (xs ++ c :: ys)) = true := by
          intro h
          have happ : pattern <+: (x :: xs) ++ c :: ys := List.isPrefixOf_iff_prefix.1 h
          rcases prefix_append_cases (List.cons_ne_nil x xs) happ with hin | ⟨-,d,hd,hdp⟩
          · exact hp (List.isPrefixOf_iff_prefix.2 hin)
          · cases hd
            exact hc hdp
        rw [List.cons_append,replaceAll,if_neg hpc,ih (Nat.zero_le _),replaceAll,if_neg hp,
          List.cons_append]

/-- Texts joined by such a character are replaced in one by one. -/
theorem replaceAll_intercalate (hne : pattern ≠ []) {c : Char} (hc : c ∉ pattern)
    (ls : List (List Char)) :
    replaceAll pattern replacement 0 ([c].intercalate ls) =
      [c].intercalate (ls.map (replaceAll pattern replacement 0)) := by
  induction ls with
  | nil => rfl
  | cons l ls ih =>
    cases ls with
    | nil => simp
    | cons l' ls =>
      simp only [List.map_cons,List.intercalate_cons_cons,List.append_assoc,
        List.singleton_append] at ih ⊢
      rw [replaceAll_append_cons replacement hne hc (Nat.zero_le _),ih]

end all

/-! ### Templates -/

/-- A text with places to fill: the text before the first place, then each place with the text
after it. -/
structure Template (σ : Type) where
  head : List Char
  tail : List (σ × List Char)
  deriving DecidableEq

namespace Template

variable {σ : Type}

def render (f : σ → List Char) (T : Template σ) : List Char :=
  T.head ++ T.tail.flatMap fun p => f p.1 ++ p.2

def slots (T : Template σ) : List σ := T.tail.map Prod.fst

/-- The fixed texts hold no placeholder and keep the places apart: every placeholder has the mark,
which no fixed text has, and each fixed text begins and ends with a character that no placeholder
has. -/
def isApart (mark : Char) (letter : Char → Bool) (T : Template σ) : Bool :=
  !T.head.contains mark && T.head.getLast?.all (fun c => !letter c) &&
    T.tail.all fun p => !p.2.contains mark && !p.2.isEmpty && p.2.head?.all (fun c => !letter c) &&
      p.2.getLast?.all fun c => !letter c

end Template

section fill

variable {σ : Type} [DecidableEq σ] {token : σ → List Char} {mark : Char} {letter : Char → Bool}
  (hmark : ∀ s, mark ∈ token s) (hletter : ∀ s, ∀ c ∈ token s, letter c = true)
include hmark hletter

/-- The first occurrence of a placeholder is the place itself when nothing before it holds it. -/
theorem splitFirst_render {f : σ → List Char} {s : σ} (hf : f s = token s) (head : List Char)
    (tail : List (σ × List Char)) (hapart : Template.isApart mark letter ⟨head,tail⟩ = true)
    (hs : s ∈ tail.map Prod.fst) (hnodup : (tail.map Prod.fst).Nodup)
    (hfree : ∀ u, [u,s].Sublist (tail.map Prod.fst) → ¬ token s <:+: f u) :
    ∃ before after, splitFirst (token s) (Template.render f ⟨head,tail⟩) = some (before,after) ∧
      ∀ x, before ++ x ++ after = Template.render (Function.update f s x) ⟨head,tail⟩ := by
  have hlit : ∀ l : List Char, mark ∉ l → ¬ token s <:+: l := fun l hl h => hl (h.subset (hmark s))
  have hedge : ∀ l : Option Char, (∀ c ∈ l, letter c = false) → ∀ c ∈ l, c ∉ token s :=
    fun l hl c hc hm => by
      have h := hletter s c hm
      rw [hl c hc] at h
      cases h
  induction tail generalizing head with
  | nil => cases hs
  | cons p tail ih =>
    obtain ⟨u,l⟩ := p
    simp only [Template.isApart,List.all_cons,Bool.and_eq_true,Bool.not_eq_true',
      Option.all_eq_true,List.contains_eq_mem,decide_eq_false_iff_not] at hapart
    obtain ⟨⟨hhead,hlast⟩,⟨⟨⟨hl,hlne⟩,hlhead⟩,hllast⟩,htail⟩ := hapart
    have hskip : ∀ ys, splitFirst (token s) (head ++ ys) =
        (splitFirst (token s) ys).map fun split => (head ++ split.1,split.2) := fun ys =>
      splitFirst_skip (hlit head hhead) (.inl (hedge head.getLast? hlast))
    simp only [List.map_cons,List.nodup_cons] at hnodup
    by_cases hu : u = s
    · subst hu
      have hrest : ∀ x, (tail.flatMap fun p => Function.update f u x p.1 ++ p.2) =
          tail.flatMap fun p => f p.1 ++ p.2 := fun x => by
        refine List.flatMap_congr fun p hp => ?_
        have hpu : p.1 ≠ u := fun h => hnodup.1 (h ▸ List.mem_map_of_mem hp)
        rw [Function.update_of_ne hpu]
      refine ⟨head,l ++ tail.flatMap fun p => f p.1 ++ p.2,?_,fun x => ?_⟩
      · simp only [Template.render,List.flatMap_cons,hf,List.append_assoc]
        rw [hskip,splitFirst_append]
        simp
      · simp only [Template.render,List.flatMap_cons,Function.update_self,hrest x,
          List.append_assoc]
    · have hs' : s ∈ tail.map Prod.fst := by
        rcases List.mem_cons.1 hs with h | h
        · exact absurd h.symm hu
        · exact h
      have hapart' : Template.isApart mark letter ⟨l,tail⟩ = true := by
        simp only [Template.isApart,Bool.and_eq_true,Bool.not_eq_true',Option.all_eq_true,
          List.contains_eq_mem,decide_eq_false_iff_not]
        exact ⟨⟨hl,hllast⟩,htail⟩
      obtain ⟨before,after,hsplit,hupdate⟩ := ih l hapart' hs' hnodup.2
        fun v hv => hfree v (hv.cons _)
      have hfu : ¬ token s <:+: f u := by
        refine hfree u ?_
        simp only [List.map_cons]
        exact (List.singleton_sublist.2 hs').cons_cons u
      obtain ⟨c,l,rfl⟩ := List.exists_cons_of_ne_nil (show l ≠ [] by
        intro h
        simp [h] at hlne)
      have hhead' : ∀ d ∈ (Template.render f ⟨c :: l,tail⟩).head?, d ∉ token s := by
        intro d hd
        simp only [Template.render,List.cons_append,List.head?_cons] at hd
        exact hedge _ hlhead d hd
      have hnext := splitFirst_skip hfu (.inr hhead')
      refine ⟨head ++ (f u ++ before),after,?_,fun x => ?_⟩
      · have hrender : Template.render f ⟨head,(u,c :: l) :: tail⟩ =
            head ++ (f u ++ Template.render f ⟨c :: l,tail⟩) := by
          simp only [Template.render,List.flatMap_cons,List.append_assoc]
        rw [hrender,hskip,hnext,hsplit]
        rfl
      · have := hupdate x
        simp only [Template.render,List.flatMap_cons,List.append_assoc,
          Function.update_of_ne hu] at this ⊢
        rw [← this]

theorem replaceFirst_render {T : Template σ} (hapart : T.isApart mark letter = true)
    (hnodup : T.slots.Nodup) {f : σ → List Char} {s : σ} (hs : s ∈ T.slots) (hf : f s = token s)
    (hfree : ∀ u, [u,s].Sublist T.slots → ¬ token s <:+: f u) {value printed : List Char}
    (hexpand : ∀ found before after, expand found before after false value = printed) :
    replaceFirst (token s) value (T.render f) = T.render (Function.update f s printed) := by
  obtain ⟨before,after,hsplit,hupdate⟩ :=
    splitFirst_render hmark hletter hf T.head T.tail hapart hs hnodup hfree
  have hrender : T.render f = Template.render f ⟨T.head,T.tail⟩ := rfl
  rw [replaceFirst,hrender,hsplit]
  simp only [hexpand]
  exact hupdate printed

/-- The places of `filled` hold what is printed there, the others their placeholders. -/
def current (token printed : σ → List Char) (filled : List σ) (s : σ) : List Char :=
  if s ∈ filled then printed s else token s

omit [DecidableEq σ] hmark hletter in
theorem mem_of_pair_sublist {filled rest : List σ} {u s : σ} (hnodup : (filled ++ s :: rest).Nodup)
    (h : [u,s].Sublist (filled ++ s :: rest)) : u ∈ filled := by
  have hs : s ∉ filled ∧ s ∉ rest := by
    simp only [List.nodup_append,List.nodup_cons] at hnodup
    exact ⟨fun hm => hnodup.2.2 s hm s (List.mem_cons_self ..) rfl,hnodup.2.1.1⟩
  obtain ⟨l₁,l₂,hl,h₁,h₂⟩ := List.sublist_append_iff.1 h
  match l₁, hl with
  | [], hl =>
    rw [List.nil_append] at hl
    subst hl
    have hmem : s ∈ rest := by
      cases h₂ with
      | cons _ h => exact h.subset (by simp)
      | cons_cons _ h => exact h.subset (by simp)
    exact absurd hmem hs.2
  | v :: l, hl =>
    rw [List.cons_append,List.cons.injEq] at hl
    exact hl.1 ▸ h₁.subset (List.mem_cons_self ..)

/-- Replacing one placeholder after another is the simultaneous substitution when nothing that is
filled in holds a placeholder that is filled later and whose place stands behind. -/
theorem foldl_replaceFirst {T : Template σ} (hapart : T.isApart mark letter = true)
    (hslots : T.slots.Nodup) {value printed : σ → List Char}
    {order : List σ} (hexpand : ∀ s ∈ order, ∀ found before after,
      expand found before after false (value s) = printed s)
    (hnodup : order.Nodup) (hmem : ∀ s ∈ order, s ∈ T.slots)
    (hprinted : ∀ u s, [u,s].Sublist order → [u,s].Sublist T.slots →
      ¬ token s <:+: printed u)
    (htoken : ∀ s ∈ order, ∀ u ∈ T.slots, u ≠ s → token s <:+: token u → [u,s].Sublist order) :
    order.foldl (fun text s => replaceFirst (token s) (value s) text) (T.render token) =
      T.render (current token printed order) := by
  have hrun : ∀ rest filled, order = filled ++ rest →
      rest.foldl (fun text s => replaceFirst (token s) (value s) text)
          (T.render (current token printed filled)) =
        T.render (current token printed (filled ++ rest)) := by
    intro rest
    induction rest with
    | nil => intro filled _; simp
    | cons s rest ih =>
      intro filled horder
      have hs : s ∈ order := horder ▸ by simp
      have hout : s ∉ filled := by
        rw [horder,List.nodup_append] at hnodup
        exact fun hm => hnodup.2.2 s hm s (List.mem_cons_self ..) rfl
      have hfree : ∀ u, [u,s].Sublist T.slots →
          ¬ token s <:+: current token printed filled u := by
        intro u hu
        by_cases hf : u ∈ filled
        · rw [current,if_pos hf]
          refine hprinted u s ?_ hu
          rw [horder]
          exact (List.singleton_sublist.2 hf).append (List.singleton_sublist.2 (by simp))
        · rw [current,if_neg hf]
          have hus : u ≠ s := by
            have := hu.nodup hslots
            simpa using this
          intro hin
          have hpair := htoken s hs u (hu.subset (by simp)) hus hin
          exact hf (mem_of_pair_sublist (horder ▸ hnodup) (horder ▸ hpair))
      have hcur : current token printed filled s = token s := if_neg hout
      have hupdate : Function.update (current token printed filled) s (printed s) =
          current token printed (filled ++ [s]) := by
        funext u
        by_cases hus : u = s
        · subst hus
          simp [current]
        · simp [current,hus]
      rw [List.foldl_cons,replaceFirst_render hmark hletter hapart hslots (hmem s hs) hcur hfree
        (hexpand s hs),hupdate,ih (filled ++ [s]) (by simp [horder])]
      simp
  have hstart : current token printed [] = token := by
    funext s
    simp [current]
  have := hrun order [] rfl
  rw [hstart] at this
  exact this

end fill

end Placeholder
