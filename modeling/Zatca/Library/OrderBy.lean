import Mathlib.Data.List.Pairwise
import Mathlib.Order.Lattice
set_option autoImplicit false

/-! The rows of a sorted query, and the first of them. Where the sort leaves ties, the tied rows may
come in any order. -/

namespace OrderBy

variable {α κ : Type}

/-- The row before which no later row of the list sorts: `ORDER BY … LIMIT 1` under a total order
without ties. -/
def first (before : α → α → Bool) : List α → Option α
  | [] => none
  | a :: l =>
      match first before l with
      | none => some a
      | some b => if before b a then some b else some a

/-- In a table where every row sorts before the rows above it, the last row comes first. -/
theorem first_of_rising {before : α → α → Bool} {l : List α}
    (h : l.Pairwise (fun a b => before b a)) : first before l = l.getLast? := by
  induction l with
  | nil => rfl
  | cons a l ih =>
    rw [List.pairwise_cons] at h
    rw [first,ih h.2]
    cases hl : l.getLast? with
    | none => simp [List.getLast?_eq_none_iff.1 hl]
    | some b =>
      have hb : before b a := h.1 b (List.mem_of_getLast? hl)
      simp [hb,List.getLast?_cons,hl]

variable [LinearOrder κ]

/-- The rows with the greatest key. -/
def tops (key : α → κ) (l : List α) : List α := l.filter (fun a => l.all (fun b => key b ≤ key a))

theorem mem_tops {key : α → κ} {l : List α} {a : α} :
    a ∈ tops key l ↔ a ∈ l ∧ ∀ b ∈ l, key b ≤ key a := by
  simp [tops]

theorem tops_map {β : Type} (key : β → κ) (f : α → β) (l : List α) :
    tops key (l.map f) = (tops (fun a => key (f a)) l).map f := by
  simp [tops,List.filter_map,Function.comp_def]

theorem first_eq_none {before : α → α → Bool} {l : List α} : first before l = none ↔ l = [] := by
  cases l with
  | nil => simp [first]
  | cons a l =>
    simp only [first,reduceCtorEq,iff_false]
    split
    · exact nofun
    · split
      · exact nofun
      · exact nofun

/-- An order that breaks the ties of the key puts one of the tied rows first. -/
theorem first_mem_tops {before : α → α → Bool} {key : α → κ}
    (hbefore : ∀ a b, before b a = true → key a ≤ key b)
    (hnot : ∀ a b, before b a = false → key b ≤ key a) {l : List α} {r : α}
    (hr : first before l = some r) : r ∈ tops key l := by
  induction l generalizing r with
  | nil => cases hr
  | cons a l ih =>
    rw [mem_tops]
    cases hl : first before l with
    | none =>
      simp only [first,hl,Option.some.injEq] at hr
      subst hr
      simp [first_eq_none.1 hl]
    | some b =>
      obtain ⟨hb,hall⟩ := mem_tops.1 (ih hl)
      simp only [first,hl] at hr
      cases hba : before b a with
      | true =>
        simp only [hba,if_true,Option.some.injEq] at hr
        subst hr
        exact ⟨List.mem_cons_of_mem _ hb,List.forall_mem_cons.2 ⟨hbefore a b hba,hall⟩⟩
      | false =>
        simp only [hba,Bool.false_eq_true,if_false,Option.some.injEq] at hr
        subst hr
        exact ⟨List.mem_cons_self,List.forall_mem_cons.2
          ⟨le_rfl,fun c hc => (hall c hc).trans (hnot a b hba)⟩⟩

/-- Where the keys never fall, the rows that may come first are those tied with the last. -/
theorem mem_tops_of_rising {key : α → κ} {l : List α} {z : α}
    (h : l.Pairwise (fun a b => key a ≤ key b)) (hz : l.getLast? = some z) {a : α} :
    a ∈ tops key l ↔ a ∈ l ∧ key a = key z := by
  have hmem : z ∈ l := List.mem_of_getLast? hz
  have hle : ∀ b ∈ l, key b ≤ key z := by
    obtain ⟨pre,rfl⟩ := List.getLast?_eq_some_iff.1 hz
    intro b hb
    rcases List.mem_append.1 hb with hb | hb
    · exact (List.pairwise_append.1 h).2.2 b hb z List.mem_cons_self
    · rw [List.mem_singleton.1 hb]
  rw [mem_tops]
  constructor
  · rintro ⟨ha,hall⟩
    exact ⟨ha,le_antisymm (hle a ha) (hall z hmem)⟩
  · rintro ⟨ha,hkey⟩
    refine ⟨ha,fun b hb => ?_⟩
    rw [hkey]
    exact hle b hb

/-! ### All rows -/

/-- What a query sorted by the descending key may answer. -/
structure Answer (key : α → κ) (rows q : List α) : Prop where
  perm : q.Perm rows
  sorted : q.Pairwise fun a b => key b ≤ key a

variable {key : α → κ} {rows q q' : List α}

theorem Answer.self (h : rows.Pairwise fun a b => key b ≤ key a) : Answer key rows rows :=
  ⟨List.Perm.refl rows,h⟩

theorem Answer.of_perm {rows' : List α} (h : Answer key rows q) (hrows : rows.Perm rows') :
    Answer key rows' q :=
  ⟨h.perm.trans hrows,h.sorted⟩

/-- The answers differ within ties only. -/
theorem Answer.keys_eq (h : Answer key rows q) (h' : Answer key rows q') :
    q.map key = q'.map key := by
  have hsorted : ∀ {l : List α}, (l.Pairwise fun a b => key b ≤ key a) →
      (l.map key).Pairwise fun a b => b ≤ a := fun hl => List.pairwise_map.2 hl
  refine List.Perm.eq_of_pairwise ?_ (hsorted h.sorted) (hsorted h'.sorted)
    ((h.perm.trans h'.perm.symm).map key)
  intro a b _ _ hba hab
  exact le_antisymm hab hba

theorem Answer.swap {pre mid post : List α} {a b : α}
    (h : Answer key rows (pre ++ a :: (mid ++ b :: post))) (hkey : key a = key b) :
    Answer key rows (pre ++ b :: (mid ++ a :: post)) where
  perm := by
    have hswap : (a :: (mid ++ b :: post)).Perm (b :: (mid ++ a :: post)) := by
      have hb : (mid ++ b :: post).Perm (b :: (mid ++ post)) := List.perm_middle
      have ha : (mid ++ a :: post).Perm (a :: (mid ++ post)) := List.perm_middle
      exact (hb.cons a).trans ((List.Perm.swap b a _).trans (ha.symm.cons b))
    exact (hswap.symm.append_left pre).trans h.perm
  sorted := by
    have hkeys : (pre ++ b :: (mid ++ a :: post)).map key =
        (pre ++ a :: (mid ++ b :: post)).map key := by
      simp [hkey]
    have hsorted : ((pre ++ a :: (mid ++ b :: post)).map key).Pairwise fun x y => y ≤ x :=
      List.pairwise_map.2 h.sorted
    rw [← hkeys] at hsorted
    exact List.pairwise_map.1 hsorted

/-- A row may be answered wherever a row that it ties with stands. -/
theorem Answer.exists_getElem (h : Answer key rows q) {i : Nat} {a b : α} (ha : q[i]? = some a)
    (hb : b ∈ q) (hkey : key a = key b) : ∃ q', Answer key rows q' ∧ q'[i]? = some b := by
  obtain ⟨j,hj⟩ := List.mem_iff_getElem?.1 hb
  have hsplit : ∀ {i : Nat} {a : α} {l : List α}, l[i]? = some a →
      ∃ pre post, l = pre ++ a :: post ∧ pre.length = i := by
    intro i a l hi
    obtain ⟨hlt,rfl⟩ := List.getElem?_eq_some_iff.1 hi
    refine ⟨l.take i,l.drop (i+1),?_,by simp; omega⟩
    rw [List.getElem_cons_drop,List.take_append_drop]
  obtain ⟨pre,post,rfl,hpre⟩ := hsplit ha
  rcases Nat.lt_trichotomy j i with hlt | rfl | hlt
  · rw [List.getElem?_append_left (by omega)] at hj
    obtain ⟨pre',mid,rfl,hpre'⟩ := hsplit hj
    rw [List.append_assoc,List.cons_append] at h
    refine ⟨_,h.swap hkey.symm,?_⟩
    simp only [List.length_append,List.length_cons] at hpre
    rw [← List.cons_append,← List.append_assoc,List.getElem?_append_right (by simp; omega)]
    simp [← hpre]
  · have hsame : a = b := Option.some.inj (ha.symm.trans hj)
    exact ⟨_,h,hsame ▸ ha⟩
  · rw [List.getElem?_append_right (by omega),hpre,
      show j - i = (j - i - 1) + 1 by omega,List.getElem?_cons_succ] at hj
    obtain ⟨mid,post',rfl,-⟩ := hsplit hj
    exact ⟨_,h.swap hkey,by simp [← hpre]⟩

/-- All answers show the same leading rows if and only if rows that tie with one of these show the
same. -/
theorem take_map_eq_iff {β : Type} (view : α → β) (h : rows.Pairwise fun a b => key b ≤ key a)
    (n : Nat) : (∀ q, Answer key rows q → (q.take n).map view = (rows.take n).map view) ↔
      ∀ a ∈ rows.take n, ∀ b ∈ rows, key a = key b → view a = view b := by
  constructor
  · intro hall a ha b hb hkey
    obtain ⟨i,hi⟩ := List.mem_iff_getElem?.1 ha
    obtain ⟨hlt,-⟩ := List.getElem?_eq_some_iff.1 hi
    have hin : i < n := by rw [List.length_take] at hlt; omega
    have hrow : rows[i]? = some a := by rwa [List.getElem?_take_of_lt hin] at hi
    obtain ⟨q,hq,hqi⟩ := (Answer.self h).exists_getElem hrow hb hkey
    have heq := congrArg (·[i]?) (hall q hq)
    simp only [List.getElem?_map,List.getElem?_take_of_lt hin,hrow,hqi,Option.map_some,
      Option.some.injEq] at heq
    exact heq.symm
  · intro hties q hq
    refine List.ext_getElem? fun i => ?_
    by_cases hin : i < n
    · have hkeys := congrArg (·[i]?) (hq.keys_eq (Answer.self h))
      simp only [List.getElem?_map,List.getElem?_take_of_lt hin] at hkeys ⊢
      cases hrow : rows[i]? with
      | none =>
        rw [hrow] at hkeys
        rw [Option.map_eq_none_iff.1 hkeys]
      | some a =>
        rw [hrow] at hkeys
        obtain ⟨b,hb,hkey⟩ := Option.map_eq_some_iff.1 hkeys
        have ha : a ∈ rows.take n :=
          List.mem_of_getElem? (by rw [List.getElem?_take_of_lt hin]; exact hrow)
        rw [hb,Option.map_some,Option.map_some,
          hties a ha b (hq.perm.mem_iff.1 (List.mem_of_getElem? hb)) hkey.symm]
    · rw [List.getElem?_eq_none (by simp; omega),List.getElem?_eq_none (by simp; omega)]

end OrderBy
