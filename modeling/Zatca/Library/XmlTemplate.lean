import Zatca.Library.Xml
import Zatca.Library.Placeholder
set_option autoImplicit false

/-!
Content with slots as a template of placeholders, and where its slots are found after it is filled.
-/

namespace Xml
namespace Content

open Placeholder

variable {σ : Type}

/-! ### The template of a content -/

def templateThen : Content σ → Template σ → Template σ
  | nil, T => T
  | text cs rest, T => ⟨cs ++ (rest.templateThen T).head,(rest.templateThen T).tail⟩
  | slot s rest, T => ⟨[],(s,(rest.templateThen T).head) :: (rest.templateThen T).tail⟩
  | element n as c rest, T =>
    let after := rest.templateThen T
    let children := c.templateThen ⟨endTag n ++ after.head,after.tail⟩
    ⟨startTag n as ++ children.head,children.tail⟩

def template (c : Content σ) : Template σ := c.templateThen ⟨[],[]⟩

theorem render_templateThen (f : σ → List Char) (c : Content σ) (T : Template σ) :
    (c.templateThen T).render f = c.print f ++ T.render f := by
  induction c generalizing T with
  | nil => rfl
  | text cs rest ih =>
    have h := ih T
    simp only [Template.render] at h ⊢
    simp [templateThen,print,← h]
  | slot s rest ih =>
    have h := ih T
    simp only [Template.render] at h ⊢
    simp [templateThen,print,← h]
  | element n as c rest hc ih =>
    have h := ih T
    have hchildren := hc ⟨endTag n ++ (rest.templateThen T).head,(rest.templateThen T).tail⟩
    simp only [Template.render] at h hchildren ⊢
    simp only [templateThen,print,List.append_assoc] at hchildren ⊢
    rw [hchildren,h]

theorem render_template (f : σ → List Char) (c : Content σ) : c.template.render f = c.print f := by
  rw [template,render_templateThen]
  simp [Template.render]

def slots : Content σ → List σ
  | nil => []
  | text _ rest => rest.slots
  | slot s rest => s :: rest.slots
  | element _ _ c rest => c.slots ++ rest.slots

theorem slots_templateThen (c : Content σ) (T : Template σ) :
    (c.templateThen T).slots = c.slots ++ T.slots := by
  induction c generalizing T with
  | nil => rfl
  | text cs rest ih => exact ih T
  | slot s rest ih => exact congrArg (s :: ·) (ih T)
  | element n as c rest hc ih =>
    rw [slots,List.append_assoc,← ih T]
    exact hc _

theorem slots_template (c : Content σ) : c.template.slots = c.slots := by
  rw [template,slots_templateThen]
  simp [Template.slots]

theorem print_congr {f g : σ → List Char} {c : Content σ} (h : ∀ s ∈ c.slots, f s = g s) :
    c.print f = c.print g := by
  induction c with
  | nil => rfl
  | text cs rest ih => rw [print,print,ih h]
  | slot s rest ih =>
    obtain ⟨hs,hrest⟩ := List.forall_mem_cons.1 h
    rw [print,print,hs,ih hrest]
  | element n as c rest hc ih =>
    obtain ⟨hchildren,hrest⟩ := List.forall_mem_append.1 h
    rw [print,print,hc hchildren,ih hrest]

theorem mem_print {f : σ → List Char} {c : Content σ} {x : Char} (h : x ∈ c.print f) :
    x ∈ c.print (fun _ => []) ∨ ∃ s, x ∈ f s := by
  induction c with
  | nil => cases h
  | text cs rest ih =>
    simp only [print,List.mem_append] at h ⊢
    rcases h with h | h
    · exact .inl (.inl h)
    · exact (ih h).imp_left .inr
  | slot s rest ih =>
    simp only [print,List.nil_append,List.mem_append] at h ⊢
    rcases h with h | h
    · exact .inr ⟨s,h⟩
    · exact ih h
  | element n as c rest hc ih =>
    simp only [print,List.mem_append] at h ⊢
    rcases h with h | h | h | h
    · exact .inl (.inl h)
    · exact (hc h).imp_left fun h => .inr (.inl h)
    · exact .inl (.inr (.inr (.inl h)))
    · exact (ih h).imp_left fun h => .inr (.inr (.inr h))

/-! ### Slots after filling -/

/-- What the content is read as. -/
def read (trim : List Char → List Char) (c : Content Empty) : List Char × Elements :=
  (trim c.chars,c.elements trim)

/-- The content of the `i`-th element of the name, when no slot can add one before it. -/
def child (adds : σ → List (List Char)) (name : List Char) : Nat → Content σ → Option (Content σ)
  | _, nil => none
  | i, text _ rest => rest.child adds name i
  | i, slot s rest => if name ∈ adds s then none else rest.child adds name i
  | i, element n _ c rest =>
    if n = name then
      match i with
      | 0 => some c
      | i + 1 => rest.child adds name i
    else rest.child adds name i

def childAt (adds : σ → List (List Char)) : List (List Char × Nat) → Content σ → Option (Content σ)
  | [], c => some c
  | (n,i) :: path, c => (c.child adds n i).bind (childAt adds path)

/-- The slot that stands alone where the path leads. -/
def slotAt (adds : σ → List (List Char)) (path : List (List Char × Nat)) (c : Content σ) :
    Option σ :=
  match c.childAt adds path with
  | some (slot s nil) => some s
  | _ => none

/-- The slot that adds the first elements of the name. -/
def contributor (adds : σ → List (List Char)) (name : List Char) : Content σ → Option σ
  | nil => none
  | text _ rest => rest.contributor adds name
  | slot s rest => if name ∈ adds s then some s else rest.contributor adds name
  | element n _ _ rest => if n = name then none else rest.contributor adds name

/-- The slot that adds the first elements of the name where the path leads. -/
def contributorAt (adds : σ → List (List Char)) (path : List (List Char × Nat))
    (name : List Char) (c : Content σ) : Option σ :=
  (c.childAt adds path).bind (contributor adds name)

section

variable {trim : List Char → List Char} {adds : σ → List (List Char)} {g : σ → Content Empty}
  (hadds : ∀ s, ∀ n ∈ ((g s).elements trim).names, n ∈ adds s)
include hadds

theorem find_fill {name : List Char} {i : Nat} {c d : Content σ}
    (h : c.child adds name i = some d) :
    ((c.fill g).elements trim).find name i = some ((d.fill g).read trim) := by
  induction c generalizing i with
  | nil => cases h
  | text cs rest ih => exact ih h
  | slot s rest ih =>
    simp only [child] at h
    split at h
    · cases h
    · rename_i hs
      simp only [fill,elements_append]
      rw [Elements.find_append fun hm => hs (hadds s name hm)]
      exact ih h
  | element n as c rest _ ih =>
    simp only [child] at h
    simp only [fill,elements,Elements.find]
    split at h
    · rename_i hn
      rw [if_pos hn]
      cases i with
      | zero =>
        cases h
        rfl
      | succ i => exact ih h
    · rename_i hn
      rw [if_neg hn]
      exact ih h

theorem follow_fill {path : List (List Char × Nat)} {c d : Content σ}
    (h : c.childAt adds path = some d) :
    Elements.follow path ((c.fill g).read trim) = some ((d.fill g).read trim) := by
  induction path generalizing c with
  | nil =>
    cases h
    rfl
  | cons step path ih =>
    obtain ⟨n,i⟩ := step
    obtain ⟨e,he,hd⟩ := Option.bind_eq_some_iff.1 h
    have hfind : ((c.fill g).read trim).2.find n i = some ((e.fill g).read trim) :=
      find_fill hadds he
    rw [Elements.follow,hfind]
    exact ih hd

theorem follow_slot {path : List (List Char × Nat)} {c : Content σ} {s : σ}
    (h : c.slotAt adds path = some s) :
    Elements.follow path ((c.fill g).read trim) = some ((g s).read trim) := by
  simp only [slotAt] at h
  split at h
  · rename_i t hc
    cases h
    have hfill : ((slot s nil).fill g).read trim = (g s).read trim := by
      simp [read,fill,chars_append,elements_append,chars,elements,Elements.append_nil]
    rw [follow_fill hadds hc,hfill]
  · cases h

theorem find_contributor {name : List Char} {i : Nat} {c : Content σ} {s : σ}
    (h : c.contributor adds name = some s) {found : List Char × Elements}
    (hs : ((g s).elements trim).find name i = some found) :
    ((c.fill g).elements trim).find name i = some found := by
  induction c with
  | nil => cases h
  | text cs rest ih => exact ih h
  | slot u rest ih =>
    simp only [contributor] at h
    simp only [fill,elements_append]
    split at h
    · cases h
      exact Elements.find_append_of_some hs _
    · rename_i hu
      rw [Elements.find_append fun hm => hu (hadds u name hm)]
      exact ih h
  | element n as c rest _ ih =>
    simp only [contributor] at h
    simp only [fill,elements,Elements.find]
    split at h
    · cases h
    · rename_i hn
      rw [if_neg hn]
      exact ih h

/-- What is found in a fragment is found in the content that the fragment is filled into. -/
theorem follow_contributor {path rest : List (List Char × Nat)} {name : List Char} {i : Nat}
    {c : Content σ} {s : σ} (h : c.contributorAt adds path name = some s)
    {found : List Char × Elements}
    (hs : Elements.follow ((name,i) :: rest) ((g s).read trim) = some found) :
    Elements.follow (path ++ (name,i) :: rest) ((c.fill g).read trim) = some found := by
  obtain ⟨d,hd,hcontributor⟩ := Option.bind_eq_some_iff.1 h
  rw [Elements.follow_append,follow_fill hadds hd,Option.bind_some]
  simp only [Elements.follow] at hs ⊢
  obtain ⟨y,hy,hfollow⟩ := Option.bind_eq_some_iff.1 hs
  have hfind : ((d.fill g).read trim).2.find name i = some y := find_contributor hadds hcontributor hy
  rw [hfind]
  exact hfollow

end

end Content
end Xml
