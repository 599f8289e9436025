import Zatca.Library.XmlParser
set_option autoImplicit false

/-! Joining contents, and what an element may hold. -/

namespace Xml

theorem CharData.of_infix {cs ds : List Char} (h : CharData cs) (hin : ds <:+: cs) : CharData ds where
  plain c hc := h.plain c (hin.subset hc)
  noSectionEnd hs := h.noSectionEnd (hs.trans hin)

namespace Content

variable {σ : Type}

theorem append_nil (c : Content σ) : c.append nil = c := by
  induction c with
  | nil => rfl
  | text cs rest ih => simp [append,ih]
  | slot s rest ih => simp [append,ih]
  | element n as c rest _ ih => simp [append,ih]

theorem append_assoc (c d e : Content σ) : (c.append d).append e = c.append (d.append e) := by
  induction c with
  | nil => rfl
  | text cs rest ih => simp [append,ih]
  | slot s rest ih => simp [append,ih]
  | element n as c rest _ ih => simp [append,ih]

/-- What an element may hold. -/
structure Fits (c : Content Empty) : Prop where
  charData : CharData c.chars
  mixed : c.bare = true ∨ ∀ x ∈ c.chars, isBlank x = true
  wellFormed : c.WellFormed

theorem Fits.of_blank {c : Content Empty} (hblank : ∀ x ∈ c.chars, isBlank x = true)
    (h : c.WellFormed) : Fits c := ⟨charData_of_blank hblank,.inr hblank,h⟩

theorem fits_text {cs : List Char} (h : CharData cs) : Fits (text cs nil) := by
  refine ⟨?_,.inl rfl,trivial⟩
  rw [chars,chars,List.append_nil]
  exact h

/-- The character data at every depth. -/
def characters : Content σ → List Char
  | nil => []
  | text cs rest => cs ++ rest.characters
  | slot _ rest => rest.characters
  | element _ _ c rest => c.characters ++ rest.characters

theorem characters_of_chars {x : Char} {c : Content Empty} (h : x ∈ c.chars) : x ∈ c.characters := by
  induction c with
  | nil => cases h
  | text cs rest ih =>
    rw [chars,List.mem_append] at h
    rw [characters,List.mem_append]
    exact h.imp_right ih
  | slot s => exact s.elim
  | element n as c rest _ ih => exact List.mem_append_right _ (ih h)

theorem elements_of_bare (trim : List Char → List Char) {c : Content Empty} (h : c.bare = true) :
    c.elements trim = .nil := by
  induction c with
  | nil => rfl
  | text cs rest ih => exact ih h
  | slot s => exact s.elim
  | element n as c rest _ ih => cases h

end Content
end Xml
