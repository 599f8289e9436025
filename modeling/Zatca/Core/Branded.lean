import Zatca.Core.Types
set_option autoImplicit false

/-! Texts of a fixed format, checked once where they come in. -/

namespace Zatca

/-- `/^3\d{13}3$/` -/
def isVATNumber (value : String) : Bool :=
  value.toList.length = 15 && value.toList.head? = some '3' && value.toList.getLast? = some '3' &&
    value.toList.all Char.isDigit

def isHexDigit (c : Char) : Bool :=
  c.isDigit || ('a' ≤ c && c ≤ 'f') || ('A' ≤ c && c ≤ 'F')

/-- The characters that a version 4 uuid may carry at a position. -/
def uuidV4Char (i : Nat) (c : Char) : Bool :=
  if i ∈ [8,13,18,23] then c = '-'
  else if i = 14 then c = '4'
  else if i = 19 then "89abAB".toList.contains c
  else isHexDigit c

def isUuidV4 (value : String) : Bool :=
  value.toList.length = 36 && value.toList.zipIdx.all (fun (c,i) => uuidV4Char i c)

/-- `/^\d{10}$/` -/
def isCommercialRegistrationNumber (value : String) : Bool :=
  value.toList.length = 10 && value.toList.all Char.isDigit

abbrev VATNumber := {s : String // isVATNumber s}
abbrev EGSUuid := {s : String // isUuidV4 s}
abbrev CommercialRegistrationNumber := {s : String // isCommercialRegistrationNumber s}

def asVATNumber (value : String) : Except Thrown VATNumber :=
  if h : isVATNumber value then .ok ⟨value,h⟩
  else .error (.zatcaValidationError
    ("Invalid VAT number: " ++ value ++ ". Expected 15 digits starting and ending with 3."))

def asEGSUuid (value : String) : Except Thrown EGSUuid :=
  if h : isUuidV4 value then .ok ⟨value,h⟩
  else .error (.zatcaValidationError
    ("Invalid EGS UUID: " ++ value ++ ". Expected UUID v4 (8-4-4-4-12 hex)."))

def asCommercialRegistrationNumber (value : String) : Except Thrown CommercialRegistrationNumber :=
  if h : isCommercialRegistrationNumber value then .ok ⟨value,h⟩
  else .error (.zatcaValidationError
    ("Invalid commercial registration number: " ++ value ++ ". Expected 10 digits."))

theorem colon_notMem_uuid (u : EGSUuid) : ':' ∉ u.1.toList := by
  intro h
  have hu := u.2
  simp only [isUuidV4,Bool.and_eq_true,List.all_eq_true] at hu
  obtain ⟨i,hi,hc⟩ := List.mem_iff_getElem.1 h
  have := hu.2 (':',i) (by
    rw [List.mem_zipIdx_iff_getElem?]
    simpa [List.getElem?_eq_some_iff] using ⟨hi,hc⟩)
  simp only [uuidV4Char] at this
  split at this
  · simp at this
  · split at this
    · simp at this
    · split at this
      · exact absurd this (by decide)
      · exact absurd this (by decide)

end Zatca
