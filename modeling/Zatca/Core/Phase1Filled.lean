import Zatca.Core.TemplateForms
set_option autoImplicit false
namespace Zatca
open Xml Xml.Content Placeholder Ubl

/-! ### The texts of numbers -/

namespace Number

def isNumberChar (c : Char) : Bool := c.isDigit || c == '-' || c == '.' || c == 'e' || c == '+'

theorem charData_of_isNumberChar {cs : List Char} (h : ∀ c ∈ cs, isNumberChar c = true) :
    CharData cs := by
  refine charData_of_forall fun c hc => ?_
  have hnumber := h c hc
  simp only [isNumberChar,Bool.or_eq_true,beq_iff_eq] at hnumber
  rcases hnumber with (((hdigit | rfl) | rfl) | rfl) | rfl
  · exact ⟨(plain_of_isDigit hdigit).1,(plain_of_isDigit hdigit).2.1⟩
  all_goals exact ⟨by decide,by decide⟩

theorem isNumberChar_of_isDigits {cs : List Char} (h : Digits.IsDigits cs) :
    ∀ c ∈ cs, isNumberChar c = true := fun c hc => by
  simp [isNumberChar,h c hc]

theorem isNumberChar_chars {n : Numeral} (hwhole : Digits.IsDigits n.whole)
    (hfraction : Digits.IsDigits n.fraction) : ∀ c ∈ n.chars, isNumberChar c = true := by
  intro c hc
  simp only [Numeral.chars,List.mem_append] at hc
  rcases hc with (hc | hc) | hc
  · rw [Numeral.sign] at hc
    split at hc
    · obtain rfl := List.mem_singleton.1 hc
      rfl
    · cases hc
  · exact isNumberChar_of_isDigits hwhole c hc
  · split at hc
    · cases hc
    · rcases List.mem_cons.1 hc with rfl | hc
      · rfl
      · exact isNumberChar_of_isDigits hfraction c hc

theorem isNumberChar_ofScaled (negative : Bool) (m n : Nat) :
    ∀ c ∈ (Numeral.ofScaled negative m n).chars, isNumberChar c = true :=
  isNumberChar_chars (Numeral.wellFormed_ofScaled negative m n).whole
    (Numeral.wellFormed_ofScaled negative m n).fraction

theorem charData_toString (q : ℚ) : CharData (toString q).toList := by
  refine charData_of_isNumberChar fun c hc => ?_
  simp only [toString,String.toList_ofList,List.mem_append] at hc
  rcases hc with hc | hc
  · rw [numeral] at hc
    split at hc
    · exact isNumberChar_ofScaled _ _ _ c hc
    · exact isNumberChar_chars ((isDigits_significant q).take 1) ((isDigits_significant q).drop 1) c hc
  · rw [exponentChars] at hc
    split at hc
    · cases hc
    · simp only [List.mem_cons] at hc
      rcases hc with rfl | rfl | hc
      · rfl
      · split <;> rfl
      · exact isNumberChar_of_isDigits (Digits.isDigits_toDigits _) c hc

theorem charData_toFixed (q : ℚ) (n : Nat) : CharData (toFixed q n).toList := by
  rw [toFixed]
  split
  · exact charData_toString q
  · rw [String.toList_ofList]
    exact charData_of_isNumberChar (isNumberChar_ofScaled _ _ _)

end Number

namespace Phase1

/-! ### The lines -/

def LineSlot.path : LineSlot → List (List Char × Nat)
  | .id => [(cbc "ID",0)]
  | .quantity => [(cbc "InvoicedQuantity",0)]
  | .lineTotal => [(cbc "LineExtensionAmount",0)]
  | .name => [(cac "Item",0),(cbc "Name",0)]
  | .price => [(cac "Price",0),(cbc "PriceAmount",0)]

theorem line_template : lineContent.isTemplate (fun _ => true) = true ∧
    lineContent.isSpaced (fun _ => true) = true := by decide

theorem line_path (s : LineSlot) : lineChildren.slotAt (fun _ => []) s.path = some s := by
  cases s <;> decide

/-- One line with its values. -/
def filledLine (values : LineSlot → List Char) : Content Empty :=
  lineContent.fill fun s => text (values s) nil

def filledLines : List (LineSlot → List Char) → Content Empty
  | [] => nil
  | values :: lines => (filledLine values).append (filledLines lines)

theorem filledLines_wellFormed {lines : List (LineSlot → List Char)}
    (h : ∀ values ∈ lines, ∀ s, CharData (values s)) : (filledLines lines).WellFormed ∧
      ∀ x ∈ (filledLines lines).chars, isBlank x = true := by
  induction lines with
  | nil => exact ⟨trivial,by simp [filledLines,chars]⟩
  | cons values lines ih =>
    obtain ⟨hvalues,hlines⟩ := List.forall_mem_cons.1 h
    have hwf : (filledLine values).WellFormed :=
      wellFormed_fill (fun s _ => ⟨_,rfl,hvalues s⟩) (fun _ h => by cases h) line_template.1
    have hblank : ∀ x ∈ (filledLine values).chars, isBlank x = true :=
      blank_fill (fun _ h => by cases h) line_template.2
    refine ⟨wellFormed_append hwf (ih hlines).1,fun x hx => ?_⟩
    rw [filledLines,chars_append,List.mem_append] at hx
    exact hx.elim (hblank x) ((ih hlines).2 x)

theorem elements_filledLine (values : LineSlot → List Char) :
    (filledLine values).elements trimChars = .element (cac "InvoiceLine") []
      ((lineChildren.fill fun s => text (values s) nil).read trimChars).1
      ((lineChildren.fill fun s => text (values s) nil).read trimChars).2 .nil := rfl

/-- The `i`-th line is read where it was written. -/
theorem find_filledLines {lines : List (LineSlot → List Char)} {i : Nat}
    {values : LineSlot → List Char} (h : lines[i]? = some values) :
    ((filledLines lines).elements trimChars).find (cac "InvoiceLine") i =
      some ((lineChildren.fill fun s => text (values s) nil).read trimChars) := by
  induction lines generalizing i with
  | nil => cases h
  | cons line lines ih =>
    rw [filledLines,elements_append,elements_filledLine,Elements.append,Elements.append]
    cases i with
    | zero =>
      cases h
      rfl
    | succ i => exact ih h

theorem names_filledLines (lines : List (LineSlot → List Char)) :
    ∀ n ∈ ((filledLines lines).elements trimChars).names, n ∈ [cac "InvoiceLine"] := by
  induction lines with
  | nil => simp [filledLines,elements,Elements.names]
  | cons line lines ih =>
    rw [filledLines,elements_append,elements_filledLine,Elements.append,Elements.append,
      Elements.names]
    exact List.forall_mem_cons.2 ⟨by simp,ih⟩

/-- The shape of the lines is given by how many there are. -/
theorem shape_filledLines {lines lines' : List (LineSlot → List Char)}
    (h : lines.length = lines'.length) :
    ((filledLines lines).elements trimChars).shape =
      ((filledLines lines').elements trimChars).shape := by
  induction lines generalizing lines' with
  | nil =>
    obtain rfl := List.length_eq_zero_iff.1 h.symm
    rfl
  | cons values lines ih =>
    cases lines' with
    | nil => cases h
    | cons values' lines' =>
      simp only [filledLines,elements_append,Elements.shape_append]
      rw [ih (Nat.succ.inj h)]
      congr 1

/-- The values of the lines of an input. -/
def lineValues (lineItems : List ZATCAInvoiceLineItem) : List (LineSlot → List Char) :=
  lineItems.mapIdx fun index item s => (lineValue item index s).toList

theorem foldl_append_toList (texts : List String) (start : String) :
    (texts.foldl (· ++ ·) start).toList = start.toList ++ texts.flatMap String.toList := by
  induction texts generalizing start with
  | nil => simp
  | cons t texts ih => simp [ih]

theorem print_filledLines (lines : List (LineSlot → List Char)) :
    (filledLines lines).print Empty.elim = lines.flatMap fun values => lineContent.print values := by
  induction lines with
  | nil => rfl
  | cons values lines ih =>
    rw [filledLines,print_append,ih,filledLine,print_fill,List.flatMap_cons]
    simp [print]

theorem linesXml_toList (lineItems : List ZATCAInvoiceLineItem) :
    (linesXml lineItems).toList = (filledLines (lineValues lineItems)).print Empty.elim := by
  rw [linesXml,foldl_append_toList,print_filledLines,lineValues]
  simp only [String.toList_empty,List.nil_append]
  rw [List.flatMap_def,List.flatMap_def]
  congr 1
  refine List.ext_getElem? fun i => ?_
  cases hitem : lineItems[i]? with
  | none => simp [hitem]
  | some item =>
    simp [hitem,TemplateLiteral.render_toList,lineLiteral_chars,render_template]

/-! ### The documents -/

def DocumentSlot.isText : DocumentSlot → Bool
  | .billingReference | .linesXml => false
  | _ => true

def DocumentSlot.adds : DocumentSlot → List (List Char)
  | .billingReference => [cac "BillingReference"]
  | .linesXml => [cac "InvoiceLine"]
  | _ => []

def DocumentSlot.path : DocumentSlot → Path
  | .invoiceSerialNumber => invoicePath [(cbc "ID",0)]
  | .issueDate => invoicePath [(cbc "IssueDate",0)]
  | .issueTime => invoicePath [(cbc "IssueTime",0)]
  | .typeCode => invoicePath [(cbc "InvoiceTypeCode",0)]
  | .billingReference => billingPath
  | .vatName => supplierPath [(cac "PartyLegalEntity",0),(cbc "RegistrationName",0)]
  | .vatNumber => supplierPath [(cac "PartyTaxScheme",0),(cbc "CompanyID",0)]
  | .street => supplierPath [(cac "PostalAddress",0),(cbc "StreetName",0)]
  | .building => supplierPath [(cac "PostalAddress",0),(cbc "BuildingNumber",0)]
  | .cityName => supplierPath [(cac "PostalAddress",0),(cbc "CityName",0)]
  | .postalZone => supplierPath [(cac "PostalAddress",0),(cbc "PostalZone",0)]
  | .buyerName => customerPath
  | .vatAmount => invoicePath [(cac "TaxTotal",0),(cbc "TaxAmount",0)]
  | .subtotal => invoicePath [(cac "LegalMonetaryTotal",0),(cbc "LineExtensionAmount",0)]
  | .total => invoicePath [(cac "LegalMonetaryTotal",0),(cbc "PayableAmount",0)]
  | .linesXml => invoicePath []

/-- The two builders: which one makes a credit note, and what it refers to. -/
structure Form where
  typeCode : String
  isCreditNote : Bool

def Form.billingReference (f : Form) (input : InvoiceInput) : String :=
  if f.isCreditNote then billingLiteral.render fun _ => originalInvoiceNumber input else ""

def filler (f : Form) (input : InvoiceInput) : DocumentSlot → Content Empty
  | .billingReference =>
    if f.isCreditNote then
      billingContent.fill fun _ => text (originalInvoiceNumber input).toList nil
    else nil
  | .linesXml => filledLines (lineValues input.lineItems)
  | s => text (documentValue f.typeCode (f.billingReference input) input s).toList nil

def filledDocument (f : Form) (input : InvoiceInput) : Document :=
  ⟨[],documentBody.fill (filler f input)⟩

theorem filler_text (f : Form) (input : InvoiceInput) {s : DocumentSlot} (hs : s.isText = true) :
    filler f input s =
      text (documentValue f.typeCode (f.billingReference input) input s).toList nil := by
  cases s <;> first | rfl | cases hs

theorem filledDocument_print (f : Form) (input : InvoiceInput) :
    (documentLiteral.render
      (documentValue f.typeCode (f.billingReference input) input)).toList =
        (filledDocument f input).print := by
  rw [TemplateLiteral.render_toList,documentLiteral_chars,render_template,Document.print,
    filledDocument,print_fill,print]
  refine congrArg (fun f => declaration ++ documentBody.print f) ?_
  funext s
  cases ht : s.isText with
  | true =>
    rw [filler_text f input ht]
    simp [print]
  | false =>
    cases s with
    | billingReference =>
      simp only [documentValue,Form.billingReference,filler]
      cases f.isCreditNote with
      | false => rfl
      | true =>
        simp [TemplateLiteral.render_toList,billingLiteral_chars,render_template,print_fill,print]
    | linesXml => exact linesXml_toList input.lineItems
    | _ => cases ht

theorem document_template : documentBody.isTemplate DocumentSlot.isText = true := by
  decide

set_option maxRecDepth 100000 in
theorem document_path : ∀ s : DocumentSlot, s.isText = true →
    documentBody.slotAt DocumentSlot.adds s.path = some s := by
  intro s hs
  cases s <;> first | decide | cases hs

theorem document_fragment :
    documentBody.contributorAt DocumentSlot.adds (invoicePath []) (cac "BillingReference") =
        some .billingReference ∧
      documentBody.contributorAt DocumentSlot.adds (invoicePath []) (cac "InvoiceLine") =
        some .linesXml := by
  decide

theorem billing_template : billingContent.isTemplate (fun _ => true) = true ∧
    billingContent.isSpaced (fun _ => true) = true := by decide

end Phase1

end Zatca
