import Zatca.Core.Schemas
import Zatca.Core.Templates
import Zatca.Library.KeyValue
set_option autoImplicit false

/-! The configuration of a certificate request: a template filled by replacing all occurrences of one
placeholder after another, and what a reader of the result finds. -/

namespace Zatca

/-- `text.replaceAll(pattern, replacement)` with a text as the pattern. -/
def replaceAll (text pattern replacement : String) : String :=
  String.ofList (Placeholder.substituteAll pattern.toList replacement.toList [] 0 text.toList)

structure CSRTemplateProps where
  production : Bool
  solution_name : String
  egs_model : String
  egs_serial_number : String
  vat_number : String
  branch_location : String
  branch_industry : String
  taxpayer_provided_id : String
  branch_name : String
  taxpayer_name : String

def csrTemplate : String := "oid_section = OIDs

[OIDs]
certificateTemplateName = 1.3.6.1.4.1.311.20.2

[req]
prompt = no
distinguished_name = dn
req_extensions = v3_req
emailAddress = placeholder@email.com

[dn]
C = SA
O = SET_TAXPAYER_NAME
OU = SET_BRANCH_NAME
CN = SET_COMMON_NAME

[v3_req]
certificateTemplateName = ASN1:PRINTABLESTRING:SET_PRODUCTION_VALUE
subjectAltName = dirName:alt_names
basicConstraints=CA:FALSE
keyUsage = digitalSignature, nonRepudiation, keyEncipherment

[alt_names]
SN = SET_EGS_SERIAL_NUMBER
UID = SET_VAT_REGISTRATION_NUMBER
title = 1100
registeredAddress = SET_BRANCH_LOCATION
businessCategory = SET_BRANCH_INDUSTRY"

/-- The placeholders, in the order in which they are replaced. -/
inductive CsrSlot where
  | productionValue
  | egsSerialNumber
  | vatRegistrationNumber
  | branchLocation
  | branchIndustry
  | commonName
  | branchName
  | taxpayerName
  deriving DecidableEq

def csrSlots : List CsrSlot := [.productionValue,.egsSerialNumber,.vatRegistrationNumber,
  .branchLocation,.branchIndustry,.commonName,.branchName,.taxpayerName]

def CsrSlot.placeholder : CsrSlot → String
  | .productionValue => "SET_PRODUCTION_VALUE"
  | .egsSerialNumber => "SET_EGS_SERIAL_NUMBER"
  | .vatRegistrationNumber => "SET_VAT_REGISTRATION_NUMBER"
  | .branchLocation => "SET_BRANCH_LOCATION"
  | .branchIndustry => "SET_BRANCH_INDUSTRY"
  | .commonName => "SET_COMMON_NAME"
  | .branchName => "SET_BRANCH_NAME"
  | .taxpayerName => "SET_TAXPAYER_NAME"

def CSRTemplateProps.value (props : CSRTemplateProps) : CsrSlot → String
  | .productionValue => if props.production then "ZATCA-Code-Signing" else "PREZATCA-Code-Signing"
  | .egsSerialNumber =>
    "1-" ++ props.solution_name ++ "|2-" ++ props.egs_model ++ "|3-" ++ props.egs_serial_number
  | .vatRegistrationNumber => props.vat_number
  | .branchLocation => props.branch_location
  | .branchIndustry => props.branch_industry
  | .commonName => props.taxpayer_provided_id
  | .branchName => props.branch_name
  | .taxpayerName => props.taxpayer_name

def generateCSRTemplate (props : CSRTemplateProps) : String :=
  csrSlots.foldl (fun text s => replaceAll text s.placeholder (props.value s)) csrTemplate

/-- What `generateCSR` fills the template with, for a unit as `toCsrEgsInfo` renames it. -/
def csrTemplateProps (egsInfo : EGSUnitInfo) (production : Bool) (solutionName : String) :
    CSRTemplateProps where
  production := production
  solution_name := solutionName
  egs_model := egsInfo.model
  egs_serial_number := egsInfo.customId
  vat_number := egsInfo.vatNumber
  branch_location :=
    egsInfo.location.building ++ " " ++ egsInfo.location.street ++ ", " ++ egsInfo.location.cityName
  branch_industry := egsInfo.branchIndustry
  branch_name := egsInfo.branchName
  taxpayer_name := egsInfo.vatName
  taxpayer_provided_id := egsInfo.customId

/-! ### The configuration that is meant -/

open KeyValue (Item)

def entry (key value : String) : Item := .entry key.toList value.toList

/-- The sections and keys of the template in their order, each value as it stands or from its own
field. -/
def configuration (props : CSRTemplateProps) : List Item :=
  [entry "oid_section" "OIDs",
    .head "OIDs".toList,
    entry "certificateTemplateName" "1.3.6.1.4.1.311.20.2",
    .head "req".toList,
    entry "prompt" "no",
    entry "distinguished_name" "dn",
    entry "req_extensions" "v3_req",
    entry "emailAddress" "placeholder@email.com",
    .head "dn".toList,
    entry "C" "SA",
    entry "O" props.taxpayer_name,
    entry "OU" props.branch_name,
    entry "CN" props.taxpayer_provided_id,
    .head "v3_req".toList,
    entry "certificateTemplateName" ("ASN1:PRINTABLESTRING:" ++ props.value .productionValue),
    entry "subjectAltName" "dirName:alt_names",
    entry "basicConstraints" "CA:FALSE",
    entry "keyUsage" "digitalSignature, nonRepudiation, keyEncipherment",
    .head "alt_names".toList,
    entry "SN" (props.value .egsSerialNumber),
    entry "UID" props.vat_number,
    entry "title" "1100",
    entry "registeredAddress" props.branch_location,
    entry "businessCategory" props.branch_industry]

/-- A reader of the text finds exactly these. -/
def ReadsBack (props : CSRTemplateProps) : Prop :=
  KeyValue.read (generateCSRTemplate props).toList = some (configuration props)

/-- What the schema of the unit asks of the fields, and a solution name that is not empty. -/
def CSRTemplateProps.accepted (props : CSRTemplateProps) : Bool :=
  [props.solution_name,props.egs_model,props.egs_serial_number,props.branch_location,
    props.branch_industry,props.taxpayer_provided_id,props.branch_name,
    props.taxpayer_name].all (fun s => nonemptyText (some (.str s))) &&
    vatNumberSchema (some (.str props.vat_number))

/-! ### The template line by line -/

inductive CsrLine where
  | fixed (text : String) (items : List Item)
  | field (key lead : String) (s : CsrSlot)

def csrLines : List CsrLine :=
  [.fixed "oid_section = OIDs" [entry "oid_section" "OIDs"],
    .fixed "" [],
    .fixed "[OIDs]" [.head "OIDs".toList],
    .fixed "certificateTemplateName = 1.3.6.1.4.1.311.20.2"
      [entry "certificateTemplateName" "1.3.6.1.4.1.311.20.2"],
    .fixed "" [],
    .fixed "[req]" [.head "req".toList],
    .fixed "prompt = no" [entry "prompt" "no"],
    .fixed "distinguished_name = dn" [entry "distinguished_name" "dn"],
    .fixed "req_extensions = v3_req" [entry "req_extensions" "v3_req"],
    .fixed "emailAddress = placeholder@email.com" [entry "emailAddress" "placeholder@email.com"],
    .fixed "" [],
    .fixed "[dn]" [.head "dn".toList],
    .fixed "C = SA" [entry "C" "SA"],
    .field "O" "" .taxpayerName,
    .field "OU" "" .branchName,
    .field "CN" "" .commonName,
    .fixed "" [],
    .fixed "[v3_req]" [.head "v3_req".toList],
    .field "certificateTemplateName" "ASN1:PRINTABLESTRING:" .productionValue,
    .fixed "subjectAltName = dirName:alt_names" [entry "subjectAltName" "dirName:alt_names"],
    .fixed "basicConstraints=CA:FALSE" [entry "basicConstraints" "CA:FALSE"],
    .fixed "keyUsage = digitalSignature, nonRepudiation, keyEncipherment"
      [entry "keyUsage" "digitalSignature, nonRepudiation, keyEncipherment"],
    .fixed "" [],
    .fixed "[alt_names]" [.head "alt_names".toList],
    .field "SN" "" .egsSerialNumber,
    .field "UID" "" .vatRegistrationNumber,
    .fixed "title = 1100" [entry "title" "1100"],
    .field "registeredAddress" "" .branchLocation,
    .field "businessCategory" "" .branchIndustry]

namespace CsrLine

/-- What stands before the value. -/
def start (key lead : String) : List Char := key.toList ++ ' ' :: '=' :: ' ' :: lead.toList

def render (f : CsrSlot → List Char) : CsrLine → List Char
  | fixed text _ => text.toList
  | field key lead s => start key lead ++ f s

def items (f : CsrSlot → List Char) : CsrLine → List Item
  | fixed _ items => items
  | field key lead s => [.entry key.toList (lead.toList ++ f s)]

/-- The start of every placeholder. -/
def mark : List Char := ['S','E','T','_']

/-- The fixed text is one line that reads as its items, holds no placeholder and keeps a value apart
from what stands before it. -/
def isApart : CsrLine → Bool
  | fixed text items => KeyValue.readLine text.toList == some items && !text.toList.contains '\n' &&
    !decide (mark <:+: text.toList)
  | field key lead _ => KeyValue.isKey key.toList && !lead.toList.contains '\n' &&
    lead.toList.all (fun c => !KeyValue.isSpace c) && !decide (mark <:+: start key lead) &&
    (start key lead).getLast?.all fun c => !c.isUpper && c != '_'

end CsrLine

def csrText (f : CsrSlot → List Char) : List Char :=
  ['\n'].intercalate (csrLines.map (CsrLine.render f))

def CsrSlot.token (s : CsrSlot) : List Char := s.placeholder.toList

set_option maxRecDepth 100000 in
theorem csrTemplate_toList : csrTemplate.toList = csrText CsrSlot.token := by
  have h : csrTemplate.toList = _ := String.toList_ofList
  rw [h]
  decide +kernel

theorem csrLines_apart : ∀ l ∈ csrLines, l.isApart = true := by decide +kernel

theorem csrLines_items (props : CSRTemplateProps) :
    csrLines.flatMap (CsrLine.items fun s => (props.value s).toList) = configuration props := by
  have hempty : "".toList = [] := String.toList_ofList
  simp only [csrLines,List.flatMap_cons,List.flatMap_nil,CsrLine.items,configuration,entry,hempty,
    String.toList_append,List.cons_append,List.nil_append,-String.reduceToList]
  rfl

/-! ### Replacing in the lines -/

theorem mark_infix_token (s : CsrSlot) : CsrLine.mark <:+: s.token := by
  cases s <;> decide

theorem token_ne_nil (s : CsrSlot) : s.token ≠ [] := by
  cases s <;> decide

theorem newline_notMem_token (s : CsrSlot) : '\n' ∉ s.token := by
  cases s <;> decide

theorem token_letters (s : CsrSlot) : ∀ c ∈ s.token, (!c.isUpper && c != '_') = false := by
  cases s <;> exact forall_mem_of_all (by decide)

/-- No placeholder is part of another. -/
theorem token_notInfix {s u : CsrSlot} (h : s ≠ u) : ¬ s.token <:+: u.token := by
  cases s <;> cases u <;> first | exact absurd rfl h | decide

theorem csrSlots_nodup : csrSlots.Nodup := by decide

theorem mem_csrSlots (s : CsrSlot) : s ∈ csrSlots := by
  cases s <;> decide

/-- Replacing a placeholder in the text replaces it in the values and nowhere else. -/
theorem replaceAll_csrText (s : CsrSlot) (replacement : List Char) (f : CsrSlot → List Char) :
    Placeholder.replaceAll s.token replacement 0 (csrText f) =
      csrText fun u => Placeholder.replaceAll s.token replacement 0 (f u) := by
  rw [csrText,Placeholder.replaceAll_intercalate replacement (token_ne_nil s)
    (newline_notMem_token s),List.map_map,csrText]
  congr 1
  refine List.map_congr_left fun l hl => ?_
  have hapart := csrLines_apart l hl
  have hfree : ∀ {cs}, ¬ CsrLine.mark <:+: cs → ¬ s.token <:+: cs := fun h hs =>
    h ((mark_infix_token s).trans hs)
  cases l with
  | fixed text items =>
    simp only [CsrLine.isApart,Bool.and_eq_true,Bool.not_eq_true',decide_eq_false_iff_not] at hapart
    exact Placeholder.replaceAll_of_notInfix replacement (hfree hapart.2)
  | field key lead u =>
    simp only [CsrLine.isApart,Bool.and_eq_true,Bool.not_eq_true',decide_eq_false_iff_not,
      Option.all_eq_true] at hapart
    have hedge : ∀ c ∈ (CsrLine.start key lead).getLast?, c ∉ s.token := by
      intro c hc hm
      have h := token_letters s c hm
      have hlast := hapart.2 c hc
      simp [hlast.1,hlast.2] at h
    exact Placeholder.replaceAll_skip replacement (hfree hapart.1.2) hedge

/-! ### One placeholder after another -/

/-- The values are where they belong and can be read: each stands on one line, has no replacement
pattern and none of the placeholders that are replaced after its own. -/
structure Untouched (props : CSRTemplateProps) : Prop where
  oneLine : ∀ s, KeyValue.OneLine (props.value s).toList
  noPattern : ∀ s, Placeholder.NoPattern (props.value s).toList
  noPlaceholder : ∀ s u, [s,u].Sublist csrSlots → ¬ u.token <:+: (props.value s).toList

/-- What the replacements in a list leave of a value. -/
def replaceEachOf (props : CSRTemplateProps) (slots : List CsrSlot) (cs : List Char) : List Char :=
  slots.foldl (fun cs s => Placeholder.replaceAll s.token (props.value s).toList 0 cs) cs

theorem toList_generateCSRTemplate {props : CSRTemplateProps}
    (h : ∀ s, Placeholder.NoPattern (props.value s).toList) :
    (generateCSRTemplate props).toList =
      csrText fun s => replaceEachOf props csrSlots s.token := by
  have hfold : ∀ slots text f, text.toList = csrText f →
      (slots.foldl (fun text s => replaceAll text s.placeholder (props.value s)) text).toList =
        csrText fun s => replaceEachOf props slots (f s) := by
    intro slots
    induction slots with
    | nil =>
      intro text f hf
      exact hf
    | cons s slots ih =>
      intro text f hf
      rw [List.foldl_cons]
      refine ih _ (fun u => Placeholder.replaceAll s.token (props.value s).toList 0 (f u)) ?_
      rw [replaceAll,String.toList_ofList,Placeholder.substituteAll_of_noPattern (h s),hf]
      exact replaceAll_csrText s _ f
  exact hfold csrSlots csrTemplate CsrSlot.token csrTemplate_toList

theorem replaceEachOf_of_notInfix (props : CSRTemplateProps) {slots : List CsrSlot}
    {cs : List Char} (h : ∀ s ∈ slots, ¬ s.token <:+: cs) : replaceEachOf props slots cs = cs := by
  induction slots with
  | nil => rfl
  | cons s slots ih =>
    obtain ⟨hs,hslots⟩ := List.forall_mem_cons.1 h
    rw [replaceEachOf,List.foldl_cons,Placeholder.replaceAll_of_notInfix _ hs]
    exact ih hslots

/-- Each placeholder ends as its own value. -/
theorem replaceEachOf_token {props : CSRTemplateProps} (h : Untouched props) (s : CsrSlot) :
    replaceEachOf props csrSlots s.token = (props.value s).toList := by
  obtain ⟨before,after,hsplit⟩ := List.append_of_mem (mem_csrSlots s)
  have hnodup := csrSlots_nodup
  rw [hsplit] at hnodup
  have hbefore : ∀ u ∈ before, ¬ u.token <:+: s.token := by
    intro u hu
    refine token_notInfix ?_
    intro he
    exact (List.nodup_append.1 hnodup).2.2 u hu s List.mem_cons_self he
  have hafter : ∀ u ∈ after, ¬ u.token <:+: (props.value s).toList := by
    intro u hu
    refine h.noPlaceholder s u ?_
    rw [hsplit]
    exact ((List.singleton_sublist.2 hu).cons_cons s).trans (List.sublist_append_right before _)
  have hrun : replaceEachOf props csrSlots s.token = replaceEachOf props after
      (Placeholder.replaceAll s.token (props.value s).toList 0
        (replaceEachOf props before s.token)) := by
    rw [hsplit,replaceEachOf,List.foldl_append,List.foldl_cons]
    rfl
  rw [hrun,replaceEachOf_of_notInfix props hbefore,
    Placeholder.replaceAll_self _ (token_ne_nil s),replaceEachOf_of_notInfix props hafter]

/-! ### Reading the result -/

theorem readLine_render {l : CsrLine} (hl : l ∈ csrLines) {f : CsrSlot → List Char}
    (hf : ∀ s, KeyValue.OneLine (f s)) :
    KeyValue.readLine (l.render f) = some (l.items f) ∧ '\n' ∉ l.render f := by
  have hapart := csrLines_apart l hl
  cases l with
  | fixed text items =>
    simp only [CsrLine.isApart,Bool.and_eq_true,Bool.not_eq_true',beq_iff_eq,
      List.contains_eq_mem,decide_eq_false_iff_not] at hapart
    exact hapart.1
  | field key lead s =>
    simp only [CsrLine.isApart,Bool.and_eq_true,Bool.not_eq_true',decide_eq_false_iff_not,
      List.contains_eq_mem,List.all_eq_true] at hapart
    obtain ⟨⟨⟨⟨hkey,hlead⟩,hsolid⟩,-⟩,-⟩ := hapart
    have hvalue : KeyValue.OneLine (lead.toList ++ f s) := (hf s).append_left hsolid hlead
    have hline : CsrLine.render f (.field key lead s) =
        key.toList ++ ' ' :: '=' :: ' ' :: (lead.toList ++ f s) := by
      simp [CsrLine.render,CsrLine.start]
    rw [hline]
    refine ⟨KeyValue.readLine_entry hkey hvalue.trimmed,?_⟩
    have hkeyLine := KeyValue.newline_notMem_of_isKey hkey
    have hvalueLine := hvalue.newline
    simp only [List.mem_append,List.mem_cons,not_or] at hvalueLine ⊢
    exact ⟨hkeyLine,by decide,by decide,by decide,hvalueLine⟩

theorem readsBack_of_untouched {props : CSRTemplateProps} (h : Untouched props) :
    ReadsBack props := by
  have hvalues : (fun s : CsrSlot => replaceEachOf props csrSlots s.token) =
      fun s => (props.value s).toList := funext (replaceEachOf_token h)
  have hlines : ∀ l ∈ csrLines, KeyValue.readLine (l.render fun s => (props.value s).toList) =
      some (l.items fun s => (props.value s).toList) := fun l hl => (readLine_render hl h.oneLine).1
  have hnewline : ∀ l ∈ csrLines.map (CsrLine.render fun s => (props.value s).toList), '\n' ∉ l := by
    intro l hl
    obtain ⟨line,hline,rfl⟩ := List.mem_map.1 hl
    exact (readLine_render hline h.oneLine).2
  rw [ReadsBack,toList_generateCSRTemplate h.noPattern,hvalues,csrText,
    KeyValue.read_intercalate (by simp [csrLines]) hnewline,KeyValue.readLines_map hlines,
    csrLines_items]

theorem oneLine_of_readsBack {props : CSRTemplateProps} (h : ReadsBack props) (s : CsrSlot) :
    KeyValue.OneLine (props.value s).toList := by
  have hvalue : ∀ key, entry key (props.value s) ∈ configuration props →
      KeyValue.OneLine (props.value s).toList := fun key hm => KeyValue.oneLine_of_read h hm
  cases s with
  | productionValue =>
    simp only [CSRTemplateProps.value]
    cases props.production <;> exact .of_trim (by decide) (by decide)
  | egsSerialNumber => exact hvalue "SN" (by simp [configuration])
  | vatRegistrationNumber => exact hvalue "UID" (by simp [configuration,CSRTemplateProps.value])
  | branchLocation =>
    exact hvalue "registeredAddress" (by simp [configuration,CSRTemplateProps.value])
  | branchIndustry =>
    exact hvalue "businessCategory" (by simp [configuration,CSRTemplateProps.value])
  | commonName => exact hvalue "CN" (by simp [configuration,CSRTemplateProps.value])
  | branchName => exact hvalue "OU" (by simp [configuration,CSRTemplateProps.value])
  | taxpayerName => exact hvalue "O" (by simp [configuration,CSRTemplateProps.value])

def plainUnit : EGSUnitInfo where
  uuid := "6f4d20e0-6bfe-4a80-9389-7dabe6620f12"
  customId := "7"
  model := "M1"
  crnNumber := "1010010000"
  vatName := "Acme"
  vatNumber := "300000000000003"
  branchName := "Main"
  branchIndustry := "Food"
  location := ⟨"B","C","A","2","1","12345"⟩

def plainProps : CSRTemplateProps := csrTemplateProps plainUnit false "Till"

theorem noPlaceholder_of_notMem {s : CsrSlot} {cs : List Char} (h : '_' ∉ cs) :
    ¬ s.token <:+: cs := fun hs =>
  h (hs.subset ((mark_infix_token s).subset (by decide)))

end Zatca
