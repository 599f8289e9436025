import Zatca.Core.Dispatch
import Zatca.Core.NumberLength
import Zatca.Core.TemplateFilling
import Zatca.Core.Timestamps
set_option autoImplicit false
namespace Zatca

/-! How long the fields of a code get. -/

/-- What the builders leave under `#text` of an amount: the text of one of the two formatters, or
the number itself. -/
inductive AmountText : Json → Prop where
  | fixed (value : JsNumber) : AmountText (.str (value.toFixed 2))
  | cut (value : JsNumber) : AmountText (.str (value.toFixedNoRounding 2))
  | number (value : JsNumber) : AmountText value.toJson

/-- An amount with its currency. -/
def IsAmount (node : Json) : Prop := ∃ text, node.field "#text" = some text ∧ AmountText text

/-- The parsed document of an input. What the template and the parser make of the seller's name is
left open: it is `name`. -/
structure DocumentOf (invoice : XMLDocument) (input : Json) (name : String) : Prop where
  name : invoice.get supplierNamePath = some [.str name]
  vatNumber : ∃ egsInfo vatNumber, input.field "egsInfo" = some egsInfo ∧
    egsInfo.field "vatNumber" = some (.str vatNumber) ∧ invoice.get VAT_PATH = some [.str vatNumber]
  issue : ∃ issueDate issueTime, input.field "issueDate" = some (.str issueDate) ∧
    input.field "issueTime" = some (.str issueTime) ∧
    CarriesIssue invoice issueDate (ensureZatcaTimeZ issueTime)
  total : ∃ node nodes, invoice.get taxInclusiveAmountPath = some (node :: nodes) ∧ IsAmount node
  tax : ∃ taxTotal taxTotals node,
    invoice.get ["Invoice","cac:TaxTotal"] = some (taxTotal :: taxTotals) ∧
      taxTotal.field "cbc:TaxAmount" = some node ∧ IsAmount node

/-- Neither generator raises the `RangeError` of the encoder. -/
def CapUnreached (params : Phase2QRParams) : Prop :=
  ∀ tagNumber byteLength,
    generatePhase1QR params.invoice ≠ .error (exceedsLengthCap tagNumber byteLength) ∧
    generatePhase2QR params ≠ .error (exceedsLengthCap tagNumber byteLength)

/-! ### Bytes -/

theorem length_utf8_ofList (cs : List Char) :
    (utf8 (String.ofList cs)).length = (cs.map Char.utf8Size).sum := by
  simp [utf8,List.utf8Encode,List.length_flatMap]

theorem length_utf8_le (s : String) : (utf8 s).length ≤ 4 * s.length := by
  rw [← String.ofList_toList (s := s),length_utf8_ofList,String.length_ofList]
  generalize s.toList = cs
  induction cs with
  | nil => simp
  | cons c cs ih =>
    have hc := c.utf8Size_le_four
    simp only [List.map_cons,List.sum_cons,List.length_cons]
    omega

theorem length_utf8_replicate (n : ℕ) (c : Char) :
    (utf8 (String.ofList (List.replicate n c))).length = n * c.utf8Size := by
  rw [length_utf8_ofList,List.map_replicate,List.sum_replicate_nat]

/-- Sixty characters fit whatever script they are of. -/
theorem fits_of_length {s : String} (h : s.length ≤ 60) : (TLVValue.string s).bytes.length ≤ 255 := by
  have hbytes := length_utf8_le s
  simp only [TLVValue.bytes]
  omega

theorem length_of_shaped {shape value : String} (h : shaped shape value = true) :
    value.length = shape.length := by
  simp only [shaped,Bool.and_eq_true,decide_eq_true_eq] at h
  exact h.1

theorem length_vatNumber {value : String} (h : isVATNumber value = true) : value.length = 15 := by
  simp only [isVATNumber,Bool.and_eq_true,decide_eq_true_eq] at h
  exact h.1.1.1

/-! ### The fields -/

variable {invoice : XMLDocument} {input : Json} {name : String}

theorem AmountText.asString {text : Json} (h : AmountText text) :
    ∃ s, text.asString = .ok s ∧ s.length ≤ 50 := by
  cases h with
  | fixed value => exact ⟨_,by rw [Json.asString],value.length_toFixed_le⟩
  | cut value => exact ⟨_,by rw [Json.asString],value.length_toFixedNoRounding_le⟩
  | number value =>
    refine ⟨value.toString,?_,value.length_toString_le⟩
    cases value <;> simp [JsNumber.toJson,JsNumber.toString,Json.asString]

theorem AmountText.ne_null {text : Json} (h : AmountText text) : text ≠ .null := by
  cases h with
  | fixed value => simp
  | cut value => simp
  | number value => cases value <;> simp [JsNumber.toJson]

theorem IsAmount.optionalMember {node : Json} (h : IsAmount node) : ∃ text s,
    Json.optionalMember (some node) "#text" = some text ∧ text.asString = .ok s ∧ s.length ≤ 50 := by
  obtain ⟨text,hfield,htext⟩ := h
  obtain ⟨s,hs,hlen⟩ := htext.asString
  refine ⟨text,s,?_,hs,hlen⟩
  simp [Json.optionalMember,hfield,htext.ne_null]

theorem member_of_field {value found : Json} {name : String} (h : value.field name = some found) :
    value.member name = .ok (some found) := by
  cases value with
  | null => cases h
  | _ => simp [Json.member,h]

theorem DocumentOf.readTotal (h : DocumentOf invoice input name) : ∃ s,
    Phase2QR.readAmountText invoice taxInclusiveAmountPath "TaxInclusiveAmount" = .ok s ∧
      s.length ≤ 50 := by
  obtain ⟨node,nodes,hget,hamount⟩ := h.total
  obtain ⟨text,s,hmember,hs,hlen⟩ := hamount.optionalMember
  refine ⟨s,?_,hlen⟩
  simp only [Phase2QR.readAmountText,hget,hmember,hs]

theorem DocumentOf.readTax (h : DocumentOf invoice input name) : ∃ s,
    Phase1QR.readVatTotal invoice = .ok s ∧ s.length ≤ 50 := by
  obtain ⟨taxTotal,taxTotals,node,hget,hfield,hamount⟩ := h.tax
  obtain ⟨text,s,hmember,hs,hlen⟩ := hamount.optionalMember
  refine ⟨s,?_,hlen⟩
  simp only [Phase1QR.readVatTotal,hget,member_of_field hfield,bind,Except.bind,hmember,hs]

section valid
variable {kind : InvoiceKind} (hvalid : variant kind (some input))
include hvalid

theorem issue_shaped {issueDate issueTime : String}
    (hdate : input.field "issueDate" = some (.str issueDate))
    (htime : input.field "issueTime" = some (.str issueTime)) :
    shaped "dddd-dd-dd" issueDate = true ∧ shaped "dd:dd:ddZ" (ensureZatcaTimeZ issueTime) = true := by
  have hd : issueDateSchema (input.field "issueDate") :=
    object_field hvalid (by simp [invoiceCommonShape])
  have ht : issueTimeSchema (input.field "issueTime") :=
    object_field hvalid (by simp [invoiceCommonShape])
  rw [hdate] at hd
  rw [htime] at ht
  exact ⟨by simpa [issueDateSchema,Schema.string] using hd,shaped_ensureZatcaTimeZ ht⟩

theorem isVATNumber_of_variant {egsInfo : Json} {vatNumber : String}
    (hegs : input.field "egsInfo" = some egsInfo)
    (hvat : egsInfo.field "vatNumber" = some (.str vatNumber)) : isVATNumber vatNumber = true := by
  have he : egsUnitInfoSchema (input.field "egsInfo") :=
    object_field hvalid (by simp [invoiceCommonShape])
  rw [hegs] at he
  have hv : vatNumberSchema (egsInfo.field "vatNumber") := object_field he (by simp)
  rw [hvat] at hv
  simpa [vatNumberSchema,Schema.string] using hv

/-- What the code says of the time of an accepted input. -/
theorem DocumentOf.readIssue (h : DocumentOf invoice input name) : ∃ s,
    Phase2QR.readIssueTimestamp invoice = .ok s ∧ s.length ≤ 50 := by
  obtain ⟨issueDate,issueTime,hdate,htime,hcarries⟩ := h.issue
  obtain ⟨hd,ht⟩ := issue_shaped hvalid hdate htime
  refine ⟨_,readIssueTimestamp_eq_text hcarries ht,?_⟩
  rw [String.length_append,String.length_append,length_of_shaped hd,length_of_shaped ht]
  decide

theorem DocumentOf.readVatNumber (h : DocumentOf invoice input name) : ∃ s,
    Phase2QR.readLeaf invoice VAT_PATH "VAT number" = .ok s ∧ s.length ≤ 50 := by
  obtain ⟨egsInfo,vatNumber,hegs,hfield,hget⟩ := h.vatNumber
  refine ⟨vatNumber,readLeaf_text hget,?_⟩
  rw [length_vatNumber (isVATNumber_of_variant hvalid hegs hfield)]
  decide

/-- Of the five fields the last four fit. -/
theorem DocumentOf.documentFields (h : DocumentOf invoice input name) : ∃ fields,
    documentFields invoice = .ok (.string name :: fields) ∧ Short fields := by
  obtain ⟨vatNumber,hvat,hvatLen⟩ := h.readVatNumber hvalid
  obtain ⟨timestamp,hissue,hissueLen⟩ := h.readIssue hvalid
  obtain ⟨total,htotal,htotalLen⟩ := h.readTotal
  obtain ⟨tax,htax,htaxLen⟩ := h.readTax
  have hname : Phase2QR.readLeaf invoice supplierNamePath "Seller name" = .ok name :=
    readLeaf_text h.name
  refine ⟨[.string vatNumber,.string timestamp,.string total,.string tax],?_,?_⟩
  · simp only [Zatca.documentFields,hname,hvat,hissue,htotal,htax,bind,Except.bind,pure,Except.pure]
  · intro v hv
    simp only [List.mem_cons,List.not_mem_nil,or_false] at hv
    rcases hv with rfl | rfl | rfl | rfl
    · exact fits_of_length (by omega)
    · exact fits_of_length (by omega)
    · exact fits_of_length (by omega)
    · exact fits_of_length (by omega)

end valid

/-! ### The document of a carried input -/

open Xml

/-- The first element under every tag. -/
def elementPath (path : List String) : Path := path.map fun tag => (tag.toList,0)

/-- The texts that the codes read, with where they are read. -/
def codeTexts (input : InvoiceInput) : List (List String × String) :=
  [(supplierNamePath,input.egsInfo.vatName),(VAT_PATH,input.egsInfo.vatNumber),
    (issueDatePath,input.issueDate),(issueTimePath,input.issueTime)]

/-- The wrapper has under the paths of the codes what the parser read there. -/
def Wraps (invoice : XMLDocument) (es : Elements) : Prop :=
  ∀ path ∈ [supplierNamePath,VAT_PATH,issueDatePath,issueTimePath], ∀ text,
    es.textAt (elementPath path) = some text → invoice.get path = some [.str (String.ofList text)]

theorem ensureZatcaTimeZ_idem (time : String) :
    ensureZatcaTimeZ (ensureZatcaTimeZ time) = ensureZatcaTimeZ time := by
  have hlast : (ensureZatcaTimeZ time).toList.getLast? = some 'Z' := by
    unfold ensureZatcaTimeZ
    split
    · assumption
    · simp
  rw [ensureZatcaTimeZ,if_pos hlast]

/-- The codes read where the templates write. -/
theorem elementPath_codeTexts : elementPath supplierNamePath = Slot.path .vatName ∧
    elementPath VAT_PATH = Slot.path .vatNumber ∧ elementPath issueDatePath = Slot.path .issueDate ∧
      elementPath issueTimePath = Slot.path .issueTime := ⟨rfl,rfl,rfl,rfl⟩

theorem mem_ownElements (kind : InvoiceKind) {input : InvoiceInput}
    (htime : ensureZatcaTimeZ input.issueTime = input.issueTime) {path : List String} {value : String}
    (h : (path,value) ∈ codeTexts input) : (elementPath path,value) ∈ ownElements kind input := by
  obtain ⟨hname,hvat,hdate,htimePath⟩ := elementPath_codeTexts
  simp only [codeTexts,List.mem_cons,List.not_mem_nil,or_false,Prod.mk.injEq] at h
  cases hf : kind.phase1Form with
  | some f =>
    have hnew : (Phase1Builder.new input).input = input := by
      rw [Phase1Builder.new,htime]
    have hslot : ∀ s ∈ Phase1.documentSlots, (s.path,Phase1.documentValue f.typeCode
        (f.billingReference input) input s) ∈ ownElements kind input := by
      intro s hs
      simp only [ownElements,hf,hnew,Phase1.Form.ownElements]
      exact List.mem_append_left _ (List.mem_append_left _ (List.mem_map_of_mem hs))
    rcases h with ⟨rfl,rfl⟩ | ⟨rfl,rfl⟩ | ⟨rfl,rfl⟩ | ⟨rfl,rfl⟩
    · exact hname ▸ hslot .vatName (by simp [Phase1.documentSlots])
    · exact hvat ▸ hslot .vatNumber (by simp [Phase1.documentSlots])
    · exact hdate ▸ hslot .issueDate (by simp [Phase1.documentSlots])
    · exact htimePath ▸ hslot .issueTime (by simp [Phase1.documentSlots])
  | none =>
    have hslot : ∀ s ∈ kind.form.places, s.isText = true →
        (s.path,s.value input kind.form.fallback) ∈ ownElements kind input := by
      intro s hs ht
      simp only [ownElements,hf,Form.ownElements]
      exact List.mem_append_left _ (List.mem_append_left _
        (List.mem_map_of_mem (List.mem_filter.2 ⟨hs,ht⟩)))
    rcases h with ⟨rfl,rfl⟩ | ⟨rfl,rfl⟩ | ⟨rfl,rfl⟩ | ⟨rfl,rfl⟩
    · exact hname ▸ hslot .vatName (by simp [Form.places]) rfl
    · exact hvat ▸ hslot .vatNumber (by simp [Form.places]) rfl
    · exact hdate ▸ hslot .issueDate (by simp [Form.places]) rfl
    · exact htimePath ▸ hslot .issueTime (by simp [Form.places]) rfl

theorem trimChars_of_forall {cs : List Char} (h : ∀ c ∈ cs, isJsSpace c = false) :
    trimChars cs = cs := trimChars_of_trimmed (.of_forall h)

theorem isJsSpace_of_isDigit {c : Char} (h : c.isDigit = true) : isJsSpace c = false := by
  simp only [Char.isDigit,Bool.and_eq_true,decide_eq_true_eq] at h
  exact isJsSpace_of_bounds (charBounds_of_le (a := '0') (b := '9') (by decide) (by decide) h)

/-- A text of a shape without white space is not trimmed. -/
theorem trimChars_of_shaped {shape value : String} (h : shaped shape value = true)
    (hshape : ∀ p ∈ shape.toList, isJsSpace p = false) : trimChars value.toList = value.toList := by
  simp only [shaped,Bool.and_eq_true,decide_eq_true_eq,List.all_eq_true] at h
  have hsnd : (shape.toList.zip value.toList).map Prod.snd = value.toList :=
    List.map_snd_zip h.1.le
  refine trimChars_of_forall fun c hc => ?_
  rw [← hsnd] at hc
  obtain ⟨pair,hmem,rfl⟩ := List.mem_map.1 hc
  have hchar := h.2 _ hmem
  split at hchar
  · exact isJsSpace_of_isDigit hchar
  · rw [of_decide_eq_true hchar]
    exact hshape _ (List.of_mem_zip hmem).1

theorem trimChars_vatNumber {value : String} (h : isVATNumber value = true) :
    trimChars value.toList = value.toList := by
  simp only [isVATNumber,Bool.and_eq_true,decide_eq_true_eq,List.all_eq_true] at h
  exact trimChars_of_forall fun c hc => isJsSpace_of_isDigit (h.2 c hc)

/-- What is read of an input whose texts are carried. -/
theorem get_of_carries {parse : String → Option Elements}
    (hparse : Reads trimChars fun cs => parse (String.ofList cs)) {kind : InvoiceKind}
    {input : InvoiceInput} (hcarries : Carries kind input)
    (htime : ensureZatcaTimeZ input.issueTime = input.issueTime) {es : Elements}
    (hes : parse (producedXml kind input) = some es) (hwraps : Wraps invoice es) {path : List String}
    {value : String} (h : (path,value) ∈ codeTexts input) :
    invoice.get path = some [.str (trim value)] := by
  obtain rfl : es = (carriedDocument kind input).elements trimChars :=
    Option.some.inj (hes.symm.trans (parse_carried hparse hcarries))
  have hpath : path ∈ [supplierNamePath,VAT_PATH,issueDatePath,issueTimePath] := by
    simp only [codeTexts,List.mem_cons,List.not_mem_nil,or_false,Prod.mk.injEq] at h
    rcases h with ⟨rfl,-⟩ | ⟨rfl,-⟩ | ⟨rfl,-⟩ | ⟨rfl,-⟩ <;> simp
  exact hwraps path hpath _ (textAt_carried kind input _ (mem_ownElements kind htime h))

/-- What the constructors of all builders make of their input. -/
def InvoiceInput.normalized (input : InvoiceInput) : InvoiceInput :=
  { input with issueTime := ensureZatcaTimeZ input.issueTime }

@[simp] theorem codeTexts_normalized (input : InvoiceInput) : codeTexts input.normalized =
    [(supplierNamePath,input.egsInfo.vatName),(VAT_PATH,input.egsInfo.vatNumber),
      (issueDatePath,input.issueDate),(issueTimePath,ensureZatcaTimeZ input.issueTime)] := rfl

/-- From the template over the parser to the wrapper: of an accepted input whose texts are carried
the document has the seller's name without the blanks at its ends. -/
theorem documentOf_of_carries {parse : String → Option Elements}
    (hparse : Reads trimChars fun cs => parse (String.ofList cs)) {input : InvoiceInput}
    (hvalid : variant input.kind (some input.toJson))
    (hcarries : Carries input.kind input.normalized) {es : Elements}
    (hes : parse (producedXml input.kind input.normalized) = some es) (hwraps : Wraps invoice es)
    (htotal : ∃ node nodes,
      invoice.get taxInclusiveAmountPath = some (node :: nodes) ∧ IsAmount node)
    (htax : ∃ taxTotal taxTotals node,
      invoice.get ["Invoice","cac:TaxTotal"] = some (taxTotal :: taxTotals) ∧
        taxTotal.field "cbc:TaxAmount" = some node ∧ IsAmount node) :
    DocumentOf invoice input.toJson (trim input.egsInfo.vatName) := by
  have hdateField : input.toJson.field "issueDate" = some (.str input.issueDate) := by
    simp [InvoiceInput.toJson,businessFields,Json.field,List.lookup]
  have htimeField : input.toJson.field "issueTime" = some (.str input.issueTime) := by
    simp [InvoiceInput.toJson,businessFields,Json.field,List.lookup]
  have hegsField := input.field_egsInfo
  have hvatField : input.egsInfo.toJson.field "vatNumber" = some (.str input.egsInfo.vatNumber) := by
    simp [EGSUnitInfo.toJson,Json.field,List.lookup]
  obtain ⟨hdate,htime⟩ := issue_shaped hvalid hdateField htimeField
  have hvat := isVATNumber_of_variant hvalid hegsField hvatField
  have hidem : ensureZatcaTimeZ input.normalized.issueTime = input.normalized.issueTime :=
    ensureZatcaTimeZ_idem input.issueTime
  have hget : ∀ path value, (path,value) ∈ codeTexts input.normalized →
      invoice.get path = some [.str (trim value)] :=
    fun _ _ => get_of_carries hparse hcarries hidem hes hwraps
  have hkept : ∀ {value : String}, trimChars value.toList = value.toList → trim value = value := by
    intro value h
    rw [trim,h,String.ofList_toList]
  refine ⟨hget _ _ (by simp),?_,?_,htotal,htax⟩
  · refine ⟨_,_,hegsField,hvatField,?_⟩
    rw [hget _ input.egsInfo.vatNumber (by simp),
      hkept (trimChars_vatNumber hvat)]
  · refine ⟨_,_,hdateField,htimeField,?_,?_⟩
    · rw [hget _ input.issueDate (by simp),
        hkept (trimChars_of_shaped hdate (forall_mem_of_all (by decide)))]
    · rw [hget _ (ensureZatcaTimeZ input.issueTime) (by simp),
        hkept (trimChars_of_shaped htime (forall_mem_of_all (by decide)))]

/-! ### The cap -/

/-- A first value that is too long is the one that is named. -/
theorem encodeTLVAsBase64_first_long {v : TLVValue} (hlong : 255 < v.bytes.length)
    (values : List TLVValue) :
    encodeTLVAsBase64 (v :: values) = .error (exceedsLengthCap 1 v.bytes.length) := by
  have hpush : pushSegment ([],0) (v,0) = .error (exceedsLengthCap 1 v.bytes.length) := by
    simp only [pushSegment,if_pos (show v.bytes.length > 255 from hlong)]
    rfl
  simp only [encodeTLVAsBase64,createTLV,List.zipIdx_cons,List.foldlM_cons,hpush,bind,Except.bind]

theorem encodeTLVAsBase64_short {values : List TLVValue} (h : Short values) :
    ∃ qr, encodeTLVAsBase64 values = .ok qr := by
  obtain ⟨es,hes,-⟩ := createTLV_short h
  exact ⟨_,by rw [encodeTLVAsBase64,hes]; rfl⟩

/-- On an accepted input the cap is reached by the seller's name alone: only it is without a
maximum. -/
theorem capUnreached_iff {params : Phase2QRParams} (hvalid : SchemaValid input)
    (hdocument : DocumentOf params.invoice input name) (hcrypto : Short params.cryptographicFields) :
    CapUnreached params ↔ (utf8 name).length ≤ 255 := by
  obtain ⟨kind,hkind⟩ := hvalid
  obtain ⟨fields,hfields,hshort⟩ := hdocument.documentFields (inputSchema_variant hkind)
  have hphase1 : generatePhase1QR params.invoice = encodeTLVAsBase64 (.string name :: fields) := by
    rw [generatePhase1QR_eq,hfields]
    rfl
  have hphase2 : generatePhase2QR params =
      encodeTLVAsBase64 (.string name :: (fields ++ params.cryptographicFields)) := by
    rw [generatePhase2QR_eq,hfields]
    rfl
  rw [CapUnreached,hphase1,hphase2]
  constructor
  · intro hcap
    by_contra hlong
    exact (hcap 1 _).1 (encodeTLVAsBase64_first_long (v := .string name) (not_le.1 hlong) fields)
  · intro hname tagNumber byteLength
    have hall : Short (.string name :: (fields ++ params.cryptographicFields)) := by
      intro v hv
      simp only [List.mem_cons,List.mem_append] at hv
      rcases hv with rfl | hv | hv
      · exact hname
      · exact hshort v hv
      · exact hcrypto v hv
    have hfive : Short (.string name :: fields) := fun v hv =>
      hall v (List.cons_subset_cons _ (List.subset_append_left _ _) hv)
    obtain ⟨qr,hqr⟩ := encodeTLVAsBase64_short hfive
    obtain ⟨qr',hqr'⟩ := encodeTLVAsBase64_short hall
    rw [hqr,hqr']
    simp

namespace Sample

def soldBy (vatName : String) : InvoiceInput := { invoiceOf vatName with kind := .simplifiedTaxInvoice }

def vat : JsNumber := .finite 3 3 (isWritten_natCast (n := 3) (by decide))

def total : JsNumber := .finite 23 23 (isWritten_natCast (n := 23) (by decide))

/-- The document of the sale, and what its code is made of. -/
def codeOf (vatName : String) : Phase2QRParams where
  invoice := ⟨.obj [("Invoice",.obj [("cbc:IssueDate",.str "2026-05-13"),
    ("cbc:IssueTime",.str "12:00:00Z"),
    ("cac:AccountingSupplierParty",.obj [("cac:Party",.obj [
      ("cac:PartyTaxScheme",.obj [("cbc:CompanyID",.str "301234567890003")]),
      ("cac:PartyLegalEntity",.obj [("cbc:RegistrationName",.str vatName)])])]),
    ("cac:TaxTotal",.arr [.obj [("cbc:TaxAmount",sar (.str (vat.toFixedNoRounding 2)))]]),
    ("cac:LegalMonetaryTotal",.obj [("cbc:TaxInclusiveAmount",sar total.toJson)])])]⟩
  invoiceHash := "aGFzaA=="
  digitalSignature := "c2ln"
  publicKey := [4,1,2]
  certificateSignature := [48,3]

theorem issueTime_sale : ensureZatcaTimeZ sale.issueTime = "12:00:00Z" := by decide

theorem documentOf_codeOf (vatName : String) :
    DocumentOf (codeOf vatName).invoice (soldBy vatName).toJson vatName where
  name := rfl
  vatNumber := ⟨_,_,rfl,rfl,rfl⟩
  issue := ⟨_,_,rfl,rfl,rfl,congrArg (fun time => some [Json.str time]) issueTime_sale.symm⟩
  total := ⟨_,_,rfl,_,rfl,.number total⟩
  tax := ⟨_,_,_,rfl,rfl,_,rfl,.cut vat⟩

theorem short_codeOf (vatName : String) : Short (codeOf vatName).cryptographicFields := by
  change Short [.string "aGFzaA==",.uint8Array (utf8 "c2ln"),.uint8Array [4,1,2],.uint8Array [48,3]]
  unfold Short
  decide

/-- The letter takes two bytes. -/
def longName : String := String.ofList (List.replicate 128 'ع')

theorem length_longName : (utf8 longName).length = 256 := length_utf8_replicate 128 'ع'

end Sample

theorem capUnreached_of_short_name : SchemaValid (Sample.soldBy "Dokhna").toJson ∧
    CapUnreached (Sample.codeOf "Dokhna") := by
  have hvalid : SchemaValid (Sample.soldBy "Dokhna").toJson := ⟨.simplifiedTaxInvoice,by decide⟩
  exact ⟨hvalid,(capUnreached_iff hvalid (Sample.documentOf_codeOf "Dokhna")
    (Sample.short_codeOf "Dokhna")).2 (by decide)⟩

set_option maxRecDepth 10000 in
/-- A name of 128 Arabic letters is accepted and is too long for both codes. -/
theorem cap_reached_by_name : SchemaValid (Sample.soldBy Sample.longName).toJson ∧
    DocumentOf (Sample.codeOf Sample.longName).invoice (Sample.soldBy Sample.longName).toJson
      Sample.longName ∧
    Short (Sample.codeOf Sample.longName).cryptographicFields ∧
    generatePhase1QR (Sample.codeOf Sample.longName).invoice = .error (exceedsLengthCap 1 256) ∧
    generatePhase2QR (Sample.codeOf Sample.longName) = .error (exceedsLengthCap 1 256) := by
  have hvalid : inputSchema .simplifiedTaxInvoice (some (Sample.soldBy Sample.longName).toJson) := by
    decide
  have hdocument := Sample.documentOf_codeOf Sample.longName
  have hbytes : (TLVValue.string Sample.longName).bytes.length = 256 := Sample.length_longName
  obtain ⟨fields,hfields,-⟩ := hdocument.documentFields (inputSchema_variant hvalid)
  have hlong : 255 < (TLVValue.string Sample.longName).bytes.length := by
    rw [hbytes]
    decide
  have hcap := encodeTLVAsBase64_first_long hlong
  rw [hbytes] at hcap
  refine ⟨⟨_,hvalid⟩,hdocument,Sample.short_codeOf _,?_,?_⟩
  · rw [generatePhase1QR_eq,hfields]
    exact hcap fields
  · rw [generatePhase2QR_eq,hfields]
    exact hcap (fields ++ (Sample.codeOf Sample.longName).cryptographicFields)

end Zatca
