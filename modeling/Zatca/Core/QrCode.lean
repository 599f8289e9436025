import Zatca.Core.Tlv
import Zatca.Core.XmlQuery
set_option autoImplicit false
namespace Zatca
open TagLength

def supplierNamePath : List String :=
  ["Invoice","cac:AccountingSupplierParty","cac:Party","cac:PartyLegalEntity","cbc:RegistrationName"]

def VAT_PATH : List String :=
  ["Invoice","cac:AccountingSupplierParty","cac:Party","cac:PartyTaxScheme","cbc:CompanyID"]

def taxInclusiveAmountPath : List String := ["Invoice","cac:LegalMonetaryTotal","cbc:TaxInclusiveAmount"]

def missingField (label : String) (path : List String) : Thrown :=
  .zatcaSigningError ("Cannot generate QR: missing required invoice field " ++ label ++ " (path: " ++
    String.intercalate "/" path ++ ").")

def noText (label : String) (path : List String) : Thrown :=
  .zatcaSigningError ("Cannot generate QR: invoice field " ++ label ++ " has no #text value (path: " ++
    String.intercalate "/" path ++ ").")

def missingTaxTotal : Thrown :=
  .zatcaSigningError "Cannot generate QR: missing required invoice field TaxTotal."

def noTaxAmount : Thrown :=
  .zatcaSigningError "Cannot generate QR: TaxTotal has no cbc:TaxAmount/#text value."

/-- `s.replace(/^.*T/, "")`: the longest beginning of the first line that ends in `T`. -/
def dropThroughT (cs : List Char) : List Char :=
  let line := cs.takeWhile fun c => !isLineTerminator c
  if 'T' ∈ line then (line.reverse.takeWhile fun c => c != 'T').reverse ++ cs.drop line.length else cs

def endsWithZ (s : String) : Bool := s.toList.getLast? = some 'Z'

/-! ### Phase 1 -/

namespace Phase1QR

def readLeaf (invoice : XMLDocument) (path : List String) (label : String) : Except Thrown String :=
  match invoice.get path with
  | none | some [] => .error (missingField label path)
  | some (.str s :: _) => .ok s
  | some (first :: _) =>
    match first.field "#text" with
    | some text => text.asString
    | none => first.asString

def readAmountText (invoice : XMLDocument) (path : List String) (label : String) :
    Except Thrown String :=
  match invoice.get path with
  | none | some [] => .error (missingField label path)
  | some (node :: _) =>
    match Json.optionalMember (some node) "#text" with
    | none => .error (noText label path)
    | some text => text.asString

def readVatNumber (invoice : XMLDocument) : Except Thrown String := readLeaf invoice VAT_PATH "VAT number"

def readIssueTimestamp (invoice : XMLDocument) : Except Thrown String := do
  let issueDate ← readLeaf invoice ["Invoice","cbc:IssueDate"] "IssueDate"
  let issueTime ← readLeaf invoice ["Invoice","cbc:IssueTime"] "IssueTime"
  let timeWithZ := if endsWithZ issueTime then issueTime else issueTime ++ "Z"
  return issueDate ++ "T" ++ String.ofList (dropThroughT timeWithZ.toList)

def readVatTotal (invoice : XMLDocument) : Except Thrown String :=
  match invoice.get ["Invoice","cac:TaxTotal"] with
  | none | some [] => .error missingTaxTotal
  | some (first :: _) => do
    let taxAmount ← first.member "cbc:TaxAmount"
    match Json.optionalMember taxAmount "#text" with
    | none => throw noTaxAmount
    | some text => text.asString

end Phase1QR

def generatePhase1QR (invoice : XMLDocument) : Except Thrown String := do
  let sellerName ← Phase1QR.readLeaf invoice supplierNamePath "Seller name"
  let vatNumber ← Phase1QR.readVatNumber invoice
  let timestamp ← Phase1QR.readIssueTimestamp invoice
  let invoiceTotal ← Phase1QR.readAmountText invoice taxInclusiveAmountPath "TaxInclusiveAmount"
  let vatTotal ← Phase1QR.readVatTotal invoice
  encodeTLVAsBase64 [.string sellerName,.string vatNumber,.string timestamp,.string invoiceTotal,
    .string vatTotal]

/-! ### Phase 2 -/

structure Phase2QRParams where
  invoice : XMLDocument
  invoiceHash : String
  digitalSignature : String
  publicKey : List UInt8
  certificateSignature : List UInt8

namespace Phase2QR

def readLeaf (invoice : XMLDocument) (path : List String) (label : String) : Except Thrown String :=
  match invoice.get path with
  | none | some [] => .error (missingField label path)
  | some (.str s :: _) => .ok s
  | some (first :: _) =>
    match first.field "#text" with
    | some text => text.asString
    | none => first.asString

def readAmountText (invoice : XMLDocument) (path : List String) (label : String) :
    Except Thrown String :=
  match invoice.get path with
  | none | some [] => .error (missingField label path)
  | some (node :: _) =>
    match Json.optionalMember (some node) "#text" with
    | none => .error (noText label path)
    | some text => text.asString

def readIssueTimestamp (invoice : XMLDocument) : Except Thrown String := do
  let issueDate ← readLeaf invoice ["Invoice","cbc:IssueDate"] "IssueDate"
  let issueTime ← readLeaf invoice ["Invoice","cbc:IssueTime"] "IssueTime"
  let timeWithZ := if endsWithZ issueTime then issueTime else issueTime ++ "Z"
  return issueDate ++ "T" ++ String.ofList (dropThroughT timeWithZ.toList)

end Phase2QR

/-- The fields behind those of the document. The signature is the text of its base64 form. -/
def Phase2QRParams.cryptographicFields (params : Phase2QRParams) : List TLVValue :=
  [.string params.invoiceHash,.uint8Array (utf8 params.digitalSignature),.uint8Array params.publicKey,
    .uint8Array params.certificateSignature]

def generatePhase2QR (params : Phase2QRParams) : Except Thrown String := do
  let invoice := params.invoice
  let sellerName ← Phase2QR.readLeaf invoice supplierNamePath "Seller name"
  let vatNumber ← Phase2QR.readLeaf invoice VAT_PATH "VAT number"
  let timestamp ← Phase2QR.readIssueTimestamp invoice
  let invoiceTotal ← Phase2QR.readAmountText invoice taxInclusiveAmountPath "TaxInclusiveAmount"
  let vatTotal ← (match invoice.get ["Invoice","cac:TaxTotal"] with
    | none | some [] => .error missingTaxTotal
    | some (firstTaxTotal :: _) => do
      let taxAmount ← firstTaxTotal.member "cbc:TaxAmount"
      match Json.optionalMember taxAmount "#text" with
      | none => throw noTaxAmount
      | some taxAmountText => taxAmountText.asString)
  encodeTLVAsBase64 ([.string sellerName,.string vatNumber,.string timestamp,.string invoiceTotal,
    .string vatTotal] ++ params.cryptographicFields)

/-! ### One is the beginning of the other -/

/-- The five fields that both codes read from the document. -/
def documentFields (invoice : XMLDocument) : Except Thrown (List TLVValue) := do
  let sellerName ← Phase2QR.readLeaf invoice supplierNamePath "Seller name"
  let vatNumber ← Phase2QR.readLeaf invoice VAT_PATH "VAT number"
  let timestamp ← Phase2QR.readIssueTimestamp invoice
  let invoiceTotal ← Phase2QR.readAmountText invoice taxInclusiveAmountPath "TaxInclusiveAmount"
  let vatTotal ← Phase1QR.readVatTotal invoice
  return [.string sellerName,.string vatNumber,.string timestamp,.string invoiceTotal,.string vatTotal]

theorem readLeaf_eq (invoice : XMLDocument) (path : List String) (label : String) :
    Phase1QR.readLeaf invoice path label = Phase2QR.readLeaf invoice path label := rfl

theorem readAmountText_eq (invoice : XMLDocument) (path : List String) (label : String) :
    Phase1QR.readAmountText invoice path label = Phase2QR.readAmountText invoice path label := rfl

theorem readIssueTimestamp_eq (invoice : XMLDocument) :
    Phase1QR.readIssueTimestamp invoice = Phase2QR.readIssueTimestamp invoice := rfl

theorem generatePhase1QR_eq (invoice : XMLDocument) :
    generatePhase1QR invoice = (documentFields invoice).bind encodeTLVAsBase64 := by
  have heq : documentFields invoice >>= encodeTLVAsBase64 = generatePhase1QR invoice := by
    simp only [documentFields,generatePhase1QR,bind_assoc,pure_bind]
    rfl
  exact heq.symm

theorem generatePhase2QR_eq (params : Phase2QRParams) :
    generatePhase2QR params = (documentFields params.invoice).bind fun fields =>
      encodeTLVAsBase64 (fields ++ params.cryptographicFields) := by
  have heq : (documentFields params.invoice >>= fun fields =>
      encodeTLVAsBase64 (fields ++ params.cryptographicFields)) = generatePhase2QR params := by
    simp only [documentFields,generatePhase2QR,bind_assoc,pure_bind]
    rfl
  exact heq.symm

theorem length_documentFields {invoice : XMLDocument} {fields : List TLVValue}
    (h : documentFields invoice = .ok fields) : fields.length = 5 := by
  obtain ⟨sellerName,-,h⟩ := ok_of_bind h
  obtain ⟨vatNumber,-,h⟩ := ok_of_bind h
  obtain ⟨timestamp,-,h⟩ := ok_of_bind h
  obtain ⟨invoiceTotal,-,h⟩ := ok_of_bind h
  obtain ⟨vatTotal,-,h⟩ := ok_of_bind h
  cases h
  rfl

/-- The entries of a row are the first ones of a longer row. -/
theorem take_entries {es es' : List Entry} {values more : List TLVValue}
    (ht : es.map Entry.tag = (List.range' 1 values.length).map UInt8.ofNat)
    (hv : es.map Entry.value = values.map TLVValue.bytes)
    (ht' : es'.map Entry.tag = (List.range' 1 (values ++ more).length).map UInt8.ofNat)
    (hv' : es'.map Entry.value = (values ++ more).map TLVValue.bytes) :
    es'.take values.length = es := by
  have htags : (es'.take values.length).map Entry.tag = es.map Entry.tag := by
    rw [List.map_take,ht',ht,← List.map_take,List.length_append,
      List.take_range'_of_length_ge (Nat.le_add_right _ _)]
  have hvalues : (es'.take values.length).map Entry.value = es.map Entry.value := by
    rw [List.map_take,hv',hv,List.map_append,List.take_left' (by rw [List.length_map])]
  have hlen := congrArg List.length htags
  rw [List.length_map,List.length_map] at hlen
  refine List.ext_getElem hlen fun i hi hi' => Entry.ext_value ?_ ?_
  · have h := List.getElem_of_eq htags (by simpa using hi)
    rwa [List.getElem_map,List.getElem_map] at h
  · have h := List.getElem_of_eq hvalues (by simpa using hi)
    rwa [List.getElem_map,List.getElem_map] at h

/-- With cryptographic fields that fit, both codes are made or neither is, and the entries of the
first are the leading five of the second. -/
theorem phase1QR_leads_phase2QR (params : Phase2QRParams) (h : Short params.cryptographicFields) :
    (∀ e, generatePhase1QR params.invoice = .error e ↔ generatePhase2QR params = .error e) ∧
    ∀ qr qr', generatePhase1QR params.invoice = .ok qr → generatePhase2QR params = .ok qr' →
      ∃ es : List Entry, read (Base64.decode qr'.toList) = some es ∧ 5 ≤ es.length ∧
        read (Base64.decode qr.toList) = some (es.take 5) ∧
        Base64.decode qr.toList <+: Base64.decode qr'.toList := by
  rw [generatePhase1QR_eq,generatePhase2QR_eq]
  cases hfields : documentFields params.invoice with
  | error e =>
    refine ⟨fun _ => Iff.rfl,fun qr qr' hqr => ?_⟩
    cases hqr
  | ok fields =>
    have hlen := length_documentFields hfields
    by_cases hs : Short fields
    · have hall : Short (fields ++ params.cryptographicFields) := by
        intro v hv
        rcases List.mem_append.1 hv with hv | hv
        · exact hs v hv
        · exact h v hv
      obtain ⟨es,hok,ht,hv⟩ := createTLV_short hs
      obtain ⟨es',hok',ht',hv'⟩ := createTLV_short hall
      have htake := take_entries ht hv ht' hv'
      have hqr : encodeTLVAsBase64 fields = .ok (String.ofList (Base64.encode (encode es))) := by
        rw [encodeTLVAsBase64,hok]
        rfl
      have hqr' : encodeTLVAsBase64 (fields ++ params.cryptographicFields) =
          .ok (String.ofList (Base64.encode (encode es'))) := by
        rw [encodeTLVAsBase64,hok']
        rfl
      have hbytes : ∀ es : List Entry,
          Base64.decode (String.ofList (Base64.encode (encode es))).toList = encode es := by
        intro es
        rw [String.toList_ofList,Base64.decode_encode]
      constructor
      · intro e
        constructor
        · intro he
          cases hqr.symm.trans he
        · intro he
          cases hqr'.symm.trans he
      · intro qr qr' he he'
        cases hqr.symm.trans he
        cases hqr'.symm.trans he'
        rw [hlen] at htake
        refine ⟨es',?_,?_,?_,?_⟩
        · rw [hbytes,read_encode]
        · have hcount := congrArg List.length hv'
          rw [List.length_map,List.length_map,List.length_append,hlen] at hcount
          omega
        · rw [hbytes,read_encode,htake]
        · have hsplit : encode es' = encode es ++ encode (es'.drop 5) := by
            rw [← htake,← encode_append,List.take_append_drop]
          rw [hbytes,hbytes,hsplit]
          exact List.prefix_append _ _
    · obtain ⟨e,he⟩ := createTLV_long hs
      have hqr : encodeTLVAsBase64 fields = .error e := by
        rw [encodeTLVAsBase64,he]
        rfl
      have hqr' : encodeTLVAsBase64 (fields ++ params.cryptographicFields) = .error e := by
        rw [encodeTLVAsBase64,createTLV_append_error he]
        rfl
      constructor
      · intro e'
        exact ⟨fun he' => hqr'.trans (hqr.symm.trans he'),fun he' => hqr.trans (hqr'.symm.trans he')⟩
      · intro qr qr' he'
        cases hqr.symm.trans he'

namespace Sample

/-- A document with the fields of the codes; one of its tax totals is the roll-up. -/
def qrDocument : XMLDocument where
  xml_object := .obj [("Invoice",.obj [("cbc:IssueDate",.str "2024-01-15"),
    ("cbc:IssueTime",.str "14:30:45Z"),
    ("cac:AccountingSupplierParty",.obj [("cac:Party",.obj [
      ("cac:PartyTaxScheme",.obj [("cbc:CompanyID",.str "301234567890003")]),
      ("cac:PartyLegalEntity",.obj [("cbc:RegistrationName",.str "Acme LLC")])])]),
    ("cac:TaxTotal",.arr [.obj [("cbc:TaxAmount",sar (.str "15.00"))],
      .obj [("cbc:TaxAmount",sar (.str "0.00"))]]),
    ("cac:LegalMonetaryTotal",.obj [("cbc:TaxInclusiveAmount",sar (.str "115.00"))])])]

def qrParams : Phase2QRParams := ⟨qrDocument,"aGFzaA==","c2ln",[4,1,2],[48,3]⟩

end Sample

set_option maxRecDepth 4000 in
theorem phase1QR_leads_phase2QR_sample :
    (∀ e, generatePhase1QR Sample.qrDocument = .error e ↔
      generatePhase2QR Sample.qrParams = .error e) ∧
    ∃ qr qr', generatePhase1QR Sample.qrDocument = .ok qr ∧ generatePhase2QR Sample.qrParams = .ok qr' ∧
      ∃ es : List Entry, read (Base64.decode qr'.toList) = some es ∧ 5 ≤ es.length ∧
        read (Base64.decode qr.toList) = some (es.take 5) ∧
        Base64.decode qr.toList <+: Base64.decode qr'.toList := by
  have hshort : Short Sample.qrParams.cryptographicFields := by
    unfold Short
    decide
  have h := phase1QR_leads_phase2QR Sample.qrParams hshort
  exact ⟨h.1,_,_,rfl,rfl,h.2 _ _ rfl rfl⟩

end Zatca
