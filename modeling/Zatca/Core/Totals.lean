import Mathlib.Computability.Primrec.List
import Zatca.Core.Number
import Zatca.Core.Types
set_option autoImplicit false

/-! The amounts of a Phase 2 document: the fragments that the builders compute from the line items
and inject into the template. -/

namespace Zatca

abbrev XMLObject := Json

/-- An amount in riyals: a text, or a bare number. -/
def sar (text : Json) : XMLObject := .obj [("@_currencyID",.str "SAR"),("#text",text)]

def fixedText (value : ℚ) : Json := .str (toFixedNoRounding value 2)

/-- Per-line totals returned by `buildLineItemTotals`. -/
structure LineItemTotals where
  cacAllowanceCharges : List XMLObject
  cacClassifiedTaxCategories : List XMLObject
  cacTaxTotal : XMLObject
  lineItemTotalTaxExclusive : ℚ
  lineItemTotalTaxes : ℚ
  lineItemTotalDiscounts : ℚ

def vatEntry (lineItem : ZATCAInvoiceLineItem) : XMLObject :=
  .obj ([("cbc:ID",.str (if lineItem.vatPercent ≠ 0 then "S" else "O"))] ++
    (if lineItem.vatPercent ≠ 0 then [("cbc:Percent",fixedText lineItem.vatPercent)] else []) ++
    [("cac:TaxScheme",.obj [("cbc:ID",.str "VAT")])])

def allowanceCharge (discount : ZATCAInvoiceLineItemDiscount) : XMLObject :=
  .obj [("cbc:ChargeIndicator",.str "false"),("cbc:AllowanceChargeReason",.str discount.reason),
    ("cbc:Amount",sar (fixedText discount.amount))]

def otherTaxEntry (percentAmount : ℚ) : XMLObject :=
  .obj [("cbc:ID",.str "S"),("cbc:Percent",fixedText percentAmount),
    ("cac:TaxScheme",.obj [("cbc:ID",.str "VAT")])]

def totalDiscounts (lineItem : ZATCAInvoiceLineItem) : ℚ :=
  lineItem.discounts.foldl (fun total discount => total + discount.amount) 0

def taxableAmount (lineItem : ZATCAInvoiceLineItem) : ℚ :=
  lineItem.taxExclusivePrice * lineItem.quantity - totalDiscounts lineItem

def lineSubtotal (lineItem : ZATCAInvoiceLineItem) : ℚ := cents (taxableAmount lineItem)

def roundingAmount (subtotal totalTaxes : ℚ) : XMLObject :=
  sar (.str (Number.toFixed (cents subtotal + cents totalTaxes) 2))

/-- The VAT of a line, before its other taxes. -/
def lineVat (lineItem : ZATCAInvoiceLineItem) : ℚ :=
  cents (cents 0 + cents (lineSubtotal lineItem * lineItem.vatPercent / 100))

/-! ### Tax invoices and credit notes -/

def invoiceLineTaxes (lineItem : ZATCAInvoiceLineItem) : ℚ :=
  lineItem.otherTaxes.foldl (fun totalTaxes percentAmount =>
    cents (cents totalTaxes + cents (percentAmount * lineSubtotal lineItem / 100)))
    (lineVat lineItem)

def buildInvoiceLineItemTotals (lineItem : ZATCAInvoiceLineItem) : LineItemTotals where
  cacAllowanceCharges := lineItem.discounts.map allowanceCharge
  cacClassifiedTaxCategories := vatEntry lineItem :: lineItem.otherTaxes.map otherTaxEntry
  cacTaxTotal := .obj [("cbc:TaxAmount",sar (fixedText (invoiceLineTaxes lineItem))),
    ("cbc:RoundingAmount",roundingAmount (lineSubtotal lineItem) (invoiceLineTaxes lineItem))]
  lineItemTotalTaxExclusive := lineSubtotal lineItem
  lineItemTotalTaxes := invoiceLineTaxes lineItem
  lineItemTotalDiscounts := totalDiscounts lineItem

def taxScheme5153 : XMLObject :=
  .obj [("cbc:ID",.obj [("@_schemeAgencyID",.str "6"),("@_schemeID",.str "UN/ECE 5153"),
    ("#text",.str "VAT")])]

def taxCategory (taxPercent : ℚ) : XMLObject :=
  .obj ([("cbc:ID",.obj [("@_schemeAgencyID",.num 6),("@_schemeID",.str "UN/ECE 5305"),
      ("#text",.str (if taxPercent ≠ 0 then "S" else "O"))]),
    ("cbc:Percent",fixedText taxPercent)] ++
    (if taxPercent ≠ 0 then [] else [("cbc:TaxExemptionReason",.str "Not subject to VAT")]) ++
    [("cac:TaxScheme",taxScheme5153)])

def taxSubtotal (taxable taxAmount taxPercent : ℚ) : XMLObject :=
  .obj [("cbc:TaxableAmount",sar (fixedText taxable)),("cbc:TaxAmount",sar (fixedText taxAmount)),
    ("cac:TaxCategory",taxCategory taxPercent)]

/-- The rates of a line, the VAT first. -/
def rates (lineItem : ZATCAInvoiceLineItem) : List ℚ := lineItem.vatPercent :: lineItem.otherTaxes

/-- One subtotal for each line and rate, on the amount as it is before truncation. -/
def documentTaxSubtotals (lineItems : List ZATCAInvoiceLineItem) : List XMLObject :=
  lineItems.flatMap fun lineItem => (rates lineItem).map fun percent =>
    taxSubtotal (taxableAmount lineItem) (percent * taxableAmount lineItem / 100) percent

def documentTaxes (lineItems : List ZATCAInvoiceLineItem) : ℚ :=
  lineItems.foldl (fun totalTaxes lineItem => (rates lineItem).foldl
    (fun totalTaxes percent => totalTaxes + cents (percent * taxableAmount lineItem / 100))
    totalTaxes) 0

def buildInvoiceTaxTotal (lineItems : List ZATCAInvoiceLineItem) : List XMLObject :=
  let totalTaxes := nearestCents (documentTaxes lineItems)
  [.obj [("cbc:TaxAmount",sar (fixedText totalTaxes)),
      ("cac:TaxSubtotal",.arr (documentTaxSubtotals lineItems))],
    .obj [("cbc:TaxAmount",sar (fixedText totalTaxes))]]

def buildInvoiceLegalMonetaryTotal (totalSubtotal totalTaxes : ℚ) : XMLObject :=
  .obj [("cbc:LineExtensionAmount",sar (fixedText totalSubtotal)),
    ("cbc:TaxExclusiveAmount",sar (fixedText totalSubtotal)),
    ("cbc:TaxInclusiveAmount",sar (.num (nearestCents (totalSubtotal + totalTaxes)))),
    ("cbc:AllowanceTotalAmount",sar (.num 0)),
    ("cbc:PrepaidAmount",sar (.num 0)),
    ("cbc:PayableAmount",sar (.num (nearestCents (totalSubtotal + totalTaxes))))]

/-! ### Debit notes -/

def debitNoteLineTaxes (lineItem : ZATCAInvoiceLineItem) : ℚ :=
  cents (lineItem.otherTaxes.foldl (fun totalTaxes percentAmount =>
    totalTaxes + cents (lineSubtotal lineItem * percentAmount / 100)) (lineVat lineItem))

def buildDebitNoteLineItemTotals (lineItem : ZATCAInvoiceLineItem) (withRoundingAmount : Bool) :
    LineItemTotals where
  cacAllowanceCharges := lineItem.discounts.map allowanceCharge
  cacClassifiedTaxCategories := [vatEntry lineItem]
  cacTaxTotal := .obj ([("cbc:TaxAmount",sar (fixedText (debitNoteLineTaxes lineItem)))] ++
    (if withRoundingAmount then
      [("cbc:RoundingAmount",roundingAmount (lineSubtotal lineItem) (debitNoteLineTaxes lineItem))]
    else []) ++
    [("cac:TaxSubtotal",taxSubtotal (lineSubtotal lineItem)
      (lineSubtotal lineItem * lineItem.vatPercent / 100) lineItem.vatPercent)])
  lineItemTotalTaxExclusive := lineSubtotal lineItem
  lineItemTotalTaxes := debitNoteLineTaxes lineItem
  lineItemTotalDiscounts := totalDiscounts lineItem

def buildDebitNoteTaxTotal (lineItems : List ZATCAInvoiceLineItem) : List XMLObject :=
  [.obj [("cbc:TaxAmount",sar (fixedText (documentTaxes lineItems))),
    ("cac:TaxSubtotal",.arr (documentTaxSubtotals lineItems))]]

def buildDebitNoteLegalMonetaryTotal (totalSubtotal totalTaxes : ℚ) : XMLObject :=
  .obj [("cbc:LineExtensionAmount",sar (fixedText totalSubtotal)),
    ("cbc:TaxExclusiveAmount",sar (fixedText totalSubtotal)),
    ("cbc:TaxInclusiveAmount",sar (fixedText (totalSubtotal + totalTaxes))),
    ("cbc:AllowanceTotalAmount",sar (.str "0.00")),
    ("cbc:PrepaidAmount",sar (.str "0.00")),
    ("cbc:PayableAmount",sar (fixedText (totalSubtotal + totalTaxes)))]

/-! ### The builders -/

/-- What the six builders override of their base class for the amounts. -/
structure BaseInvoiceBuilder where
  buildLineItemTotals : ZATCAInvoiceLineItem → LineItemTotals
  buildTaxTotal : List ZATCAInvoiceLineItem → List XMLObject
  buildLegalMonetaryTotal : (totalSubtotal totalTaxes : ℚ) → XMLObject
  includeInvoiceQuantityFraction : Bool := false
  includePriceBaseQuantity : Bool := false
  allowanceChargeAtLineTop : Bool := false
  formatPriceAmountText : Bool := false

/-- The overrides of the tax invoices and the credit notes. -/
def invoiceBuilder : BaseInvoiceBuilder where
  buildLineItemTotals := buildInvoiceLineItemTotals
  buildTaxTotal := buildInvoiceTaxTotal
  buildLegalMonetaryTotal := buildInvoiceLegalMonetaryTotal

/-- The overrides of the debit notes. -/
def debitNoteBuilder (withRoundingAmount : Bool) : BaseInvoiceBuilder where
  buildLineItemTotals lineItem := buildDebitNoteLineItemTotals lineItem withRoundingAmount
  buildTaxTotal := buildDebitNoteTaxTotal
  buildLegalMonetaryTotal := buildDebitNoteLegalMonetaryTotal
  includeInvoiceQuantityFraction := true
  includePriceBaseQuantity := true
  allowanceChargeAtLineTop := true
  formatPriceAmountText := true

def simplifiedTaxInvoiceBuilder := invoiceBuilder
def standardTaxInvoiceBuilder := invoiceBuilder
def simplifiedCreditNoteBuilder := invoiceBuilder
def standardCreditNoteBuilder := invoiceBuilder
def simplifiedDebitNoteBuilder := debitNoteBuilder false
def standardDebitNoteBuilder := debitNoteBuilder true

def phase2Builder : Phase2Kind → BaseInvoiceBuilder
  | ⟨.simplifiedTaxInvoice,_⟩ => simplifiedTaxInvoiceBuilder
  | ⟨.standardTaxInvoice,_⟩ => standardTaxInvoiceBuilder
  | ⟨.simplifiedCreditNote,_⟩ => simplifiedCreditNoteBuilder
  | ⟨.standardCreditNote,_⟩ => standardCreditNoteBuilder
  | ⟨.simplifiedDebitNote,_⟩ => simplifiedDebitNoteBuilder
  | ⟨.standardDebitNote,_⟩ => standardDebitNoteBuilder
  | ⟨.phase1Invoice,h⟩ => nomatch h
  | ⟨.phase1CreditNote,h⟩ => nomatch h

namespace BaseInvoiceBuilder
variable (b : BaseInvoiceBuilder)

def assembleLineItemXml (lineItem : ZATCAInvoiceLineItem) (totals : LineItemTotals) : XMLObject :=
  let quantityText : Json := if b.includeInvoiceQuantityFraction then fixedText lineItem.quantity
    else .num lineItem.quantity
  let priceAmountText : Json := if b.formatPriceAmountText then fixedText lineItem.taxExclusivePrice
    else .num lineItem.taxExclusivePrice
  let price : XMLObject := .obj ([("cbc:PriceAmount",sar priceAmountText)] ++
    (if b.includePriceBaseQuantity then
      [("cbc:BaseQuantity",.obj [("@_unitCode",.str "PCE"),("#text",.str "1.00")])] else []) ++
    (if b.allowanceChargeAtLineTop then []
      else [("cac:AllowanceCharge",.arr totals.cacAllowanceCharges)]))
  .obj ([("cbc:ID",.str lineItem.id),
    ("cbc:InvoicedQuantity",.obj [("@_unitCode",.str "PCE"),("#text",quantityText)]),
    ("cbc:LineExtensionAmount",sar (fixedText totals.lineItemTotalTaxExclusive)),
    ("cac:TaxTotal",totals.cacTaxTotal),
    ("cac:Item",.obj [("cbc:Name",.str lineItem.name),
      ("cac:ClassifiedTaxCategory",.arr totals.cacClassifiedTaxCategories)]),
    ("cac:Price",price)] ++
    (if b.allowanceChargeAtLineTop && totals.cacAllowanceCharges.length > 0 then
      [("cac:AllowanceCharge",.arr totals.cacAllowanceCharges)] else []))

def totalSubtotal (lineItems : List ZATCAInvoiceLineItem) : ℚ :=
  nearestCents (lineItems.foldl (fun total lineItem =>
    total + cents (b.buildLineItemTotals lineItem).lineItemTotalTaxExclusive) 0)

def totalTaxes (lineItems : List ZATCAInvoiceLineItem) : ℚ :=
  nearestCents (lineItems.foldl (fun total lineItem =>
    total + cents (b.buildLineItemTotals lineItem).lineItemTotalTaxes) 0)

end BaseInvoiceBuilder

/-- What `build` sets in the document for the line items, in this order. -/
structure LineItemFragments where
  taxTotal : List XMLObject
  legalMonetaryTotal : XMLObject
  invoiceLine : List XMLObject

def BaseInvoiceBuilder.fragments (b : BaseInvoiceBuilder) (lineItems : List ZATCAInvoiceLineItem) :
    LineItemFragments where
  taxTotal := b.buildTaxTotal lineItems
  legalMonetaryTotal := b.buildLegalMonetaryTotal (b.totalSubtotal lineItems) (b.totalTaxes lineItems)
  invoiceLine := lineItems.map fun lineItem =>
    b.assembleLineItemXml lineItem (b.buildLineItemTotals lineItem)

/-! ### Reading an amount -/

/-- How the XML builder prints a value. -/
def Json.printed : Json → Option String
  | .str s => some s
  | .num q => some (Number.toString q)
  | _ => none

/-- The amount that is printed under the name, as a number. -/
def printedAmount (name : String) (fragment : XMLObject) : Option ℚ :=
  (((fragment.field name).bind (Json.field "#text")).bind Json.printed).bind Number.parseFloat

end Zatca
