import Zatca.Core.Dispatch
import Zatca.Core.Reconcile
set_option autoImplicit false
namespace Zatca

/-! The line items that the schema lets through. -/

namespace ZATCAInvoiceLineItem

/-- The schema accepts the line, and its numbers are decimals. -/
structure Accepted (lineItem : ZATCAInvoiceLineItem) : Prop extends lineItem.Decimal where
  schema : lineItemSchema (some lineItem.toJson) = true

theorem schema_iff (lineItem : ZATCAInvoiceLineItem) : lineItemSchema (some lineItem.toJson) = true ↔
    lineItem.id ≠ "" ∧ lineItem.name ≠ "" ∧ 0 < lineItem.quantity ∧ 0 ≤ lineItem.taxExclusivePrice ∧
      (∀ r ∈ lineItem.otherTaxes, 0 ≤ r) ∧
      (∀ d ∈ lineItem.discounts, 0 ≤ d.amount ∧ d.reason ≠ "") ∧
      0 ≤ lineItem.vatPercent ∧ lineItem.vatPercent ≤ 100 := by
  simp [lineItemSchema,lineItemTaxSchema,lineItemDiscountSchema,toJson,Schema.object,Schema.number,
    Schema.string,Schema.array,Schema.optional,nonemptyText,nonempty,positive,nonnegative,List.lookup]

namespace Accepted
variable {lineItem : ZATCAInvoiceLineItem} (h : lineItem.Accepted)
include h

theorem quantity_pos : 0 < lineItem.quantity := ((schema_iff lineItem).1 h.schema).2.2.1

theorem price_nonneg : 0 ≤ lineItem.taxExclusivePrice := ((schema_iff lineItem).1 h.schema).2.2.2.1

theorem amount_nonneg : ∀ d ∈ lineItem.discounts, 0 ≤ d.amount := fun d hd =>
  (((schema_iff lineItem).1 h.schema).2.2.2.2.2.1 d hd).1

theorem rate_nonneg : ∀ r ∈ Zatca.rates lineItem, 0 ≤ r := by
  obtain ⟨-,-,-,-,hother,-,hvat,-⟩ := (schema_iff lineItem).1 h.schema
  exact List.forall_mem_cons.2 ⟨hvat,hother⟩

theorem totalDiscounts_nonneg : 0 ≤ totalDiscounts lineItem := by
  rw [totalDiscounts,foldl_add,zero_add]
  refine List.sum_nonneg fun a ha => ?_
  obtain ⟨d,hd,rfl⟩ := List.mem_map.1 ha
  exact h.amount_nonneg d hd

end Accepted

end ZATCAInvoiceLineItem

end Zatca
