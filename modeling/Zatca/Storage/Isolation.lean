import Zatca.Core.Branded
import Zatca.Library.Noninterference
import Zatca.Storage.Ledger
set_option autoImplicit false

/-! The memory adapter as it looks to one tenant, whatever the others do. -/

namespace Zatca
open Interaction

/-- Both parts pass the validators of the library. -/
def TenantScope.isValid (scope : TenantScope) : Bool :=
  isVATNumber scope.vatNumber && isUuidV4 scope.egsUuid

/-- A valid uuid has no separator, so the key tells where the VAT number ends. -/
theorem scopeKey_inj {scope scope' : TenantScope} (h : scope.isValid = true)
    (h' : scope'.isValid = true) (hkey : scopeKey scope = scopeKey scope') : scope = scope' := by
  simp only [TenantScope.isValid,Bool.and_eq_true] at h h'
  have hchars : scope.vatNumber.toList ++ ':' :: scope.egsUuid.toList =
      scope'.vatNumber.toList ++ ':' :: scope'.egsUuid.toList := by
    simpa [scopeKey,String.toList_append] using congrArg String.toList hkey
  have hparts := append_colon_inj (colon_notMem_uuid ⟨_,h.2⟩) (colon_notMem_uuid ⟨_,h'.2⟩) hchars
  have hvat : scope.vatNumber = scope'.vatNumber := String.toList_inj.1 hparts.1
  have hegs : scope.egsUuid = scope'.egsUuid := String.toList_inj.1 hparts.2
  cases scope
  cases scope'
  simp_all

namespace MemoryStorage

/-- The ledger of a valid scope is all that its calls see, and theirs alone among valid scopes. -/
theorem unwinding (format : InvoiceNumberFormatter) {scope : TenantScope}
    (hscope : scope.isValid = true) :
    (handle format).Unwinding (fun o => decide (StorageOp.scope o = scope))
      (fun o => TenantScope.isValid (StorageOp.scope o)) (fun st => st.ledger (scopeKey scope)) where
  output o x s t ho hv := by
    have ho : StorageOp.scope o = scope := by simpa using ho
    rw [(handle_ledger format s x o).1,(handle_ledger format t x o).1,ho]
    exact congrArg (fun l => (Ledger.handle format o x l).1) hv
  step o x s t ho hv := by
    have ho : StorageOp.scope o = scope := by simpa using ho
    subst ho
    rw [handle_ledger_self,handle_ledger_self]
    exact congrArg (fun l => (Ledger.handle format o x l).2) hv
  respect o x s ho hvalid := by
    have hkey : scopeKey scope ≠ scopeKey (StorageOp.scope o) := by
      intro hkey
      have := scopeKey_inj hscope hvalid hkey
      simp [this] at ho
    rw [(handle_ledger format s x o).2,if_neg hkey]

end MemoryStorage

/-- What a scope observes is decided by its own calls: two sequences over valid scopes with the
same calls of the scope at the same readings of the clock are answered to it alike. -/
theorem scopeIsolation (format : InvoiceNumberFormatter) (scope : TenantScope)
    (l l' : List (StorageOp × Date)) (hl : ∀ c ∈ l, c.1.scope.isValid = true)
    (hl' : ∀ c ∈ l', c.1.scope.isValid = true)
    (hsame : (l.filter fun c => decide (c.1.scope = scope)) =
      l'.filter fun c => decide (c.1.scope = scope)) (st : MemoryStorage) :
    (MemoryStorage.handle format).observed (fun o => decide (StorageOp.scope o = scope)) l st =
      (MemoryStorage.handle format).observed (fun o => decide (StorageOp.scope o = scope)) l' st := by
  cases hscope : scope.isValid with
  | true => exact (MemoryStorage.unwinding format hscope).noninterference hl hl' hsame st
  | false =>
    have hforeign : ∀ l : List (StorageOp × Date), (∀ c ∈ l, c.1.scope.isValid = true) →
        ∀ c ∈ l, decide (c.1.scope = scope) = false := by
      intro l hl c hc
      have hvalid := hl c hc
      simp only [decide_eq_false_iff_not]
      rintro rfl
      simp [hscope] at hvalid
    rw [Handler.observed_of_foreign (hforeign l hl),Handler.observed_of_foreign (hforeign l' hl')]

/-- A second tenant that counts and records in between is not seen. -/
theorem scopeIsolation_beside_a_tenant :
    let other : TenantScope := ⟨"311111111100003","00000000-0000-4000-8000-000000000002"⟩
    let own : StorageOp × Date := (.incrementCounter Sample.scope,Sample.clock)
    (MemoryStorage.handle defaultFormatter).observed (fun o => decide (o.scope = Sample.scope))
        [own,(.incrementCounter other,Sample.clock),own] .empty =
      (MemoryStorage.handle defaultFormatter).observed (fun o => decide (o.scope = Sample.scope))
        [own,own] .empty := by
  refine scopeIsolation defaultFormatter Sample.scope _ _ ?_ ?_ ?_ _
  · decide +kernel
  · decide +kernel
  · decide +kernel

end Zatca
