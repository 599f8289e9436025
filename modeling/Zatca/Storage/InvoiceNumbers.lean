import Zatca.Core.SignTimestamp
import Zatca.Storage.Counters
set_option autoImplicit false

/-! The printed numbers of a scope. A number is the month of its counter row, six characters while
the year has four digits, and the sequence within that month. -/

namespace Zatca
open Interaction Digits

/-- The printed numbers that the calls return, one for each reading of the clock. -/
def invoiceNumbers (format : InvoiceNumberFormatter) (scope : TenantScope) :
    List Date → MemoryStorage → List String
  | [], _ => []
  | now :: readings, st =>
      (st.incrementCounter format now scope).1.invoiceNumber ::
        invoiceNumbers format scope readings (st.incrementCounter format now scope).2

def FourDigitYear (d : Date) : Prop := 1000 ≤ d.getUTCFullYear ∧ d.getUTCFullYear ≤ 9999

instance (d : Date) : Decidable (FourDigitYear d) := inferInstanceAs (Decidable (_ ∧ _))

theorem utcMonth_lt (d : Date) : d.utcMonth < 100 := by
  simp only [Date.utcMonth,Date.civil,Int.fdiv_eq_ediv_of_nonneg _ (show (0 : Int) ≤ 146097 by decide)]
  have hdoe : ∀ z : Int, (z - z/146097 * 146097).toNat < 146097 := fun z => by omega
  generalize d.getTime.fdiv 86400000 + 719468 = z
  have hlt := hdoe z
  generalize (z - z/146097 * 146097).toNat = doe at hlt
  split
  · omega
  · omega

theorem length_toString_nat {n k : Nat} (hlow : 10^k ≤ n) (hhigh : n < 10^(k+1)) (hk : 0 < k) :
    (toString n).toList.length = k+1 := by
  have hlist : (toString n).toList = Nat.toDigits 10 n := by
    simp [Nat.toString_eq_repr,Nat.repr]
  have hle := (Nat.length_toDigits_le_iff (by decide) (Nat.succ_pos k)).2 hhigh
  have hnot : ¬ (Nat.toDigits 10 n).length ≤ k := fun h =>
    absurd ((Nat.length_toDigits_le_iff (by decide) hk).1 h) (by omega)
  rw [hlist]
  omega

theorem length_yearMonth {d : Date} (h : FourDigitYear d) :
    (yearMonthFor d).yearMonth.1.toList.length = 6 := by
  obtain ⟨n,hn⟩ := Int.eq_ofNat_of_zero_le (show 0 ≤ d.getUTCFullYear by have := h.1; omega)
  have hyear : (toString d.getUTCFullYear).toList.length = 4 := by
    have hlow := h.1
    have hhigh := h.2
    rw [hn] at hlow hhigh ⊢
    exact length_toString_nat (n := n) (k := 3) (by omega) (by omega) (by decide)
  have hmonth := (width_inDigits (show 0 < 2 by decide) (utcMonth_lt d : d.utcMonth < 10^2)).1
  simp only [yearMonthFor,yearMonthText,String.toList_append,List.length_append,toList_padStart]
  omega

/-- The default format writes the key of the counter row and the sequence behind it. -/
theorem invoiceNumber_toList (scope : TenantScope) (now : Date) (st : MemoryStorage) :
    (st.incrementCounter defaultFormatter now scope).1.invoiceNumber.toList =
      (yearMonthFor now).yearMonth.1.toList ++
        inDigits 6 ((st.ledger (scopeKey scope)).sequence (yearMonthFor now).yearMonth + 1) := by
  rw [← toList_padStart,← String.toList_append]
  rfl

/-- The row of the month counts on, the others stay. -/
theorem sequence_incrementCounter (scope : TenantScope) (now : Date) (st : MemoryStorage) :
    ((st.incrementCounter defaultFormatter now scope).2.ledger (scopeKey scope)).sequence =
      Function.update (st.ledger (scopeKey scope)).sequence (yearMonthFor now).yearMonth
        ((st.ledger (scopeKey scope)).sequence (yearMonthFor now).yearMonth + 1) :=
  (memory_counts defaultFormatter scope).moves now st

theorem inDigits_inj {width m n : Nat} (h : inDigits width m = inDigits width n) : m = n := by
  rw [← value_inDigits width m,h,value_inDigits]

/-- Every later number on the scope stands for a row and a sequence above what the row has now. -/
theorem invoiceNumbers_above {scope : TenantScope} {readings : List Date} {st : MemoryStorage}
    (hyear : ∀ d ∈ readings, FourDigitYear d) :
    ∀ text ∈ invoiceNumbers defaultFormatter scope readings st, ∃ m : YearMonth, ∃ sequence,
      m.1.toList.length = 6 ∧ (st.ledger (scopeKey scope)).sequence m < sequence ∧
        text.toList = m.1.toList ++ inDigits 6 sequence := by
  induction readings generalizing st with
  | nil => simp [invoiceNumbers]
  | cons now readings ih =>
    obtain ⟨hnow,hreadings⟩ := List.forall_mem_cons.1 hyear
    intro text htext
    rcases List.mem_cons.1 htext with rfl | htext
    · exact ⟨_,_,length_yearMonth hnow,Nat.lt_succ_self _,invoiceNumber_toList scope now st⟩
    · obtain ⟨m,sequence,hm,hlt,heq⟩ := ih hreadings text htext
      refine ⟨m,sequence,hm,?_,heq⟩
      rw [sequence_incrementCounter] at hlt
      by_cases hsame : m = (yearMonthFor now).yearMonth
      · subst hsame
        rw [Function.update_self] at hlt
        omega
      · rwa [Function.update_of_ne hsame] at hlt

/-- Whatever the clock does within years of four digits, no printed number of a scope comes back,
also beyond six digits of a sequence. -/
theorem invoiceNumbers_nodup (scope : TenantScope) (readings : List Date) (st : MemoryStorage)
    (hyear : ∀ d ∈ readings, FourDigitYear d) :
    (invoiceNumbers defaultFormatter scope readings st).Nodup := by
  induction readings generalizing st with
  | nil => exact List.nodup_nil
  | cons now readings ih =>
    obtain ⟨hnow,hreadings⟩ := List.forall_mem_cons.1 hyear
    refine List.nodup_cons.2 ⟨fun hmem => ?_,ih _ hreadings⟩
    obtain ⟨m,sequence,hm,hlt,heq⟩ := invoiceNumbers_above hreadings _ hmem
    rw [invoiceNumber_toList] at heq
    obtain ⟨hmonth,hsequence⟩ := List.append_inj heq ((length_yearMonth hnow).trans hm.symm)
    have hrow : m = (yearMonthFor now).yearMonth := Subtype.ext (String.toList_inj.1 hmonth.symm)
    rw [sequence_incrementCounter,hrow,Function.update_self] at hlt
    exact absurd (inDigits_inj hsequence) (by omega)

/-- The clock goes from May to June and back. -/
theorem invoiceNumbers_nodup_back_in_may :
    (invoiceNumbers defaultFormatter Sample.scope
      [⟨1780271999999⟩,⟨1780272000000⟩,⟨1780271999998⟩] .empty).Nodup :=
  invoiceNumbers_nodup Sample.scope [⟨1780271999999⟩,⟨1780272000000⟩,⟨1780271999998⟩] .empty
    (by decide)

example : invoiceNumbers defaultFormatter Sample.scope
    [⟨1780271999999⟩,⟨1780272000000⟩,⟨1780271999998⟩] .empty =
      ["202605000001","202606000001","202605000002"] := by decide

end Zatca
