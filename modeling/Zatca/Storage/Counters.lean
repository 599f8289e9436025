import Zatca.Storage.Mongo
import Zatca.Library.PartitionedCounter
set_option autoImplicit false

/-! The invoice counter over the whole life of a scope. All three adapters count every UTC month
for itself, so the numbers start again from one when the month changes. -/

namespace Zatca
open Interaction

variable {ε σ χ : Type}

/-- The sequences that the calls return; a call that throws returns none. -/
def sequences (h : Handler StorageAdapter ε σ χ) (scope : TenantScope) : List χ → σ → List Nat
  | [], _ => []
  | x :: xs, st =>
      ((h (.incrementCounter scope) x st).1.toOption.map CounterValue.sequence).toList ++
        sequences h scope xs (h (.incrementCounter scope) x st).2

/-- What the counter rows of a scope are: a counter partitioned by month. -/
structure CountsByMonth (h : Handler StorageAdapter ε σ χ) (scope : TenantScope)
    (count : σ → YearMonth → Nat) (fits : Nat → Bool) (clock : χ → Date) : Prop where
  answers : ∀ x st, (h (.incrementCounter scope) x st).1.toOption.map CounterValue.sequence =
    (PartitionedCounter.tick fits (yearMonthFor (clock x)).yearMonth (count st)).1
  moves : ∀ x st, count (h (.incrementCounter scope) x st).2 =
    (PartitionedCounter.tick fits (yearMonthFor (clock x)).yearMonth (count st)).2

theorem CountsByMonth.sequences_eq {h : Handler StorageAdapter ε σ χ} {scope : TenantScope}
    {count : σ → YearMonth → Nat} {fits : Nat → Bool} {clock : χ → Date}
    (hc : CountsByMonth h scope count fits clock) (xs : List χ) (st : σ) :
    sequences h scope xs st = PartitionedCounter.run fits
      (xs.map (fun x => (yearMonthFor (clock x)).yearMonth)) (count st) := by
  induction xs generalizing st with
  | nil => rfl
  | cons x xs ih => simp only [sequences,List.map_cons,PartitionedCounter.run,ih,hc.answers,hc.moves]

/-- All readings of the clock fall into one UTC month. -/
def OneMonth (readings : List Date) : Prop :=
  ∀ d ∈ readings, ∀ d' ∈ readings, (yearMonthFor d).yearMonth = (yearMonthFor d').yearMonth

instance (readings : List Date) : Decidable (OneMonth readings) :=
  inferInstanceAs (Decidable (∀ d ∈ readings, ∀ d' ∈ readings, _))

theorem CountsByMonth.ascending_iff {h : Handler StorageAdapter ε σ χ} {scope : TenantScope}
    {count : σ → YearMonth → Nat} {fits : Nat → Bool} {clock : χ → Date}
    (hc : CountsByMonth h scope count fits clock) (h1 : fits 1) {st : σ}
    (hst : ∀ m, count st m = 0) (xs : List χ) :
    (sequences h scope xs st).Pairwise (· < ·) ↔ OneMonth (xs.map clock) := by
  rw [hc.sequences_eq,PartitionedCounter.run_ascending_iff h1 hst]
  simp [OneMonth]

section adapters
variable (P : Postgres) (M : Mongoose) (format : InvoiceNumberFormatter) (scope : TenantScope)

theorem memory_counts : CountsByMonth (MemoryStorage.handle format) scope
    (fun st => (st.ledger (scopeKey scope)).sequence) (fun _ => true) id where
  answers _ _ := rfl
  moves x st := congrArg Ledger.sequence
    (MemoryStorage.handle_ledger_self format st x (.incrementCounter scope))

theorem update_sequence {α : Type} [DecidableEq α] (counters : JsMap (α × YearMonth) Nat) (a : α)
    (m : YearMonth) (n : Nat) :
    (fun m' => ((counters.set (a,m) n).get (a,m')).getD 0) =
      Function.update (fun m' => (counters.get (a,m')).getD 0) m n := by
  funext m'
  rw [JsMap.get_set]
  by_cases hm : m' = m
  · subst hm
    simp
  · simp [hm]

theorem postgres_counts : CountsByMonth (PostgresAdapter.handle P format) scope
    (fun st => st.sequence scope) PostgresTables.fitsInteger id where
  answers x st := by
    rw [PostgresAdapter.handle_incrementCounter]
    simp only [PartitionedCounter.tick,id]
    split
    · rfl
    · rfl
  moves x st := by
    rw [PostgresAdapter.handle_incrementCounter]
    simp only [PartitionedCounter.tick,id]
    split
    · exact update_sequence st.counters scope _ _
    · rfl

theorem mongo_counts : CountsByMonth (MongoAdapter.handle M format) scope
    (fun st => st.sequence scope) (fun _ => true) Prod.fst where
  answers _ _ := rfl
  moves _ st := update_sequence st.counters scope _ _

end adapters

/-- In every adapter, from the first number of a scope on and whatever the clock does, every number
is above all earlier ones if and only if the clock stays in one month. -/
theorem icvAscends_iff_oneMonth (P : Postgres) (M : Mongoose) (format : InvoiceNumberFormatter)
    (scope : TenantScope) (calls : List (Date × Nat)) (memory : MemoryStorage)
    (tables : PostgresTables) (collections : MongoCollections)
    (hmemory : ∀ m, (memory.ledger (scopeKey scope)).sequence m = 0)
    (htables : ∀ m, tables.sequence scope m = 0)
    (hcollections : ∀ m, collections.sequence scope m = 0) :
    ((sequences (MemoryStorage.handle format) scope (calls.map Prod.fst) memory).Pairwise (· < ·) ↔
        OneMonth (calls.map Prod.fst)) ∧
      ((sequences (PostgresAdapter.handle P format) scope (calls.map Prod.fst) tables).Pairwise
          (· < ·) ↔ OneMonth (calls.map Prod.fst)) ∧
      ((sequences (MongoAdapter.handle M format) scope calls collections).Pairwise (· < ·) ↔
        OneMonth (calls.map Prod.fst)) := by
  have hm := (memory_counts format scope).ascending_iff rfl hmemory (calls.map Prod.fst)
  have hp := (postgres_counts P format scope).ascending_iff (by decide) htables (calls.map Prod.fst)
  have hd := (mongo_counts M format scope).ascending_iff rfl hcollections calls
  rw [List.map_id] at hm hp
  exact ⟨hm,hp,hd⟩

/-- Three numbers within a May. -/
theorem icvAscends_within_may :
    (sequences (MemoryStorage.handle defaultFormatter) Sample.scope
        [Sample.clock,Sample.clock.addMs 1,Sample.clock.addMs 86400000] .empty).Pairwise (· < ·) := by
  have h := icvAscends_iff_oneMonth Sample.postgres Sample.mongoose defaultFormatter Sample.scope
    [(Sample.clock,0),(Sample.clock.addMs 1,0),(Sample.clock.addMs 86400000,0)] .empty .empty .empty
    (fun _ => rfl) (fun _ => rfl) (fun _ => rfl)
  exact h.1.2 (by decide)

/-- The last millisecond of May and the first of June. -/
theorem icvAscends_fails_at_month_end :
    ¬ (sequences (MemoryStorage.handle defaultFormatter) Sample.scope
        [⟨1780271999999⟩,⟨1780272000000⟩] .empty).Pairwise (· < ·) ∧
      ¬ (sequences (PostgresAdapter.handle Sample.postgres defaultFormatter) Sample.scope
        [⟨1780271999999⟩,⟨1780272000000⟩] .empty).Pairwise (· < ·) ∧
      ¬ (sequences (MongoAdapter.handle Sample.mongoose defaultFormatter) Sample.scope
        [(⟨1780271999999⟩,0),(⟨1780272000000⟩,0)] .empty).Pairwise (· < ·) := by
  decide

end Zatca
