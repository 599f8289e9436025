import Zatca.Core.Issue
import Zatca.Library.Interleaving
import Zatca.Library.JsMap
import Zatca.Library.Lease
set_option autoImplicit false
namespace Zatca
open Interaction

/-- What a commit captures and a replay answers. -/
structure CachedResponse where
  statusCode : Nat
  headers : List (String × String)
  body : String
  deriving DecidableEq, Repr

inductive IdempotencyBeginResult where
  | claimed
  | inFlight
  | replay (response : CachedResponse)
  deriving DecidableEq, Repr

inductive IdempotencyOp where
  | begin (key : String) (ttlMs : Int)
  | commit (key : String) (response : CachedResponse) (ttlMs : Int)
  | release (key : String)
  deriving DecidableEq, Repr

abbrev IdempotencyOp.Ret : IdempotencyOp → Type
  | .begin _ _ => IdempotencyBeginResult
  | .commit _ _ _ => Unit
  | .release _ => Unit

abbrev IdempotencyStore : Signature := ⟨IdempotencyOp,IdempotencyOp.Ret⟩

namespace IdempotencyOp

def key : IdempotencyOp → String
  | .begin key _ | .commit key _ _ | .release key => key

/-- The calls that end a claim. -/
def settles : IdempotencyOp → Bool
  | .begin _ _ => false
  | .commit _ _ _ | .release _ => true

end IdempotencyOp

inductive Entry where
  | inFlight (expiresAt : Int)
  | committed (response : CachedResponse) (expiresAt : Int)
  deriving DecidableEq, Repr

def Entry.expiresAt : Entry → Int
  | inFlight e => e
  | committed _ e => e

/-- The state of `createMemoryIdempotencyStore`. -/
structure MemoryIdempotencyStore where
  entries : JsMap String Entry
  deriving DecidableEq

namespace MemoryIdempotencyStore

def empty : MemoryIdempotencyStore := ⟨.empty⟩

/-- An expired entry is swept when it is read. -/
def readFresh (now : Date) (key : String) (st : MemoryIdempotencyStore) :
    Option Entry × MemoryIdempotencyStore :=
  match st.entries.get key with
  | none => (none,st)
  | some entry =>
      if entry.expiresAt ≤ now.getTime then (none,⟨st.entries.delete key⟩) else (some entry,st)

def «begin» (now : Date) (key : String) (ttlMs : Int) (st : MemoryIdempotencyStore) :
    IdempotencyBeginResult × MemoryIdempotencyStore :=
  match st.readFresh now key with
  | (none,st') => (.claimed,⟨st'.entries.set key (.inFlight (now.getTime + ttlMs))⟩)
  | (some (.inFlight _),st') => (.inFlight,st')
  | (some (.committed response _),st') => (.replay response,st')

def unclaimedKey (key : String) : Thrown :=
  .error ("IdempotencyStore.commit called for unclaimed key '" ++ key ++
    "' — missing a prior begin(). This is a programming error in the caller.")

def commit (now : Date) (key : String) (response : CachedResponse) (ttlMs : Int)
    (st : MemoryIdempotencyStore) : Except Thrown MemoryIdempotencyStore :=
  match st.entries.get key with
  | none => .error (unclaimedKey key)
  | some _ => .ok ⟨st.entries.set key (.committed response (now.getTime + ttlMs))⟩

def release (key : String) (st : MemoryIdempotencyStore) : MemoryIdempotencyStore :=
  ⟨st.entries.delete key⟩

/-- One method call; the choice is the reading of the clock. -/
def handle : Handler IdempotencyStore Thrown MemoryIdempotencyStore Date
  | .begin key ttlMs, now, st =>
      let (result,st') := st.begin now key ttlMs
      (.ok result,st')
  | .commit key response ttlMs, now, st =>
      match st.commit now key response ttlMs with
      | .ok st' => (.ok (),st')
      | .error e => (.error e,st)
  | .release key, _, st => (.ok (),st.release key)

/-- When the entry under the key expires, swept or not. -/
def slot (st : MemoryIdempotencyStore) (key : String) : Option Int :=
  (st.entries.get key).map Entry.expiresAt

end MemoryIdempotencyStore

/-- What a call that was answered did to the slot of its key. -/
def slotAct (now : Date) : (o : IdempotencyOp) → Except Thrown (IdempotencyOp.Ret o) →
    Option (String × Lease.Act)
  | .begin key ttlMs, .ok .claimed => some (key,.grant (now.getTime + ttlMs))
  | .commit key _ ttlMs, .ok () => some (key,.renew (now.getTime + ttlMs))
  | .release key, .ok () => some (key,.drop)
  | _, _ => none

/-- What a call that was answered adds to the log of the slot. -/
def slotEntry (key : String) (p : Nat) (now : Date) (o : IdempotencyOp)
    (r : Except Thrown (IdempotencyOp.Ret o)) : Lease.Log :=
  match slotAct now o r with
  | some (k,a) => if k = key then [(p,a)] else []
  | none => []

namespace MemoryIdempotencyStore

variable {st : MemoryIdempotencyStore} {now : Date} {key : String}

theorem begin_cases (st : MemoryIdempotencyStore) (now : Date) (key : String) (ttlMs : Int) :
    (st.begin now key ttlMs).1 = .claimed ∧ (∀ e ∈ st.slot key, e ≤ now.getTime) ∧
        (st.begin now key ttlMs).2.slot key = some (now.getTime + ttlMs) ∧
        (∀ k ≠ key, (st.begin now key ttlMs).2.entries.get k = st.entries.get k) ∨
      (st.begin now key ttlMs).1 ≠ .claimed ∧ (∃ e ∈ st.slot key, now.getTime < e) ∧
        (st.begin now key ttlMs).2 = st := by
  cases hg : st.entries.get key with
  | none =>
    have hb : st.begin now key ttlMs =
        (.claimed,⟨st.entries.set key (.inFlight (now.getTime + ttlMs))⟩) := by
      simp [MemoryIdempotencyStore.begin,readFresh,hg]
    rw [hb]
    refine .inl ⟨rfl,by simp [slot,hg],by simp [slot,Entry.expiresAt],fun k hk => ?_⟩
    exact JsMap.get_set_ne _ _ hk
  | some entry =>
    by_cases he : entry.expiresAt ≤ now.getTime
    · have hb : st.begin now key ttlMs =
          (.claimed,⟨(st.entries.delete key).set key (.inFlight (now.getTime + ttlMs))⟩) := by
        simp [MemoryIdempotencyStore.begin,readFresh,hg,he]
      rw [hb]
      refine .inl ⟨rfl,by simpa [slot,hg] using he,by simp [slot,Entry.expiresAt],fun k hk => ?_⟩
      rw [JsMap.get_set_ne _ _ hk,JsMap.get_delete_ne _ hk]
    · have hr : st.readFresh now key = (some entry,st) := by simp [readFresh,hg,he]
      have hlt : ∃ e ∈ st.slot key, now.getTime < e :=
        ⟨entry.expiresAt,by simp [slot,hg],by omega⟩
      cases entry with
      | inFlight e => exact .inr ⟨by simp [MemoryIdempotencyStore.begin,hr],hlt,
          by simp [MemoryIdempotencyStore.begin,hr]⟩
      | committed response e => exact .inr ⟨by simp [MemoryIdempotencyStore.begin,hr],hlt,
          by simp [MemoryIdempotencyStore.begin,hr]⟩

/-- A call leaves the entries of the other keys alone. -/
theorem handle_get_ne (o : IdempotencyOp) (hk : key ≠ o.key) :
    (handle o now st).2.entries.get key = st.entries.get key := by
  cases o with
  | «begin» k ttlMs =>
    rcases begin_cases st now k ttlMs with ⟨-,-,-,h⟩ | ⟨-,-,h⟩
    · exact h key hk
    · simp only [handle,h]
  | commit k response ttlMs =>
    simp only [handle,commit]
    cases st.entries.get k with
    | none => rfl
    | some _ => exact JsMap.get_set_ne _ _ hk
  | release k => exact JsMap.get_delete_ne _ hk

theorem slotEntry_ne (o : IdempotencyOp) (p : Nat) (r : Except Thrown (IdempotencyOp.Ret o))
    (hk : key ≠ o.key) : slotEntry key p now o r = [] := by
  unfold slotEntry
  cases ho : slotAct now o r with
  | none => rfl
  | some ka =>
    have : ka.1 = o.key := by
      unfold slotAct at ho
      split at ho <;> cases ho <;> rfl
    simp [this,Ne.symm hk]

/-- An empty slot is left empty by whoever settles the key. -/
theorem handle_get_of_none (o : IdempotencyOp) (hs : o.settles)
    (hn : st.entries.get o.key = none) : (handle o now st).2.entries.get o.key = none := by
  cases o with
  | «begin» k ttlMs => cases hs
  | commit k response ttlMs =>
    simp only [IdempotencyOp.key] at hn
    simp [handle,commit,hn,IdempotencyOp.key]
  | release k => simp [handle,release,IdempotencyOp.key]

/-- The slot of every key stays fenced when whoever settles it may. -/
theorem handle_fenced {log : Lease.Log} (o : IdempotencyOp) (p : Nat)
    (h : Lease.Fenced (st.slot key) now.getTime log)
    (ha : o.settles → o.key = key → Lease.MayAct (st.slot key) now.getTime log p) :
    Lease.Fenced ((handle o now st).2.slot key) now.getTime
      (slotEntry key p now o (handle o now st).1 ++ log) := by
  by_cases hk : key = o.key
  · subst hk
    cases o with
    | «begin» k ttlMs =>
      have hr : (handle (.begin k ttlMs) now st).1 = .ok (st.begin now k ttlMs).1 := rfl
      simp only [IdempotencyOp.key] at h ⊢
      rcases begin_cases st now k ttlMs with ⟨h₁,hfree,hslot,-⟩ | ⟨h₁,-,hst⟩
      · rw [hr,h₁,show (handle (.begin k ttlMs) now st).2.slot k = _ from hslot]
        simpa [slotEntry,slotAct] using h.grant hfree
      · rw [hr,show (handle (.begin k ttlMs) now st).2 = st from hst]
        cases hb : (st.begin now k ttlMs).1 with
        | claimed => exact absurd hb h₁
        | inFlight => exact h
        | replay response => exact h
    | commit k response ttlMs =>
      have hown := h.own_or_none (ha rfl rfl)
      simp only [IdempotencyOp.key] at h hown ⊢
      cases hg : st.entries.get k with
      | none =>
        have hh : handle (.commit k response ttlMs) now st = (.error (unclaimedKey k),st) := by
          simp [handle,commit,hg]
        rw [hh]
        exact h
      | some e =>
        have hh : handle (.commit k response ttlMs) now st =
            (.ok (),⟨st.entries.set k (.committed response (now.getTime + ttlMs))⟩) := by
          simp [handle,commit,hg]
        have hp : Lease.latest log = some p := by simpa [slot,hg] using hown
        rw [hh]
        simpa [slotEntry,slotAct,slot,Entry.expiresAt] using h.renew hp
    | release k =>
      have hown := h.own_or_none (ha rfl rfl)
      simpa [slotEntry,slotAct,handle,IdempotencyOp.key] using h.drop hown
  · rw [slotEntry_ne o p _ hk,slot,handle_get_ne o hk]
    exact h

end MemoryIdempotencyStore

/-- The store beside a clock that no call turns back. -/
structure IdempotencyHost where
  now : Date
  store : MemoryIdempotencyStore

/-- The choice is the time that passes before the call. -/
def IdempotencyHost.handle : Handler IdempotencyStore Thrown IdempotencyHost Nat
  | o, elapsed, w =>
      ((MemoryIdempotencyStore.handle o (w.now.addMs elapsed) w.store).1,
        ⟨w.now.addMs elapsed,(MemoryIdempotencyStore.handle o (w.now.addMs elapsed) w.store).2⟩)

abbrev IdempotencyEvent := Event IdempotencyStore Thrown IdempotencyHost
abbrev IdempotencyConfig := Config IdempotencyStore Thrown Unit IdempotencyHost

/-- Who claimed, renewed and dropped the slot of the key, newest first. -/
def slotLog (key : String) (history : List IdempotencyEvent) : Lease.Log :=
  history.flatMap (fun e => slotEntry key e.pid e.after.now e.op e.result)

/-- A caller commits or releases while its claim lasts, while nobody has claimed the key after it,
or when nothing is stored under the key. -/
def SettlesOwnSlot (c : IdempotencyConfig) (p elapsed : Nat) : Prop :=
  ∀ o ∈ (c.procs p).nextOp, o.settles → Lease.MayAct (c.shared.store.slot o.key)
    (c.shared.now.addMs elapsed).getTime (slotLog o.key c.history) p

instance (c : IdempotencyConfig) (p elapsed : Nat) : Decidable (SettlesOwnSlot c p elapsed) := by
  unfold SettlesOwnSlot
  infer_instance

/-- At most one unexpired claim, and no harm from the callers whose claims have expired. -/
structure SlotOwnership (key : String) (c : IdempotencyConfig) : Prop where
  oneHolder : ∀ p q e e', Lease.claim p (slotLog key c.history) = some e →
    Lease.claim q (slotLog key c.history) = some e' → c.shared.now.getTime < e →
    c.shared.now.getTime < e' → p = q
  lateHarmless : ∀ e older, e :: older <:+ c.history → e.op.settles → e.op.key = key →
    ∀ expires, Lease.claim e.pid (slotLog key older) = some expires →
      expires ≤ e.after.now.getTime → ∀ q ≠ e.pid, Lease.latest (slotLog key older) = some q →
      e.after.store.entries.get key = e.before.store.entries.get key

section runs
variable {c : IdempotencyConfig} {key : String} {p elapsed : Nat} {o : IdempotencyOp}
  {k : Except Thrown (IdempotencyOp.Ret o) → Program IdempotencyStore Thrown Unit}

theorem fenced_step
    (h : Lease.Fenced (c.shared.store.slot key) c.shared.now.getTime (slotLog key c.history))
    (hp : c.procs p = .call o k) (hok : SettlesOwnSlot c p elapsed) :
    Lease.Fenced ((c.after IdempotencyHost.handle p o k elapsed).shared.store.slot key)
      (c.after IdempotencyHost.handle p o k elapsed).shared.now.getTime
      (slotLog key (c.after IdempotencyHost.handle p o k elapsed).history) := by
  have hlater : Lease.Fenced (c.shared.store.slot key) (c.shared.now.addMs elapsed).getTime
      (slotLog key c.history) := h.later (by simp only [Date.addMs]; omega)
  refine MemoryIdempotencyStore.handle_fenced o p hlater fun hs hk => ?_
  subst hk
  exact hok o (by rw [hp]; rfl) hs

theorem lateHarmless_step (hp : c.procs p = .call o k) (hok : SettlesOwnSlot c p elapsed)
    (hs : o.settles) {expires : Int} (hc : Lease.claim p (slotLog o.key c.history) = some expires)
    (he : expires ≤ (c.shared.now.addMs elapsed).getTime) {q : Nat} (hq : q ≠ p)
    (hl : Lease.latest (slotLog o.key c.history) = some q) :
    (IdempotencyHost.handle o elapsed c.shared).2.store.entries.get o.key =
      c.shared.store.entries.get o.key := by
  have hmay := hok o (by rw [hp]; rfl) hs
  have hnone : c.shared.store.entries.get o.key = none := by
    rcases hmay with ⟨e,hte,hlt⟩ | hlp | hslot
    · rw [Lease.tenure_of_claim hc] at hte
      cases hte
      omega
    · rw [hl,Option.some.injEq] at hlp
      exact absurd hlp hq
    · simpa [MemoryIdempotencyStore.slot] using hslot
  rw [hnone]
  exact MemoryIdempotencyStore.handle_get_of_none o hs hnone

end runs

/-- The store is empty and no caller has taken a step. -/
def startCallers (now : Date) (callers : Nat → Program IdempotencyStore Thrown Unit) :
    IdempotencyConfig where
  shared := ⟨now,.empty⟩
  procs := callers

/-- Whatever the callers are and however they interleave. -/
theorem slotOwnership_of_settlesOwnSlot (now : Date)
    (callers : Nat → Program IdempotencyStore Thrown Unit) (key : String) (c : IdempotencyConfig)
    (hc : Reach IdempotencyHost.handle SettlesOwnSlot (startCallers now callers) c) :
    SlotOwnership key c := by
  have hfenced : Lease.Fenced (c.shared.store.slot key) c.shared.now.getTime
      (slotLog key c.history) := by
    refine Reach.invariant (I := fun c => Lease.Fenced (c.shared.store.slot key)
      c.shared.now.getTime (slotLog key c.history)) (Lease.Fenced.nil _ _) ?_ hc
    intro c p elapsed o k h hp hok
    exact fenced_step h hp hok
  constructor
  · intro p q e e' hp hq he he'
    exact hfenced.holder_unique (Lease.tenure_of_claim hp) (Lease.tenure_of_claim hq) he he'
  · refine Reach.invariant (I := fun c : IdempotencyConfig => ∀ e older, e :: older <:+ c.history →
      e.op.settles → e.op.key = key → ∀ expires, Lease.claim e.pid (slotLog key older) =
        some expires → expires ≤ e.after.now.getTime → ∀ q ≠ e.pid,
        Lease.latest (slotLog key older) = some q →
        e.after.store.entries.get key = e.before.store.entries.get key) ?_ ?_ hc
    · intro e older he
      simp [startCallers] at he
    · intro c p elapsed o k h hp hok e older he
      rcases List.suffix_cons_iff.1 he with heq | he
      · obtain ⟨rfl,rfl⟩ := List.cons.inj heq
        rintro hs rfl expires hcl hexp q hq hl
        exact lateHarmless_step hp hok hs hcl hexp hq hl
      · exact h e older he

/-- Claims the key for ten milliseconds and gives it up. -/
def sampleCaller (key : String) : Program IdempotencyStore Thrown Unit := do
  let result ← Program.perform (S := IdempotencyStore) (.begin key 10)
  match result with
  | .claimed => Program.perform (S := IdempotencyStore) (.release key)
  | _ => return ()

/-- The second caller waits until the first claim has expired. -/
theorem slotOwnership_of_timely_release :
    ∃ c, (startCallers Sample.clock (fun _ => sampleCaller "k")).run IdempotencyHost.handle
        SettlesOwnSlot [(0,0),(1,5),(0,1),(2,7)] = some c ∧ SlotOwnership "k" c := by
  refine ⟨_,rfl,?_⟩
  exact slotOwnership_of_settlesOwnSlot Sample.clock (fun _ => sampleCaller "k") "k" _
    (Reach.of_run [(0,0),(1,5),(0,1),(2,7)] .init rfl)

/-- The first caller releases the slot of the second, and a third caller claims it as well. -/
theorem slotOwnership_fails_after_late_release :
    ¬ ∀ c, Reach IdempotencyHost.handle (fun _ _ _ => True)
        (startCallers Sample.clock (fun _ => sampleCaller "k")) c → SlotOwnership "k" c := by
  intro hall
  have h := (hall _ (Reach.of_run [(0,0),(1,10),(0,1),(2,1)] .init rfl)).oneHolder 1 2 _ _ rfl rfl
  revert h
  decide

end Zatca
