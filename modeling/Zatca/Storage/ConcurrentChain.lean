import Zatca.Library.Interleaving
import Zatca.Storage.SequentialChain
set_option autoImplicit false

/-! Issue calls of one kind at the same time. A call holds its number from the first step and its
predecessor's digest from the second; nothing keeps another call from reading the same head in
between. -/

namespace Zatca
open Interaction

/-- Where an issue call stands between its storage steps. -/
inductive IssueStep where
  | start
  | counted (counter : CounterValue)
  | headRead (counter : CounterValue) (previousInvoiceHash : String)
  | done

namespace IssueStep

def number : IssueStep → Option Nat
  | .counted v | .headRead v _ => some v.sequence
  | _ => none

end IssueStep

section typestate
variable (B : Builders) (kind : InvoiceKind) (scope : TenantScope)

/-- The row is one the builder signed over the number and the digest that the call read. -/
def Signed (r : InvoiceRecord) : Prop :=
  r.kind = kind ∧ ∃ input signing built, B.build kind input signing = .ok built ∧
    built.invoiceHash = r.invoiceHash ∧ input.invoiceCounterNumber = r.counterNumber

def issueTypestate : Typestate StorageAdapter Thrown IssueStep where
  allows
    | .start, o => o = .incrementCounter scope
    | .counted _, o => o = .getPreviousHash scope (some kind)
    | .headRead v prev, o => ∃ r, o = .recordInvoice scope r ∧ r.counterNumber = v.sequence ∧
        r.previousInvoiceHash = prev ∧ Signed B kind r
    | .done, _ => False
  next
    | .start, .incrementCounter _, .ok v => .counted v
    | .counted v, .getPreviousHash _ _, .ok prev => .headRead v prev
    | _, _, _ => .done

theorem issuePhase2_conforms (args : IssueArgs) (hs : args.scope = scope) :
    (issueTypestate B kind scope).Conforms (fun _ _ => True) (issuePhase2 B kind args) .start := by
  subst hs
  simp only [issuePhase2,Program.bind_eq,Program.ofExcept_bind,StorageAdapter.incrementCounter,
    StorageAdapter.getPreviousHash,StorageAdapter.recordInvoice,Program.perform,Program.call_bind,
    Program.pure_eq]
  cases assertScope args.egsInfo args.scope with
  | error e => trivial
  | ok u =>
    refine Typestate.conforms_call.2 ⟨rfl,fun r => ?_⟩
    cases r with
    | error e => trivial
    | ok counter =>
      refine Typestate.conforms_call.2 ⟨rfl,fun r => ?_⟩
      cases r with
      | error e => trivial
      | ok prev =>
        simp only
        cases hb : B.build kind (fullInput kind args.toIssuePhase1Args counter prev) args.signing with
        | error e => trivial
        | ok built =>
          refine Typestate.conforms_call.2 ⟨⟨_,rfl,rfl,rfl,rfl,_,_,_,hb,rfl,rfl⟩,fun r => ?_⟩
          cases r with
          | error e => trivial
          | ok u => trivial

end typestate

abbrev IssueConfig := Config StorageAdapter Thrown IssuedInvoice MemoryStorage

/-- The number that an event handed out. -/
def numberTaken : Event StorageAdapter Thrown MemoryStorage → Option Nat
  | ⟨_,.incrementCounter _,.ok v,_,_⟩ => some v.sequence
  | _ => none

def isHeadRead : StorageOp → Bool
  | .getPreviousHash _ _ => true
  | _ => false

/-- What a step must respect: the counter is read within the month, and a call reads the head only
when no unfinished call holds a smaller number. -/
def Undisturbed (m : Int × Nat) (c : IssueConfig) (p : Nat) (now : Date) : Prop :=
  now.civil = m ∧ ((c.procs p).nextOp.any isHeadRead →
    ∀ e ∈ c.history, e.pid ≠ p → (c.procs e.pid).live → ∀ n ∈ numberTaken e,
      ∀ f ∈ c.history, f.pid = p → ∀ k ∈ numberTaken f, k < n)

instance (m : Int × Nat) (c : IssueConfig) (p : Nat) (now : Date) :
    Decidable (Undisturbed m c p now) := by
  unfold Undisturbed
  infer_instance

/-- Call `q` was handed the number `n`. -/
def Took (history : List (Event StorageAdapter Thrown MemoryStorage)) (q n : Nat) : Prop :=
  ∃ e ∈ history, e.pid = q ∧ numberTaken e = some n

theorem Took.cons {history : List (Event StorageAdapter Thrown MemoryStorage)} {q n : Nat}
    (h : Took history q n) (e : Event StorageAdapter Thrown MemoryStorage) :
    Took (e :: history) q n := by
  obtain ⟨f,hf,hq⟩ := h
  exact ⟨f,List.mem_cons_of_mem e hf,hq⟩

section invariant
variable (B : Builders) (kind : InvoiceKind) (ym : YearMonth)

/-- The recorded documents are one chain in the order of their numbers; the numbers still held are
larger than every recorded one; and who has read the head is the only one to have read it, with
the smallest number held. -/
structure ChainInv (l : Ledger) (live : Nat → Bool) (took : Nat → Nat → Prop)
    (t : Nat → IssueStep) : Prop where
  linked : LinkedRecords l.records
  ascending : Ascending l.records
  bounded : ∀ r ∈ l.records, r.counterNumber ≤ l.sequence ym
  signed : ∀ r ∈ l.records, Signed B kind r
  held : ∀ q n, live q → (t q).number = some n →
    n ≤ l.sequence ym ∧ (∀ r ∈ l.records, r.counterNumber < n) ∧ took q n
  first : ∀ p v prev, live p → t p = .headRead v prev → prev = l.head (some kind) ∧
    ∀ q n, q ≠ p → live q → (t q).number = some n → v.sequence < n

variable {B kind ym}
variable {l : Ledger} {live live' : Nat → Bool} {took took' : Nat → Nat → Prop}
  {t : Nat → IssueStep} {p : Nat}

theorem head_of_signed (h : ∀ r ∈ l.records, Signed B kind r) :
    l.head (some kind) =
      HashChain.head InvoiceRecord.invoiceHash ZATCA_BASE_INVOICE_HASH l.records := by
  have hf : l.records.filter (ChainKey.kind kind).covers = l.records := by
    rw [List.filter_eq_self]
    intro r hr
    simp [ChainKey.covers,(h r hr).1]
  rw [Ledger.head,ChainKey.ofOption,lastHash,hf]
  rfl

/-- Whoever leaves the protocol, by an error or at its end, leaves the ledger's chain intact. -/
theorem ChainInv.finish (h : ChainInv B kind ym l live took t)
    (hlive : ∀ q ≠ p, live' q = live q) (htook : ∀ q n, took q n → took' q n) :
    ChainInv B kind ym l live' took' (Function.update t p .done) where
  linked := h.linked
  ascending := h.ascending
  bounded := h.bounded
  signed := h.signed
  held q n hq hn := by
    by_cases hqp : q = p
    · subst hqp
      simp [IssueStep.number] at hn
    · rw [Function.update_of_ne hqp] at hn
      rw [hlive q hqp] at hq
      obtain ⟨h₁,h₂,h₃⟩ := h.held q n hq hn
      exact ⟨h₁,h₂,htook q n h₃⟩
  first p' v prev hp' ht := by
    by_cases hpp : p' = p
    · subst hpp
      simp at ht
    · rw [Function.update_of_ne hpp] at ht
      rw [hlive p' hpp] at hp'
      obtain ⟨h₁,h₂⟩ := h.first p' v prev hp' ht
      refine ⟨h₁,fun q n hqp' hq hn => ?_⟩
      by_cases hqp : q = p
      · subst hqp
        simp [IssueStep.number] at hn
      · rw [Function.update_of_ne hqp] at hn
        rw [hlive q hqp] at hq
        exact h₂ q n hqp' hq hn

/-- The number handed out is larger than every number held or recorded. -/
theorem ChainInv.increment (h : ChainInv B kind ym l live took t) {v : CounterValue}
    (hv : v.sequence = l.sequence ym + 1) (hlive : ∀ q ≠ p, live' q = live q)
    (htook : ∀ q n, took q n → took' q n) (hp : took' p v.sequence) :
    ChainInv B kind ym (l.next ym) live' took' (Function.update t p (.counted v)) where
  linked := h.linked
  ascending := h.ascending
  bounded r hr := by
    have := h.bounded r hr
    rw [Ledger.next_sequence_self]
    omega
  signed := h.signed
  held q n hq hn := by
    rw [Ledger.next_sequence_self]
    by_cases hqp : q = p
    · subst hqp
      simp only [Function.update_self,IssueStep.number,Option.some.injEq] at hn
      subst hn
      refine ⟨by omega,fun r hr => ?_,hp⟩
      have := h.bounded r hr
      omega
    · rw [Function.update_of_ne hqp] at hn
      rw [hlive q hqp] at hq
      obtain ⟨h₁,h₂,h₃⟩ := h.held q n hq hn
      exact ⟨by omega,h₂,htook q n h₃⟩
  first p' v' prev hp' ht := by
    by_cases hpp : p' = p
    · subst hpp
      simp at ht
    · rw [Function.update_of_ne hpp] at ht
      rw [hlive p' hpp] at hp'
      obtain ⟨h₁,h₂⟩ := h.first p' v' prev hp' ht
      refine ⟨h₁,fun q n hqp' hq hn => ?_⟩
      by_cases hqp : q = p
      · subst hqp
        simp only [Function.update_self,IssueStep.number,Option.some.injEq] at hn
        have := (h.held p' v'.sequence hp' (by rw [ht]; rfl)).1
        omega
      · rw [Function.update_of_ne hqp] at hn
        rw [hlive q hqp] at hq
        exact h₂ q n hqp' hq hn

/-- A head is read by the holder of the smallest number, hence by one call at a time. -/
theorem ChainInv.readHead (h : ChainInv B kind ym l live took t) {v : CounterValue}
    (hp : live p) (ht : t p = .counted v) (hlive : ∀ q ≠ p, live' q = live q)
    (htook : ∀ q n, took q n → took' q n)
    (hok : ∀ q n, q ≠ p → live q → took q n → ∀ k, took p k → k < n) :
    ChainInv B kind ym l live' took'
      (Function.update t p (.headRead v (l.head (some kind)))) where
  linked := h.linked
  ascending := h.ascending
  bounded := h.bounded
  signed := h.signed
  held q n hq hn := by
    by_cases hqp : q = p
    · subst hqp
      simp only [Function.update_self,IssueStep.number,Option.some.injEq] at hn
      obtain ⟨h₁,h₂,h₃⟩ := h.held q n hp (by rw [ht]; simpa [IssueStep.number] using hn)
      exact ⟨h₁,h₂,htook q n h₃⟩
    · rw [Function.update_of_ne hqp] at hn
      rw [hlive q hqp] at hq
      obtain ⟨h₁,h₂,h₃⟩ := h.held q n hq hn
      exact ⟨h₁,h₂,htook q n h₃⟩
  first p' v' prev hp' ht' := by
    have hpv := (h.held p v.sequence hp (by rw [ht]; rfl)).2.2
    by_cases hpp : p' = p
    · subst hpp
      simp only [Function.update_self,IssueStep.headRead.injEq] at ht'
      obtain ⟨rfl,rfl⟩ := ht'
      refine ⟨rfl,fun q n hqp hq hn => ?_⟩
      rw [Function.update_of_ne hqp] at hn
      rw [hlive q hqp] at hq
      exact hok q n hqp hq (h.held q n hq hn).2.2 _ hpv
    · -- the reader `p'` holds the smaller number, which `p` was not allowed to overtake
      rw [Function.update_of_ne hpp] at ht'
      rw [hlive p' hpp] at hp'
      have hlt := (h.first p' v' prev hp' ht').2 p v.sequence (Ne.symm hpp) hp (by rw [ht]; rfl)
      have hgt := hok p' v'.sequence hpp hp' (h.held p' _ hp' (by rw [ht']; rfl)).2.2 _ hpv
      omega

/-- The reader's document names the head, carries the largest recorded number and ends its claim. -/
theorem ChainInv.record (h : ChainInv B kind ym l live took t) {v : CounterValue} {prev : String}
    {r : InvoiceRecord} (hp : live p) (ht : t p = .headRead v prev)
    (hlive : ∀ q ≠ p, live' q = live q) (htook : ∀ q n, took q n → took' q n)
    (hnum : r.counterNumber = v.sequence) (hprev : r.previousInvoiceHash = prev)
    (hsig : Signed B kind r) (hf : l.find r.invoiceId = none) :
    ChainInv B kind ym (l.append r hf) live' took' (Function.update t p .done) := by
  have hheld := h.held p v.sequence hp (by rw [ht]; rfl)
  obtain ⟨hhead,hmin⟩ := h.first p v prev hp ht
  refine ⟨?_,?_,?_,?_,?_,?_⟩
  · rw [LinkedRecords,Ledger.append,HashChain.linked_concat,← head_of_signed h.signed,hprev]
    exact ⟨h.linked,hhead⟩
  · rw [Ascending,Ledger.append,List.pairwise_append]
    refine ⟨h.ascending,List.pairwise_singleton _ _,fun s hs s' hs' => ?_⟩
    rw [List.mem_singleton] at hs'
    subst hs'
    rw [hnum]
    exact hheld.2.1 s hs
  · intro s hs
    rcases List.mem_append.1 hs with hs | hs
    · exact h.bounded s hs
    · rw [List.mem_singleton.1 hs,hnum]
      exact hheld.1
  · intro s hs
    rcases List.mem_append.1 hs with hs | hs
    · exact h.signed s hs
    · rw [List.mem_singleton.1 hs]
      exact hsig
  · intro q n hq hn
    by_cases hqp : q = p
    · subst hqp
      simp [IssueStep.number] at hn
    · rw [Function.update_of_ne hqp] at hn
      rw [hlive q hqp] at hq
      obtain ⟨h₁,h₂,h₃⟩ := h.held q n hq hn
      refine ⟨h₁,fun s hs => ?_,htook q n h₃⟩
      rcases List.mem_append.1 hs with hs | hs
      · exact h₂ s hs
      · rw [List.mem_singleton.1 hs,hnum]
        exact hmin q n hqp hq hn
  · intro p' v' prev' hp' ht'
    by_cases hpp : p' = p
    · subst hpp
      simp at ht'
    · -- two readers at once would each hold the smaller number
      rw [Function.update_of_ne hpp] at ht'
      rw [hlive p' hpp] at hp'
      have h₁ := (h.first p' v' prev' hp' ht').2 p v.sequence (Ne.symm hpp) hp (by rw [ht]; rfl)
      have h₂ := hmin p' v'.sequence hpp hp' (by rw [ht']; rfl)
      omega

end invariant

section runs
variable {B : Builders} {kind : InvoiceKind} {scope : TenantScope} {m : Int × Nat}
  {format : InvoiceNumberFormatter} {c : IssueConfig} {t : Nat → IssueStep} {p : Nat} {now : Date}

def ConfigInv (B : Builders) (kind : InvoiceKind) (scope : TenantScope) (m : Int × Nat)
    (c : IssueConfig) (t : Nat → IssueStep) : Prop :=
  ChainInv B kind (yearMonthText m.1 m.2) (c.shared.ledger (scopeKey scope))
    (fun q => (c.procs q).live) (Took c.history) t

theorem configInv_step {o : StorageOp}
    {k : Except Thrown (StorageOp.Ret o) → Program StorageAdapter Thrown IssuedInvoice}
    (h : ConfigInv B kind scope m c t) (hp : c.procs p = .call o k)
    (ha : (issueTypestate B kind scope).allows (t p) o) (hok : Undisturbed m c p now) :
    ConfigInv B kind scope m (c.after (MemoryStorage.handle format) p o k now)
      (Function.update t p ((issueTypestate B kind scope).next (t p) o
        (MemoryStorage.handle format o now c.shared).1)) := by
  have hlivep : (c.procs p).live := by rw [hp]; rfl
  have hlive : ∀ q ≠ p, ((c.after (MemoryStorage.handle format) p o k now).procs q).live =
      (c.procs q).live := by
    intro q hq
    rw [Config.after_procs_ne _ _ _ _ _ hq]
  have htook : ∀ q n, Took c.history q n →
      Took (c.after (MemoryStorage.handle format) p o k now).history q n :=
    fun q n hq => hq.cons _
  have hledger := MemoryStorage.handle_ledger format c.shared now o
  unfold ConfigInv at h ⊢
  cases ht : t p with
  | start =>
    rw [ht] at ha
    cases ha
    have hym : (yearMonthFor now).yearMonth = yearMonthText m.1 m.2 := by
      rw [← hok.1]
      rfl
    have hl : (c.after (MemoryStorage.handle format) p (.incrementCounter scope) k now).shared.ledger
        (scopeKey scope) = (c.shared.ledger (scopeKey scope)).next (yearMonthText m.1 m.2) := by
      rw [← hym]
      exact MemoryStorage.handle_ledger_self format c.shared now (.incrementCounter scope)
    rw [hl]
    refine h.increment ?_ hlive htook ⟨_,List.mem_cons_self,rfl,rfl⟩
    rw [← hym]
    rfl
  | counted v =>
    rw [ht] at ha
    cases ha
    have hnext : (issueTypestate B kind scope).next (.counted v)
        (.getPreviousHash scope (some kind))
        (MemoryStorage.handle format (.getPreviousHash scope (some kind)) now c.shared).1 =
          .headRead v ((c.shared.ledger (scopeKey scope)).head (some kind)) := by
      rw [hledger.1]
      rfl
    rw [hnext]
    refine h.readHead hlivep ht hlive htook fun q n hqp hq hqn k' hpk => ?_
    obtain ⟨e,he,rfl,hn⟩ := hqn
    obtain ⟨f,hf,hfp,hk⟩ := hpk
    exact hok.2 (by rw [hp]; rfl) e he hqp hq n hn f hf hfp k' hk
  | headRead v prev =>
    rw [ht] at ha
    obtain ⟨r,rfl,hnum,hprev,hsig⟩ := ha
    have hl : (c.after (MemoryStorage.handle format) p (.recordInvoice scope r) k now).shared.ledger
        (scopeKey scope) = (Ledger.handle format (.recordInvoice scope r) now
          (c.shared.ledger (scopeKey scope))).2 :=
      MemoryStorage.handle_ledger_self format c.shared now (.recordInvoice scope r)
    rw [hl]
    cases hf : (c.shared.ledger (scopeKey scope)).find r.invoiceId with
    | some existing =>
      rw [Ledger.handle_record_of_some _ _ _ _ hf]
      exact h.finish hlive htook
    | none =>
      rw [Ledger.handle_record_of_none _ _ _ _ hf]
      exact h.record hlivep ht hlive htook hnum hprev hsig hf
  | done =>
    rw [ht] at ha
    exact ha.elim

/-- The builder's digests commit to the number of the document and never hit the base digest. -/
structure CollisionFree (B : Builders) (kind : InvoiceKind) : Prop where
  injective : ∀ i j s s' b b', B.build kind i s = .ok b → B.build kind j s' = .ok b' →
    b.invoiceHash = b'.invoiceHash → i.invoiceCounterNumber = j.invoiceCounterNumber
  ne_base : ∀ i s b, B.build kind i s = .ok b → b.invoiceHash ≠ ZATCA_BASE_INVOICE_HASH

theorem nodup_hash_of_signed {records : List InvoiceRecord} (hB : CollisionFree B kind)
    (ha : Ascending records) (hs : ∀ r ∈ records, Signed B kind r) :
    (records.map InvoiceRecord.invoiceHash).Nodup := by
  rw [List.Nodup,List.pairwise_map]
  refine ha.imp_of_mem fun {r s} hr hs' hlt heq => ?_
  obtain ⟨-,i,_,b,hb,hbr,hi⟩ := hs r hr
  obtain ⟨-,j,_,b',hb',hbs,hj⟩ := hs s hs'
  have := hB.injective i j _ _ b b' hb hb' (hbr.trans (heq.trans hbs.symm))
  omega

/-- No digest is named by two records, and the links from the base digest pass through all records
in the order of their numbers. -/
structure NoFork (records : List InvoiceRecord) : Prop where
  distinct : (records.map InvoiceRecord.previousInvoiceHash).Nodup
  path : ∃ l, l.Perm records ∧ LinkedRecords l ∧ Ascending l

/-- The memory storage and the issue calls, before any of them has taken a step. -/
def startIssues (B : Builders) (kind : Phase2Kind) (calls : Nat → IssueArgs) (st : MemoryStorage) :
    IssueConfig where
  shared := st
  procs p := phase2Issuer B kind (calls p)

/-- In every run whose head reads are all undisturbed, the chain of the kind does not fork. -/
theorem noFork_of_undisturbed (format : InvoiceNumberFormatter) (B : Builders) (kind : Phase2Kind)
    (scope : TenantScope) (m : Int × Nat) (calls : Nat → IssueArgs) (st : MemoryStorage)
    (hB : CollisionFree B kind.1) (hscope : ∀ p, (calls p).scope = scope)
    (hempty : st.ledger (scopeKey scope) = .empty) (c : IssueConfig)
    (hc : Reach (MemoryStorage.handle format) (Undisturbed m) (startIssues B kind calls st) c) :
    NoFork (c.shared.ledger (scopeKey scope)).records := by
  have hconf : ∀ q, (issueTypestate B kind.1 scope).Conforms (fun _ _ => True)
      ((startIssues B kind calls st).procs q) .start := by
    intro q
    simp only [startIssues,phase2Issuer_eq]
    exact issuePhase2_conforms B kind.1 scope (calls q) (hscope q)
  have hinit : ConfigInv B kind.1 scope m (startIssues B kind calls st) (fun _ => .start) := by
    unfold ConfigInv
    rw [show (startIssues B kind calls st).shared = st from rfl,hempty]
    refine ⟨by simp [Ledger.empty,LinkedRecords],List.Pairwise.nil,by simp [Ledger.empty],
      by simp [Ledger.empty],?_,?_⟩
    · intro q n _ hn
      cases hn
    · intro q v prev _ ht
      cases ht
  obtain ⟨t,h,-⟩ := Typestate.reach_invariant (ConfigInv B kind.1 scope m) hinit hconf
    (fun c t p x o k hI _ hp ha hok => configInv_step hI hp ha hok) hc
  refine ⟨?_,_,List.Perm.refl _,h.linked,h.ascending⟩
  refine HashChain.nodup_prev_of_linked _ _ _ h.linked
    (nodup_hash_of_signed hB h.ascending h.signed) fun r hr => ?_
  obtain ⟨-,i,s,b,hb,hbr,-⟩ := h.signed r hr
  exact hbr ▸ hB.ne_base i s b hb

theorem sample_collisionFree (kind : InvoiceKind) : CollisionFree Sample.builders kind where
  injective i j s s' b b' hb hb' heq := by
    cases hb
    cases hb'
    have h := congrArg String.toList heq
    simp only [String.toList_append,List.append_cancel_left_eq,String.toList_inj] at h
    exact toString_nat_inj h
  ne_base i s b hb := by
    cases hb
    intro h
    have := congrArg (fun s => s.toList.head?) h
    simp [ZATCA_BASE_INVOICE_HASH,String.toList_append] at this

def sampleCalls (p : Nat) : IssueArgs := Sample.args ("order-" ++ toString p)

def sampleKind : Phase2Kind := ⟨.simplifiedTaxInvoice,InvoiceKind.isPhase1_simplifiedTaxInvoice⟩

/-- The second call counts before the first one reads the head. -/
def overlap : List (Nat × Date) := [0,1,0,0,1,1].map (fun p => (p,Sample.clock))

theorem noFork_of_overlap :
    ∃ c, (startIssues Sample.builders sampleKind sampleCalls .empty).run
        (MemoryStorage.handle defaultFormatter) (Undisturbed (2026,5)) overlap = some c ∧
      NoFork (c.shared.ledger (scopeKey Sample.scope)).records := by
  refine ⟨_,rfl,?_⟩
  exact noFork_of_undisturbed defaultFormatter Sample.builders sampleKind Sample.scope (2026,5)
    sampleCalls .empty (sample_collisionFree _) (fun _ => rfl) rfl _
    (Reach.of_run overlap .init rfl)

/-- Both calls read the head before either records: the chain forks at the base digest. -/
theorem noFork_fails_when_disturbed :
    ¬ ∀ c, Reach (MemoryStorage.handle defaultFormatter) (fun _ _ now => now.civil = (2026,5))
        (startIssues Sample.builders sampleKind sampleCalls .empty) c →
      NoFork (c.shared.ledger (scopeKey Sample.scope)).records := by
  intro hall
  have h := (hall _ (Reach.of_run ([0,1,0,1,0,1].map (fun p => (p,Sample.clock))) .init rfl)).distinct
  revert h
  decide

end runs
end Zatca
