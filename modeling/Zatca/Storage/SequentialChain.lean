import Zatca.Storage.Ledger
import Mathlib.Order.Defs.LinearOrder
set_option autoImplicit false

/-! Issue calls one after the other. The issuers read the head of their own kind's chain, so
every kind has a linear chain, and the scope as a whole has one only while a single kind is
issued. -/

namespace Zatca
open Interaction

theorem issuePhase2_calls (B : Builders) (kind : InvoiceKind) (args : IssueArgs) :
    (issuePhase2 B kind args).Calls (fun o => StorageOp.scope o = args.scope) := by
  refine Program.calls_bind (Program.calls_ofExcept _ _) fun _ => ?_
  refine Program.calls_bind (Program.calls_perform rfl) fun counter => ?_
  refine Program.calls_bind (Program.calls_perform rfl) fun prev => ?_
  refine Program.calls_bind (Program.calls_ofExcept _ _) fun built => ?_
  exact Program.calls_bind (Program.calls_perform rfl) fun _ => trivial

section ledger
variable (format : InvoiceNumberFormatter) (B : Builders) (kind : InvoiceKind) (args : IssueArgs)
  (now : Date) (l : Ledger)

def Ledger.build : Except Thrown BuiltInvoice :=
  B.build kind (fullInput kind args.toIssuePhase1Args (l.counter format now args.scope)
    (l.head (some kind))) args.signing

/-- The row an undisturbed issue call offers to the ledger. -/
def Ledger.document (built : BuiltInvoice) : InvoiceRecord :=
  phase2Record kind args (l.counter format now args.scope) (l.head (some kind)) built

/-- What one undisturbed issue call does to its scope's ledger. -/
theorem exec_issuePhase2 :
    (issuePhase2 B kind args).exec (Ledger.handle format) (fun _ => now) l =
      match assertScope args.egsInfo args.scope with
      | .error e => (.error e,l)
      | .ok () =>
          match l.build format B kind args now with
          | .error e => (.error e,l.next (yearMonthFor now).yearMonth)
          | .ok built =>
              let out := Ledger.handle format
                (.recordInvoice args.scope (l.document format kind args now built)) now
                (l.next (yearMonthFor now).yearMonth)
              (out.1.map fun _ =>
                { invoiceXml := built.invoiceXml, signedXml := built.signedXml
                  invoiceHash := built.invoiceHash, qrCode := built.qrCode
                  sequence := (l.counter format now args.scope).sequence
                  invoiceNumber := (l.counter format now args.scope).invoiceNumber },out.2) := by
  have hinc : Ledger.handle format (.incrementCounter args.scope) now l =
      (.ok (l.counter format now args.scope),l.next (yearMonthFor now).yearMonth) := rfl
  have hhead : Ledger.handle format (.getPreviousHash args.scope (some kind)) now
      (l.next (yearMonthFor now).yearMonth) =
        (.ok (l.head (some kind)),l.next (yearMonthFor now).yearMonth) := rfl
  simp only [issuePhase2,Program.bind_eq,Program.ofExcept_bind,StorageAdapter.incrementCounter,
    StorageAdapter.getPreviousHash,StorageAdapter.recordInvoice,Program.perform,Program.call_bind,
    Program.pure_eq]
  cases assertScope args.egsInfo args.scope with
  | error e => rfl
  | ok u =>
    simp only [Program.exec_call,hinc,hhead]
    unfold Ledger.build
    cases B.build kind (fullInput kind args.toIssuePhase1Args (l.counter format now args.scope)
      (l.head (some kind))) args.signing with
    | error e => rfl
    | ok built =>
      simp only [Program.exec_call,Ledger.document]
      generalize Ledger.handle format (.recordInvoice args.scope (phase2Record kind args
        (l.counter format now args.scope) (l.head (some kind)) built)) now
        (l.next (yearMonthFor now).yearMonth) = out
      obtain ⟨r,l'⟩ := out
      cases r with
      | ok u => rfl
      | error e => rfl

end ledger

abbrev LinkedRecords (records : List InvoiceRecord) : Prop :=
  HashChain.Linked InvoiceRecord.previousInvoiceHash InvoiceRecord.invoiceHash
    ZATCA_BASE_INVOICE_HASH records

def byCounter (records : List InvoiceRecord) : List InvoiceRecord :=
  records.insertionSort (fun a b => a.counterNumber ≤ b.counterNumber)

/-- One chain for the scope: in the order of the counter numbers, every record names the digest of
the one before. -/
def LinearChain (records : List InvoiceRecord) : Prop := LinkedRecords (byCounter records)

instance (records : List InvoiceRecord) : Decidable (LinearChain records) :=
  inferInstanceAs (Decidable (LinkedRecords _))

abbrev Ascending (records : List InvoiceRecord) : Prop :=
  records.Pairwise (fun a b => a.counterNumber < b.counterNumber)

theorem byCounter_of_ascending {records : List InvoiceRecord} (h : Ascending records) :
    byCounter records = records :=
  (h.imp Nat.le_of_lt).insertionSort_eq

/-- Every record names the head that its kind's chain had when it was appended. -/
def Honest (records : List InvoiceRecord) : Prop :=
  ∀ pre r post, records = pre ++ r :: post →
    r.previousInvoiceHash = (lastHash (.kind r.kind) pre).getD ZATCA_BASE_INVOICE_HASH

theorem honest_concat {records : List InvoiceRecord} {r : InvoiceRecord} :
    Honest (records ++ [r]) ↔ Honest records ∧
      r.previousInvoiceHash = (lastHash (.kind r.kind) records).getD ZATCA_BASE_INVOICE_HASH := by
  constructor
  · intro h
    refine ⟨fun pre r' post he => ?_,h records r [] rfl⟩
    exact h pre r' (post ++ [r]) (by rw [he]; simp)
  · rintro ⟨h,hr⟩ pre r' post he
    rcases List.eq_nil_or_concat post with rfl | ⟨post,q,rfl⟩
    · obtain ⟨rfl,hq⟩ := List.append_inj' he rfl
      cases hq
      exact hr
    · rw [List.concat_eq_append,← List.cons_append,← List.append_assoc] at he
      exact h pre r' post (List.append_inj' he rfl).1

/-- Whatever the mix of kinds, the documents of one kind form a linear chain. -/
theorem linked_kind_of_honest {records : List InvoiceRecord} (h : Honest records)
    (k : InvoiceKind) : LinkedRecords (records.filter (ChainKey.kind k).covers) := by
  induction records using List.reverseRecOn with
  | nil => simp [LinkedRecords]
  | append_singleton records r ih =>
    rw [honest_concat] at h
    by_cases hk : r.kind = k
    · subst hk
      have hf : (records ++ [r]).filter (ChainKey.kind r.kind).covers =
          records.filter (ChainKey.kind r.kind).covers ++ [r] := by
        simp [List.filter_append,ChainKey.covers]
      rw [hf,LinkedRecords,HashChain.linked_concat]
      exact ⟨ih h.1,h.2⟩
    · simpa [List.filter_append,ChainKey.covers,hk] using ih h.1

/-- If all digests are the same and not the base, then one chain for the scope means one kind. -/
theorem kind_eq_of_linked {records : List InvoiceRecord} {h₀ : String}
    (hne : h₀ ≠ ZATCA_BASE_INVOICE_HASH) (hh : ∀ r ∈ records, r.invoiceHash = h₀)
    (hhon : Honest records) (hl : LinkedRecords records) :
    ∀ r ∈ records, ∀ s ∈ records, r.kind = s.kind := by
  induction records using List.reverseRecOn with
  | nil => simp
  | append_singleton records r ih =>
    rw [honest_concat] at hhon
    rw [LinkedRecords,HashChain.linked_concat] at hl
    have ih := ih (fun s hs => hh s (List.mem_append_left _ hs)) hhon.1 hl.1
    have hr : ∀ s ∈ records, s.kind = r.kind := by
      intro s hs
      rcases List.eq_nil_or_concat records with rfl | ⟨records,q,rfl⟩
      · cases hs
      · have hq : r.previousInvoiceHash = h₀ := by
          rw [hl.2,List.concat_eq_append,HashChain.head_concat]
          exact hh q (by simp)
        cases hlast : lastHash (.kind r.kind) (records.concat q) with
        | none =>
          rw [hhon.2,hlast,Option.getD_none] at hq
          exact absurd hq.symm hne
        | some d =>
          simp only [lastHash,Option.map_eq_some_iff] at hlast
          obtain ⟨t,ht,-⟩ := hlast
          have htm := List.mem_of_getLast? ht
          rw [List.mem_filter] at htm
          have htk : t.kind = r.kind := by simpa [ChainKey.covers] using htm.2
          exact (ih s hs t htm.1).trans htk
    intro s hs t ht
    rw [List.mem_append,List.mem_singleton] at hs ht
    rcases hs with hs | rfl
    · rcases ht with ht | rfl
      · exact ih s hs t ht
      · exact hr s hs
    · rcases ht with ht | rfl
      · exact (hr t ht).symm
      · rfl

/-- What a ledger keeps while its documents are issued in the month `m` only. -/
structure Ledger.Sound (m : YearMonth) (l : Ledger) : Prop where
  bounded : ∀ r ∈ l.records, r.counterNumber ≤ l.sequence m
  ascending : Ascending l.records
  honest : Honest l.records

theorem Ledger.sound_empty (m : YearMonth) : Ledger.empty.Sound m where
  bounded := by simp [Ledger.empty]
  ascending := List.Pairwise.nil
  honest pre r post h := by simp [Ledger.empty] at h

theorem Ledger.Sound.document {m : YearMonth} {l l' : Ledger} {r : InvoiceRecord}
    (h : l.Sound m) (hrec : l'.records = l.records ++ [r])
    (hseq : l'.sequence m = l.sequence m + 1) (hr : r.counterNumber = l.sequence m + 1)
    (hprev : r.previousInvoiceHash = l.head (some r.kind)) : l'.Sound m where
  bounded s hs := by
    rw [hrec,List.mem_append,List.mem_singleton] at hs
    rcases hs with hs | rfl
    · have := h.bounded s hs
      omega
    · omega
  ascending := by
    rw [Ascending,hrec,List.pairwise_append]
    refine ⟨h.ascending,List.pairwise_singleton _ _,fun s hs t ht => ?_⟩
    rw [List.mem_singleton] at ht
    subst ht
    have := h.bounded s hs
    omega
  honest := by
    rw [hrec,honest_concat]
    exact ⟨h.honest,hprev⟩

/-- A successful call appends its document: the row it offers is new, its number is higher than
every number on the ledger. -/
theorem issue_ok {format : InvoiceNumberFormatter} {B : Builders} {kind : InvoiceKind}
    {args : IssueArgs} {now : Date} {l l' : Ledger} {issued : IssuedInvoice}
    (hs : l.Sound (yearMonthFor now).yearMonth)
    (h : (issuePhase2 B kind args).exec (Ledger.handle format) (fun _ => now) l =
      (.ok issued,l')) :
    assertScope args.egsInfo args.scope = .ok () ∧
      ∃ built, l.build format B kind args now = .ok built ∧
      l'.records = l.records ++ [l.document format kind args now built] ∧
      l'.sequence = (l.next (yearMonthFor now).yearMonth).sequence := by
  rw [exec_issuePhase2] at h
  cases ha : assertScope args.egsInfo args.scope with
  | error e => simp [ha] at h
  | ok u =>
    cases hb : l.build format B kind args now with
    | error e => simp [ha,hb] at h
    | ok built =>
      simp only [ha,hb] at h
      cases hf : (l.next (yearMonthFor now).yearMonth).find
          (l.document format kind args now built).invoiceId with
      | some existing =>
        rw [Ledger.handle_record_of_some _ _ _ _ hf] at h
        by_cases he : existing = l.document format kind args now built
        · have hmem : existing ∈ l.records := List.mem_of_find?_eq_some hf
          have hle := hs.bounded existing hmem
          rw [he] at hle
          have hnum : (l.document format kind args now built).counterNumber =
              l.sequence (yearMonthFor now).yearMonth + 1 := rfl
          omega
        · simp [he,Except.map] at h
      | none =>
        rw [Ledger.handle_record_of_none _ _ _ _ hf] at h
        simp only [Prod.mk.injEq] at h
        obtain ⟨-,rfl⟩ := h
        exact ⟨rfl,built,rfl,rfl,rfl⟩

/-- A call whose EGS is the scope's, whose document builds and whose key is new succeeds. -/
theorem issue_of_fresh {format : InvoiceNumberFormatter} {B : Builders} {kind : InvoiceKind}
    {args : IssueArgs} {now : Date} {l : Ledger} {built : BuiltInvoice}
    (ha : assertScope args.egsInfo args.scope = .ok ())
    (hb : l.build format B kind args now = .ok built)
    (hf : (l.next (yearMonthFor now).yearMonth).find
      (l.document format kind args now built).invoiceId = none) :
    ∃ issued, (issuePhase2 B kind args).exec (Ledger.handle format) (fun _ => now) l =
      (.ok issued,(l.next (yearMonthFor now).yearMonth).append
        (l.document format kind args now built) hf) := by
  rw [exec_issuePhase2,ha,hb]
  simp only [Ledger.handle_record_of_none _ _ _ _ hf]
  exact ⟨_,rfl⟩

/-- One call of a sequence, with the reading of the adapter's clock it meets. -/
structure IssueCall where
  kind : Phase2Kind
  args : IssueArgs
  clock : Date

def IssueCall.program (B : Builders) (c : IssueCall) :
    Program StorageAdapter Thrown IssuedInvoice := phase2Issuer B c.kind c.args

/-- The state after all the calls, one after the other, if each of them succeeds. -/
def runCalls {σ : Type} (h : Handler StorageAdapter Thrown σ Date) (B : Builders) :
    List IssueCall → σ → Except Thrown σ
  | [], s => .ok s
  | c :: cs, s =>
      match (c.program B).exec h (fun _ => c.clock) s with
      | (.ok _,s') => runCalls h B cs s'
      | (.error e,_) => .error e

theorem runCalls_ledger (format : InvoiceNumberFormatter) (B : Builders) {scope : TenantScope}
    {cs : List IssueCall} (hscope : ∀ c ∈ cs, c.args.scope = scope) (st : MemoryStorage) :
    (runCalls (MemoryStorage.handle format) B cs st).map (fun s => s.ledger (scopeKey scope)) =
      runCalls (Ledger.handle format) B cs (st.ledger (scopeKey scope)) := by
  induction cs generalizing st with
  | nil => rfl
  | cons c cs ih =>
    have hc := hscope c List.mem_cons_self
    have ih := ih (fun d hd => hscope d (List.mem_cons_of_mem c hd))
    have hcalls : (c.program B).Calls (fun o => StorageOp.scope o = scope) := by
      rw [IssueCall.program,phase2Issuer_eq,← hc]
      exact issuePhase2_calls B c.kind.1 c.args
    have hexec := MemoryStorage.exec_ledger format st hcalls (fun _ => c.clock)
    simp only [runCalls]
    generalize hm : (c.program B).exec (MemoryStorage.handle format) (fun _ => c.clock) st = out at hexec ⊢
    generalize hl : (c.program B).exec (Ledger.handle format) (fun _ => c.clock)
      (st.ledger (scopeKey scope)) = out' at hexec ⊢
    obtain ⟨r,s⟩ := out
    obtain ⟨r',s'⟩ := out'
    obtain ⟨rfl,rfl⟩ := hexec
    cases r with
    | error e => rfl
    | ok issued => exact ih s

/-- A month of successful calls keeps the ledger sound and stores one document a call, in the order
of the calls. -/
theorem runCalls_sound {format : InvoiceNumberFormatter} {B : Builders} {m : Int × Nat}
    {cs : List IssueCall} (hm : ∀ c ∈ cs, c.clock.civil = m) {l l' : Ledger}
    (hs : l.Sound (yearMonthText m.1 m.2))
    (h : runCalls (Ledger.handle format) B cs l = .ok l') :
    l'.Sound (yearMonthText m.1 m.2) ∧
      l'.records.map (fun r => (r.kind,r.invoiceId)) =
        l.records.map (fun r => (r.kind,r.invoiceId)) ++
          cs.map (fun c => (c.kind.1,c.args.recordId)) ∧
      ∀ c ∈ cs, assertScope c.args.egsInfo c.args.scope = .ok () := by
  induction cs generalizing l with
  | nil =>
    cases h
    simp [hs]
  | cons c cs ih =>
    have hc : (yearMonthFor c.clock).yearMonth = yearMonthText m.1 m.2 := by
      rw [← hm c List.mem_cons_self]
      rfl
    simp only [runCalls,IssueCall.program,phase2Issuer_eq] at h
    split at h
    · rename_i issued l₁ hex
      rw [← hc] at hs
      obtain ⟨hassert,built,-,hrec,hseq⟩ := issue_ok hs hex
      have hs₁ : l₁.Sound (yearMonthText m.1 m.2) := by
        rw [← hc]
        exact hs.document hrec (by rw [hseq,Ledger.next_sequence_self]) rfl rfl
      obtain ⟨hs',hk,hall⟩ := ih (fun d hd => hm d (List.mem_cons_of_mem c hd)) hs₁ h
      refine ⟨hs',?_,?_⟩
      · rw [hk,hrec]
        simp [Ledger.document,phase2Record,issuedRecord]
      · intro d hd
        rcases List.mem_cons.1 hd with rfl | hd
        · exact hassert
        · exact hall d hd
    · cases h

/-- What a sequence of calls must be for every call of it to have a chance: the EGS is the scope's
and no primary key is used twice. -/
def Issuable (cs : List IssueCall) : Prop :=
  (∀ c ∈ cs, assertScope c.args.egsInfo c.args.scope = .ok ()) ∧
    (cs.map (fun c => c.args.recordId)).Nodup

theorem issuable_of_runCalls {format : InvoiceNumberFormatter} {B : Builders} {m : Int × Nat}
    {cs : List IssueCall} (hm : ∀ c ∈ cs, c.clock.civil = m) {l l' : Ledger}
    (hs : l.Sound (yearMonthText m.1 m.2))
    (h : runCalls (Ledger.handle format) B cs l = .ok l') : Issuable cs := by
  obtain ⟨-,hk,hall⟩ := runCalls_sound hm hs h
  refine ⟨hall,?_⟩
  have hids := congrArg (List.map Prod.snd) hk
  simp only [List.map_append,List.map_map,Function.comp_def] at hids
  have hn := l'.nodup
  rw [show l'.records.map InvoiceRecord.invoiceId = _ from hids,List.nodup_append] at hn
  exact hn.2.1

def OneKind (cs : List IssueCall) : Prop := ∀ c ∈ cs, ∀ d ∈ cs, c.kind = d.kind

def constantBuilders (hash : String) : Builders where
  build _ _ _ := .ok ⟨"","",hash,""⟩
  buildPhase1 _ _ := .ok ⟨"",""⟩

theorem runCalls_constant (format : InvoiceNumberFormatter) (h₀ : String) {cs : List IssueCall}
    (hcs : Issuable cs) {l : Ledger} (hl : ∀ r ∈ l.records, r.invoiceHash = h₀)
    (hfresh : ∀ c ∈ cs, l.find c.args.recordId = none) :
    ∃ l', runCalls (Ledger.handle format) (constantBuilders h₀) cs l = .ok l' ∧
      ∀ r ∈ l'.records, r.invoiceHash = h₀ := by
  induction cs generalizing l with
  | nil => exact ⟨l,rfl,hl⟩
  | cons c cs ih =>
    obtain ⟨hassert,hids⟩ := hcs
    rw [List.map_cons,List.nodup_cons] at hids
    let m := (yearMonthFor c.clock).yearMonth
    let r := l.document format c.kind.1 c.args c.clock ⟨"","",h₀,""⟩
    have hf : (l.next m).find r.invoiceId = none := hfresh c List.mem_cons_self
    obtain ⟨issued,hstep⟩ := issue_of_fresh (B := constantBuilders h₀)
      (hassert c List.mem_cons_self) rfl hf
    have hl' : ∀ s ∈ ((l.next m).append r hf).records, s.invoiceHash = h₀ := by
      intro s hs
      rcases List.mem_append.1 hs with hs | hs
      · exact hl s hs
      · rw [List.mem_singleton.1 hs]
        rfl
    have hfresh' : ∀ d ∈ cs, ((l.next m).append r hf).find d.args.recordId = none := by
      intro d hd
      have hold := Ledger.find_eq_none.1 (hfresh d (List.mem_cons_of_mem c hd))
      rw [Ledger.find_eq_none]
      simp only [Ledger.append,List.map_append,List.mem_append,not_or]
      refine ⟨hold,fun hr => hids.1 ?_⟩
      rw [List.map_singleton,List.mem_singleton] at hr
      exact List.mem_map.2 ⟨d,hd,hr⟩
    obtain ⟨l',hrun,hall⟩ := ih ⟨fun d hd => hassert d (List.mem_cons_of_mem c hd),hids.2⟩
      hl' hfresh'
    refine ⟨l',?_,hall⟩
    simp only [runCalls,IssueCall.program,phase2Issuer_eq,hstep]
    exact hrun

variable (format : InvoiceNumberFormatter) (scope : TenantScope) (m : Int × Nat)
  (cs : List IssueCall) (st : MemoryStorage)

/-- A month of issue calls on a fresh scope leaves one linear chain, whatever the builders sign,
exactly if the calls are of one kind (or cannot all succeed). -/
theorem linearChain_iff_oneKind (hempty : st.ledger (scopeKey scope) = .empty)
    (hscope : ∀ c ∈ cs, c.args.scope = scope) (hmonth : ∀ c ∈ cs, c.clock.civil = m) :
    (∀ B st', runCalls (MemoryStorage.handle format) B cs st = .ok st' →
      LinearChain (st'.ledger (scopeKey scope)).records) ↔ (Issuable cs → OneKind cs) := by
  have hrun := fun B => runCalls_ledger format B hscope st
  simp only [hempty] at hrun
  constructor
  · intro hall hcs
    have hne : "digest" ≠ ZATCA_BASE_INVOICE_HASH := by decide
    obtain ⟨l',hl',hhash⟩ := runCalls_constant format "digest" hcs (l := Ledger.empty)
      (by simp [Ledger.empty]) (by simp [Ledger.empty,Ledger.find])
    obtain ⟨hs,hkinds,-⟩ := runCalls_sound hmonth (Ledger.sound_empty _) hl'
    obtain ⟨st',hst,rfl⟩ : ∃ st', runCalls (MemoryStorage.handle format) (constantBuilders "digest")
        cs st = .ok st' ∧ st'.ledger (scopeKey scope) = l' := by
      have h := hrun (constantBuilders "digest")
      rw [hl'] at h
      cases hr : runCalls (MemoryStorage.handle format) (constantBuilders "digest") cs st with
      | error e => simp [hr,Except.map] at h
      | ok st' =>
        rw [hr] at h
        exact ⟨st',rfl,Except.ok.inj h⟩
    have hlin := hall _ _ hst
    rw [LinearChain,byCounter_of_ascending hs.ascending] at hlin
    have hone := kind_eq_of_linked hne hhash hs.honest hlin
    have hmem (c : IssueCall) (hc : c ∈ cs) : ∃ r ∈ (st'.ledger (scopeKey scope)).records,
        r.kind = c.kind.1 := by
      have hmem : (c.kind.1,c.args.recordId) ∈
          (st'.ledger (scopeKey scope)).records.map (fun r => (r.kind,r.invoiceId)) := by
        rw [hkinds]
        exact List.mem_append_right _ (List.mem_map.2 ⟨c,hc,rfl⟩)
      obtain ⟨r,hr,hrc⟩ := List.mem_map.1 hmem
      exact ⟨r,hr,congrArg Prod.fst hrc⟩
    intro c hc d hd
    obtain ⟨r,hr,hrc⟩ := hmem c hc
    obtain ⟨s,hs,hsd⟩ := hmem d hd
    exact Subtype.ext (hrc.symm.trans ((hone r hr s hs).trans hsd))
  · intro hone B st' hst
    have hl' : runCalls (Ledger.handle format) B cs .empty = .ok (st'.ledger (scopeKey scope)) := by
      rw [← hrun B,hst]
      rfl
    have hone := hone (issuable_of_runCalls hmonth (Ledger.sound_empty _) hl')
    obtain ⟨hs,hkinds,-⟩ := runCalls_sound hmonth (Ledger.sound_empty _) hl'
    rw [LinearChain,byCounter_of_ascending hs.ascending]
    have hfrom (r : InvoiceRecord) (hr : r ∈ (st'.ledger (scopeKey scope)).records) :
        ∃ c ∈ cs, c.kind.1 = r.kind := by
      have hmem := List.mem_map_of_mem (f := fun r => (r.kind,r.invoiceId)) hr
      rw [hkinds] at hmem
      obtain ⟨c,hc,hcr⟩ := List.mem_map.1 ((List.mem_append.1 hmem).resolve_left List.not_mem_nil)
      exact ⟨c,hc,congrArg Prod.fst hcr⟩
    cases hrec : (st'.ledger (scopeKey scope)).records with
    | nil => simp [LinkedRecords]
    | cons r records =>
      obtain ⟨c,hc,hcr⟩ := hfrom r (by rw [hrec]; exact List.mem_cons_self)
      have hfilter : (r :: records).filter (ChainKey.kind r.kind).covers = r :: records := by
        rw [List.filter_eq_self]
        intro s hs
        obtain ⟨d,hd,hds⟩ := hfrom s (by rw [hrec]; exact hs)
        have hcd : d.kind = c.kind := hone d hd c hc
        rw [ChainKey.covers,← hds,← hcr,hcd]
        simp
      rw [← hfilter,← hrec]
      exact linked_kind_of_honest hs.honest r.kind

def twoInvoices : List IssueCall :=
  [⟨⟨.simplifiedTaxInvoice,InvoiceKind.isPhase1_simplifiedTaxInvoice⟩,Sample.args "order-1",Sample.clock⟩,
    ⟨⟨.simplifiedTaxInvoice,InvoiceKind.isPhase1_simplifiedTaxInvoice⟩,Sample.args "order-2",Sample.clock⟩]

theorem linearChain_two_invoices :
    ∃ st', runCalls (MemoryStorage.handle defaultFormatter) Sample.builders twoInvoices .empty =
        .ok st' ∧ LinearChain (st'.ledger (scopeKey Sample.scope)).records := by
  refine ⟨_,rfl,?_⟩
  exact (linearChain_iff_oneKind defaultFormatter Sample.scope (2026,5) twoInvoices .empty rfl
    (by decide) (by decide)).2 (fun _ => by unfold OneKind; decide) Sample.builders _ rfl

/-- Two kinds in a row: the second document names the base digest, not the first document. -/
theorem linearChain_fails_across_kinds :
    ¬ ∀ (B : Builders) (cs : List IssueCall) (st' : MemoryStorage),
      (∀ c ∈ cs, c.args.scope = Sample.scope ∧ c.clock.civil = (2026,5)) →
      runCalls (MemoryStorage.handle defaultFormatter) B cs .empty = .ok st' →
      LinearChain (st'.ledger (scopeKey Sample.scope)).records := by
  intro hall
  let cs : List IssueCall :=
    [⟨⟨.simplifiedTaxInvoice,InvoiceKind.isPhase1_simplifiedTaxInvoice⟩,Sample.args "order-1",Sample.clock⟩,
      ⟨⟨.simplifiedCreditNote,rfl⟩,Sample.args "order-2",Sample.clock⟩]
  have h := hall Sample.builders cs _ (by decide) rfl
  revert h
  decide

end Zatca
