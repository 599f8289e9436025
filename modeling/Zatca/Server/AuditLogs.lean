import Zatca.Library.OrderBy
import Zatca.Library.ThreeValued
import Zatca.Server.World
import Zatca.Storage.Postgres
set_option autoImplicit false

/-! The audit log in memory, on `zatca_server_audit_log`, and in the collection of that name. -/

namespace Zatca
open ThreeValued

namespace AuditLog

abbrev Payload := List (String × Json)

structure EntryInput extends AuditEntryInput where
  requestId : Option String := none
  payload : Option Payload := none
  deriving DecidableEq

structure Entry extends EntryInput where
  id : String
  writtenAt : Date
  deriving DecidableEq

inductive ActorType where
  | admin
  | tenant
  | system
  deriving DecidableEq, Repr

def typeOf : AuditActor → ActorType
  | .admin _ => .admin
  | .tenant _ _ => .tenant
  | .system => .system

structure ListFilter where
  tenantRef : Option String := none
  action : Option AuditAction := none
  actorType : Option ActorType := none
  since : Option Date := none
  untilDate : Option Date := none
  result : Option AuditResult := none
  limit : Option Nat := none
  deriving DecidableEq, Repr

def MAX_AUDIT_PAYLOAD_BYTES : Nat := 16*1024

/-- What stands for a payload that is too long. -/
def truncatedPayload (originalBytes maxBytes : Nat) : Payload :=
  [("_truncated",.bool true),("originalBytes",.num originalBytes),("maxBytes",.num maxBytes),
    ("note",.str ("Audit payload exceeded the configured size cap and was dropped. " ++
      "See server log for context."))]

def capAuditPayload (R : Runtime) (payload : Option Payload) (maxBytes : Nat) : Option Payload :=
  payload.map fun payload =>
    let size := (R.stringify (.obj payload)).utf8ByteSize
    if size ≤ maxBytes then payload else truncatedPayload size maxBytes

/-- One call of `write`: what it is given, the reading of the clock, and the identifier that each log
draws. -/
structure Write where
  input : EntryInput
  now : Date
  memoryId : String
  postgresId : String
  mongoId : String

def Write.capped (R : Runtime) (w : Write) : Option Payload :=
  capAuditPayload R w.input.payload MAX_AUDIT_PAYLOAD_BYTES

def limitOf (filter : ListFilter) : Nat := filter.limit.getD 100

/-! ### In memory -/

def memoryEntry (R : Runtime) (w : Write) : Entry :=
  { w.input with id := w.memoryId, writtenAt := w.now, payload := w.capped R }

def memoryWrite (R : Runtime) (rows : List Entry) (w : Write) : List Entry :=
  rows ++ [memoryEntry R w]

/-- No test of the walk passes the row over. -/
def taken (filter : ListFilter) (row : Entry) : Bool :=
  filter.tenantRef.all (fun tenantRef => row.tenantRef = some tenantRef) &&
  filter.action.all (fun action => row.action = action) &&
  filter.actorType.all (fun actorType => typeOf row.actor = actorType) &&
  filter.result.all (fun result => row.result = result) &&
  filter.since.all (fun since => ¬ row.writtenAt.getTime < since.getTime) &&
  filter.untilDate.all (fun untilDate => ¬ row.writtenAt.getTime > untilDate.getTime)

/-- The sort is stable: entries of one instant keep the order of the walk. -/
def memoryList (filter : ListFilter) (rows : List Entry) : List Entry :=
  ((rows.reverse.filter (taken filter)).mergeSort fun a b =>
    b.writtenAt.getTime - a.writtenAt.getTime ≤ 0).take (limitOf filter)

/-! ### In the databases -/

/-- A row of the table, or a document of the collection. -/
structure AuditRow extends Entry where
  actorType : ActorType

/-- The database servers: what they refuse to store, and what a `jsonb` column and a field of type
`Mixed` give back of a payload. -/
structure Servers where
  postgresRefuses : AuditRow → Bool
  jsonb : Payload → Payload
  jsonb_reordered : ∀ p, Json.Reordered (.obj p) (.obj (jsonb p))
  mongoRefuses : AuditRow → Bool
  mixed : Payload → Option Payload

variable (D : Servers) (R : Runtime)

def postgresRow (w : Write) : AuditRow :=
  { w.input with
    id := w.postgresId, writtenAt := w.now, actorType := typeOf w.input.actor
    payload := (w.capped R).map D.jsonb }

/-- A refused row is an error of the write. -/
def postgresWrite (rows : List AuditRow) (w : Write) : Option (List AuditRow) :=
  if D.postgresRefuses (postgresRow D R w) then none else some (rows ++ [postgresRow D R w])

def rowToEntry (row : AuditRow) : Entry := row.toEntry

/-- The condition on a column, if the filter has a value for it. -/
def condition {α : Type} (test : α → α → Bool) (column : AuditRow → Option α) (value : Option α) :
    List (AuditRow → Truth) :=
  (value.map fun v row => Truth.compare test (column row) (some v)).toList

def conditions (filter : ListFilter) : List (AuditRow → Truth) :=
  condition (fun a b => decide (a = b)) (fun row => row.tenantRef) filter.tenantRef ++
  condition (fun a b => decide (a = b)) (fun row => some row.action) filter.action ++
  condition (fun a b => decide (a = b)) (fun row => some row.actorType) filter.actorType ++
  condition (fun a b => decide (a = b)) (fun row => some row.result) filter.result ++
  condition (fun a b => decide (b.getTime ≤ a.getTime)) (fun row => some row.writtenAt)
    filter.since ++
  condition (fun a b => decide (a.getTime ≤ b.getTime)) (fun row => some row.writtenAt)
    filter.untilDate

/-- `WHERE … AND …` -/
def whereSql (filter : ListFilter) (row : AuditRow) : Truth :=
  (conditions filter).foldr (fun condition t => (condition row).and t) .yes

/-- What `ORDER BY at DESC LIMIT` may answer. -/
def PostgresLists (filter : ListFilter) (rows : List AuditRow) (out : List Entry) : Prop :=
  ∃ q, OrderBy.Answer (fun row : AuditRow => row.writtenAt.getTime)
      (rows.filter fun row => (whereSql filter row).holds) q ∧
    out = (q.take (limitOf filter)).map rowToEntry

def mongoDocument (w : Write) : AuditRow :=
  { w.input with
    id := w.mongoId, writtenAt := w.now, actorType := typeOf w.input.actor
    payload := (w.capped R).bind D.mixed }

def mongoWrite (docs : List AuditRow) (w : Write) : Option (List AuditRow) :=
  if D.mongoRefuses (mongoDocument D R w) then none else some (docs ++ [mongoDocument D R w])

def docToEntry (doc : AuditRow) : Entry := doc.toEntry

/-- A field that the document lacks equals no text. -/
def mongoFilter (filter : ListFilter) (doc : AuditRow) : Bool :=
  filter.tenantRef.all (fun v => doc.tenantRef = some v) &&
  filter.action.all (fun v => doc.action = v) &&
  filter.actorType.all (fun v => doc.actorType = v) &&
  filter.result.all (fun v => doc.result = v) &&
  filter.since.all (fun v => v.getTime ≤ doc.writtenAt.getTime) &&
  filter.untilDate.all (fun v => doc.writtenAt.getTime ≤ v.getTime)

/-- A limit of 0 is none. -/
def mongoLimit (limit : Nat) (docs : List AuditRow) : List AuditRow :=
  if limit = 0 then docs else docs.take limit

def MongoLists (filter : ListFilter) (docs : List AuditRow) (out : List Entry) : Prop :=
  ∃ q, OrderBy.Answer (fun doc : AuditRow => doc.writtenAt.getTime)
      (docs.filter (mongoFilter filter)) q ∧
    out = (mongoLimit (limitOf filter) q).map docToEntry

/-! ### What is listed -/

/-- A payload, whatever the order of its keys. -/
def contents (p : Payload) : Quot Json.Reordered := Quot.mk _ (.obj p)

/-- An entry without its identifier. -/
structure Shown where
  input : AuditEntryInput
  requestId : Option String
  writtenAt : Date
  payload : Option (Quot Json.Reordered)

def shown (e : Entry) : Shown :=
  ⟨e.toAuditEntryInput,e.requestId,e.writtenAt,e.payload.map contents⟩

/-- The writes that the filter takes, from the latest to the earliest. -/
def matching (filter : ListFilter) (writes : List Write) : List Write :=
  writes.reverse.filter fun w => taken filter (memoryEntry R w)

def trail (filter : ListFilter) (writes : List Write) : List Shown :=
  ((matching R filter writes).take (limitOf filter)).map fun w => shown (memoryEntry R w)

/-- Every log takes all the writes and can list only the trail. -/
structure ListsTrail (filter : ListFilter) (writes : List Write) : Prop where
  memory : (memoryList filter (writes.foldl (memoryWrite R) [])).map shown = trail R filter writes
  postgres : ∃ rows, writes.foldlM (postgresWrite D R) [] = some rows ∧
    ∀ out, PostgresLists filter rows out → out.map shown = trail R filter writes
  mongo : ∃ docs, writes.foldlM (mongoWrite D R) [] = some docs ∧
    ∀ out, MongoLists filter docs out → out.map shown = trail R filter writes

/-- The field of type `Mixed` gives the payload back. -/
def Kept (w : Write) : Prop := ((w.capped R).bind D.mixed).map contents = (w.capped R).map contents

/-- What is asked of the writes: no server refuses one, a limit of 0 meets no row, and the rows of one
instant with a listed row are listed alike. -/
structure Tame (filter : ListFilter) (writes : List Write) : Prop where
  stored : ∀ w ∈ writes, D.postgresRefuses (postgresRow D R w) = false ∧
    D.mongoRefuses (mongoDocument D R w) = false
  limit : limitOf filter = 0 → matching R filter writes = []
  ties : ∀ a ∈ (matching R filter writes).take (limitOf filter), ∀ b ∈ matching R filter writes,
    a.now = b.now → shown (memoryEntry R b) = shown (memoryEntry R a) ∧ Kept D R b

/-- The clock does not go back. -/
def Rising (writes : List Write) : Prop :=
  writes.Pairwise fun a b => a.now.getTime ≤ b.now.getTime

/-! ### The stores after the writes -/

section stores

variable {D : Servers} {R : Runtime} {filter : ListFilter} {writes : List Write}

theorem memoryRows (rows : List Entry) :
    writes.foldl (memoryWrite R) rows = rows ++ writes.map (memoryEntry R) := by
  induction writes generalizing rows with
  | nil => simp
  | cons w writes ih => simp [ih,memoryWrite]

/-- A store that appends the row of every write, or refuses the row. -/
theorem foldlM_append {refuses : AuditRow → Bool} {row : Write → AuditRow} {rows stored : List AuditRow} :
    writes.foldlM (fun rows w => if refuses (row w) then none else some (rows ++ [row w])) rows =
      some stored ↔ (∀ w ∈ writes, refuses (row w) = false) ∧ stored = rows ++ writes.map row := by
  induction writes generalizing rows with
  | nil =>
    have hsame : rows = stored ↔ stored = rows := eq_comm
    simpa using hsame
  | cons w writes ih =>
    rw [List.foldlM_cons]
    by_cases hw : refuses (row w) = true
    · simp [hw]
    · rw [if_neg hw,Option.bind_eq_bind,Option.bind_some,ih]
      simp [Bool.eq_false_of_not_eq_true hw]

theorem matching_rising (hclock : Rising writes) :
    (matching R filter writes).Pairwise fun a b => b.now.getTime ≤ a.now.getTime :=
  (List.pairwise_reverse.2 hclock).filter _

theorem holds_whereSql (filter : ListFilter) (row : AuditRow) :
    (whereSql filter row).holds = (conditions filter).all fun condition => (condition row).holds := by
  rw [whereSql]
  induction conditions filter with
  | nil => rfl
  | cons condition cs ih => simp [ih]

theorem all_condition {α : Type} (test : α → α → Bool) (column : AuditRow → Option α)
    (value : Option α) (row : AuditRow) :
    ((condition test column value).all fun condition => (condition row).holds) =
      value.all fun v => (column row).any (test · v) := by
  cases value with
  | none => rfl
  | some v => cases h : column row <;> simp [condition,h]

/-- The condition of the statement and the walk take the same writes. -/
theorem whereSql_postgresRow (filter : ListFilter) (w : Write) :
    (whereSql filter (postgresRow D R w)).holds = taken filter (memoryEntry R w) := by
  have htenant : ∀ v : String, (w.input.tenantRef.any fun a => decide (a = v)) =
      decide (w.input.tenantRef = some v) := by
    intro v
    cases w.input.tenantRef <;> simp
  simp only [holds_whereSql,conditions,List.all_append,all_condition,taken,postgresRow,memoryEntry,
    Option.any_some,Int.not_lt,gt_iff_lt,htenant]
  rfl

theorem mongoFilter_mongoDocument (filter : ListFilter) (w : Write) :
    mongoFilter filter (mongoDocument D R w) = taken filter (memoryEntry R w) := by
  simp only [mongoFilter,taken,mongoDocument,memoryEntry,Int.not_lt,gt_iff_lt]
  rfl

/-- Memory lists the trail, whatever the instants. -/
theorem memory_lists (hclock : Rising writes) :
    (memoryList filter (writes.foldl (memoryWrite R) [])).map shown = trail R filter writes := by
  have hfilter : ((writes.map (memoryEntry R)).reverse.filter (taken filter)) =
      (matching R filter writes).map (memoryEntry R) := by
    rw [← List.map_reverse,List.filter_map]
    rfl
  have hsorted : ((matching R filter writes).map (memoryEntry R)).Pairwise fun a b =>
      decide (b.writtenAt.getTime - a.writtenAt.getTime ≤ 0) = true := by
    refine List.pairwise_map.2 ((matching_rising hclock).imp ?_)
    intro a b hab
    have hle : b.now.getTime - a.now.getTime ≤ 0 := by omega
    exact decide_eq_true hle
  rw [memoryRows,List.nil_append,memoryList,hfilter,List.mergeSort_of_pairwise hsorted,trail,
    ← List.map_take,List.map_map]
  rfl

section rows

variable (row : Write → AuditRow) (test : AuditRow → Bool) (list : AuditRow → Entry)

/-- The rows of a query are those of the matching writes. -/
theorem rows_perm (htest : ∀ w, test (row w) = taken filter (memoryEntry R w)) :
    ((writes.map row).filter test).Perm ((matching R filter writes).map row) := by
  have hcomp : test ∘ row = fun w => taken filter (memoryEntry R w) := funext htest
  rw [List.filter_map,hcomp]
  exact ((List.reverse_perm writes).symm.filter _).map row

theorem rows_rising (hclock : Rising writes) (hinstant : ∀ w, (row w).writtenAt = w.now) :
    ((matching R filter writes).map row).Pairwise fun a b =>
      b.writtenAt.getTime ≤ a.writtenAt.getTime := by
  refine List.pairwise_map.2 ((matching_rising hclock).imp ?_)
  intro a b hab
  rw [hinstant,hinstant]
  exact hab

theorem instants_eq_iff (hinstant : ∀ w, (row w).writtenAt = w.now) (a b : Write) :
    (row a).writtenAt.getTime = (row b).writtenAt.getTime ↔ a.now = b.now := by
  rw [hinstant,hinstant]
  constructor
  · intro h
    cases ha : a.now
    cases hb : b.now
    simp_all
  · intro h
    rw [h]

/-- Every answer shows the leading writes if and only if rows of one instant with these show the
same. -/
theorem answers_iff (hclock : Rising writes) (hinstant : ∀ w, (row w).writtenAt = w.now)
    (htest : ∀ w, test (row w) = taken filter (memoryEntry R w)) (n : Nat) :
    (∀ q, OrderBy.Answer (fun r : AuditRow => r.writtenAt.getTime) ((writes.map row).filter test) q →
        ((q.take n).map list).map shown =
          ((matching R filter writes).take n).map fun w => shown (memoryEntry R w)) ↔
      ∀ a ∈ (matching R filter writes).take n, ∀ b ∈ matching R filter writes, a.now = b.now →
        shown (list (row b)) = shown (memoryEntry R a) := by
  have hperm : ((writes.map row).filter test).Perm _ := rows_perm row test htest
  have hsorted : ((matching R filter writes).map row).Pairwise _ := rows_rising row hclock hinstant
  have hties := OrderBy.take_map_eq_iff (fun r => shown (list r)) hsorted n
  have hinst := instants_eq_iff row hinstant
  constructor
  · intro hall
    have hself : ∀ a ∈ (matching R filter writes).take n,
        shown (list (row a)) = shown (memoryEntry R a) := by
      have h := hall _ ((OrderBy.Answer.self hsorted).of_perm hperm.symm)
      rw [← List.map_take,List.map_map,List.map_map] at h
      exact List.map_inj_left.1 h
    have hsame := hties.1 fun q hq => by
      have h := hall q (hq.of_perm hperm.symm)
      have h' := hall _ ((OrderBy.Answer.self hsorted).of_perm hperm.symm)
      rw [List.map_map] at h h'
      exact h.trans h'.symm
    intro a ha b hb hnow
    have h := hsame (row a) (by rw [← List.map_take]; exact List.mem_map_of_mem ha) (row b)
      (List.mem_map_of_mem hb) ((hinst a b).2 hnow)
    exact h.symm.trans (hself a ha)
  · intro hall q hq
    have hself : ∀ a ∈ (matching R filter writes).take n,
        shown (list (row a)) = shown (memoryEntry R a) :=
      fun a ha => hall a ha a (List.mem_of_mem_take ha) rfl
    have h := hties.2 ?_ q (hq.of_perm hperm)
    · rw [← List.map_take,List.map_map] at h
      rw [List.map_map]
      exact h.trans (List.map_congr_left hself)
    · intro r hr s hs hinstants
      rw [← List.map_take] at hr
      obtain ⟨a,ha,rfl⟩ := List.mem_map.1 hr
      obtain ⟨b,hb,rfl⟩ := List.mem_map.1 hs
      exact (hself a ha).trans (hall a ha b hb ((hinst a b).1 hinstants)).symm

end rows

theorem contents_jsonb (p : Payload) : contents (D.jsonb p) = contents p :=
  (Quot.sound (D.jsonb_reordered p)).symm

@[simp] theorem shown_rowToEntry (w : Write) :
    shown (rowToEntry (postgresRow D R w)) = shown (memoryEntry R w) := by
  have hpayload : ((w.capped R).map D.jsonb).map contents = (w.capped R).map contents := by
    cases w.capped R with
    | none => rfl
    | some p => simp [contents_jsonb]
  simp [shown,rowToEntry,postgresRow,memoryEntry,hpayload]

theorem shown_docToEntry (w : Write) (s : Shown) :
    shown (docToEntry (mongoDocument D R w)) = s ∧ shown (memoryEntry R w) = s ↔
      shown (memoryEntry R w) = s ∧ Kept D R w := by
  constructor
  · rintro ⟨hdoc,hentry⟩
    have h := congrArg Shown.payload (hdoc.trans hentry.symm)
    exact ⟨hentry,h⟩
  · rintro ⟨hentry,hkept⟩
    refine ⟨?_,hentry⟩
    rw [← hentry]
    rw [Kept] at hkept
    simp [shown,docToEntry,mongoDocument,memoryEntry,hkept]

theorem postgres_lists (hclock : Rising writes) :
    (∃ rows, writes.foldlM (postgresWrite D R) [] = some rows ∧
      ∀ out, PostgresLists filter rows out → out.map shown = trail R filter writes) ↔
    (∀ w ∈ writes, D.postgresRefuses (postgresRow D R w) = false) ∧
      ∀ a ∈ (matching R filter writes).take (limitOf filter), ∀ b ∈ matching R filter writes,
        a.now = b.now → shown (memoryEntry R b) = shown (memoryEntry R a) := by
  have htest := whereSql_postgresRow (D := D) (R := R) filter
  have hanswers := answers_iff (postgresRow D R) (fun row => (whereSql filter row).holds) rowToEntry
    hclock (fun _ => rfl) htest (limitOf filter)
  simp only [shown_rowToEntry] at hanswers
  constructor
  · rintro ⟨rows,hrows,hall⟩
    obtain ⟨hstored,rfl⟩ := foldlM_append.1 hrows
    exact ⟨hstored,hanswers.1 fun q hq => hall _ ⟨q,hq,rfl⟩⟩
  · rintro ⟨hstored,hties⟩
    refine ⟨_,foldlM_append.2 ⟨hstored,rfl⟩,?_⟩
    rintro out ⟨q,hq,rfl⟩
    exact hanswers.2 hties q hq

theorem mongo_lists (hclock : Rising writes) :
    (∃ docs, writes.foldlM (mongoWrite D R) [] = some docs ∧
      ∀ out, MongoLists filter docs out → out.map shown = trail R filter writes) ↔
    (∀ w ∈ writes, D.mongoRefuses (mongoDocument D R w) = false) ∧
      (limitOf filter = 0 → matching R filter writes = []) ∧
      ∀ a ∈ (matching R filter writes).take (limitOf filter), ∀ b ∈ matching R filter writes,
        a.now = b.now → shown (docToEntry (mongoDocument D R b)) = shown (memoryEntry R a) := by
  have htest := mongoFilter_mongoDocument (D := D) (R := R) filter
  have hanswers := answers_iff (mongoDocument D R) (mongoFilter filter) docToEntry hclock
    (fun _ => rfl) htest (limitOf filter)
  have hperm : ((writes.map (mongoDocument D R)).filter (mongoFilter filter)).Perm _ :=
    rows_perm _ _ htest
  constructor
  · rintro ⟨docs,hdocs,hall⟩
    obtain ⟨hstored,rfl⟩ := foldlM_append.1 hdocs
    rw [List.nil_append] at hall
    by_cases hzero : limitOf filter = 0
    · have hsorted : ((matching R filter writes).map (mongoDocument D R)).Pairwise _ :=
        rows_rising (mongoDocument D R) hclock fun _ => rfl
      have h := hall _ ⟨_,(OrderBy.Answer.self hsorted).of_perm hperm.symm,rfl⟩
      have hnone : matching R filter writes = [] := by
        simpa [mongoLimit,hzero,trail] using h
      exact ⟨hstored,fun _ => hnone,by simp [hnone]⟩
    · refine ⟨hstored,fun h => absurd h hzero,hanswers.1 fun q hq => ?_⟩
      have h := hall _ ⟨q,hq,rfl⟩
      rwa [mongoLimit,if_neg hzero] at h
  · rintro ⟨hstored,hlimit,hties⟩
    refine ⟨_,foldlM_append.2 ⟨hstored,rfl⟩,?_⟩
    rintro out ⟨q,hq,rfl⟩
    rw [List.nil_append] at hq
    by_cases hzero : limitOf filter = 0
    · have hempty : q = [] := by
        have h := hq.perm.trans hperm
        rw [hlimit hzero] at h
        exact List.perm_nil.1 h
      simp [hempty,mongoLimit,hzero,trail]
    · rw [mongoLimit,if_neg hzero]
      exact hanswers.2 hties q hq

/-- The logs list one trail if and only if the writes are tame. -/
theorem listsTrail_iff (D : Servers) (R : Runtime) (filter : ListFilter) (writes : List Write)
    (hclock : Rising writes) : ListsTrail D R filter writes ↔ Tame D R filter writes := by
  constructor
  · rintro ⟨-,hpostgres,hmongo⟩
    obtain ⟨hrows,hties⟩ := (postgres_lists hclock).1 hpostgres
    obtain ⟨hdocs,hlimit,hdocTies⟩ := (mongo_lists hclock).1 hmongo
    exact {
      stored := fun w hw => ⟨hrows w hw,hdocs w hw⟩
      limit := hlimit
      ties := fun a ha b hb hnow =>
        (shown_docToEntry b _).1 ⟨hdocTies a ha b hb hnow,hties a ha b hb hnow⟩ }
  · rintro ⟨hstored,hlimit,hties⟩
    exact {
      memory := memory_lists hclock
      postgres := (postgres_lists hclock).2
        ⟨fun w hw => (hstored w hw).1,fun a ha b hb hnow => (hties a ha b hb hnow).1⟩
      mongo := (mongo_lists hclock).2 ⟨fun w hw => (hstored w hw).2,hlimit,fun a ha b hb hnow =>
        ((shown_docToEntry b _).2 (hties a ha b hb hnow)).1⟩ }

end stores

namespace Sample

/-- Servers that take every row. An object without keys does not stay in a document. -/
def servers : Servers where
  postgresRefuses _ := false
  jsonb p := (Zatca.Sample.sortFields p).insertionSort Zatca.Sample.keyLe
  jsonb_reordered p := Zatca.Sample.reordered_sortKeys (.obj p)
  mongoRefuses _ := false
  mixed p :=
    let fields := p.filter fun e => e.2 ≠ .obj []
    if fields = [] then none else some fields

def payloadText : String := "\x7b\"label\":\"till\"\x7d"

def runtime : Runtime := { Zatca.Sample.runtime with stringify := fun _ => payloadText }

def created : EntryInput :=
  { actor := .system, action := .tenantCreated, targetId := some "t1", result := .ok
    payload := some [("label",.str "till")] }

def issued : EntryInput :=
  { actor := .system, action := .apiKeyIssued, targetId := some "t1", result := .ok }

def twoWrites (first second : Int) : List Write :=
  [⟨created,⟨first⟩,"m1","p1","d1"⟩,⟨issued,⟨second⟩,"m2","p2","d2"⟩]

end Sample

theorem Write.capped_of_le {R : Runtime} {w : Write}
    (h : ∀ p ∈ w.input.payload, (R.stringify (.obj p)).utf8ByteSize ≤ MAX_AUDIT_PAYLOAD_BYTES) :
    w.capped R = w.input.payload := by
  rw [Write.capped,capAuditPayload]
  cases hp : w.input.payload with
  | none => rfl
  | some p =>
    have hle := h p hp
    simp only [Option.map_some,if_pos hle]

theorem listsTrail_two_instants :
    ListsTrail Sample.servers Sample.runtime {} (Sample.twoWrites 0 1) := by
  refine (listsTrail_iff _ _ _ _ (by simp [Rising,Sample.twoWrites])).2 ⟨?_,?_,?_⟩
  · simp [Sample.servers]
  · simp [limitOf]
  · intro a ha b hb hnow
    have hmem : ∀ w ∈ matching Sample.runtime {} (Sample.twoWrites 0 1), w ∈ Sample.twoWrites 0 1 :=
      fun w hw => List.mem_reverse.1 (List.mem_filter.1 hw).1
    have hwrites : ∀ w ∈ Sample.twoWrites 0 1,
        w.now = ⟨0⟩ ∧ w = (Sample.twoWrites 0 1)[0] ∨ w.now = ⟨1⟩ ∧ w = (Sample.twoWrites 0 1)[1] := by
      simp [Sample.twoWrites]
    have hkept : Kept Sample.servers Sample.runtime b := by
      have hcapped : b.capped Sample.runtime = b.input.payload :=
        Write.capped_of_le fun _ _ =>
          (by decide : Sample.payloadText.utf8ByteSize ≤ MAX_AUDIT_PAYLOAD_BYTES)
      rw [Kept,hcapped]
      rcases hwrites b (hmem b hb) with ⟨-,rfl⟩ | ⟨-,rfl⟩
      · simp [Sample.twoWrites,Sample.created,Sample.servers]
      · rfl
    have hsame : b = a := by
      rcases hwrites a (hmem a (List.mem_of_mem_take ha)) with ⟨hna,ha⟩ | ⟨hna,ha⟩ <;>
        rcases hwrites b (hmem b hb) with ⟨hnb,hb⟩ | ⟨hnb,hb⟩ <;> simp_all
    exact ⟨by rw [hsame],hkept⟩

/-- Of two writes of one instant the table may answer with the earlier one first, and with a limit
of 0 the collection answers with every document. -/
theorem listsTrail_fails_in_one_instant : Rising (Sample.twoWrites 0 0) ∧
    (¬ ListsTrail Sample.servers Sample.runtime {} (Sample.twoWrites 0 0)) ∧
    ¬ ListsTrail Sample.servers Sample.runtime { limit := some 0 } (Sample.twoWrites 0 0) := by
  refine ⟨by simp [Rising,Sample.twoWrites],fun h => ?_,fun h => ?_⟩
  · obtain ⟨rows,hrows,hall⟩ := h.postgres
    obtain ⟨-,rfl⟩ := foldlM_append.1 hrows
    have hanswer := hall _ ⟨_,OrderBy.Answer.self (by decide),rfl⟩
    have hactions := congrArg (List.map fun s => s.input.action) hanswer
    exact absurd hactions (by decide)
  · obtain ⟨docs,hdocs,hall⟩ := h.mongo
    obtain ⟨-,rfl⟩ := foldlM_append.1 hdocs
    have hanswer := hall _ ⟨_,OrderBy.Answer.self (by decide),rfl⟩
    have hactions := congrArg List.length hanswer
    exact absurd hactions (by decide)

end AuditLog
end Zatca
