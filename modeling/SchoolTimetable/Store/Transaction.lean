import SchoolTimetable.Log
import SchoolTimetable.Store.Reads

/-!
Operations that change a store. One that fails says why; what it changed before that, it has
changed.
-/
namespace SchoolTimetable

/-- A change of the store that may fail. -/
abbrev StoreUpdate := ExceptT StoreError (StateM Store)

namespace Store

def closedTransaction (tx : Nat) : StoreError :=
  ⟨.transaction, "transaction is not open",
    { entity := some "transaction", entityId := some (toString tx) }⟩

def staged (s : Store) (tx : Nat) : Except StoreError (List StagedWrite) :=
  match s.pending.get? tx with
  | some ws => .ok ws
  | none => .error (closedTransaction tx)

theorem staged_eq_ok_iff {s : Store} {tx : Nat} {ws : List StagedWrite} :
    s.staged tx = .ok ws ↔ s.pending.get? tx = some ws := by
  unfold staged
  cases s.pending.get? tx <;> simp

/-- What one staged write makes of the schedule under `id`. -/
def seeWrite (id : Int) (seen : Option SemesterSchedule) : StagedWrite → Option SemesterSchedule
  | .createSchedule x => if x.id = id then some x else seen
  | .deleteSchedule d => if d = id then none else seen
  | .updateStatus u status => if u = id then seen.map fun x => { x with status } else seen
  | _ => seen

/-- The schedule under `id` as a transaction sees it, its own writes included. -/
def visibleSchedule (s : Store) (tx : Nat) (id : Int) :
    Except StoreError (Option SemesterSchedule) := do
  let ws ← s.staged tx
  pure (ws.foldl (seeWrite id) (s.semesters.get? id))

def gate (o : Operation) : StoreUpdate Unit := do
  (← get).check o

/-- Appends to the writes of an open transaction. -/
def stage (tx : Nat) (ws : List StagedWrite) : StoreUpdate Unit := do
  let old ← (← get).staged tx
  modify fun s => { s with pending := s.pending.insert tx (old ++ ws) }

def begin : StoreUpdate Nat := do
  gate .begin
  let s ← get
  set { s with
    nextTransaction := s.nextTransaction + 1
    pending := s.pending.insert s.nextTransaction [] }
  pure s.nextTransaction

def versionTaken (s : Store) (x : SemesterSchedule) : Bool :=
  s.semesters.values.any fun y =>
    y.term = x.term ∧ y.classId = x.classId ∧ y.version = x.version

/-- The error for the first staged schedule whose version is committed already. -/
def versionClash? (s : Store) (ws : List StagedWrite) : Option StoreError :=
  ws.findSome? fun
    | .createSchedule x =>
      if s.versionTaken x then
        some ⟨.constraint, s!"version {x.version} already exists",
          { operation := some Operation.commit.name
            entity := some "semester_schedule"
            details := some s!"term={x.term}, class={x.classId}" }⟩
      else none
    | _ => none

/-- Ends a transaction and applies its writes, all or none of them. Tells how many they are. -/
def commit (tx : Nat) : StoreUpdate Nat := do
  let ws ← (← get).staged tx
  modify fun s => { s with pending := s.pending.erase tx }
  gate .commit
  match (← get).versionClash? ws with
  | some e => throw e
  | none =>
    modify fun s => s.applyAll ws
    pure ws.length

def commitNote (tx writes : Nat) : LogRecord :=
  ⟨.debug, s!"Committed transaction {tx} ({writes} writes)"⟩

/-- Ends a transaction without its writes. -/
def rollback (s : Store) (tx : Nat) : Store := { s with pending := s.pending.erase tx }

theorem staged_rollback_self (s : Store) (tx : Nat) :
    (s.rollback tx).staged tx = .error (closedTransaction tx) := by
  simp [rollback, staged]

theorem staged_rollback_of_ne (s : Store) {tx other : Nat} (h : other ≠ tx) :
    (s.rollback tx).staged other = s.staged other := by
  simp [rollback, staged, Table.get?_erase_of_ne s.pending h]

/-- An ended transaction has no staged writes. -/
def stagedCount (s : Store) (tx : Nat) : Nat := ((s.pending.get? tx).getD []).length

def rollbackNotes (s : Store) (tx : Nat) : List LogRecord :=
  [⟨.debug, s!"Rolled back transaction {tx} ({s.stagedCount tx} writes discarded)"⟩]

/-- What is noted when a transaction is rolled back because nobody ended it. -/
def dropNotes (s : Store) (tx : Nat) : List LogRecord :=
  if s.pending.contains tx then
    [⟨.debug, s!"Transaction {tx} dropped without commit; discarded"⟩]
  else []

def insert (r : NewDailyLesson) : StoreUpdate DailyLesson := do
  gate .insert
  let (s, row) := (← get).addDaily r
  set s
  pure row

def allocateAll (s : Store) : List NewDailyLesson → Store × List DailyLesson
  | [] => (s, [])
  | r :: rest =>
    let (s, row) := s.allocateDaily r
    let (s, rows) := s.allocateAll rest
    (s, row :: rows)

def bulkInsert (tx : Nat) (rs : List NewDailyLesson) : StoreUpdate Nat := do
  gate .bulkInsert
  let _ ← (← get).staged tx
  let (s, rows) := (← get).allocateAll rs
  set s
  stage tx (rows.map .insertDaily)
  pure rs.length

/-- The largest version among some schedules, zero if there are none. -/
def maxVersion (xs : List SemesterSchedule) : Nat := (xs.map (·.version)).foldl max 0

def stagedSchedules (ws : List StagedWrite) (term : TermId) (classId : ClassId) :
    List SemesterSchedule :=
  ws.filterMap fun
    | .createSchedule x => if x.term = term ∧ x.classId = classId then some x else none
    | _ => none

/-- Stages a schedule under the next version, counting what is committed and what this
transaction has staged. -/
def createVersioned (now : Timestamp) (tx : Nat) (x : NewSemesterSchedule) :
    StoreUpdate SemesterSchedule := do
  gate .createVersioned
  let s ← get
  let ws ← s.staged tx
  let committed := maxVersion (s.semestersOf x.term x.classId)
  let own := maxVersion (stagedSchedules ws x.term x.classId)
  let record : SemesterSchedule :=
    { id := s.nextSemester
      term := x.term
      classId := x.classId
      status := x.status
      version := max committed own + 1
      metadata := x.metadata
      createdAt := now }
  set { s with nextSemester := s.nextSemester + 1 }
  stage tx [.createSchedule record]
  pure record

def unknownSchedule (o : Operation) (id : Int) : StoreError :=
  ⟨.notFound, s!"Semester schedule {id} not found",
    { operation := some o.name
      entity := some "semester_schedule"
      entityId := some (toString id) }⟩

/-- Fails if a transaction sees no schedule under `id`. -/
def requireVisible (tx : Nat) (id : Int) (e : StoreError) : StoreUpdate Unit := do
  match ← (← get).visibleSchedule tx id with
  | some _ => pure ()
  | none => throw e

def updateStatus (tx : Nat) (id : Int) (status : ScheduleStatus) : StoreUpdate Unit := do
  gate .updateStatus
  requireVisible tx id (unknownSchedule .updateStatus id)
  stage tx [.updateStatus id status]

def delete (tx : Nat) (id : Int) : StoreUpdate Unit := do
  gate .delete
  requireVisible tx id (unknownSchedule .delete id)
  stage tx [.deleteSchedule id]

def orphanSlot (owner : Int) : StoreError :=
  ⟨.constraint, "slot references an unknown semester schedule",
    { operation := some Operation.bulkUpsert.name
      entity := some "semester_schedule"
      entityId := some (toString owner) }⟩

/-- The schedules that some slots are of, each once, in the order in which they are looked up.
Nothing fixes that order: they are taken from a hash set. -/
structure OwnerOrder (slots : List SemesterSlot) where
  owners : List Int
  distinct : owners.Nodup
  complete : ∀ id, id ∈ owners ↔ ∃ x ∈ slots, x.schedule = id

def OwnerOrder.ascending (slots : List SemesterSlot) : OwnerOrder slots where
  owners := sortDistinct (slots.map (·.schedule))
  distinct := (sortDistinct_sorted _).imp Key.before_ne
  complete id := by rw [mem_sortDistinct_iff, List.mem_map]

theorem OwnerOrder.forall_owners {slots : List SemesterSlot} (order : OwnerOrder slots)
    {P : Int → Prop} : (∀ id ∈ order.owners, P id) ↔ ∀ x ∈ slots, P x.schedule := by
  constructor
  · exact fun all x member => all _ ((order.complete _).mpr ⟨x, member, rfl⟩)
  · intro all id listed
    obtain ⟨x, member, rfl⟩ := (order.complete id).mp listed
    exact all x member

def bulkUpsert (tx : Nat) (slots : List SemesterSlot)
    (order : OwnerOrder slots := .ascending slots) : StoreUpdate Nat := do
  gate .bulkUpsert
  order.owners.forM fun id => requireVisible tx id (orphanSlot id)
  stage tx (slots.map .upsertSlot)
  pure slots.length

/-- Tells how many committed rows the schedule has. -/
def deleteSlots (tx : Nat) (id : Int) : StoreUpdate Nat := do
  gate .deleteSlots
  let n := ((← get).slotsOf id).length
  stage tx [.deleteSlots id]
  pure n

end Store

end SchoolTimetable
