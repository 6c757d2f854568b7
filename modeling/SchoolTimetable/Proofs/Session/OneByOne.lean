import SchoolTimetable.Proofs.Text
import SchoolTimetable.Proofs.Session.Runs

/-!
Lessons put into the daily table one by one. Each is checked against the rows that are there, those
of the lessons before it included; but lessons in different cells do not get in each other's way,
so all of them are accepted if none collides with the table that they find.
-/
namespace SchoolTimetable

/-! Rooms without the blanks around them. -/

theorem effectiveRoom_idem (room : Option String) :
    effectiveRoom (effectiveRoom room) = effectiveRoom room := by
  cases room with
  | none => rfl
  | some name =>
    by_cases blank : Text.trim name = ""
    · simp [effectiveRoom, Option.filter, blank]
    · simp [effectiveRoom, Option.filter, blank, Text.trim_trim]

def Lesson.tidied (l : Lesson) : Lesson := { l with room := effectiveRoom l.room }

def DailyLesson.tidied (row : DailyLesson) : DailyLesson :=
  { row with room := effectiveRoom row.room }

namespace Collision
variable {rows : Table Int DailyLesson} {term : TermId} {classId : ClassId} {ls : List Lesson}

theorem ofTable_tidied (rows : Table Int DailyLesson) (term : TermId) (classId : ClassId)
    (l : Lesson) : ofTable rows term classId l.tidied = ofTable rows term classId l := by
  have rooms : ∀ row : DailyLesson, sameRoom l.tidied.room row.room = sameRoom l.room row.room := by
    intro row
    rw [sameRoom, Lesson.tidied, effectiveRoom_idem]
    rfl
  have each : ∀ row, ofRow classId l.tidied row = ofRow classId l row := by
    intro row
    rw [ofRow, dimensions, rooms]
    rfl
  rw [ofTable, funext each]
  rfl

theorem all_insert_eq_nil_iff {id : Int} {row : DailyLesson} (fresh : rows.get? id = none)
    (elsewhere : ∀ l ∈ ls, row.cell ≠ l.cell) :
    all (rows.insert id row) term classId ls = [] ↔ all rows term classId ls = [] := by
  rw [all_eq_nil_iff, all_eq_nil_iff]
  constructor
  · intro clear l member other listed
    obtain ⟨k, found⟩ := Table.mem_values_iff.mp listed
    have kept : k ≠ id := by
      intro same
      rw [same, fresh] at found
      cases found
    refine clear l member other (Table.mem_values_iff.mpr ⟨k, ?_⟩)
    rw [Table.get?_insert_of_ne _ _ kept, found]
  · intro clear l member other listed inTerm here
    obtain ⟨k, found⟩ := Table.mem_values_iff.mp listed
    rcases Table.get?_insert_source found with ⟨_, new⟩ | old
    · exact absurd (new ▸ here) (elsewhere l member)
    · exact clear l member other (Table.mem_values_iff.mpr ⟨k, old⟩) inTerm here

end Collision

/-! One lesson. -/

theorem ServiceError.required_known {α : Type} {gate : Except StoreError Unit} {found : Option α}
    {what id : String} {u : Unit}
    (run : ServiceError.required (gate >>= fun _ => pure found) what id = .ok u) :
    found.isSome = true := by
  obtain ⟨value, read, run⟩ := except_bind_ok.mp run
  obtain ⟨_, _, same⟩ := except_bind_ok.mp (mapError_ok.mp read)
  cases Except.ok.inj same
  cases found with
  | none => cases run
  | some a => rfl

namespace CreateDailyRequest

def ofLesson (term : TermId) (classId : ClassId) (l : Lesson) : CreateDailyRequest :=
  ⟨term, classId, l.subject, l.teacher, l.cell.day, l.cell.slot, l.room⟩

theorem ofLesson_toLesson (term : TermId) (classId : ClassId) (l : Lesson) :
    (ofLesson term classId l).toLesson = l.tidied := rfl

structure Valid (r : CreateDailyRequest) (s : Session) : Prop where
  shaped : r.check s.settings.maxSlotsPerDay = .ok ()
  term : (s.main.terms.get? r.term).isSome = true
  classId : (s.main.classes.get? r.classId).isSome = true
  subject : (s.main.subjects.get? r.subject).isSome = true

theorem Valid.references {r : CreateDailyRequest} {s : Session} (valid : r.Valid s)
    (fit : s.main.Fit) : r.checkReferences s.main = .ok () := by
  obtain ⟨term, foundTerm⟩ := Option.isSome_iff_exists.mp valid.term
  obtain ⟨group, foundClass⟩ := Option.isSome_iff_exists.mp valid.classId
  obtain ⟨subject, foundSubject⟩ := Option.isSome_iff_exists.mp valid.subject
  rw [checkReferences, Store.findTerm, Store.findClass, Store.findSubject,
    Store.check_of_fit fit, Store.check_of_fit fit, Store.check_of_fit fit, foundTerm, foundClass,
    foundSubject]
  rfl

end CreateDailyRequest

namespace Service
variable {s t : Session} {term : TermId} {classId : ClassId} {ls : List Lesson}

theorem createDaily_fit_ok {r : CreateDailyRequest} (single : s.replica = none)
    (fit : s.main.Fit) (valid : r.Valid s) :
    (∃ row t, perform s (createDaily r) = (.ok row, t)) ↔
      Collision.ofTable s.main.daily r.term r.classId r.toLesson = [] := by
  have reads := Store.check_of_fit fit .findConflicts
  constructor
  · intro h
    obtain ⟨row, t, run⟩ := h
    have clear := (createDaily_ok single run).1
    rw [Collision.check_eq reads, Collision.all_singleton] at clear
    exact Except.ok.inj clear
  · intro clear
    have looked : perform s (reading (Collision.check s.feed r.term r.classId [r.toLesson])) =
        (.ok [], s) := by
      rw [Session.feed_single single, Collision.check_eq reads, Collision.all_singleton, clear]
      rfl
    have put : perform s.feed (Store.insert (.ofLesson r.term r.classId r.toLesson)) =
        (.ok _, _) :=
      Store.insert_ok.mpr ⟨(Session.feed_single single).symm ▸ Store.check_of_fit fit _, rfl, rfl⟩
    have inserted := onFeed_ok.mpr ⟨_, put, rfl⟩
    rw [createDaily, perform_bind_of_ok _ (perform_get s),
      perform_bind_of_ok _ (lift_iff.mpr ⟨valid.shaped, rfl⟩),
      perform_bind_of_ok _ (lift_iff.mpr ⟨valid.references fit, rfl⟩)]
    simp only
    rw [perform_bind_of_ok _ looked, perform_unless, if_neg (not_not_intro rfl),
      perform_bind_of_ok _ inserted]
    exact ⟨_, _, rfl⟩

structure LeavesRoom (s t : Session) (c : Cell) : Prop where
  single : t.replica = none
  fit : t.main.Fit
  drawn : t.main.Drawn
  valid : ∀ r : CreateDailyRequest, r.Valid s → r.Valid t
  elsewhere : ∀ term classId ls, (∀ l ∈ ls, c ≠ l.cell) →
    (Collision.all t.main.daily term classId ls = [] ↔
      Collision.all s.main.daily term classId ls = [])

theorem createDaily_leavesRoom {r : CreateDailyRequest} {row : DailyLesson}
    (single : s.replica = none) (fit : s.main.Fit) (drawn : s.main.Drawn)
    (run : perform s (createDaily r) = (.ok row, t)) : LeavesRoom s t r.toLesson.cell := by
  obtain ⟨_, added, _, replica, settings⟩ := createDaily_ok single run
  constructor
  · exact replica
  · rw [added]
    exact fit
  · rw [added]
    exact drawn.addDaily _
  · intro other valid
    constructor
    · rw [settings]
      exact valid.shaped
    · rw [added]
      exact valid.term
    · rw [added]
      exact valid.classId
    · rw [added]
      exact valid.subject
  · intro term classId ls apart
    rw [added]
    exact Collision.all_insert_eq_nil_iff (drawn.fresh_daily (Int.le_refl _)) apart

/-! All lessons of a timetable. -/

def createAll (rs : List CreateDailyRequest) : Service (List DailyLesson) := rs.mapM createDaily

theorem createAll_nil (s : Session) : perform s (createAll []) = (.ok [], s) := rfl

theorem createAll_cons {r : CreateDailyRequest} {rs : List CreateDailyRequest}
    {rows : List DailyLesson} : perform s (createAll (r :: rs)) = (.ok rows, t) ↔
      ∃ row u more, perform s (createDaily r) = (.ok row, u) ∧
        perform u (createAll rs) = (.ok more, t) ∧ row :: more = rows := by
  rw [createAll, List.mapM_cons, perform_bind_ok]
  constructor
  · intro h
    obtain ⟨row, u, first, rest⟩ := h
    obtain ⟨more, v, rest, last⟩ := perform_bind_ok.mp rest
    cases last
    exact ⟨row, u, more, first, rest, rfl⟩
  · intro h
    obtain ⟨row, u, more, first, rest, all⟩ := h
    exact ⟨row, u, first, perform_bind_ok.mpr ⟨more, t, rest, all ▸ rfl⟩⟩

/-- While no operation is failing, only collisions with the rows that are there keep valid lessons
in different cells from being added one by one. -/
theorem createAll_fit_ok (single : s.replica = none) (fit : s.main.Fit) (drawn : s.main.Drawn)
    (distinct : (ls.map (·.cell)).Nodup)
    (valid : ∀ l ∈ ls, (CreateDailyRequest.ofLesson term classId l).Valid s) :
    (∃ rows t, perform s (createAll (ls.map (.ofLesson term classId))) = (.ok rows, t)) ↔
      Collision.all s.main.daily term classId ls = [] := by
  induction ls generalizing s with
  | nil => exact iff_of_true ⟨[], s, createAll_nil s⟩ rfl
  | cons l rest ih =>
    obtain ⟨other, distinctRest⟩ := List.nodup_cons.mp distinct
    have apart : ∀ x ∈ rest, l.cell ≠ x.cell :=
      fun x member same => other (List.mem_map.mpr ⟨x, member, same.symm⟩)
    have first := createDaily_fit_ok single fit (valid l List.mem_cons_self)
    rw [CreateDailyRequest.ofLesson_toLesson, Collision.ofTable_tidied] at first
    -- the rest finds one row more, in the cell of this lesson, where none of them takes place
    have later : ∀ {row u}, perform s (createDaily (.ofLesson term classId l)) = (.ok row, u) →
        ((∃ rows t, perform u (createAll (rest.map (.ofLesson term classId))) = (.ok rows, t)) ↔
          Collision.all s.main.daily term classId rest = []) := by
      intro row u run
      have leaves := createDaily_leavesRoom single fit drawn run
      rw [← leaves.elsewhere term classId rest apart]
      exact ih leaves.single leaves.fit leaves.drawn distinctRest
        fun x member => leaves.valid _ (valid x (List.mem_cons_of_mem _ member))
    rw [Collision.all, List.flatMap_cons, List.append_eq_nil_iff]
    constructor
    · intro h
      obtain ⟨rows, t, run⟩ := h
      obtain ⟨row, u, more, one, others, _⟩ := createAll_cons.mp run
      exact ⟨first.mp ⟨row, u, one⟩, (later one).mp ⟨more, t, others⟩⟩
    · intro h
      obtain ⟨row, u, one⟩ := first.mpr h.1
      obtain ⟨more, t, others⟩ := (later one).mpr h.2
      exact ⟨_, t, createAll_cons.mpr ⟨row, u, more, one, others, rfl⟩⟩

theorem createAll_daily {rows : List DailyLesson} (single : s.replica = none)
    (run : perform s (createAll (ls.map (.ofLesson term classId))) = (.ok rows, t)) :
    t.main.daily = s.main.daily.insertAll (·.id)
      (Store.numbered s.main.nextDaily (ls.map fun l => .ofLesson term classId l.tidied)) := by
  induction ls generalizing s rows with
  | nil =>
    cases run
    rfl
  | cons l rest ih =>
    obtain ⟨row, u, more, one, others, _⟩ := createAll_cons.mp run
    obtain ⟨_, added, _, replica, _⟩ := createDaily_ok single one
    have last := ih replica others
    rw [added] at last
    exact last

def tidyRooms (rows : Table Int DailyLesson) : Table Int DailyLesson :=
  rows.mapValues fun _ => DailyLesson.tidied

theorem numbered_tidied (next : Int) (term : TermId) (classId : ClassId) (ls : List Lesson) :
    (Store.numbered next (ls.map fun l => .ofLesson term classId l.tidied)).map
        DailyLesson.tidied =
      (Store.numbered next (ls.map (.ofLesson term classId))).map DailyLesson.tidied := by
  induction ls generalizing next with
  | nil => rfl
  | cons l rest ih =>
    have first : ((NewDailyLesson.ofLesson term classId l.tidied).withId next).tidied =
        ((NewDailyLesson.ofLesson term classId l).withId next).tidied :=
      congrArg (fun room => (⟨next, term, classId, l.subject, l.teacher, l.cell, room⟩ :
        DailyLesson)) (effectiveRoom_idem l.room)
    rw [List.map_cons, List.map_cons, Store.numbered, Store.numbered, List.map_cons,
      List.map_cons, first, ih]

theorem tidyRooms_insertAll (rows : Table Int DailyLesson) (next : Int) (term : TermId)
    (classId : ClassId) (ls : List Lesson) :
    tidyRooms (rows.insertAll (·.id)
        (Store.numbered next (ls.map fun l => .ofLesson term classId l.tidied))) =
      tidyRooms (rows.insertAll (·.id)
        (Store.numbered next (ls.map (.ofLesson term classId)))) := by
  have ids : ∀ row : DailyLesson, row.tidied.id = row.id := fun _ => rfl
  rw [tidyRooms, tidyRooms, Table.mapValues_insertAll ids, Table.mapValues_insertAll ids,
    numbered_tidied]

end Service

end SchoolTimetable
