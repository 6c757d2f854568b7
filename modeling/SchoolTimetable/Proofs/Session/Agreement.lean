import SchoolTimetable.Proofs.Session.Generate
import SchoolTimetable.Proofs.Session.TwoStores
import SchoolTimetable.Proofs.Store.Interleaving

/-!
Planning and publishing agree about teachers. Planning asks the daily table for the rows of each
teacher and keeps clear of their cells, publishing asks it for the rows of each cell; where no row
has come in between, publishing finds no teacher twice in one cell, and what it does find, a class
or a room, is all that can make it fail while no operation is failing.
-/
namespace SchoolTimetable

namespace Collision
variable {rows : Table Int DailyLesson} {term : TermId} {classId : ClassId} {ls : List Lesson}

def TeachersApart (rows : Table Int DailyLesson) (term : TermId) (ls : List Lesson) : Prop :=
  ∀ l ∈ ls, ∀ row ∈ rows.values, row.term = term → row.cell = l.cell → row.teacher ≠ l.teacher

def ClassAndRoomApart (rows : Table Int DailyLesson) (term : TermId) (classId : ClassId)
    (ls : List Lesson) : Prop :=
  ∀ l ∈ ls, ∀ row ∈ rows.values, row.term = term → row.cell = l.cell →
    row.classId ≠ classId ∧
      ¬ ∃ room, effectiveRoom l.room = some room ∧ effectiveRoom row.room = some room

theorem TeachersApart.all_eq_nil_iff (teachers : TeachersApart rows term ls) :
    all rows term classId ls = [] ↔ ClassAndRoomApart rows term classId ls := by
  rw [Collision.all_eq_nil_iff]
  constructor
  · intro clear l member row listed inTerm here
    obtain ⟨apart, _, rooms⟩ := dimensions_eq_nil_iff.mp (clear l member row listed inTerm here)
    refine ⟨apart, fun same => ?_⟩
    rw [sameRoom_iff.mpr same] at rooms
    cases rooms
  · intro clear l member row listed inTerm here
    obtain ⟨apart, rooms⟩ := clear l member row listed inTerm here
    have free : sameRoom l.room row.room = false :=
      Bool.eq_false_iff.mpr fun same => rooms (sameRoom_iff.mp same)
    exact dimensions_eq_nil_iff.mpr ⟨apart, teachers l member row listed inTerm here, free⟩

theorem TeachersApart.dimension (teachers : TeachersApart rows term ls) {c : Collision}
    (found : c ∈ all rows term classId ls) : c.dimension = .classGroup ∨ c.dimension = .room := by
  obtain ⟨l, member, row, listed, inTerm, here, d, shared, same⟩ := mem_all.mp found
  rw [← same]
  rcases mem_dimensions.mp shared with ⟨classId, _⟩ | ⟨_, teacher⟩ | ⟨room, _⟩
  · exact Or.inl classId
  · exact absurd teacher (teachers l member row listed inTerm here)
  · exact Or.inr room

end Collision

namespace Proposal

def collisions (p : Proposal) (s : Store) : List Collision :=
  Collision.all s.daily p.term p.classId p.lessons

def refusal (p : Proposal) (s : Store) : ServiceError :=
  .conflict s!"{(p.collisions s).length} collision(s) with the daily schedule of term {p.term}"
    ((p.collisions s).map .collision)

def verdict (p : Proposal) (s : Store) : Except ServiceError String :=
  if p.collisions s = [] then .ok (toString s.nextSemester) else .error (p.refusal s)

theorem writes_clear {s u : Store} (same : u.semesters = s.semesters) (p : Proposal)
    (now : Timestamp) (publish : Bool) (rows : List DailyLesson) :
    u.versionClash? (p.writes s now publish rows) = none := by
  refine Store.versionClash?_eq_none_iff.mpr fun x member y committed both => ?_
  have new : x = p.record s now false := by
    have listed := Store.mem_created.mp member
    rcases List.mem_cons.mp listed with here | later
    · cases here
      rfl
    · cases publish <;> simp at later
  rw [new] at both
  rw [same] at committed
  have kept : y ∈ s.semestersOf p.term p.classId :=
    List.mem_filter.mpr ⟨committed, decide_eq_true ⟨both.term, both.classId⟩⟩
  have most := Store.le_maxVersion kept
  have version : y.version = Store.maxVersion (s.semestersOf p.term p.classId) + 1 := both.version
  omega

end Proposal

namespace Service
variable {s t : Session} {tx : Nat} {p : Proposal} {now : Timestamp}

theorem publish_refused (schedule : SemesterSchedule) (single : s.replica = none)
    (fit : s.main.Fit) (some : p.collisions s.main ≠ []) :
    perform s (publish tx p schedule) = (.error (p.refusal s.main), s) := by
  have looked : perform s (reading (Collision.check s.feed p.term p.classId p.lessons)) =
      (.ok (p.collisions s.main), s) := by
    rw [Session.feed_single single]
    exact reading_ok.mpr ⟨Collision.check_eq (Store.check_of_fit fit _) _, rfl⟩
  rw [publish, perform_bind_of_ok _ (perform_get s), perform_bind_of_ok _ looked, perform_unless,
    if_pos some]
  rfl

theorem publish_accepted {schedule : SemesterSchedule} {ws : List StagedWrite}
    (single : s.replica = none) (fit : s.main.Fit) (found : s.main.pending.get? tx = some ws)
    (sees : s.main.Sees ws schedule.id) (clear : p.collisions s.main = []) :
    ∃ t, perform s (publish tx p schedule) = (.ok { schedule with status := .published }, t) ∧
      t.main.Fit := by
  have looked : perform s (reading (Collision.check s.feed p.term p.classId p.lessons)) =
      (.ok [], s) := by
    rw [Session.feed_single single, ← clear]
    exact reading_ok.mpr ⟨Collision.check_eq (Store.check_of_fit fit _) _, rfl⟩
  rw [publish, perform_bind_of_ok _ (perform_get s), perform_bind_of_ok _ looked, perform_unless,
    if_neg (not_not_intro rfl)]
  generalize p.lessons.map (NewDailyLesson.ofLesson p.term p.classId) = rows
  have inserted : perform s (onFeed (Store.bulkInsert tx rows)) =
      (.ok rows.length, { s with main := s.main.withRows tx rows }) := by
    refine onFeed_ok.mpr ⟨s.main.withRows tx rows, ?_, (Session.setFeed_single single _).symm⟩
    rw [Session.feed_single single]
    have here : s.main.pending.contains tx = true := by
      rw [Table.contains, found]
      rfl
    exact Store.bulkInsert_ok.mpr ⟨Store.check_of_fit fit _, here, rfl, rfl⟩
  have still : (s.main.withRows tx rows).Sees
      (ws ++ (Store.numbered s.main.nextDaily rows).map .insertDaily) schedule.id :=
    Store.Sees.append sees (by simp)
  have seen := (Store.sees_iff (Store.withRows_get found rows)).mp still
  have updated : perform (s.main.withRows tx rows)
      (Store.updateStatus tx schedule.id .published) = (.ok (), _) :=
    Store.updateStatus_ok.mpr ⟨Store.check_of_fit fit _, seen, rfl⟩
  rw [perform_bind_of_ok _ inserted, perform_bind_of_ok _ (onMain_ok.mpr ⟨_, updated, rfl⟩)]
  exact ⟨_, rfl, fit⟩

theorem persist_fit (p : Proposal) (now : Timestamp) (single : s.replica = none)
    (fit : s.main.Fit) (found : s.main.pending.get? tx = some []) :
    (p.collisions s.main ≠ [] →
      ∃ t, perform s (persist now p true tx) = (.error (p.refusal s.main), t)) ∧
    (p.collisions s.main = [] →
      ∃ x t, perform s (persist now p true tx) = (.ok x, t) ∧ t.main.Fit) := by
  have created : perform s (onMain (Store.createVersioned now tx p.toSchedule)) =
      (.ok (s.main.nextVersion now [] p.toSchedule), _) :=
    onMain_ok.mpr ⟨_, Store.createVersioned_ok.mpr
      ⟨Store.check_of_fit fit _, [], found, rfl, rfl⟩, rfl⟩
  rw [persist, perform_bind_of_ok _ created]
  generalize s.main.nextVersion now [] p.toSchedule = x
  have own : ∀ y ∈ p.semesterSlots x.id, y.schedule = x.id :=
    fun _ => Proposal.semesterSlots_schedule
  have upserted := Store.bulkUpsert_withSchedule found (Store.check_of_fit fit _) own
  have staged := Store.addStaged_get (Store.withSchedule_get found x)
    ((p.semesterSlots x.id).map .upsertSlot)
  have first : Store.Sees s.main ([] ++ [.createSchedule x]) x.id :=
    congrArg Option.isSome (if_pos rfl)
  have sees : s.main.Sees ([] ++ [.createSchedule x] ++ (p.semesterSlots x.id).map .upsertSlot)
      x.id := first.append (by simp)
  rw [perform_bind_of_ok _ (onMain_ok.mpr ⟨_, upserted, rfl⟩), if_pos rfl]
  constructor
  · intro some
    exact ⟨_, publish_refused x single fit some⟩
  · intro clear
    obtain ⟨t, done, still⟩ := publish_accepted (s := { s with
      main := (s.main.withSchedule tx x).addStaged tx ((p.semesterSlots x.id).map .upsertSlot) })
      single fit staged sees clear
    exact ⟨_, t, done, still⟩

theorem inTransaction_succeeds {α : Type} {body : Nat → Service α} {a : α} {ws : List StagedWrite}
    (begins : s.main.check .begin = .ok ())
    (done : perform { s with main := s.main.opened } (body s.main.nextTransaction) = (.ok a, t))
    (fit : t.main.check .commit = .ok ())
    (found : t.main.pending.get? s.main.nextTransaction = some ws)
    (clear : t.main.versionClash? ws = none) :
    (perform s (inTransaction body)).1 = .ok a := by
  have inside : perform t.main (Store.commit s.main.nextTransaction) = (.ok ws.length, _) :=
    Store.commit_ok.mpr ⟨fit, ws, found, clear, rfl, rfl⟩
  have committed : perform t (commit s.main.nextTransaction) = (.ok (), _) :=
    perform_bind_of_ok _ (onMain_ok.mpr ⟨_, inside, rfl⟩)
  rw [perform_inTransaction, perform_onMain_begin, begins]
  simp only
  rw [done]
  simp only
  rw [committed]

theorem persisted_fit (p : Proposal) (now : Timestamp) (single : s.replica = none)
    (fit : s.main.Fit) :
    (perform s (inTransaction (persist now p true))).1.map (fun x => toString x.id) =
      p.verdict s.main := by
  have begins := Store.check_of_fit fit .begin
  have opened : s.main.opened.pending.get? s.main.nextTransaction = some [] :=
    Table.get?_insert_self _ _ _
  obtain ⟨refused, accepted⟩ := persist_fit (s := { s with main := s.main.opened }) p now single
    fit opened
  rw [Proposal.verdict]
  split
  · rename_i clear
    obtain ⟨x, t, done, still⟩ := accepted clear
    obtain ⟨record, _, writes⟩ :=
      persist_ok (s := { s with main := s.main.opened }) opened done
    have within := body_within (persist_within (Store.staging_keptWithin _) now p true) done
    rw [inTransaction_succeeds begins done (Store.check_of_fit still _) writes
      (Proposal.writes_clear within.main.semesters p now true _), record]
    rfl
  · rename_i some
    obtain ⟨t, failed⟩ := refused some
    rw [inTransaction_fails begins failed]
    rfl

theorem save_fit {id : String} (single : s.replica = none) (fit : s.main.Fit)
    (named : Text.blank id = false) (cached : (s.proposals.get id now).2 = some p)
    (savable : p.isSavable = true) :
    (perform s (save now ⟨id, true⟩)).1 = p.verdict s.main := by
  have found : perform s (getProposal id now) = (.ok p, s.looked id now) := by
    rw [perform_getProposal, cached]
  have persisted := persisted_fit (s := s.looked id now) p now single fit
  rw [save, perform_unless, if_neg (Bool.eq_false_iff.mp named), perform_bind_of_ok _ found,
    perform_unless, if_neg (not_not_intro savable)]
  cases run : perform (s.looked id now) (inTransaction (persist now p true)) with
  | mk result u =>
    rw [run] at persisted
    cases result with
    | error e =>
      rw [perform_bind_of_error _ run]
      exact persisted
    | ok x =>
      rw [perform_bind_of_ok _ run]
      exact persisted

theorem save_fit_ok {id : String} (single : s.replica = none) (fit : s.main.Fit)
    (named : Text.blank id = false) (cached : (s.proposals.get id now).2 = some p)
    (savable : p.isSavable = true) :
    (∃ told t, perform s (save now ⟨id, true⟩) = (.ok told, t)) ↔ p.collisions s.main = [] := by
  have outcome := save_fit single fit named cached savable
  rw [Proposal.verdict] at outcome
  constructor
  · intro h
    obtain ⟨told, t, done⟩ := h
    by_contra some
    rw [done, if_neg some] at outcome
    cases outcome
  · intro none
    rw [if_pos none] at outcome
    exact ⟨_, _, Prod.ext outcome rfl⟩

theorem save_fit_error {id : String} {e : ServiceError} (single : s.replica = none)
    (fit : s.main.Fit) (named : Text.blank id = false)
    (cached : (s.proposals.get id now).2 = some p) (savable : p.isSavable = true)
    (failed : perform s (save now ⟨id, true⟩) = (.error e, t)) :
    e = p.refusal s.main ∧ p.collisions s.main ≠ [] := by
  have outcome := save_fit single fit named cached savable
  rw [failed, Proposal.verdict] at outcome
  split at outcome
  · cases outcome
  · rename_i some
    exact ⟨Except.error.inj outcome, some⟩

/-- Planning keeps clear of the rows of each teacher, and so do its lessons as long as no row
comes in. -/
theorem planned_teachers_apart {r : GenerateRequest} {answer : GenerateResponse} {id : String}
    {rows : Table Int DailyLesson} (single : s.replica = none)
    (run : perform s (generate id now r) = (.ok answer, t))
    (unchanged : ∀ row ∈ rows.values, row.term = r.term → row ∈ s.main.daily.values) :
    Collision.TeachersApart rows r.term answer.lessons := by
  intro l member row listed inTerm here own
  have suits := (generate_respects_teachers run).2 l member
  have before : row ∈ s.feed.daily.values := by
    rw [Session.feed_single single]
    exact unchanged row listed inTerm
  exact suits.free row before own inTerm here

theorem planned_found {u : Session} {id : String} {later : Timestamp} {r : GenerateRequest}
    {answer : GenerateResponse} (run : perform s (generate id now r) = (.ok answer, t))
    (savable : answer.shortfalls = [])
    (cached : u.proposals.entries.get? id = t.proposals.entries.get? id)
    (fresh : later.since now ≤ u.proposals.ttl) :
    ∃ p, (u.proposals.get id later).2 = some p ∧ p.isSavable = true ∧ p.term = r.term ∧
      p.classId = r.classId ∧ p.lessons = answer.lessons := by
  obtain ⟨b, p, based, made, told, _, _, _, cache⟩ := generate_ok run
  have key : p.id = id := by
    rw [made]
    rfl
  have here : u.proposals.entries.get? id = some p := by
    rw [cached, cache, ← key]
    exact Table.get?_insert_self _ _ _
  have unexpired : p.isExpired later u.proposals.ttl = false := by
    rw [Proposal.isExpired, made]
    exact decide_eq_false (Int.not_lt.mpr fresh)
  have whole : p.isSavable = true := by
    rw [told] at savable
    exact List.isEmpty_iff.mpr savable
  refine ⟨p, ProposalCache.get_some.mpr ⟨here, unexpired⟩, whole, ?_, ?_, ?_⟩
  · exact made ▸ rfl
  · exact made ▸ rfl
  · exact told ▸ rfl

/-- Planning and publishing agree about teachers: if no row of the term has come into the daily
table since a whole timetable was planned, and no operation is failing, then only the class or a
room of a row that is there can keep it from being published, and a refusal says so. -/
theorem publish_agrees_on_teachers {u : Session} {id : String} {later : Timestamp}
    {r : GenerateRequest} {answer : GenerateResponse} (single : s.replica = none)
    (run : perform s (generate id now r) = (.ok answer, t)) (savable : answer.shortfalls = [])
    (named : Text.blank id = false) (single' : u.replica = none) (fit : u.main.Fit)
    (cached : u.proposals.entries.get? id = t.proposals.entries.get? id)
    (fresh : later.since now ≤ u.proposals.ttl)
    (unchanged : ∀ row ∈ u.main.daily.values, row.term = r.term → row ∈ s.main.daily.values) :
    ((∃ told v, perform u (save later ⟨id, true⟩) = (.ok told, v)) ↔
      Collision.ClassAndRoomApart u.main.daily r.term r.classId answer.lessons) ∧
    ∀ e v, perform u (save later ⟨id, true⟩) = (.error e, v) →
      ∃ found, e = .conflict s!"{found.length} collision(s) with the daily schedule of term {r.term}"
          (found.map .collision) ∧ found ≠ [] ∧
        found = Collision.all u.main.daily r.term r.classId answer.lessons ∧
        ∀ c ∈ found, c.dimension = .classGroup ∨ c.dimension = .room := by
  have teachers := planned_teachers_apart single run unchanged
  obtain ⟨p, found, whole, term, classId, lessons⟩ := planned_found run savable cached fresh
  have all : p.collisions u.main =
      Collision.all u.main.daily r.term r.classId answer.lessons := by
    rw [Proposal.collisions, term, classId, lessons]
  constructor
  · rw [save_fit_ok single' fit named found whole, all]
    exact teachers.all_eq_nil_iff
  · intro e v failed
    obtain ⟨refused, some⟩ := save_fit_error single' fit named found whole failed
    rw [Proposal.refusal, term] at refused
    refine ⟨_, refused, some, all, fun c listed => ?_⟩
    rw [all] at listed
    exact teachers.dimension listed

def takenMonday (room : Option String) : Session where
  main := Store.afterCalls {}
    [.addTerm ⟨"t1", "spring"⟩, .addClass ⟨"c1", "first"⟩, .addSubject ⟨"art", "arts"⟩,
      .addSubject ⟨"math", "mathematics"⟩, .addAssignment ⟨"ann", "c1", "t1", "math"⟩,
      .addAssignment ⟨"bea", "c1", "t1", "art"⟩,
      .addDaily ⟨"t1", "c2", "math", "ann", ⟨1, 1⟩, room⟩]
  proposals := { ttl := Timestamp.seconds 60 }

def inTheLab : GenerateRequest where
  term := "t1"
  classId := "c1"
  slotsPerDay := 1
  days := [1, 2]
  loads := [⟨"math", "ann", 1, 1, [], some "lab"⟩, ⟨"art", "bea", 1, 0, [], some " lab"⟩]

def plannedMonday (room : Option String) : Except ServiceError GenerateResponse × Session :=
  perform (takenMonday room) (generate "p1" ⟨20000, 0, 0⟩ inTheLab)

theorem publish_agrees_on_teachers_monday :
    (∃ answer, (plannedMonday (some "hall")).1 = .ok answer ∧ Collision.ClassAndRoomApart
      (plannedMonday (some "hall")).2.main.daily "t1" "c1" answer.lessons) ∧
    ∃ e v, perform (plannedMonday (some "lab ")).2 (save ⟨20000, 60, 0⟩ ⟨"p1", true⟩) =
        (.error e, v) ∧
      ∃ message found, e = .conflict message (found.map .collision) ∧ found ≠ [] ∧
        ∀ c ∈ found, c.dimension = .classGroup ∨ c.dimension = .room := by
  have whole : ∀ room ∈ [some "hall", some "lab "],
      ((plannedMonday room).1.toOption.map fun answer => answer.shortfalls) = some [] ∧
        (plannedMonday room).2.main.healthy = true ∧ (plannedMonday room).2.main.failing = [] ∧
        (plannedMonday room).2.replica = none ∧
        (plannedMonday room).2.proposals.ttl = Timestamp.seconds 60 := by decide +kernel
  have law : ∀ room ∈ [some "hall", some "lab "], ∃ answer, (plannedMonday room).1 = .ok answer ∧
      ((∃ told v, perform (plannedMonday room).2 (save ⟨20000, 60, 0⟩ ⟨"p1", true⟩) =
        (.ok told, v)) ↔ Collision.ClassAndRoomApart (plannedMonday room).2.main.daily "t1" "c1"
          answer.lessons) ∧
      ∀ e v, perform (plannedMonday room).2 (save ⟨20000, 60, 0⟩ ⟨"p1", true⟩) = (.error e, v) →
        ∃ message found, e = .conflict message (found.map .collision) ∧ found ≠ [] ∧
          ∀ c ∈ found, c.dimension = .classGroup ∨ c.dimension = .room := by
    intro room listed
    obtain ⟨savable, healthy, failing, single, ttl⟩ := whole room listed
    cases run : plannedMonday room with
    | mk result t =>
      rw [run] at savable healthy failing single ttl
      cases result with
      | error e => cases savable
      | ok answer =>
        obtain ⟨_, _, _, _, _, same, _⟩ := generate_ok run
        have fresh : Timestamp.since ⟨20000, 60, 0⟩ ⟨20000, 0, 0⟩ ≤ t.proposals.ttl := by
          rw [ttl]
          decide
        have unchanged : ∀ row ∈ t.main.daily.values, row.term = inTheLab.term →
            row ∈ (takenMonday room).main.daily.values := by
          intro row present _
          rw [same] at present
          exact present
        obtain ⟨agrees, blames⟩ := publish_agrees_on_teachers rfl run (Option.some.inj savable)
          (by decide) single ⟨healthy, failing⟩ rfl fresh unchanged
        refine ⟨answer, rfl, agrees, fun e v failed => ?_⟩
        obtain ⟨found, told, some, _, only⟩ := blames e v failed
        exact ⟨_, found, told, some, only⟩
  have accepted : (perform (plannedMonday (some "hall")).2
      (save ⟨20000, 60, 0⟩ ⟨"p1", true⟩)).1.toOption = some "1" := by decide +kernel
  have refused : (perform (plannedMonday (some "lab ")).2
      (save ⟨20000, 60, 0⟩ ⟨"p1", true⟩)).1.toOption = none := by decide +kernel
  constructor
  · obtain ⟨answer, planned, agrees, _⟩ := law (some "hall") (by decide)
    refine ⟨answer, planned, agrees.mp ?_⟩
    cases run : perform (plannedMonday (some "hall")).2 (save ⟨20000, 60, 0⟩ ⟨"p1", true⟩) with
    | mk result v =>
      rw [run] at accepted
      cases result with
      | error e => cases accepted
      | ok told => exact ⟨told, v, rfl⟩
  · obtain ⟨answer, _, _, blames⟩ := law (some "lab ") (by decide)
    cases run : perform (plannedMonday (some "lab ")).2 (save ⟨20000, 60, 0⟩ ⟨"p1", true⟩) with
    | mk result v =>
      rw [run] at refused
      cases result with
      | ok told => cases refused
      | error e =>
        exact ⟨e, v, rfl, blames e v run⟩

end Service

end SchoolTimetable
