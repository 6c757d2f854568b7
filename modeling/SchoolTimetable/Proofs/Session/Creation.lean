import SchoolTimetable.Proofs.Clashes
import SchoolTimetable.Proofs.Session.OneByOne

/-!
Single lessons for the daily table, from the request to the row. A request is granted if it is
acceptable to the table that it finds; then the table has one row more, which stands in the way of
the same request. A request that is refused leaves everything as it was.
-/
namespace SchoolTimetable

namespace CreateDailyRequest
variable {r : CreateDailyRequest} {s : Session} {main : Store} {maxSlots : Nat}

structure Shaped (r : CreateDailyRequest) (maxSlots : Nat) : Prop where
  term : Text.blank r.term = false
  classId : Text.blank r.classId = false
  subject : Text.blank r.subject = false
  teacher : Text.blank r.teacher = false
  day : 1 ≤ r.day ∧ r.day ≤ 7
  slot : 1 ≤ r.slot ∧ r.slot ≤ maxSlots

theorem check_ok_iff : r.check maxSlots = .ok () ↔ r.Shaped maxSlots := by
  rw [check, except_unless_ok, except_unless_ok, except_unless_ok]
  simp only [Bool.or_eq_true, not_or, Bool.not_eq_true, Int.not_lt, and_true, Weekday.first,
    Weekday.last]
  constructor
  · rintro ⟨⟨⟨⟨term, classId⟩, subject⟩, teacher⟩, day, slot⟩
    exact ⟨term, classId, subject, teacher, day, slot⟩
  · intro shaped
    exact ⟨⟨⟨⟨shaped.term, shaped.classId⟩, shaped.subject⟩, shaped.teacher⟩, shaped.day,
      shaped.slot⟩

theorem Shaped.cell_eq_iff (shaped : r.Shaped maxSlots) {c : Cell} :
    c = r.toLesson.cell ↔ (c.day : Int) = r.day ∧ (c.slot : Int) = r.slot := by
  have day := shaped.day
  have slot := shaped.slot
  obtain ⟨d, n⟩ := c
  simp only [toLesson, Cell.mk.injEq]
  omega

theorem checkReferences_ok (run : r.checkReferences main = .ok ()) :
    (main.terms.get? r.term).isSome = true ∧ (main.classes.get? r.classId).isSome = true ∧
      (main.subjects.get? r.subject).isSome = true := by
  obtain ⟨_, term, run⟩ := except_bind_ok.mp run
  obtain ⟨_, classId, subject⟩ := except_bind_ok.mp run
  exact ⟨ServiceError.required_known term, ServiceError.required_known classId,
    ServiceError.required_known subject⟩

structure Hindered (r : CreateDailyRequest) (row : DailyLesson) : Prop where
  term : row.term = r.term
  day : (row.cell.day : Int) = r.day
  slot : (row.cell.slot : Int) = r.slot
  shared : row.classId = r.classId ∨ row.teacher = r.teacher ∨ SharedRoom r.room row.room

structure Acceptable (r : CreateDailyRequest) (main : Store) (maxSlots : Nat) : Prop extends
    Shaped r maxSlots where
  known : (main.terms.get? r.term).isSome = true ∧ (main.classes.get? r.classId).isSome = true ∧
    (main.subjects.get? r.subject).isSome = true
  clear : ∀ row ∈ main.daily.values, ¬ r.Hindered row

theorem sharedRoom_toLesson {room : Option String} :
    SharedRoom r.toLesson.room room ↔ SharedRoom r.room room := by
  rw [sharedRoom_iff, sharedRoom_iff, toLesson, effectiveRoom_idem]

theorem Shaped.hindered_iff (shaped : r.Shaped maxSlots) {row : DailyLesson} :
    r.Hindered row ↔ row.term = r.term ∧ row.cell = r.toLesson.cell ∧
      ∃ d : CollisionDimension, d.Shared r.classId r.toLesson row := by
  rw [shaped.cell_eq_iff]
  constructor
  · rintro ⟨term, day, slot, shared⟩
    refine ⟨term, ⟨day, slot⟩, ?_⟩
    rcases shared with classId | teacher | room
    · exact ⟨.classGroup, classId⟩
    · exact ⟨.teacher, teacher⟩
    · exact ⟨.room, sharedRoom_toLesson.mpr room⟩
  · rintro ⟨term, ⟨day, slot⟩, d, shared⟩
    refine ⟨term, day, slot, ?_⟩
    cases d with
    | classGroup => exact Or.inl shared
    | teacher => exact Or.inr (Or.inl shared)
    | room => exact Or.inr (Or.inr (sharedRoom_toLesson.mp shared))

theorem Shaped.ofTable_eq_nil_iff (shaped : r.Shaped maxSlots) :
    Collision.ofTable main.daily r.term r.classId r.toLesson = [] ↔
      ∀ row ∈ main.daily.values, ¬ r.Hindered row := by
  rw [← Collision.all_singleton, Collision.all_eq_nil_iff]
  constructor
  · intro clear row listed hindered
    obtain ⟨term, here, d, shared⟩ := shaped.hindered_iff.mp hindered
    have member := CollisionDimension.shared_iff.mp shared
    rw [clear _ List.mem_cons_self row listed term here] at member
    cases member
  · intro clear l member row listed term here
    cases List.mem_singleton.mp member
    refine List.eq_nil_iff_forall_not_mem.mpr fun d shared => ?_
    exact clear row listed
      (shaped.hindered_iff.mpr ⟨term, here, d, CollisionDimension.shared_iff.mpr shared⟩)

end CreateDailyRequest

namespace Service
variable {r : CreateDailyRequest} {s t : Session} {row : DailyLesson}

theorem createDaily_ok_iff_acceptable (single : s.replica = none) (fit : s.main.Fit) :
    (∃ row t, perform s (createDaily r) = (.ok row, t)) ↔
      r.Acceptable s.main s.settings.maxSlotsPerDay := by
  constructor
  · rintro ⟨row, t, run⟩
    have grants := createDaily_grants single run
    have shaped := CreateDailyRequest.check_ok_iff.mp grants.shaped
    obtain ⟨term, classId, subject⟩ := CreateDailyRequest.checkReferences_ok grants.referred
    have clear := (createDaily_fit_ok single fit ⟨grants.shaped, term, classId, subject⟩).mp
      ⟨row, t, run⟩
    exact ⟨shaped, ⟨term, classId, subject⟩, shaped.ofTable_eq_nil_iff.mp clear⟩
  · intro acceptable
    obtain ⟨term, classId, subject⟩ := acceptable.known
    have shaped := CreateDailyRequest.check_ok_iff.mpr acceptable.toShaped
    exact (createDaily_fit_ok single fit ⟨shaped, term, classId, subject⟩).mpr
      (acceptable.toShaped.ofTable_eq_nil_iff.mpr acceptable.clear)

structure Adds (r : CreateDailyRequest) (s t : Session) (row : DailyLesson) : Prop where
  fresh : s.main.daily.get? row.id = none
  unstaged : ∀ tx ws, s.main.pending.get? tx = some ws →
    ∀ other, .insertDaily other ∈ ws → other.id ≠ row.id
  asked : row.term = r.term ∧ row.classId = r.classId ∧ row.subject = r.subject ∧
    row.teacher = r.teacher
  cell : (row.cell.day : Int) = r.day ∧ (row.cell.slot : Int) = r.slot
  within : r.Shaped s.settings.maxSlotsPerDay
  room : row.room = effectiveRoom r.room
  state : t = { s with
    main := { s.main with
      daily := s.main.daily.insert row.id row
      nextDaily := s.main.nextDaily + 1 }
    log := t.log }

theorem createDaily_adds (single : s.replica = none) (drawn : s.main.Drawn)
    (run : perform s (createDaily r) = (.ok row, t)) : Adds r s t row := by
  have grants := createDaily_grants single run
  have shaped := CreateDailyRequest.check_ok_iff.mp grants.shaped
  cases grants.row
  constructor
  · exact drawn.fresh_daily (Int.le_refl _)
  · intro tx ws staged other member
    exact Int.ne_of_lt (drawn.staged tx ws staged _ member)
  · exact ⟨rfl, rfl, rfl, rfl⟩
  · exact shaped.cell_eq_iff.mp rfl
  · exact shaped
  · rfl
  · exact grants.state

theorem createDaily_collides (single : s.replica = none)
    (shaped : r.check s.settings.maxSlotsPerDay = .ok ())
    (referred : r.checkReferences s.main = .ok ())
    (reads : s.main.check .findConflicts = .ok ())
    (collides : Collision.ofTable s.main.daily r.term r.classId r.toLesson ≠ []) :
    ∃ message, perform s (createDaily r) = (.error (.conflict message
      ((Collision.ofTable s.main.daily r.term r.classId r.toLesson).map .collision)), s) := by
  have looked : perform s (reading (Collision.check s.feed r.term r.classId [r.toLesson])) =
      (.ok (Collision.ofTable s.main.daily r.term r.classId r.toLesson), s) := by
    rw [Session.feed_single single, Collision.check_eq reads, Collision.all_singleton]
    rfl
  rw [createDaily, perform_bind_of_ok _ (perform_get s),
    perform_bind_of_ok _ (lift_iff.mpr ⟨shaped, rfl⟩),
    perform_bind_of_ok _ (lift_iff.mpr ⟨referred, rfl⟩)]
  simp only
  rw [perform_bind_of_ok _ looked, perform_unless, if_pos collides]
  exact ⟨_, rfl⟩

theorem createDaily_refuses_again (single : s.replica = none)
    (run : perform s (createDaily r) = (.ok row, t)) :
    ∃ message details,
      perform t (createDaily r) = (.error (.conflict message details), t) ∧
        .collision ⟨.classGroup, row.cell, row.subject, row.teacher, row⟩ ∈ details ∧
        .collision ⟨.teacher, row.cell, row.subject, row.teacher, row⟩ ∈ details := by
  obtain ⟨passed, referred, clear, made, _⟩ := createDaily_grants single run
  obtain ⟨_, added, _, replica, settings⟩ := createDaily_ok single run
  have reads := Collision.ofLesson_reads (Collision.check_clear clear _ List.mem_cons_self)
  have listed : row ∈ t.main.daily.values := by
    rw [added, made]
    exact Table.mem_values_iff.mpr ⟨_, Table.get?_insert_self _ _ _⟩
  have told : ∀ d ∈ Collision.dimensions row r.classId r.toLesson.teacher r.toLesson.room,
      ⟨d, row.cell, row.subject, row.teacher, row⟩ ∈
        Collision.ofTable t.main.daily r.term r.classId r.toLesson := by
    intro d shared
    rw [← Collision.all_singleton, Collision.mem_all]
    subst made
    exact ⟨_, List.mem_cons_self, _, listed, rfl, rfl, d, shared, rfl⟩
  have sameClass := told .classGroup (Collision.mem_dimensions.mpr (Or.inl ⟨rfl, made ▸ rfl⟩))
  have sameTeacher := told .teacher
    (Collision.mem_dimensions.mpr (Or.inr (Or.inl ⟨rfl, made ▸ rfl⟩)))
  obtain ⟨message, refused⟩ := createDaily_collides (r := r) replica
    (by rw [settings]; exact passed) (by rw [added]; exact referred) (by rw [added]; exact reads)
    (List.ne_nil_of_mem sameClass)
  exact ⟨message, _, refused, List.mem_map_of_mem sameClass, List.mem_map_of_mem sameTeacher⟩

/-- A request for a single lesson is refused without a trace, or granted with one row; while no
operation is failing, it is granted if it is acceptable. It is never granted twice. -/
theorem createDaily_refuses_or_adds (single : s.replica = none) (reached : s.main.Reachable)
    (r : CreateDailyRequest) :
    (∀ e t, perform s (createDaily r) = (.error e, t) → t = s) ∧
    (s.main.Fit → ((∃ row t, perform s (createDaily r) = (.ok row, t)) ↔
      r.Acceptable s.main s.settings.maxSlotsPerDay)) ∧
    ∀ row t, perform s (createDaily r) = (.ok row, t) →
      Adds r s t row ∧ ∃ message details,
        perform t (createDaily r) = (.error (.conflict message details), t) ∧
          .collision ⟨.classGroup, row.cell, row.subject, row.teacher, row⟩ ∈ details ∧
          .collision ⟨.teacher, row.cell, row.subject, row.teacher, row⟩ ∈ details := by
  refine ⟨fun e t run => createDaily_error single run, createDaily_ok_iff_acceptable single, ?_⟩
  intro row t run
  exact ⟨createDaily_adds single reached.drawn run, createDaily_refuses_again single run⟩

def oneLesson (faults : List StoreCall) : Session where
  main := .afterCalls {} ([.addTerm ⟨"t1", "autumn"⟩, .addClass ⟨"c1", "first"⟩,
    .addSubject ⟨"math", "mathematics"⟩,
    .addDaily ⟨"t1", "c2", "art", "bea", ⟨1, 1⟩, some "lab"⟩] ++ faults)
  proposals := { ttl := Timestamp.seconds 60 }

def besideIt (room : String) : CreateDailyRequest := ⟨"t1", "c1", "math", "ann", 1, 1, some room⟩

theorem createDaily_refuses_or_adds_rooms :
    (∃ row t, perform (oneLesson []) (createDaily (besideIt "  ")) = (.ok row, t) ∧
      row.room = none ∧ ∃ message details,
        perform t (createDaily (besideIt "  ")) = (.error (.conflict message details), t)) ∧
    (¬ ∃ row t, perform (oneLesson []) (createDaily (besideIt " lab ")) = (.ok row, t)) ∧
    (perform (oneLesson [.failOn "insert"]) (createDaily (besideIt "  "))).2 =
      oneLesson [.failOn "insert"] := by
  have stored : ∀ faults, (oneLesson faults).main.Reachable := fun _ => ⟨_, rfl⟩
  have fit : (oneLesson []).main.Fit := ⟨rfl, rfl⟩
  have only : ∀ row ∈ (oneLesson []).main.daily.values,
      row = ⟨1, "t1", "c2", "art", "bea", ⟨1, 1⟩, some "lab"⟩ := by decide
  refine ⟨?_, ?_, ?_⟩
  · obtain ⟨_, granted, adds⟩ := createDaily_refuses_or_adds (s := oneLesson []) rfl (stored [])
      (besideIt "  ")
    have clear : ∀ row ∈ (oneLesson []).main.daily.values, ¬ (besideIt "  ").Hindered row := by
      rintro row listed ⟨_, _, _, shared⟩
      rw [only row listed] at shared
      rcases shared with sameClass | sameTeacher | ⟨x, _, named, _, solid, _⟩
      · exact absurd sameClass (by decide)
      · exact absurd sameTeacher (by decide)
      · cases named
        exact absurd solid (by decide)
    obtain ⟨row, t, run⟩ := (granted fit).mpr
      { term := by decide, classId := by decide, subject := by decide, teacher := by decide
        day := by decide, slot := by decide, known := by decide, clear := clear }
    obtain ⟨added, message, details, refused, _⟩ := adds row t run
    exact ⟨row, t, run, added.room.trans (by decide), message, details, refused⟩
  · obtain ⟨_, granted, _⟩ := createDaily_refuses_or_adds (s := oneLesson []) rfl (stored [])
      (besideIt " lab ")
    intro accepted
    refine ((granted fit).mp accepted).clear _ List.mem_cons_self ⟨rfl, rfl, rfl, ?_⟩
    exact Or.inr (Or.inr ⟨" lab ", "lab", rfl, rfl, rfl, rfl, rfl⟩)
  · obtain ⟨unchanged, _⟩ := createDaily_refuses_or_adds (s := oneLesson [.failOn "insert"]) rfl
      (stored _) (besideIt "  ")
    have failing : (perform (oneLesson [.failOn "insert"]) (createDaily (besideIt "  "))).1.toOption =
        none := by rfl
    cases run : perform (oneLesson [.failOn "insert"]) (createDaily (besideIt "  ")) with
    | mk result t =>
      rw [run] at failing
      cases result with
      | ok row => cases failing
      | error e => exact unchanged e t run

end Service

end SchoolTimetable
