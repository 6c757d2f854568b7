import SchoolTimetable.Collision
import SchoolTimetable.Proofs.Perform

/-!
What the collision check finds, and what it rules out. Two rows of the daily table collide if they
take place in one cell of one term and share the class, the teacher or a named room; a lesson with
no collisions can be added without colliding with any row that is there.
-/
namespace SchoolTimetable

structure DailyLesson.Collides (a b : DailyLesson) : Prop where
  term : a.term = b.term
  cell : a.cell = b.cell
  shared : a.classId = b.classId ∨ a.teacher = b.teacher ∨
    ∃ room, effectiveRoom a.room = some room ∧ effectiveRoom b.room = some room

theorem DailyLesson.Collides.symm {a b : DailyLesson} (h : a.Collides b) : b.Collides a where
  term := h.term.symm
  cell := h.cell.symm
  shared := by
    rcases h.shared with classId | teacher | ⟨room, first, second⟩
    · exact Or.inl classId.symm
    · exact Or.inr (Or.inl teacher.symm)
    · exact Or.inr (Or.inr ⟨room, second, first⟩)

namespace Collision
variable {s : Store} {term : TermId} {classId : ClassId}

theorem sameRoom_iff {a b : Option String} :
    sameRoom a b = true ↔ ∃ room, effectiveRoom a = some room ∧ effectiveRoom b = some room := by
  unfold sameRoom
  cases effectiveRoom a with
  | none => simp
  | some name =>
    simp only [Option.isSome_some, Bool.true_and, beq_iff_eq, Option.some.injEq]
    constructor
    · intro same
      exact ⟨name, rfl, same.symm⟩
    · intro h
      obtain ⟨room, first, second⟩ := h
      rw [first, second]

theorem dimensions_eq_nil_iff {row : DailyLesson} {teacher : TeacherId} {room : Option String} :
    dimensions row classId teacher room = [] ↔
      row.classId ≠ classId ∧ row.teacher ≠ teacher ∧ sameRoom room row.room = false := by
  simp only [dimensions, List.append_eq_nil_iff, ite_eq_right_iff, List.cons_ne_nil, imp_false,
    Bool.not_eq_true, and_assoc, ne_eq]

theorem ofLesson_ok {l : Lesson} {found : List Collision}
    (run : ofLesson s term classId l = .ok found) :
    found = (s.daily.values.filter fun r => r.term = term ∧ r.cell = l.cell).flatMap
      (ofRow classId l) := by
  unfold ofLesson Store.findConflicts at run
  cases checked : s.check .findConflicts with
  | error e => rw [checked] at run; cases run
  | ok u => rw [checked] at run; cases run; rfl

theorem ofLesson_reads {l : Lesson} {found : List Collision}
    (run : ofLesson s term classId l = .ok found) : s.check .findConflicts = .ok () := by
  unfold ofLesson Store.findConflicts at run
  cases checked : s.check .findConflicts with
  | error e => rw [checked] at run; cases run
  | ok u => rfl

theorem ofLesson_clear {l : Lesson} {row : DailyLesson}
    (run : ofLesson s term classId l = .ok []) (member : row ∈ s.daily.values)
    (same : row.term = term) (here : row.cell = l.cell) :
    row.classId ≠ classId ∧ row.teacher ≠ l.teacher ∧ sameRoom l.room row.room = false := by
  have listed : row ∈ s.daily.values.filter fun r => r.term = term ∧ r.cell = l.cell :=
    List.mem_filter.mpr ⟨member, by simp [same, here]⟩
  have none := List.flatMap_eq_nil_iff.mp (ofLesson_ok run).symm row listed
  exact dimensions_eq_nil_iff.mp (List.map_eq_nil_iff.mp none)

theorem check_clear {ls : List Lesson} (run : check s term classId ls = .ok []) :
    ∀ l ∈ ls, ofLesson s term classId l = .ok [] := by
  intro l member
  unfold check at run
  cases looked : ls.mapM (ofLesson s term classId) with
  | error e => rw [looked] at run; cases run
  | ok found =>
    rw [looked] at run
    have flat : found.flatten = [] := Except.ok.inj run
    obtain ⟨own, listed, made⟩ := mapM_ok_of_mem looked member
    rw [List.flatten_eq_nil_iff.mp flat own listed] at made
    exact made

theorem clear_apart {ls : List Lesson} (run : check s term classId ls = .ok []) {l : Lesson}
    (member : l ∈ ls) (id : Int) {row : DailyLesson} (present : row ∈ s.daily.values) :
    ¬ row.Collides ((NewDailyLesson.ofLesson term classId l).withId id) := by
  intro both
  have clear := ofLesson_clear (check_clear run l member) present both.term both.cell
  rcases both.shared with sameClass | sameTeacher | ⟨room, first, second⟩
  · exact clear.1 sameClass
  · exact clear.2.1 sameTeacher
  · have rooms := sameRoom_iff.mpr ⟨room, second, first⟩
    rw [show ((NewDailyLesson.ofLesson term classId l).withId id).room = l.room from rfl] at rooms
    rw [clear.2.2] at rooms
    cases rooms

/-! All that the check finds. -/

def ofTable (rows : Table Int DailyLesson) (term : TermId) (classId : ClassId) (l : Lesson) :
    List Collision :=
  (rows.values.filter fun r => r.term = term ∧ r.cell = l.cell).flatMap (ofRow classId l)

def all (rows : Table Int DailyLesson) (term : TermId) (classId : ClassId) (ls : List Lesson) :
    List Collision := ls.flatMap (ofTable rows term classId)

theorem all_singleton (rows : Table Int DailyLesson) (term : TermId) (classId : ClassId)
    (l : Lesson) : all rows term classId [l] = ofTable rows term classId l := List.append_nil _

theorem ofLesson_eq (reads : s.check .findConflicts = .ok ()) (l : Lesson) :
    ofLesson s term classId l = .ok (ofTable s.daily term classId l) := by
  rw [ofLesson, Store.findConflicts, reads]
  rfl

theorem check_eq (reads : s.check .findConflicts = .ok ()) (ls : List Lesson) :
    check s term classId ls = .ok (all s.daily term classId ls) := by
  have each : ls.mapM (ofLesson s term classId) = .ok (ls.map (ofTable s.daily term classId)) := by
    induction ls with
    | nil => rfl
    | cons l rest ih => exact mapM_cons_ok.mpr ⟨_, _, ofLesson_eq reads l, ih, rfl⟩
  rw [check, each, all, List.flatMap_def]
  rfl

theorem mem_dimensions {row : DailyLesson} {teacher : TeacherId} {room : Option String}
    {d : CollisionDimension} : d ∈ dimensions row classId teacher room ↔
      (d = .classGroup ∧ row.classId = classId) ∨ (d = .teacher ∧ row.teacher = teacher) ∨
        (d = .room ∧ sameRoom room row.room = true) := by
  have one : ∀ (c : Prop) [Decidable c] (e : CollisionDimension),
      d ∈ (if c then [e] else []) ↔ d = e ∧ c := by
    intro c _ e
    split <;> simp [*]
  rw [dimensions, List.mem_append, List.mem_append, one, one, one, or_assoc]

theorem mem_all {rows : Table Int DailyLesson} {ls : List Lesson} {c : Collision} :
    c ∈ all rows term classId ls ↔ ∃ l ∈ ls, ∃ row ∈ rows.values, row.term = term ∧
      row.cell = l.cell ∧ ∃ d ∈ dimensions row classId l.teacher l.room,
        ⟨d, l.cell, l.subject, l.teacher, row⟩ = c := by
  simp only [all, ofTable, ofRow, List.mem_flatMap, List.mem_filter, List.mem_map,
    decide_eq_true_eq, and_assoc]

theorem all_eq_nil_iff {rows : Table Int DailyLesson} {ls : List Lesson} :
    all rows term classId ls = [] ↔ ∀ l ∈ ls, ∀ row ∈ rows.values, row.term = term →
      row.cell = l.cell → dimensions row classId l.teacher l.room = [] := by
  constructor
  · intro none l member row listed inTerm here
    refine List.eq_nil_iff_forall_not_mem.mpr fun d shared => ?_
    have found := mem_all.mpr ⟨l, member, row, listed, inTerm, here, d, shared, rfl⟩
    rw [none] at found
    cases found
  · intro clear
    refine List.eq_nil_iff_forall_not_mem.mpr fun c found => ?_
    obtain ⟨l, member, row, listed, inTerm, here, d, shared, _⟩ := mem_all.mp found
    rw [clear l member row listed inTerm here] at shared
    cases shared

end Collision

end SchoolTimetable
