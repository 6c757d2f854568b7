import SchoolTimetable.Proofs.Collision
import SchoolTimetable.Proofs.Store.Runs

/-!
The whole list of collisions. A clash is a lesson at its place in the list, a daily row of the term
that takes place in its cell, and one dimension that the two share; the check lists every clash
once, by place, then by row, then by dimension.
-/
namespace SchoolTimetable

def SharedRoom (a b : Option String) : Prop :=
  ∃ x y, a = some x ∧ b = some y ∧ Text.blank x = false ∧ Text.blank y = false ∧
    Text.trim x = Text.trim y

theorem effectiveRoom_eq_some_iff {room : Option String} {name : String} :
    effectiveRoom room = some name ↔
      ∃ x, room = some x ∧ Text.blank x = false ∧ Text.trim x = name := by
  have named : ∀ x, Text.trim x ≠ "" ↔ Text.blank x = false := by
    intro x
    rw [← Bool.not_eq_true, Text.blank_iff_trim_eq]
  cases room with
  | none => simp [effectiveRoom]
  | some x =>
    rw [effectiveRoom, Option.map_some, Option.filter_eq_some_iff, decide_eq_true_iff]
    simp only [Option.some.injEq, exists_eq_left']
    constructor
    · rintro ⟨rfl, solid⟩
      exact ⟨(named x).mp solid, rfl⟩
    · rintro ⟨solid, rfl⟩
      exact ⟨rfl, (named x).mpr solid⟩

theorem sharedRoom_iff {a b : Option String} :
    SharedRoom a b ↔ ∃ name, effectiveRoom a = some name ∧ effectiveRoom b = some name := by
  constructor
  · rintro ⟨x, y, first, second, solid, solid', same⟩
    exact ⟨Text.trim x, effectiveRoom_eq_some_iff.mpr ⟨x, first, solid, rfl⟩,
      effectiveRoom_eq_some_iff.mpr ⟨y, second, solid', same.symm⟩⟩
  · rintro ⟨name, first, second⟩
    obtain ⟨x, here, solid, own⟩ := effectiveRoom_eq_some_iff.mp first
    obtain ⟨y, there, solid', other⟩ := effectiveRoom_eq_some_iff.mp second
    exact ⟨x, y, here, there, solid, solid', own.trans other.symm⟩

namespace CollisionDimension

def rank : CollisionDimension → Nat
  | .classGroup => 0
  | .teacher => 1
  | .room => 2

def Shared (classId : ClassId) (l : Lesson) (row : DailyLesson) : CollisionDimension → Prop
  | .classGroup => row.classId = classId
  | .teacher => row.teacher = l.teacher
  | .room => SharedRoom l.room row.room

theorem shared_iff {classId : ClassId} {l : Lesson} {row : DailyLesson} {d : CollisionDimension} :
    d.Shared classId l row ↔ d ∈ Collision.dimensions row classId l.teacher l.room := by
  rw [Collision.mem_dimensions, Collision.sameRoom_iff, ← sharedRoom_iff]
  cases d <;> simp [Shared]

end CollisionDimension

structure Clash where
  place : Nat
  lesson : Lesson
  row : DailyLesson
  dimension : CollisionDimension

namespace Clash
variable {rows : Table Int DailyLesson} {term : TermId} {classId : ClassId}

def report (c : Clash) : Collision :=
  ⟨c.dimension, c.lesson.cell, c.lesson.subject, c.lesson.teacher, c.row⟩

structure Holds (rows : Table Int DailyLesson) (term : TermId) (classId : ClassId)
    (ls : List Lesson) (c : Clash) : Prop where
  listed : ls[c.place]? = some c.lesson
  committed : c.row ∈ rows.values
  inTerm : c.row.term = term
  here : c.row.cell = c.lesson.cell
  shared : c.dimension.Shared classId c.lesson c.row

def Before (a b : Clash) : Prop :=
  a.place < b.place ∨ a.place = b.place ∧ (a.row.id < b.row.id ∨
    a.row.id = b.row.id ∧ a.dimension.rank < b.dimension.rank)

def ofLesson (rows : Table Int DailyLesson) (term : TermId) (classId : ClassId) (place : Nat)
    (l : Lesson) : List Clash :=
  (rows.values.filter fun r => r.term = term ∧ r.cell = l.cell).flatMap fun row =>
    (Collision.dimensions row classId l.teacher l.room).map fun d => ⟨place, l, row, d⟩

def all (rows : Table Int DailyLesson) (term : TermId) (classId : ClassId) (ls : List Lesson) :
    List Clash :=
  ls.zipIdx.flatMap fun x => ofLesson rows term classId x.2 x.1

theorem report_ofLesson (place : Nat) (l : Lesson) :
    (ofLesson rows term classId place l).map report = Collision.ofTable rows term classId l := by
  rw [ofLesson, Collision.ofTable, List.map_flatMap]
  simp only [List.map_map]
  rfl

theorem report_all (ls : List Lesson) :
    (all rows term classId ls).map report = Collision.all rows term classId ls := by
  rw [all, Collision.all, List.map_flatMap]
  simp only [report_ofLesson]
  rw [← List.flatMap_map Prod.fst, List.zipIdx_map_fst]

theorem mem_all {ls : List Lesson} {c : Clash} :
    c ∈ all rows term classId ls ↔ c.Holds rows term classId ls := by
  simp only [all, ofLesson, List.mem_flatMap, List.mem_filter, List.mem_map, decide_eq_true_eq]
  constructor
  · rintro ⟨⟨l, place⟩, listed, row, ⟨committed, inTerm, here⟩, d, shared, rfl⟩
    exact ⟨List.mk_mem_zipIdx_iff_getElem?.mp listed, committed, inTerm, here,
      CollisionDimension.shared_iff.mpr shared⟩
  · intro holds
    exact ⟨(c.lesson, c.place), List.mk_mem_zipIdx_iff_getElem?.mpr holds.listed, c.row,
      ⟨holds.committed, holds.inTerm, holds.here⟩, c.dimension,
      CollisionDimension.shared_iff.mp holds.shared, rfl⟩

theorem dimensions_ascend (row : DailyLesson) (classId : ClassId) (teacher : TeacherId)
    (room : Option String) :
    (Collision.dimensions row classId teacher room).Pairwise fun d e => d.rank < e.rank := by
  unfold Collision.dimensions
  split <;> split <;> split <;> simp [CollisionDimension.rank]

theorem values_ascend (keyed : ∀ id row, rows.get? id = some row → row.id = id) :
    rows.values.Pairwise fun a b => a.id < b.id := by
  refine List.pairwise_map.mpr (rows.sorted.imp_of_mem ?_)
  intro a b first second before
  rw [keyed a.1 a.2 (Table.get?_eq_some_iff.mpr first),
    keyed b.1 b.2 (Table.get?_eq_some_iff.mpr second)]
  exact of_decide_eq_true before

theorem ofLesson_ascend (keyed : ∀ id row, rows.get? id = some row → row.id = id) (place : Nat)
    (l : Lesson) : (ofLesson rows term classId place l).Pairwise Before := by
  refine List.pairwise_flatMap.mpr ⟨fun row _ => ?_, ?_⟩
  · refine List.pairwise_map.mpr ((dimensions_ascend row classId l.teacher l.room).imp ?_)
    intro d e ascend
    exact Or.inr ⟨rfl, Or.inr ⟨rfl, ascend⟩⟩
  · refine ((values_ascend keyed).filter _).imp ?_
    intro a b ascend x first y second
    obtain ⟨d, _, rfl⟩ := List.mem_map.mp first
    obtain ⟨e, _, rfl⟩ := List.mem_map.mp second
    exact Or.inr ⟨rfl, Or.inl ascend⟩

theorem place_of_mem {place : Nat} {l : Lesson} {c : Clash}
    (member : c ∈ ofLesson rows term classId place l) : c.place = place := by
  obtain ⟨row, _, made⟩ := List.mem_flatMap.mp member
  obtain ⟨d, _, rfl⟩ := List.mem_map.mp made
  rfl

theorem all_ascend (keyed : ∀ id row, rows.get? id = some row → row.id = id) (ls : List Lesson) :
    (all rows term classId ls).Pairwise Before := by
  have places : ls.zipIdx.Pairwise fun x y => x.2 < y.2 := by
    refine List.pairwise_map.mp ?_
    rw [List.zipIdx_map_snd]
    exact List.pairwise_lt_range'
  refine List.pairwise_flatMap.mpr ⟨fun x _ => ofLesson_ascend keyed x.2 x.1, places.imp ?_⟩
  intro x y before c first d second
  rw [← place_of_mem first, ← place_of_mem second] at before
  exact Or.inl before

end Clash

namespace Collision
variable {s : Store}

theorem dimensions_comm (a b : DailyLesson) :
    dimensions a b.classId b.teacher b.room = dimensions b a.classId a.teacher a.room := by
  have rooms : sameRoom b.room a.room = sameRoom a.room b.room := by
    rw [Bool.eq_iff_iff, sameRoom_iff, sameRoom_iff]
    constructor <;> exact fun ⟨name, first, second⟩ => ⟨name, second, first⟩
  simp only [dimensions, rooms, eq_comm (a := b.classId), eq_comm (a := b.teacher)]

/-- The check tells of the clashes, each of them once and in their order, and of nothing else. It
does not matter which of two lessons is the one that is there. -/
theorem check_tells_clashes (reached : s.Reachable) (reads : s.check .findConflicts = .ok ())
    (term : TermId) (classId : ClassId) (ls : List Lesson) :
    (∃ clashes : List Clash, check s term classId ls = .ok (clashes.map Clash.report) ∧
      clashes.Pairwise Clash.Before ∧
      ∀ c, c ∈ clashes ↔ c.Holds s.daily term classId ls) ∧
    ∀ a b : DailyLesson,
      dimensions a b.classId b.teacher b.room = dimensions b a.classId a.teacher a.room := by
  have keyed : ∀ id row, s.daily.get? id = some row → row.id = id :=
    fun id row found => (reached.drawn.daily id row found).1
  refine ⟨⟨Clash.all s.daily term classId ls, ?_, Clash.all_ascend keyed ls, fun c => Clash.mem_all⟩,
    dimensions_comm⟩
  rw [check_eq reads, Clash.report_all]

def twoRows : Store := .afterCalls {}
  [.addDaily ⟨"t1", "c1", "math", "ann", ⟨1, 1⟩, some " lab "⟩,
    .addDaily ⟨"t1", "c2", "art", "bea", ⟨1, 1⟩, some "  "⟩]

theorem check_tells_clashes_repeated :
    ∃ clashes : List Clash,
      check twoRows "t1" "c3" (List.replicate 2 ⟨⟨1, 1⟩, "bio", "cid", some "lab"⟩) =
        .ok (clashes.map Clash.report) ∧
      clashes.Pairwise Clash.Before ∧
      (∃ c ∈ clashes, c.place = 1 ∧ c.row.id = 1 ∧ c.dimension = .room) ∧
      ∀ c ∈ clashes, c.row.room = some "  " → c.dimension ≠ .room := by
  obtain ⟨⟨clashes, told, ascend, each⟩, _⟩ := check_tells_clashes (s := twoRows) ⟨_, rfl⟩ rfl
    "t1" "c3" (List.replicate 2 ⟨⟨1, 1⟩, "bio", "cid", some "lab"⟩)
  refine ⟨clashes, told, ascend, ?_, ?_⟩
  · refine ⟨⟨1, ⟨⟨1, 1⟩, "bio", "cid", some "lab"⟩,
      ⟨1, "t1", "c1", "math", "ann", ⟨1, 1⟩, some " lab "⟩, .room⟩, (each _).mpr ?_, rfl, rfl, rfl⟩
    exact ⟨rfl, List.mem_cons_self, rfl, rfl, "lab", " lab ", rfl, rfl, rfl, rfl, rfl⟩
  · intro c member blank room
    have shared := ((each c).mp member).shared
    rw [room] at shared
    obtain ⟨x, y, _, named, _, solid, _⟩ := shared
    cases blank.symm.trans named
    exact absurd solid (by decide)

end Collision

end SchoolTimetable
