import Mathlib.Data.List.Sigma
import SchoolTimetable.Plan
import SchoolTimetable.Proofs.Board.Sliding

/-!
What becomes of the lessons that a plan is asked for, unit by unit. A unit is given, as a lesson of
its subject, teacher and room, or it is missed, and then noted as a shortfall. The repair neither
gives nor misses a unit, so counts of lessons and shortfalls are counts of units.
-/
namespace SchoolTimetable

def SubjectLoad.content (l : SubjectLoad) : SubjectId × TeacherId × Option String :=
  (l.subject, l.teacher, l.room)

theorem total_perm {xs ys : List Nat} (perm : xs.Perm ys) : total xs = total ys := by
  induction perm with
  | nil => rfl
  | cons n _ ih => exact congrArg (n + ·) ih
  | swap m n rest => exact Nat.add_left_comm n m (total rest)
  | trans _ _ first second => exact first.trans second

namespace Board

def placementEntries (loads : List SubjectLoad) : List ((Int × Int × Nat) × SubjectLoad) :=
  loads.zipIdx.map fun (l, i) => ((-l.difficulty, -(l.weeklyCount : Int), i), l)

theorem placementEntries_values (loads : List SubjectLoad) :
    (placementEntries loads).map Prod.snd = loads := by
  rw [placementEntries, List.map_map]
  exact List.zipIdx_map_fst 0 loads

theorem placementEntries_perm (loads : List SubjectLoad) :
    (Table.ofList (placementEntries loads)).entries.Perm (placementEntries loads) := by
  apply Table.ofList_entries_perm
  have places := List.pairwise_map.mp (List.nodup_zipIdx_map_snd loads)
  rw [placementEntries, List.map_map]
  refine List.pairwise_map.mpr (places.imp ?_)
  intro a b apart same
  exact apart (Prod.mk.inj (Prod.mk.inj same).2).2

theorem placementOrder_perm (loads : List SubjectLoad) : (placementOrder loads).Perm loads := by
  have values := (placementEntries_perm loads).map Prod.snd
  rwa [placementEntries_values] at values

theorem countP_units (loads : List SubjectLoad) (p : SubjectLoad → Bool) :
    (units loads).countP p = total ((loads.filter p).map (·.weeklyCount)) := by
  have copies : ∀ ls : List SubjectLoad,
      (ls.flatMap fun l => List.replicate l.weeklyCount l).countP p =
        total ((ls.filter p).map (·.weeklyCount)) := by
    intro ls
    induction ls with
    | nil => rfl
    | cons l rest ih =>
      rw [List.flatMap_cons, List.countP_append, List.countP_replicate, ih]
      by_cases passed : p l = true
      · rw [if_pos passed, List.filter_cons_of_pos passed]
        rfl
      · rw [if_neg passed, List.filter_cons_of_neg passed, Nat.zero_add]
  exact (copies _).trans (total_perm (((placementOrder_perm loads).filter p).map (·.weeklyCount)))

theorem length_units (loads : List SubjectLoad) :
    (units loads).length = total (loads.map (·.weeklyCount)) := by
  have all := countP_units loads fun _ => true
  rwa [List.countP_true, List.filter_true] at all

theorem length_lessons (b : Board) : b.lessons.length = b.grid.size := List.length_map _

theorem withLedger_shortfalls (b : Board) (t : TeacherId) :
    (b.withLedger t).shortfalls = b.shortfalls := by
  unfold withLedger
  split <;> rfl

theorem placeUnit_cases (b : Board) (l : SubjectLoad) :
    (((b.placeUnit l).1.lessons.map Lesson.content).Perm
        (l.content :: b.lessons.map Lesson.content) ∧
      (b.placeUnit l).1.shortfalls = b.shortfalls) ∨
    ((b.placeUnit l).1.lessons = b.lessons ∧
      (b.placeUnit l).1.shortfalls = b.shortfalls ++ [.ofLoad l]) := by
  have grid := (b.withLedger_frame l.teacher).2.2.1
  have shortfalls := b.withLedger_shortfalls l.teacher
  simp only [placeUnit, placeOne]
  cases found : (b.withLedger l.teacher).cellFor? l with
  | some c =>
    have empty : (b.withLedger l.teacher).grid.get? c = none := (cellFor?_spec found).2.1
    have more := Table.insert_entries_perm (⟨c, l.subject, l.teacher, l.room⟩ : Lesson) empty
    rw [grid] at more
    refine Or.inl ⟨?_, shortfalls⟩
    simp only [lessons, pin, grid]
    exact (more.map Prod.snd).map Lesson.content
  | none =>
    have empty : (b.withLedger l.teacher).lessons = b.lessons := by rw [lessons, grid, lessons]
    exact Or.inr ⟨empty, congrArg (· ++ [.ofLoad l]) shortfalls⟩

theorem placeUnits_split (b : Board) (ls : List SubjectLoad) :
    ∃ given missed, ls.Perm (given ++ missed) ∧
      ((b.placeUnits ls).1.lessons.map Lesson.content).Perm
        (given.map SubjectLoad.content ++ b.lessons.map Lesson.content) ∧
      (b.placeUnits ls).1.shortfalls = b.shortfalls ++ missed.map .ofLoad := by
  induction ls generalizing b with
  | nil => exact ⟨[], [], .refl _, .refl _, (List.append_nil _).symm⟩
  | cons l rest ih =>
    obtain ⟨given, missed, split, lessons, shortfalls⟩ := ih (b.placeUnit l).1
    rw [placeUnits_cons]
    rcases b.placeUnit_cases l with ⟨more, same⟩ | ⟨same, more⟩
    · refine ⟨l :: given, missed, split.cons l, ?_, by rw [shortfalls, same]⟩
      exact (lessons.trans (more.append_left _)).trans List.perm_middle
    · refine ⟨given, l :: missed, (split.cons l).trans List.perm_middle.symm, ?_, ?_⟩
      · rw [same] at lessons
        exact lessons
      · rw [shortfalls, more, List.append_assoc]
        rfl

theorem repairGaps_contents (budget : Nat) (b : Board) :
    (repairGaps budget b).1.lessons.map Lesson.content = b.lessons.map Lesson.content := by
  rw [contents_eq, contents_eq]
  exact slid_contents (repairGaps_slid budget b).lessons

theorem conflictPenalty_eq (shortfalls : List Shortfall) :
    conflictPenalty shortfalls = shortfalls.length := by
  rw [conflictPenalty]
  apply congrArg List.length
  apply List.filter_eq_self.mpr
  intro x _
  cases x.kind
  rfl

end Board

namespace PlanRun
open Board

theorem make_steps (loads : List SubjectLoad) (slots : Nat) (days : List Nat)
    (teachers : Table TeacherId Availability) (budget : Nat) :
    Steps (· ∈ loads) (.start slots days teachers)
      (make loads slots days teachers budget).board :=
  (placeLoads_steps _ loads).trans (repairGaps_steps budget _)

/-- The lessons of a finished plan are the units that are given, and its shortfalls those that are
missed. -/
theorem make_split (loads : List SubjectLoad) (slots : Nat) (days : List Nat)
    (teachers : Table TeacherId Availability) (budget : Nat) :
    ∃ given missed, (units loads).Perm (given ++ missed) ∧
      ((make loads slots days teachers budget).board.lessons.map Lesson.content).Perm
        (given.map SubjectLoad.content) ∧
      (make loads slots days teachers budget).board.shortfalls = missed.map .ofLoad := by
  let filled := ((Board.start slots days teachers).placeUnits (units loads)).1
  obtain ⟨given, missed, split, lessons, shortfalls⟩ :=
    (Board.start slots days teachers).placeUnits_split (units loads)
  have board : (make loads slots days teachers budget).board = (repairGaps budget filled).1 := rfl
  refine ⟨given, missed, split, ?_, ?_⟩
  · rw [board, repairGaps_contents]
    exact (List.append_nil (given.map SubjectLoad.content)) ▸ lessons
  · rw [board, (repairGaps_slid budget filled).shortfalls]
    exact shortfalls

end PlanRun

theorem countP_lessons_add {loads given missed : List SubjectLoad} {lessons : List Lesson}
    (split : (Board.units loads).Perm (given ++ missed))
    (same : (lessons.map Lesson.content).Perm (given.map SubjectLoad.content))
    (p : SubjectId × TeacherId × Option String → Bool) :
    lessons.countP (fun l => p l.content) + missed.countP (fun l => p l.content) =
      total ((loads.filter fun l => p l.content).map (·.weeklyCount)) := by
  have count := same.countP_eq p
  rw [List.countP_map, List.countP_map] at count
  rw [← Board.countP_units, split.countP_eq, List.countP_append]
  exact congrArg (· + _) count

/-- No unit is lost or invented: of each subject and teacher there are as many lessons and
shortfalls as the loads ask for, of each subject, teacher and room no more lessons than that, and
the numbers told beside the timetable are those of its lessons and shortfalls. -/
theorem plan_accounts_for_units (loads : List SubjectLoad) (slots : Nat) (days : List Nat)
    (teachers : Table TeacherId Availability) (budget : Nat) :
    let p := plan loads slots days teachers budget
    (∀ subject teacher,
      p.lessons.countP (fun l => l.subject = subject ∧ l.teacher = teacher) +
          p.shortfalls.countP (fun x => x.subject = subject ∧ x.teacher = teacher) =
        total ((loads.filter fun l => l.subject = subject ∧ l.teacher = teacher).map
          (·.weeklyCount))) ∧
    (∀ subject teacher room,
      p.lessons.countP (fun l => l.subject = subject ∧ l.teacher = teacher ∧ l.room = room) ≤
        total ((loads.filter fun l => l.subject = subject ∧ l.teacher = teacher ∧
          l.room = room).map (·.weeklyCount))) ∧
    (∀ l ∈ p.lessons, ∃ x ∈ loads,
      l.subject = x.subject ∧ l.teacher = x.teacher ∧ l.room = x.room) ∧
    p.stats.placedSlots = p.lessons.length ∧ p.stats.conflictPenalty = p.shortfalls.length ∧
    p.stats.requestedSlots = p.lessons.length + p.shortfalls.length := by
  intro p
  obtain ⟨given, missed, split, lessons, shortfalls⟩ :=
    PlanRun.make_split loads slots days teachers budget
  have missing : p.shortfalls = missed.map .ofLoad := shortfalls
  have placed : p.stats.placedSlots = p.lessons.length := (Board.length_lessons _).symm
  refine ⟨?_, ?_, ?_, placed, Board.conflictPenalty_eq _, ?_⟩
  · intro subject teacher
    rw [missing, List.countP_map]
    exact countP_lessons_add split lessons fun c => c.1 = subject ∧ c.2.1 = teacher
  · intro subject teacher room
    have count := countP_lessons_add split lessons fun c =>
      c.1 = subject ∧ c.2.1 = teacher ∧ c.2.2 = room
    exact Nat.le_of_add_right_le (Nat.le_of_eq count)
  · intro l member
    obtain ⟨x, listed, same⟩ :=
      List.mem_map.mp (lessons.mem_iff.mp (List.mem_map_of_mem (f := Lesson.content) member))
    have unit := split.symm.mem_iff.mp (List.mem_append_left missed listed)
    obtain ⟨subject, rest⟩ := Prod.mk.inj same
    obtain ⟨teacher, room⟩ := Prod.mk.inj rest
    exact ⟨x, Board.mem_of_mem_units unit, subject.symm, teacher.symm, room.symm⟩
  · have all := countP_lessons_add split lessons fun _ => true
    rw [List.countP_true, List.countP_true, List.filter_true] at all
    rw [missing, List.length_map]
    exact all.symm

end SchoolTimetable
