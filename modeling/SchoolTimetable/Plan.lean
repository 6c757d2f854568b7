import SchoolTimetable.Board.GapRepair
import SchoolTimetable.Board.Placement
import SchoolTimetable.Board.Score

/-!
Planning the timetable of one class: placement, gap repair, score.
-/
namespace SchoolTimetable

structure PlanStats where
  iterations : Nat
  gapPenalty : Nat
  loadPenalty : Nat
  conflictPenalty : Nat
  placedSlots : Nat
  requestedSlots : Nat
  deriving DecidableEq, Repr

structure Plan where
  lessons : List Lesson
  shortfalls : List Shortfall
  stats : PlanStats
  score : Nat
  deriving DecidableEq, Repr

/-- A finished board, and how it came about. -/
structure PlanRun where
  board : Board
  placed : List (SubjectLoad × Option Cell)
  moves : Nat
  deriving DecidableEq, Repr

namespace PlanRun

def make (loads : List SubjectLoad) (slotsPerDay : Nat) (days : List Nat)
    (teachers : Table TeacherId Availability) (budget : Nat) : PlanRun :=
  let (filled, placed) := (Board.start slotsPerDay days teachers).placeLoads loads
  let (board, moves) := Board.repairGaps budget filled
  ⟨board, placed, moves⟩

def notes (r : PlanRun) : List LogRecord :=
  r.placed.map Board.placementNote ++ Board.repairNotes r.moves

def outcome (r : PlanRun) (loads : List SubjectLoad) : Plan :=
  let score := r.board.evaluate
  { lessons := r.board.lessons
    shortfalls := r.board.shortfalls
    stats :=
      { iterations := r.moves
        gapPenalty := score.gapPenalty
        loadPenalty := score.loadPenalty
        conflictPenalty := score.conflictPenalty
        placedSlots := r.board.grid.size
        requestedSlots := total (loads.map (·.weeklyCount)) }
    score := score.score }

end PlanRun

def plan (loads : List SubjectLoad) (slotsPerDay : Nat) (days : List Nat)
    (teachers : Table TeacherId Availability) (budget : Nat) : Plan :=
  (PlanRun.make loads slotsPerDay days teachers budget).outcome loads

end SchoolTimetable
