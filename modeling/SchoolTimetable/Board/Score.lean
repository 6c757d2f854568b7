import SchoolTimetable.Board

/-!
The quality of a board, from 0 to 100: what is lost to idle and unused slots, to lessons above
the caps of teachers, and to shortfalls.
-/
namespace SchoolTimetable

structure Score where
  gapPenalty : Nat
  loadPenalty : Nat
  conflictPenalty : Nat
  score : Nat
  deriving DecidableEq, Repr

namespace Score

def maxScore : Nat := 100
def conflictWeight : Nat := 100
def gapWeight : Nat := 2
def loadWeight : Nat := 5

def compute (gap load conflict : Nat) : Nat :=
  maxScore - (conflict * conflictWeight + gap * gapWeight + load * loadWeight)

theorem compute_le (gap load conflict : Nat) : compute gap load conflict ≤ maxScore :=
  Nat.sub_le _ _

theorem compute_eq_maxScore_iff {gap load conflict : Nat} :
    compute gap load conflict = maxScore ↔ gap = 0 ∧ load = 0 ∧ conflict = 0 := by
  simp only [compute, maxScore, conflictWeight, gapWeight, loadWeight]
  omega

/-- Idle slots between the lessons of an ascending list of slots. -/
def idle : List Nat → Nat
  | a :: b :: r => (b - a - 1) + idle (b :: r)
  | _ => 0

end Score

namespace Board

/-- Idle slots between lessons, and unused slots, over all days. -/
def gapPenalty (b : Board) : Nat :=
  total (b.days.map fun d => Score.idle (b.slotsOn d) + (b.slotsPerDay - (b.slotsOn d).length))

def loadPenalty (teachers : Table TeacherId Availability) : Nat :=
  total (teachers.values.map fun a => a.weeklyOverage + a.dailyOverage)

def conflictPenalty (shortfalls : List Shortfall) : Nat :=
  (shortfalls.filter (·.kind = .unfulfilledLoad)).length

def evaluate (b : Board) : Score :=
  let gap := b.gapPenalty
  let load := loadPenalty b.teachers
  let conflict := conflictPenalty b.shortfalls
  ⟨gap, load, conflict, Score.compute gap load conflict⟩

end Board

end SchoolTimetable
