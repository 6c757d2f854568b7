import SchoolTimetable.Board

/-!
Gap repair. A gap is an empty slot between two lessons of a day. The lesson right after the first
gap of a day moves one slot earlier if its teacher can take the cell; a day whose first gap cannot
be closed so is passed over.
-/
namespace SchoolTimetable

/-- The slot right after the first gap of an ascending list. -/
def slotAfterGap? : List Nat → Option Nat
  | a :: b :: r => if 1 < b - a then some b else slotAfterGap? (b :: r)
  | _ => none

namespace Board

def gapMoveOn? (b : Board) (day : Nat) : Option (Cell × Cell) := do
  let after ← slotAfterGap? (b.slotsOn day)
  let src : Cell := ⟨day, after⟩
  let dest : Cell := ⟨day, after - 1⟩
  let lesson ← b.grid.get? src
  let teacher ← b.teachers.get? lesson.teacher
  if teacher.canMove src dest then some (src, dest) else none

/-- The move on the first day that has one. -/
def gapMove? (b : Board) : Option (Cell × Cell) := b.days.findSome? b.gapMoveOn?

def move (b : Board) (src dest : Cell) : Board :=
  match b.grid.get? src with
  | none => b
  | some lesson =>
    { b with
      grid := (b.grid.erase src).insert dest { lesson with cell := dest }
      teachers := b.teachers.modify lesson.teacher fun a => ((a.release src).1.reserve dest).1 }

/-- Makes at most `budget` moves, and counts them. -/
def repairGaps : Nat → Board → Board × Nat
  | 0, b => (b, 0)
  | budget + 1, b =>
    match b.gapMove? with
    | none => (b, 0)
    | some (src, dest) =>
      let (b, n) := repairGaps budget (b.move src dest)
      (b, n + 1)

def repairNotes (moves : Nat) : List LogRecord :=
  if moves = 0 then [] else [⟨.debug, s!"Gap repair made {moves} move(s)"⟩]

end Board

end SchoolTimetable
