import SchoolTimetable.Daily
import SchoolTimetable.Log
import SchoolTimetable.Window

/-!
The ledger of one teacher during planning: the cells the teacher cannot take, the cells that hold
a lesson already, and the loads counted against the caps. A cap of zero is no cap. The counts run
beside the set of reserved cells and follow each change of it.
-/
namespace SchoolTimetable

structure Availability where
  dailyCap : Nat := 0
  weeklyCap : Nat := 0
  blocked : CellSet := ∅
  reserved : CellSet := ∅
  perDay : Table Nat Nat := ∅
  weekly : Nat := 0
  deriving DecidableEq, Repr, Inhabited

namespace Availability

def unlimited : Availability := {}

def withCaps (daily weekly : Nat) : Availability := { dailyCap := daily, weeklyCap := weekly }

def block (a : Availability) (c : Cell) : Availability := { a with blocked := a.blocked.add c }

def isBlocked (a : Availability) (c : Cell) : Bool := a.blocked.has c
def isReserved (a : Availability) (c : Cell) : Bool := a.reserved.has c

def dayLoad (a : Availability) (day : Nat) : Nat := (a.perDay.get? day).getD 0

def underCap (cap load : Nat) : Bool := cap == 0 || load < cap

/-- The cell is free for the teacher, and one more lesson fits under both caps. -/
def canAssign (a : Availability) (c : Cell) : Bool :=
  !a.isBlocked c && !a.isReserved c && underCap a.dailyCap (a.dayLoad c.day) &&
    underCap a.weeklyCap a.weekly

/-- As `canAssign dest`, with the lesson at `src`, if there is one, already gone. -/
def canMove (a : Availability) (src dest : Cell) : Bool :=
  if src = dest then true
  else if a.isBlocked dest || a.isReserved dest then false
  else
    let vacated := if a.isReserved src then 1 else 0
    let load := if src.day = dest.day then a.dayLoad dest.day - vacated else a.dayLoad dest.day
    underCap a.dailyCap load && underCap a.weeklyCap (a.weekly - vacated)

/-- Reserves a cell, and tells whether it was not reserved before. -/
def reserve (a : Availability) (c : Cell) : Availability × Bool :=
  if a.isReserved c then (a, false)
  else
    ({ a with
      reserved := a.reserved.add c
      perDay := a.perDay.insert c.day (a.dayLoad c.day + 1)
      weekly := a.weekly + 1 }, true)

/-- Gives a cell back, and tells whether it was reserved. -/
def release (a : Availability) (c : Cell) : Availability × Bool :=
  if a.isReserved c then
    ({ a with
      reserved := a.reserved.erase c
      perDay := a.perDay.modify c.day (· - 1)
      weekly := a.weekly - 1 }, true)
  else (a, false)

theorem isBlocked_block {a : Availability} {c d : Cell} :
    (a.block c).isBlocked d = true ↔ d = c ∨ a.isBlocked d = true := CellSet.has_add

@[simp] theorem isReserved_block (a : Availability) (c d : Cell) :
    (a.block c).isReserved d = a.isReserved d := rfl

theorem reserve_snd (a : Availability) (c : Cell) : (a.reserve c).2 = !a.isReserved c := by
  unfold reserve
  split
  · rename_i h; simp [h]
  · rename_i h; simpa using h

theorem isReserved_reserve {a : Availability} {c d : Cell} :
    (a.reserve c).1.isReserved d = true ↔ d = c ∨ a.isReserved d = true := by
  unfold reserve
  split
  · rename_i h
    constructor
    · exact Or.inr
    · rintro (rfl | hd)
      · exact h
      · exact hd
  · exact CellSet.has_add

theorem release_snd (a : Availability) (c : Cell) : (a.release c).2 = a.isReserved c := by
  unfold release
  split
  · rename_i h; exact h.symm
  · rename_i h; simpa using h

theorem isReserved_release {a : Availability} {c d : Cell} :
    (a.release c).1.isReserved d = true ↔ d ≠ c ∧ a.isReserved d = true := by
  unfold release
  split
  · exact CellSet.has_erase
  · rename_i h
    constructor
    · intro hd
      exact ⟨fun e => h (e ▸ hd), hd⟩
    · exact And.right

def weeklyOverage (a : Availability) : Nat :=
  if a.weeklyCap = 0 then 0 else a.weekly - a.weeklyCap

def dailyOverage (a : Availability) : Nat :=
  if a.dailyCap = 0 then 0 else total (a.perDay.values.map (· - a.dailyCap))

def blockWindow (slots : Nat) (a : Availability) (raw : String) : Availability :=
  match Window.parse raw slots with
  | .ok cells => cells.foldl block a
  | .error _ => a

/-- The ledger before planning: the caps and windows a teacher asks for, and a blocked cell for
each lesson the teacher gives already. Malformed windows block nothing. -/
def ofPreference (preference : Option TeacherPreference) (slots : Nat)
    (existing : List DailyLesson) : Availability :=
  let own := match preference with
    | none => unlimited
    | some p => p.windows.foldl (blockWindow slots) (withCaps p.dailyCap p.weeklyCap)
  existing.foldl (fun a r => a.block r.cell) own

end Availability

/-- A warning for each malformed window. -/
def TeacherPreference.warnings (p : TeacherPreference) (slots : Nat) : List LogRecord :=
  p.windows.filterMap fun raw =>
    match Window.parse raw slots with
    | .ok _ => none
    | .error e => some
      ⟨.warn, s!"Skipping unavailable window '{raw}' of teacher {p.teacher}: {e.message}"⟩

end SchoolTimetable
