import SchoolTimetable.Availability

/-!
The board on which the timetable of one class is put together: its days and slots, the lessons
pinned so far, the ledger of every teacher, and the lessons that found no cell.
-/
namespace SchoolTimetable

structure Board where
  slotsPerDay : Nat
  days : List Nat
  grid : Table Cell Lesson := ∅
  dayLoads : Table Nat Nat := ∅
  teachers : Table TeacherId Availability
  shortfalls : List Shortfall := []
  deriving DecidableEq, Repr

namespace Board

/-- An empty board; its days are ascending and each once. -/
def start (slotsPerDay : Nat) (days : List Nat) (teachers : Table TeacherId Availability) : Board :=
  { slotsPerDay, days := sortDistinct days, teachers }

def dayLoad (b : Board) (day : Nat) : Nat := (b.dayLoads.get? day).getD 0

def lessonAt? (b : Board) (c : Cell) : Option Lesson := b.grid.get? c

/-- The lessons by day, then by slot. -/
def lessons (b : Board) : List Lesson := b.grid.values

/-- The occupied slots of a day, ascending. -/
def slotsOn (b : Board) (day : Nat) : List Nat :=
  (b.grid.keys.filter (·.day = day)).map (·.slot)

theorem mem_slotsOn_iff {b : Board} {day slot : Nat} :
    slot ∈ b.slotsOn day ↔ (b.lessonAt? ⟨day, slot⟩).isSome := by
  simp only [slotsOn, lessonAt?, List.mem_map, List.mem_filter, decide_eq_true_eq,
    Table.mem_keys_iff, Option.isSome_iff_exists]
  constructor
  · rintro ⟨c, ⟨h, rfl⟩, rfl⟩; exact h
  · intro h; exact ⟨⟨day, slot⟩, ⟨h, rfl⟩, rfl⟩

def inGrid (b : Board) (c : Cell) : Prop := c.day ∈ b.days ∧ 1 ≤ c.slot ∧ c.slot ≤ b.slotsPerDay

end Board

end SchoolTimetable
