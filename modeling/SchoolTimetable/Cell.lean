import SchoolTimetable.Table

/-!
Cells of the weekly grid. Cells go by day, then by time slot.
-/
namespace SchoolTimetable

structure Cell where
  day : Nat
  slot : Nat
  deriving DecidableEq, Repr, Inhabited

namespace Cell

instance : Key Cell where
  before a b := Key.before (a.day, a.slot) (b.day, b.slot)
  irrefl _ := Key.irrefl _
  trans := Key.trans
  connected := by
    intro a b hab hba
    have := Key.connected hab hba
    cases a; cases b; simpa using this

theorem before_iff {a b : Cell} :
    Key.before a b = true ↔ a.day < b.day ∨ (a.day = b.day ∧ a.slot < b.slot) := by
  simp [Key.before, Key.same]
  omega

def text (c : Cell) : String := s!"{c.day}:{c.slot}"

end Cell

/-- A set of cells, listed in order. -/
abbrev CellSet := Table Cell Unit

namespace CellSet

def add (s : CellSet) (c : Cell) : CellSet := s.insert c ()
def has (s : CellSet) (c : Cell) : Bool := s.contains c
def toList (s : CellSet) : List Cell := s.keys

theorem has_iff {s : CellSet} {c : Cell} : s.has c = true ↔ c ∈ s.toList := by
  simp [has, toList, Table.contains, Table.mem_keys_iff, Option.isSome_iff_exists]

theorem has_add {s : CellSet} {c d : Cell} : (s.add c).has d = true ↔ d = c ∨ s.has d = true := by
  by_cases h : d = c
  · subst h; simp [has, add, Table.contains]
  · simp [has, add, Table.contains, Table.get?_insert_of_ne s () h, h]

theorem has_erase {s : CellSet} {c d : Cell} :
    (Table.erase s c).contains d = true ↔ d ≠ c ∧ s.has d = true := by
  by_cases h : d = c
  · subst h; simp [Table.contains]
  · simp [has, Table.contains, Table.get?_erase_of_ne s h, h]

end CellSet

end SchoolTimetable
