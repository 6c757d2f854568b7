import SchoolTimetable.Catalog
import SchoolTimetable.Cell
import SchoolTimetable.Text.Blank

/-!
Lessons and the weekly loads that ask for them.
-/
namespace SchoolTimetable

/-- So many lessons a week of one subject by one teacher. Harder loads are placed first; preferred
slots are tried first, in their order. -/
structure SubjectLoad where
  subject : SubjectId
  teacher : TeacherId
  weeklyCount : Nat
  difficulty : Int := 0
  preferredSlots : List Int := []
  room : Option String := none
  deriving DecidableEq, Repr

/-- The sum of some counts. -/
def total (counts : List Nat) : Nat := counts.foldr (· + ·) 0

structure Lesson where
  cell : Cell
  subject : SubjectId
  teacher : TeacherId
  room : Option String := none
  deriving DecidableEq, Repr

inductive ShortfallKind where
  | unfulfilledLoad
  deriving DecidableEq, Repr

def ShortfallKind.name : ShortfallKind → String
  | unfulfilledLoad => "UNFULFILLED_LOAD"

/-- A lesson that was asked for and is not in the timetable. -/
structure Shortfall where
  kind : ShortfallKind
  subject : SubjectId
  teacher : TeacherId
  message : String
  deriving DecidableEq, Repr

def Shortfall.ofLoad (l : SubjectLoad) : Shortfall where
  kind := .unfulfilledLoad
  subject := l.subject
  teacher := l.teacher
  message := s!"no available slot for subject {l.subject} with teacher {l.teacher}"

/-- The room without the blanks around it; a blank room is no room. -/
def effectiveRoom (room : Option String) : Option String :=
  (room.map Text.trim).filter (· ≠ "")

end SchoolTimetable
