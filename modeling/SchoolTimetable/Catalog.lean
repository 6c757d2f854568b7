/-!
What the school around the timetable owns: terms, classes, subjects, who teaches what to whom, and
what teachers ask for.
-/
namespace SchoolTimetable

abbrev TermId := String
abbrev ClassId := String
abbrev SubjectId := String
abbrev TeacherId := String

structure Term where
  id : TermId
  name : String
  deriving DecidableEq, Repr

structure ClassGroup where
  id : ClassId
  name : String
  deriving DecidableEq, Repr

structure Subject where
  id : SubjectId
  name : String
  deriving DecidableEq, Repr

/-- A teacher teaches a subject to a class during a term. -/
structure Assignment where
  teacher : TeacherId
  classId : ClassId
  term : TermId
  subject : SubjectId
  deriving DecidableEq, Repr

/-- A cap of zero is no cap. Windows are window expressions, which may be malformed. -/
structure TeacherPreference where
  teacher : TeacherId
  dailyCap : Nat := 0
  weeklyCap : Nat := 0
  windows : List String := []
  deriving DecidableEq, Repr

end SchoolTimetable
