import SchoolTimetable.Json
import SchoolTimetable.Lesson
import SchoolTimetable.Timestamp

/-!
Semester schedules: the versions of a class timetable that are kept for a term.
-/
namespace SchoolTimetable

inductive ScheduleStatus where
  | draft
  | published
  deriving DecidableEq, Repr

def ScheduleStatus.name : ScheduleStatus → String
  | draft => "DRAFT"
  | published => "PUBLISHED"

structure NewSemesterSchedule where
  term : TermId
  classId : ClassId
  status : ScheduleStatus
  metadata : Json
  deriving DecidableEq, Repr

structure SemesterSchedule where
  id : Int
  term : TermId
  classId : ClassId
  status : ScheduleStatus
  version : Nat
  metadata : Json
  createdAt : Timestamp
  deriving DecidableEq, Repr

structure SemesterSlot where
  schedule : Int
  cell : Cell
  subject : SubjectId
  teacher : TeacherId
  room : Option String := none
  deriving DecidableEq, Repr

def SemesterSlot.ofLesson (schedule : Int) (l : Lesson) : SemesterSlot :=
  ⟨schedule, l.cell, l.subject, l.teacher, l.room⟩

end SchoolTimetable
