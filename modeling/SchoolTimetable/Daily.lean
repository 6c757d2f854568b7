import SchoolTimetable.Lesson

/-!
The daily table: the lessons that really take place.
-/
namespace SchoolTimetable

structure NewDailyLesson where
  term : TermId
  classId : ClassId
  subject : SubjectId
  teacher : TeacherId
  cell : Cell
  room : Option String := none
  deriving DecidableEq, Repr

structure DailyLesson where
  id : Int
  term : TermId
  classId : ClassId
  subject : SubjectId
  teacher : TeacherId
  cell : Cell
  room : Option String := none
  deriving DecidableEq, Repr

def NewDailyLesson.withId (r : NewDailyLesson) (id : Int) : DailyLesson :=
  ⟨id, r.term, r.classId, r.subject, r.teacher, r.cell, r.room⟩

def NewDailyLesson.ofLesson (term : TermId) (classId : ClassId) (l : Lesson) : NewDailyLesson :=
  ⟨term, classId, l.subject, l.teacher, l.cell, l.room⟩

end SchoolTimetable
