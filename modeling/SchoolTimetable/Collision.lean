import SchoolTimetable.Store.Reads

/-!
Collisions: what a lesson and a daily row that take place in one cell of one term have in common.
Rooms collide only when both are named.
-/
namespace SchoolTimetable

inductive CollisionDimension where
  | classGroup
  | teacher
  | room
  deriving DecidableEq, Repr

def CollisionDimension.name : CollisionDimension → String
  | classGroup => "CLASS"
  | teacher => "TEACHER"
  | room => "ROOM"

structure Collision where
  dimension : CollisionDimension
  cell : Cell
  subject : SubjectId
  teacher : TeacherId
  existing : DailyLesson
  deriving DecidableEq, Repr

namespace Collision

def sameRoom (a b : Option String) : Bool :=
  (effectiveRoom a).isSome && effectiveRoom a == effectiveRoom b

/-- What a lesson of a class by a teacher in a room shares with a row of its cell. -/
def dimensions (existing : DailyLesson) (classId : ClassId) (teacher : TeacherId)
    (room : Option String) : List CollisionDimension :=
  (if existing.classId = classId then [.classGroup] else []) ++
    (if existing.teacher = teacher then [.teacher] else []) ++
    (if sameRoom room existing.room then [.room] else [])

def ofRow (classId : ClassId) (l : Lesson) (row : DailyLesson) : List Collision :=
  (dimensions row classId l.teacher l.room).map fun d => ⟨d, l.cell, l.subject, l.teacher, row⟩

def checkOperation : String := "check_conflicts"

def ofLesson (s : Store) (term : TermId) (classId : ClassId) (l : Lesson) :
    Except StoreError (List Collision) := do
  let rows ← (s.findConflicts term l.cell).mapError (·.withOperation checkOperation)
  pure (rows.flatMap (ofRow classId l))

/-- Every collision of lessons with the daily rows of a term, by lesson, then by row. -/
def check (s : Store) (term : TermId) (classId : ClassId) (ls : List Lesson) :
    Except StoreError (List Collision) := do
  let found ← ls.mapM (ofLesson s term classId)
  pure found.flatten

end Collision

end SchoolTimetable
