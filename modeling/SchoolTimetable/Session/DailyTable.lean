import SchoolTimetable.Collision
import SchoolTimetable.Session.Generate

/-!
Single lessons of the daily table.
-/
namespace SchoolTimetable

namespace CreateDailyRequest

def check (r : CreateDailyRequest) (maxSlots : Nat) : Except ServiceError Unit :=
  if Text.blank r.term || Text.blank r.classId || Text.blank r.subject || Text.blank r.teacher then
    .error (.validation "term_id, class_id, subject_id and teacher_id are required")
  else if r.day < Weekday.first ∨ (Weekday.last : Int) < r.day then
    .error (.validation
      s!"day_of_week must be between {Weekday.first} and {Weekday.last}, got {r.day}")
  else if r.slot < 1 ∨ (maxSlots : Int) < r.slot then
    .error (.validation s!"time_slot must be between 1 and {maxSlots}, got {r.slot}")
  else .ok ()

def checkReferences (r : CreateDailyRequest) (main : Store) : Except ServiceError Unit := do
  ServiceError.required (main.findTerm r.term) "term" r.term
  ServiceError.required (main.findClass r.classId) "class" r.classId
  ServiceError.required (main.findSubject r.subject) "subject" r.subject

def toLesson (r : CreateDailyRequest) : Lesson :=
  ⟨⟨r.day.toNat, r.slot.toNat⟩, r.subject, r.teacher, effectiveRoom r.room⟩

end CreateDailyRequest

namespace Service

/-- Adds a lesson to the daily table unless it collides with one that is there. -/
def createDaily (r : CreateDailyRequest) : Service DailyLesson := do
  let s ← get
  (r.check s.settings.maxSlotsPerDay : Except ServiceError Unit)
  (r.checkReferences s.main : Except ServiceError Unit)
  let l := r.toLesson
  let collisions ← reading (Collision.check s.feed r.term r.classId [l])
  if collisions ≠ [] then
    throw (.conflict s!"{l.cell.text} is already taken ({collisions.length} collision(s))"
      (collisions.map .collision))
  let row ← onFeed (Store.insert (.ofLesson r.term r.classId l))
  info s!"Created daily schedule {row.id} for class {row.classId} on {Weekday.name row.cell.day} slot {row.cell.slot}"
  pure row

def listForClass (classId : ClassId) (term : TermId) : Service (List DailyLesson) := do
  reading ((← get).feed.listDailyOfClass classId term)

def listForTeacher (t : TeacherId) (term : Option TermId) : Service (List DailyLesson) := do
  reading ((← get).feed.listDailyOfTeacher t term)

end Service

end SchoolTimetable
