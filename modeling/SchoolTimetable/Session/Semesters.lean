import SchoolTimetable.Session

/-!
Listing and deleting semester schedules. Only drafts are deleted, together with their slots.
-/
namespace SchoolTimetable.Service

def listSemesters (q : SemesterQuery) : Service (List SemesterSchedule) := do
  if Text.blank q.term || Text.blank q.classId then
    throw (.validation "term_id and class_id are required")
  reading ((← get).main.listSemesters q.term q.classId)

def findSemester (id : Int) : Service SemesterSchedule := do
  match ← reading ((← get).main.findSemester id) with
  | some x => pure x
  | none => throw (.notFound s!"semester schedule {id}")

def getSlots (id : Int) : Service (List SemesterSlot) := do
  let _ ← findSemester id
  reading ((← get).main.listSlots id)

/-- Tells how many slots went with the schedule. -/
def removeSemester (id : Int) (tx : Nat) : Service Nat := do
  let n ← onMain (Store.deleteSlots tx id)
  onMain (Store.delete tx id)
  pure n

def deleteSemester (id : Int) : Service Unit := do
  let x ← findSemester id
  if x.status ≠ .draft then
    throw (.conflict s!"semester schedule {id} is {x.status.name} and cannot be deleted"
      [.status id x.status])
  let n ← inTransaction (removeSemester id)
  info s!"Deleted semester schedule {id} ({n} slot(s))"

end SchoolTimetable.Service
