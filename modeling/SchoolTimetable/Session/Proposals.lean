import SchoolTimetable.Collision
import SchoolTimetable.Session
import SchoolTimetable.Timestamp.Text
import SchoolTimetable.Wire.Record

/-!
What becomes of a cached proposal: it is looked at, discarded, or kept as a new version of the
semester schedule of its class and, if wanted, published to the daily table. Keeping it is one
transaction, and the proposal leaves the cache only when that has committed.
-/
namespace SchoolTimetable

namespace Proposal

/-- The loads of each subject, as they were asked for. -/
def loadsBySubject (p : Proposal) : Table SubjectId (List SubjectLoad) :=
  p.loads.foldl (fun t l => t.insert l.subject ((t.get? l.subject).getD [] ++ [l])) ∅

def loadEntry (l : SubjectLoad) : Json :=
  .obj [("teacher_id", .str l.teacher), ("weekly_count", .nat l.weeklyCount),
    ("difficulty", .int l.difficulty)]

/-- What a semester schedule remembers of the proposal it was made from. -/
def keptMetadata (p : Proposal) : Json :=
  .obj
    [("proposal_id", .str p.id), ("score", .nat p.score), ("stats", Wire.stats.encode p.stats),
      ("generated_at", .str p.requestedAt.offsetText), ("days", .arr (p.days.map .nat)),
      ("time_slots_per_day", .nat p.slotsPerDay),
      ("subjects", .obj (p.loadsBySubject.mapValues fun _ ls => .arr (ls.map loadEntry)).entries),
      ("constraints", p.metadata)]

def toSchedule (p : Proposal) : NewSemesterSchedule := ⟨p.term, p.classId, .draft, p.keptMetadata⟩

end Proposal

namespace Service

def noProposal (id : String) : ServiceError := .notFound s!"proposal {id}"

def getProposal (id : String) (now : Timestamp) : Service Proposal := do
  let (cache, found) := (← get).proposals.get id now
  note ((← get).proposals.getNotes id now)
  modify fun s => { s with proposals := cache }
  match found with
  | some p => pure p
  | none => throw (noProposal id)

def discardProposal (id : String) : Service Unit := do
  let (cache, removed) := (← get).proposals.delete id
  modify fun s => { s with proposals := cache }
  if removed then debug s!"Discarded proposal {id}" else throw (noProposal id)

/-- Publishing is refused if any lesson collides with the daily table. -/
def publish (tx : Nat) (p : Proposal) (schedule : SemesterSchedule) :
    Service SemesterSchedule := do
  let collisions ← reading (Collision.check (← get).feed p.term p.classId p.lessons)
  if collisions ≠ [] then
    throw (.conflict
      s!"{collisions.length} collision(s) with the daily schedule of term {p.term}"
      (collisions.map .collision))
  let _ ← onFeed (Store.bulkInsert tx (p.lessons.map (.ofLesson p.term p.classId)))
  onMain (Store.updateStatus tx schedule.id .published)
  pure { schedule with status := .published }

def persist (now : Timestamp) (p : Proposal) (wanted : Bool) (tx : Nat) :
    Service SemesterSchedule := do
  let schedule ← onMain (Store.createVersioned now tx p.toSchedule)
  -- the slots are all of one schedule, so there is one order of owners only
  let _ ← onMain (Store.bulkUpsert tx (p.lessons.map (.ofLesson schedule.id)))
  if wanted then publish tx p schedule else pure schedule

/-- Keeps a proposal, and tells the id of the new schedule. -/
def save (now : Timestamp) (r : SaveRequest) : Service String := do
  if Text.blank r.proposal then throw (.validation "proposal_id is required")
  let p ← getProposal r.proposal now
  if ¬ p.isSavable then
    throw (.conflict s!"proposal {p.id} has {p.shortfalls.length} unresolved conflict(s)"
      (p.shortfalls.map .shortfall))
  let schedule ← inTransaction (persist now p r.publish)
  modify fun s => { s with proposals := (s.proposals.delete p.id).1 }
  info s!"Saved proposal {p.id} as semester schedule {schedule.id} (version {schedule.version}, {schedule.status.name})"
  pure (toString schedule.id)

end Service

end SchoolTimetable
