import SchoolTimetable.Plan
import SchoolTimetable.Semester
import SchoolTimetable.Timestamp

/-!
Proposals: planned timetables that are not kept yet, and the cache that holds them for a while.
-/
namespace SchoolTimetable

structure Proposal where
  id : String
  term : TermId
  classId : ClassId
  score : Nat
  lessons : List Lesson
  shortfalls : List Shortfall
  stats : PlanStats
  slotsPerDay : Nat
  days : List Nat
  loads : List SubjectLoad
  requestedAt : Timestamp
  metadata : Json := .null
  deriving DecidableEq, Repr

namespace Proposal

def isSavable (p : Proposal) : Bool := p.shortfalls.isEmpty

/-- Expired is what is older than `ttl` nanoseconds. -/
def isExpired (p : Proposal) (now : Timestamp) (ttl : Int) : Bool := now.since p.requestedAt > ttl

end Proposal

/-- Proposals under their ids. An expired one goes when a look-up meets it. -/
structure ProposalCache where
  ttl : Int
  entries : Table String Proposal := ∅
  deriving DecidableEq, Repr

namespace ProposalCache

def save (c : ProposalCache) (p : Proposal) : ProposalCache :=
  { c with entries := c.entries.insert p.id p }

def delete (c : ProposalCache) (id : String) : ProposalCache × Bool :=
  ({ c with entries := c.entries.erase id }, c.entries.contains id)

/-- The cache after a look-up, and what the look-up found. -/
def get (c : ProposalCache) (id : String) (now : Timestamp) : ProposalCache × Option Proposal :=
  match c.entries.get? id with
  | none => (c, none)
  | some p => if p.isExpired now c.ttl then ((c.delete id).1, none) else (c, some p)

def getNotes (c : ProposalCache) (id : String) (now : Timestamp) : List LogRecord :=
  match c.entries.get? id with
  | none => []
  | some p => if p.isExpired now c.ttl then [⟨.debug, s!"Evicted expired proposal {id}"⟩] else []

/-- Expired entries count. -/
def size (c : ProposalCache) : Nat := c.entries.size

end ProposalCache

end SchoolTimetable
