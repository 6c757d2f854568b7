import SchoolTimetable.Proposal
import SchoolTimetable.ServiceError

/-!
What callers ask of the services, and the bodies of the answers.
-/
namespace SchoolTimetable

/-- Days are any numbers; those outside the week and repeated ones count for nothing. Constraints
are kept with the proposal and not looked into. -/
structure GenerateRequest where
  term : TermId
  classId : ClassId
  slotsPerDay : Int
  days : List Int
  loads : List SubjectLoad
  hardConstraints : Option Json := none
  softConstraints : Option Json := none
  deriving DecidableEq, Repr

structure GenerateResponse where
  proposal : String
  score : Nat
  lessons : List Lesson
  shortfalls : List Shortfall
  stats : PlanStats
  deriving DecidableEq, Repr

structure SaveRequest where
  proposal : String
  publish : Bool := false
  deriving DecidableEq, Repr

structure SemesterQuery where
  term : TermId
  classId : ClassId
  deriving DecidableEq, Repr

structure CreateDailyRequest where
  term : TermId
  classId : ClassId
  subject : SubjectId
  teacher : TeacherId
  day : Int
  slot : Int
  room : Option String := none
  deriving DecidableEq, Repr

structure ApiError where
  code : String
  httpStatus : Nat
  message : String
  details : Option Json := none
  deriving DecidableEq, Repr

end SchoolTimetable
