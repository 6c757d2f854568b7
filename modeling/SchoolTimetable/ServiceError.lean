import SchoolTimetable.Collision

/-!
How a service operation fails, as its caller is told.
-/
namespace SchoolTimetable

inductive ConflictDetail where
  | shortfall (s : Shortfall)
  | collision (c : Collision)
  | status (schedule : Int) (status : ScheduleStatus)
  deriving DecidableEq, Repr

/-- Store errors are always `internal`; the other kinds come from the services themselves. -/
inductive ServiceError where
  | validation (message : String)
  | notFound (message : String)
  | precondition (message : String)
  | conflict (message : String) (details : List ConflictDetail)
  | internal (cause : StoreError)
  deriving DecidableEq, Repr

namespace ServiceError

def code : ServiceError → String
  | validation _ => "VALIDATION_ERROR"
  | notFound _ => "NOT_FOUND"
  | precondition _ => "PRECONDITION_FAILED"
  | conflict _ _ => "CONFLICT"
  | internal _ => "INTERNAL_ERROR"

def httpStatus : ServiceError → Nat
  | validation _ => 400
  | notFound _ => 404
  | precondition _ => 412
  | conflict _ _ => 409
  | internal _ => 500

def text : ServiceError → String
  | validation m => s!"validation failed: {m}"
  | notFound m => s!"not found: {m}"
  | precondition m => s!"precondition failed: {m}"
  | conflict m _ => s!"conflict: {m}"
  | internal e => s!"internal error: {e.text}"

def details : ServiceError → List ConflictDetail
  | conflict _ ds => ds
  | _ => []

/-- What a caller may read. The cause of an internal error is not for callers. -/
def publicMessage : ServiceError → String
  | validation m | notFound m | precondition m | conflict m _ => m
  | internal _ => "internal server error"

end ServiceError

end SchoolTimetable
