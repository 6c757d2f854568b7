import SchoolTimetable.Wire.Record

/-!
The written form of errors. A conflict detail carries the tag `source`, which says what it is.
-/
namespace SchoolTimetable.Wire
open Codec RecordField Row

/-- Inside a conflict detail an empty object counts as nothing too. -/
def isNothing : Json → Bool
  | .null | .obj [] => true
  | _ => false

/-- The parts of a conflict detail about a status. -/
def statusParts : Codec (Int × ScheduleStatus) :=
  record ((required "schedule_id" rowId).and <| (required "status" (statusWith isNothing)).and done)
    (fun (i, s, _) => (i, s)) (fun x => (x.1, x.2, ()))

def detailTag : ConflictDetail → String
  | .shortfall _ => "UNFULFILLED_LOAD"
  | .collision _ => "SCHEDULE"
  | .status _ _ => "STATUS"

def detailBody : ConflictDetail → Json
  | .shortfall s => (shortfallWith isNothing).encode s
  | .collision c => (collisionWith isNothing).encode c
  | .status i s => statusParts.encode (i, s)

def tagged (tag : String) : Json → Json
  | .obj fields => .obj (("source", .str tag) :: fields)
  | j => j

def untag (tag : String) (body : Json) : Option ConflictDetail :=
  if tag = "UNFULFILLED_LOAD" then ((shortfallWith isNothing).decode body).map .shortfall
  else if tag = "SCHEDULE" then ((collisionWith isNothing).decode body).map .collision
  else if tag = "STATUS" then (statusParts.decode body).map fun x => .status x.1 x.2
  else none

/-- The tag is a field of an object or the first item of an array. -/
def detail : Codec ConflictDetail where
  encode d := tagged (detailTag d) (detailBody d)
  decode
    | .obj fields =>
      match Json.field? fields "source" with
      | some (.str tag) => untag tag (.obj fields)
      | _ => none
    | .arr (.str tag :: rest) => untag tag (.arr rest)
    | _ => none

end SchoolTimetable.Wire

namespace SchoolTimetable

/-- The body that a caller gets. Details are given for conflicts that have some. -/
def ServiceError.toApiError (e : ServiceError) : ApiError where
  code := e.code
  httpStatus := e.httpStatus
  message := e.publicMessage
  details := if e.details = [] then none else some ((Codec.list Wire.detail).encode e.details)

namespace Wire

def orNull (s : Option String) : Json := s.elim .null .str

def storeError (e : StoreError) : Json :=
  .obj
    [("error", .str e.kind.name), ("message", .str e.text),
      ("retryable", .bool e.context.retryable),
      ("context", .obj
        [("operation", orNull e.context.operation), ("entity", orNull e.context.entity),
          ("entity_id", orNull e.context.entityId), ("details", orNull e.context.details),
          ("retryable", .bool e.context.retryable)])]

def serviceError (e : ServiceError) : Json :=
  .obj <|
    [("error", .str e.code), ("message", .str e.text), ("http_status", .nat e.httpStatus),
      ("details", (Codec.list detail).encode e.details),
      ("api", apiError.encode e.toApiError)] ++
    match e with
    | .internal cause => [("cause", storeError cause)]
    | _ => []

end Wire

end SchoolTimetable
