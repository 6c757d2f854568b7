import SchoolTimetable.Json.Codec
import SchoolTimetable.Request
import SchoolTimetable.Settings
import SchoolTimetable.Timestamp.Text

/-!
The written form of every record. Days, slots and the like are words of 8 bits, counts words of 32
bits, and row ids signed words of 64 bits.
-/
namespace SchoolTimetable.Wire
open Codec RecordField Row

def byte : Codec Nat := natural 8
def count : Codec Nat := natural 32
def int32 : Codec Int := signed 32
def rowId : Codec Int := signed 64

def cell : Codec Cell :=
  record ((required "day" byte).and <| (required "slot" byte).and done)
    (fun (d, s, _) => ⟨d, s⟩) (fun c => (c.day, c.slot, ()))

def term : Codec Term :=
  record ((required "id" text).and <| (required "name" text).and done)
    (fun (i, n, _) => ⟨i, n⟩) (fun x => (x.id, x.name, ()))

def classGroup : Codec ClassGroup :=
  record ((required "id" text).and <| (required "name" text).and done)
    (fun (i, n, _) => ⟨i, n⟩) (fun x => (x.id, x.name, ()))

def subject : Codec Subject :=
  record ((required "id" text).and <| (required "name" text).and done)
    (fun (i, n, _) => ⟨i, n⟩) (fun x => (x.id, x.name, ()))

def assignment : Codec Assignment :=
  record
    ((required "teacher_id" text).and <| (required "class_id" text).and <|
      (required "term_id" text).and <| (required "subject_id" text).and done)
    (fun (t, c, m, s, _) => ⟨t, c, m, s⟩) (fun x => (x.teacher, x.classId, x.term, x.subject, ()))

def preference : Codec TeacherPreference :=
  record
    ((required "teacher_id" text).and <| (withDefault "max_load_per_day" count 0).and <|
      (withDefault "max_load_per_week" count 0).and <|
      (withDefault "unavailable_windows" (list text) []).and done)
    (fun (t, d, w, u, _) => ⟨t, d, w, u⟩)
    (fun x => (x.teacher, x.dailyCap, x.weeklyCap, x.windows, ()))

def load : Codec SubjectLoad :=
  record
    ((required "subject_id" text).and <| (required "teacher_id" text).and <|
      (required "weekly_count" count).and <| (withDefault "difficulty" int32 0).and <|
      (withDefault "preferred_slots" (list int32) []).and <| (optional "room" text).and done)
    (fun (s, t, n, d, p, r, _) => ⟨s, t, n, d, p, r⟩)
    (fun x => (x.subject, x.teacher, x.weeklyCount, x.difficulty, x.preferredSlots, x.room, ()))

def lesson : Codec Lesson :=
  record
    ((required "day_of_week" byte).and <| (required "time_slot" byte).and <|
      (required "subject_id" text).and <| (required "teacher_id" text).and <|
      (optional "room" text).and done)
    (fun (d, s, j, t, r, _) => ⟨⟨d, s⟩, j, t, r⟩)
    (fun x => (x.cell.day, x.cell.slot, x.subject, x.teacher, x.room, ()))

def shortfallWith (isNothing : Json → Bool) : Codec Shortfall :=
  record
    ((required "type" (enumeration isNothing [.unfulfilledLoad] ShortfallKind.name)).and <|
      (required "subject_id" text).and <| (required "teacher_id" text).and <|
      (required "message" text).and done)
    (fun (k, s, t, m, _) => ⟨k, s, t, m⟩) (fun x => (x.kind, x.subject, x.teacher, x.message, ()))

def shortfall : Codec Shortfall := shortfallWith Json.isNull

def stats : Codec PlanStats :=
  record
    ((required "iterations" count).and <| (required "gap_penalty" count).and <|
      (required "load_penalty" count).and <| (required "conflict_penalty" count).and <|
      (required "placed_slots" count).and <| (required "requested_slots" count).and done)
    (fun (i, g, l, c, p, r, _) => ⟨i, g, l, c, p, r⟩)
    (fun x => (x.iterations, x.gapPenalty, x.loadPenalty, x.conflictPenalty, x.placedSlots,
      x.requestedSlots, ()))

def proposal : Codec Proposal :=
  record
    ((required "proposal_id" text).and <| (required "term_id" text).and <|
      (required "class_id" text).and <| (required "score" count).and <|
      (required "slots" (list lesson)).and <| (required "conflicts" (list shortfall)).and <|
      (required "stats" stats).and <| (required "time_slots_per_day" byte).and <|
      (required "days" (list byte)).and <| (required "subject_loads" (list load)).and <|
      (required "requested_at" Timestamp.codec).and <| (withDefault "meta" raw .null).and done)
    (fun (i, t, c, n, l, f, s, d, w, u, a, m, _) => ⟨i, t, c, n, l, f, s, d, w, u, a, m⟩)
    (fun x => (x.id, x.term, x.classId, x.score, x.lessons, x.shortfalls, x.stats, x.slotsPerDay,
      x.days, x.loads, x.requestedAt, x.metadata, ()))

def newDaily : Codec NewDailyLesson :=
  record
    ((required "term_id" text).and <| (required "class_id" text).and <|
      (required "subject_id" text).and <| (required "teacher_id" text).and <|
      (required "day_of_week" byte).and <| (required "time_slot" byte).and <|
      (RecordField.nullable "room" text).and done)
    (fun (m, c, j, t, d, s, r, _) => ⟨m, c, j, t, ⟨d, s⟩, r⟩)
    (fun x => (x.term, x.classId, x.subject, x.teacher, x.cell.day, x.cell.slot, x.room, ()))

def daily : Codec DailyLesson :=
  record
    ((required "id" rowId).and <| (required "term_id" text).and <|
      (required "class_id" text).and <| (required "subject_id" text).and <|
      (required "teacher_id" text).and <| (required "day_of_week" byte).and <|
      (required "time_slot" byte).and <| (RecordField.nullable "room" text).and done)
    (fun (i, m, c, j, t, d, s, r, _) => ⟨i, m, c, j, t, ⟨d, s⟩, r⟩)
    (fun x => (x.id, x.term, x.classId, x.subject, x.teacher, x.cell.day, x.cell.slot, x.room, ()))

def statusWith (isNothing : Json → Bool) : Codec ScheduleStatus :=
  enumeration isNothing [.draft, .published] ScheduleStatus.name

def status : Codec ScheduleStatus := statusWith Json.isNull

def newSemester : Codec NewSemesterSchedule :=
  record
    ((required "term_id" text).and <| (required "class_id" text).and <|
      (required "status" status).and <| (required "meta" raw).and done)
    (fun (m, c, s, j, _) => ⟨m, c, s, j⟩) (fun x => (x.term, x.classId, x.status, x.metadata, ()))

def semester : Codec SemesterSchedule :=
  record
    ((required "id" rowId).and <| (required "term_id" text).and <|
      (required "class_id" text).and <| (required "status" status).and <|
      (required "version" count).and <| (required "meta" raw).and <|
      (required "created_at" Timestamp.codec).and done)
    (fun (i, m, c, s, v, j, a, _) => ⟨i, m, c, s, v, j, a⟩)
    (fun x => (x.id, x.term, x.classId, x.status, x.version, x.metadata, x.createdAt, ()))

def semesterSlot : Codec SemesterSlot :=
  record
    ((required "semester_schedule_id" rowId).and <| (required "day_of_week" byte).and <|
      (required "time_slot" byte).and <| (required "subject_id" text).and <|
      (required "teacher_id" text).and <| (RecordField.nullable "room" text).and done)
    (fun (i, d, s, j, t, r, _) => ⟨i, ⟨d, s⟩, j, t, r⟩)
    (fun x => (x.schedule, x.cell.day, x.cell.slot, x.subject, x.teacher, x.room, ()))

def dimensionWith (isNothing : Json → Bool) : Codec CollisionDimension :=
  enumeration isNothing [.classGroup, .teacher, .room] CollisionDimension.name

def dimension : Codec CollisionDimension := dimensionWith Json.isNull

def collisionWith (isNothing : Json → Bool) : Codec Collision :=
  record
    ((required "dimension" (dimensionWith isNothing)).and <| (required "day_of_week" byte).and <|
      (required "time_slot" byte).and <| (required "subject_id" text).and <|
      (required "teacher_id" text).and <| (required "existing" daily).and done)
    (fun (k, d, s, j, t, e, _) => ⟨k, ⟨d, s⟩, j, t, e⟩)
    (fun x => (x.dimension, x.cell.day, x.cell.slot, x.subject, x.teacher, x.existing, ()))

def collision : Codec Collision := collisionWith Json.isNull

def generateRequest : Codec GenerateRequest :=
  record
    ((required "term_id" text).and <| (required "class_id" text).and <|
      (required "time_slots_per_day" int32).and <| (required "days" (list int32)).and <|
      (required "subject_loads" (list load)).and <| (optional "hard_constraints" raw).and <|
      (optional "soft_constraints" raw).and done)
    (fun (m, c, n, d, l, h, s, _) => ⟨m, c, n, d, l, h, s⟩)
    (fun x => (x.term, x.classId, x.slotsPerDay, x.days, x.loads, x.hardConstraints,
      x.softConstraints, ()))

def generateResponse : Codec GenerateResponse :=
  record
    ((required "proposal_id" text).and <| (required "score" count).and <|
      (required "slots" (list lesson)).and <| (required "conflicts" (list shortfall)).and <|
      (required "stats" stats).and done)
    (fun (i, n, l, f, s, _) => ⟨i, n, l, f, s⟩)
    (fun x => (x.proposal, x.score, x.lessons, x.shortfalls, x.stats, ()))

def saveRequest : Codec SaveRequest :=
  record ((required "proposal_id" text).and <| (withDefault "commit_to_daily" flag false).and done)
    (fun (i, p, _) => ⟨i, p⟩) (fun x => (x.proposal, x.publish, ()))

def semesterQuery : Codec SemesterQuery :=
  record ((required "term_id" text).and <| (required "class_id" text).and done)
    (fun (m, c, _) => ⟨m, c⟩) (fun x => (x.term, x.classId, ()))

def createDailyRequest : Codec CreateDailyRequest :=
  record
    ((required "term_id" text).and <| (required "class_id" text).and <|
      (required "subject_id" text).and <| (required "teacher_id" text).and <|
      (required "day_of_week" int32).and <| (required "time_slot" int32).and <|
      (optional "room" text).and done)
    (fun (m, c, j, t, d, s, r, _) => ⟨m, c, j, t, d, s, r⟩)
    (fun x => (x.term, x.classId, x.subject, x.teacher, x.day, x.slot, x.room, ()))

def settings : Codec Settings :=
  record
    ((withDefault "proposal_ttl_secs" (natural 64) ({} : Settings).proposalTtlSeconds).and <|
      (withDefault "gap_repair_iterations" count ({} : Settings).gapRepairBudget).and <|
      (withDefault "max_time_slots_per_day" byte ({} : Settings).maxSlotsPerDay).and done)
    (fun (t, g, m, _) => ⟨t, g, m⟩)
    (fun x => (x.proposalTtlSeconds, x.gapRepairBudget, x.maxSlotsPerDay, ()))

/-- The settings under the name of their table. -/
def settingsFile : Codec Settings :=
  record ((withDefault "scheduler" settings ({} : Settings)).and done) (fun (s, _) => s)
    (fun s => (s, ()))

/-- An array has to give the details, if only as `null`. -/
def apiError : Codec ApiError :=
  record
    ((required "code" text).and <| (required "http_status" (natural 16)).and <|
      (required "message" text).and <|
      ({ optional "details" raw with cutOff := none } : RecordField (Option Json)).and done)
    (fun (c, h, m, d, _) => ⟨c, h, m, d⟩) (fun x => (x.code, x.httpStatus, x.message, x.details, ()))

end SchoolTimetable.Wire
