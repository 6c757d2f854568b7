import SchoolTimetable.Session
import SchoolTimetable.Store.Ledgers

/-!
Generating a proposal. The request is checked first for its shape, then against the catalog and
the assignments of the class; nothing in the stores changes.
-/
namespace SchoolTimetable

/-- What is wrong with the shape of a request. -/
inductive ShapeError where
  | noTerm
  | noClass
  | slotsOutOfRange (most : Nat) (got : Int)
  | noDays
  | noLoads
  | loadWithoutIds (index : Nat)
  | emptyLoad (index : Nat) (subject : SubjectId)
  | wrongSum (requested capacity slotsPerDay days : Nat)
  deriving DecidableEq, Repr

def ShapeError.message : ShapeError → String
  | noTerm => "term_id is required"
  | noClass => "class_id is required"
  | slotsOutOfRange most got => s!"time_slots_per_day must be between 1 and {most}, got {got}"
  | noDays => "days must contain at least one weekday in 1..=7"
  | noLoads => "subject_loads must not be empty"
  | loadWithoutIds i => s!"subject_loads[{i}] needs both subject_id and teacher_id"
  | emptyLoad i s => s!"subject_loads[{i}] ({s}) has weekly_count 0"
  | wrongSum requested capacity slots days =>
    s!"weekly loads sum to {requested} but the grid has {capacity} slot(s) ({slots} per day x {days} day(s))"

namespace GenerateRequest

def loadError? (i : Nat) (l : SubjectLoad) : Option ShapeError :=
  if Text.blank l.subject || Text.blank l.teacher then some (.loadWithoutIds i)
  else if l.weeklyCount = 0 then some (.emptyLoad i l.subject)
  else none

def weeklyTotal (r : GenerateRequest) : Nat := total (r.loads.map (·.weeklyCount))

/-- The slots per day and the days of a request whose loads fill its grid exactly. -/
def shape (r : GenerateRequest) (maxSlots : Nat) : Except ShapeError (Nat × List Nat) :=
  let slots := r.slotsPerDay.toNat
  let days := Weekday.normalize r.days
  if Text.blank r.term then .error .noTerm
  else if Text.blank r.classId then .error .noClass
  else if r.slotsPerDay < 1 ∨ (maxSlots : Int) < r.slotsPerDay then
    .error (.slotsOutOfRange maxSlots r.slotsPerDay)
  else if days = [] then .error .noDays
  else if r.loads = [] then .error .noLoads
  else
    match r.loads.zipIdx.findSome? fun (l, i) => loadError? i l with
    | some e => .error e
    | none =>
      if r.weeklyTotal = slots * days.length then .ok (slots, days)
      else .error (.wrongSum r.weeklyTotal (slots * days.length) slots days.length)

end GenerateRequest

namespace ServiceError

def reading {α : Type} (r : Except StoreError α) : Except ServiceError α := r.mapError .internal

def missing (what id : String) : ServiceError := .notFound s!"{what} {id}"

/-- A row that has to be there. -/
def required {α : Type} (r : Except StoreError (Option α)) (what id : String) :
    Except ServiceError Unit := do
  match ← reading r with
  | some _ => pure ()
  | none => throw (missing what id)

end ServiceError

/-- All that planning starts from. -/
structure PlanBasis where
  slotsPerDay : Nat
  days : List Nat
  teachers : List TeacherId
  ledgers : Table TeacherId Availability
  deriving DecidableEq, Repr

namespace GenerateRequest
open ServiceError

def checkReferences (r : GenerateRequest) (main : Store) : Except ServiceError Unit := do
  required (main.findTerm r.term) "term" r.term
  required (main.findClass r.classId) "class" r.classId
  (sortDistinct (r.loads.map (·.subject))).forM fun s => required (main.findSubject s) "subject" s

/-- Each load has to be an assignment of the class. -/
def checkPairs (r : GenerateRequest) (own : List Assignment) : Except ServiceError Unit :=
  r.loads.forM fun l =>
    if own.any fun a => a.teacher = l.teacher ∧ a.subject = l.subject then pure ()
    else throw (.validation
      s!"teacher {l.teacher} is not assigned to teach {l.subject} for class {r.classId}")

def basis (r : GenerateRequest) (main feed : Store) (maxSlots : Nat) :
    Except ServiceError PlanBasis := do
  let (slots, days) ← (r.shape maxSlots).mapError fun e => .validation e.message
  r.checkReferences main
  let own ← reading (main.listAssignments r.classId r.term)
  if own = [] then
    throw (.precondition s!"class {r.classId} has no teacher assignments in term {r.term}")
  r.checkPairs own
  let teachers := own.map (·.teacher) ++ r.loads.map (·.teacher)
  let ledgers ← reading (Store.ledgers main feed r.term slots teachers)
  pure ⟨slots, days, teachers, ledgers⟩

def constraints (r : GenerateRequest) : Json :=
  .obj [("hard_constraints", r.hardConstraints.getD .null),
    ("soft_constraints", r.softConstraints.getD .null)]

def toProposal (r : GenerateRequest) (b : PlanBasis) (p : Plan) (id : String) (now : Timestamp) :
    Proposal where
  id := id
  term := r.term
  classId := r.classId
  score := p.score
  lessons := p.lessons
  shortfalls := p.shortfalls
  stats := p.stats
  slotsPerDay := b.slotsPerDay
  days := b.days
  loads := r.loads
  requestedAt := now
  metadata := r.constraints

end GenerateRequest

def Proposal.toResponse (p : Proposal) : GenerateResponse :=
  ⟨p.id, p.score, p.lessons, p.shortfalls, p.stats⟩

namespace Service

/-- Plans a timetable and caches it under a fresh id. -/
def generate (id : String) (now : Timestamp) (r : GenerateRequest) : Service GenerateResponse := do
  let s ← get
  let b ← (r.basis s.main s.feed s.settings.maxSlotsPerDay : Except ServiceError PlanBasis)
  let run := PlanRun.make r.loads b.slotsPerDay b.days b.ledgers s.settings.gapRepairBudget
  let p := r.toProposal b (run.outcome r.loads) id now
  note (s.main.ledgerWarnings b.slotsPerDay b.teachers ++ run.notes)
  info s!"Generated proposal {p.id} for class {p.classId} term {p.term}: score {p.score}, {p.lessons.length} slot(s), {p.shortfalls.length} conflict(s)"
  modify fun s => { s with proposals := s.proposals.save p }
  pure p.toResponse

end Service

end SchoolTimetable
