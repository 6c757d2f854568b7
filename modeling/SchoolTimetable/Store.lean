import SchoolTimetable.Daily
import SchoolTimetable.Semester
import SchoolTimetable.StoreError

/-!
The store: the committed tables, the writes that open transactions have staged, the counters from
which ids are drawn, and the faults that are switched on. A committed transaction is its staged
writes, applied one after another.
-/
namespace SchoolTimetable

/-- The operations that a fault can be switched on for. -/
inductive Operation where
  | begin
  | commit
  | findTerm
  | findClass
  | findSubject
  | listAssignments
  | findPreference
  | listDailyOfTeacher
  | listDailyOfClass
  | findConflicts
  | insert
  | bulkInsert
  | createVersioned
  | listSemesters
  | findSemester
  | updateStatus
  | delete
  | bulkUpsert
  | listSlots
  | deleteSlots
  deriving DecidableEq, Repr

namespace Operation

def all : List Operation :=
  [begin, commit, findTerm, findClass, findSubject, listAssignments, findPreference,
    listDailyOfTeacher, listDailyOfClass, findConflicts, insert, bulkInsert, createVersioned,
    listSemesters, findSemester, updateStatus, delete, bulkUpsert, listSlots, deleteSlots]

def name : Operation → String
  | begin => "begin"
  | commit => "commit"
  | findTerm => "find_term"
  | findClass => "find_class"
  | findSubject => "find_subject"
  | listAssignments => "list_by_class_and_term"
  | findPreference => "find_by_teacher"
  | listDailyOfTeacher => "schedules_by_teacher"
  | listDailyOfClass => "schedules_by_class"
  | findConflicts => "find_conflicts"
  | insert => "insert"
  | bulkInsert => "bulk_insert"
  | createVersioned => "create_versioned"
  | listSemesters => "list_by_term_and_class"
  | findSemester => "find_by_id"
  | updateStatus => "update_status"
  | delete => "delete"
  | bulkUpsert => "bulk_upsert"
  | listSlots => "list_by_schedule"
  | deleteSlots => "delete_by_schedule"

def ofName? (s : String) : Option Operation := all.find? fun o => o.name == s

theorem mem_all (o : Operation) : o ∈ all := by cases o <;> decide

theorem ofName?_name (o : Operation) : ofName? o.name = some o := by cases o <;> decide

end Operation

/-- A write that waits for its transaction to commit. -/
inductive StagedWrite where
  | createSchedule (schedule : SemesterSchedule)
  | updateStatus (id : Int) (status : ScheduleStatus)
  | deleteSchedule (id : Int)
  | upsertSlot (slot : SemesterSlot)
  | deleteSlots (schedule : Int)
  | insertDaily (row : DailyLesson)
  deriving DecidableEq, Repr

structure Store where
  terms : Table TermId Term := ∅
  classes : Table ClassId ClassGroup := ∅
  subjects : Table SubjectId Subject := ∅
  assignments : List Assignment := []
  preferences : Table TeacherId TeacherPreference := ∅
  daily : Table Int DailyLesson := ∅
  semesters : Table Int SemesterSchedule := ∅
  slots : Table (Int × Cell) SemesterSlot := ∅
  pending : Table Nat (List StagedWrite) := ∅
  nextSemester : Int := 1
  nextDaily : Int := 1
  nextTransaction : Nat := 1
  healthy : Bool := true
  failing : List Operation := []
  deriving DecidableEq, Repr, Inhabited

namespace Store

def addTerm (s : Store) (t : Term) : Store := { s with terms := s.terms.insert t.id t }
def addClass (s : Store) (c : ClassGroup) : Store := { s with classes := s.classes.insert c.id c }
def addSubject (s : Store) (x : Subject) : Store := { s with subjects := s.subjects.insert x.id x }

def addAssignment (s : Store) (a : Assignment) : Store :=
  { s with assignments := s.assignments ++ [a] }

def setPreference (s : Store) (p : TeacherPreference) : Store :=
  { s with preferences := s.preferences.insert p.teacher p }

/-- Draws the next daily id for a row. -/
def allocateDaily (s : Store) (r : NewDailyLesson) : Store × DailyLesson :=
  ({ s with nextDaily := s.nextDaily + 1 }, r.withId s.nextDaily)

def putDaily (s : Store) (r : DailyLesson) : Store := { s with daily := s.daily.insert r.id r }

/-- A daily row added from outside, past all faults. -/
def addDaily (s : Store) (r : NewDailyLesson) : Store × DailyLesson :=
  let (s, row) := s.allocateDaily r
  (s.putDaily row, row)

def setHealthy (s : Store) (healthy : Bool) : Store := { s with healthy }

/-- Makes an operation fail from now on; other names are no operation. -/
def failOn (s : Store) (name : String) : Store :=
  match Operation.ofName? name with
  | some o => { s with failing := o :: s.failing }
  | none => s

def clearFailures (s : Store) : Store := { s with failing := [] }

/-- The gate in front of every operation. -/
def check (s : Store) (o : Operation) : Except StoreError Unit :=
  if ¬ s.healthy then
    .error ((StoreError.connection "Database is not healthy").withOperation o.name)
  else if o ∈ s.failing then
    .error ⟨.query, "injected failure", { operation := some o.name }⟩
  else .ok ()

/-- No operation fails by a switched-on fault. -/
def Fit (s : Store) : Prop := s.healthy = true ∧ s.failing = []

theorem check_of_fit {s : Store} (h : s.Fit) (o : Operation) : s.check o = .ok () := by
  simp [check, h.1, h.2]

def apply (s : Store) : StagedWrite → Store
  | .createSchedule x => { s with semesters := s.semesters.insert x.id x }
  | .updateStatus id status =>
    { s with semesters := s.semesters.modify id fun x => { x with status } }
  | .deleteSchedule id => { s with semesters := s.semesters.erase id }
  | .upsertSlot x => { s with slots := s.slots.insert (x.schedule, x.cell) x }
  | .deleteSlots id => { s with slots := s.slots.filter fun k _ => k.1 != id }
  | .insertDaily r => s.putDaily r

def applyAll (s : Store) (ws : List StagedWrite) : Store := ws.foldl apply s

end Store

end SchoolTimetable
