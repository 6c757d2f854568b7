import SchoolTimetable.Store

/-!
Reading the committed tables.
-/
namespace SchoolTimetable.Store

def findTerm (s : Store) (id : TermId) : Except StoreError (Option Term) := do
  s.check .findTerm
  pure (s.terms.get? id)

def findClass (s : Store) (id : ClassId) : Except StoreError (Option ClassGroup) := do
  s.check .findClass
  pure (s.classes.get? id)

def findSubject (s : Store) (id : SubjectId) : Except StoreError (Option Subject) := do
  s.check .findSubject
  pure (s.subjects.get? id)

def listAssignments (s : Store) (classId : ClassId) (term : TermId) :
    Except StoreError (List Assignment) := do
  s.check .listAssignments
  pure (s.assignments.filter fun a => a.classId = classId ∧ a.term = term)

def findPreference (s : Store) (t : TeacherId) : Except StoreError (Option TeacherPreference) := do
  s.check .findPreference
  pure (s.preferences.get? t)

/-- In one term, or in all. -/
def listDailyOfTeacher (s : Store) (t : TeacherId) (term : Option TermId) :
    Except StoreError (List DailyLesson) := do
  s.check .listDailyOfTeacher
  pure (s.daily.values.filter fun r => r.teacher = t ∧ (term = none ∨ term = some r.term))

def listDailyOfClass (s : Store) (classId : ClassId) (term : TermId) :
    Except StoreError (List DailyLesson) := do
  s.check .listDailyOfClass
  pure (s.daily.values.filter fun r => r.classId = classId ∧ r.term = term)

/-- The daily rows of a term that take place in a cell. -/
def findConflicts (s : Store) (term : TermId) (c : Cell) :
    Except StoreError (List DailyLesson) := do
  s.check .findConflicts
  pure (s.daily.values.filter fun r => r.term = term ∧ r.cell = c)

def semestersOf (s : Store) (term : TermId) (classId : ClassId) : List SemesterSchedule :=
  s.semesters.values.filter fun x => x.term = term ∧ x.classId = classId

/-- Puts a schedule behind those of the same or a larger version. -/
def insertByVersion (x : SemesterSchedule) : List SemesterSchedule → List SemesterSchedule
  | [] => [x]
  | y :: r => if y.version < x.version then x :: y :: r else y :: insertByVersion x r

/-- Newest version first; equal versions stay in the order of their ids. -/
def listSemesters (s : Store) (term : TermId) (classId : ClassId) :
    Except StoreError (List SemesterSchedule) := do
  s.check .listSemesters
  pure ((s.semestersOf term classId).foldl (fun l x => insertByVersion x l) [])

def findSemester (s : Store) (id : Int) : Except StoreError (Option SemesterSchedule) := do
  s.check .findSemester
  pure (s.semesters.get? id)

/-- The slot rows of a schedule, by cell. -/
def slotsOf (s : Store) (id : Int) : List SemesterSlot :=
  (s.slots.filter fun k _ => k.1 == id).values

def listSlots (s : Store) (id : Int) : Except StoreError (List SemesterSlot) := do
  s.check .listSlots
  pure (s.slotsOf id)

end SchoolTimetable.Store
