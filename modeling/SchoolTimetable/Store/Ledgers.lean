import SchoolTimetable.Availability
import SchoolTimetable.Store.Reads

/-!
The ledgers of teachers before planning: preferences come from one store, the lessons that are
given already from another, which may be the same.
-/
namespace SchoolTimetable.Store

def ledger (preferences feed : Store) (term : TermId) (slots : Nat) (t : TeacherId) :
    Except StoreError Availability := do
  let wanted ← (preferences.findPreference t).mapError (·.withOperation "load_teacher_preference")
  let existing ← (feed.listDailyOfTeacher t (some term)).mapError
    (·.withOperation "load_teacher_commitments")
  pure (.ofPreference wanted slots existing)

/-- A ledger for each of the teachers, who are taken in the order of their ids. -/
def ledgers (preferences feed : Store) (term : TermId) (slots : Nat) (ts : List TeacherId) :
    Except StoreError (Table TeacherId Availability) := do
  let found ← (sortDistinct ts).mapM fun t => do
    let a ← ledger preferences feed term slots t
    pure (t, a)
  pure (Table.ofList found)

def ledgerWarnings (preferences : Store) (slots : Nat) (ts : List TeacherId) : List LogRecord :=
  (sortDistinct ts).flatMap fun t =>
    match preferences.preferences.get? t with
    | some p => p.warnings slots
    | none => []

end SchoolTimetable.Store
