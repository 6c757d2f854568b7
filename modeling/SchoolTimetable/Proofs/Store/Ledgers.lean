import SchoolTimetable.Store.Ledgers
import SchoolTimetable.Proofs.Ledger
import SchoolTimetable.Proofs.Perform

/-!
The ledgers that planning starts from: one for each teacher, made of the preference that is stored
for the teacher and of the daily rows that the teacher has in the term. What is stored about one
teacher does not come into the ledger of another.
-/
namespace SchoolTimetable

namespace Store
variable {preferences feed : Store} {term : TermId} {slots : Nat} {ts : List TeacherId}

def commitments (feed : Store) (term : TermId) (t : TeacherId) : List DailyLesson :=
  feed.daily.values.filter fun r => r.teacher = t ∧ r.term = term

theorem mem_commitments {t : TeacherId} {r : DailyLesson} :
    r ∈ feed.commitments term t ↔ r ∈ feed.daily.values ∧ r.teacher = t ∧ r.term = term := by
  simp [commitments]

theorem ledger_ok {t : TeacherId} {a : Availability}
    (run : ledger preferences feed term slots t = .ok a) :
    a = .ofPreference (preferences.preferences.get? t) slots (feed.commitments term t) := by
  obtain ⟨wanted, found, run⟩ := except_bind_ok.mp run
  obtain ⟨_, _, found⟩ := except_bind_ok.mp (mapError_ok.mp found)
  obtain ⟨existing, listed, run⟩ := except_bind_ok.mp run
  obtain ⟨_, _, listed⟩ := except_bind_ok.mp (mapError_ok.mp listed)
  cases found
  cases listed
  cases run
  have own : feed.daily.values.filter
      (fun r => r.teacher = t ∧ (some term = none ∨ some term = some r.term)) =
        feed.commitments term t := by
    simp only [commitments, reduceCtorEq, false_or, Option.some.injEq, eq_comm]
  rw [own]

theorem ledgers_of_fit (fit : preferences.Fit) (fitFeed : feed.Fit) (term : TermId) (slots : Nat)
    (ts : List TeacherId) : ∃ table, ledgers preferences feed term slots ts = .ok table := by
  have each : ∀ t ∈ sortDistinct ts, ∃ e, (do
      let a ← ledger preferences feed term slots t
      pure (t, a)) = .ok e := by
    intro t _
    rw [ledger, findPreference, listDailyOfTeacher, check_of_fit fit, check_of_fit fitFeed]
    exact ⟨_, rfl⟩
  obtain ⟨found, all⟩ := mapM_ok_of_each each
  exact ⟨.ofList found, except_bind_ok.mpr ⟨found, all, rfl⟩⟩

theorem ledgers_ok {table : Table TeacherId Availability}
    (run : ledgers preferences feed term slots ts = .ok table) (t : TeacherId) :
    (t ∈ ts → ∃ a, table.get? t = some a) ∧
      ∀ a, table.get? t = some a →
        a = .ofPreference (preferences.preferences.get? t) slots (feed.commitments term t) := by
  obtain ⟨found, each, made⟩ := except_bind_ok.mp run
  cases made
  constructor
  · intro member
    obtain ⟨e, listed, own⟩ := mapM_ok_of_mem each (mem_sortDistinct_iff.mpr member)
    obtain ⟨a, _, pair⟩ := except_bind_ok.mp own
    cases pair
    exact Table.contains_ofList listed
  · intro a here
    obtain ⟨u, _, own⟩ := mapM_ok_source each (Table.mem_of_get?_ofList here)
    obtain ⟨b, ledger, pair⟩ := except_bind_ok.mp own
    cases pair
    exact ledger_ok ledger

def ReadFails (preferences feed : Store) (term : TermId) (t : TeacherId) : Prop :=
  ∃ e, preferences.findPreference t = .error e ∨ feed.listDailyOfTeacher t (some term) = .error e

theorem ledger_ok_iff {t : TeacherId} :
    (∃ a, ledger preferences feed term slots t = .ok a) ↔ ¬ ReadFails preferences feed term t := by
  unfold ledger ReadFails
  cases preferences.findPreference t with
  | error e =>
    refine iff_of_false ?_ (not_not_intro ⟨e, Or.inl rfl⟩)
    rintro ⟨a, read⟩
    cases read
  | ok wanted =>
    cases feed.listDailyOfTeacher t (some term) with
    | error e =>
      refine iff_of_false ?_ (not_not_intro ⟨e, Or.inr rfl⟩)
      rintro ⟨a, read⟩
      cases read
    | ok rows =>
      refine iff_of_true ⟨_, rfl⟩ ?_
      rintro ⟨e, failed | failed⟩ <;> cases failed

theorem ledgers_error_iff :
    (∃ e, ledgers preferences feed term slots ts = .error e) ↔
      ∃ t ∈ ts, ReadFails preferences feed term t := by
  constructor
  · rintro ⟨e, failed⟩
    by_cases fails : ∃ t ∈ ts, ReadFails preferences feed term t
    · exact fails
    · have each : ∀ t ∈ sortDistinct ts, ∃ x, (do
          let a ← ledger preferences feed term slots t
          pure (t, a)) = .ok x := by
        intro t member
        have answered : ¬ ReadFails preferences feed term t :=
          fun here => fails ⟨t, mem_sortDistinct_iff.mp member, here⟩
        obtain ⟨a, read⟩ := ledger_ok_iff.mpr answered
        exact ⟨(t, a), except_bind_ok.mpr ⟨a, read, rfl⟩⟩
      obtain ⟨found, all⟩ := mapM_ok_of_each each
      have made : ledgers preferences feed term slots ts = .ok (Table.ofList found) :=
        except_bind_ok.mpr ⟨found, all, rfl⟩
      rw [made] at failed
      cases failed
  · rintro ⟨t, member, fails⟩
    cases made : ledgers preferences feed term slots ts with
    | error e => exact ⟨e, rfl⟩
    | ok found =>
      obtain ⟨all, each, _⟩ := except_bind_ok.mp made
      obtain ⟨x, _, own⟩ := mapM_ok_of_mem each (mem_sortDistinct_iff.mpr member)
      obtain ⟨a, read, _⟩ := except_bind_ok.mp own
      exact absurd fails (ledger_ok_iff.mp ⟨a, read⟩)

theorem mem_keys_ledgers {found : Table TeacherId Availability}
    (made : ledgers preferences feed term slots ts = .ok found) (t : TeacherId) :
    t ∈ found.keys ↔ t ∈ ts := by
  rw [Table.mem_keys_iff]
  constructor
  · rintro ⟨a, here⟩
    obtain ⟨all, each, rest⟩ := except_bind_ok.mp made
    cases rest
    obtain ⟨u, member, own⟩ := mapM_ok_source each (Table.mem_of_get?_ofList here)
    obtain ⟨b, _, pair⟩ := except_bind_ok.mp own
    cases pair
    exact mem_sortDistinct_iff.mp member
  · exact (ledgers_ok made t).1

/-- All that the ledger of a teacher can depend on is the same in the other stores. -/
structure SameFor (t : TeacherId) (term : TermId) (slots : Nat)
    (preferences feed preferences' feed' : Store) : Prop where
  wishes : Availability.SameWishes slots (preferences.preferences.get? t)
    (preferences'.preferences.get? t)
  cells : ∀ c, (∃ row ∈ feed.commitments term t, row.cell = c) ↔
    ∃ row ∈ feed'.commitments term t, row.cell = c

/-- The ledgers fail with their reads only; those that are made hold what is stored about each
teacher, and nothing that is stored about the others. -/
theorem ledgers_hold_what_is_stored (preferences feed : Store) (term : TermId) (slots : Nat)
    (ts : List TeacherId) :
    ((∃ e, ledgers preferences feed term slots ts = .error e) ↔
      ∃ t ∈ ts, ReadFails preferences feed term t) ∧
    ∀ found, ledgers preferences feed term slots ts = .ok found →
      (∀ t, t ∈ found.keys ↔ t ∈ ts) ∧
      (∀ t a, found.get? t = some a → Availability.Reflects (preferences.preferences.get? t)
        (feed.commitments term t) slots a) ∧
      ∀ preferences' feed' ts' found',
        ledgers preferences' feed' term slots ts' = .ok found' →
        ∀ t ∈ ts, t ∈ ts' → SameFor t term slots preferences feed preferences' feed' →
          found'.get? t = found.get? t := by
  refine ⟨ledgers_error_iff, fun found made => ⟨mem_keys_ledgers made, ?_, ?_⟩⟩
  · intro t a here
    rw [(ledgers_ok made t).2 a here]
    exact Availability.ofPreference_reflects _ _ _
  · intro preferences' feed' ts' found' made' t member member' same
    obtain ⟨a, here⟩ := (ledgers_ok made t).1 member
    obtain ⟨a', here'⟩ := (ledgers_ok made' t).1 member'
    rw [here, here', (ledgers_ok made t).2 a here, (ledgers_ok made' t).2 a' here',
      Availability.ofPreference_congr same.wishes same.cells]

/-- A window that is not read stands between two that are, and only one of the rows is the
teacher's own in the term. -/
example :
    let s : Store := {
      preferences := .ofList
        [("T1", ⟨"T1", 2, 5, ["1:1", "1:9", "mon:2-3"]⟩), ("T2", ⟨"T2", 1, 1, ["5"]⟩)]
      daily := .ofList [(1, ⟨1, "fall", "C1", "MA", "T1", ⟨4, 2⟩, none⟩),
        (2, ⟨2, "spring", "C1", "MA", "T1", ⟨4, 3⟩, none⟩),
        (3, ⟨3, "fall", "C2", "MA", "T2", ⟨4, 4⟩, none⟩)] }
    (ledgers s s "fall" 6 ["T1"]).toOption = some (.ofList [("T1",
      { dailyCap := 2, weeklyCap := 5,
        blocked := .ofList [(⟨1, 1⟩, ()), (⟨1, 2⟩, ()), (⟨1, 3⟩, ()), (⟨4, 2⟩, ())] })]) := by
  decide +kernel

end Store

end SchoolTimetable
