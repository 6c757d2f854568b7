import SchoolTimetable.Proofs.Store.Steps

/-!
Transactions are atomic. The tables are written by commits, and by single rows that come into the
daily table past all transactions; a commit applies all the writes of its transaction, in their
order, or none of them. So the tables after a run are those before it, with everything applied
that has landed meanwhile.
-/
namespace SchoolTimetable

def StoreCall.WritesTables : StoreCall → Prop
  | .commit _ | .insert _ | .addDaily _ => True
  | _ => False

namespace Store
variable {s t : Store} {tx : Nat} {ws : List StagedWrite}

/-- A transaction has been closed: the others are as they were, and so is everything but the
tables, the counters included. -/
structure Ended (tx : Nat) (s t : Store) : Prop where
  closed : t.pending.get? tx = none
  others : ∀ other, other ≠ tx → t.pending.get? other = s.pending.get? other
  rest : t = { s with
    semesters := t.semesters, slots := t.slots, daily := t.daily, pending := t.pending }

theorem Ended.rollback (tx : Nat) (s : Store) : Ended tx s (s.rollback tx) where
  closed := Table.get?_erase_self s.pending tx
  others := fun _ apart => Table.get?_erase_of_ne s.pending apart
  rest := rfl

theorem applyAll_rest (s : Store) (ws : List StagedWrite) :
    s.applyAll ws = { s with
      semesters := (s.applyAll ws).semesters, slots := (s.applyAll ws).slots,
      daily := (s.applyAll ws).daily } := by
  induction ws generalizing s with
  | nil => rfl
  | cons w rest ih =>
    have later := ih (s.apply w)
    have first : (s.apply w) = { s with
        semesters := (s.apply w).semesters, slots := (s.apply w).slots,
        daily := (s.apply w).daily } := by cases w <;> rfl
    change (s.apply w).applyAll rest = { s with
      semesters := ((s.apply w).applyAll rest).semesters,
      slots := ((s.apply w).applyAll rest).slots, daily := ((s.apply w).applyAll rest).daily }
    rw [first] at later ⊢
    exact later

theorem Ended.applyAll (ended : Ended tx s t) (ws : List StagedWrite) :
    Ended tx s (t.applyAll ws) where
  closed := by
    rw [applyAll_pending]
    exact ended.closed
  others := by
    intro other apart
    rw [applyAll_pending]
    exact ended.others other apart
  rest := by
    have writes := applyAll_rest t ws
    have pending := applyAll_pending t ws
    rw [ended.rest] at writes pending ⊢
    rw [pending]
    exact writes

def AllOrNothing (tx : Nat) (s t : Store) : Except StoreError Nat → Prop
  | .ok _ => ∃ ws, s.pending.get? tx = some ws ∧ (s.applyAll ws).SameTables t
  | .error _ => s.SameTables t

theorem commit_ended {result : Except StoreError Nat} (run : perform s (commit tx) = (result, t)) :
    Ended tx s t ∧ AllOrNothing tx s t result := by
  have dropped : s.SameTables (s.rollback tx) := ⟨rfl, rfl, rfl⟩
  cases result with
  | error e =>
    rw [commit_failed run]
    exact ⟨.rollback tx s, dropped⟩
  | ok n =>
    obtain ⟨_, ws, found, _, _, same⟩ := commit_ok.mp run
    rw [same]
    exact ⟨(Ended.rollback tx s).applyAll ws, ws, found, dropped.applyAll ws⟩

theorem Step.sameTables {call : StoreCall} (did : Step s call t) (other : ¬ call.WritesTables) :
    s.SameTables t := by
  cases did with
  | idle tables pending => exact tables
  | opened same => exact same ▸ ⟨rfl, rfl, rfl⟩
  | staged tx ws more found stages tables pending => exact tables
  | ended tx same => exact same ▸ ⟨rfl, rfl, rfl⟩
  | landed tx ws asked found fit clear same =>
    rw [asked] at other
    exact absurd trivial other
  | added r asked same =>
    rcases asked with asked | asked <;> rw [asked] at other <;> exact absurd trivial other

def lands (s : Store) : StoreCall → List StagedWrite
  | .addDaily r => [.insertDaily (r.withId s.nextDaily)]
  | .insert r =>
    match (perform s (insert r)).1 with
    | .ok row => [.insertDaily row]
    | .error _ => []
  | .commit tx =>
    match (perform s (commit tx)).1 with
    | .ok _ => (s.pending.get? tx).getD []
    | .error _ => []
  | _ => []

theorem lands_cases (s : Store) (call : StoreCall) :
    (∀ w ∈ s.lands call, ∃ row, w = .insertDaily row) ∨
      ∃ tx, s.pending.get? tx = some (s.lands call) := by
  cases call with
  | commit tx =>
    cases run : perform s (commit tx) with
    | mk result t =>
      cases result with
      | error e =>
        simp only [lands, run]
        exact .inl fun w member => nomatch member
      | ok n =>
        obtain ⟨_, ws, found, _⟩ := commit_ok.mp run
        simp only [lands, run, found, Option.getD_some]
        exact .inr ⟨tx, found⟩
  | insert r =>
    simp only [lands]
    split
    · exact .inl fun w member => ⟨_, List.mem_singleton.mp member⟩
    · exact .inl fun w member => nomatch member
  | addDaily r => exact .inl fun w member => ⟨_, List.mem_singleton.mp member⟩
  | _ => exact .inl fun w member => nomatch member

def landed (s : Store) : List StoreCall → List StagedWrite
  | [] => []
  | call :: rest => s.lands call ++ (s.afterCall call).landed rest

theorem afterCall_lands (s : Store) (call : StoreCall) :
    (s.applyAll (s.lands call)).SameTables (s.afterCall call) := by
  cases call with
  | addDaily r => exact ⟨rfl, rfl, rfl⟩
  | insert r =>
    simp only [lands, afterCall, perform_insert]
    cases s.check .insert with
    | error e => exact .refl s
    | ok u => exact ⟨rfl, rfl, rfl⟩
  | commit tx =>
    simp only [lands, afterCall]
    cases run : perform s (commit tx) with
    | mk result t =>
      have outcome := (commit_ended run).2
      cases result with
      | error e => exact outcome
      | ok n =>
        obtain ⟨ws, found, applied⟩ := outcome
        rw [found]
        exact applied
  | _ => exact (afterCall_step s _).sameTables id

theorem afterCalls_landed (s : Store) (calls : List StoreCall) :
    (s.applyAll (s.landed calls)).SameTables (s.afterCalls calls) := by
  induction calls generalizing s with
  | nil => exact .refl s
  | cons call rest ih =>
    rw [landed, applyAll_append]
    exact ((afterCall_lands s call).applyAll _).trans (ih (s.afterCall call))

/-- Whatever is staged anywhere: only commits and single rows change the tables; a commit closes
its transaction, and applies its writes in their order or none of them; a rollback drops them and
does nothing else, healthy or not; and over a run the tables gain what has landed. -/
theorem transactions_atomic (s : Store) :
    (∀ call : StoreCall, ¬ call.WritesTables → s.SameTables (s.afterCall call)) ∧
    (∀ tx result t, perform s (commit tx) = (result, t) →
      Ended tx s t ∧ AllOrNothing tx s t result) ∧
    (∀ tx, Ended tx s (s.rollback tx) ∧ s.SameTables (s.rollback tx)) ∧
    ∀ calls, (s.applyAll (s.landed calls)).SameTables (s.afterCalls calls) := by
  refine ⟨?_, ?_, ?_, afterCalls_landed s⟩
  · exact fun call other => (afterCall_step s call).sameTables other
  · exact fun tx result t run => commit_ended run
  · exact fun tx => ⟨.rollback tx s, rfl, rfl, rfl⟩

def rivals : Store :=
  let draft : NewSemesterSchedule := ⟨"t1", "c1", .draft, .null⟩
  afterCalls {} [.begin, .begin, .createVersioned ⟨20000, 0, 0⟩ 1 draft,
    .createVersioned ⟨20000, 1, 0⟩ 2 draft,
    .bulkInsert 2 [⟨"t1", "c1", "math", "ann", ⟨1, 1⟩, none⟩]]

theorem transactions_atomic_rivals :
    rivals.SameTables (rivals.afterCall (.delete 2 2)) ∧
      Ended 1 rivals (perform rivals (commit 1)).2 ∧
      (perform rivals (commit 1)).2.semesters.keys = [1] ∧
      Ended 2 (perform rivals (commit 1)).2 (rivals.afterCalls [.commit 1, .commit 2]) ∧
      (perform rivals (commit 1)).2.SameTables (rivals.afterCalls [.commit 1, .commit 2]) ∧
      Ended 2 (rivals.setHealthy false) ((rivals.setHealthy false).rollback 2) := by
  have first := transactions_atomic rivals
  have second := transactions_atomic (perform rivals (commit 1)).2
  have staged := first.1 (.delete 2 2) id
  obtain ⟨ended, _⟩ := first.2.1 1 _ (perform rivals (commit 1)).2 rfl
  have keys : (perform rivals (commit 1)).2.semesters.keys = [1] := by decide +kernel
  have unhealthy := (transactions_atomic (rivals.setHealthy false)).2.2.1 2
  have refused : (perform (perform rivals (commit 1)).2 (commit 2)).1.isOk = false := by
    decide +kernel
  cases run : perform (perform rivals (commit 1)).2 (commit 2) with
  | mk result t =>
    have last : rivals.afterCalls [.commit 1, .commit 2] = t := congrArg Prod.snd run
    obtain ⟨ended', outcome⟩ := second.2.1 2 result t run
    rw [run] at refused
    rw [last]
    cases result with
    | ok n => cases refused
    | error e => exact ⟨staged, ended, keys, ended', outcome, unhealthy.1⟩

end Store

end SchoolTimetable
