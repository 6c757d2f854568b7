import SchoolTimetable.Proofs.Store.Atomicity
import SchoolTimetable.Proofs.Store.Isolation

/-!
Calls that fail. Each operation looks at everything that may keep it from being done before it
draws an id or stages a write, so one that fails leaves the whole store as it was, the counters
included; only a commit that fails still ends its transaction. And a transaction that has ended
takes no writes, whatever is called later.
-/
namespace SchoolTimetable

namespace StoreCall

def staging? : StoreCall → Option (Operation × Nat)
  | .bulkInsert tx _ => some (.bulkInsert, tx)
  | .createVersioned _ tx _ => some (.createVersioned, tx)
  | .updateStatus tx _ _ => some (.updateStatus, tx)
  | .delete tx _ => some (.delete, tx)
  | .bulkUpsert tx _ _ => some (.bulkUpsert, tx)
  | .deleteSlots tx _ => some (.deleteSlots, tx)
  | _ => none

def ends? : StoreCall → Option Nat
  | .commit tx | .rollback tx => some tx
  | _ => none

end StoreCall

namespace Store
variable {s t : Store} {tx : Nat}

/-! Failing without a trace. -/

def Traceless {α : Type} (u : StoreUpdate α) : Prop :=
  ∀ s e t, perform s u = (.error e, t) → t = s

theorem traceless_modify (f : Store → Store) : Traceless (modify f) := by
  intro s e t failed
  cases failed

theorem traceless_begin : Traceless begin := by
  intro s e t failed
  rw [perform_begin] at failed
  split at failed <;> cases failed
  rfl

theorem traceless_insert (r : NewDailyLesson) : Traceless (insert r) := by
  intro s e t failed
  rw [perform_insert] at failed
  split at failed <;> cases failed
  rfl

theorem traceless_bulkInsert (tx : Nat) (rs : List NewDailyLesson) :
    Traceless (bulkInsert tx rs) := by
  intro s e t failed
  rw [perform_bulkInsert] at failed
  split at failed <;> cases failed
  · rfl
  · rfl

theorem traceless_createVersioned (now : Timestamp) (tx : Nat) (x : NewSemesterSchedule) :
    Traceless (createVersioned now tx x) := by
  intro s e t failed
  rw [perform_createVersioned] at failed
  split at failed <;> cases failed
  · rfl
  · rfl

theorem traceless_onVisible (o : Operation) (tx : Nat) (id : Int) (w : StagedWrite) :
    Traceless (do gate o; requireVisible tx id (unknownSchedule o id); stage tx [w]) := by
  intro s e t failed
  rw [perform_onVisible] at failed
  split at failed <;> cases failed
  · rfl
  · rfl
  · rfl

theorem traceless_bulkUpsert (tx : Nat) {slots : List SemesterSlot} (order : OwnerOrder slots) :
    Traceless (bulkUpsert tx slots order) := by
  intro s e t failed
  rw [perform_bulkUpsert] at failed
  split at failed <;> cases failed
  · rfl
  · rfl
  · rfl

theorem traceless_deleteSlots (tx : Nat) (id : Int) : Traceless (deleteSlots tx id) := by
  intro s e t failed
  rw [perform_deleteSlots] at failed
  split at failed <;> cases failed
  · rfl
  · rfl

theorem update_traceless (call : StoreCall) (other : ∀ tx, call ≠ .commit tx) :
    Traceless call.update := by
  cases call with
  | addDaily r =>
    intro s e t failed
    cases failed
  | begin => exact traceless_begin
  | commit tx => exact absurd rfl (other tx)
  | insert r => exact traceless_insert r
  | bulkInsert tx rs => exact traceless_bulkInsert tx rs
  | createVersioned now tx x => exact traceless_createVersioned now tx x
  | updateStatus tx id status => exact traceless_onVisible .updateStatus tx id _
  | delete tx id => exact traceless_onVisible .delete tx id _
  | bulkUpsert tx slots order => exact traceless_bulkUpsert tx order
  | deleteSlots tx id => exact traceless_deleteSlots tx id
  | _ => exact traceless_modify _

/-! Writes of a transaction that is not open. -/

/-- The error of an operation of a transaction that is not open: its fault, if one is switched on
for it, or that the transaction is closed. -/
def refusal (s : Store) (o : Operation) (tx : Nat) : StoreError :=
  match s.check o with
  | .ok _ => closedTransaction tx
  | .error e => e

theorem visibleSchedule_closed (closed : s.pending.get? tx = none) (id : Int) :
    s.visibleSchedule tx id = .error (closedTransaction tx) := by
  rw [visibleSchedule, staged, closed]
  rfl

theorem ownersVisible_closed (closed : s.pending.get? tx = none) (owners : List Int) :
    s.ownersVisible tx owners = .ok () ∨
      s.ownersVisible tx owners = .error (closedTransaction tx) := by
  cases owners with
  | nil => exact .inl rfl
  | cons id rest =>
    rw [ownersVisible, visibleSchedule_closed closed]
    exact .inr rfl

theorem onVisible_closed (closed : s.pending.get? tx = none) (o : Operation) (id : Int)
    (w : StagedWrite) :
    perform s (do gate o; requireVisible tx id (unknownSchedule o id); stage tx [w]) =
      (.error (s.refusal o tx), s) := by
  rw [perform_onVisible, visibleSchedule_closed closed, refusal]
  cases s.check o <;> rfl

theorem bulkInsert_closed (closed : s.pending.get? tx = none) (rs : List NewDailyLesson) :
    perform s (bulkInsert tx rs) = (.error (s.refusal .bulkInsert tx), s) := by
  rw [perform_bulkInsert, closed, refusal]
  cases s.check .bulkInsert <;> rfl

theorem createVersioned_closed (closed : s.pending.get? tx = none) (now : Timestamp)
    (x : NewSemesterSchedule) :
    perform s (createVersioned now tx x) = (.error (s.refusal .createVersioned tx), s) := by
  rw [perform_createVersioned, closed, refusal]
  cases s.check .createVersioned <;> rfl

theorem deleteSlots_closed (closed : s.pending.get? tx = none) (id : Int) :
    perform s (deleteSlots tx id) = (.error (s.refusal .deleteSlots tx), s) := by
  rw [perform_deleteSlots, closed, refusal]
  cases s.check .deleteSlots <;> rfl

theorem bulkUpsert_closed (closed : s.pending.get? tx = none) {slots : List SemesterSlot}
    (order : OwnerOrder slots) :
    perform s (bulkUpsert tx slots order) = (.error (s.refusal .bulkUpsert tx), s) := by
  rw [perform_bulkUpsert, closed, refusal]
  cases s.check .bulkUpsert with
  | error e => rfl
  | ok u => rcases ownersVisible_closed closed order.owners with none | hidden <;> simp only [*]

theorem update_closed {call : StoreCall} {o : Operation} (stages : call.staging? = some (o, tx))
    (closed : s.pending.get? tx = none) :
    perform s call.update = (.error (s.refusal o tx), s) := by
  cases call with
  | bulkInsert tx rs =>
    cases stages
    exact bulkInsert_closed closed rs
  | createVersioned now tx x =>
    cases stages
    exact createVersioned_closed closed now x
  | updateStatus tx id status =>
    cases stages
    exact onVisible_closed closed .updateStatus id _
  | delete tx id =>
    cases stages
    exact onVisible_closed closed .delete id _
  | bulkUpsert tx slots order =>
    cases stages
    exact bulkUpsert_closed closed order
  | deleteSlots tx id =>
    cases stages
    exact deleteSlots_closed closed id
  | _ => cases stages

/-! Transactions that have ended. -/

structure Finished (s : Store) (tx : Nat) : Prop where
  begun : tx < s.nextTransaction
  closed : s.pending.get? tx = none

structure Later (s t : Store) : Prop where
  transactions : s.nextTransaction ≤ t.nextTransaction
  semesters : s.nextSemester ≤ t.nextSemester

theorem Later.refl (s : Store) : s.Later s := ⟨Nat.le_refl _, Int.le_refl _⟩

theorem Later.trans {u : Store} (first : s.Later t) (second : t.Later u) : s.Later u where
  transactions := Nat.le_trans first.transactions second.transactions
  semesters := Int.le_trans first.semesters second.semesters

theorem afterCall_later (s : Store) (call : StoreCall) : s.Later (s.afterCall call) := by
  cases call with
  | failOn name =>
    simp only [afterCall, failOn]
    split <;> exact ⟨Nat.le_refl _, Int.le_refl _⟩
  | begin =>
    simp only [afterCall, perform_begin]
    split
    · exact ⟨Nat.le_succ _, Int.le_refl _⟩
    · exact ⟨Nat.le_refl _, Int.le_refl _⟩
  | commit tx =>
    have ended := (commit_ended (Prod.eta (perform s (commit tx))).symm).1
    constructor
    · exact Nat.le_of_eq (congrArg nextTransaction ended.rest).symm
    · exact Int.le_of_eq (congrArg nextSemester ended.rest).symm
  | insert r =>
    simp only [afterCall, perform_insert]
    split <;> exact ⟨Nat.le_refl _, Int.le_refl _⟩
  | bulkInsert tx rs =>
    simp only [afterCall, perform_bulkInsert]
    split <;> exact ⟨Nat.le_refl _, Int.le_refl _⟩
  | createVersioned now tx x =>
    simp only [afterCall, perform_createVersioned]
    split
    · exact ⟨Nat.le_refl _, Int.le_refl _⟩
    · exact ⟨Nat.le_refl _, Int.le_refl _⟩
    · exact ⟨Nat.le_refl _, Int.le_add_one (Int.le_refl _)⟩
  | updateStatus tx id status =>
    simp only [afterCall, perform_updateStatus]
    split <;> exact ⟨Nat.le_refl _, Int.le_refl _⟩
  | delete tx id =>
    simp only [afterCall, perform_delete]
    split <;> exact ⟨Nat.le_refl _, Int.le_refl _⟩
  | bulkUpsert tx slots order =>
    simp only [afterCall, perform_bulkUpsert]
    split <;> exact ⟨Nat.le_refl _, Int.le_refl _⟩
  | deleteSlots tx id =>
    simp only [afterCall, perform_deleteSlots]
    split <;> exact ⟨Nat.le_refl _, Int.le_refl _⟩
  | _ => exact ⟨Nat.le_refl _, Int.le_refl _⟩

theorem Leads.later (run : s.Leads t) : s.Later t :=
  run.induction (P := fun u => s.Later u) (fun u call before => before.trans (afterCall_later u call))
    (Later.refl s)

theorem Step.closed {call : StoreCall} (did : Step s call t) (finished : s.Finished tx) :
    t.pending.get? tx = none := by
  cases did with
  | idle tables pending => exact pending ▸ finished.closed
  | opened same =>
    rw [same]
    exact (Table.get?_insert_of_ne _ _ (Nat.ne_of_lt finished.begun)).trans finished.closed
  | staged other ws more found stages tables pending =>
    have apart : tx ≠ other := by
      intro same
      rw [← same, finished.closed] at found
      cases found
    rw [pending]
    exact (Table.get?_insert_of_ne _ _ apart).trans finished.closed
  | ended other same =>
    rw [same, rollback]
    by_cases here : tx = other
    · exact here ▸ Table.get?_erase_self _ _
    · exact (Table.get?_erase_of_ne _ here).trans finished.closed
  | landed other ws asked found fit clear same =>
    rw [same, applyAll_pending]
    by_cases here : tx = other
    · exact here ▸ Table.get?_erase_self _ _
    · exact (Table.get?_erase_of_ne _ here).trans finished.closed
  | added r asked same => exact same ▸ finished.closed

theorem Finished.step (finished : s.Finished tx) (call : StoreCall) :
    (s.afterCall call).Finished tx where
  begun := Nat.lt_of_lt_of_le finished.begun (afterCall_later s call).transactions
  closed := (afterCall_step s call).closed finished

theorem Finished.leads (finished : s.Finished tx) (run : s.Leads t) : t.Finished tx :=
  run.induction (P := fun u => u.Finished tx) (fun _ call before => before.step call) finished

/-- A commit ends its transaction even if it fails. -/
theorem finished_of_ends {ending : StoreCall} (ends : ending.ends? = some tx)
    (begun : tx < s.nextTransaction) : (s.afterCall ending).Finished tx := by
  refine ⟨Nat.lt_of_lt_of_le begun (afterCall_later s ending).transactions, ?_⟩
  cases ending with
  | commit k =>
    cases ends
    exact (commit_ended (Prod.eta (perform s (commit tx))).symm).1.closed
  | rollback k =>
    cases ends
    exact Table.get?_erase_self s.pending tx
  | _ => cases ends

/-- Whatever faults are switched on: a call that fails leaves the whole store as it was, unless it
is a commit; a transaction that is not open takes no write; and one that has been committed or
rolled back, successfully or not, is not open again after any calls. -/
theorem failed_calls_leave_no_trace (s : Store) :
    (∀ call : StoreCall, (∀ tx, call ≠ .commit tx) →
      ∀ e t, perform s call.update = (.error e, t) → t = s) ∧
    (∀ (call : StoreCall) o tx, call.staging? = some (o, tx) → s.pending.get? tx = none →
      perform s call.update = (.error (s.refusal o tx), s)) ∧
    ∀ (ending : StoreCall) tx, ending.ends? = some tx → tx < s.nextTransaction →
      ∀ calls, ((s.afterCall ending).afterCalls calls).pending.get? tx = none := by
  refine ⟨fun call other => update_traceless call other s, ?_, ?_⟩
  · exact fun call o tx stages closed => update_closed stages closed
  · intro ending tx ends begun calls
    exact ((finished_of_ends ends begun).leads ⟨calls, rfl⟩).closed

def halfway : Store :=
  let draft : NewSemesterSchedule := ⟨"t1", "c1", .draft, .null⟩
  afterCalls {} [.begin, .createVersioned ⟨20000, 0, 0⟩ 1 draft, .commit 1, .begin,
    .createVersioned ⟨20000, 1, 0⟩ 2 draft]

def oneOrphan : List SemesterSlot :=
  [⟨2, ⟨1, 1⟩, "math", "ann", none⟩, ⟨9, ⟨1, 2⟩, "math", "ann", none⟩]

theorem failed_calls_leave_no_trace_halfway :
    (∃ e, perform halfway (StoreCall.bulkUpsert 2 oneOrphan).update = (.error e, halfway)) ∧
    perform halfway (StoreCall.bulkInsert 1 [⟨"t1", "c1", "math", "ann", ⟨1, 1⟩, none⟩]).update =
      (.error (closedTransaction 1), halfway) ∧
    (((halfway.failOn "commit").afterCall (.commit 2)).afterCalls
      [.clearFailures, .begin]).pending.get? 2 = none := by
  obtain ⟨traceless, closed, _⟩ := failed_calls_leave_no_trace halfway
  refine ⟨?_, closed _ .bulkInsert 1 rfl (by decide +kernel), ?_⟩
  · have failing : (perform halfway (StoreCall.bulkUpsert 2 oneOrphan).update).1.isOk = false := by
      decide +kernel
    obtain ⟨e, t, run⟩ := perform_fails failing
    have same := traceless (.bulkUpsert 2 oneOrphan) nofun e t run
    exact ⟨e, run.trans (congrArg (Prod.mk _) same)⟩
  · obtain ⟨_, _, ended⟩ := failed_calls_leave_no_trace (halfway.failOn "commit")
    exact ended (.commit 2) 2 rfl (by decide +kernel) [.clearFailures, .begin]

end Store

end SchoolTimetable
