import SchoolTimetable.Store.Transaction
import SchoolTimetable.Proofs.Entries
import SchoolTimetable.Proofs.Perform

/-!
What comes of each operation of the store, by the gate in front of it, the transaction it works in
and what that transaction sees; and, where it is wanted, exactly when an operation succeeds.
-/
namespace SchoolTimetable.Store
variable {s t : Store} {tx : Nat}

def addStaged (s : Store) (tx : Nat) (ws : List StagedWrite) : Store :=
  { s with pending := s.pending.insert tx ((s.pending.get? tx).getD [] ++ ws) }

theorem addStaged_get {ws : List StagedWrite} (found : s.pending.get? tx = some ws)
    (more : List StagedWrite) : (s.addStaged tx more).pending.get? tx = some (ws ++ more) := by
  simp [addStaged, found]

theorem addStaged_get_of_ne (s : Store) {other : Nat} (apart : other ≠ tx)
    (ws : List StagedWrite) : (s.addStaged tx ws).pending.get? other = s.pending.get? other :=
  Table.get?_insert_of_ne _ _ apart

theorem addStaged_addStaged (s : Store) (tx : Nat) (ws more : List StagedWrite) :
    (s.addStaged tx ws).addStaged tx more = s.addStaged tx (ws ++ more) := by
  have writes : ((s.addStaged tx ws).pending.get? tx).getD [] =
      (s.pending.get? tx).getD [] ++ ws := by simp [addStaged]
  have twice : ∀ v w, (s.pending.insert tx v).insert tx w = s.pending.insert tx w := by
    intro v w
    apply Table.ext
    intro k
    by_cases same : k = tx <;> simp [Table.get?_insert, same]
  rw [addStaged, writes]
  simp only [addStaged, twice, List.append_assoc]

theorem rollback_closed (closed : s.pending.get? tx = none) : s.rollback tx = s := by
  have same : s.pending.erase tx = s.pending := by
    apply Table.ext
    intro k
    by_cases here : k = tx
    · rw [here, Table.get?_erase_self, closed]
    · exact Table.get?_erase_of_ne _ here
  rw [rollback, same]

/-! Opening a transaction, and the rows of the daily table. -/

theorem perform_gate (s : Store) (o : Operation) : perform s (gate o) = (s.check o, s) := rfl

def opened (s : Store) : Store :=
  { s with
    nextTransaction := s.nextTransaction + 1
    pending := s.pending.insert s.nextTransaction [] }

theorem perform_begin (s : Store) :
    perform s begin = match s.check .begin with
      | .ok _ => (.ok s.nextTransaction, s.opened)
      | .error e => (.error e, s) := by
  simp only [begin, perform_bind, perform_gate, perform_get, perform_set, perform_pure]
  cases s.check .begin <;> rfl

theorem perform_insert (s : Store) (r : NewDailyLesson) :
    perform s (insert r) = match s.check .insert with
      | .ok _ => (.ok (r.withId s.nextDaily), (s.addDaily r).1)
      | .error e => (.error e, s) := by
  simp only [insert, perform_bind, perform_gate, perform_get, perform_set, perform_pure]
  cases s.check .insert <;> rfl

theorem insert_ok {r : NewDailyLesson} {row : DailyLesson} :
    perform s (insert r) = (.ok row, t) ↔
      s.check .insert = .ok () ∧ row = r.withId s.nextDaily ∧ t = (s.addDaily r).1 := by
  rw [perform_insert]
  cases s.check .insert <;> simp [eq_comm]

def numbered (next : Int) : List NewDailyLesson → List DailyLesson
  | [] => []
  | r :: rest => r.withId next :: numbered (next + 1) rest

theorem allocateAll_eq (s : Store) (rs : List NewDailyLesson) :
    s.allocateAll rs =
      ({ s with nextDaily := s.nextDaily + rs.length }, numbered s.nextDaily rs) := by
  induction rs generalizing s with
  | nil => simp [allocateAll, numbered]
  | cons r rest ih =>
    simp only [allocateAll, allocateDaily, ih, numbered, List.length_cons]
    have sum : s.nextDaily + 1 + (rest.length : Int) = s.nextDaily + ↑(rest.length + 1) := by omega
    rw [sum]

/-! Staging writes. -/

theorem perform_stage (s : Store) (tx : Nat) (ws : List StagedWrite) :
    perform s (stage tx ws) = match s.pending.get? tx with
      | some _ => (.ok (), s.addStaged tx ws)
      | none => (.error (closedTransaction tx), s) := by
  simp only [stage, perform_bind, perform_get, perform_lift, perform_modify, staged]
  cases found : s.pending.get? tx <;> simp [addStaged, found]

def withRows (s : Store) (tx : Nat) (rs : List NewDailyLesson) : Store :=
  ({ s with nextDaily := s.nextDaily + rs.length } : Store).addStaged tx
    ((numbered s.nextDaily rs).map .insertDaily)

theorem withRows_get {ws : List StagedWrite} (found : s.pending.get? tx = some ws)
    (rs : List NewDailyLesson) : (s.withRows tx rs).pending.get? tx =
      some (ws ++ (numbered s.nextDaily rs).map .insertDaily) :=
  addStaged_get (s := { s with nextDaily := s.nextDaily + rs.length }) found _

theorem perform_bulkInsert (s : Store) (tx : Nat) (rs : List NewDailyLesson) :
    perform s (bulkInsert tx rs) = match s.check .bulkInsert, s.pending.get? tx with
      | .error e, _ => (.error e, s)
      | .ok _, none => (.error (closedTransaction tx), s)
      | .ok _, some _ => (.ok rs.length, s.withRows tx rs) := by
  simp only [bulkInsert, perform_bind, perform_gate, perform_get, perform_set, perform_pure,
    perform_lift, perform_stage, staged, allocateAll_eq]
  cases s.check .bulkInsert with
  | error e => rfl
  | ok u => cases found : s.pending.get? tx <;> simp [found, withRows]

theorem bulkInsert_ok {rs : List NewDailyLesson} {n : Nat} :
    perform s (bulkInsert tx rs) = (.ok n, t) ↔
      s.check .bulkInsert = .ok () ∧ s.pending.contains tx = true ∧ n = rs.length ∧
        t = s.withRows tx rs := by
  rw [perform_bulkInsert]
  cases s.check .bulkInsert with
  | error e => simp
  | ok u => cases found : s.pending.get? tx <;> simp [Table.contains, found, eq_comm]

def nextVersion (s : Store) (now : Timestamp) (ws : List StagedWrite) (x : NewSemesterSchedule) :
    SemesterSchedule where
  id := s.nextSemester
  term := x.term
  classId := x.classId
  status := x.status
  version := max (maxVersion (s.semestersOf x.term x.classId))
    (maxVersion (stagedSchedules ws x.term x.classId)) + 1
  metadata := x.metadata
  createdAt := now

def withSchedule (s : Store) (tx : Nat) (x : SemesterSchedule) : Store :=
  ({ s with nextSemester := s.nextSemester + 1 } : Store).addStaged tx [.createSchedule x]

theorem withSchedule_get {ws : List StagedWrite} (found : s.pending.get? tx = some ws)
    (x : SemesterSchedule) :
    (s.withSchedule tx x).pending.get? tx = some (ws ++ [.createSchedule x]) :=
  addStaged_get (s := { s with nextSemester := s.nextSemester + 1 }) found _

theorem perform_createVersioned (s : Store) (now : Timestamp) (tx : Nat)
    (x : NewSemesterSchedule) :
    perform s (createVersioned now tx x) =
      match s.check .createVersioned, s.pending.get? tx with
      | .error e, _ => (.error e, s)
      | .ok _, none => (.error (closedTransaction tx), s)
      | .ok _, some ws =>
        (.ok (s.nextVersion now ws x), s.withSchedule tx (s.nextVersion now ws x)) := by
  simp only [createVersioned, perform_bind, perform_gate, perform_get, perform_lift, perform_set,
    perform_pure, perform_stage, staged]
  cases s.check .createVersioned with
  | error e => rfl
  | ok u => cases found : s.pending.get? tx <;> simp [found, withSchedule, nextVersion]

theorem createVersioned_ok {now : Timestamp} {x : NewSemesterSchedule} {r : SemesterSchedule} :
    perform s (createVersioned now tx x) = (.ok r, t) ↔
      s.check .createVersioned = .ok () ∧ ∃ ws, s.pending.get? tx = some ws ∧
        r = s.nextVersion now ws x ∧ t = s.withSchedule tx r := by
  rw [perform_createVersioned]
  cases s.check .createVersioned with
  | error e => simp
  | ok u =>
    cases s.pending.get? tx with
    | none => simp
    | some ws =>
      simp only [Prod.mk.injEq, Except.ok.injEq, true_and, Option.some.injEq, exists_eq_left']
      constructor
      · intro h
        exact ⟨h.1.symm, by rw [← h.1, h.2]⟩
      · intro h
        exact ⟨h.1.symm, by rw [h.2, h.1]⟩

theorem perform_requireVisible (s : Store) (tx : Nat) (id : Int) (e : StoreError) :
    perform s (requireVisible tx id e) = match s.visibleSchedule tx id with
      | .ok (some _) => (.ok (), s)
      | .ok none => (.error e, s)
      | .error e' => (.error e', s) := by
  simp only [requireVisible, perform_bind, perform_get, perform_lift]
  cases s.visibleSchedule tx id with
  | error e' => rfl
  | ok seen => cases seen <;> rfl

theorem visibleSchedule_open {id : Int} {seen : Option SemesterSchedule}
    (looked : s.visibleSchedule tx id = .ok seen) :
    ∃ ws, s.pending.get? tx = some ws ∧ seen = ws.foldl (seeWrite id) (s.semesters.get? id) := by
  unfold visibleSchedule staged at looked
  cases found : s.pending.get? tx with
  | none => rw [found] at looked; cases looked
  | some ws => rw [found] at looked; cases looked; exact ⟨ws, rfl, rfl⟩

theorem perform_onVisible (s : Store) (o : Operation) (tx : Nat) (id : Int) (w : StagedWrite) :
    perform s (do gate o; requireVisible tx id (unknownSchedule o id); stage tx [w]) =
      match s.check o, s.visibleSchedule tx id with
      | .error e, _ => (.error e, s)
      | .ok _, .error e => (.error e, s)
      | .ok _, .ok none => (.error (unknownSchedule o id), s)
      | .ok _, .ok (some _) => (.ok (), s.addStaged tx [w]) := by
  simp only [perform_bind, perform_gate, perform_requireVisible, perform_stage]
  cases s.check o with
  | error e => rfl
  | ok u =>
    cases looked : s.visibleSchedule tx id with
    | error e => simp [looked]
    | ok seen =>
      obtain ⟨ws, found, _⟩ := visibleSchedule_open looked
      cases seen <;> simp [looked, found]

theorem onVisible_ok {o : Operation} {id : Int} {w : StagedWrite} {u : Unit} :
    perform s (do gate o; requireVisible tx id (unknownSchedule o id); stage tx [w]) =
        (.ok u, t) ↔
      s.check o = .ok () ∧ (∃ x, s.visibleSchedule tx id = .ok (some x)) ∧
        t = s.addStaged tx [w] := by
  rw [perform_onVisible]
  cases s.check o with
  | error e => simp
  | ok u =>
    cases s.visibleSchedule tx id with
    | error e => simp
    | ok seen => cases seen <;> simp [eq_comm]

theorem perform_updateStatus (s : Store) (tx : Nat) (id : Int) (status : ScheduleStatus) :
    perform s (updateStatus tx id status) =
      match s.check .updateStatus, s.visibleSchedule tx id with
      | .error e, _ => (.error e, s)
      | .ok _, .error e => (.error e, s)
      | .ok _, .ok none => (.error (unknownSchedule .updateStatus id), s)
      | .ok _, .ok (some _) => (.ok (), s.addStaged tx [.updateStatus id status]) :=
  perform_onVisible s .updateStatus tx id _

theorem updateStatus_ok {id : Int} {status : ScheduleStatus} {u : Unit} :
    perform s (updateStatus tx id status) = (.ok u, t) ↔
      s.check .updateStatus = .ok () ∧ (∃ x, s.visibleSchedule tx id = .ok (some x)) ∧
        t = s.addStaged tx [.updateStatus id status] := onVisible_ok

theorem perform_delete (s : Store) (tx : Nat) (id : Int) :
    perform s (delete tx id) = match s.check .delete, s.visibleSchedule tx id with
      | .error e, _ => (.error e, s)
      | .ok _, .error e => (.error e, s)
      | .ok _, .ok none => (.error (unknownSchedule .delete id), s)
      | .ok _, .ok (some _) => (.ok (), s.addStaged tx [.deleteSchedule id]) :=
  perform_onVisible s .delete tx id _

theorem delete_ok {id : Int} {u : Unit} :
    perform s (delete tx id) = (.ok u, t) ↔
      s.check .delete = .ok () ∧ (∃ x, s.visibleSchedule tx id = .ok (some x)) ∧
        t = s.addStaged tx [.deleteSchedule id] := onVisible_ok

def ownersVisible (s : Store) (tx : Nat) : List Int → Except StoreError Unit
  | [] => .ok ()
  | id :: rest =>
    match s.visibleSchedule tx id with
    | .ok (some _) => ownersVisible s tx rest
    | .ok none => .error (orphanSlot id)
    | .error e => .error e

theorem ownersVisible_ok {owners : List Int} :
    s.ownersVisible tx owners = .ok () ↔
      ∀ id ∈ owners, ∃ y, s.visibleSchedule tx id = .ok (some y) := by
  induction owners with
  | nil => simp [ownersVisible]
  | cons id rest ih =>
    simp only [ownersVisible, List.forall_mem_cons]
    cases s.visibleSchedule tx id with
    | error e => simp
    | ok seen => cases seen <;> simp [ih]

theorem OwnerOrder.visible_ok {slots : List SemesterSlot} (order : OwnerOrder slots) :
    s.ownersVisible tx order.owners = .ok () ↔
      ∀ x ∈ slots, ∃ y, s.visibleSchedule tx x.schedule = .ok (some y) :=
  ownersVisible_ok.trans order.forall_owners

theorem perform_forM_visible (s : Store) (tx : Nat) (owners : List Int) :
    perform s (owners.forM fun id => requireVisible tx id (orphanSlot id)) =
      (s.ownersVisible tx owners, s) := by
  induction owners with
  | nil => rfl
  | cons id rest ih =>
    change perform s (requireVisible _ _ _ >>= fun _ => List.forM rest _) = _
    rw [perform_bind, perform_requireVisible, ownersVisible]
    cases s.visibleSchedule tx id with
    | error e => rfl
    | ok seen =>
      cases seen with
      | none => rfl
      | some y => exact ih

theorem perform_bulkUpsert (s : Store) (tx : Nat) (slots : List SemesterSlot)
    (order : OwnerOrder slots) :
    perform s (bulkUpsert tx slots order) =
      match s.check .bulkUpsert, s.ownersVisible tx order.owners, s.pending.get? tx with
      | .error e, _, _ => (.error e, s)
      | .ok _, .error e, _ => (.error e, s)
      | .ok _, .ok _, none => (.error (closedTransaction tx), s)
      | .ok _, .ok _, some _ => (.ok slots.length, s.addStaged tx (slots.map .upsertSlot)) := by
  simp only [bulkUpsert, perform_bind, perform_gate, perform_forM_visible, perform_stage,
    perform_pure]
  cases s.check .bulkUpsert with
  | error e => rfl
  | ok u =>
    cases owners : s.ownersVisible tx order.owners with
    | error e => simp [owners]
    | ok u => cases found : s.pending.get? tx <;> simp [owners, found]

theorem bulkUpsert_ok {slots : List SemesterSlot} {order : OwnerOrder slots} {n : Nat} :
    perform s (bulkUpsert tx slots order) = (.ok n, t) ↔
      s.check .bulkUpsert = .ok () ∧
        (∀ x ∈ slots, ∃ y, s.visibleSchedule tx x.schedule = .ok (some y)) ∧
        s.pending.contains tx = true ∧ n = slots.length ∧
        t = s.addStaged tx (slots.map .upsertSlot) := by
  rw [perform_bulkUpsert, ← order.visible_ok]
  cases s.check .bulkUpsert with
  | error e => simp
  | ok u =>
    cases s.ownersVisible tx order.owners with
    | error e => simp
    | ok u => cases found : s.pending.get? tx <;> simp [Table.contains, found, eq_comm]

/-- The order in which the owners are looked up shows in the error only, which names the first one
that is not found. -/
theorem bulkUpsert_order {slots : List SemesterSlot} (order other : OwnerOrder slots) :
    (perform s (bulkUpsert tx slots order)).1.toOption =
        (perform s (bulkUpsert tx slots other)).1.toOption ∧
      (perform s (bulkUpsert tx slots order)).2 = (perform s (bulkUpsert tx slots other)).2 := by
  have alike : s.ownersVisible tx order.owners = .ok () ↔ s.ownersVisible tx other.owners = .ok () :=
    order.visible_ok.trans other.visible_ok.symm
  rw [perform_bulkUpsert, perform_bulkUpsert]
  cases s.check .bulkUpsert with
  | error e => exact ⟨rfl, rfl⟩
  | ok u =>
    cases first : s.ownersVisible tx order.owners with
    | ok u =>
      rw [alike.mp first]
      exact ⟨rfl, rfl⟩
    | error e =>
      cases second : s.ownersVisible tx other.owners with
      | ok u => exact nomatch first.symm.trans (alike.mpr second)
      | error e => exact ⟨rfl, rfl⟩

theorem perform_deleteSlots (s : Store) (tx : Nat) (id : Int) :
    perform s (deleteSlots tx id) = match s.check .deleteSlots, s.pending.get? tx with
      | .error e, _ => (.error e, s)
      | .ok _, none => (.error (closedTransaction tx), s)
      | .ok _, some _ => (.ok (s.slotsOf id).length, s.addStaged tx [.deleteSlots id]) := by
  simp only [deleteSlots, perform_bind, perform_gate, perform_get, perform_stage, perform_pure]
  cases s.check .deleteSlots with
  | error e => rfl
  | ok u => cases found : s.pending.get? tx <;> simp [found]

theorem deleteSlots_ok {id : Int} {n : Nat} :
    perform s (deleteSlots tx id) = (.ok n, t) ↔
      s.check .deleteSlots = .ok () ∧ s.pending.contains tx = true ∧
        n = (s.slotsOf id).length ∧ t = s.addStaged tx [.deleteSlots id] := by
  rw [perform_deleteSlots]
  cases s.check .deleteSlots with
  | error e => simp
  | ok u => cases found : s.pending.get? tx <;> simp [Table.contains, found, eq_comm]

/-! Ending a transaction. -/

theorem perform_commit (s : Store) (tx : Nat) :
    perform s (commit tx) = match s.pending.get? tx, s.check .commit with
      | none, _ => (.error (closedTransaction tx), s)
      | some _, .error e => (.error e, s.rollback tx)
      | some ws, .ok _ =>
        match s.versionClash? ws with
        | some e => (.error e, s.rollback tx)
        | none => (.ok ws.length, (s.rollback tx).applyAll ws) := by
  simp only [commit, perform_bind, perform_get, perform_lift, perform_modify, perform_gate, staged]
  cases s.pending.get? tx with
  | none => rfl
  | some ws =>
    -- neither the gate nor the versions depend on what is pending
    have gate : (s.rollback tx).check .commit = s.check .commit := rfl
    have clash : (s.rollback tx).versionClash? ws = s.versionClash? ws := rfl
    simp only [rollback] at gate clash ⊢
    rw [gate]
    cases s.check .commit with
    | error e => rfl
    | ok u =>
      simp only
      rw [clash]
      cases s.versionClash? ws <;> rfl

theorem commit_ok {n : Nat} :
    perform s (commit tx) = (.ok n, t) ↔
      s.check .commit = .ok () ∧ ∃ ws, s.pending.get? tx = some ws ∧
        s.versionClash? ws = none ∧ n = ws.length ∧ t = (s.rollback tx).applyAll ws := by
  rw [perform_commit]
  cases s.pending.get? tx with
  | none => simp
  | some ws =>
    cases s.check .commit with
    | error e => simp
    | ok u => cases clash : s.versionClash? ws <;> simp [clash, eq_comm]

theorem commit_failed {e : StoreError} (run : perform s (commit tx) = (.error e, t)) :
    t = s.rollback tx := by
  rw [perform_commit] at run
  cases found : s.pending.get? tx with
  | none => rw [found] at run; cases run; exact (rollback_closed found).symm
  | some ws =>
    rw [found] at run
    cases checked : s.check .commit with
    | error e => rw [checked] at run; cases run; rfl
    | ok u =>
      rw [checked] at run
      cases clash : s.versionClash? ws with
      | some e => simp only [clash] at run; cases run; rfl
      | none => simp only [clash] at run; cases run

end SchoolTimetable.Store
