import SchoolTimetable.Proofs.Store.Runs

/-!
What one call can do to a store. An operation of an open transaction stages writes in it; a call
that ends a transaction drops its writes or applies them; and a single row may come into the daily
table. Nothing else touches the tables or what is staged, so whatever every call is to keep is
proved by going through these cases.
-/
namespace SchoolTimetable.Store
variable {s t : Store} {tx : Nat} {ws more : List StagedWrite} {id : Int}

def Sees (s : Store) (ws : List StagedWrite) (id : Int) : Prop :=
  (ws.foldl (seeWrite id) (s.semesters.get? id)).isSome = true

instance (s : Store) (ws : List StagedWrite) (id : Int) : Decidable (s.Sees ws id) :=
  inferInstanceAs (Decidable (_ = true))

theorem seeWrite_apply (s : Store) (w : StagedWrite) (id : Int) :
    (s.apply w).semesters.get? id = seeWrite id (s.semesters.get? id) w := by
  cases w with
  | createSchedule x =>
    by_cases same : x.id = id
    · simp only [apply, seeWrite, same, if_true, Table.get?_insert_self]
    · simp only [apply, seeWrite, same, if_false]
      exact Table.get?_insert_of_ne s.semesters x (Ne.symm same)
  | updateStatus k status =>
    by_cases same : k = id
    · simp only [apply, seeWrite, same, if_true, Table.get?_modify_self]
    · simp only [apply, seeWrite, same, if_false]
      exact Table.get?_modify_of_ne s.semesters _ (Ne.symm same)
  | deleteSchedule k =>
    by_cases same : k = id
    · simp only [apply, seeWrite, same, if_true, Table.get?_erase_self]
    · simp only [apply, seeWrite, same, if_false]
      exact Table.get?_erase_of_ne s.semesters (Ne.symm same)
  | _ => rfl

/-- What a transaction sees under an id is what its writes, once they are applied, leave there. -/
theorem seeWrites_applyAll (s : Store) (ws : List StagedWrite) (id : Int) :
    (s.applyAll ws).semesters.get? id = ws.foldl (seeWrite id) (s.semesters.get? id) := by
  induction ws generalizing s with
  | nil => rfl
  | cons w rest ih =>
    rw [List.foldl_cons, ← seeWrite_apply]
    exact ih (s.apply w)

theorem seeWrite_isSome {seen : Option SemesterSchedule} {w : StagedWrite} :
    (seeWrite id seen w).isSome = true ↔ w ≠ .deleteSchedule id ∧
      (seen.isSome = true ∨ ∃ y, w = .createSchedule y ∧ y.id = id) := by
  cases w with
  | createSchedule y => by_cases same : y.id = id <;> simp [seeWrite, same]
  | updateStatus k status => by_cases same : k = id <;> simp [seeWrite, same]
  | deleteSchedule k => by_cases same : k = id <;> simp [seeWrite, same]
  | _ => simp [seeWrite]

theorem seen_mono {old new : Option SemesterSchedule}
    (more : old.isSome = true → new.isSome = true)
    (seen : (ws.foldl (seeWrite id) old).isSome = true) :
    (ws.foldl (seeWrite id) new).isSome = true := by
  induction ws generalizing old new with
  | nil => exact more seen
  | cons w rest ih =>
    refine ih (fun first => ?_) seen
    obtain ⟨kept, source⟩ := seeWrite_isSome.mp first
    exact seeWrite_isSome.mpr ⟨kept, source.imp_left more⟩

theorem seen_keeps {old : Option SemesterSchedule} (there : old.isSome = true)
    (kept : .deleteSchedule id ∉ ws) : (ws.foldl (seeWrite id) old).isSome = true := by
  induction ws generalizing old with
  | nil => exact there
  | cons w rest ih =>
    have others := List.not_mem_of_not_mem_cons kept
    refine ih (seeWrite_isSome.mpr ⟨fun same => ?_, .inl there⟩) others
    exact kept (same ▸ List.mem_cons_self)

theorem Sees.append (sees : s.Sees ws id) (kept : .deleteSchedule id ∉ more) :
    s.Sees (ws ++ more) id := by
  rw [Sees, List.foldl_append]
  exact seen_keeps sees kept

inductive Stages (s : Store) (tx : Nat) (ws : List StagedWrite) :
    StoreCall → List StagedWrite → Prop where
  | rows (rs : List NewDailyLesson) :
    Stages s tx ws (.bulkInsert tx rs) ((numbered s.nextDaily rs).map .insertDaily)
  | schedule (now : Timestamp) (x : NewSemesterSchedule) :
    Stages s tx ws (.createVersioned now tx x) [.createSchedule (s.nextVersion now ws x)]
  | status (id : Int) (status : ScheduleStatus) (seen : s.Sees ws id) :
    Stages s tx ws (.updateStatus tx id status) [.updateStatus id status]
  | removal (id : Int) (done : (perform s (delete tx id)).1.isOk = true) :
    Stages s tx ws (.delete tx id) [.deleteSchedule id]
  | slots (xs : List SemesterSlot) {order : OwnerOrder xs} (seen : ∀ x ∈ xs, s.Sees ws x.schedule) :
    Stages s tx ws (.bulkUpsert tx xs order) (xs.map .upsertSlot)
  | clearing (id : Int) : Stages s tx ws (.deleteSlots tx id) [.deleteSlots id]

/-- What a call can do to the tables and to the open transactions. -/
inductive Step (s : Store) (call : StoreCall) (t : Store) : Prop where
  | idle (tables : s.SameTables t) (pending : t.pending = s.pending)
  | opened (same : t = s.opened)
  | staged (tx : Nat) (ws more : List StagedWrite) (found : s.pending.get? tx = some ws)
      (stages : s.Stages tx ws call more) (tables : s.SameTables t)
      (pending : t.pending = s.pending.insert tx (ws ++ more))
  | ended (tx : Nat) (same : t = s.rollback tx)
  | landed (tx : Nat) (ws : List StagedWrite) (asked : call = .commit tx)
      (found : s.pending.get? tx = some ws) (fit : s.check .commit = .ok ())
      (clear : s.versionClash? ws = none) (same : t = (s.rollback tx).applyAll ws)
  | added (r : NewDailyLesson) (asked : call = .insert r ∨ call = .addDaily r)
      (same : t = (s.addDaily r).1)

theorem Step.quiet {call : StoreCall} (s : Store) : Step s call s := .idle (.refl s) rfl

theorem addStaged_pending (found : s.pending.get? tx = some ws) (more : List StagedWrite) :
    (s.addStaged tx more).pending = s.pending.insert tx (ws ++ more) := by
  rw [addStaged, found]
  rfl

theorem sees_iff (found : s.pending.get? tx = some ws) :
    s.Sees ws id ↔ ∃ x, s.visibleSchedule tx id = .ok (some x) := by
  rw [visibleSchedule, staged_eq_ok_iff.mpr found, Sees, Option.isSome_iff_exists]
  constructor
  · intro h
    obtain ⟨x, seen⟩ := h
    exact ⟨x, congrArg Except.ok seen⟩
  · intro h
    obtain ⟨x, seen⟩ := h
    exact ⟨x, Except.ok.inj seen⟩

theorem Step.onVisible {call : StoreCall} {x : SemesterSchedule} {w : StagedWrite}
    (seen : s.visibleSchedule tx id = .ok (some x))
    (stages : ∀ ws, s.Sees ws id → s.Stages tx ws call [w]) :
    Step s call (s.addStaged tx [w]) := by
  obtain ⟨ws, found, _⟩ := visibleSchedule_open seen
  have sees := (sees_iff found).mpr ⟨x, seen⟩
  exact .staged tx ws [w] found (stages ws sees) ⟨rfl, rfl, rfl⟩ (addStaged_pending found [w])

theorem commit_step (s : Store) (tx : Nat) : Step s (.commit tx) (perform s (commit tx)).2 := by
  cases run : perform s (commit tx) with
  | mk result t =>
    cases result with
    | error e => exact .ended tx (commit_failed run)
    | ok n =>
      obtain ⟨fit, ws, found, clear, _, same⟩ := commit_ok.mp run
      exact .landed tx ws rfl found fit clear same

/-- Every call, whatever comes of it, does one of these things. -/
theorem afterCall_step (s : Store) (call : StoreCall) : Step s call (s.afterCall call) := by
  cases call with
  | addDaily r => exact .added r (.inr rfl) rfl
  | failOn name =>
    simp only [afterCall, failOn]
    split <;> exact .idle ⟨rfl, rfl, rfl⟩ rfl
  | begin =>
    simp only [afterCall, perform_begin]
    split
    · exact .opened rfl
    · exact .quiet s
  | commit tx => exact commit_step s tx
  | rollback tx => exact .ended tx rfl
  | insert r =>
    simp only [afterCall, perform_insert]
    split
    · exact .added r (.inl rfl) rfl
    · exact .quiet s
  | bulkInsert tx rs =>
    simp only [afterCall, perform_bulkInsert]
    split
    · exact .quiet s
    · exact .quiet s
    · rename_i ws _ found
      refine .staged tx ws _ found (.rows rs) ⟨rfl, rfl, rfl⟩ ?_
      exact addStaged_pending (s := { s with nextDaily := s.nextDaily + rs.length }) found _
  | createVersioned now tx x =>
    simp only [afterCall, perform_createVersioned]
    split
    · exact .quiet s
    · exact .quiet s
    · rename_i ws _ found
      refine .staged tx ws _ found (.schedule now x) ⟨rfl, rfl, rfl⟩ ?_
      exact addStaged_pending (s := { s with nextSemester := s.nextSemester + 1 }) found _
  | updateStatus tx id status =>
    simp only [afterCall, perform_updateStatus]
    split
    · exact .quiet s
    · exact .quiet s
    · exact .quiet s
    · rename_i seen
      exact .onVisible seen fun ws sees => .status id status sees
  | delete tx id =>
    simp only [afterCall, perform_delete]
    split
    · exact .quiet s
    · exact .quiet s
    · exact .quiet s
    · rename_i fit seen
      refine .onVisible seen fun ws sees => .removal id ?_
      rw [perform_delete, fit, seen]
      rfl
  | bulkUpsert tx xs order =>
    simp only [afterCall, perform_bulkUpsert]
    split
    · exact .quiet s
    · exact .quiet s
    · exact .quiet s
    · rename_i ws _ owners found
      have seen : ∀ x ∈ xs, s.Sees ws x.schedule := fun x member =>
        (sees_iff found).mpr (order.visible_ok.mp owners x member)
      exact .staged tx ws _ found (.slots xs seen) ⟨rfl, rfl, rfl⟩ (addStaged_pending found _)
  | deleteSlots tx id =>
    simp only [afterCall, perform_deleteSlots]
    split
    · exact .quiet s
    · exact .quiet s
    · rename_i ws _ found
      exact .staged tx ws _ found (.clearing id) ⟨rfl, rfl, rfl⟩ (addStaged_pending found _)
  | _ => exact .idle ⟨rfl, rfl, rfl⟩ rfl

theorem Step.pending_source {call : StoreCall} {vs : List StagedWrite} (did : Step s call t)
    (found : t.pending.get? tx = some vs) :
    vs = [] ∨ s.pending.get? tx = some vs ∨
      ∃ ws more, s.pending.get? tx = some ws ∧ s.Stages tx ws call more ∧ vs = ws ++ more := by
  cases did with
  | idle tables pending => exact .inr (.inl (pending ▸ found))
  | opened same =>
    rw [same] at found
    rcases Table.get?_insert_source found with ⟨_, new⟩ | old
    · exact .inl new
    · exact .inr (.inl old)
  | staged other ws more before stages tables pending =>
    rw [pending] at found
    rcases Table.get?_insert_source found with ⟨same, new⟩ | old
    · exact .inr (.inr ⟨ws, more, same ▸ before, same ▸ stages, new⟩)
    · exact .inr (.inl old)
  | ended other same =>
    rw [same] at found
    exact .inr (.inl (Table.get?_erase_source found))
  | landed other ws asked before fit clear same =>
    rw [same, applyAll_pending] at found
    exact .inr (.inl (Table.get?_erase_source found))
  | added r asked same =>
    rw [same] at found
    exact .inr (.inl found)

end SchoolTimetable.Store
