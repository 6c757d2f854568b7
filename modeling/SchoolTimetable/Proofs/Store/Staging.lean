import SchoolTimetable.Proofs.Store.Updates

/-!
What a transaction leaves alone. Until it is committed, its operations touch its own staged writes
and the counters only, so rolling it back gives the tables and the other transactions as they
were; committing it gives the tables with its writes applied.
-/
namespace SchoolTimetable.Store
variable {s t u : Store} {tx : Nat}

structure SameTables (s t : Store) : Prop where
  semesters : t.semesters = s.semesters
  slots : t.slots = s.slots
  daily : t.daily = s.daily

namespace SameTables

theorem refl (s : Store) : SameTables s s := ⟨rfl, rfl, rfl⟩

theorem trans (first : SameTables s t) (second : SameTables t u) : SameTables s u where
  semesters := second.semesters.trans first.semesters
  slots := second.slots.trans first.slots
  daily := second.daily.trans first.daily

theorem apply (same : SameTables s t) (w : StagedWrite) :
    SameTables (s.apply w) (t.apply w) := by
  cases w <;>
    exact ⟨by simp only [Store.apply, putDaily, same.semesters],
      by simp only [Store.apply, putDaily, same.slots],
      by simp only [Store.apply, putDaily, same.daily]⟩

theorem applyAll (same : SameTables s t) (ws : List StagedWrite) :
    SameTables (s.applyAll ws) (t.applyAll ws) := by
  induction ws generalizing s t with
  | nil => exact same
  | cons w rest ih => exact ih (same.apply w)

end SameTables

structure Staging (tx : Nat) (s t : Store) : Prop extends SameTables s t where
  others : ∀ other, other ≠ tx → t.pending.get? other = s.pending.get? other

namespace Staging

theorem refl (s : Store) : Staging tx s s := ⟨SameTables.refl s, fun _ _ => rfl⟩

theorem trans (first : Staging tx s t) (second : Staging tx t u) : Staging tx s u where
  toSameTables := first.toSameTables.trans second.toSameTables
  others := by
    intro other apart
    rw [second.others other apart, first.others other apart]

theorem opened (s : Store) : Staging s.nextTransaction s s.opened where
  toSameTables := ⟨rfl, rfl, rfl⟩
  others := by
    intro other apart
    exact Table.get?_insert_of_ne s.pending [] apart

theorem addStaged (s : Store) (ws : List StagedWrite) : Staging tx s (s.addStaged tx ws) where
  toSameTables := ⟨rfl, rfl, rfl⟩
  others := by
    intro other apart
    exact addStaged_get_of_ne s apart ws

theorem withRows (s : Store) (rs : List NewDailyLesson) : Staging tx s (s.withRows tx rs) :=
  trans (t := { s with nextDaily := s.nextDaily + rs.length })
    ⟨⟨rfl, rfl, rfl⟩, fun _ _ => rfl⟩ (addStaged _ _)

theorem withSchedule (s : Store) (x : SemesterSchedule) : Staging tx s (s.withSchedule tx x) :=
  trans (t := { s with nextSemester := s.nextSemester + 1 })
    ⟨⟨rfl, rfl, rfl⟩, fun _ _ => rfl⟩ (addStaged _ _)

theorem rollback (staging : Staging tx s t) : Staging tx s (t.rollback tx) where
  toSameTables := ⟨staging.semesters, staging.slots, staging.daily⟩
  others := by
    intro other apart
    rw [← staging.others other apart]
    exact Table.get?_erase_of_ne t.pending apart

theorem pending_eq (staging : Staging tx s t) (before : s.pending.get? tx = none)
    (after : t.pending.get? tx = none) : t.pending = s.pending := by
  apply Table.ext
  intro k
  by_cases here : k = tx
  · rw [here, before, after]
  · exact staging.others k here

theorem rollback_pending (staging : Staging tx s t) (new : s.pending.get? tx = none) :
    (t.rollback tx).pending = s.pending :=
  staging.rollback.pending_eq new (Table.get?_erase_self _ _)

end Staging

/-! The operations of an open transaction. -/

theorem bulkInsert_staging (tx : Nat) (rs : List NewDailyLesson) :
    Keeps (Staging tx) (bulkInsert tx rs) := by
  intro s
  rw [perform_bulkInsert]
  split
  · exact Staging.refl s
  · exact Staging.refl s
  · exact Staging.withRows s rs

theorem createVersioned_staging (now : Timestamp) (tx : Nat) (x : NewSemesterSchedule) :
    Keeps (Staging tx) (createVersioned now tx x) := by
  intro s
  rw [perform_createVersioned]
  split
  · exact Staging.refl s
  · exact Staging.refl s
  · exact Staging.withSchedule s _

theorem updateStatus_staging (tx : Nat) (id : Int) (status : ScheduleStatus) :
    Keeps (Staging tx) (updateStatus tx id status) := by
  intro s
  rw [perform_updateStatus]
  split
  · exact Staging.refl s
  · exact Staging.refl s
  · exact Staging.refl s
  · exact Staging.addStaged s _

theorem delete_staging (tx : Nat) (id : Int) : Keeps (Staging tx) (delete tx id) := by
  intro s
  rw [perform_delete]
  split
  · exact Staging.refl s
  · exact Staging.refl s
  · exact Staging.refl s
  · exact Staging.addStaged s _

theorem bulkUpsert_staging (tx : Nat) (slots : List SemesterSlot) (order : OwnerOrder slots) :
    Keeps (Staging tx) (bulkUpsert tx slots order) := by
  intro s
  rw [perform_bulkUpsert]
  split
  · exact Staging.refl s
  · exact Staging.refl s
  · exact Staging.refl s
  · exact Staging.addStaged s _

theorem deleteSlots_staging (tx : Nat) (id : Int) : Keeps (Staging tx) (deleteSlots tx id) := by
  intro s
  rw [perform_deleteSlots]
  split
  · exact Staging.refl s
  · exact Staging.refl s
  · exact Staging.addStaged s _

structure KeptWithin (tx : Nat) (R : Store → Store → Prop) : Prop where
  refl : ∀ s, R s s
  trans : ∀ {s t u}, R s t → R t u → R s u
  bulkInsert : ∀ rs, Keeps R (bulkInsert tx rs)
  createVersioned : ∀ now x, Keeps R (createVersioned now tx x)
  updateStatus : ∀ id status, Keeps R (updateStatus tx id status)
  delete : ∀ id, Keeps R (delete tx id)
  bulkUpsert : ∀ slots order, Keeps R (bulkUpsert tx slots order)
  deleteSlots : ∀ id, Keeps R (deleteSlots tx id)

theorem staging_keptWithin (tx : Nat) : KeptWithin tx (Staging tx) where
  refl := Staging.refl
  trans := Staging.trans
  bulkInsert := bulkInsert_staging tx
  createVersioned := fun now x => createVersioned_staging now tx x
  updateStatus := updateStatus_staging tx
  delete := delete_staging tx
  bulkUpsert := bulkUpsert_staging tx
  deleteSlots := deleteSlots_staging tx

/-! Applying staged writes. -/

theorem applyAll_append (s : Store) (ws more : List StagedWrite) :
    s.applyAll (ws ++ more) = (s.applyAll ws).applyAll more := List.foldl_append

theorem applyAll_upserts (s : Store) (xs : List SemesterSlot) :
    s.applyAll (xs.map .upsertSlot) =
      { s with slots := s.slots.insertAll (fun x => (x.schedule, x.cell)) xs } := by
  induction xs generalizing s with
  | nil => rfl
  | cons x rest ih => exact ih (s.apply (.upsertSlot x))

theorem applyAll_inserts (s : Store) (rows : List DailyLesson) :
    s.applyAll (rows.map .insertDaily) =
      { s with daily := s.daily.insertAll (·.id) rows } := by
  induction rows generalizing s with
  | nil => rfl
  | cons r rest ih => exact ih (s.putDaily r)

theorem applyAll_pending (s : Store) (ws : List StagedWrite) :
    (s.applyAll ws).pending = s.pending := by
  induction ws generalizing s with
  | nil => rfl
  | cons w rest ih =>
    have first : (s.apply w).pending = s.pending := by cases w <;> rfl
    exact (ih (s.apply w)).trans first

/-! The ids under which new rows are staged. -/

theorem mem_numbered {next : Int} {rs : List NewDailyLesson} {row : DailyLesson}
    (member : row ∈ numbered next rs) :
    next ≤ row.id ∧ row.id < next + rs.length ∧ ∃ r ∈ rs, row = r.withId row.id := by
  induction rs generalizing next with
  | nil => cases member
  | cons r rest ih =>
    rw [List.length_cons]
    rcases List.mem_cons.mp member with here | there
    · subst here
      have id : (r.withId next).id = next := rfl
      exact ⟨by omega, by omega, r, List.mem_cons_self, by rw [id]⟩
    · obtain ⟨least, most, r', source, same⟩ := ih there
      exact ⟨by omega, by omega, r', List.mem_cons_of_mem _ source, same⟩

theorem mem_numbered_of_mem {rs : List NewDailyLesson} {r : NewDailyLesson} (member : r ∈ rs)
    (next : Int) : ∃ id, r.withId id ∈ numbered next rs := by
  induction rs generalizing next with
  | nil => cases member
  | cons r' rest ih =>
    rcases List.mem_cons.mp member with here | there
    · exact ⟨next, here ▸ List.mem_cons_self⟩
    · obtain ⟨id, listed⟩ := ih there (next + 1)
      exact ⟨id, List.mem_cons_of_mem _ listed⟩

theorem numbered_ids_nodup (next : Int) (rs : List NewDailyLesson) :
    ((numbered next rs).map (·.id)).Nodup := by
  induction rs generalizing next with
  | nil => exact List.nodup_nil
  | cons r rest ih =>
    refine List.nodup_cons.mpr ⟨?_, ih (next + 1)⟩
    intro member
    obtain ⟨row, source, same⟩ := List.mem_map.mp member
    have least := (mem_numbered source).1
    have id : row.id = next := same
    omega

theorem numbered_cells (next : Int) (rs : List NewDailyLesson) :
    (numbered next rs).map (·.cell) = rs.map (·.cell) := by
  induction rs generalizing next with
  | nil => rfl
  | cons r rest ih =>
    rw [numbered, List.map_cons, List.map_cons, ih]
    rfl

end SchoolTimetable.Store
