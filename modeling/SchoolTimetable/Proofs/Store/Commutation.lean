import SchoolTimetable.Proofs.Store.Atomicity
import SchoolTimetable.Proofs.Store.Interleaving
import SchoolTimetable.Proofs.Store.Isolation

/-!
Commits of independent transactions commute. A staged write is felt only under the schedule that it
names, or under the id of its daily row, so writes that have neither in common may be applied in
either order. Daily ids need no looking after: in a store that some calls have made, no two
transactions have staged rows under one id.
-/
namespace SchoolTimetable

namespace StagedWrite

def schedule? : StagedWrite → Option Int
  | .createSchedule x => some x.id
  | .updateStatus id _ | .deleteSchedule id | .deleteSlots id => some id
  | .upsertSlot x => some x.schedule
  | .insertDaily _ => none

def row? : StagedWrite → Option Int
  | .insertDaily r => some r.id
  | _ => none

end StagedWrite

namespace Store
variable {s t : Store} {tx a b : Nat} {w : StagedWrite} {ws vs more : List StagedWrite}

def schedulesOf (ws : List StagedWrite) : List Int := ws.filterMap StagedWrite.schedule?

def rowsOf (ws : List StagedWrite) : List Int := ws.filterMap StagedWrite.row?

/-! Where a write is felt. -/

def seeSlot (k : Int × Cell) (seen : Option SemesterSlot) : StagedWrite → Option SemesterSlot
  | .upsertSlot x => if (x.schedule, x.cell) = k then some x else seen
  | .deleteSlots id => if k.1 = id then none else seen
  | _ => seen

def seeRow (id : Int) (seen : Option DailyLesson) : StagedWrite → Option DailyLesson
  | .insertDaily r => if r.id = id then some r else seen
  | _ => seen

theorem seeSlot_apply (s : Store) (w : StagedWrite) (k : Int × Cell) :
    (s.apply w).slots.get? k = seeSlot k (s.slots.get? k) w := by
  cases w with
  | upsertSlot x =>
    by_cases same : (x.schedule, x.cell) = k
    · simp only [apply, seeSlot, same, if_true, Table.get?_insert_self]
    · simp only [apply, seeSlot, same, if_false]
      exact Table.get?_insert_of_ne s.slots x (Ne.symm same)
  | deleteSlots id =>
    simp only [apply, seeSlot, Table.get?_filter]
    by_cases same : k.1 = id
    · cases s.slots.get? k <;> simp [same]
    · cases s.slots.get? k <;> simp [same]
  | _ => rfl

theorem seeRow_apply (s : Store) (w : StagedWrite) (id : Int) :
    (s.apply w).daily.get? id = seeRow id (s.daily.get? id) w := by
  cases w with
  | insertDaily r =>
    by_cases same : r.id = id
    · simp only [apply, putDaily, seeRow, same, if_true, Table.get?_insert_self]
    · simp only [apply, putDaily, seeRow, same, if_false]
      exact Table.get?_insert_of_ne s.daily r (Ne.symm same)
  | _ => rfl

theorem seeSlots_applyAll (s : Store) (ws : List StagedWrite) (k : Int × Cell) :
    (s.applyAll ws).slots.get? k = ws.foldl (seeSlot k) (s.slots.get? k) :=
  (List.foldl_hom (fun u : Store => u.slots.get? k) fun u w => (seeSlot_apply u w k).symm).symm

theorem seeRows_applyAll (s : Store) (ws : List StagedWrite) (id : Int) :
    (s.applyAll ws).daily.get? id = ws.foldl (seeRow id) (s.daily.get? id) :=
  (List.foldl_hom (fun u : Store => u.daily.get? id) fun u w => (seeRow_apply u w id).symm).symm

theorem seeWrite_elsewhere {id : Int} (apart : w.schedule? ≠ some id)
    (seen : Option SemesterSchedule) : seeWrite id seen w = seen := by
  cases w with
  | createSchedule x => exact if_neg fun same => apart (congrArg some same)
  | updateStatus k status => exact if_neg fun same => apart (congrArg some same)
  | deleteSchedule k => exact if_neg fun same => apart (congrArg some same)
  | _ => rfl

theorem seeSlot_elsewhere {k : Int × Cell} (apart : w.schedule? ≠ some k.1)
    (seen : Option SemesterSlot) : seeSlot k seen w = seen := by
  cases w with
  | upsertSlot x => exact if_neg fun same => apart (congrArg some (congrArg Prod.fst same))
  | deleteSlots id => exact if_neg fun same => apart (congrArg some same.symm)
  | _ => rfl

theorem seeRow_elsewhere {id : Int} (apart : w.row? ≠ some id) (seen : Option DailyLesson) :
    seeRow id seen w = seen := by
  cases w with
  | insertDaily r => exact if_neg fun same => apart (congrArg some same)
  | _ => rfl

/-! Two lists of writes. -/

theorem foldl_unfelt {α β : Type} {see : β → α → β} {xs : List α}
    (unfelt : ∀ x ∈ xs, ∀ seen, see seen x = seen) (seen : β) : xs.foldl see seen = seen := by
  induction xs with
  | nil => rfl
  | cons x rest ih =>
    rw [List.foldl_cons, unfelt x List.mem_cons_self]
    exact ih fun y member => unfelt y (List.mem_cons_of_mem _ member)

theorem foldl_swap {α β : Type} {see : β → α → β} {xs ys : List α}
    (either : (∀ x ∈ xs, ∀ seen, see seen x = seen) ∨ ∀ y ∈ ys, ∀ seen, see seen y = seen)
    (seen : β) : ys.foldl see (xs.foldl see seen) = xs.foldl see (ys.foldl see seen) := by
  rcases either with first | second
  · rw [foldl_unfelt first, foldl_unfelt first]
  · rw [foldl_unfelt second, foldl_unfelt second]

theorem unfelt_either {name? : StagedWrite → Option Int} {β : Type} {see : β → StagedWrite → β}
    (apart : ∀ id ∈ ws.filterMap name?, id ∉ vs.filterMap name?) (id : Int)
    (elsewhere : ∀ w, name? w ≠ some id → ∀ seen, see seen w = seen) :
    (∀ w ∈ ws, ∀ seen, see seen w = seen) ∨ ∀ v ∈ vs, ∀ seen, see seen v = seen := by
  have unnamed : ∀ us : List StagedWrite, id ∉ us.filterMap name? →
      ∀ u ∈ us, ∀ seen, see seen u = seen := fun us absent u member =>
    elsewhere u fun named => absent (List.mem_filterMap.mpr ⟨u, member, named⟩)
  by_cases named : id ∈ ws.filterMap name?
  · exact .inr (unnamed vs (apart id named))
  · exact .inl (unnamed ws named)

/-- Writes that have no schedule and no daily id in common commute. -/
theorem applyAll_comm (s : Store) (schedules : ∀ id ∈ schedulesOf ws, id ∉ schedulesOf vs)
    (rows : ∀ id ∈ rowsOf ws, id ∉ rowsOf vs) :
    ((s.applyAll ws).applyAll vs).SameTables ((s.applyAll vs).applyAll ws) where
  semesters := by
    apply Table.ext
    intro id
    simp only [seeWrites_applyAll]
    exact (foldl_swap (unfelt_either schedules id fun w apart => seeWrite_elsewhere apart) _).symm
  slots := by
    apply Table.ext
    intro k
    simp only [seeSlots_applyAll]
    exact (foldl_swap (unfelt_either schedules k.1 fun w apart => seeSlot_elsewhere apart) _).symm
  daily := by
    apply Table.ext
    intro id
    simp only [seeRows_applyAll]
    exact (foldl_swap (unfelt_either rows id fun w apart => seeRow_elsewhere apart) _).symm

/-! Daily ids. -/

def RowsApart (s : Store) : Prop :=
  ∀ a ws b vs, s.pending.get? a = some ws → s.pending.get? b = some vs → a ≠ b →
    ∀ id ∈ rowsOf ws, id ∉ rowsOf vs

theorem mem_rowsOf {id : Int} : id ∈ rowsOf ws ↔ ∃ r, .insertDaily r ∈ ws ∧ r.id = id := by
  rw [rowsOf, List.mem_filterMap]
  constructor
  · intro h
    obtain ⟨w, member, named⟩ := h
    cases w with
    | insertDaily r => exact ⟨r, member, Option.some.inj named⟩
    | _ => cases named
  · intro h
    obtain ⟨r, member, same⟩ := h
    exact ⟨_, member, congrArg some same⟩

theorem Drawn.rows_below (drawn : s.Drawn) (found : s.pending.get? tx = some ws) {id : Int}
    (member : id ∈ rowsOf ws) : id < s.nextDaily := by
  obtain ⟨r, staged, same⟩ := mem_rowsOf.mp member
  have below : r.id < s.nextDaily := drawn.staged tx ws found _ staged
  omega

theorem Stages.transaction {call : StoreCall} (stages : s.Stages tx ws call more) :
    call.transaction? = some tx := by
  cases stages <;> rfl

theorem Stages.rows_new {call : StoreCall} (stages : s.Stages tx ws call more) {id : Int}
    (member : id ∈ rowsOf more) : s.nextDaily ≤ id := by
  obtain ⟨r, staged, same⟩ := mem_rowsOf.mp member
  cases stages with
  | rows rs =>
    obtain ⟨row, listed, made⟩ := List.mem_map.mp staged
    cases made
    exact same ▸ (mem_numbered listed).1
  | slots xs seen =>
    obtain ⟨x, _, made⟩ := List.mem_map.mp staged
    cases made
  | _ => exact absurd (List.mem_singleton.mp staged) nofun

theorem RowsApart.step {call : StoreCall} (apart : s.RowsApart) (drawn : s.Drawn)
    (did : Step s call t) : t.RowsApart := by
  -- an id was staged before the call, or it is a new one that the call draws for its transaction
  have source : ∀ k us, t.pending.get? k = some us → ∀ id ∈ rowsOf us,
      (∃ ws, s.pending.get? k = some ws ∧ id ∈ rowsOf ws) ∨
        (call.transaction? = some k ∧ s.nextDaily ≤ id) := by
    intro k us found id member
    rcases did.pending_source found with none | old | ⟨ws, more, old, stages, all⟩
    · rw [none] at member
      cases member
    · exact .inl ⟨us, old, member⟩
    · rw [all, rowsOf, List.filterMap_append] at member
      rcases List.mem_append.mp member with before | new
      · exact .inl ⟨ws, old, before⟩
      · exact .inr ⟨stages.transaction, stages.rows_new new⟩
  intro a us b us' found found' distinct id member member'
  rcases source a us found id member with ⟨ws, old, listed⟩ | ⟨through, new⟩
  · rcases source b us' found' id member' with ⟨ws', old', listed'⟩ | ⟨_, new⟩
    · exact apart a ws b ws' old old' distinct id listed listed'
    · have below := drawn.rows_below old listed
      omega
  · rcases source b us' found' id member' with ⟨ws', old', listed'⟩ | ⟨through', _⟩
    · have below := drawn.rows_below old' listed'
      omega
    · exact distinct (Option.some.inj (through.symm.trans through'))

theorem Reachable.rowsApart (reached : s.Reachable) : s.RowsApart := by
  have kept : s.Drawn ∧ s.RowsApart := by
    refine Leads.induction (P := fun s => s.Drawn ∧ s.RowsApart) ?_ reached ⟨Drawn.start, ?_⟩
    · intro s call both
      exact ⟨both.1.step call, both.2.step both.1 (afterCall_step s call)⟩
    · intro a ws b vs found
      cases found
  exact kept.2

/-! Two commits. -/

def bothLanded (s : Store) (a b : Nat) (ws vs : List StagedWrite) : Store :=
  (((s.rollback a).applyAll ws).rollback b).applyAll vs

theorem commit_twice (fit : s.check .commit = .ok ()) (distinct : a ≠ b)
    (openA : s.pending.get? a = some ws) (openB : s.pending.get? b = some vs)
    (versions : ∀ x ∈ created ws, ∀ y ∈ created vs, ¬ x.SameVersion y)
    (freeA : s.versionClash? ws = none) (freeB : s.versionClash? vs = none) :
    ∃ t, perform s (commit a) = (.ok ws.length, t) ∧
      perform t (commit b) = (.ok vs.length, s.bothLanded a b ws vs) := by
  have still : ((s.rollback a).applyAll ws).check .commit = .ok () := by
    rw [applyAll_rest]
    exact fit
  have openStill : ((s.rollback a).applyAll ws).pending.get? b = some vs := by
    rw [applyAll_pending, ← openB]
    exact Table.get?_erase_of_ne s.pending distinct.symm
  have freeStill : ((s.rollback a).applyAll ws).versionClash? vs = none := by
    refine versionClash?_eq_none_iff.mpr fun y member z landed same => ?_
    obtain ⟨id, found⟩ := Table.mem_values_iff.mp landed
    rcases landed_source found with ⟨x, old, kept⟩ | ⟨x, creates, _, kept⟩
    · exact versionClash?_eq_none_iff.mp freeB y member x (Table.mem_values_iff.mpr ⟨id, old⟩)
        (kept.trans same)
    · exact versions x creates y member (kept.trans same)
  exact ⟨_, commit_ok.mpr ⟨fit, ws, openA, freeA, rfl, rfl⟩,
    commit_ok.mpr ⟨still, vs, openStill, freeStill, rfl, rfl⟩⟩

theorem bothLanded_sameTables (s : Store) (a b : Nat) (ws vs : List StagedWrite) :
    ((s.applyAll ws).applyAll vs).SameTables (s.bothLanded a b ws vs) := by
  have first : (s.applyAll ws).SameTables ((s.rollback a).applyAll ws) :=
    SameTables.applyAll (s := s) (t := s.rollback a) ⟨rfl, rfl, rfl⟩ ws
  exact SameTables.applyAll (s := s.applyAll ws) (t := ((s.rollback a).applyAll ws).rollback b)
    ⟨first.semesters, first.slots, first.daily⟩ vs

theorem bothLanded_pending (s : Store) (a b : Nat) (ws vs : List StagedWrite) :
    (s.bothLanded a b ws vs).pending = (s.pending.erase a).erase b := by
  rw [bothLanded, applyAll_pending, rollback, applyAll_pending, rollback]

theorem bothLanded_rest (s : Store) (a b : Nat) (ws vs : List StagedWrite) :
    s.bothLanded a b ws vs = { s with
      semesters := (s.bothLanded a b ws vs).semesters, slots := (s.bothLanded a b ws vs).slots
      daily := (s.bothLanded a b ws vs).daily
      pending := (s.bothLanded a b ws vs).pending } := by
  have first := ((Ended.rollback a s).applyAll ws).rest
  have second := ((Ended.rollback b ((s.rollback a).applyAll ws)).applyAll vs).rest
  exact second.trans (congrArg (fun t : Store => { t with
    semesters := (s.bothLanded a b ws vs).semesters, slots := (s.bothLanded a b ws vs).slots
    daily := (s.bothLanded a b ws vs).daily
    pending := (s.bothLanded a b ws vs).pending }) first)

theorem bothLanded_comm (s : Store) (a b : Nat)
    (schedules : ∀ id ∈ schedulesOf ws, id ∉ schedulesOf vs)
    (rows : ∀ id ∈ rowsOf ws, id ∉ rowsOf vs) :
    s.bothLanded a b ws vs = s.bothLanded b a vs ws := by
  have one := bothLanded_sameTables s a b ws vs
  have other := bothLanded_sameTables s b a vs ws
  have same := s.applyAll_comm schedules rows
  rw [bothLanded_rest s a b, bothLanded_rest s b a, bothLanded_pending, bothLanded_pending,
    s.pending.erase_comm, one.semesters, one.slots, one.daily, other.semesters, other.slots,
    other.daily, same.semesters, same.slots, same.daily]

/-- Two transactions that touch different schedules and create different versions, none of them
taken, both land in either order, with the same store at the end. -/
theorem commits_commute (reached : s.Reachable) (healthy : s.healthy = true)
    (unfailing : Operation.commit ∉ s.failing) (distinct : a ≠ b)
    (openA : s.pending.get? a = some ws) (openB : s.pending.get? b = some vs)
    (schedules : ∀ id ∈ schedulesOf ws, id ∉ schedulesOf vs)
    (versions : ∀ x ∈ created ws, ∀ y ∈ created vs, ¬ x.SameVersion y)
    (free : ∀ x ∈ created ws ++ created vs, ∀ y ∈ s.semesters.values, ¬ y.SameVersion x) :
    ∃ t t' u, perform s (commit a) = (.ok ws.length, t) ∧
      perform t (commit b) = (.ok vs.length, u) ∧
      perform s (commit b) = (.ok vs.length, t') ∧
      perform t' (commit a) = (.ok ws.length, u) := by
  have fit : s.check .commit = .ok () := by simp [check, healthy, unfailing]
  have freeA : s.versionClash? ws = none := versionClash?_eq_none_iff.mpr
    fun x member => free x (List.mem_append_left _ member)
  have freeB : s.versionClash? vs = none := versionClash?_eq_none_iff.mpr
    fun x member => free x (List.mem_append_right _ member)
  have versions' : ∀ y ∈ created vs, ∀ x ∈ created ws, ¬ y.SameVersion x :=
    fun y member x member' same => versions x member' y member same.symm
  have rows := reached.rowsApart a ws b vs openA openB distinct
  obtain ⟨t, first, second⟩ := commit_twice fit distinct openA openB versions freeA freeB
  obtain ⟨t', first', second'⟩ := commit_twice fit distinct.symm openB openA versions' freeB freeA
  rw [← bothLanded_comm s a b schedules rows] at second'
  exact ⟨t, t', _, first, second, first', second'⟩

def sideBySide : List StoreCall :=
  let now : Timestamp := ⟨20000, 0, 0⟩
  let draft (classId : ClassId) : NewSemesterSchedule := ⟨"t1", classId, .draft, .null⟩
  let slot (id : Int) : SemesterSlot := ⟨id, ⟨1, 1⟩, "math", "ann", none⟩
  [.begin, .createVersioned now 1 (draft "c2"), .bulkUpsert 1 [slot 1], .commit 1,
    .begin, .begin, .bulkInsert 3 [⟨"t1", "c2", "math", "ann", ⟨2, 1⟩, none⟩],
    .createVersioned now 2 (draft "c1"), .bulkUpsert 2 [slot 2], .updateStatus 2 2 .published,
    .bulkInsert 2 [⟨"t1", "c1", "math", "ann", ⟨1, 1⟩, none⟩], .deleteSlots 3 1, .delete 3 1]

def publishesOne : List StagedWrite :=
  [.createSchedule ⟨2, "t1", "c1", .draft, 1, .null, ⟨20000, 0, 0⟩⟩,
    .upsertSlot ⟨2, ⟨1, 1⟩, "math", "ann", none⟩, .updateStatus 2 .published,
    .insertDaily ⟨2, "t1", "c1", "math", "ann", ⟨1, 1⟩, none⟩]

def withdrawsOther : List StagedWrite :=
  [.insertDaily ⟨1, "t1", "c2", "math", "ann", ⟨2, 1⟩, none⟩, .deleteSlots 1, .deleteSchedule 1]

theorem commits_commute_side_by_side :
    ∃ t t' u, perform (afterCalls {} sideBySide) (commit 2) = (.ok 4, t) ∧
      perform t (commit 3) = (.ok 3, u) ∧
      perform (afterCalls {} sideBySide) (commit 3) = (.ok 3, t') ∧
      perform t' (commit 2) = (.ok 4, u) ∧
      u.semesters.keys = [2] ∧ u.daily.keys = [1, 2] := by
  have openA : (afterCalls {} sideBySide).pending.get? 2 = some publishesOne := by decide +kernel
  have openB : (afterCalls {} sideBySide).pending.get? 3 = some withdrawsOther := by
    decide +kernel
  have schedules : ∀ id ∈ schedulesOf publishesOne, id ∉ schedulesOf withdrawsOther := by decide
  have versions : ∀ x ∈ created publishesOne, ∀ y ∈ created withdrawsOther,
      ¬ x.SameVersion y := fun x _ y member => nomatch member
  have free : ∀ x ∈ created publishesOne ++ created withdrawsOther,
      ∀ y ∈ (afterCalls {} sideBySide).semesters.values, ¬ y.SameVersion x := by
    have untaken : ∀ x ∈ created publishesOne ++ created withdrawsOther,
        (afterCalls {} sideBySide).versionTaken x = false := by decide +kernel
    intro x member y committed same
    have taken := versionTaken_iff.mpr ⟨y, committed, same⟩
    rw [untaken x member] at taken
    cases taken
  obtain ⟨t, t', u, first, second, first', second'⟩ := commits_commute ⟨sideBySide, rfl⟩
    (by decide +kernel) (by decide +kernel) (by decide) openA openB schedules versions free
  have middle : (afterCalls {} sideBySide).afterCall (.commit 2) = t := congrArg Prod.snd first
  have last : t.afterCall (.commit 3) = u := congrArg Prod.snd second
  have semesters : u.semesters.keys = [2] := by
    rw [← last, ← middle]
    decide +kernel
  have daily : u.daily.keys = [1, 2] := by
    rw [← last, ← middle]
    decide +kernel
  exact ⟨t, t', u, first, second, first', second', semesters, daily⟩

end Store

end SchoolTimetable
