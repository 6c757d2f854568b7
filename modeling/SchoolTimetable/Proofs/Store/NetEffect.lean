import SchoolTimetable.Proofs.Store.Commutation

/-!
What the writes of a transaction come to when it lands. The schedule under an id is the one that
the transaction has seen there before, however it was created, changed and deleted on the way. In a
cell of a schedule there is the slot that was put there last, if the slots of the schedule were not
cleared after that; and the slots of a schedule are listed by their cells, one for each.
-/
namespace SchoolTimetable

def StagedWrite.Touches (k : Int × Cell) : StagedWrite → Prop
  | .upsertSlot x => (x.schedule, x.cell) = k
  | .deleteSlots id => id = k.1
  | _ => False

namespace Store
variable {s t : Store} {tx n : Nat} {w : StagedWrite} {ws : List StagedWrite} {k : Int × Cell}
  {x : SemesterSlot} {id : Int}

/-! Schedules. -/

/-- An open transaction sees what is found after its writes have been applied, and hence what is
found once it has been committed. -/
theorem visibleSchedule_foretells (found : s.pending.get? tx = some ws) (id : Int) :
    s.visibleSchedule tx id = .ok ((s.applyAll ws).semesters.get? id) ∧
    (s.applyAll ws).findSemester id = (do s.check .findSemester; s.visibleSchedule tx id) ∧
    ∀ n t, perform s (commit tx) = (.ok n, t) →
      t.findSemester id = (do s.check .findSemester; s.visibleSchedule tx id) := by
  have sight : s.visibleSchedule tx id = .ok ((s.applyAll ws).semesters.get? id) := by
    rw [visibleSchedule, staged_eq_ok_iff.mpr found, seeWrites_applyAll]
    rfl
  have finds : ∀ u : Store, u.check .findSemester = s.check .findSemester →
      u.semesters = (s.applyAll ws).semesters →
      u.findSemester id = (do s.check .findSemester; s.visibleSchedule tx id) := by
    intro u gate tables
    rw [findSemester, gate, tables, sight]
    rfl
  refine ⟨sight, finds _ ?_ rfl, fun n t run => ?_⟩
  · rw [applyAll_rest]
    rfl
  · obtain ⟨ended, vs, same, landed⟩ := commit_ended run
    cases found.symm.trans same
    refine finds t ?_ landed.semesters
    rw [ended.rest]
    rfl

def reworked : Store :=
  let draft : NewSemesterSchedule := ⟨"t1", "c1", .draft, .null⟩
  let slot (id : Int) (c : Cell) (t : TeacherId) : SemesterSlot := ⟨id, c, "math", t, none⟩
  afterCalls {} [.begin, .createVersioned ⟨20000, 0, 0⟩ 1 draft,
    .bulkUpsert 1 [slot 1 ⟨1, 1⟩ "ann", slot 1 ⟨1, 2⟩ "ann", slot 1 ⟨2, 1⟩ "ann"], .commit 1,
    .begin, .createVersioned ⟨20000, 1, 0⟩ 2 draft, .bulkUpsert 2 [slot 2 ⟨1, 1⟩ "ann"],
    .updateStatus 2 2 .published, .bulkUpsert 2 [slot 1 ⟨1, 1⟩ "bea"], .deleteSlots 2 1,
    .bulkUpsert 2 [slot 1 ⟨2, 1⟩ "bea", slot 1 ⟨1, 2⟩ "bea", slot 1 ⟨2, 1⟩ "cid"]]

def scrapped : Store := reworked.addStaged 2 [.deleteSchedule 1, .updateStatus 1 .published]

theorem visibleSchedule_foretells_scrapped :
    ∃ t, perform scrapped (commit 2) = (.ok 10, t) ∧ t.findSemester 1 = .ok none ∧
      (t.findSemester 2).map (Option.map (·.status)) = .ok (some .published) := by
  have staged : (scrapped.pending.get? 2).isSome = true := by decide +kernel
  have done : (perform scrapped (commit 2)).1.toOption = some 10 := by decide +kernel
  obtain ⟨ws, found⟩ := Option.isSome_iff_exists.mp staged
  cases run : perform scrapped (commit 2) with
  | mk result t =>
    rw [run] at done
    cases result with
    | error e => cases done
    | ok n =>
      cases done
      have finds := fun id => (visibleSchedule_foretells found id).2.2 10 t run
      refine ⟨t, rfl, ?_, ?_⟩
      · rw [finds 1]
        rfl
      · rw [finds 2]
        rfl

/-! Slots. -/

def LastTouch (ws : List StagedWrite) (k : Int × Cell) (w : StagedWrite) : Prop :=
  ∃ before after, ws = before ++ w :: after ∧ w.Touches k ∧ ∀ v ∈ after, ¬ v.Touches k

/-- A slot was put down under a key, and after that there was no other, and the slots of the
schedule were not cleared. -/
def LastPut (ws : List StagedWrite) (k : Int × Cell) (x : SemesterSlot) : Prop :=
  LastTouch ws k (.upsertSlot x)

theorem lastTouch_or_untouched (ws : List StagedWrite) (k : Int × Cell) :
    (∃ w, LastTouch ws k w) ∨ ∀ w ∈ ws, ¬ w.Touches k := by
  induction ws with
  | nil => exact .inr fun w member => nomatch member
  | cons v rest ih =>
    rcases ih with ⟨w, before, after, split, touches, untouched⟩ | untouched
    · exact .inl ⟨w, v :: before, after, congrArg (v :: ·) split, touches, untouched⟩
    · by_cases touches : v.Touches k
      · exact .inl ⟨v, [], rest, rfl, touches, untouched⟩
      · exact .inr (List.forall_mem_cons.mpr ⟨touches, untouched⟩)

theorem seeSlot_untouched (untouched : ¬ w.Touches k) (seen : Option SemesterSlot) :
    seeSlot k seen w = seen := by
  cases w with
  | upsertSlot x => exact if_neg untouched
  | deleteSlots id => exact if_neg (Ne.symm untouched)
  | _ => rfl

theorem seeSlot_touched (touches : w.Touches k) (seen : Option SemesterSlot) :
    seeSlot k seen w = seeSlot k none w := by
  cases w with
  | upsertSlot x =>
    have key : (x.schedule, x.cell) = k := touches
    rw [seeSlot, seeSlot, if_pos key, if_pos key]
  | deleteSlots id =>
    have key : k.1 = id := Eq.symm touches
    rw [seeSlot, seeSlot, if_pos key, if_pos key]
  | _ => cases touches

theorem applyAll_slot_untouched (s : Store) (untouched : ∀ w ∈ ws, ¬ w.Touches k) :
    (s.applyAll ws).slots.get? k = s.slots.get? k := by
  rw [seeSlots_applyAll]
  exact foldl_unfelt (fun w member => seeSlot_untouched (untouched w member)) _

theorem LastTouch.applyAll_slot (last : LastTouch ws k w) (s : Store) :
    (s.applyAll ws).slots.get? k = seeSlot k none w := by
  obtain ⟨before, after, split, touches, untouched⟩ := last
  calc (s.applyAll ws).slots.get? k
      = (((s.applyAll before).apply w).applyAll after).slots.get? k := by
        rw [split, applyAll_append]
        rfl
    _ = ((s.applyAll before).apply w).slots.get? k := applyAll_slot_untouched _ untouched
    _ = seeSlot k ((s.applyAll before).slots.get? k) w := seeSlot_apply _ w k
    _ = seeSlot k none w := seeSlot_touched touches _

theorem LastPut.applyAll_slot (last : LastPut ws k x) (s : Store) :
    (s.applyAll ws).slots.get? k = some x := by
  rw [LastTouch.applyAll_slot last]
  obtain ⟨_, _, _, key, _⟩ := last
  exact if_pos key

theorem applyAll_slot_unput (s : Store) (unput : ∀ x, ¬ LastPut ws k x) :
    (s.applyAll ws).slots.get? k = if .deleteSlots k.1 ∈ ws then none else s.slots.get? k := by
  rcases lastTouch_or_untouched ws k with ⟨w, last⟩ | untouched
  · rw [last.applyAll_slot]
    cases w with
    | upsertSlot x => exact absurd last (unput x)
    | deleteSlots id =>
      obtain ⟨before, after, split, key, _⟩ := last
      have same : id = k.1 := key
      have cleared : .deleteSlots k.1 ∈ ws := by simp [split, same]
      rw [if_pos cleared]
      exact if_pos same.symm
    | _ =>
      obtain ⟨_, _, _, touches, _⟩ := last
      cases touches
  · have kept : .deleteSlots k.1 ∉ ws := fun member => untouched _ member rfl
    rw [if_neg kept]
    exact applyAll_slot_untouched s untouched

/-! Listings. -/

/-- All slots of a schedule, each under its own cell, in the order of the days and of the slots of a
day. -/
structure SlotListing (s : Store) (id : Int) (rows : List SemesterSlot) : Prop where
  complete : ∀ c x, s.slots.get? (id, c) = some x → x ∈ rows
  own : ∀ x ∈ rows, x.schedule = id ∧ s.slots.get? (id, x.cell) = some x
  ascending : rows.Pairwise fun a b =>
    a.cell.day < b.cell.day ∨ (a.cell.day = b.cell.day ∧ a.cell.slot < b.cell.slot)
  distinct : (rows.map (·.cell)).Nodup

theorem mem_slotsOf : x ∈ s.slotsOf id ↔ ∃ c, s.slots.get? (id, c) = some x := by
  simp only [slotsOf, Table.mem_values_iff, Table.get?_filter, Option.filter_eq_some_iff]
  constructor
  · intro h
    obtain ⟨⟨owner, c⟩, found, same⟩ := h
    exact ⟨c, beq_iff_eq.mp same ▸ found⟩
  · intro h
    obtain ⟨c, found⟩ := h
    exact ⟨(id, c), found, beq_self_eq_true id⟩

theorem Drawn.slotListing (drawn : s.Drawn) (id : Int) : s.SlotListing id (s.slotsOf id) := by
  have keyed : ∀ e ∈ s.slots.entries, (e.2.schedule, e.2.cell) = e.1 := fun e member =>
    (drawn.slots e.1 e.2 (Table.get?_eq_some_iff.mpr member)).1
  have ordered := slotsOf_ordered keyed id
  refine ⟨fun c x found => mem_slotsOf.mpr ⟨c, found⟩, ?_, ?_, ?_⟩
  · intro x member
    obtain ⟨c, found⟩ := mem_slotsOf.mp member
    obtain ⟨owner, cell⟩ := Prod.mk.inj (drawn.slots _ x found).1
    exact ⟨owner, cell ▸ found⟩
  · exact ordered.imp Cell.before_iff.mp
  · exact List.pairwise_map.mpr (ordered.imp fun before => Key.before_ne before)

/-- When a transaction has landed, there is in each cell the slot that it has put there last after
it has last cleared the schedule, if there is one; else there is none, if it has cleared the
schedule; else what was there before. The slots of each schedule are then listed by their cells. -/
theorem last_slots_win (reached : s.Reachable) (found : s.pending.get? tx = some ws)
    (run : perform s (commit tx) = (.ok n, t)) :
    (∀ k x, LastPut ws k x → t.slots.get? k = some x) ∧
    (∀ k, (∀ x, ¬ LastPut ws k x) →
      t.slots.get? k = if .deleteSlots k.1 ∈ ws then none else s.slots.get? k) ∧
    ∀ id, t.check .listSlots = .ok () →
      ∃ rows, t.listSlots id = .ok rows ∧ t.SlotListing id rows := by
  obtain ⟨_, vs, same, landed⟩ := commit_ended run
  cases found.symm.trans same
  have drawn : t.Drawn := by
    have after := reached.drawn.commit tx
    rw [run] at after
    exact after
  refine ⟨fun k x last => ?_, fun k unput => ?_, fun id lists => ⟨t.slotsOf id, ?_, ?_⟩⟩
  · rw [landed.slots]
    exact last.applyAll_slot s
  · rw [landed.slots]
    exact applyAll_slot_unput s unput
  · rw [listSlots, lists]
    rfl
  · exact drawn.slotListing id

def reworkedWrites : List StagedWrite :=
  let slot (id : Int) (c : Cell) (t : TeacherId) : SemesterSlot := ⟨id, c, "math", t, none⟩
  [.createSchedule ⟨2, "t1", "c1", .draft, 2, .null, ⟨20000, 1, 0⟩⟩,
    .upsertSlot (slot 2 ⟨1, 1⟩ "ann"), .updateStatus 2 .published,
    .upsertSlot (slot 1 ⟨1, 1⟩ "bea"), .deleteSlots 1, .upsertSlot (slot 1 ⟨2, 1⟩ "bea"),
    .upsertSlot (slot 1 ⟨1, 2⟩ "bea"), .upsertSlot (slot 1 ⟨2, 1⟩ "cid")]

theorem last_slots_win_reworked :
    ∃ t, perform reworked (commit 2) = (.ok 8, t) ∧
      t.slots.get? (1, ⟨2, 1⟩) = some ⟨1, ⟨2, 1⟩, "math", "cid", none⟩ ∧
      t.slots.get? (1, ⟨1, 1⟩) = none ∧
      ∃ rows, t.listSlots 1 = .ok rows ∧ t.SlotListing 1 rows := by
  have found : reworked.pending.get? 2 = some reworkedWrites := by decide +kernel
  have fit : reworked.check .commit = .ok () := rfl
  have clear : reworked.versionClash? reworkedWrites = none := by decide +kernel
  have run : perform reworked (commit 2) = (.ok 8, (reworked.rollback 2).applyAll reworkedWrites) :=
    commit_ok.mpr ⟨fit, reworkedWrites, found, clear, rfl, rfl⟩
  obtain ⟨put, unput, lists⟩ := last_slots_win ⟨_, rfl⟩ found run
  have last : LastPut reworkedWrites (1, ⟨2, 1⟩) ⟨1, ⟨2, 1⟩, "math", "cid", none⟩ :=
    ⟨reworkedWrites.take 7, [], rfl, rfl, fun v member => nomatch member⟩
  have gone : ∀ x, ¬ LastPut reworkedWrites (1, ⟨1, 1⟩) x := by
    intro x last
    have empty : (applyAll {} reworkedWrites).slots.get? (1, ⟨1, 1⟩) = none := by decide +kernel
    rw [last.applyAll_slot] at empty
    cases empty
  exact ⟨_, run, put _ _ last, unput _ gone, lists 1 rfl⟩

end Store

end SchoolTimetable
