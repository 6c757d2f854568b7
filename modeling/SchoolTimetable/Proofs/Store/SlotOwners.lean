import SchoolTimetable.Proofs.Store.Atomicity

/-!
Slots and the schedules that they belong to, however transactions interleave. A slot is staged by
a transaction that sees its schedule then, and lands at the commit, when another transaction may
have removed the schedule: the versions are checked once more at the commit, but the schedules of
the slots are not. So what is committed stays whole exactly as long as each commit still finds the
schedules of the slots that it lands.
-/
namespace SchoolTimetable

def StoreCall.deletion? : StoreCall → Option (Nat × Int)
  | .delete tx id => some (tx, id)
  | _ => none

namespace Store
variable {s t : Store} {tx : Nat} {ws more : List StagedWrite} {id : Int} {x : SemesterSlot}

/-! The slots that are left of some writes. -/

def standing : List StagedWrite → List SemesterSlot
  | [] => []
  | .upsertSlot x :: rest =>
    if .deleteSlots x.schedule ∈ rest then standing rest else x :: standing rest
  | _ :: rest => standing rest

theorem standing_upsert (cleared : .deleteSlots x.schedule ∉ ws) :
    x ∈ standing (.upsertSlot x :: ws) := by
  rw [standing, if_neg cleared]
  exact List.mem_cons_self

theorem standing_later {w : StagedWrite} (member : x ∈ standing ws) :
    x ∈ standing (w :: ws) := by
  cases w with
  | upsertSlot y =>
    rw [standing]
    split
    · exact member
    · exact List.mem_cons_of_mem _ member
  | _ => exact member

theorem standing_split {w : StagedWrite} (member : x ∈ standing (w :: ws)) :
    (w = .upsertSlot x ∧ .deleteSlots x.schedule ∉ ws) ∨ x ∈ standing ws := by
  cases w with
  | upsertSlot y =>
    rw [standing] at member
    split at member
    · exact .inr member
    · rename_i kept
      rcases List.mem_cons.mp member with same | later
      · rw [same]
        exact .inl ⟨rfl, kept⟩
      · exact .inr later
  | _ => exact .inr member

theorem upsert_of_standing (member : x ∈ standing ws) : .upsertSlot x ∈ ws := by
  induction ws with
  | nil => cases member
  | cons w rest ih =>
    rcases standing_split member with ⟨same, _⟩ | later
    · exact same ▸ List.mem_cons_self
    · exact List.mem_cons_of_mem _ (ih later)

theorem standing_append (member : x ∈ standing (ws ++ more)) :
    (x ∈ standing ws ∧ .deleteSlots x.schedule ∉ more) ∨ x ∈ standing more := by
  induction ws with
  | nil => exact .inr member
  | cons w rest ih =>
    rcases standing_split member with ⟨same, kept⟩ | later
    · have apart := not_or.mp fun found => kept (List.mem_append.mpr found)
      exact .inl (same ▸ ⟨standing_upsert apart.1, apart.2⟩)
    · exact (ih later).imp_left fun both => ⟨standing_later both.1, both.2⟩

theorem standing_cleared (last : ws.getLast? = some (.deleteSlots id))
    (member : x ∈ standing ws) : x.schedule ≠ id := by
  obtain ⟨first, split⟩ := List.getLast?_eq_some_iff.mp last
  rw [split] at member
  rcases standing_append member with ⟨_, kept⟩ | late
  · exact fun same => kept (same ▸ List.mem_singleton_self _)
  · cases late

/-! What writes leave in the table of slots. -/

theorem applyAll_slots_source {k : Int × Cell} (found : (s.applyAll ws).slots.get? k = some x) :
    (x ∈ standing ws ∧ x.schedule = k.1) ∨
      (s.slots.get? k = some x ∧ .deleteSlots k.1 ∉ ws) := by
  induction ws generalizing s with
  | nil => exact .inr ⟨found, List.not_mem_nil⟩
  | cons w rest ih =>
    rcases ih (s := s.apply w) found with ⟨member, key⟩ | ⟨here, kept⟩
    · exact .inl ⟨standing_later member, key⟩
    · cases w with
      | upsertSlot y =>
        rcases Table.get?_insert_source here with ⟨key, new⟩ | old
        · rw [key] at kept
          rw [new, key]
          exact .inl ⟨standing_upsert kept, rfl⟩
        · exact .inr ⟨old, by simp [kept]⟩
      | deleteSlots j =>
        have stays : (s.slots.filter fun k _ => k.1 != j).get? k = some x := here
        rw [Table.get?_filter, Option.filter_eq_some_iff] at stays
        have apart : k.1 ≠ j := by simpa using stays.2
        exact .inr ⟨stays.1, by simp [kept, apart]⟩
      | _ => exact .inr ⟨here, by simp [kept]⟩

theorem slot_stays {k : Int × Cell} {y : SemesterSlot} (found : s.slots.get? k = some y)
    (kept : .deleteSlots k.1 ∉ ws) : ∃ z, (s.applyAll ws).slots.get? k = some z := by
  induction ws generalizing s y with
  | nil => exact ⟨y, found⟩
  | cons w rest ih =>
    have others := List.not_mem_of_not_mem_cons kept
    have first : ∃ z, (s.apply w).slots.get? k = some z := by
      cases w with
      | upsertSlot z =>
        by_cases same : k = (z.schedule, z.cell)
        · exact ⟨z, same ▸ Table.get?_insert_self s.slots k z⟩
        · exact ⟨y, (Table.get?_insert_of_ne s.slots z same).trans found⟩
      | deleteSlots j =>
        have apart : k.1 ≠ j := fun same => kept (same ▸ List.mem_cons_self)
        refine ⟨y, (Table.get?_filter _ s.slots k).trans ?_⟩
        rw [found]
        simp [apart]
      | _ => exact ⟨y, found⟩
    obtain ⟨z, here⟩ := first
    exact ih (s := s.apply w) here others

theorem standing_lands (member : x ∈ standing ws) :
    ∃ z, (s.applyAll ws).slots.get? (x.schedule, x.cell) = some z := by
  induction ws generalizing s with
  | nil => cases member
  | cons w rest ih =>
    rcases standing_split member with ⟨same, kept⟩ | later
    · have here : (s.apply w).slots.get? (x.schedule, x.cell) = some x := by
        rw [same]
        exact Table.get?_insert_self s.slots _ x
      exact slot_stays (s := s.apply w) here kept
    · exact ih (s := s.apply w) later

/-! Slots with an owner. -/

def SlotsOwned (s : Store) : Prop :=
  ∀ x ∈ s.slots.values, s.semesters.contains x.schedule = true

instance : DecidablePred SlotsOwned := fun s =>
  inferInstanceAs (Decidable (∀ x ∈ s.slots.values, _ = true))

/-- A transaction deletes a schedule right after it has cleared the slots of it. -/
def ClearsFirst (s : Store) (call : StoreCall) : Prop :=
  ∀ d ∈ call.deletion?, (perform s (delete d.1 d.2)).1.isOk = true →
    ((s.pending.get? d.1).getD []).getLast? = some (.deleteSlots d.2)

instance (s : Store) (call : StoreCall) : Decidable (s.ClearsFirst call) :=
  inferInstanceAs (Decidable (∀ d ∈ call.deletion?, _ = true → _ = some _))

/-- The schedules of the slots that a call lands are there when they land. -/
def LandsSeen (s : Store) (call : StoreCall) : Prop :=
  ∀ x ∈ standing (s.lands call), s.Sees (s.lands call) x.schedule

instance (s : Store) (call : StoreCall) : Decidable (s.LandsSeen call) :=
  inferInstanceAs (Decidable (∀ x ∈ standing _, Sees _ _ _))

/-- No transaction that is open after a call has staged slots of a schedule that goes with it. -/
def SparesSlots (s : Store) (call : StoreCall) : Prop :=
  ∀ ws ∈ (s.afterCall call).pending.values, ∀ x ∈ standing ws,
    .deleteSchedule x.schedule ∉ s.lands call

instance (s : Store) (call : StoreCall) : Decidable (s.SparesSlots call) :=
  inferInstanceAs (Decidable (∀ ws ∈ Table.values _, ∀ x ∈ standing ws, _ ∉ _))

/-- Each call of a run is made where `P` says that it may be. -/
def Along (P : Store → StoreCall → Prop) (s : Store) : List StoreCall → Prop
  | [] => True
  | call :: rest => P s call ∧ Along P (s.afterCall call) rest

instance decidableAlong (P : Store → StoreCall → Prop) [∀ s call, Decidable (P s call)]
    (s : Store) : (calls : List StoreCall) → Decidable (Along P s calls)
  | [] => .isTrue trivial
  | call :: rest =>
    have := decidableAlong P (s.afterCall call) rest
    inferInstanceAs (Decidable (P s call ∧ Along P (s.afterCall call) rest))

def Clear (ws : List StagedWrite) : Prop :=
  ∀ id, .deleteSchedule id ∈ ws → .deleteSlots id ∈ ws

theorem SameTables.slotsOwned (same : s.SameTables t) : t.SlotsOwned ↔ s.SlotsOwned := by
  rw [SlotsOwned, SlotsOwned, same.slots, same.semesters]

theorem applyAll_slotsOwned_iff (drawn : s.Drawn) (owned : s.SlotsOwned) (clear : Clear ws) :
    (s.applyAll ws).SlotsOwned ↔ ∀ x ∈ standing ws, s.Sees ws x.schedule := by
  have there : ∀ id, (s.applyAll ws).semesters.contains id = true ↔ s.Sees ws id := by
    intro id
    rw [Table.contains, seeWrites_applyAll, Sees]
  constructor
  · intro whole x member
    obtain ⟨y, found⟩ := standing_lands (s := s) member
    have key : y.schedule = x.schedule := by
      rcases applyAll_slots_source found with ⟨_, key⟩ | ⟨old, _⟩
      · exact key
      · exact congrArg Prod.fst (drawn.slots _ y old).1
    have sees := (there y.schedule).mp (whole y (Table.mem_values_iff.mpr ⟨_, found⟩))
    exact key ▸ sees
  · intro seen y member
    obtain ⟨k, found⟩ := Table.mem_values_iff.mp member
    rcases applyAll_slots_source found with ⟨stands, _⟩ | ⟨old, kept⟩
    · exact (there y.schedule).mpr (seen y stands)
    · have key : y.schedule = k.1 := congrArg Prod.fst (drawn.slots k y old).1
      have before := owned y (Table.mem_values_iff.mpr ⟨k, old⟩)
      have stays : .deleteSchedule y.schedule ∉ ws := fun gone =>
        kept (key ▸ clear y.schedule gone)
      exact (there y.schedule).mpr (seen_keeps before stays)

/-! What every call keeps. -/

theorem Stages.deletes {call : StoreCall} (stages : s.Stages tx ws call more)
    (member : .deleteSchedule id ∈ more) :
    call = .delete tx id ∧ (perform s (delete tx id)).1.isOk = true := by
  cases stages with
  | rows rs => simp at member
  | slots xs seen => simp at member
  | removal other done =>
    cases List.mem_singleton.mp member
    exact ⟨rfl, done⟩
  | _ => cases List.mem_singleton.mp member

theorem Stages.upserts {call : StoreCall} (stages : s.Stages tx ws call more)
    (member : .upsertSlot x ∈ more) : s.Sees ws x.schedule ∧ .deleteSchedule id ∉ more := by
  cases stages with
  | rows rs => simp at member
  | slots xs seen =>
    obtain ⟨y, listed, same⟩ := List.mem_map.mp member
    cases same
    exact ⟨seen x listed, by simp⟩
  | _ => cases List.mem_singleton.mp member

theorem ClearsFirst.cleared {call : StoreCall} (first : s.ClearsFirst call)
    (found : s.pending.get? tx = some ws) (stages : s.Stages tx ws call more)
    (member : .deleteSchedule id ∈ more) : ws.getLast? = some (.deleteSlots id) := by
  obtain ⟨asked, done⟩ := stages.deletes member
  rw [asked] at first
  have last := first (tx, id) rfl done
  rw [found] at last
  exact last

def AllClear (s : Store) : Prop := ∀ tx ws, s.pending.get? tx = some ws → Clear ws

theorem AllClear.step {call : StoreCall} (clear : s.AllClear) (first : s.ClearsFirst call) :
    (s.afterCall call).AllClear := by
  intro tx vs found id member
  rcases (afterCall_step s call).pending_source found with
    none | old | ⟨ws, more, before, stages, all⟩
  · rw [none] at member
    cases member
  · exact clear tx vs old id member
  · rw [all] at member ⊢
    rcases List.mem_append.mp member with earlier | new
    · exact List.mem_append_left _ (clear tx ws before id earlier)
    · have last := first.cleared before stages new
      exact List.mem_append_left _ (List.mem_of_getLast? last)

theorem AllClear.lands (clear : s.AllClear) (call : StoreCall) : Clear (s.lands call) := by
  rcases lands_cases s call with rows | ⟨tx, found⟩
  · intro id member
    obtain ⟨row, same⟩ := rows _ member
    cases same
  · exact clear tx _ found

/-- One call leaves every slot with an owner exactly if it lands none without. -/
theorem afterCall_slotsOwned_iff {call : StoreCall} (drawn : s.Drawn) (clear : s.AllClear)
    (owned : s.SlotsOwned) : (s.afterCall call).SlotsOwned ↔ s.LandsSeen call := by
  rw [(afterCall_lands s call).slotsOwned]
  exact applyAll_slotsOwned_iff drawn owned (clear.lands call)

def HoldsSeen (s : Store) : Prop :=
  ∀ tx ws, s.pending.get? tx = some ws → ∀ x ∈ standing ws, s.Sees ws x.schedule

theorem Stages.sees {call : StoreCall} (stages : s.Stages tx ws call more)
    (found : s.pending.get? tx = some ws) (first : s.ClearsFirst call)
    (seen : ∀ x ∈ standing ws, s.Sees ws x.schedule) :
    ∀ x ∈ standing (ws ++ more), s.Sees (ws ++ more) x.schedule := by
  intro x member
  rcases standing_append member with ⟨earlier, _⟩ | new
  · refine (seen x earlier).append fun gone => ?_
    exact standing_cleared (first.cleared found stages gone) earlier rfl
  · obtain ⟨sees, kept⟩ := stages.upserts (upsert_of_standing new)
    exact sees.append kept

theorem HoldsSeen.step {call : StoreCall} (holds : s.HoldsSeen) (first : s.ClearsFirst call)
    (spares : s.SparesSlots call) : (s.afterCall call).HoldsSeen := by
  intro tx vs found x member
  have before : s.Sees vs x.schedule := by
    rcases (afterCall_step s call).pending_source found with
      none | old | ⟨ws, more, here, stages, all⟩
    · rw [none] at member
      cases member
    · exact holds tx vs old x member
    · rw [all] at member ⊢
      exact stages.sees here first (holds tx ws here) x member
  have stays : .deleteSchedule x.schedule ∉ s.lands call :=
    spares vs (Table.mem_values_iff.mpr ⟨tx, found⟩) x member
  refine seen_mono (fun there => ?_) before
  rw [(afterCall_lands s call).semesters, seeWrites_applyAll]
  exact seen_keeps there stays

theorem HoldsSeen.landsSeen (holds : s.HoldsSeen) (call : StoreCall) : s.LandsSeen call := by
  rcases lands_cases s call with rows | ⟨tx, found⟩
  · intro x member
    obtain ⟨row, same⟩ := rows _ (upsert_of_standing member)
    cases same
  · exact holds tx _ found

theorem afterCalls_slotsOwned_iff (drawn : s.Drawn) (clear : s.AllClear) (owned : s.SlotsOwned)
    {calls : List StoreCall} (first : Along ClearsFirst s calls) :
    (∀ pre, pre <+: calls → (s.afterCalls pre).SlotsOwned) ↔ Along LandsSeen s calls := by
  induction calls generalizing s with
  | nil =>
    refine ⟨fun _ => trivial, fun _ pre short => ?_⟩
    rw [List.prefix_nil.mp short]
    exact owned
  | cons call rest ih =>
    have one : (s.afterCall call).SlotsOwned ↔ s.LandsSeen call :=
      afterCall_slotsOwned_iff drawn clear owned
    have later := ih (drawn.step call) (clear.step first.1)
    constructor
    · intro whole
      have now : (s.afterCall call).SlotsOwned := whole [call] ⟨rest, rfl⟩
      refine ⟨one.mp now, (later now first.2).mp fun pre short => ?_⟩
      exact whole (call :: pre) ((List.prefix_cons_inj call).mpr short)
    · intro lands pre short
      cases pre with
      | nil => exact owned
      | cons other pre =>
        obtain ⟨same, short⟩ := List.cons_prefix_cons.mp short
        rw [same]
        exact (later (one.mpr lands.1) first.2).mpr lands.2 pre short

theorem landsSeen_of_sparesSlots (holds : s.HoldsSeen) {calls : List StoreCall}
    (first : Along ClearsFirst s calls) (spares : Along SparesSlots s calls) :
    Along LandsSeen s calls := by
  induction calls generalizing s with
  | nil => trivial
  | cons call rest ih =>
    exact ⟨holds.landsSeen call, ih (holds.step first.1 spares.1) first.2 spares.2⟩

/-- However transactions interleave: if each clears the slots of a schedule right before it
deletes it, then every committed slot has an owner all along exactly if the schedules of the slots
that land are there whenever some do; and they are, if no schedule is removed for which another
open transaction has staged slots. -/
theorem slots_owned_iff {calls : List StoreCall} (first : Along ClearsFirst {} calls) :
    ((∀ pre, pre <+: calls → (afterCalls {} pre).SlotsOwned) ↔ Along LandsSeen {} calls) ∧
      (Along SparesSlots {} calls → ∀ pre, pre <+: calls → (afterCalls {} pre).SlotsOwned) := by
  have clear : AllClear {} := fun _ _ found => nomatch found
  have holds : HoldsSeen {} := fun _ _ found => nomatch found
  have law := afterCalls_slotsOwned_iff Drawn.start clear (fun _ member => nomatch member) first
  exact ⟨law, fun spares => law.mpr (landsSeen_of_sparesSlots holds first spares)⟩

def contested (commits : List StoreCall) : List StoreCall :=
  [.begin, .createVersioned ⟨20000, 0, 0⟩ 1 ⟨"t1", "c1", .draft, .null⟩, .commit 1, .begin, .begin,
    .bulkUpsert 2 [⟨1, ⟨1, 1⟩, "math", "ann", none⟩], .deleteSlots 3 1, .delete 3 1] ++ commits

theorem slots_owned_iff_contested :
    (∀ pre, pre <+: contested [.commit 2, .commit 3] → (afterCalls {} pre).SlotsOwned) ∧
      ¬ ∀ pre, pre <+: contested [.commit 3, .commit 2] → (afterCalls {} pre).SlotsOwned := by
  have inTurn : Along ClearsFirst {} (contested [.commit 2, .commit 3]) := by decide +kernel
  have crossing : Along ClearsFirst {} (contested [.commit 3, .commit 2]) := by decide +kernel
  constructor
  · exact (slots_owned_iff inTurn).2 (by decide +kernel)
  · exact fun whole => absurd ((slots_owned_iff crossing).1.mp whole) (by decide +kernel)

/-- The last commit succeeds, and leaves a slot of a schedule that is gone. -/
theorem contested_orphan :
    Along ClearsFirst {} (contested [.commit 3, .commit 2]) ∧
      (perform (afterCalls {} (contested [.commit 3])) (commit 2)).1.toOption = some 1 ∧
      (afterCalls {} (contested [.commit 3, .commit 2])).slots.keys = [(1, ⟨1, 1⟩)] ∧
      (afterCalls {} (contested [.commit 3, .commit 2])).semesters.keys = [] ∧
      ¬ (afterCalls {} (contested [.commit 3, .commit 2])).SlotsOwned := by
  decide +kernel

end Store

end SchoolTimetable
