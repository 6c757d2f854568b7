import SchoolTimetable.Proofs.Session.Permanence
import SchoolTimetable.Proofs.Session.Scores
import SchoolTimetable.Proofs.Store.Versions

/-!
How the tables hang together. Slots belong to schedules, a schedule has a slot in every cell of the
grid that its metadata name, the slots of a published one are taught, versions grow with the ids,
and no proposal is kept twice. Calls of a session with one store keep all that, from empty tables
on, as long as proposals come from planning and have ids of their own.
-/
namespace SchoolTimetable

namespace SemesterSchedule

def remembered? (x : SemesterSchedule) (name : String) : Option Json :=
  match x.metadata with
  | .obj fields => Json.field? fields name
  | _ => none

end SemesterSchedule

namespace Store
variable {s t : Store} {p : Proposal} {now : Timestamp} {publish : Bool}

/-- The slots of a schedule fill the grid that its metadata name, each cell once. -/
def Fills (s : Store) (id : Int) (x : SemesterSchedule) : Prop :=
  ∃ days slots, x.remembered? "days" = some (.arr (days.map .nat)) ∧
    x.remembered? "time_slots_per_day" = some (.nat slots) ∧ (gridCells days slots).Nodup ∧
    ((s.slotsOf id).map (·.cell)).Perm (gridCells days slots)

def Taught (s : Store) (id : Int) (x : SemesterSchedule) : Prop :=
  ∀ y ∈ s.slotsOf id, ∃ k, s.daily.get? k =
    some ⟨k, x.term, x.classId, y.subject, y.teacher, y.cell, y.room⟩

structure Consistent (s : Store) : Prop where
  owned : ∀ k y, s.slots.get? k = some y →
    (y.schedule, y.cell) = k ∧ ∃ x, s.semesters.get? y.schedule = some x
  filled : ∀ id x, s.semesters.get? id = some x → s.Fills id x
  taught : ∀ id x, s.semesters.get? id = some x → x.status = .published → s.Taught id x
  versions : s.VersionsGrow
  sources : ∀ i x j y, s.semesters.get? i = some x → s.semesters.get? j = some y →
    x.remembered? "proposal_id" = y.remembered? "proposal_id" → i = j

def Unused (s : Store) (source : String) : Prop :=
  ∀ id x, s.semesters.get? id = some x → x.remembered? "proposal_id" ≠ some (.str source)

theorem Consistent.start (semesters : s.semesters = ∅) (slots : s.slots = ∅) : s.Consistent := by
  have none : ∀ id x, s.semesters.get? id ≠ some x := by
    intro id x found
    rw [semesters] at found
    cases found
  refine ⟨?_, ?_, ?_, ?_, ?_⟩
  · intro k y found
    rw [slots] at found
    cases found
  · exact fun id x found => absurd found (none id x)
  · exact fun id x found => absurd found (none id x)
  · exact fun i x _ _ found => absurd found (none i x)
  · exact fun i x _ _ found => absurd found (none i x)

theorem Consistent.shrink (consistent : s.Consistent)
    (old : ∀ id x, t.semesters.get? id = some x →
      s.semesters.get? id = some x ∧ t.slotsOf id = s.slotsOf id)
    (owned : ∀ k y, t.slots.get? k = some y →
      s.slots.get? k = some y ∧ t.semesters.get? k.1 = s.semesters.get? k.1)
    (daily : s.KeepsDaily t) : t.Consistent where
  owned := by
    intro k y found
    obtain ⟨before, same⟩ := owned k y found
    obtain ⟨key, x, owner⟩ := consistent.owned k y before
    have first : k.1 = y.schedule := congrArg Prod.fst key.symm
    exact ⟨key, x, first ▸ same.trans (first ▸ owner)⟩
  filled := by
    intro id x found
    obtain ⟨before, same⟩ := old id x found
    rw [Fills, same]
    exact consistent.filled id x before
  taught := by
    intro id x found published y listed
    obtain ⟨before, same⟩ := old id x found
    obtain ⟨k, row⟩ := consistent.taught id x before published y (same ▸ listed)
    exact ⟨k, daily k _ row⟩
  versions := fun i x j y first second =>
    consistent.versions i x j y (old i x first).1 (old j y second).1
  sources := fun i x j y first second =>
    consistent.sources i x j y (old i x first).1 (old j y second).1

theorem SameTables.consistent (same : SameTables s t) (consistent : s.Consistent) :
    t.Consistent := by
  refine consistent.shrink ?_ ?_ same.keepsDaily
  · intro id x found
    exact ⟨same.semesters ▸ found, (same.sameSchedule id).slots⟩
  · intro k y found
    exact ⟨same.slots ▸ found, congrArg (·.get? k.1) same.semesters⟩

theorem Consistent.addDaily (consistent : s.Consistent) (drawn : s.Drawn) (r : NewDailyLesson) :
    (s.addDaily r).1.Consistent :=
  consistent.shrink (fun _ _ found => ⟨found, rfl⟩) (fun _ _ found => ⟨found, rfl⟩)
    (addDaily_keepsDaily drawn r)

theorem Consistent.removed (consistent : s.Consistent) (gone : Int) :
    (s.applyAll [.deleteSlots gone, .deleteSchedule gone]).Consistent := by
  refine consistent.shrink ?_ ?_ fun _ _ found => found
  · intro id x found
    have apart : id ≠ gone := by
      intro same
      rw [same] at found
      exact nomatch (Table.get?_erase_self s.semesters gone).symm.trans found
    exact ⟨Table.get?_erase_source found, (removed_sameSchedule s apart).slots⟩
  · intro k y found
    have passes := (Table.mem_entries_filter.mp (Table.get?_eq_some_iff.mp found)).2
    have apart : k.1 ≠ gone := bne_iff_ne.mp passes
    exact ⟨Table.get?_filter_source found, Table.get?_erase_of_ne s.semesters apart⟩

namespace Kept

theorem source (kept : s.Kept t p now publish) {id : Int} {x : SemesterSchedule}
    (found : t.semesters.get? id = some x) :
    (id = s.nextSemester ∧ x = p.record s now publish) ∨ s.semesters.get? id = some x := by
  rw [kept.semesters] at found
  exact Table.get?_insert_source found

theorem fills (kept : s.Kept t p now publish) (drawn : s.Drawn) (filled : p.FillsGrid)
    (days : p.days.Nodup) : t.Fills s.nextSemester (p.record s now publish) := by
  have grid := gridCells_nodup days p.slotsPerDay
  have slots := (kept.toFiled.listed drawn (filled.nodup_iff.mpr grid)).map (·.cell)
  rw [Proposal.semesterSlots, List.map_map] at slots
  exact ⟨p.days, p.slotsPerDay, rfl, rfl, grid, slots.trans filled⟩

theorem taught (kept : s.Kept t p now true) (drawn : s.Drawn)
    (distinct : (p.lessons.map (·.cell)).Nodup) :
    t.Taught s.nextSemester (p.record s now true) := by
  intro y listed
  have member := (kept.toFiled.listed drawn distinct).mem_iff.mp listed
  obtain ⟨l, given, same⟩ := List.mem_map.mp member
  have source : NewDailyLesson.ofLesson p.term p.classId l ∈
      p.lessons.map (.ofLesson p.term p.classId) := List.mem_map_of_mem given
  obtain ⟨k, row⟩ := mem_numbered_of_mem source s.nextDaily
  have rows := (kept.gained drawn distinct).published rfl
  have entry := rows.mem_iff.mpr (List.mem_append_left _ (List.mem_map_of_mem row))
  rw [← same]
  exact ⟨k, Table.get?_eq_some_iff.mpr entry⟩

theorem old (kept : s.Kept t p now publish) (drawn : s.Drawn) {id : Int} {x : SemesterSchedule}
    (found : s.semesters.get? id = some x) : id < s.nextSemester ∧ SameSchedule id s t := by
  have below := (drawn.semesters id x found).2
  exact ⟨below, kept.toFiled.sameSchedule (by omega)⟩

theorem owned (kept : s.Kept t p now publish) (before : s.Consistent) (drawn : s.Drawn)
    {k : Int × Cell} {y : SemesterSlot} (found : t.slots.get? k = some y) :
    (y.schedule, y.cell) = k ∧ ∃ x, t.semesters.get? y.schedule = some x := by
  have member := Table.get?_eq_some_iff.mp found
  refine ⟨kept.toFiled.keyed drawn (k, y) member, ?_⟩
  rw [kept.slots] at member
  rcases Table.mem_entries_insertAll member with new | old
  · rw [Proposal.semesterSlots_schedule new.1, kept.semesters]
    exact ⟨_, Table.get?_insert_self _ _ _⟩
  · obtain ⟨_, x, owner⟩ := before.owned k y (Table.get?_eq_some_iff.mpr old)
    exact ⟨x, (kept.old drawn owner).2.record.trans owner⟩

theorem newest {id : Int} {x : SemesterSchedule} (found : s.semesters.get? id = some x)
    (term : x.term = p.term) (classId : x.classId = p.classId) :
    x.version < (p.record s now publish).version := by
  have member : x ∈ s.semestersOf p.term p.classId :=
    mem_semestersOf.mpr ⟨⟨id, found⟩, term, classId⟩
  have most := le_maxVersion member
  exact Nat.lt_succ_of_le most

theorem versionsGrow (kept : s.Kept t p now publish) (before : s.VersionsGrow)
    (drawn : s.Drawn) : t.VersionsGrow := by
  intro i x j y first second term classId less
  rcases kept.source second with ⟨here, new⟩ | old
  · rcases kept.source first with ⟨here', _⟩ | old'
    · omega
    · rw [new] at term classId ⊢
      exact newest old' term classId
  · rcases kept.source first with ⟨here', _⟩ | old'
    · have below := (kept.old drawn old).1
      omega
    · exact before i x j y old' old term classId less

/-- Keeping a whole timetable that was never kept before leaves the tables consistent. -/
theorem consistent (kept : s.Kept t p now publish) (before : s.Consistent) (drawn : s.Drawn)
    (filled : p.FillsGrid) (days : p.days.Nodup) (unused : s.Unused p.id) : t.Consistent where
  owned := fun _ _ => kept.owned before drawn
  filled := by
    intro id x found
    rcases kept.source found with ⟨here, new⟩ | old
    · rw [here, new]
      exact kept.fills drawn filled days
    · rw [Fills, (kept.old drawn old).2.slots]
      exact before.filled id x old
  taught := by
    intro id x found published
    rcases kept.source found with ⟨here, new⟩ | old
    · rw [here, new]
      cases publish with
      | false =>
        rw [new] at published
        cases published
      | true =>
        exact kept.taught drawn (filled.nodup_iff.mpr (gridCells_nodup days p.slotsPerDay))
    · intro y listed
      rw [(kept.old drawn old).2.slots] at listed
      obtain ⟨k, row⟩ := before.taught id x old published y listed
      exact ⟨k, kept.keepsDaily drawn k _ row⟩
  versions := kept.versionsGrow before.versions drawn
  sources := by
    intro i x j y first second same
    rcases kept.source first with ⟨here, new⟩ | old
    · rcases kept.source second with ⟨here', _⟩ | old'
      · rw [here, here']
      · rw [new] at same
        exact absurd same.symm (unused j y old')
    · rcases kept.source second with ⟨_, new'⟩ | old'
      · rw [new'] at same
        exact absurd same (unused i x old)
      · exact before.sources i x j y old old' same

theorem unused (kept : s.Kept t p now publish) {source : String} (before : s.Unused source)
    (apart : source ≠ p.id) : t.Unused source := by
  intro id x found
  rcases kept.source found with ⟨_, new⟩ | old
  · rw [new]
    intro same
    have ids : Json.str p.id = Json.str source := Option.some.inj same
    exact apart (Json.str.inj ids).symm
  · exact before id x old

end Kept

theorem Unused.shrink {source : String} (before : s.Unused source)
    (old : ∀ id x, t.semesters.get? id = some x → s.semesters.get? id = some x) :
    t.Unused source := fun id x found => before id x (old id x found)

end Store

namespace Proposal

structure Keepable (p : Proposal) : Prop where
  fills : p.isSavable = true → p.FillsGrid
  days : p.days.Nodup

theorem planned_keepable {s : Session} {r : GenerateRequest} {b : PlanBasis}
    (based : r.Based s.main s.feed b) (id : String) (now : Timestamp) :
    (r.toProposal b ((Service.planned s r b).outcome r.loads) id now).Keepable where
  fills := (Service.planned_perfectOrShort based rfl).fills.mp
  days := by
    change b.days.Nodup
    rw [based.days]
    exact (Weekday.normalize_sorted r.days).imp fun less => Nat.ne_of_lt less

theorem Generated.keepable {p : Proposal} (generated : p.Generated) : p.Keepable := by
  obtain ⟨s, r, b, id, now, based, made⟩ := generated.planned
  rw [made]
  exact planned_keepable based id now

end Proposal

theorem Service.perform_listSemesters (s : Session) {q : SemesterQuery}
    (term : Text.blank q.term = false) (classId : Text.blank q.classId = false) :
    perform s (listSemesters q) =
      ((s.main.listSemesters q.term q.classId).mapError .internal, s) := by
  have named : ¬ (Text.blank q.term || Text.blank q.classId) = true := by
    rw [term, classId]
    exact Bool.false_ne_true
  rw [listSemesters, perform_unless, if_neg named, perform_bind_of_ok _ (perform_get s)]
  rfl

namespace Session
variable {s t : Session} {call : ServiceCall} {later : List String}

/-- What a run keeps: the tables are consistent, the cached proposals come from planning and were
never kept, and the ids of those that are planned later are new. -/
structure Orderly (s : Session) (later : List String) : Prop where
  tables : s.main.Consistent
  cached : ∀ id p, s.proposals.entries.get? id = some p →
    p.id = id ∧ p.Keepable ∧ s.main.Unused id
  fresh : ∀ id ∈ later, s.proposals.entries.get? id = none ∧ s.main.Unused id
  distinct : later.Nodup

namespace Orderly

theorem rest {sooner : List String} (orderly : s.Orderly (sooner ++ later)) :
    s.Orderly later where
  tables := orderly.tables
  cached := orderly.cached
  fresh := fun id member => orderly.fresh id (List.mem_append_right sooner member)
  distinct := (List.nodup_append.mp orderly.distinct).2.1

theorem shrink (orderly : s.Orderly later) (tables : t.main.Consistent)
    (cache : s.proposals.Shrinks t.proposals)
    (unused : ∀ id, (t.proposals.entries.get? id).isSome ∨ id ∈ later → s.main.Unused id →
      t.main.Unused id) : t.Orderly later where
  tables := tables
  cached := by
    intro id p found
    obtain ⟨key, keepable, before⟩ := orderly.cached id p (cache id p found)
    exact ⟨key, keepable, unused id (Or.inl (found ▸ rfl)) before⟩
  fresh := by
    intro id member
    obtain ⟨none, before⟩ := orderly.fresh id member
    refine ⟨?_, unused id (Or.inr member) before⟩
    cases found : t.proposals.entries.get? id with
    | none => rfl
    | some p => exact nomatch none.symm.trans (cache id p found)
  distinct := orderly.distinct

theorem plan {id : String} {r : GenerateRequest} {b : PlanBasis} {now : Timestamp}
    (orderly : s.Orderly (id :: later)) (based : r.Based s.main s.feed b)
    (tables : s.main.SameTables t.main)
    (cache : t.proposals =
      s.proposals.save (r.toProposal b ((Service.planned s r b).outcome r.loads) id now)) :
    t.Orderly later := by
  have whole : s.Orderly ([id] ++ later) := orderly
  have rest := whole.rest
  have unused : ∀ source, s.main.Unused source → t.main.Unused source :=
    fun source before => before.shrink fun id x found => tables.semesters ▸ found
  refine ⟨tables.consistent rest.tables, ?_, ?_, rest.distinct⟩
  · intro other p found
    rw [cache] at found
    rcases ProposalCache.save_get? found with ⟨here, same⟩ | old
    · rw [same, here]
      exact ⟨rfl, Proposal.planned_keepable based id now,
        unused id (orderly.fresh id List.mem_cons_self).2⟩
    · obtain ⟨key, keepable, before⟩ := orderly.cached other p old
      exact ⟨key, keepable, unused other before⟩
  · intro other member
    obtain ⟨none, before⟩ := rest.fresh other member
    refine ⟨?_, unused other before⟩
    cases found : t.proposals.entries.get? other with
    | none => rfl
    | some p =>
      rw [cache] at found
      rcases ProposalCache.save_get? found with ⟨here, _⟩ | old
      · have known : other = id := here
        exact absurd (known ▸ member) (List.nodup_cons.mp orderly.distinct).1
      · exact nomatch none.symm.trans old

theorem keep {p : Proposal} {now : Timestamp} {publish : Bool} (orderly : s.Orderly later)
    (drawn : s.main.Drawn) (cached : s.Caches p) (savable : p.isSavable = true)
    (kept : s.main.Kept t.main p now publish)
    (cache : t.proposals = (s.proposals.delete p.id).1) : t.Orderly later := by
  obtain ⟨key, found⟩ := cached
  obtain ⟨same, keepable, unused⟩ := orderly.cached key p found
  subst same
  have tables :=
    kept.consistent orderly.tables drawn (keepable.fills savable) keepable.days unused
  have shrinks := ProposalCache.shrinks_delete s.proposals p.id
  rw [← cache] at shrinks
  refine orderly.shrink tables shrinks fun id which before => kept.unused before ?_
  intro same
  rcases which with still | member
  · have gone : (s.proposals.delete p.id).1.entries.get? p.id = none :=
      Table.get?_erase_self _ _
    rw [cache, same, gone] at still
    cases still
  · rw [same] at member
    exact nomatch (orderly.fresh p.id member).1.symm.trans found

theorem step (orderly : s.Orderly (s.plans call ++ later)) (single : s.replica = none)
    (drawn : s.main.Drawn) (did : Step call s t) : t.Orderly later := by
  have rest := orderly.rest
  cases did with
  | quiet tables cache =>
    refine rest.shrink (tables.consistent rest.tables) cache fun id _ before => ?_
    exact before.shrink fun id x found => tables.semesters ▸ found
  | planned b r id now asked based tables cache =>
    rw [asked] at orderly
    exact orderly.plan (feed_single single ▸ based) tables cache
  | kept p now publish cached savable kept clear cache =>
    exact rest.keep drawn cached savable kept cache
  | removed gone x asked found draft tables cache =>
    refine rest.shrink (tables.consistent (rest.tables.removed gone)) (.of_eq cache)
      fun id _ before => before.shrink fun id x found => ?_
    rw [tables.semesters] at found
    exact Table.get?_erase_source found
  | created term classId l clear added cache =>
    refine rest.shrink ?_ (.of_eq cache) fun id _ before => before.shrink fun id x found => ?_
    · rw [added]
      exact rest.tables.addDaily drawn _
    · rw [added] at found
      exact found

end Orderly

theorem afterCalls_orderly (single : s.replica = none) (drawn : s.main.Drawn)
    (calls : List ServiceCall) (orderly : s.Orderly (s.plannedIds calls)) :
    (s.afterCalls calls).Orderly [] := by
  induction calls generalizing s with
  | nil => exact orderly
  | cons call rest ih =>
    obtain ⟨still, did⟩ := afterCall_step single call
    exact ih still ((afterCall_settles single call).drawn drawn) (orderly.step single drawn did)

/-- From empty tables on, with one store for everything and proposals that come from planning under
ids of their own, every run keeps the tables consistent and leaves no transaction open; and a
listing of a class puts its schedules in strictly descending order. -/
theorem afterCalls_consistent (s : Session) (single : s.replica = none)
    (stored : s.main.Reachable) (semesters : s.main.semesters = ∅) (slots : s.main.slots = ∅)
    (closed : s.main.pending = ∅)
    (cached : ∀ id p, s.proposals.entries.get? id = some p → p.id = id ∧ p.Generated)
    (calls : List ServiceCall) (distinct : (s.plannedIds calls).Nodup)
    (fresh : ∀ id ∈ s.plannedIds calls, s.proposals.entries.get? id = none) :
    (s.afterCalls calls).main.Consistent ∧ (s.afterCalls calls).main.pending = ∅ ∧
    ∀ q : SemesterQuery, Text.blank q.term = false → Text.blank q.classId = false →
      (s.afterCalls calls).main.check .listSemesters = .ok () →
      ∃ l, perform (s.afterCalls calls) (Service.listSemesters q) = (.ok l, s.afterCalls calls) ∧
        l.Perm ((s.afterCalls calls).main.semestersOf q.term q.classId) ∧
        l.Pairwise fun a b => b.id < a.id ∧ b.version < a.version := by
  have unused : ∀ source, s.main.Unused source := by
    intro source id x found
    rw [semesters] at found
    cases found
  have start : s.Orderly (s.plannedIds calls) := by
    refine ⟨.start semesters slots, ?_, fun id member => ⟨fresh id member, unused id⟩, distinct⟩
    intro id p found
    obtain ⟨key, generated⟩ := cached id p found
    exact ⟨key, generated.keepable, unused id⟩
  have settles := afterCalls_settles single calls
  have tables := (afterCalls_orderly single stored.drawn calls start).tables
  refine ⟨tables, (settles.pending stored.drawn).trans closed, fun q term classId fit => ?_⟩
  obtain ⟨l, listed, perm, descending⟩ := Store.listSemesters_descending
    (settles.drawn stored.drawn) tables.versions fit q.term q.classId
  refine ⟨l, ?_, perm, descending⟩
  rw [Service.perform_listSemesters _ term classId, listed]
  rfl

def thirdWeek : List ServiceCall :=
  firstWeek ++ [.deleteSemester 2,
    .generate "p3" ⟨20000, 4, 0⟩
      ⟨"t1", "c1", 1, [5, 7], [⟨"math", "ann", 2, 0, [], none⟩], none, none⟩,
    .save ⟨20000, 5, 0⟩ ⟨"p2", true⟩, .failOn "update_status", .save ⟨20000, 6, 0⟩ ⟨"p3", true⟩,
    .save ⟨20000, 7, 0⟩ ⟨"p3", false⟩]

theorem afterCalls_consistent_weeks :
    (smallSchool.afterCalls thirdWeek).main.Consistent ∧
      (smallSchool.afterCalls thirdWeek).main.pending = ∅ ∧
      ∃ l, perform (smallSchool.afterCalls thirdWeek) (Service.listSemesters ⟨"t1", "c1"⟩) =
          (.ok l, smallSchool.afterCalls thirdWeek) ∧
        l.map (fun x => (x.id, x.version)) = [(4, 2), (1, 1)] := by
  have planned : smallSchool.plannedIds thirdWeek = ["p1", "p2", "p3"] := by decide +kernel
  have distinct : (smallSchool.plannedIds thirdWeek).Nodup := by
    rw [planned]
    decide
  obtain ⟨tables, closed, lists⟩ := afterCalls_consistent smallSchool rfl ⟨_, rfl⟩ rfl rfl rfl
    (fun _ _ found => nomatch found) thirdWeek distinct fun _ _ => rfl
  obtain ⟨l, listed, _⟩ := lists ⟨"t1", "c1"⟩ (by decide) (by decide) (by decide +kernel)
  refine ⟨tables, closed, l, listed, ?_⟩
  have shown : ((perform (smallSchool.afterCalls thirdWeek)
      (Service.listSemesters ⟨"t1", "c1"⟩)).1.toOption.map fun l =>
        l.map fun x => (x.id, x.version)) = some [(4, 2), (1, 1)] := by decide +kernel
  rw [listed] at shown
  exact Option.some.inj shown

end Session

end SchoolTimetable
