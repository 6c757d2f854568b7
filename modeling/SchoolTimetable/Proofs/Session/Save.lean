import SchoolTimetable.Proofs.Collision
import SchoolTimetable.Proofs.Session.Outcomes
import SchoolTimetable.Proofs.Store.Runs
import SchoolTimetable.Session.Semesters

/-!
Keeping a proposal: a call that fails leaves the tables and the open transactions as they were, and
one that succeeds adds the new version and its slots to the main store. With one store for
everything, a version that is published comes with its daily rows, and nothing else is added.
-/
namespace SchoolTimetable

namespace Proposal

def record (p : Proposal) (s : Store) (now : Timestamp) (publish : Bool) : SemesterSchedule where
  id := s.nextSemester
  term := p.term
  classId := p.classId
  status := if publish then .published else .draft
  version := Store.maxVersion (s.semestersOf p.term p.classId) + 1
  metadata := p.keptMetadata
  createdAt := now

def semesterSlots (p : Proposal) (id : Int) : List SemesterSlot :=
  p.lessons.map (.ofLesson id)

theorem semesterSlots_schedule {p : Proposal} {id : Int} {x : SemesterSlot}
    (member : x ∈ p.semesterSlots id) : x.schedule = id := by
  obtain ⟨l, _, same⟩ := List.mem_map.mp member
  rw [← same]
  rfl

def dailyRows (p : Proposal) (next : Int) : List DailyLesson :=
  Store.numbered next (p.lessons.map (.ofLesson p.term p.classId))

def writes (p : Proposal) (s : Store) (now : Timestamp) (publish : Bool)
    (rows : List DailyLesson) : List StagedWrite :=
  .createSchedule (p.record s now false) ::
    ((p.semesterSlots s.nextSemester).map .upsertSlot ++
      if publish then
        rows.map .insertDaily ++ [.updateStatus s.nextSemester .published]
      else [])

theorem nextVersion_eq_record (p : Proposal) (s : Store) (now : Timestamp) :
    s.nextVersion now [] p.toSchedule = p.record s now false := by
  have version : max (Store.maxVersion (s.semestersOf p.term p.classId))
      (Store.maxVersion (Store.stagedSchedules [] p.term p.classId)) =
      Store.maxVersion (s.semestersOf p.term p.classId) := Nat.max_eq_left (Nat.zero_le _)
  simp only [Store.nextVersion, toSchedule, record, version]
  rfl

end Proposal

namespace Store

structure Filed (s t : Store) (p : Proposal) (now : Timestamp) (publish : Bool) : Prop where
  semesters : t.semesters = s.semesters.insert s.nextSemester (p.record s now publish)
  slots : t.slots = s.slots.insertAll (fun x => (x.schedule, x.cell))
    (p.semesterSlots s.nextSemester)

structure Kept (s t : Store) (p : Proposal) (now : Timestamp) (publish : Bool) : Prop
    extends Filed s t p now publish where
  daily : t.daily = if publish then s.daily.insertAll (·.id) (p.dailyRows s.nextDaily) else s.daily

theorem Filed.trans_same {s t u : Store} {p : Proposal} {now : Timestamp} {publish : Bool}
    (filed : s.Filed t p now publish) (same : SameTables t u) : s.Filed u p now publish where
  semesters := same.semesters.trans filed.semesters
  slots := same.slots.trans filed.slots

theorem Kept.trans_same {s t u : Store} {p : Proposal} {now : Timestamp} {publish : Bool}
    (kept : s.Kept t p now publish) (same : SameTables t u) : s.Kept u p now publish where
  toFiled := kept.toFiled.trans_same same
  daily := same.daily.trans kept.daily

theorem applyAll_writes (s : Store) (p : Proposal) (now : Timestamp) (publish : Bool)
    (rows : List DailyLesson) :
    let t := s.applyAll (p.writes s now publish rows)
    s.Filed t p now publish ∧
      t.daily = if publish then s.daily.insertAll (·.id) rows else s.daily := by
  intro t
  have first : ∀ ws, s.applyAll (.createSchedule (p.record s now false) :: ws) =
      applyAll { s with semesters := s.semesters.insert s.nextSemester (p.record s now false) }
        ws := fun _ => rfl
  simp only [t]
  rw [Proposal.writes, first, applyAll_append, applyAll_upserts]
  cases publish with
  | false => exact ⟨⟨rfl, rfl⟩, rfl⟩
  | true =>
    rw [if_pos rfl, applyAll_append, applyAll_inserts]
    refine ⟨⟨?_, rfl⟩, rfl⟩
    exact Table.modify_insert s.semesters s.nextSemester (p.record s now false) fun x =>
      { x with status := .published }

theorem kept_applyAll (s : Store) (p : Proposal) (now : Timestamp) (publish : Bool) :
    s.Kept (s.applyAll (p.writes s now publish (p.dailyRows s.nextDaily))) p now publish := by
  obtain ⟨filed, daily⟩ := s.applyAll_writes p now publish (p.dailyRows s.nextDaily)
  exact ⟨filed, daily⟩

/-- What a store has more than another once it has gained a proposal whose cells are distinct: one
schedule under an id that was free, one slot for each lesson and, if it is published, one daily row
for each lesson. -/
structure Gained (s t : Store) (p : Proposal) (now : Timestamp) (publish : Bool) (id : Int) :
    Prop where
  fresh : s.semesters.get? id = none
  semesters : t.semesters.entries.Perm ((id, p.record s now publish) :: s.semesters.entries)
  slots : t.slots.entries.Perm
    ((p.semesterSlots id).map (fun x => ((id, x.cell), x)) ++ s.slots.entries)
  listed : (t.slotsOf id).Perm (p.semesterSlots id)
  ordered : (t.slotsOf id).Pairwise fun a b => Key.before a.cell b.cell = true
  published : publish = true → t.daily.entries.Perm
    ((p.dailyRows s.nextDaily).map (fun r => (r.id, r)) ++ s.daily.entries)
  unpublished : publish = false → t.daily = s.daily

namespace Filed
variable {s t : Store} {p : Proposal} {now : Timestamp} {publish : Bool}

theorem slots_perm (filed : s.Filed t p now publish) (drawn : s.Drawn)
    (distinct : (p.lessons.map (·.cell)).Nodup) :
    t.slots.entries.Perm ((p.semesterSlots s.nextSemester).map
      (fun x => ((s.nextSemester, x.cell), x)) ++ s.slots.entries) := by
  have named : (p.semesterSlots s.nextSemester).map (fun x => ((x.schedule, x.cell), x)) =
      (p.semesterSlots s.nextSemester).map (fun x => ((s.nextSemester, x.cell), x)) := by
    apply List.map_congr_left
    intro x member
    rw [Proposal.semesterSlots_schedule member]
  rw [filed.slots, ← named]
  apply Table.insertAll_entries_perm
  · rw [Proposal.semesterSlots, List.map_map]
    refine List.pairwise_map.mpr ((List.pairwise_map.mp distinct).imp ?_)
    intro a b apart same
    exact apart (Prod.mk.inj same).2
  · intro x member
    rw [Proposal.semesterSlots_schedule member]
    exact drawn.fresh_slot x.cell

theorem keyed (filed : s.Filed t p now publish) (drawn : s.Drawn) :
    ∀ e ∈ t.slots.entries, (e.2.schedule, e.2.cell) = e.1 := by
  intro e member
  rw [filed.slots] at member
  rcases Table.mem_entries_insertAll member with new | old
  · exact new.2.symm
  · exact (drawn.slots e.1 e.2 (Table.get?_eq_some_iff.mpr old)).1

theorem listed (filed : s.Filed t p now publish) (drawn : s.Drawn)
    (distinct : (p.lessons.map (·.cell)).Nodup) :
    (t.slotsOf s.nextSemester).Perm (p.semesterSlots s.nextSemester) := by
  have others : s.slots.entries.filter (fun e => e.1.1 == s.nextSemester) = [] := by
    apply List.filter_eq_nil_iff.mpr
    intro e member
    have below := (drawn.slots e.1 e.2 (Table.get?_eq_some_iff.mpr member)).2
    rw [beq_iff_eq]
    omega
  have all : (p.semesterSlots s.nextSemester).filter
      ((fun e => e.1.1 == s.nextSemester) ∘ fun x => ((s.nextSemester, x.cell), x)) =
        p.semesterSlots s.nextSemester := by
    apply List.filter_eq_self.mpr
    intro x _
    exact beq_self_eq_true s.nextSemester
  have found := ((filed.slots_perm drawn distinct).filter
    (fun e => e.1.1 == s.nextSemester)).map Prod.snd
  rw [List.filter_append, others, List.append_nil, List.filter_map, List.map_map, all] at found
  rw [slotsOf_eq]
  exact found.trans (List.Perm.of_eq (List.map_id _))

end Filed

namespace Kept
variable {s t : Store} {p : Proposal} {now : Timestamp} {publish : Bool}

theorem gained (kept : s.Kept t p now publish) (drawn : s.Drawn)
    (distinct : (p.lessons.map (·.cell)).Nodup) : s.Gained t p now publish s.nextSemester where
  fresh := drawn.fresh_semester
  semesters := by
    rw [kept.semesters]
    exact Table.insert_entries_perm _ drawn.fresh_semester
  slots := kept.toFiled.slots_perm drawn distinct
  listed := kept.toFiled.listed drawn distinct
  ordered := slotsOf_ordered (kept.toFiled.keyed drawn) s.nextSemester
  published := by
    intro publishing
    rw [kept.daily, if_pos publishing]
    apply Table.insertAll_entries_perm (numbered_ids_nodup _ _)
    intro r member
    exact drawn.fresh_daily (mem_numbered member).1
  unpublished := by
    intro keeping
    rw [kept.daily, keeping]
    rfl

end Kept

end Store

/-- The rows that the main store gets when a proposal is published: none if the daily table has a
store of its own. -/
def Session.mainRows (s : Session) (p : Proposal) : List DailyLesson :=
  match s.replica with
  | none => p.dailyRows s.main.nextDaily
  | some _ => []

theorem Session.mainRows_single {s : Session} (single : s.replica = none) (p : Proposal) :
    s.mainRows p = p.dailyRows s.main.nextDaily := by
  rw [mainRows, single]

theorem Session.check_feed {s : Session} {main : Store} {term : TermId} {classId : ClassId}
    {lessons : List Lesson}
    (same : Collision.check main term classId lessons =
      Collision.check s.main term classId lessons) :
    Collision.check { s with main := main }.feed term classId lessons =
      Collision.check s.feed term classId lessons := by
  cases replica : s.replica with
  | none =>
    rw [feed_single replica]
    exact same
  | some F =>
    rw [feed_apart replica]
    rfl

namespace Service
variable {s t : Session} {tx : Nat} {p : Proposal} {now : Timestamp} {publishing : Bool}
open Session (Staging Within)

theorem publish_within {R : Store → Store → Prop} (kept : Store.KeptWithin tx R) (p : Proposal)
    (schedule : SemesterSchedule) : Keeps (Within R) (publish tx p schedule) := by
  unfold publish
  apply within_bind kept (keeps_get (Within.refl kept.refl))
  intro s
  refine within_bind kept ?_ fun collisions => ?_
  · intro t
    exact Within.refl kept.refl t
  · intro t
    simp only [perform_unless]
    split
    · exact Within.refl kept.refl t
    · refine within_bind kept (onFeed_within kept (kept.bulkInsert _)) ?_ t
      intro n
      apply within_bind kept (onMain_within kept (kept.updateStatus _ _))
      intro done
      exact keeps_pure (Within.refl kept.refl) _

theorem persist_within {R : Store → Store → Prop} (kept : Store.KeptWithin tx R)
    (now : Timestamp) (p : Proposal) (wanted : Bool) :
    Keeps (Within R) (persist now p wanted tx) := by
  unfold persist
  apply within_bind kept (onMain_within kept (kept.createVersioned now _))
  intro schedule
  apply within_bind kept (onMain_within kept (kept.bulkUpsert _ _))
  intro n
  split
  · exact publish_within kept p schedule
  · exact keeps_pure (Within.refl kept.refl) _

theorem publish_ok {schedule x : SemesterSchedule} {ws : List StagedWrite}
    (found : s.main.pending.get? tx = some ws)
    (run : perform s (publish tx p schedule) = (.ok x, t)) :
    x = { schedule with status := .published } ∧
      Collision.check s.feed p.term p.classId p.lessons = .ok [] ∧
      t.main.pending.get? tx = some (ws ++ ((s.mainRows p).map .insertDaily ++
        [.updateStatus schedule.id .published])) := by
  unfold publish at run
  obtain ⟨s₀, s₁, got, run⟩ := perform_bind_ok.mp run
  cases got
  obtain ⟨collisions, s₂, reads, run⟩ := perform_bind_ok.mp run
  obtain ⟨looked, same⟩ := reading_ok.mp reads
  subst same
  simp only [perform_unless] at run
  split at run
  · cases run
  · rename_i clear
    have none : collisions = [] := Classical.not_not.mp clear
    obtain ⟨n, s₃, inserted, run⟩ := perform_bind_ok.mp run
    obtain ⟨u, staged, same⟩ := onFeed_ok.mp inserted
    obtain ⟨_, _, _, rows⟩ := Store.bulkInsert_ok.mp staged
    obtain ⟨done, s₄, updated, run⟩ := perform_bind_ok.mp run
    obtain ⟨v, status, same'⟩ := onMain_ok.mp updated
    obtain ⟨_, _, last⟩ := Store.updateStatus_ok.mp status
    cases run
    subst same same'
    refine ⟨rfl, none ▸ looked, ?_⟩
    have first : (s.setFeed u).main.pending.get? tx =
        some (ws ++ (s.mainRows p).map .insertDaily) := by
      rw [rows]
      cases replica : s.replica with
      | none =>
        rw [Session.setFeed_single replica, Session.feed_single replica,
          Session.mainRows_single replica]
        exact Store.withRows_get found (p.lessons.map (.ofLesson p.term p.classId))
      | some F =>
        rw [Session.setFeed_apart replica, Session.mainRows, replica, List.map_nil,
          List.append_nil]
        exact found
    rw [last, ← List.append_assoc]
    exact Store.addStaged_get first _

def withTimetable (s : Session) (tx : Nat) (p : Proposal) (now : Timestamp) : Session :=
  { s with
    main := (s.main.withSchedule tx (p.record s.main now false)).addStaged tx
      ((p.semesterSlots s.main.nextSemester).map .upsertSlot) }

theorem withTimetable_get (p : Proposal) (now : Timestamp)
    (found : s.main.pending.get? tx = some []) :
    (withTimetable s tx p now).main.pending.get? tx =
      some (.createSchedule (p.record s.main now false) ::
        (p.semesterSlots s.main.nextSemester).map .upsertSlot) :=
  Store.addStaged_get (Store.withSchedule_get found _) _

theorem persist_staged {x : SemesterSchedule} (found : s.main.pending.get? tx = some [])
    (run : perform s (persist now p publishing tx) = (.ok x, t)) :
    perform (withTimetable s tx p now)
      (if publishing then publish tx p (p.record s.main now false)
        else pure (p.record s.main now false)) = (.ok x, t) := by
  unfold persist at run
  obtain ⟨schedule, s₁, created, run⟩ := perform_bind_ok.mp run
  obtain ⟨u, staged, same⟩ := onMain_ok.mp created
  obtain ⟨_, ws, open₀, version, made⟩ := Store.createVersioned_ok.mp staged
  cases found.symm.trans open₀
  rw [Proposal.nextVersion_eq_record] at version
  obtain ⟨n, s₂, upserted, run⟩ := perform_bind_ok.mp run
  obtain ⟨v, put, same'⟩ := onMain_ok.mp upserted
  obtain ⟨_, _, _, _, slots⟩ := Store.bulkUpsert_ok.mp put
  subst same same' version made slots
  exact run

theorem persist_ok {x : SemesterSchedule} (found : s.main.pending.get? tx = some [])
    (run : perform s (persist now p publishing tx) = (.ok x, t)) :
    x = p.record s.main now publishing ∧
      (publishing = true → Collision.check s.feed p.term p.classId p.lessons = .ok []) ∧
      t.main.pending.get? tx = some (p.writes s.main now publishing (s.mainRows p)) := by
  have run := persist_staged found run
  have staged := withTimetable_get p now found
  cases publishing with
  | false =>
    cases run
    refine ⟨rfl, nofun, ?_⟩
    rw [staged, Proposal.writes, if_neg Bool.false_ne_true, List.append_nil]
  | true =>
    obtain ⟨result, clear, published⟩ := publish_ok (s := withTimetable s tx p now) staged run
    have checked : Collision.check (withTimetable s tx p now).feed p.term p.classId p.lessons =
        Collision.check s.feed p.term p.classId p.lessons := Session.check_feed rfl
    exact ⟨result, fun _ => checked.symm.trans clear, published⟩

theorem save_error_cases {r : SaveRequest} {e : ServiceError}
    (run : perform s (save now r) = (.error e, t)) :
    (t = s ∨ t = s.looked r.proposal now) ∨
      ∃ p, perform (s.looked r.proposal now) (inTransaction (persist now p r.publish)) =
        (.error e, t) := by
  unfold save at run
  simp only [perform_unless] at run
  split at run
  · cases run
    exact Or.inl (Or.inl rfl)
  · rcases perform_bind_error.mp run with missing | ⟨p, u, found, run⟩
    · rw [perform_getProposal] at missing
      exact Or.inl (Or.inr (Prod.mk.inj missing).2.symm)
    · rw [perform_getProposal] at found
      cases (Prod.mk.inj found).2
      simp only [perform_unless] at run
      split at run
      · cases run
        exact Or.inl (Or.inr rfl)
      · rcases perform_bind_error.mp run with failed | ⟨x, u, done, run⟩
        · exact Or.inr ⟨p, failed⟩
        · cases run

/-- A call that fails to keep a proposal leaves no trace in the main store, and in a store of its
own for the daily table none but what is staged there under the same number. -/
theorem save_failed {r : SaveRequest} {e : ServiceError}
    (run : perform s (save now r) = (.error e, t)) :
    ∃ u, (u = s ∨ u = s.looked r.proposal now) ∧
      Within (Store.Staging s.main.nextTransaction) u t ∧
      (s.main.pending.get? s.main.nextTransaction = none →
        t.main.pending.get? s.main.nextTransaction = none) := by
  have refl : ∀ u, Within (Store.Staging s.main.nextTransaction) u u :=
    Within.refl Store.Staging.refl
  rcases save_error_cases run with (same | same) | ⟨p, failed⟩
  · exact ⟨s, Or.inl rfl, same ▸ refl s, fun closed => same ▸ closed⟩
  · exact ⟨_, Or.inr rfl, same ▸ refl _, fun closed => same ▸ closed⟩
  · exact ⟨_, Or.inr rfl, inTransaction_error
      (fun tx => persist_within (Store.staging_keptWithin tx) now p r.publish) failed⟩

theorem save_ok {r : SaveRequest} {answer : String}
    (run : perform s (save now r) = (.ok answer, t)) :
    ∃ p x u, (s.proposals.get r.proposal now).2 = some p ∧ p.isSavable = true ∧
      perform (s.looked r.proposal now) (inTransaction (persist now p r.publish)) = (.ok x, u) ∧
      answer = toString x.id ∧ t.main = u.main ∧ t.replica = u.replica ∧
      t.settings = u.settings ∧ t.proposals = (u.proposals.delete p.id).1 := by
  unfold save at run
  simp only [perform_unless] at run
  split at run
  · cases run
  · obtain ⟨p, u, found, run⟩ := perform_bind_ok.mp run
    rw [perform_getProposal, Prod.mk.injEq] at found
    obtain ⟨found, same⟩ := found
    subst same
    have cached : (s.proposals.get r.proposal now).2 = some p := by
      cases here : (s.proposals.get r.proposal now).2 with
      | none => rw [here] at found; cases found
      | some q => rw [here] at found; cases found; rfl
    simp only [perform_unless] at run
    split at run
    · cases run
    · rename_i savable
      obtain ⟨x, u, done, run⟩ := perform_bind_ok.mp run
      cases run
      exact ⟨p, x, u, cached, Classical.not_not.mp savable, done, rfl, rfl, rfl, rfl, rfl⟩

theorem save_savable {r : SaveRequest} {answer : String}
    (run : perform s (save now r) = (.ok answer, t))
    (found : s.proposals.entries.get? r.proposal = some p) : p.isSavable = true := by
  obtain ⟨q, x, u, cached, savable, _⟩ := save_ok run
  cases found.symm.trans (ProposalCache.get_some.mp cached).1
  exact savable

theorem save_applies {r : SaveRequest} {answer : String}
    (run : perform s (save now r) = (.ok answer, t)) :
    ∃ p, s.proposals.entries.get? r.proposal = some p ∧
      p.isExpired now s.proposals.ttl = false ∧ answer = toString s.main.nextSemester ∧
      (s.main.applyAll (p.writes s.main now r.publish (s.mainRows p))).SameTables t.main ∧
      (r.publish = true → Collision.check s.feed p.term p.classId p.lessons = .ok []) ∧
      (s.main.pending.get? s.main.nextTransaction = none → t.main.pending = s.main.pending) ∧
      (s.replica = none → t.replica = none) ∧ t.settings = s.settings ∧
      t.proposals = (s.proposals.delete p.id).1 := by
  obtain ⟨p, x, u, cached, _, done, told, main, replica, settings, proposals⟩ := save_ok run
  obtain ⟨v, ws, body, found, applied, sameCache, sameReplica, sameSettings⟩ :=
    inTransaction_ok done
  have opened : s.main.opened.pending.get? s.main.nextTransaction = some [] :=
    Table.get?_insert_self _ _ _
  obtain ⟨record, clear, writes⟩ :=
    persist_ok (s := { s.looked r.proposal now with main := s.main.opened }) opened body
  have within := body_within (s := s.looked r.proposal now)
    (persist_within (Store.staging_keptWithin _) now p r.publish) body
  obtain ⟨here, fresh⟩ := ProposalCache.get_some.mp cached
  refine ⟨p, here, fresh, ?_, ?_, ?_, ?_, ?_, ?_, ?_⟩
  · rw [told, record]
    rfl
  · cases found.symm.trans writes
    rw [main, applied]
    exact within.main.rollback.toSameTables.applyAll _
  · have checked : Collision.check
        { s.looked r.proposal now with main := s.main.opened }.feed p.term p.classId p.lessons =
        Collision.check s.feed p.term p.classId p.lessons := Session.check_feed rfl
    exact fun publishing => checked.symm.trans (clear publishing)
  · intro closed
    rw [main, applied, Store.applyAll_pending]
    exact within.main.rollback_pending closed
  · intro single
    rw [replica, sameReplica]
    exact within.single single
  · rw [settings, sameSettings]
    exact within.settings
  · have cache : u.proposals = s.proposals := by
      rw [sameCache, within.proposals]
      exact ProposalCache.get_some_cache cached
    rw [proposals, cache]

theorem save_filed {r : SaveRequest} {answer : String}
    (run : perform s (save now r) = (.ok answer, t)) :
    ∃ p, s.proposals.entries.get? r.proposal = some p ∧ answer = toString s.main.nextSemester ∧
      s.main.Filed t.main p now r.publish := by
  obtain ⟨p, here, _, told, applied, _⟩ := save_applies run
  exact ⟨p, here, told, (s.main.applyAll_writes p now r.publish _).1.trans_same applied⟩

theorem save_kept {r : SaveRequest} {answer : String} (single : s.replica = none)
    (run : perform s (save now r) = (.ok answer, t)) :
    ∃ p, s.proposals.entries.get? r.proposal = some p ∧
      p.isExpired now s.proposals.ttl = false ∧ answer = toString s.main.nextSemester ∧
      s.main.Kept t.main p now r.publish ∧
      (r.publish = true → Collision.check s.main p.term p.classId p.lessons = .ok []) ∧
      (s.main.pending.get? s.main.nextTransaction = none → t.main.pending = s.main.pending) ∧
      t.replica = none ∧ t.settings = s.settings ∧
      t.proposals = (s.proposals.delete p.id).1 := by
  obtain ⟨p, here, fresh, told, applied, clear, closes, still, settings, proposals⟩ :=
    save_applies run
  rw [Session.mainRows_single single] at applied
  rw [Session.feed_single single] at clear
  exact ⟨p, here, fresh, told, (s.main.kept_applyAll p now r.publish).trans_same applied, clear,
    closes, still single, settings, proposals⟩

def twoLessons : Proposal :=
  ⟨"p1", "t1", "c1", 100, [⟨⟨1, 2⟩, "math", "ann", some "r1"⟩, ⟨⟨1, 1⟩, "art", "bea", none⟩], [],
    ⟨0, 0, 0, 0, 2, 2⟩, 2, [1], [], ⟨20000, 43200, 0⟩, .null⟩

end Service

end SchoolTimetable
