import Mathlib.Data.List.Nodup
import Mathlib.Data.List.Pairwise
import SchoolTimetable.Proofs.Store.Steps
import SchoolTimetable.Proofs.Store.Versions

/-!
Ids and versions, however transactions interleave. A transaction chooses a version when it stages,
by what is committed then and by what it has staged itself, and the version lands at its commit,
when others may have landed. Within a transaction versions rise, so they keep apart there, and the
check at the commit keeps them apart from those that are committed.
-/
namespace SchoolTimetable

structure SemesterSchedule.SameVersion (x y : SemesterSchedule) : Prop where
  term : x.term = y.term
  classId : x.classId = y.classId
  version : x.version = y.version

theorem SemesterSchedule.SameVersion.trans {x y z : SemesterSchedule} (first : x.SameVersion y)
    (second : y.SameVersion z) : x.SameVersion z :=
  ⟨first.term.trans second.term, first.classId.trans second.classId,
    first.version.trans second.version⟩

theorem SemesterSchedule.SameVersion.symm {x y : SemesterSchedule} (same : x.SameVersion y) :
    y.SameVersion x := ⟨same.term.symm, same.classId.symm, same.version.symm⟩

namespace Store
variable {s t : Store} {tx : Nat} {ws : List StagedWrite}

def created (ws : List StagedWrite) : List SemesterSchedule :=
  ws.filterMap fun
    | .createSchedule x => some x
    | _ => none

theorem mem_created {x : SemesterSchedule} : x ∈ created ws ↔ .createSchedule x ∈ ws := by
  rw [created, List.mem_filterMap]
  constructor
  · intro h
    obtain ⟨w, member, made⟩ := h
    cases w <;> cases made
    exact member
  · intro member
    exact ⟨_, member, rfl⟩

theorem created_append (ws more : List StagedWrite) :
    created (ws ++ more) = created ws ++ created more := List.filterMap_append

theorem mem_stagedSchedules {x : SemesterSchedule} (member : x ∈ created ws) :
    x ∈ stagedSchedules ws x.term x.classId :=
  List.mem_filterMap.mpr ⟨_, mem_created.mp member, if_pos ⟨rfl, rfl⟩⟩

theorem Stages.created {call : StoreCall} {more : List StagedWrite}
    (stages : s.Stages tx ws call more) :
    created more = [] ∨ ∃ now x, more = [.createSchedule (s.nextVersion now ws x)] := by
  have none : ∀ {α : Type} (f : α → StagedWrite), (∀ a x, f a ≠ .createSchedule x) →
      ∀ as : List α, Store.created (as.map f) = [] := by
    intro α f other as
    apply List.eq_nil_iff_forall_not_mem.mpr
    intro x member
    obtain ⟨a, _, same⟩ := List.mem_map.mp (mem_created.mp member)
    exact other a x same
  cases stages with
  | rows rs => exact .inl (none .insertDaily (fun _ _ => nofun) _)
  | schedule now x => exact .inr ⟨now, x, rfl⟩
  | slots xs seen => exact .inl (none .upsertSlot (fun _ _ => nofun) _)
  | _ => exact .inl rfl

/-! What the check at a commit looks for. -/

theorem versionTaken_iff {x : SemesterSchedule} :
    s.versionTaken x = true ↔ ∃ y ∈ s.semesters.values, y.SameVersion x := by
  rw [versionTaken, List.any_eq_true]
  constructor
  · intro h
    obtain ⟨y, member, same⟩ := h
    have parts := of_decide_eq_true same
    exact ⟨y, member, parts.1, parts.2.1, parts.2.2⟩
  · intro h
    obtain ⟨y, member, same⟩ := h
    exact ⟨y, member, decide_eq_true ⟨same.term, same.classId, same.version⟩⟩

theorem versionClash?_eq_none_iff :
    s.versionClash? ws = none ↔
      ∀ x ∈ created ws, ∀ y ∈ s.semesters.values, ¬ y.SameVersion x := by
  rw [versionClash?, List.findSome?_eq_none_iff]
  constructor
  · intro clear x member y committed same
    have passed := clear _ (mem_created.mp member)
    simp only [versionTaken_iff.mpr ⟨y, committed, same⟩, if_true] at passed
    cases passed
  · intro clear w member
    cases w with
    | createSchedule x =>
      refine if_neg fun taken => ?_
      obtain ⟨y, committed, same⟩ := versionTaken_iff.mp taken
      exact clear x (mem_created.mpr member) y committed same
    | _ => rfl

theorem commit_fails_iff (fit : s.Fit) (found : s.pending.get? tx = some ws) :
    (∃ e t, perform s (commit tx) = (.error e, t)) ↔
      ∃ x ∈ created ws, ∃ y ∈ s.semesters.values, y.SameVersion x := by
  rw [perform_commit, found, check_of_fit fit]
  constructor
  · intro h
    obtain ⟨e, t, failed⟩ := h
    by_contra clear
    have none : s.versionClash? ws = none := versionClash?_eq_none_iff.mpr
      fun x member y committed same => clear ⟨x, member, y, committed, same⟩
    simp only [none] at failed
    cases failed
  · intro h
    obtain ⟨x, member, y, committed, same⟩ := h
    cases clash : s.versionClash? ws with
    | none => exact absurd same (versionClash?_eq_none_iff.mp clash x member y committed)
    | some e => exact ⟨e, s.rollback tx, by simp only [clash]⟩

/-! What lands. -/

/-- A schedule that is seen was there at the start or has been created; its status may have
changed since, but it is the same version. -/
theorem seen_source {id : Int} {start : Option SemesterSchedule} {y : SemesterSchedule}
    (seen : ws.foldl (seeWrite id) start = some y) :
    (∃ x, start = some x ∧ x.SameVersion y) ∨ ∃ x ∈ created ws, x.id = id ∧ x.SameVersion y := by
  induction ws generalizing start with
  | nil => exact .inl ⟨y, seen, rfl, rfl, rfl⟩
  | cons w rest ih =>
    have later : ∀ {x}, x ∈ created rest → x ∈ created (w :: rest) := fun member =>
      mem_created.mpr (List.mem_cons_of_mem _ (mem_created.mp member))
    rcases ih seen with ⟨x, here, same⟩ | ⟨x, member, key, same⟩
    · cases w with
      | createSchedule z =>
        simp only [seeWrite] at here
        split at here
        · rename_i key
          cases here
          exact .inr ⟨x, mem_created.mpr List.mem_cons_self, key, same⟩
        · exact .inl ⟨x, here, same⟩
      | updateStatus k status =>
        simp only [seeWrite] at here
        split at here
        · obtain ⟨z, old, change⟩ := Option.map_eq_some_iff.mp here
          refine .inl ⟨z, old, SemesterSchedule.SameVersion.trans ?_ same⟩
          rw [← change]
          exact ⟨rfl, rfl, rfl⟩
        · exact .inl ⟨x, here, same⟩
      | deleteSchedule k =>
        simp only [seeWrite] at here
        split at here
        · cases here
        · exact .inl ⟨x, here, same⟩
      | _ => exact .inl ⟨x, here, same⟩
    · exact .inr ⟨x, later member, key, same⟩

theorem created_insert {x : SemesterSchedule} {other : Nat} {vs : List StagedWrite}
    (pending : t.pending = s.pending.insert tx (ws ++ [.createSchedule x]))
    (here : t.pending.get? other = some vs) :
    (other = tx ∧ created vs = created ws ++ [x]) ∨ s.pending.get? other = some vs := by
  rw [pending] at here
  rcases Table.get?_insert_source here with ⟨same, new⟩ | old
  · rw [new, created_append]
    exact .inl ⟨same, rfl⟩
  · exact .inr old

theorem landed_source {id : Int} {y : SemesterSchedule}
    (here : ((s.rollback tx).applyAll ws).semesters.get? id = some y) :
    (∃ x, s.semesters.get? id = some x ∧ x.SameVersion y) ∨
      ∃ x ∈ created ws, x.id = id ∧ x.SameVersion y := by
  rw [seeWrites_applyAll] at here
  exact seen_source here

theorem landed_pending {other : Nat} {vs : List StagedWrite}
    (here : ((s.rollback tx).applyAll ws).pending.get? other = some vs) :
    other ≠ tx ∧ s.pending.get? other = some vs := by
  rw [applyAll_pending] at here
  refine ⟨fun same => ?_, Table.get?_erase_source here⟩
  have gone : (s.rollback tx).pending.get? tx = none := Table.get?_erase_self _ _
  rw [same, gone] at here
  cases here

theorem Drawn.created_below (drawn : s.Drawn) (found : s.pending.get? tx = some ws)
    {x : SemesterSchedule} (member : x ∈ created ws) : x.id < s.nextSemester :=
  drawn.staged tx ws found _ (mem_created.mp member)

def VersionsApart (s : Store) : Prop :=
  ∀ i x j y, s.semesters.get? i = some x → s.semesters.get? j = some y → x.SameVersion y → i = j

/-- What every call keeps: committed versions are apart, the schedules that a transaction creates
rise in ids and versions, and their ids are in use nowhere else. -/
structure Versioned (s : Store) : Prop where
  apart : s.VersionsApart
  rising : ∀ tx ws, s.pending.get? tx = some ws → (created ws).Pairwise fun x y =>
    x.id < y.id ∧ (x.term = y.term → x.classId = y.classId → x.version < y.version)
  unlanded : ∀ tx ws, s.pending.get? tx = some ws →
    ∀ x ∈ created ws, s.semesters.get? x.id = none
  own : ∀ tx ws tx' ws', s.pending.get? tx = some ws → s.pending.get? tx' = some ws' → tx ≠ tx' →
    ∀ x ∈ created ws, ∀ y ∈ created ws', x.id ≠ y.id

namespace Versioned

theorem start : Versioned {} := by
  constructor
  · intro i x j y found
    cases found
  · intro tx ws found
    cases found
  · intro tx ws found
    cases found
  · intro tx ws tx' ws' found
    cases found

theorem created_apart (versioned : s.Versioned) (found : s.pending.get? tx = some ws)
    {x y : SemesterSchedule} (member : x ∈ created ws) (member' : y ∈ created ws)
    (differ : x ≠ y) : ¬ x.SameVersion y := by
  have symm : Std.Symm fun a b : SemesterSchedule => ¬ a.SameVersion b :=
    ⟨fun _ _ apart same => apart same.symm⟩
  have apart : (created ws).Pairwise fun a b => ¬ a.SameVersion b := by
    refine (versioned.rising tx ws found).imp fun {a b} less same => ?_
    exact Nat.ne_of_lt (less.2 same.term same.classId) same.version
  exact apart.forall member member' differ

theorem restage (versioned : s.Versioned) (semesters : t.semesters = s.semesters)
    (old : ∀ tx ws, t.pending.get? tx = some ws → created ws = [] ∨
      ∃ ws', s.pending.get? tx = some ws' ∧ created ws = created ws') : t.Versioned where
  apart := by
    rw [VersionsApart, semesters]
    exact versioned.apart
  rising := by
    intro tx ws found
    rcases old tx ws found with none | ⟨ws', before, same⟩
    · rw [none]
      exact .nil
    · rw [same]
      exact versioned.rising tx ws' before
  unlanded := by
    intro tx ws found x member
    rw [semesters]
    rcases old tx ws found with none | ⟨ws', before, same⟩
    · rw [none] at member
      cases member
    · exact versioned.unlanded tx ws' before x (same ▸ member)
  own := by
    intro tx ws tx' ws' found found' distinct x member y member'
    rcases old tx ws found with none | ⟨vs, before, same⟩
    · rw [none] at member
      cases member
    · rcases old tx' ws' found' with none | ⟨vs', before', same'⟩
      · rw [none] at member'
        cases member'
      · exact versioned.own tx vs tx' vs' before before' distinct x (same ▸ member) y
          (same' ▸ member')

/-- The next schedule of a transaction is the newest version that the transaction knows of. -/
theorem create_rising (versioned : s.Versioned) (drawn : s.Drawn) (now : Timestamp)
    (n : NewSemesterSchedule) (found : s.pending.get? tx = some ws) :
    (created ws ++ [s.nextVersion now ws n]).Pairwise fun x y =>
      x.id < y.id ∧ (x.term = y.term → x.classId = y.classId → x.version < y.version) := by
  refine List.pairwise_append.mpr
    ⟨versioned.rising tx ws found, List.pairwise_singleton _ _, ?_⟩
  intro x member y last
  rw [List.mem_singleton.mp last]
  refine ⟨drawn.created_below found member, fun term classId => ?_⟩
  have staged := mem_stagedSchedules member
  rw [term, classId] at staged
  have most := le_maxVersion staged
  exact Nat.lt_succ_of_le (Nat.le_trans most (Nat.le_max_right _ _))

theorem create (versioned : s.Versioned) (drawn : s.Drawn) {now : Timestamp}
    {n : NewSemesterSchedule} (found : s.pending.get? tx = some ws)
    (semesters : t.semesters = s.semesters) (pending : t.pending = s.pending.insert tx
      (ws ++ [.createSchedule (s.nextVersion now ws n)])) : t.Versioned := by
  have source : ∀ other vs, t.pending.get? other = some vs → ∀ y ∈ created vs,
      (other = tx ∧ y.id = s.nextSemester) ∨
        ∃ vs', s.pending.get? other = some vs' ∧ y ∈ created vs' := by
    intro other vs here y member
    rcases created_insert pending here with ⟨same, all⟩ | old
    · rw [all] at member
      rcases List.mem_append.mp member with before | new
      · exact .inr ⟨ws, same ▸ found, before⟩
      · rw [List.mem_singleton.mp new]
        exact .inl ⟨same, rfl⟩
    · exact .inr ⟨vs, old, member⟩
  constructor
  · rw [VersionsApart, semesters]
    exact versioned.apart
  · intro other vs here
    rcases created_insert pending here with ⟨_, all⟩ | old
    · rw [all]
      exact versioned.create_rising drawn now n found
    · exact versioned.rising other vs old
  · intro other vs here y member
    rw [semesters]
    rcases source other vs here y member with ⟨_, new⟩ | ⟨vs', old, listed⟩
    · rw [new]
      exact drawn.fresh_semester
    · exact versioned.unlanded other vs' old y listed
  · intro one vs two vs' here here' distinct x member y member'
    rcases source one vs here x member with ⟨same, new⟩ | ⟨us, old, listed⟩
    · rcases source two vs' here' y member' with ⟨same', _⟩ | ⟨us', old', listed'⟩
      · exact absurd (same.trans same'.symm) distinct
      · have less := drawn.created_below old' listed'
        omega
    · rcases source two vs' here' y member' with ⟨_, new'⟩ | ⟨us', old', listed'⟩
      · have less := drawn.created_below old listed
        omega
      · exact versioned.own one us two us' old old' distinct x listed y listed'

theorem land_apart (versioned : s.Versioned) (found : s.pending.get? tx = some ws)
    (clear : s.versionClash? ws = none) : ((s.rollback tx).applyAll ws).VersionsApart := by
  have untaken : ∀ x ∈ created ws, ∀ i y, s.semesters.get? i = some y → ¬ y.SameVersion x :=
    fun x member i y committed =>
      versionClash?_eq_none_iff.mp clear x member y (Table.mem_values_iff.mpr ⟨i, committed⟩)
  intro i x j y first second same
  rcases landed_source first with ⟨x', old, sameX⟩ | ⟨x', member, key, sameX⟩
  · rcases landed_source second with ⟨y', old', sameY⟩ | ⟨y', member', key', sameY⟩
    · exact versioned.apart i x' j y' old old' ((sameX.trans same).trans sameY.symm)
    · exact absurd ((sameX.trans same).trans sameY.symm) (untaken y' member' i x' old)
  · rcases landed_source second with ⟨y', old', sameY⟩ | ⟨y', member', key', sameY⟩
    · exact absurd ((sameY.trans same.symm).trans sameX.symm) (untaken x' member j y' old')
    · have both := (sameX.trans same).trans sameY.symm
      by_contra distinct
      have differ : x' ≠ y' := fun equal => distinct (key.symm.trans (equal ▸ key'))
      exact versioned.created_apart found member member' differ both

theorem land (versioned : s.Versioned) (found : s.pending.get? tx = some ws)
    (clear : s.versionClash? ws = none) : ((s.rollback tx).applyAll ws).Versioned where
  apart := versioned.land_apart found clear
  rising := fun other vs here => versioned.rising other vs (landed_pending here).2
  unlanded := by
    intro other vs here y member
    obtain ⟨distinct, before⟩ := landed_pending here
    cases landed : ((s.rollback tx).applyAll ws).semesters.get? y.id with
    | none => rfl
    | some z =>
      rcases landed_source landed with ⟨x, old, _⟩ | ⟨x, listed, key, _⟩
      · exact nomatch (versioned.unlanded other vs before y member).symm.trans old
      · exact absurd key (versioned.own tx ws other vs found before distinct.symm x listed y member)
  own := fun one vs two vs' here here' =>
    versioned.own one vs two vs' (landed_pending here).2 (landed_pending here').2

theorem step {call : StoreCall} (versioned : s.Versioned) (drawn : s.Drawn)
    (did : Step s call t) : t.Versioned := by
  cases did with
  | idle tables pending =>
    refine versioned.restage tables.semesters fun tx ws found => .inr ⟨ws, ?_, rfl⟩
    rw [← pending]
    exact found
  | opened same =>
    rw [same]
    refine versioned.restage rfl fun tx ws found => ?_
    rcases Table.get?_insert_source found with ⟨_, new⟩ | old
    · rw [new]
      exact .inl rfl
    · exact .inr ⟨ws, old, rfl⟩
  | staged tx ws more found stages tables pending =>
    rcases stages.created with none | ⟨now, n, one⟩
    · refine versioned.restage tables.semesters fun other vs here => .inr ?_
      rw [pending] at here
      rcases Table.get?_insert_source here with ⟨same, new⟩ | old
      · rw [same, new, created_append, none, List.append_nil]
        exact ⟨ws, found, rfl⟩
      · exact ⟨vs, old, rfl⟩
    · rw [one] at pending
      exact versioned.create drawn found tables.semesters pending
  | ended tx same =>
    rw [same]
    exact versioned.restage rfl fun other vs here =>
      .inr ⟨vs, Table.get?_erase_source here, rfl⟩
  | landed tx ws asked found fit clear same =>
    rw [same]
    exact versioned.land found clear
  | added r asked same =>
    rw [same]
    exact versioned.restage rfl fun other vs here => .inr ⟨vs, here, rfl⟩

end Versioned

theorem Reachable.versioned (reached : s.Reachable) : s.Versioned := by
  have kept : s.Drawn ∧ s.Versioned := by
    refine Leads.induction (P := fun s => s.Drawn ∧ s.Versioned) ?_ reached
      ⟨Drawn.start, Versioned.start⟩
    intro s call both
    exact ⟨both.1.step call, both.2.step both.1 (afterCall_step s call)⟩
  exact kept.2

def scheduleIds (s : Store) : List Int :=
  s.semesters.values.map (·.id) ++ s.pending.values.flatMap fun ws => (created ws).map (·.id)

theorem Versioned.scheduleIds_nodup (versioned : s.Versioned) (drawn : s.Drawn) :
    s.scheduleIds.Nodup := by
  have keys : s.semesters.values.map (·.id) = s.semesters.keys := by
    rw [Table.values, List.map_map]
    apply List.map_congr_left
    intro e member
    exact (drawn.semesters e.1 e.2 (Table.get?_eq_some_iff.mpr member)).1
  have staged : ∀ e ∈ s.pending.entries, s.pending.get? e.1 = some e.2 :=
    fun e member => Table.get?_eq_some_iff.mpr member
  rw [scheduleIds, keys, Table.values, List.flatMap_map]
  refine List.nodup_append.mpr ⟨s.semesters.keys_nodup, List.nodup_flatMap.mpr ⟨?_, ?_⟩, ?_⟩
  · intro e member
    refine List.pairwise_map.mpr ((versioned.rising e.1 e.2 (staged e member)).imp ?_)
    exact fun less => Int.ne_of_lt less.1
  · refine s.pending.sorted.imp_of_mem fun {d e} first second before => ?_
    intro id here there
    obtain ⟨x, listed, key⟩ := List.mem_map.mp here
    obtain ⟨y, listed', key'⟩ := List.mem_map.mp there
    exact versioned.own d.1 d.2 e.1 e.2 (staged d first) (staged e second) (Key.before_ne before)
      x listed y listed' (key.trans key'.symm)
  · intro id committed id' here same
    obtain ⟨e, member, listed⟩ := List.mem_flatMap.mp here
    obtain ⟨y, creates, key⟩ := List.mem_map.mp listed
    obtain ⟨x, found⟩ := Table.mem_keys_iff.mp committed
    have free := versioned.unlanded e.1 e.2 (staged e member) y creates
    rw [key, ← same, found] at free
    cases free

theorem Drawn.scheduleIds_below (drawn : s.Drawn) {id : Int} (member : id ∈ s.scheduleIds) :
    id < s.nextSemester := by
  rcases List.mem_append.mp member with committed | staged
  · obtain ⟨x, listed, key⟩ := List.mem_map.mp committed
    obtain ⟨k, found⟩ := Table.mem_values_iff.mp listed
    have known := drawn.semesters k x found
    rw [← key, known.1]
    exact known.2
  · obtain ⟨ws, listed, inside⟩ := List.mem_flatMap.mp staged
    obtain ⟨x, creates, key⟩ := List.mem_map.mp inside
    obtain ⟨tx, found⟩ := Table.mem_values_iff.mp listed
    rw [← key]
    exact drawn.created_below found creates

theorem VersionsApart.semestersOf (apart : s.VersionsApart) (term : TermId) (classId : ClassId) :
    (s.semestersOf term classId).Pairwise fun a b => a.version ≠ b.version := by
  have values : s.semesters.values.Pairwise fun a b => ¬ a.SameVersion b := by
    refine List.pairwise_map.mpr (s.semesters.sorted.imp_of_mem ?_)
    intro a b first second before same
    exact Key.before_ne before (apart a.1 a.2 b.1 b.2 (Table.get?_eq_some_iff.mpr first)
      (Table.get?_eq_some_iff.mpr second) same)
  apply (values.filter _).imp_of_mem
  intro a b first second differ same
  have ofA := of_decide_eq_true (List.mem_filter.mp first).2
  have ofB := of_decide_eq_true (List.mem_filter.mp second).2
  exact differ ⟨ofA.1.trans ofB.1.symm, ofA.2.trans ofB.2.symm, same⟩

theorem VersionsApart.listSemesters (apart : s.VersionsApart)
    (fit : s.check .listSemesters = .ok ()) (term : TermId) (classId : ClassId) :
    ∃ l, s.listSemesters term classId = .ok l ∧ l.Perm (s.semestersOf term classId) ∧
      l.Pairwise fun a b => b.version < a.version := by
  obtain ⟨perm, newest⟩ :=
    foldl_insertByVersion_newestFirst (s.semestersOf term classId) (l := []) .nil
  rw [List.append_nil] at perm
  refine ⟨_, by rw [Store.listSemesters, fit]; rfl, perm, ?_⟩
  have differ := (perm.pairwise_iff fun {a b} apart same => apart same.symm).mpr
    (apart.semestersOf term classId)
  refine (newest.and differ).imp fun {a b} both => ?_
  have least := both.1
  have other := both.2
  omega

/-- However transactions interleave, and whatever fails: no version is committed twice, no id is
in use twice, and listings put newer versions first; and a commit that nothing else makes fail
fails if a version that it creates is taken, and then adds nothing. -/
theorem interleaved_versions_apart (reached : s.Reachable) :
    s.VersionsApart ∧ s.scheduleIds.Nodup ∧ (∀ id ∈ s.scheduleIds, id < s.nextSemester) ∧
    (∀ term classId, s.check .listSemesters = .ok () →
      ∃ l, s.listSemesters term classId = .ok l ∧ l.Perm (s.semestersOf term classId) ∧
        l.Pairwise fun a b => b.version < a.version) ∧
    ∀ tx ws, s.Fit → s.pending.get? tx = some ws →
      ((∃ e t, perform s (commit tx) = (.error e, t)) ↔
        ∃ x ∈ created ws, ∃ y ∈ s.semesters.values, y.SameVersion x) ∧
      ∀ e t, perform s (commit tx) = (.error e, t) → s.SameTables t := by
  have versioned := reached.versioned
  refine ⟨versioned.apart, versioned.scheduleIds_nodup reached.drawn, ?_, ?_, ?_⟩
  · exact fun id member => reached.drawn.scheduleIds_below member
  · exact fun term classId fit => versioned.apart.listSemesters fit term classId
  · intro tx ws fit found
    refine ⟨commit_fails_iff fit found, fun e t failed => ?_⟩
    rw [commit_failed failed]
    exact ⟨rfl, rfl, rfl⟩

def staleChoice : List StoreCall :=
  let draft : NewSemesterSchedule := ⟨"t1", "c1", .draft, .null⟩
  [.begin, .begin, .createVersioned ⟨20000, 0, 0⟩ 1 draft, .createVersioned ⟨20000, 1, 0⟩ 2 draft,
    .createVersioned ⟨20000, 2, 0⟩ 2 draft, .commit 1]

theorem interleaved_versions_apart_stale :
    (afterCalls {} staleChoice).VersionsApart ∧
      (afterCalls {} staleChoice).scheduleIds = [1, 2, 3] ∧
      (afterCalls {} staleChoice).scheduleIds.Nodup ∧
      (∃ l, (afterCalls {} staleChoice).listSemesters "t1" "c1" = .ok l ∧
        l.Pairwise fun a b => b.version < a.version) ∧
      ∃ e t, perform (afterCalls {} staleChoice) (commit 2) = (.error e, t) ∧
        (afterCalls {} staleChoice).SameTables t := by
  obtain ⟨apart, nodup, _, lists, fails⟩ := interleaved_versions_apart ⟨staleChoice, rfl⟩
  have ids : (afterCalls {} staleChoice).scheduleIds = [1, 2, 3] := by decide +kernel
  obtain ⟨l, listed, _, descending⟩ := lists "t1" "c1" (by decide +kernel)
  have fit : (afterCalls {} staleChoice).Fit := by
    constructor <;> decide +kernel
  have busy : ((afterCalls {} staleChoice).pending.get? 2).isSome = true := by decide +kernel
  obtain ⟨ws, found⟩ := Option.isSome_iff_exists.mp busy
  have taken : ∃ x ∈ created ws, ∃ y ∈ (afterCalls {} staleChoice).semesters.values,
      y.SameVersion x := by
    have clash : ∃ x ∈ created (((afterCalls {} staleChoice).pending.get? 2).getD []),
        (afterCalls {} staleChoice).versionTaken x = true := by decide +kernel
    obtain ⟨x, member, same⟩ := clash
    rw [found] at member
    exact ⟨x, member, versionTaken_iff.mp same⟩
  obtain ⟨e, t, failed⟩ := (fails 2 ws fit found).1.mpr taken
  exact ⟨apart, ids, nodup, ⟨l, listed, descending⟩, e, t, failed,
    (fails 2 ws fit found).2 e t failed⟩

end Store

end SchoolTimetable
