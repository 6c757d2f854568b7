import SchoolTimetable.Proofs.Session.DailySafety
import SchoolTimetable.Proofs.Session.Settled

/-!
What lasts. New rows come under ids that were never in use, and only drafts are deleted, each with
its own slots. So a published schedule and its slots stay as they are in every run, daily rows
stay, and a draft stays until a call deletes it.
-/
namespace SchoolTimetable

namespace Store
variable {s t u : Store} {p : Proposal} {now : Timestamp} {publish : Bool} {id : Int}

structure SameSchedule (id : Int) (s t : Store) : Prop where
  record : t.semesters.get? id = s.semesters.get? id
  slots : t.slotsOf id = s.slotsOf id

def KeepsDaily (s t : Store) : Prop :=
  ∀ id row, s.daily.get? id = some row → t.daily.get? id = some row

theorem SameSchedule.refl (id : Int) (s : Store) : SameSchedule id s s := ⟨rfl, rfl⟩

theorem SameSchedule.trans (first : SameSchedule id s t) (second : SameSchedule id t u) :
    SameSchedule id s u :=
  ⟨second.record.trans first.record, second.slots.trans first.slots⟩

theorem SameTables.sameSchedule (same : SameTables s t) (id : Int) : SameSchedule id s t :=
  ⟨congrArg (·.get? id) same.semesters, by rw [slotsOf, slotsOf, same.slots]⟩

theorem SameTables.keepsDaily (same : SameTables s t) : s.KeepsDaily t :=
  fun _ _ found => same.daily ▸ found

theorem slotsOf_congr (same : ∀ c, t.slots.get? (id, c) = s.slots.get? (id, c)) :
    t.slotsOf id = s.slotsOf id := by
  have tables : t.slots.filter (fun k _ => k.1 == id) = s.slots.filter fun k _ => k.1 == id := by
    apply Table.ext
    intro k
    rw [Table.get?_filter, Table.get?_filter]
    by_cases own : k.1 = id
    · rw [show k = (id, k.2) from Prod.ext own rfl, same k.2]
    · have apart : (k.1 == id) = false := beq_eq_false_iff_ne.mpr own
      cases t.slots.get? k <;> cases s.slots.get? k <;> simp [apart]
  rw [slotsOf, slotsOf, tables]

theorem Filed.sameSchedule (filed : s.Filed t p now publish) (apart : id ≠ s.nextSemester) :
    SameSchedule id s t where
  record := by
    rw [filed.semesters]
    exact Table.get?_insert_of_ne _ _ apart
  slots := by
    apply slotsOf_congr
    intro c
    rw [filed.slots]
    apply Table.get?_insertAll_of_ne
    intro x member same
    have owner := (congrArg Prod.fst same).trans (Proposal.semesterSlots_schedule member)
    exact apart owner

theorem Kept.keepsDaily (kept : s.Kept t p now publish) (drawn : s.Drawn) : s.KeepsDaily t := by
  intro id row found
  rw [kept.daily]
  split
  · rw [← found]
    apply Table.get?_insertAll_of_ne
    intro r member same
    have below := (drawn.daily id row found).2
    have above := (mem_numbered member).1
    omega
  · exact found

theorem removed_sameSchedule (s : Store) {gone : Int} (apart : id ≠ gone) :
    SameSchedule id s (s.applyAll [.deleteSlots gone, .deleteSchedule gone]) where
  record := Table.get?_erase_of_ne s.semesters apart
  slots := by
    apply slotsOf_congr
    intro c
    have passes : ((id, c).1 != gone) = true := bne_iff_ne.mpr apart
    exact (Table.get?_filter_keys (fun k => k.1 != gone) s.slots (id, c)).trans (if_pos passes)

theorem addDaily_keepsDaily (drawn : s.Drawn) (r : NewDailyLesson) :
    s.KeepsDaily (s.addDaily r).1 := by
  intro id row found
  have below := (drawn.daily id row found).2
  have apart : id ≠ s.nextDaily := by omega
  exact (Table.get?_insert_of_ne s.daily _ apart).trans found

end Store

namespace Session
variable {s t : Session} {call : ServiceCall} {id : Int} {x : SemesterSchedule}

/-- A call leaves each schedule with its slots alone, unless it deletes just that draft. -/
theorem Step.sameSchedule (did : Step call s t) (drawn : s.main.Drawn)
    (found : s.main.semesters.get? id = some x) :
    s.main.SameSchedule id t.main ∨ (x.status = .draft ∧ s.Deletes call id) := by
  cases did with
  | quiet tables cache => exact Or.inl (tables.sameSchedule id)
  | planned b r id' now asked based tables cache => exact Or.inl (tables.sameSchedule id)
  | kept p now publish cached savable kept clear cache =>
    have below := (drawn.semesters id x found).2
    exact Or.inl (kept.toFiled.sameSchedule (by omega))
  | removed gone y asked present draft tables cache =>
    by_cases same : id = gone
    · subst same
      cases found.symm.trans present
      exact Or.inr ⟨draft, asked⟩
    · exact Or.inl ((Store.removed_sameSchedule s.main same).trans (tables.sameSchedule id))
  | created term classId l clear added cache =>
    rw [added]
    exact Or.inl ⟨rfl, rfl⟩

theorem Step.keepsDaily (did : Step call s t) (drawn : s.main.Drawn) :
    s.main.KeepsDaily t.main := by
  cases did with
  | quiet tables cache => exact tables.keepsDaily
  | planned b r id now asked based tables cache => exact tables.keepsDaily
  | kept p now publish cached savable kept clear cache => exact kept.keepsDaily drawn
  | removed id x asked found draft tables cache =>
    exact fun id row found => tables.daily ▸ found
  | created term classId l clear added cache =>
    rw [added]
    exact Store.addDaily_keepsDaily drawn _

theorem afterCalls_keepsDaily (single : s.replica = none) (drawn : s.main.Drawn)
    (calls : List ServiceCall) : s.main.KeepsDaily (s.afterCalls calls).main := by
  induction calls generalizing s with
  | nil => exact fun _ _ found => found
  | cons call rest ih =>
    obtain ⟨still, did⟩ := afterCall_step single call
    have drawn' := (afterCall_settles single call).drawn drawn
    exact fun id row found => ih still drawn' id row (did.keepsDaily drawn id row found)

theorem afterCalls_sameSchedule (single : s.replica = none) (drawn : s.main.Drawn)
    (found : s.main.semesters.get? id = some x) (calls : List ServiceCall) :
    s.main.SameSchedule id (s.afterCalls calls).main ∨
      (x.status = .draft ∧ ∃ pre call post, calls = pre ++ call :: post ∧
        s.main.SameSchedule id (s.afterCalls pre).main ∧ (s.afterCalls pre).Deletes call id) := by
  induction calls generalizing s with
  | nil => exact Or.inl (Store.SameSchedule.refl id s.main)
  | cons call rest ih =>
    obtain ⟨still, did⟩ := afterCall_step single call
    rcases did.sameSchedule drawn found with same | ⟨draft, deletes⟩
    · have drawn' := (afterCall_settles single call).drawn drawn
      rcases ih still drawn' (same.record.trans found) with later | ⟨draft, pre, del, post, split,
        until_, deletes⟩
      · exact Or.inl (same.trans later)
      · refine Or.inr ⟨draft, call :: pre, del, post, ?_, same.trans until_, deletes⟩
        rw [split, List.cons_append]
    · exact Or.inr ⟨draft, [], call, rest, rfl, Store.SameSchedule.refl id s.main, deletes⟩

/-- With one store for everything, between any two states of a run: published schedules and their
slots are the same, daily rows are still there, and a draft and its slots are the same unless a
call has deleted just that draft. -/
theorem afterCalls_permanent (s : Session) (single : s.replica = none)
    (stored : s.main.Reachable) (calls more : List ServiceCall) :
    (s.afterCalls calls).main.KeepsDaily ((s.afterCalls calls).afterCalls more).main ∧
    ∀ id x, (s.afterCalls calls).main.semesters.get? id = some x →
      (x.status = .published →
        (s.afterCalls calls).main.SameSchedule id ((s.afterCalls calls).afterCalls more).main) ∧
      (x.status = .draft →
        (s.afterCalls calls).main.SameSchedule id ((s.afterCalls calls).afterCalls more).main ∨
        ∃ pre post, more = pre ++ .deleteSemester id :: post ∧
          (s.afterCalls calls).main.SameSchedule id ((s.afterCalls calls).afterCalls pre).main ∧
          (perform ((s.afterCalls calls).afterCalls pre) (Service.deleteSemester id)).1 =
            .ok ()) := by
  have still := afterCalls_single single calls
  have drawn := (afterCalls_settles single calls).drawn stored.drawn
  refine ⟨afterCalls_keepsDaily still drawn more, fun id x found => ⟨?_, ?_⟩⟩
  · intro published
    rcases afterCalls_sameSchedule still drawn found more with same | ⟨draft, _⟩
    · exact same
    · rw [published] at draft
      cases draft
  · intro _
    rcases afterCalls_sameSchedule still drawn found more with same | ⟨_, pre, call, post, split,
      same, asked, deleted⟩
    · exact Or.inl same
    · subst asked
      exact Or.inr ⟨pre, post, split, same, deleted⟩

def firstWeek : List ServiceCall :=
  let load : SubjectLoad := ⟨"math", "ann", 2, 0, [], none⟩
  [.generate "p1" ⟨20000, 0, 0⟩ ⟨"t1", "c1", 1, [3, 4], [load], none, none⟩,
    .save ⟨20000, 1, 0⟩ ⟨"p1", true⟩,
    .generate "p2" ⟨20000, 2, 0⟩ ⟨"t1", "c1", 1, [5, 6], [load], none, none⟩,
    .save ⟨20000, 3, 0⟩ ⟨"p2", false⟩]

def secondWeek : List ServiceCall :=
  [.deleteSemester 1, .failOn "delete", .deleteSemester 2, .clearFailures, .deleteSemester 2]

theorem afterCalls_permanent_weeks :
    (smallSchool.afterCalls firstWeek).main.SameSchedule 1
        ((smallSchool.afterCalls firstWeek).afterCalls secondWeek).main ∧
      (smallSchool.afterCalls firstWeek).main.KeepsDaily
        ((smallSchool.afterCalls firstWeek).afterCalls secondWeek).main ∧
      ((smallSchool.afterCalls firstWeek).afterCalls secondWeek).main.semesters.keys = [1] ∧
      ∃ pre post, secondWeek = pre ++ .deleteSemester 2 :: post ∧
        (perform ((smallSchool.afterCalls firstWeek).afterCalls pre)
          (Service.deleteSemester 2)).1 = .ok () := by
  have law := afterCalls_permanent smallSchool rfl ⟨_, rfl⟩ firstWeek secondWeek
  have first : ((smallSchool.afterCalls firstWeek).main.semesters.get? 1).map (·.status) =
      some .published := by decide +kernel
  have second : ((smallSchool.afterCalls firstWeek).main.semesters.get? 2).map (·.status) =
      some .draft := by decide +kernel
  have left : ((smallSchool.afterCalls firstWeek).afterCalls secondWeek).main.semesters.keys =
      [1] := by decide +kernel
  obtain ⟨x, found, published⟩ := Option.map_eq_some_iff.mp first
  obtain ⟨y, present, draft⟩ := Option.map_eq_some_iff.mp second
  refine ⟨(law.2 1 x found).1 published, law.1, left, ?_⟩
  rcases (law.2 2 y present).2 draft with same | ⟨pre, post, split, _, deleted⟩
  · have still := Table.mem_keys_iff.mpr ⟨y, same.record.trans present⟩
    rw [left, List.mem_singleton] at still
    cases still
  · exact ⟨pre, post, split, deleted⟩

end Session

end SchoolTimetable
