import SchoolTimetable.Proofs.Metadata
import SchoolTimetable.Proofs.Session.Permanence
import SchoolTimetable.Proofs.Store.Refusals

/-!
Kept timetables and what is remembered of them. A proposal that can be kept has missed no unit, so
its lessons are what its loads ask for; and the lessons come into the main store together with the
loads, as the slots of a schedule and as its metadata. From then on a call leaves both as they are
or deletes the schedule for good, also where the daily table has a store of its own. So the metadata
of a schedule account for its slots for as long as there is one.
-/
namespace SchoolTimetable

theorem Proposal.Generated.gives {p : Proposal} (generated : p.Generated)
    (savable : p.isSavable = true) (subject : SubjectId) (teacher : TeacherId) :
    p.lessons.countP (fun l => l.subject = subject ∧ l.teacher = teacher) =
      total ((p.loads.filter fun l => l.subject = subject ∧ l.teacher = teacher).map
        (·.weeklyCount)) := by
  obtain ⟨s, r, b, id, now, _, made⟩ := generated.planned
  obtain ⟨given, missed, split, lessons, shortfalls⟩ := PlanRun.make_split r.loads b.slotsPerDay
    b.days b.ledgers s.settings.gapRepairBudget
  have told : p.shortfalls = missed.map .ofLoad := by
    rw [made]
    exact shortfalls
  have none : missed = [] := by
    rw [Proposal.isSavable, told, List.isEmpty_iff] at savable
    exact List.map_eq_nil_iff.mp savable
  have count := countP_lessons_add split lessons fun c => c.1 = subject ∧ c.2.1 = teacher
  rw [none, List.countP_nil, Nat.add_zero] at count
  rw [made]
  exact count

namespace Store
variable {s t u : Store} {id : Int} {p : Proposal} {now : Timestamp} {publish : Bool}

def Accounts (s : Store) (x : SemesterSchedule) : Prop :=
  ∀ subject teacher,
    (s.slotsOf x.id).countP (fun y => y.subject = subject ∧ y.teacher = teacher) =
      x.metadata.weeklyCount subject teacher

theorem SameSchedule.accounts {x : SemesterSchedule} (same : SameSchedule x.id s t)
    (accounts : s.Accounts x) : t.Accounts x := by
  intro subject teacher
  rw [same.slots]
  exact accounts subject teacher

/-- The slots and the metadata of a proposal that is kept come from the same loads. -/
theorem Filed.accounts (filed : s.Filed t p now publish) (drawn : s.Drawn)
    (generated : p.Generated) (savable : p.isSavable = true) :
    t.Accounts (p.record s now publish) := by
  intro subject teacher
  have slots := (filed.listed drawn generated.cells_nodup).countP_eq
    fun y => y.subject = subject ∧ y.teacher = teacher
  rw [Proposal.semesterSlots, List.countP_map] at slots
  have listed := p.keptMetadata_listsLoads.weeklyCount subject teacher
  exact slots.trans ((generated.gives savable subject teacher).trans listed.symm)

/-- The schedule under an id has stayed as it is, with its slots, or it is gone; and ids are not
given back. -/
structure StaysOrGoes (id : Int) (s t : Store) : Prop where
  fate : SameSchedule id s t ∨ t.semesters.get? id = none
  later : s.nextSemester ≤ t.nextSemester

namespace StaysOrGoes

theorem refl (id : Int) (s : Store) : StaysOrGoes id s s :=
  ⟨Or.inl (SameSchedule.refl id s), Int.le_refl _⟩

theorem trans (first : StaysOrGoes id s t) (second : StaysOrGoes id t u) :
    StaysOrGoes id s u where
  fate := by
    rcases second.fate with same | gone
    · rcases first.fate with before | gone
      · exact Or.inl (before.trans same)
      · exact Or.inr (same.record.trans gone)
    · exact Or.inr gone
  later := Int.le_trans first.later second.later

end StaysOrGoes

end Store

namespace Service
variable {s t : Session} {id : Int}

def Spares {α : Type} (id : Int) (x : Service α) : Prop :=
  Keeps (fun s t : Session => s.main.StaysOrGoes id t.main) x

theorem Spares.bind {α β : Type} {x : Service α} {f : α → Service β} (first : Spares id x)
    (rest : ∀ a, Spares id (f a)) : Spares id (x >>= f) :=
  keeps_bind (R := fun s t : Session => s.main.StaysOrGoes id t.main)
    Store.StaysOrGoes.trans first rest

theorem Spares.quiet {α : Type} {x : Service α}
    (same : ∀ s : Session, (perform s x).2.main = s.main) : Spares id x := by
  intro s
  rw [same]
  exact Store.StaysOrGoes.refl id s.main

theorem insert_spares (r : NewDailyLesson) : Spares id (onFeed (Store.insert r)) := by
  intro s
  rw [perform_onFeed]
  cases replica : s.replica with
  | none =>
    rw [Session.setFeed_single replica, Session.feed_single replica, Store.perform_insert]
    split <;> exact ⟨Or.inl ⟨rfl, rfl⟩, Int.le_refl _⟩
  | some F =>
    rw [Session.setFeed_apart replica]
    exact Store.StaysOrGoes.refl id s.main

theorem createDaily_spares (r : CreateDailyRequest) : Spares id (createDaily r) := by
  unfold createDaily
  apply Spares.bind (.quiet fun _ => rfl)
  intro s
  apply Spares.bind (.quiet fun _ => rfl)
  intro shaped
  apply Spares.bind (.quiet fun _ => rfl)
  intro referred
  apply Spares.bind (.quiet fun _ => rfl)
  intro collisions t
  simp only [perform_unless]
  split
  · exact Store.StaysOrGoes.refl id t.main
  · refine Spares.bind (insert_spares _) (fun row => ?_) t
    exact .bind (.quiet fun _ => rfl) fun _ => .quiet fun _ => rfl

theorem save_staysOrGoes {now : Timestamp} {r : SaveRequest} {result : Except ServiceError String}
    (used : id < s.main.nextSemester) (run : perform s (save now r) = (result, t)) :
    s.main.StaysOrGoes id t.main := by
  refine ⟨?_, (save_settles run).leads.later.semesters⟩
  cases result with
  | error e =>
    obtain ⟨u, which, within, _⟩ := save_failed run
    have same := within.main.toSameTables.sameSchedule id
    rcases which with here | here
    · exact Or.inl (here ▸ same)
    · rw [here] at same
      exact Or.inl same
  | ok answer =>
    obtain ⟨p, _, _, filed⟩ := save_filed run
    exact Or.inl (filed.sameSchedule (by omega))

theorem deleteSemester_staysOrGoes {gone : Int} {result : Except ServiceError Unit}
    (run : perform s (deleteSemester gone) = (result, t)) : s.main.StaysOrGoes id t.main := by
  refine ⟨?_, (deleteSemester_settles run).leads.later.semesters⟩
  cases result with
  | error e =>
    rcases deleteSemester_error run with same | failed
    · rw [same]
      exact Or.inl (Store.SameSchedule.refl id s.main)
    · have within := (inTransaction_error
        (fun tx => removeSemester_within (Store.staging_keptWithin tx) gone) failed).1
      exact Or.inl (within.main.toSameTables.sameSchedule id)
  | ok u =>
    obtain ⟨x, n, v, _, _, done, main, _⟩ := deleteSemester_ok run
    have tables := (removed_ok done).1
    rw [main]
    by_cases own : id = gone
    · right
      rw [tables.semesters, own]
      exact Table.get?_erase_self s.main.semesters gone
    · exact Or.inl ((Store.removed_sameSchedule s.main own).trans (tables.sameSchedule id))

end Service

namespace Session
variable {s : Session} {id : Int}
open Service

theorem afterCall_staysOrGoes (used : id < s.main.nextSemester) (call : ServiceCall) :
    s.main.StaysOrGoes id (s.afterCall call).main := by
  cases call with
  | generate name now r =>
    rw [afterCall, generate_main (Prod.eta (perform s (generate name now r))).symm]
    exact Store.StaysOrGoes.refl id s.main
  | save now r => exact save_staysOrGoes used (Prod.eta _).symm
  | discardProposal name =>
    rw [afterCall, (discardProposal_cases s name).1]
    exact Store.StaysOrGoes.refl id s.main
  | deleteSemester gone => exact deleteSemester_staysOrGoes (Prod.eta _).symm
  | createDaily r => exact createDaily_spares r s
  | setHealthy healthy => exact ⟨Or.inl ⟨rfl, rfl⟩, Int.le_refl _⟩
  | failOn name =>
    simp only [afterCall, Store.failOn]
    split <;> exact ⟨Or.inl ⟨rfl, rfl⟩, Int.le_refl _⟩
  | clearFailures => exact ⟨Or.inl ⟨rfl, rfl⟩, Int.le_refl _⟩

theorem afterCalls_staysOrGoes (used : id < s.main.nextSemester) (calls : List ServiceCall) :
    s.main.StaysOrGoes id (s.afterCalls calls).main := by
  induction calls generalizing s with
  | nil => exact Store.StaysOrGoes.refl id s.main
  | cons call rest ih =>
    have first := afterCall_staysOrGoes used call
    exact first.trans (ih (Int.lt_of_lt_of_le used first.later))

end Session

namespace Service

/-- The metadata that a proposal is kept with list its loads by subject, none lost and none
repeated; and for a planned proposal that is kept they account for the slots of the new schedule,
for each subject and teacher, after any calls that leave the schedule in place. -/
theorem metadata_account_for_lessons :
    (∀ p : Proposal, ∃ fields, p.keptMetadata.ListsLoads p.loads fields) ∧
    ∀ (s t : Session) (now : Timestamp) (r : SaveRequest) (answer : String) (p : Proposal),
      s.main.Reachable → s.proposals.entries.get? r.proposal = some p → p.Generated →
      perform s (save now r) = (.ok answer, t) →
      ∃ x : SemesterSchedule, x.id = s.main.nextSemester ∧ answer = toString x.id ∧
        s.main.semesters.get? x.id = none ∧ t.main.semesters.get? x.id = some x ∧
        x.metadata = p.keptMetadata ∧
        ∀ calls y, (t.afterCalls calls).main.semesters.get? x.id = some y →
          y = x ∧ (t.afterCalls calls).main.Accounts x := by
  refine ⟨fun p => ⟨_, p.keptMetadata_listsLoads⟩, ?_⟩
  intro s t now r answer p stored cached generated run
  obtain ⟨q, here, told, filed⟩ := save_filed run
  cases cached.symm.trans here
  have drawn := stored.drawn
  have added : t.main.semesters.get? s.main.nextSemester =
      some (p.record s.main now r.publish) := by
    rw [filed.semesters]
    exact Table.get?_insert_self _ _ _
  have accounts := filed.accounts drawn generated (save_savable run cached)
  have used := (((save_settles run).drawn drawn).semesters _ _ added).2
  refine ⟨p.record s.main now r.publish, rfl, told, drawn.fresh_semester, added, rfl, ?_⟩
  intro calls y present
  rcases (Session.afterCalls_staysOrGoes used calls).fate with same | gone
  · cases present.symm.trans (same.record.trans added)
    exact ⟨rfl, same.accounts accounts⟩
  · cases present.symm.trans gone

def sixLessons : GenerateRequest where
  term := "t1"
  classId := "c1"
  slotsPerDay := 3
  days := [2, 3]
  loads := [⟨"art", "bea", 2, 0, [], none⟩, ⟨"math", "ann", 1, 3, [], none⟩,
    ⟨"art", "cid", 1, 0, [2], none⟩, ⟨"math", "ann", 1, 2, [], none⟩,
    ⟨"art", "bea", 1, 1, [], none⟩]

def sixPlanned : Session := staffRoom.afterCall (.generate "p1" ⟨20000, 0, 0⟩ sixLessons)

theorem metadata_account_for_lessons_listed_twice :
    ∃ t x, perform sixPlanned (save ⟨20000, 1, 0⟩ ⟨"p1", true⟩) = (.ok "1", t) ∧
      (t.afterCalls [.deleteSemester 1]).main.semesters.get? 1 = some x ∧
      (x.metadata.loadEntries "art").length = 3 ∧ x.metadata.weeklyCount "art" "bea" = 3 ∧
      ((t.afterCalls [.deleteSemester 1]).main.slotsOf 1).countP
        (fun y => y.subject = "art" ∧ y.teacher = "bea") = 3 := by
  have answers : (perform staffRoom (generate "p1" ⟨20000, 0, 0⟩ sixLessons)).1.isOk = true := by
    decide +kernel
  have caches : (sixPlanned.proposals.entries.get? "p1").isSome = true := by decide +kernel
  have saves : (perform sixPlanned (save ⟨20000, 1, 0⟩ ⟨"p1", true⟩)).1.toOption = some "1" := by
    decide +kernel
  have remembers : (((perform sixPlanned (save ⟨20000, 1, 0⟩ ⟨"p1", true⟩)).2.afterCalls
      [.deleteSemester 1]).main.semesters.get? 1).map (fun x =>
        ((x.metadata.loadEntries "art").length, x.metadata.weeklyCount "art" "bea")) =
          some (3, 3) := by decide +kernel
  obtain ⟨p, cached⟩ := Option.isSome_iff_exists.mp caches
  have generated : p.Generated := by
    cases result : (perform staffRoom (generate "p1" ⟨20000, 0, 0⟩ sixLessons)).1 with
    | error e =>
      rw [result] at answers
      cases answers
    | ok answer => exact ⟨_, _, _, _, answer, _, Prod.ext result rfl, cached⟩
  have stored : sixPlanned.main.Reachable := by
    have same : sixPlanned.main = staffRoom.main := generate_main (Prod.eta _).symm
    exact ⟨_, same⟩
  cases run : perform sixPlanned (save ⟨20000, 1, 0⟩ ⟨"p1", true⟩) with
  | mk result t =>
    rw [run] at saves remembers
    cases result with
    | error e => cases saves
    | ok answer =>
      cases saves
      obtain ⟨x, drawn, _, _, _, _, law⟩ := metadata_account_for_lessons.2 sixPlanned t
        ⟨20000, 1, 0⟩ ⟨"p1", true⟩ "1" p stored cached generated run
      have first : x.id = 1 := drawn.trans (by decide +kernel)
      obtain ⟨y, present, remembered⟩ := Option.map_eq_some_iff.mp remembers
      obtain ⟨entries, listed⟩ := Prod.mk.inj remembered
      have here : (t.afterCalls [.deleteSemester 1]).main.semesters.get? x.id = some y := by
        rw [first]
        exact present
      obtain ⟨rfl, accounts⟩ := law [.deleteSemester 1] y here
      have given := (accounts "art" "bea").trans listed
      rw [first] at given
      exact ⟨t, y, rfl, present, entries, listed, given⟩

end Service

end SchoolTimetable
