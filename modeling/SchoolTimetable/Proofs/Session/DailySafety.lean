import Mathlib.Data.List.Nodup
import SchoolTimetable.Proofs.Session.Runs

/-!
The daily table never gets two rows that cannot both take place. Rows come into it one by one and
as whole timetables; the lessons of a timetable keep apart because planning gives each its own
cell, and all other pairs because they are checked.
-/
namespace SchoolTimetable

namespace DailyLesson

def CollisionFree (t : Table Int DailyLesson) : Prop :=
  ∀ i a j b, t.get? i = some a → t.get? j = some b → i ≠ j → ¬ a.Collides b

/-- Rows in different cells that collide with none that is there can be added. -/
theorem CollisionFree.insertAll {t : Table Int DailyLesson} (free : CollisionFree t)
    {rows : List DailyLesson} (cells : (rows.map (·.cell)).Nodup)
    (apart : ∀ r ∈ rows, ∀ old ∈ t.values, ¬ old.Collides r) :
    CollisionFree (t.insertAll (·.id) rows) := by
  intro i a j b first second distinct both
  have source := Table.mem_entries_insertAll (Table.get?_eq_some_iff.mp first)
  have source' := Table.mem_entries_insertAll (Table.get?_eq_some_iff.mp second)
  rcases source with ⟨new, key⟩ | old
  · rcases source' with ⟨new', key'⟩ | old'
    · have same : a = b := List.inj_on_of_nodup_map cells new new' both.cell
      exact distinct (key.trans ((congrArg DailyLesson.id same).trans key'.symm))
    · have present := Table.mem_values_iff.mpr ⟨j, Table.get?_eq_some_iff.mpr old'⟩
      exact apart a new b present both.symm
  · rcases source' with ⟨new', _⟩ | old'
    · have present := Table.mem_values_iff.mpr ⟨i, Table.get?_eq_some_iff.mpr old⟩
      exact apart b new' a present both
    · exact free i a j b (Table.get?_eq_some_iff.mpr old) (Table.get?_eq_some_iff.mpr old')
        distinct both

end DailyLesson

def Proposal.Generated (p : Proposal) : Prop :=
  ∃ s id now r answer t, perform s (Service.generate id now r) = (.ok answer, t) ∧
    t.proposals.entries.get? id = some p

theorem Proposal.Generated.planned {p : Proposal} (generated : p.Generated) :
    ∃ (s : Session) (r : GenerateRequest) (b : PlanBasis) (id : String) (now : Timestamp),
      r.Based s.main s.feed b ∧
        p = r.toProposal b ((Service.planned s r b).outcome r.loads) id now := by
  obtain ⟨s, id, now, r, answer, t, run, found⟩ := generated
  obtain ⟨b, q, based, made, _, _, _, _, cache⟩ := Service.generate_ok run
  have key : q.id = id := made ▸ rfl
  have here : t.proposals.entries.get? id = some q := by
    rw [cache, ← key]
    exact Table.get?_insert_self _ _ _
  cases found.symm.trans here
  exact ⟨s, r, b, id, now, based, made⟩

theorem Proposal.Generated.cells_nodup {p : Proposal} (generated : p.Generated) :
    (p.lessons.map (·.cell)).Nodup := by
  obtain ⟨s, r, b, id, now, based, made⟩ := generated.planned
  rw [made]
  exact Service.planned_cells_nodup based

namespace Session
variable {s t : Session}
open DailyLesson

/-- What a call keeps: the rows keep apart, and so do the lessons of each cached proposal. -/
structure DailySafe (s : Session) : Prop where
  free : CollisionFree s.main.daily
  cells : ∀ p, s.Caches p → (p.lessons.map (·.cell)).Nodup

theorem DailySafe.step (safe : s.DailySafe) (single : s.replica = none)
    (did : ∃ call, Step call s t) : t.DailySafe := by
  obtain ⟨call, did⟩ := did
  cases did with
  | quiet tables cache =>
    constructor
    · rw [tables.daily]
      exact safe.free
    · exact fun p here => safe.cells p (here.of_shrinks cache)
  | planned b r id now asked based tables cache =>
    constructor
    · rw [tables.daily]
      exact safe.free
    · intro p here
      obtain ⟨other, found⟩ := here
      rw [cache] at found
      rcases ProposalCache.save_get? found with ⟨_, same⟩ | old
      · rw [same]
        exact Service.planned_cells_nodup (feed_single single ▸ based)
      · exact safe.cells p ⟨other, old⟩
  | kept p now publish cached savable kept clear cache =>
    constructor
    · rw [kept.daily]
      split
      · rename_i publishing
        -- the lessons are apart from one another, and the check has found them apart from the rows
        apply safe.free.insertAll
        · rw [Proposal.dailyRows, Store.numbered_cells, List.map_map]
          exact safe.cells p cached
        · intro row new old present
          obtain ⟨_, _, r, source, made⟩ := Store.mem_numbered new
          obtain ⟨l, listed, same⟩ := List.mem_map.mp source
          rw [made, ← same]
          exact Collision.clear_apart (clear publishing) listed row.id present
      · exact safe.free
    · have shrinks := ProposalCache.shrinks_delete s.proposals p.id
      rw [← cache] at shrinks
      exact fun q here => safe.cells q (here.of_shrinks shrinks)
  | removed id x asked found draft tables cache =>
    constructor
    · rw [tables.daily]
      exact safe.free
    · exact fun q here => safe.cells q (here.of_shrinks (.of_eq cache))
  | created term classId l clear added cache =>
    have cell : ([(NewDailyLesson.ofLesson term classId l).withId s.main.nextDaily].map
        (·.cell)).Nodup := List.nodup_singleton _
    have apart : ∀ row ∈ [(NewDailyLesson.ofLesson term classId l).withId s.main.nextDaily],
        ∀ old ∈ s.main.daily.values, ¬ old.Collides row := by
      intro row new old present
      rw [List.mem_singleton.mp new]
      exact Collision.clear_apart clear List.mem_cons_self _ present
    constructor
    · rw [added]
      exact safe.free.insertAll cell apart
    · exact fun q here => safe.cells q (here.of_shrinks (.of_eq cache))

/-- With one store for everything and proposals that come from planning, no run of calls makes two
rows of the daily table collide, whatever fails. -/
theorem afterCalls_collisionFree (s : Session) (single : s.replica = none)
    (free : CollisionFree s.main.daily) (planned : ∀ p, s.Caches p → p.Generated)
    (calls : List ServiceCall) : CollisionFree (s.afterCalls calls).main.daily := by
  have start : s.DailySafe := ⟨free, fun p here => (planned p here).cells_nodup⟩
  have safe := afterCalls_induction single start
    (fun s t safe single did => safe.step single did) calls
  exact safe.free

def smallSchool : Session where
  main := Store.afterCalls {}
    [.addTerm ⟨"t1", "spring"⟩, .addClass ⟨"c1", "first"⟩, .addClass ⟨"c2", "second"⟩,
      .addSubject ⟨"math", "mathematics"⟩, .addAssignment ⟨"ann", "c1", "t1", "math"⟩,
      .setPreference ⟨"ann", 1, 2, ["TUE:1", "some day"]⟩,
      .addDaily ⟨"t1", "c2", "math", "ann", ⟨1, 1⟩, some " r1 "⟩]
  proposals := { ttl := Timestamp.seconds 60 }

def busyDay : List ServiceCall :=
  let load : SubjectLoad := ⟨"math", "ann", 2, 0, [], some "r1"⟩
  [.generate "p1" ⟨20000, 0, 0⟩ ⟨"t1", "c1", 1, [3, 4], [load], none, none⟩, .failOn "commit",
    .save ⟨20000, 1, 0⟩ ⟨"p1", true⟩, .clearFailures, .save ⟨20000, 2, 0⟩ ⟨"p1", true⟩,
    .createDaily ⟨"t1", "c1", "math", "bea", 1, 1, some "r1"⟩,
    .createDaily ⟨"t1", "c1", "math", "bea", 1, 1, some " "⟩,
    .createDaily ⟨"t1", "c2", "math", "ann", 3, 1, none⟩]

theorem afterCalls_collisionFree_busy :
    (∀ p, smallSchool.Caches p → p.Generated) ∧ CollisionFree smallSchool.main.daily ∧
      (smallSchool.afterCalls busyDay).main.daily.size = 4 ∧
      CollisionFree (smallSchool.afterCalls busyDay).main.daily := by
  have planned : ∀ p, smallSchool.Caches p → p.Generated := by
    intro p cached
    obtain ⟨id, found⟩ := cached
    cases found
  have free : CollisionFree smallSchool.main.daily := by
    intro i a j b first second distinct
    have member := Table.get?_eq_some_iff.mp first
    have member' := Table.get?_eq_some_iff.mp second
    have one : smallSchool.main.daily.keys = [1] := by decide +kernel
    have key : i ∈ smallSchool.main.daily.keys := List.mem_map_of_mem member
    have key' : j ∈ smallSchool.main.daily.keys := List.mem_map_of_mem member'
    rw [one, List.mem_singleton] at key key'
    exact absurd (key.trans key'.symm) distinct
  exact ⟨planned, free, by decide +kernel,
    afterCalls_collisionFree smallSchool rfl free planned busyDay⟩

end Session

end SchoolTimetable
