import SchoolTimetable.Proofs.Session.Generate
import SchoolTimetable.Proofs.Session.Save

/-!
Publishing with the daily table in a store of its own. Rows go to that store under the number of a
transaction of the main store, so only a transaction that happens to be open there under the same
number can take them. Without one the call fails and nothing changes; with one the rows end up in
a transaction of somebody else, whether the call succeeds or not.
-/
namespace SchoolTimetable

namespace Store
variable {s t : Store} {tx : Nat}

structure Undisturbed (s t : Store) : Prop extends SameTables s t where
  staged : ∀ tx ws, s.pending.get? tx = some ws → t.pending.get? tx = some ws

theorem SameTables.undisturbed (same : SameTables s t) (pending : t.pending = s.pending) :
    Undisturbed s t := ⟨same, fun _ _ found => pending ▸ found⟩

theorem visibleSchedule_withSchedule {ws : List StagedWrite} (found : s.pending.get? tx = some ws)
    (x : SemesterSchedule) : (s.withSchedule tx x).visibleSchedule tx x.id = .ok (some x) := by
  have last : seeWrite x.id (ws.foldl (seeWrite x.id) (s.semesters.get? x.id))
      (.createSchedule x) = some x := if_pos rfl
  rw [visibleSchedule, staged, withSchedule_get found]
  change Except.ok ((ws ++ [StagedWrite.createSchedule x]).foldl (seeWrite x.id)
    (s.semesters.get? x.id)) = _
  rw [List.foldl_append, List.foldl_cons, List.foldl_nil, last]

theorem bulkUpsert_withSchedule {ws : List StagedWrite} {x : SemesterSchedule}
    (found : s.pending.get? tx = some ws) (upserts : s.check .bulkUpsert = .ok ())
    {slots : List SemesterSlot} (own : ∀ y ∈ slots, y.schedule = x.id) :
    perform (s.withSchedule tx x) (bulkUpsert tx slots) =
      (.ok slots.length, (s.withSchedule tx x).addStaged tx (slots.map .upsertSlot)) := by
  apply bulkUpsert_ok.mpr
  refine ⟨upserts, ?_, ?_, rfl, rfl⟩
  · intro y member
    rw [own y member]
    exact ⟨x, visibleSchedule_withSchedule found x⟩
  · rw [Table.contains, withSchedule_get found]
    rfl

theorem withRows_disturbs {ws : List StagedWrite} (found : s.pending.get? tx = some ws)
    {rs : List NewDailyLesson} (some : rs ≠ []) : ¬ s.Undisturbed (s.withRows tx rs) := by
  intro undisturbed
  have before := undisturbed.staged tx ws found
  have after := withRows_get found rs
  have same := Option.some.inj (before.symm.trans after)
  cases rs with
  | nil => exact some rfl
  | cons r rest =>
    have lengths := congrArg List.length same
    rw [List.length_append, List.length_map, numbered, List.length_cons] at lengths
    omega

end Store

namespace Session

/-- Publishing as a whole: the rows of the proposal are in the daily table if the call succeeds,
and both stores are as they were if it fails. -/
def PublishesWhole (s t : Session) (p : Proposal) : Except ServiceError String → Prop
  | .ok _ => ∃ next, t.feed.daily.entries.Perm
      ((p.dailyRows next).map (fun r => (r.id, r)) ++ s.feed.daily.entries)
  | .error _ => s.main.Undisturbed t.main ∧ s.feed.Undisturbed t.feed

theorem PublishesWhole.size {s t : Session} {p : Proposal} {answer : String}
    (whole : s.PublishesWhole t p (.ok answer)) :
    t.feed.daily.size = s.feed.daily.size + p.lessons.length := by
  obtain ⟨next, rows⟩ := whole
  have count : (p.dailyRows next).length = p.lessons.length := by
    have cells := congrArg List.length
      (Store.numbered_cells next (p.lessons.map (.ofLesson p.term p.classId)))
    rw [List.length_map, List.length_map, List.length_map] at cells
    exact cells
  have lengths := rows.length_eq
  rw [List.length_append, List.length_map, count] at lengths
  rw [Table.size, Table.size, lengths, Nat.add_comm]

end Session

namespace Proposal

/-- Nothing keeps the rows of a proposal from being handed over: no operation before that fails, no
lesson collides, and the number is that of an open transaction of the store of the daily table. -/
structure HandedOver (p : Proposal) (main feed : Store) (tx : Nat) : Prop where
  creates : main.check .createVersioned = .ok ()
  upserts : main.check .bulkUpsert = .ok ()
  clear : Collision.check feed p.term p.classId p.lessons = .ok []
  inserts : feed.check .bulkInsert = .ok ()
  taken : ∃ ws, feed.pending.get? tx = some ws

theorem handedOver_opened {p : Proposal} {main feed : Store} {tx : Nat} :
    p.HandedOver main.opened feed tx ↔ p.HandedOver main feed tx where
  mp := fun handed =>
    ⟨handed.creates, handed.upserts, handed.clear, handed.inserts, handed.taken⟩
  mpr := fun handed =>
    ⟨handed.creates, handed.upserts, handed.clear, handed.inserts, handed.taken⟩

/-- The rows go to whoever has a transaction open in the store of the daily table under the number
that comes next in the main store. -/
structure Strays (p : Proposal) (main feed : Store) : Prop where
  begins : main.check .begin = .ok ()
  handed : p.HandedOver main feed main.nextTransaction

end Proposal

namespace Service
variable {α β : Type} {s t : Session} {tx : Nat} {p : Proposal} {now : Timestamp} {F : Store}
open Session (Within feed_apart setFeed_apart)

def KeepsReplica (x : Service α) : Prop := Keeps (fun s t => t.replica = s.replica) x

theorem onMain_keepsReplica (u : StoreUpdate α) : KeepsReplica (onMain u) := fun _ => rfl

theorem pure_keepsReplica (a : α) : KeepsReplica (pure a) := fun _ => rfl

theorem bind_keepsReplica {x : Service α} {f : α → Service β} (first : KeepsReplica x)
    (rest : ∀ a, KeepsReplica (f a)) : KeepsReplica (x >>= f) :=
  keeps_bind (R := fun s t : Session => t.replica = s.replica)
    (fun before after => after.trans before) first rest

/-- Where nothing fails before, the rows are handed over, and that is all of the other store that
changes. -/
theorem publish_handsOver {schedule : SemesterSchedule} {ws : List StagedWrite}
    (apart : s.replica = some F)
    (clear : Collision.check F p.term p.classId p.lessons = .ok [])
    (inserts : F.check .bulkInsert = .ok ()) (taken : F.pending.get? tx = some ws) :
    (perform s (publish tx p schedule)).2.replica =
      some (F.withRows tx (p.lessons.map (.ofLesson p.term p.classId))) := by
  have feed := feed_apart apart
  have looked : perform s (reading (Collision.check s.feed p.term p.classId p.lessons)) =
      (.ok [], s) := reading_ok.mpr ⟨feed ▸ clear, rfl⟩
  have open₀ : F.pending.contains tx = true := by
    rw [Table.contains, taken]
    rfl
  have inserted : perform s (onFeed (Store.bulkInsert tx
      (p.lessons.map (.ofLesson p.term p.classId)))) = (.ok _, s.setFeed _) :=
    onFeed_ok.mpr ⟨_, Store.bulkInsert_ok.mpr ⟨feed ▸ inserts, feed ▸ open₀, rfl, rfl⟩, rfl⟩
  have rest : KeepsReplica (onMain (Store.updateStatus tx schedule.id .published) >>= fun _ =>
      pure { schedule with status := .published }) :=
    bind_keepsReplica (onMain_keepsReplica _) fun _ => pure_keepsReplica _
  rw [publish, perform_bind_of_ok _ (perform_get s), perform_bind_of_ok _ looked, perform_unless,
    if_neg (not_not_intro rfl), perform_bind_of_ok _ inserted, rest _, feed, setFeed_apart apart]

theorem publish_cases (p : Proposal) (schedule : SemesterSchedule) (tx : Nat)
    (apart : s.replica = some F) :
    (Collision.check F p.term p.classId p.lessons = .ok [] ∧ F.check .bulkInsert = .ok () ∧
      ∃ ws, F.pending.get? tx = some ws) ∨
    ∃ e, perform s (publish tx p schedule) = (.error e, s) := by
  have feed := feed_apart apart
  have same : s.setFeed F = s := by
    rw [setFeed_apart apart, ← apart]
  have looked := perform_reading s (Collision.check s.feed p.term p.classId p.lessons)
  have inserted := perform_onFeed s
    (Store.bulkInsert tx (p.lessons.map (.ofLesson p.term p.classId)))
  rw [feed] at looked
  rw [feed, Store.perform_bulkInsert] at inserted
  rw [publish, perform_bind_of_ok _ (perform_get s), feed]
  cases found : Collision.check F p.term p.classId p.lessons with
  | error e =>
    rw [found] at looked
    exact Or.inr ⟨_, perform_bind_of_error _ looked⟩
  | ok collisions =>
    rw [found] at looked
    rw [perform_bind_of_ok _ looked, perform_unless]
    split
    · exact Or.inr ⟨_, rfl⟩
    · rename_i clear
      cases checked : F.check .bulkInsert with
      | error e =>
        rw [checked] at inserted
        rw [perform_bind_of_error _ inserted, same]
        exact Or.inr ⟨_, rfl⟩
      | ok u =>
        cases taken : F.pending.get? tx with
        | none =>
          rw [checked, taken] at inserted
          rw [perform_bind_of_error _ inserted, same]
          exact Or.inr ⟨_, rfl⟩
        | some ws =>
          have none : collisions = [] := Classical.not_not.mp clear
          exact Or.inl ⟨congrArg Except.ok none, rfl, ws, rfl⟩

theorem persist_handsOver (apart : s.replica = some F) (found : s.main.pending.get? tx = some [])
    (handed : p.HandedOver s.main F tx) :
    (perform s (persist now p true tx)).2.replica =
      some (F.withRows tx (p.lessons.map (.ofLesson p.term p.classId))) := by
  obtain ⟨ws, taken⟩ := handed.taken
  have created : perform s (onMain (Store.createVersioned now tx p.toSchedule)) =
      (.ok (s.main.nextVersion now [] p.toSchedule), _) :=
    onMain_ok.mpr ⟨_, Store.createVersioned_ok.mpr ⟨handed.creates, [], found, rfl, rfl⟩, rfl⟩
  have own : ∀ x ∈ p.semesterSlots (s.main.nextVersion now [] p.toSchedule).id,
      x.schedule = (s.main.nextVersion now [] p.toSchedule).id :=
    fun _ => Proposal.semesterSlots_schedule
  have upserted := Store.bulkUpsert_withSchedule found handed.upserts own
  rw [persist, perform_bind_of_ok _ created,
    perform_bind_of_ok _ (onMain_ok.mpr ⟨_, upserted, rfl⟩), if_pos rfl]
  exact publish_handsOver apart handed.clear handed.inserts taken

theorem persist_cases (p : Proposal) (now : Timestamp) (tx : Nat) (apart : s.replica = some F) :
    p.HandedOver s.main F tx ∨ ∃ e t, perform s (persist now p true tx) = (.error e, t) ∧
      t.replica = some F := by
  unfold persist
  cases created : perform s (onMain (Store.createVersioned now tx p.toSchedule)) with
  | mk result t =>
    have kept : t.replica = some F :=
      ((onMain_keepsReplica _).result created).trans apart
    cases result with
    | error e => exact Or.inr ⟨e, t, perform_bind_of_error _ created, kept⟩
    | ok schedule =>
      obtain ⟨u, staged, same⟩ := onMain_ok.mp created
      obtain ⟨creates, _, _, _, made⟩ := Store.createVersioned_ok.mp staged
      rw [perform_bind_of_ok _ created]
      cases upserted : perform t (onMain (Store.bulkUpsert tx
          (p.lessons.map (.ofLesson schedule.id)))) with
      | mk result' v =>
        have kept' : v.replica = some F :=
          ((onMain_keepsReplica _).result upserted).trans kept
        cases result' with
        | error e => exact Or.inr ⟨e, v, perform_bind_of_error _ upserted, kept'⟩
        | ok n =>
          obtain ⟨w, put, _⟩ := onMain_ok.mp upserted
          obtain ⟨upserts, _⟩ := Store.bulkUpsert_ok.mp put
          rw [perform_bind_of_ok _ upserted, if_pos rfl]
          rcases publish_cases p schedule tx kept' with ⟨clear, inserts, taken⟩ | ⟨e, failed⟩
          · rw [same, made] at upserts
            exact Or.inl ⟨creates, upserts, clear, inserts, taken⟩
          · exact Or.inr ⟨e, v, failed, kept'⟩

theorem inTransaction_replica (body : Nat → Service α) (begins : s.main.check .begin = .ok ()) :
    (perform s (inTransaction body)).2.replica =
      (perform { s with main := s.main.opened } (body s.main.nextTransaction)).2.replica := by
  have ended : ∀ tx, KeepsReplica (commit tx) := fun tx =>
    bind_keepsReplica (onMain_keepsReplica _) fun _ _ => rfl
  rw [perform_inTransaction, perform_onMain_begin, begins]
  simp only
  split
  · rename_i e u failed
    rw [failed]
    rfl
  · rename_i a u done
    rw [done, ← (ended s.main.nextTransaction) u]
    split
    · rename_i e v committed
      rw [committed]
    · rename_i b v committed
      rw [committed]

theorem inTransaction_fails {body : Nat → Service α} {e : ServiceError}
    (begins : s.main.check .begin = .ok ())
    (failed : perform { s with main := s.main.opened } (body s.main.nextTransaction) =
      (.error e, t)) : (perform s (inTransaction body)).1 = .error e := by
  rw [perform_inTransaction, perform_onMain_begin, begins]
  simp only
  rw [failed]

theorem persisted_apart (apart : s.replica = some F) (p : Proposal) (now : Timestamp) :
    (p.Strays s.main F → (perform s (inTransaction (persist now p true))).2.replica =
      some (F.withRows s.main.nextTransaction
        (p.lessons.map (.ofLesson p.term p.classId)))) ∧
    (¬ p.Strays s.main F → (perform s (inTransaction (persist now p true))).2.replica = some F ∧
      ∃ e, (perform s (inTransaction (persist now p true))).1 = .error e) := by
  constructor
  · intro strays
    have opened : s.main.opened.pending.get? s.main.nextTransaction = some [] :=
      Table.get?_insert_self _ _ _
    rw [inTransaction_replica _ strays.begins]
    exact persist_handsOver apart opened (Proposal.handedOver_opened.mpr strays.handed)
  · intro stays
    cases begins : s.main.check .begin with
    | error e =>
      rw [perform_inTransaction, perform_onMain_begin, begins]
      exact ⟨apart, _, rfl⟩
    | ok u =>
      rcases persist_cases (s := { s with main := s.main.opened }) p now s.main.nextTransaction
        apart with handed | ⟨e, u, failed, same⟩
      · exact absurd ⟨begins, Proposal.handedOver_opened.mp handed⟩ stays
      · rw [inTransaction_replica _ begins, failed]
        exact ⟨same, e, inTransaction_fails begins failed⟩

theorem save_apart {r : SaveRequest} (apart : s.replica = some F) (publishing : r.publish = true)
    (named : Text.blank r.proposal = false)
    (cached : (s.proposals.get r.proposal now).2 = some p) (savable : p.isSavable = true) :
    (p.Strays s.main F → (perform s (save now r)).2.replica =
      some (F.withRows s.main.nextTransaction (p.lessons.map (.ofLesson p.term p.classId)))) ∧
    (¬ p.Strays s.main F → (perform s (save now r)).2.replica = some F ∧
      ∃ e, (perform s (save now r)).1 = .error e) := by
  have found : perform s (getProposal r.proposal now) = (.ok p, s.looked r.proposal now) := by
    rw [perform_getProposal, cached]
  have persisted := persisted_apart (s := s.looked r.proposal now) apart p now
  rw [← publishing] at persisted
  rw [save, perform_unless, if_neg (Bool.eq_false_iff.mp named), perform_bind_of_ok _ found,
    perform_unless, if_neg (not_not_intro savable)]
  cases run : perform (s.looked r.proposal now) (inTransaction (persist now p r.publish)) with
  | mk result u =>
    rw [run] at persisted
    cases result with
    | error e =>
      rw [perform_bind_of_error _ run]
      exact ⟨persisted.1, fun stays => ⟨(persisted.2 stays).1, e, rfl⟩⟩
    | ok x =>
      rw [perform_bind_of_ok _ run]
      refine ⟨persisted.1, fun stays => ?_⟩
      obtain ⟨_, _, failed⟩ := persisted.2 stays
      cases failed

/-- With a store of its own for the daily table, a call that publishes a proposal is all or nothing
exactly if the rows do not stray; if they do, they wait in the transaction that they strayed to,
and if not, the call fails. -/
theorem save_publishesWhole_iff {r : SaveRequest} {result : Except ServiceError String}
    (apart : s.replica = some F) (stored : s.main.Reachable) (publishing : r.publish = true)
    (named : Text.blank r.proposal = false)
    (cached : (s.proposals.get r.proposal now).2 = some p) (savable : p.isSavable = true)
    (some : p.lessons ≠ []) (run : perform s (save now r) = (result, t)) :
    (s.PublishesWhole t p result ↔ ¬ p.Strays s.main F) ∧
      (p.Strays s.main F → t.replica = .some (F.withRows s.main.nextTransaction
        (p.lessons.map (.ofLesson p.term p.classId)))) ∧
      (¬ p.Strays s.main F → ∃ e, result = .error e) := by
  have feed := feed_apart apart
  obtain ⟨strayed, stayed⟩ := save_apart apart publishing named cached savable
  rw [run] at strayed stayed
  refine ⟨⟨?_, ?_⟩, strayed, fun stays => (stayed stays).2⟩
  · intro whole strays
    have after := feed_apart (strayed strays)
    cases result with
    | ok answer =>
      have grown := whole.size
      rw [after, feed] at grown
      have same : (F.withRows s.main.nextTransaction
        (p.lessons.map (.ofLesson p.term p.classId))).daily.size = F.daily.size := rfl
      have none : p.lessons.length = 0 := by omega
      exact some (List.eq_nil_iff_length_eq_zero.mpr none)
    | error e =>
      obtain ⟨ws, taken⟩ := strays.handed.taken
      have undisturbed := whole.2
      rw [after, feed] at undisturbed
      exact Store.withRows_disturbs taken (fun none => some (List.map_eq_nil_iff.mp none))
        undisturbed
  · intro stays
    obtain ⟨replica, e, failed⟩ := stayed stays
    cases failed
    obtain ⟨u, which, within, closes⟩ := save_failed run
    have main : s.main.Staging s.main.nextTransaction t.main := by
      rcases which with same | same
      · exact same ▸ within.main
      · rw [same] at within
        exact within.main
    have closed := stored.drawn.closed_next
    refine ⟨main.toSameTables.undisturbed (main.pending_eq closed (closes closed)), ?_⟩
    rw [feed, feed_apart replica]
    exact (Store.SameTables.refl F).undisturbed rfl

def twoStores (calls : List StoreCall) : Session where
  replica := some (.afterCalls {} calls)
  proposals := ({ ttl := Timestamp.seconds 60 } : ProposalCache).save twoLessons

def publishedAtNoon (calls : List StoreCall) : Except ServiceError String × Session :=
  perform (twoStores calls) (save ⟨20000, 43200, 0⟩ ⟨"p1", true⟩)

theorem save_publishesWhole_iff_clash :
    (twoStores []).PublishesWhole (publishedAtNoon []).2 twoLessons (publishedAtNoon []).1 ∧
      ¬ (twoStores [.begin]).PublishesWhole (publishedAtNoon [.begin]).2 twoLessons
        (publishedAtNoon [.begin]).1 := by
  have law : ∀ calls, (twoStores calls).PublishesWhole (publishedAtNoon calls).2 twoLessons
      (publishedAtNoon calls).1 ↔ ¬ twoLessons.Strays {} (.afterCalls {} calls) := by
    intro calls
    cases run : perform (twoStores calls) (save ⟨20000, 43200, 0⟩ ⟨"p1", true⟩) with
    | mk result t =>
      rw [publishedAtNoon, run]
      refine (save_publishesWhole_iff ?_ ?_ ?_ ?_ ?_ ?_ ?_ run).1
      · rfl
      · exact ⟨[], rfl⟩
      · rfl
      · decide
      · rfl
      · rfl
      · decide
  constructor
  · refine (law []).mpr fun strays => ?_
    obtain ⟨ws, taken⟩ := strays.handed.taken
    cases taken
  · exact fun whole => (law [.begin]).mp whole ⟨rfl, rfl, rfl, rfl, rfl, [], rfl⟩

/-- The call succeeds, and yet nothing comes into the daily table. -/
theorem publishedAtNoon_astray :
    (publishedAtNoon [.begin]).1.toOption = some "1" ∧
      (publishedAtNoon [.begin]).2.feed.daily.size = 0 ∧
      ¬ (twoStores [.begin]).PublishesWhole (publishedAtNoon [.begin]).2 twoLessons
        (publishedAtNoon [.begin]).1 := by
  have done : (publishedAtNoon [.begin]).1.toOption = some "1" := by decide +kernel
  have empty : (publishedAtNoon [.begin]).2.feed.daily.size = 0 := by decide +kernel
  refine ⟨done, empty, fun whole => ?_⟩
  cases result : (publishedAtNoon [.begin]).1 with
  | error e =>
    rw [result] at done
    cases done
  | ok answer =>
    rw [result] at whole
    have grown := whole.size
    rw [empty] at grown
    cases grown

end Service

end SchoolTimetable
