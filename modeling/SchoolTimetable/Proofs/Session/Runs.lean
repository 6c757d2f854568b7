import SchoolTimetable.Session.DailyTable
import SchoolTimetable.Proofs.Session.Generate
import SchoolTimetable.Proofs.Session.Save

/-!
Runs of a session that has one store for everything. Whatever is called, and whatever fails, a
call does one of five things to the tables and the cache; what each of them keeps holds after
every run.
-/
namespace SchoolTimetable

/-- The calls that change a session, and the faults that come and go between them. -/
inductive ServiceCall where
  | generate (id : String) (now : Timestamp) (r : GenerateRequest)
  | save (now : Timestamp) (r : SaveRequest)
  | discardProposal (id : String)
  | deleteSemester (id : Int)
  | createDaily (r : CreateDailyRequest)
  | setHealthy (healthy : Bool)
  | failOn (name : String)
  | clearFailures

namespace Session
variable {s t : Session}

def afterCall (s : Session) : ServiceCall → Session
  | .generate id now r => (perform s (Service.generate id now r)).2
  | .save now r => (perform s (Service.save now r)).2
  | .discardProposal id => (perform s (Service.discardProposal id)).2
  | .deleteSemester id => (perform s (Service.deleteSemester id)).2
  | .createDaily r => (perform s (Service.createDaily r)).2
  | .setHealthy healthy => { s with main := s.main.setHealthy healthy }
  | .failOn name => { s with main := s.main.failOn name }
  | .clearFailures => { s with main := s.main.clearFailures }

def afterCalls (s : Session) (calls : List ServiceCall) : Session := calls.foldl afterCall s

def Caches (s : Session) (p : Proposal) : Prop := ∃ id, s.proposals.entries.get? id = some p

def plans (s : Session) : ServiceCall → List String
  | .generate id now r =>
    match (perform s (Service.generate id now r)).1 with
    | .ok _ => [id]
    | .error _ => []
  | _ => []

def plannedIds (s : Session) : List ServiceCall → List String
  | [] => []
  | call :: rest => s.plans call ++ (s.afterCall call).plannedIds rest

def Deletes (s : Session) (call : ServiceCall) (id : Int) : Prop :=
  call = .deleteSemester id ∧ (perform s (Service.deleteSemester id)).1 = .ok ()

inductive Step (call : ServiceCall) (s t : Session) : Prop where
  | quiet (tables : s.main.SameTables t.main) (cache : s.proposals.Shrinks t.proposals)
  | planned (b : PlanBasis) (r : GenerateRequest) (id : String) (now : Timestamp)
      (asked : s.plans call = [id]) (based : r.Based s.main s.main b)
      (tables : s.main.SameTables t.main)
      (cache : t.proposals = s.proposals.save
        (r.toProposal b ((Service.planned s r b).outcome r.loads) id now))
  | kept (p : Proposal) (now : Timestamp) (publish : Bool) (cached : s.Caches p)
      (savable : p.isSavable = true) (kept : s.main.Kept t.main p now publish)
      (clear : publish = true → Collision.check s.main p.term p.classId p.lessons = .ok [])
      (cache : t.proposals = (s.proposals.delete p.id).1)
  | removed (id : Int) (x : SemesterSchedule) (asked : s.Deletes call id)
      (found : s.main.semesters.get? id = some x) (draft : x.status = .draft)
      (tables : (s.main.applyAll [.deleteSlots id, .deleteSchedule id]).SameTables t.main)
      (cache : t.proposals = s.proposals)
  | created (term : TermId) (classId : ClassId) (l : Lesson)
      (clear : Collision.check s.main term classId [l] = .ok [])
      (added : t.main = (s.main.addDaily (.ofLesson term classId l)).1)
      (cache : t.proposals = s.proposals)

theorem Caches.of_shrinks {p : Proposal} (cache : s.proposals.Shrinks t.proposals)
    (cached : t.Caches p) : s.Caches p := by
  obtain ⟨other, found⟩ := cached
  exact ⟨other, cache other p found⟩

end Session

namespace Service
variable {s t : Session} {tx : Nat}
open Session (Within)

theorem removeSemester_within {R : Store → Store → Prop} (kept : Store.KeptWithin tx R)
    (id : Int) : Keeps (Within R) (removeSemester id tx) := by
  apply within_bind kept (onMain_within kept (kept.deleteSlots id))
  intro n
  apply within_bind kept (onMain_within kept (kept.delete id))
  intro u
  exact keeps_pure (Within.refl kept.refl) n

theorem removeSemester_ok {id : Int} {n : Nat} (found : s.main.pending.get? tx = some [])
    (run : perform s (removeSemester id tx) = (.ok n, t)) :
    t.main.pending.get? tx = some [.deleteSlots id, .deleteSchedule id] := by
  obtain ⟨m, s₁, cleared, run⟩ := perform_bind_ok.mp run
  obtain ⟨u, slots, same⟩ := onMain_ok.mp cleared
  obtain ⟨_, _, _, first⟩ := Store.deleteSlots_ok.mp slots
  obtain ⟨done, s₂, gone, run⟩ := perform_bind_ok.mp run
  obtain ⟨v, schedule, same'⟩ := onMain_ok.mp gone
  obtain ⟨_, _, second⟩ := Store.delete_ok.mp schedule
  cases run
  subst same same'
  rw [second, first, Store.addStaged_addStaged]
  exact Store.addStaged_get found _

theorem perform_findSemester (s : Session) (id : Int) :
    perform s (findSemester id) =
      match s.main.check .findSemester, s.main.semesters.get? id with
      | .error e, _ => (.error (.internal e), s)
      | .ok _, none => (.error (.notFound s!"semester schedule {id}"), s)
      | .ok _, some x => (.ok x, s) := by
  simp only [findSemester, perform_bind, perform_get, perform_reading, Store.findSemester]
  cases s.main.check .findSemester with
  | error e => rfl
  | ok u => cases s.main.semesters.get? id <;> rfl

theorem findSemester_ok {id : Int} {x : SemesterSchedule}
    (run : perform s (findSemester id) = (.ok x, t)) :
    s.main.semesters.get? id = some x ∧ t = s := by
  rw [perform_findSemester] at run
  split at run <;> cases run
  exact ⟨by assumption, rfl⟩

theorem findSemester_error {id : Int} {e : ServiceError}
    (run : perform s (findSemester id) = (.error e, t)) : t = s := by
  rw [perform_findSemester] at run
  split at run <;> cases run
  · rfl
  · rfl

theorem deleteSemester_error {id : Int} {e : ServiceError}
    (run : perform s (deleteSemester id) = (.error e, t)) :
    t = s ∨ perform s (inTransaction (removeSemester id)) = (.error e, t) := by
  rcases perform_bind_error.mp run with failed | ⟨x, s₁, found, rest⟩
  · exact Or.inl (findSemester_error failed)
  · obtain ⟨_, same⟩ := findSemester_ok found
    subst same
    simp only [perform_unless] at rest
    split at rest
    · cases rest
      exact Or.inl rfl
    · rcases perform_bind_error.mp rest with failed | ⟨n, u, done, rest⟩
      · exact Or.inr failed
      · cases rest

theorem deleteSemester_ok {id : Int} {u : Unit}
    (run : perform s (deleteSemester id) = (.ok u, t)) :
    ∃ x n v, s.main.semesters.get? id = some x ∧ x.status = .draft ∧
      perform s (inTransaction (removeSemester id)) = (.ok n, v) ∧
      t.main = v.main ∧ t.proposals = v.proposals ∧ t.replica = v.replica := by
  obtain ⟨x, s₁, found, rest⟩ := perform_bind_ok.mp run
  obtain ⟨found, same⟩ := findSemester_ok found
  subst same
  simp only [perform_unless] at rest
  split at rest
  · cases rest
  · rename_i draft
    obtain ⟨n, v, done, rest⟩ := perform_bind_ok.mp rest
    cases rest
    exact ⟨x, n, v, found, Classical.not_not.mp draft, done, rfl, rfl, rfl⟩

theorem removed_ok {id : Int} {n : Nat}
    (done : perform s (inTransaction (removeSemester id)) = (.ok n, t)) :
    (s.main.applyAll [.deleteSlots id, .deleteSchedule id]).SameTables t.main ∧
      t.proposals = s.proposals ∧ (s.replica = none → t.replica = none) := by
  obtain ⟨v, ws, body, staged, applied, cache, replica, _⟩ := inTransaction_ok done
  have opened : s.main.opened.pending.get? s.main.nextTransaction = some [] :=
    Table.get?_insert_self _ _ _
  have writes := removeSemester_ok (s := { s with main := s.main.opened }) opened body
  cases staged.symm.trans writes
  have within := body_within (removeSemester_within (Store.staging_keptWithin _) id) body
  refine ⟨?_, cache.trans within.proposals, fun single => replica.trans (within.single single)⟩
  have applies := within.main.rollback.toSameTables.applyAll [.deleteSlots id, .deleteSchedule id]
  rw [← applied] at applies
  exact applies

structure GrantsDaily (r : CreateDailyRequest) (s t : Session) (row : DailyLesson) : Prop where
  shaped : r.check s.settings.maxSlotsPerDay = .ok ()
  referred : r.checkReferences s.main = .ok ()
  clear : Collision.check s.main r.term r.classId [r.toLesson] = .ok []
  row : row = (s.main.addDaily (.ofLesson r.term r.classId r.toLesson)).2
  state : t = { s with
    main := (s.main.addDaily (.ofLesson r.term r.classId r.toLesson)).1
    log := t.log }

theorem createDaily_grants {r : CreateDailyRequest} {row : DailyLesson} (single : s.replica = none)
    (run : perform s (createDaily r) = (.ok row, t)) : GrantsDaily r s t row := by
  obtain ⟨s₁, s₂, got, run⟩ := perform_bind_ok.mp run
  cases got
  obtain ⟨_, s₃, shaped, run⟩ := perform_bind_ok.mp run
  obtain ⟨shape, same⟩ := lift_iff.mp shaped
  subst same
  obtain ⟨_, s₄, referred, run⟩ := perform_bind_ok.mp run
  obtain ⟨known, same⟩ := lift_iff.mp referred
  subst same
  obtain ⟨collisions, s₅, reads, run⟩ := perform_bind_ok.mp run
  obtain ⟨looked, same⟩ := reading_ok.mp reads
  subst same
  rw [Session.feed_single single] at looked
  simp only [perform_unless] at run
  split at run
  · cases run
  · rename_i clear
    rw [Classical.not_not.mp clear] at looked
    obtain ⟨row', s₆, inserted, run⟩ := perform_bind_ok.mp run
    obtain ⟨x, put, same⟩ := onFeed_ok.mp inserted
    rw [Session.feed_single single] at put
    rw [Session.setFeed_single single] at same
    obtain ⟨_, made, added⟩ := Store.insert_ok.mp put
    cases run
    subst same
    subst added
    exact ⟨shape, known, looked, made, rfl⟩

theorem createDaily_ok {r : CreateDailyRequest} {row : DailyLesson} (single : s.replica = none)
    (run : perform s (createDaily r) = (.ok row, t)) :
    Collision.check s.main r.term r.classId [r.toLesson] = .ok [] ∧
      t.main = (s.main.addDaily (.ofLesson r.term r.classId r.toLesson)).1 ∧
      t.proposals = s.proposals ∧ t.replica = none ∧ t.settings = s.settings := by
  have grants := createDaily_grants single run
  refine ⟨grants.clear, ?_, ?_, ?_, ?_⟩ <;> rw [grants.state]
  exact single

theorem createDaily_error {r : CreateDailyRequest} {e : ServiceError} (single : s.replica = none)
    (run : perform s (createDaily r) = (.error e, t)) : t = s := by
  rcases perform_bind_error.mp run with failed | ⟨s₁, s₂, got, run⟩
  · cases failed
  cases got
  rcases perform_bind_error.mp run with failed | ⟨_, s₃, shaped, run⟩
  · exact (lift_iff.mp failed).2.symm
  cases (lift_iff.mp shaped).2
  rcases perform_bind_error.mp run with failed | ⟨_, s₄, referred, run⟩
  · exact (lift_iff.mp failed).2.symm
  cases (lift_iff.mp referred).2
  rcases perform_bind_error.mp run with failed | ⟨collisions, s₅, looked, run⟩
  · exact (Prod.mk.inj failed).2.symm
  cases (Prod.mk.inj looked).2
  simp only [perform_unless] at run
  split at run
  · cases run
    rfl
  rcases perform_bind_error.mp run with failed | ⟨row, s₆, inserted, run⟩
  · rw [perform_onFeed, Session.feed_single single, Session.setFeed_single single,
      Store.perform_insert] at failed
    cases checked : s.main.check .insert with
    | error e' =>
      rw [checked] at failed
      exact (Prod.mk.inj failed).2.symm
    | ok u =>
      rw [checked] at failed
      cases failed
  · cases run

theorem discardProposal_cases (s : Session) (id : String) :
    (perform s (discardProposal id)).2.main = s.main ∧
      (perform s (discardProposal id)).2.replica = s.replica ∧
      (perform s (discardProposal id)).2.proposals = (s.proposals.delete id).1 := by
  simp only [discardProposal, perform_bind, perform_get, perform_modify]
  split <;> exact ⟨rfl, rfl, rfl⟩

theorem generate_step {id : String} {now : Timestamp} {r : GenerateRequest}
    {result : Except ServiceError GenerateResponse} (single : s.replica = none)
    (run : perform s (generate id now r) = (result, t)) :
    t.replica = none ∧ Session.Step (.generate id now r) s t := by
  cases result with
  | error e =>
    rw [generate_error run]
    exact ⟨single, .quiet (Store.SameTables.refl _) (.of_eq rfl)⟩
  | ok answer =>
    obtain ⟨b, p, based, made, _, main, replica, _, cache⟩ := generate_ok run
    rw [Session.feed_single single] at based
    have asked : s.plans (.generate id now r) = [id] := by
      rw [Session.plans, run]
    refine ⟨replica.trans single, .planned b r id now asked based ?_ (made ▸ cache)⟩
    rw [main]
    exact Store.SameTables.refl _

theorem save_step {now : Timestamp} {r : SaveRequest} {result : Except ServiceError String}
    (single : s.replica = none) (run : perform s (save now r) = (result, t)) :
    t.replica = none ∧ Session.Step (.save now r) s t := by
  cases result with
  | error e =>
    obtain ⟨u, which, within, _⟩ := save_failed run
    rcases which with same | same
    · subst same
      exact ⟨within.single single, .quiet within.main.toSameTables (.of_eq within.proposals)⟩
    · subst same
      refine ⟨within.single single, .quiet within.main.toSameTables ?_⟩
      rw [within.proposals]
      exact ProposalCache.shrinks_get _ _ _
  | ok answer =>
    obtain ⟨p, cached, _, _, kept, clear, _, replica, _, cache⟩ := save_kept single run
    exact ⟨replica, .kept p now r.publish ⟨_, cached⟩ (save_savable run cached) kept clear cache⟩

theorem discardProposal_step {id : String} {result : Except ServiceError Unit}
    (single : s.replica = none) (run : perform s (discardProposal id) = (result, t)) :
    t.replica = none ∧ Session.Step (.discardProposal id) s t := by
  obtain ⟨main, replica, cache⟩ := discardProposal_cases s id
  rw [run] at main replica cache
  refine ⟨replica.trans single, .quiet ?_ ?_⟩
  · rw [main]
    exact Store.SameTables.refl _
  · rw [cache]
    exact ProposalCache.shrinks_delete _ _

theorem deleteSemester_step {id : Int} {result : Except ServiceError Unit}
    (single : s.replica = none) (run : perform s (deleteSemester id) = (result, t)) :
    t.replica = none ∧ Session.Step (.deleteSemester id) s t := by
  cases result with
  | error e =>
    rcases deleteSemester_error run with same | failed
    · rw [same]
      exact ⟨single, .quiet (Store.SameTables.refl _) (.of_eq rfl)⟩
    · have within := (inTransaction_error
        (fun tx => removeSemester_within (Store.staging_keptWithin tx) id) failed).1
      exact ⟨within.single single, .quiet within.main.toSameTables (.of_eq within.proposals)⟩
  | ok u =>
    obtain ⟨x, n, v, found, draft, done, main, cache, replica⟩ := deleteSemester_ok run
    obtain ⟨tables, sameCache, still⟩ := removed_ok done
    have asked : s.Deletes (.deleteSemester id) id := ⟨rfl, congrArg Prod.fst run⟩
    exact ⟨replica.trans (still single),
      .removed id x asked found draft (main ▸ tables) (cache.trans sameCache)⟩

theorem createDaily_step {r : CreateDailyRequest} {result : Except ServiceError DailyLesson}
    (single : s.replica = none) (run : perform s (createDaily r) = (result, t)) :
    t.replica = none ∧ Session.Step (.createDaily r) s t := by
  cases result with
  | error e =>
    rw [createDaily_error single run]
    exact ⟨single, .quiet (Store.SameTables.refl _) (.of_eq rfl)⟩
  | ok row =>
    obtain ⟨clear, added, cache, replica, _⟩ := createDaily_ok single run
    exact ⟨replica, .created r.term r.classId r.toLesson clear added cache⟩

end Service

namespace Session
variable {s : Session}
open Service

/-- Every call, whatever comes of it, does one of the five things. -/
theorem afterCall_step (single : s.replica = none) (call : ServiceCall) :
    (s.afterCall call).replica = none ∧ Step call s (s.afterCall call) := by
  cases call with
  | generate id now r => exact generate_step single (Prod.eta _).symm
  | save now r => exact save_step single (Prod.eta _).symm
  | discardProposal id => exact discardProposal_step single (Prod.eta _).symm
  | deleteSemester id => exact deleteSemester_step single (Prod.eta _).symm
  | createDaily r => exact createDaily_step single (Prod.eta _).symm
  | failOn name =>
    refine ⟨single, .quiet ?_ (.of_eq rfl)⟩
    simp only [afterCall, Store.failOn]
    split <;> exact ⟨rfl, rfl, rfl⟩
  | setHealthy healthy => exact ⟨single, .quiet ⟨rfl, rfl, rfl⟩ (.of_eq rfl)⟩
  | clearFailures => exact ⟨single, .quiet ⟨rfl, rfl, rfl⟩ (.of_eq rfl)⟩

theorem afterCalls_single (single : s.replica = none) (calls : List ServiceCall) :
    (s.afterCalls calls).replica = none := by
  induction calls generalizing s with
  | nil => exact single
  | cons call rest ih => exact ih (afterCall_step single call).1

theorem afterCalls_induction {P : Session → Prop} (single : s.replica = none) (start : P s)
    (step : ∀ s t, P s → s.replica = none → (∃ call, Step call s t) → P t)
    (calls : List ServiceCall) : P (s.afterCalls calls) := by
  induction calls generalizing s with
  | nil => exact start
  | cons call rest ih =>
    obtain ⟨still, did⟩ := afterCall_step single call
    exact ih still (step s _ start single ⟨call, did⟩)

end Session

end SchoolTimetable
