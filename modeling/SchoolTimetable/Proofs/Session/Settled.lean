import SchoolTimetable.Proofs.Session.Runs

/-!
No call leaves a transaction behind. A call is a run of its store, in which at most one transaction
is opened; that one has ended when the call has, whatever came of it, and the others are as they
were. So a store that has drawn all its ids goes on drawing new ones.
-/
namespace SchoolTimetable

namespace Store
variable {s t u : Store}

/-- Some calls make the one store of the other, and the open transactions are the same. -/
structure Settles (s t : Store) : Prop where
  leads : s.Leads t
  pending : s.Drawn → t.pending = s.pending

namespace Settles

theorem refl (s : Store) : Settles s s := ⟨Leads.refl s, fun _ => rfl⟩

theorem drawn (settles : Settles s t) (drawn : s.Drawn) : t.Drawn :=
  drawn.leads settles.leads

theorem trans (first : Settles s t) (second : Settles t u) : Settles s u where
  leads := first.leads.trans second.leads
  pending := by
    intro drawn
    rw [second.pending (first.drawn drawn), first.pending drawn]

theorem call (call : StoreCall) (same : (s.afterCall call).pending = s.pending) :
    Settles s (s.afterCall call) := ⟨Leads.call s call, fun _ => same⟩

end Settles

end Store

namespace Service
variable {α : Type} {s t : Session} {tx : Nat}
open Session (Within)

theorem commit_leads (tx : Nat) : Keeps (Within Store.Leads) (commit tx) := by
  have kept := Store.leads_keptWithin tx
  apply within_bind kept (onMain_within kept fun s => .call s (.commit tx))
  intro n s
  exact ⟨rfl, rfl, rfl, Store.Leads.refl _, Store.Leads.refl _⟩

theorem inTransaction_settles {body : Nat → Service α} {result : Except ServiceError α}
    (within : ∀ {tx R}, Store.KeptWithin tx R → Keeps (Within R) (body tx))
    (run : perform s (inTransaction body) = (result, t)) : s.main.Settles t.main := by
  rw [perform_inTransaction, perform_onMain_begin] at run
  cases checked : s.main.check .begin with
  | error e =>
    rw [checked] at run
    cases run
    exact Store.Settles.refl _
  | ok v =>
    rw [checked] at run
    simp only at run
    have opened : s.main.Leads s.main.opened := by
      have called := Store.Leads.call s.main .begin
      rw [Store.afterCall, Store.perform_begin, checked] at called
      exact called
    -- the body is a run of calls, and it leaves alone what the other transactions have staged
    split at run
    · rename_i e u failed
      cases run
      have inside := (within (Store.leads_keptWithin _)).result failed
      have staging := body_within (within (Store.staging_keptWithin _)) failed
      exact ⟨(opened.trans inside.main).trans (.call u.main (.rollback _)),
        fun drawn => staging.main.rollback_pending drawn.closed_next⟩
    · rename_i a u done
      have inside := (within (Store.leads_keptWithin _)).result done
      have staging := body_within (within (Store.staging_keptWithin _)) done
      cases committed : perform u (commit s.main.nextTransaction) with
      | mk ended v =>
        have after := (commit_leads s.main.nextTransaction).result committed
        have same : t = v := by
          rw [committed] at run
          cases ended <;> exact (Prod.mk.inj run).2.symm
        rw [same]
        refine ⟨(opened.trans inside.main).trans after.main, fun drawn => ?_⟩
        exact (commit_pending committed).trans (staging.main.rollback_pending drawn.closed_next)

theorem save_settles {now : Timestamp} {r : SaveRequest} {result : Except ServiceError String}
    (run : perform s (save now r) = (result, t)) : s.main.Settles t.main := by
  have whole : ∀ {p} {u : Session} {outcome : Except ServiceError SemesterSchedule},
      perform (s.looked r.proposal now) (inTransaction (persist now p r.publish)) = (outcome, u) →
      s.main.Settles u.main :=
    inTransaction_settles fun kept => persist_within kept now _ r.publish
  cases result with
  | error e =>
    rcases save_error_cases run with (same | same) | ⟨p, failed⟩
    · exact same ▸ Store.Settles.refl _
    · exact same ▸ Store.Settles.refl _
    · exact whole failed
  | ok answer =>
    obtain ⟨p, x, u, _, _, done, _, main, _⟩ := save_ok run
    rw [main]
    exact whole done

theorem deleteSemester_settles {id : Int} {result : Except ServiceError Unit}
    (run : perform s (deleteSemester id) = (result, t)) : s.main.Settles t.main := by
  cases result with
  | error e =>
    rcases deleteSemester_error run with same | failed
    · exact same ▸ Store.Settles.refl _
    · exact inTransaction_settles (fun kept => removeSemester_within kept id) failed
  | ok u =>
    obtain ⟨x, n, v, _, _, done, main, _⟩ := deleteSemester_ok run
    rw [main]
    exact inTransaction_settles (fun kept => removeSemester_within kept id) done

theorem createDaily_settles {r : CreateDailyRequest} {result : Except ServiceError DailyLesson}
    (single : s.replica = none) (run : perform s (createDaily r) = (result, t)) :
    s.main.Settles t.main := by
  cases result with
  | error e =>
    rw [createDaily_error single run]
    exact Store.Settles.refl _
  | ok row =>
    obtain ⟨_, added, _⟩ := createDaily_ok single run
    rw [added]
    exact .call (.addDaily _) rfl

theorem generate_main {id : String} {now : Timestamp} {r : GenerateRequest}
    {result : Except ServiceError GenerateResponse}
    (run : perform s (generate id now r) = (result, t)) : t.main = s.main := by
  cases result with
  | error e => rw [generate_error run]
  | ok answer =>
    obtain ⟨_, _, _, _, _, main, _⟩ := generate_ok run
    exact main

theorem generate_settles {id : String} {now : Timestamp} {r : GenerateRequest}
    {result : Except ServiceError GenerateResponse}
    (run : perform s (generate id now r) = (result, t)) : s.main.Settles t.main :=
  generate_main run ▸ Store.Settles.refl _

end Service

namespace Session
variable {s : Session}
open Service

theorem afterCall_settles (single : s.replica = none) (call : ServiceCall) :
    s.main.Settles (s.afterCall call).main := by
  cases call with
  | generate id now r => exact generate_settles (Prod.eta _).symm
  | save now r => exact save_settles (Prod.eta _).symm
  | discardProposal id =>
    rw [afterCall, (discardProposal_cases s id).1]
    exact Store.Settles.refl _
  | deleteSemester id => exact deleteSemester_settles (Prod.eta _).symm
  | createDaily r => exact createDaily_settles single (Prod.eta _).symm
  | setHealthy healthy => exact .call (.setHealthy healthy) rfl
  | failOn name =>
    apply Store.Settles.call (.failOn name)
    simp only [Store.afterCall, Store.failOn]
    split <;> rfl
  | clearFailures => exact .call .clearFailures rfl

/-- Whatever is called, the main store goes on as a store does, and no transaction is left open. -/
theorem afterCalls_settles (single : s.replica = none) (calls : List ServiceCall) :
    s.main.Settles (s.afterCalls calls).main := by
  induction calls generalizing s with
  | nil => exact Store.Settles.refl _
  | cons call rest ih =>
    exact (afterCall_settles single call).trans (ih (afterCall_step single call).1)

end Session

end SchoolTimetable
