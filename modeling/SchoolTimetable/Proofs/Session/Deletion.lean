import SchoolTimetable.Proofs.Session.Settled

/-!
Deleting a schedule. A fault can stop the deletion at each of its operations; wherever it does, the
transaction that was opened is gone again, and of the stores only the next transaction id tells of
it. A deletion that nothing stops takes the draft and all of its slots, and takes nothing else.
-/
namespace SchoolTimetable

namespace Store
variable {s t : Store} {tx : Nat} {id : Int}

theorem check_opened (s : Store) (o : Operation) : s.opened.check o = s.check o := rfl

theorem check_addStaged (s : Store) (ws : List StagedWrite) (o : Operation) :
    (s.addStaged tx ws).check o = s.check o := rfl

def Hindered (s : Store) (os : List Operation) : Prop := ∃ o ∈ os, s.check o ≠ .ok ()

theorem hindered_of {o : Operation} {os : List Operation} {e : StoreError} (listed : o ∈ os)
    (fault : s.check o = .error e) : s.Hindered os :=
  ⟨o, listed, fun passed => nomatch fault.symm.trans passed⟩

theorem hindered_cons {o : Operation} {os : List Operation} :
    s.Hindered (o :: os) ↔ s.check o ≠ .ok () ∨ s.Hindered os := by
  simp [Hindered]

theorem not_hindered_of_fit (fit : s.Fit) (os : List Operation) : ¬ s.Hindered os :=
  fun ⟨o, _, fault⟩ => fault (check_of_fit fit o)

def HasDraft (s : Store) (id : Int) : Prop :=
  ∃ x, s.semesters.get? id = some x ∧ x.status = .draft

def removalSteps : List Operation := [.begin, .deleteSlots, .delete, .commit]

/-- What a deletion needs: a draft, and that no fault stops one of its operations. -/
def Deletable (s : Store) (id : Int) : Prop :=
  s.HasDraft id ∧ ¬ s.Hindered (.findSemester :: removalSteps)

/-- One schedule is gone with all of its slots. It was a draft, and nothing else has changed. -/
structure Removed (id : Int) (s t : Store) : Prop where
  draft : s.HasDraft id
  gone : t.semesters.get? id = none
  others : ∀ k, k ≠ id → t.semesters.get? k = s.semesters.get? k
  cleared : ∀ c, t.slots.get? (id, c) = none
  otherSlots : ∀ k, k.1 ≠ id → t.slots.get? k = s.slots.get? k
  rest : t = { s with
    semesters := t.semesters
    slots := t.slots
    nextTransaction := s.nextTransaction + 1 }

def skipped (s : Store) : Store := { s with nextTransaction := s.nextTransaction + 1 }

theorem removed_applied (draft : s.HasDraft id) :
    s.Removed id (s.skipped.applyAll [.deleteSlots id, .deleteSchedule id]) where
  draft := draft
  gone := Table.get?_erase_self _ _
  others := fun _ apart => Table.get?_erase_of_ne _ apart
  cleared := by
    intro c
    have dropped : ¬ (id != id) = true := fun apart => bne_iff_ne.mp apart rfl
    exact (Table.get?_filter_keys (fun k => k.1 != id) s.slots (id, c)).trans (if_neg dropped)
  otherSlots := by
    intro k apart
    have kept : (k.1 != id) = true := bne_iff_ne.mpr apart
    exact (Table.get?_filter_keys (fun k => k.1 != id) s.slots k).trans (if_pos kept)
  rest := rfl

theorem rollback_skipped (closed : s.pending.get? s.nextTransaction = none)
    (staging : s.Staging s.nextTransaction t) (same : t = { s.opened with pending := t.pending }) :
    t.rollback s.nextTransaction = s.skipped := by
  have pending := staging.rollback_pending closed
  calc t.rollback s.nextTransaction
      = { t with pending := (t.rollback s.nextTransaction).pending } := rfl
    _ = { t with pending := s.pending } := by rw [pending]
    _ = s.skipped := by rw [same]; rfl

theorem rollback_staged (closed : s.pending.get? s.nextTransaction = none)
    (ws : List StagedWrite) :
    (s.opened.addStaged s.nextTransaction ws).rollback s.nextTransaction = s.skipped :=
  rollback_skipped closed ((Staging.opened s).trans (.addStaged _ ws)) rfl

/-- A transaction still sees a schedule of which it has deleted the slots. -/
theorem visibleSchedule_slotsDeleted {x : SemesterSchedule}
    (found : s.pending.get? tx = some []) (stored : s.semesters.get? id = some x) :
    (s.addStaged tx [.deleteSlots id]).visibleSchedule tx id = .ok (some x) := by
  rw [visibleSchedule, staged_eq_ok_iff.mpr (addStaged_get found _)]
  exact congrArg Except.ok stored

end Store

namespace Session

/-- Nothing but the log differs, and that a transaction id may have been drawn. -/
structure Untouched (s t : Session) : Prop where
  store : t.main = s.main ∨ t.main = s.main.skipped
  rest : t = { s with main := t.main, log := t.log }

theorem Untouched.refl (s : Session) : s.Untouched s := ⟨.inl rfl, rfl⟩

end Session

namespace Service
variable {s t : Session} {tx : Nat} {id : Int} {x : SemesterSchedule}

theorem perform_removeSemester (found : s.main.pending.get? tx = some [])
    (stored : s.main.semesters.get? id = some x) :
    perform s (removeSemester id tx) =
      match s.main.check .deleteSlots, s.main.check .delete with
      | .error e, _ => (.error (.internal e), s)
      | .ok _, .error e =>
        (.error (.internal e), { s with main := s.main.addStaged tx [.deleteSlots id] })
      | .ok _, .ok _ => (.ok (s.main.slotsOf id).length,
        { s with main := s.main.addStaged tx [.deleteSlots id, .deleteSchedule id] }) := by
  rw [removeSemester, perform_bind, perform_onMain, Store.perform_deleteSlots, found]
  cases s.main.check .deleteSlots with
  | error e => rfl
  | ok u =>
    simp only
    rw [mapError_ok.mpr rfl]
    simp only
    rw [perform_bind, perform_onMain, Store.perform_delete, Store.check_addStaged,
      Store.visibleSchedule_slotsDeleted found stored]
    cases s.main.check .delete with
    | error e => rfl
    | ok u =>
      simp only [Store.addStaged_addStaged]
      rfl

theorem perform_commit_clear {ws : List StagedWrite} (found : s.main.pending.get? tx = some ws)
    (clear : s.main.versionClash? ws = none) :
    perform s (commit tx) = match s.main.check .commit with
      | .error e => (.error (.internal e), { s with main := s.main.rollback tx })
      | .ok _ => (.ok (), Session.addNotes { s with main := (s.main.rollback tx).applyAll ws }
        [Store.commitNote tx ws.length]) := by
  rw [commit, perform_bind, perform_onMain, Store.perform_commit, found]
  cases s.main.check .commit with
  | error e => rfl
  | ok u =>
    simp only [clear]
    rfl

theorem removal_outcome (closed : s.main.pending.get? s.main.nextTransaction = none)
    (stored : s.main.semesters.get? id = some x) :
    (s.main.Hindered Store.removalSteps ∧
      ∃ e t, perform s (inTransaction (removeSemester id)) = (.error e, t) ∧ s.Untouched t) ∨
    (¬ s.main.Hindered Store.removalSteps ∧
      ∃ n t, perform s (inTransaction (removeSemester id)) = (.ok n, t) ∧
        t = { s with
          main := s.main.skipped.applyAll [.deleteSlots id, .deleteSchedule id]
          log := t.log }) := by
  have opened : s.main.opened.pending.get? s.main.nextTransaction = some [] :=
    Table.get?_insert_self _ _ _
  have body := perform_removeSemester (s := { s with main := s.main.opened }) opened stored
  have ended := perform_commit_clear
    (s := { s with
      main := s.main.opened.addStaged s.main.nextTransaction
        [.deleteSlots id, .deleteSchedule id] })
    (Store.addStaged_get opened _) rfl
  simp only [Store.check_opened, Store.check_addStaged] at body ended
  rw [perform_inTransaction, perform_onMain_begin]
  -- the steps in their order, each of which a fault may stop
  cases begins : s.main.check .begin with
  | error e => exact .inl ⟨Store.hindered_of (by decide) begins, _, s, rfl, .refl s⟩
  | ok u =>
    cases clears : s.main.check .deleteSlots with
    | error e =>
      rw [clears] at body
      simp only [body]
      refine .inl ⟨Store.hindered_of (by decide) clears, _, _, rfl, .inr ?_, rfl⟩
      exact Store.rollback_skipped closed (.opened s.main) rfl
    | ok u =>
      cases removes : s.main.check .delete with
      | error e =>
        rw [clears, removes] at body
        simp only [body]
        refine .inl ⟨Store.hindered_of (by decide) removes, _, _, rfl, .inr ?_, rfl⟩
        exact Store.rollback_staged closed _
      | ok u =>
        rw [clears, removes] at body
        simp only [body]
        cases commits : s.main.check .commit with
        | error e =>
          rw [commits] at ended
          simp only [ended]
          refine .inl ⟨Store.hindered_of (by decide) commits, _, _, rfl, .inr ?_, rfl⟩
          exact Store.rollback_staged closed _
        | ok u =>
          rw [commits] at ended
          simp only [ended]
          refine .inr ⟨?_, _, _, rfl, ?_⟩
          · simp [Store.Hindered, Store.removalSteps, begins, clears, removes, commits]
          · rw [Store.rollback_staged closed]
            rfl

theorem deleteSemester_outcome (closed : s.main.pending.get? s.main.nextTransaction = none)
    (id : Int) :
    (¬ s.main.Deletable id ∧
      ∃ e t, perform s (deleteSemester id) = (.error e, t) ∧ s.Untouched t) ∨
    (s.main.Deletable id ∧
      ∃ t, perform s (deleteSemester id) = (.ok (), t) ∧ s.main.Removed id t.main ∧
        t = { s with main := t.main, log := t.log }) := by
  rw [deleteSemester, perform_bind, perform_findSemester]
  cases finds : s.main.check .findSemester with
  | error e =>
    exact .inl ⟨fun able => able.2 (Store.hindered_of (by simp) finds), _, s, rfl, .refl s⟩
  | ok u =>
    cases stored : s.main.semesters.get? id with
    | none =>
      refine .inl ⟨fun able => ?_, _, s, rfl, .refl s⟩
      obtain ⟨⟨x, found, _⟩, _⟩ := able
      cases stored.symm.trans found
    | some x =>
      simp only [perform_unless]
      split
      · rename_i published
        refine .inl ⟨fun able => ?_, _, s, rfl, .refl s⟩
        obtain ⟨⟨y, found, draft⟩, _⟩ := able
        cases stored.symm.trans found
        exact published draft
      · rename_i draft
        have hasDraft : s.main.HasDraft id := ⟨x, stored, Classical.not_not.mp draft⟩
        rcases removal_outcome closed stored with ⟨hindered, e, t, failed, untouched⟩ |
          ⟨clear, n, t, done, same⟩
        · rw [perform_bind_of_error _ failed]
          have unable : ¬ s.main.Deletable id := fun able =>
            able.2 (Store.hindered_cons.mpr (.inr hindered))
          exact .inl ⟨unable, e, t, rfl, untouched⟩
        · rw [perform_bind_of_ok _ done]
          refine .inr ⟨⟨hasDraft, ?_⟩, _, rfl, ?_⟩
          · simpa only [Store.hindered_cons, finds, ne_eq, not_true, false_or] using clear
          · rw [same]
            exact ⟨Store.removed_applied hasDraft, rfl⟩

theorem deleteSemester_ok_iff (closed : s.main.pending.get? s.main.nextTransaction = none)
    (id : Int) : (∃ t, perform s (deleteSemester id) = (.ok (), t)) ↔ s.main.Deletable id := by
  rcases deleteSemester_outcome closed id with ⟨unable, e, t, failed, _⟩ | ⟨able, t, done, _⟩
  · refine iff_of_false (fun succeeds => ?_) unable
    obtain ⟨u, done⟩ := succeeds
    cases failed.symm.trans done
  · exact iff_of_true ⟨t, done⟩ able

/-- Whatever the store has been through and whatever faults are switched on, a deletion takes the
draft with all of its slots and nothing else, or it fails and takes nothing; open transactions keep
what they have staged. While no fault is switched on, it succeeds just for drafts. -/
theorem deleteSemester_exact (s : Session) (reached : s.main.Reachable) (id : Int) :
    (∀ t, perform s (deleteSemester id) = (.ok (), t) →
      s.main.Removed id t.main ∧ t = { s with main := t.main, log := t.log }) ∧
    (∀ e t, perform s (deleteSemester id) = (.error e, t) → s.Untouched t) ∧
    (s.main.Fit → ((∃ t, perform s (deleteSemester id) = (.ok (), t)) ↔ s.main.HasDraft id)) := by
  have closed := reached.drawn.closed_next
  refine ⟨fun t done => ?_, fun e t failed => ?_, fun fit => ?_⟩
  · rcases deleteSemester_outcome closed id with ⟨_, e, u, failed, _⟩ | ⟨_, u, done', removed⟩
    · cases failed.symm.trans done
    · cases done'.symm.trans done
      exact removed
  · rcases deleteSemester_outcome closed id with ⟨_, e', u, failed', untouched⟩ | ⟨_, u, done, _⟩
    · cases failed'.symm.trans failed
      exact untouched
    · cases done.symm.trans failed
  · rw [deleteSemester_ok_iff closed, Store.Deletable]
    exact and_iff_left (Store.not_hindered_of_fit fit _)

def neighbours (later : List StoreCall) : Session where
  main := Store.afterCalls {} <|
    let draft : NewSemesterSchedule := ⟨"t1", "c1", .draft, .null⟩
    [.begin, .createVersioned ⟨20000, 0, 0⟩ 1 draft, .createVersioned ⟨20000, 0, 0⟩ 1 draft,
      .bulkUpsert 1 [⟨1, ⟨1, 1⟩, "math", "ann", none⟩, ⟨2, ⟨1, 1⟩, "art", "bea", none⟩,
        ⟨1, ⟨3, 2⟩, "math", "ann", none⟩],
      .updateStatus 1 2 .published, .commit 1, .begin,
      .createVersioned ⟨20000, 1, 0⟩ 2 draft] ++ later
  proposals := { ttl := Timestamp.seconds 60 }

/-- The draft goes with both of its slots, unless the commit fails; the published timetable stays in
any case. -/
theorem deleteSemester_exact_neighbours :
    (∃ t, perform (neighbours []) (deleteSemester 1) = (.ok (), t) ∧
      (neighbours []).main.Removed 1 t.main ∧ t.main.slots.keys = [(2, ⟨1, 1⟩)]) ∧
    (¬ ∃ t, perform (neighbours []) (deleteSemester 2) = (.ok (), t)) ∧
    ∃ e t, perform (neighbours [.failOn "commit"]) (deleteSemester 1) = (.error e, t) ∧
      (neighbours [.failOn "commit"]).Untouched t ∧ t.main.nextTransaction = 4 := by
  have fit : (neighbours []).main.Fit := ⟨by decide +kernel, by decide +kernel⟩
  have first : ((neighbours []).main.semesters.get? 1).map (·.status) = some .draft := by
    decide +kernel
  have second : ((neighbours []).main.semesters.get? 2).map (·.status) = some .published := by
    decide +kernel
  obtain ⟨removes, _, succeeds⟩ := deleteSemester_exact (neighbours []) ⟨_, rfl⟩ 1
  obtain ⟨_, undone, _⟩ := deleteSemester_exact (neighbours [.failOn "commit"]) ⟨_, rfl⟩ 1
  refine ⟨?_, ?_, ?_⟩
  · obtain ⟨t, done⟩ := (succeeds fit).mpr (Option.map_eq_some_iff.mp first)
    have left : (perform (neighbours []) (deleteSemester 1)).2.main.slots.keys =
        [(2, ⟨1, 1⟩)] := by decide +kernel
    rw [done] at left
    exact ⟨t, done, (removes t done).1, left⟩
  · intro succeeded
    obtain ⟨x, found, draft⟩ := ((deleteSemester_exact (neighbours []) ⟨_, rfl⟩ 2).2.2 fit).mp
      succeeded
    rw [found, Option.map_some, draft] at second
    cases second
  · have stuck : (perform (neighbours [.failOn "commit"]) (deleteSemester 1)).1.isOk = false := by
      decide +kernel
    have drawn : (perform (neighbours [.failOn "commit"])
        (deleteSemester 1)).2.main.nextTransaction = 4 := by decide +kernel
    obtain ⟨e, t, failed⟩ := perform_fails stuck
    rw [failed] at drawn
    exact ⟨e, t, failed, undone e t failed, drawn⟩

end Service

end SchoolTimetable
