import SchoolTimetable.Session.Proposals
import SchoolTimetable.Proofs.Store.Staging

/-!
What comes of the steps that services are made of: updates of the stores, notes, look-ups in the
cache, and whole transactions. A transaction whose body stages only is undone when the body or
the commit fails.
-/
namespace SchoolTimetable

namespace ProposalCache
variable {c : ProposalCache} {id : String} {now : Timestamp}

theorem get_cases (c : ProposalCache) (id : String) (now : Timestamp) :
    (c.get id now).1 = c ∨ ∃ p, c.entries.get? id = some p ∧ p.isExpired now c.ttl = true ∧
      (c.get id now).1 = (c.delete id).1 := by
  unfold get
  split
  · exact Or.inl rfl
  · rename_i p found
    split
    · rename_i expired
      exact Or.inr ⟨p, found, expired, rfl⟩
    · exact Or.inl rfl

theorem get_some {p : Proposal} :
    (c.get id now).2 = some p ↔ c.entries.get? id = some p ∧ p.isExpired now c.ttl = false := by
  unfold get
  cases c.entries.get? id with
  | none => simp
  | some q =>
    cases expired : q.isExpired now c.ttl with
    | true =>
      simp only [expired, if_true, Option.some.injEq]
      constructor
      · intro h
        cases h
      · intro h
        rw [← h.1, expired] at h
        cases h.2
    | false =>
      simp only [expired, Bool.false_eq_true, if_false, Option.some.injEq]
      constructor
      · intro same
        exact ⟨same, same ▸ expired⟩
      · exact And.left

theorem get_some_cache {p : Proposal} (found : (c.get id now).2 = some p) :
    (c.get id now).1 = c := by
  obtain ⟨here, fresh⟩ := get_some.mp found
  unfold get
  rw [here]
  simp [fresh]

/-- What look-ups, removals and new proposals make of an empty cache. -/
inductive Reachable : ProposalCache → Prop
  | new (ttl : Int) : Reachable { ttl }
  | save {c : ProposalCache} (reached : Reachable c) (p : Proposal) : Reachable (c.save p)
  | get {c : ProposalCache} (reached : Reachable c) (id : String) (now : Timestamp) :
    Reachable (c.get id now).1
  | delete {c : ProposalCache} (reached : Reachable c) (id : String) : Reachable (c.delete id).1

theorem delete_get? {p : Proposal} {other : String}
    (found : (c.delete id).1.entries.get? other = some p) : c.entries.get? other = some p :=
  Table.get?_erase_source found

theorem get_get? {p : Proposal} {other : String}
    (found : (c.get id now).1.entries.get? other = some p) : c.entries.get? other = some p := by
  rcases get_cases c id now with same | ⟨q, _, _, gone⟩
  · rw [same] at found
    exact found
  · rw [gone] at found
    exact delete_get? found

theorem save_get? {p q : Proposal} {other : String}
    (found : (c.save p).entries.get? other = some q) :
    (other = p.id ∧ q = p) ∨ c.entries.get? other = some q := Table.get?_insert_source found

def Shrinks (c d : ProposalCache) : Prop :=
  ∀ id p, d.entries.get? id = some p → c.entries.get? id = some p

theorem Shrinks.of_eq {d : ProposalCache} (same : d = c) : c.Shrinks d :=
  fun _ _ found => same ▸ found

theorem shrinks_delete (c : ProposalCache) (id : String) : c.Shrinks (c.delete id).1 :=
  fun _ _ => delete_get?

theorem shrinks_get (c : ProposalCache) (id : String) (now : Timestamp) :
    c.Shrinks (c.get id now).1 :=
  fun _ _ => get_get?

theorem Reachable.keyed (reached : c.Reachable) :
    ∀ id p, c.entries.get? id = some p → p.id = id := by
  induction reached with
  | new ttl =>
    intro id p found
    cases found
  | save reached q ih =>
    intro id p found
    rcases save_get? found with ⟨here, same⟩ | old
    · rw [same, here]
    · exact ih id p old
  | get reached k now ih => exact fun id p found => ih id p (get_get? found)
  | delete reached k ih => exact fun id p found => ih id p (delete_get? found)

end ProposalCache

namespace Service
variable {α : Type} {s t : Session} {tx : Nat}

theorem perform_note (s : Session) (notes : List LogRecord) :
    perform s (note notes) = (.ok ⟨⟩, s.addNotes notes) := rfl

theorem perform_reading (s : Session) (r : Except StoreError α) :
    perform s (reading r) = (r.mapError .internal, s) := rfl

theorem perform_onMain (s : Session) (u : StoreUpdate α) :
    perform s (onMain u) =
      ((perform s.main u).1.mapError .internal, { s with main := (perform s.main u).2 }) := rfl

theorem perform_onFeed (s : Session) (u : StoreUpdate α) :
    perform s (onFeed u) =
      ((perform s.feed u).1.mapError .internal, s.setFeed (perform s.feed u).2) := rfl

theorem perform_outcome (s : Session) (x : Service α) :
    perform s (outcome x) = (.ok (perform s x).1, (perform s x).2) := rfl

theorem reading_ok {r : Except StoreError α} {a : α} :
    perform s (reading r) = (.ok a, t) ↔ r = .ok a ∧ s = t := by
  rw [perform_reading, Prod.mk.injEq, mapError_ok]

theorem onMain_ok {u : StoreUpdate α} {a : α} :
    perform s (onMain u) = (.ok a, t) ↔
      ∃ x, perform s.main u = (.ok a, x) ∧ t = { s with main := x } := by
  rw [perform_onMain, Prod.mk.injEq, mapError_ok]
  constructor
  · intro h
    exact ⟨(perform s.main u).2, Prod.ext h.1 rfl, h.2.symm⟩
  · intro h
    obtain ⟨x, run, same⟩ := h
    rw [run]
    exact ⟨rfl, same.symm⟩

theorem onFeed_ok {u : StoreUpdate α} {a : α} :
    perform s (onFeed u) = (.ok a, t) ↔
      ∃ x, perform s.feed u = (.ok a, x) ∧ t = s.setFeed x := by
  rw [perform_onFeed, Prod.mk.injEq, mapError_ok]
  constructor
  · intro h
    exact ⟨(perform s.feed u).2, Prod.ext h.1 rfl, h.2.symm⟩
  · intro h
    obtain ⟨x, run, same⟩ := h
    rw [run]
    exact ⟨rfl, same.symm⟩

end Service

namespace Session
variable {s t u : Session} {tx : Nat}

theorem feed_single (single : s.replica = none) : s.feed = s.main := by
  simp [feed, single]

theorem setFeed_single (single : s.replica = none) (x : Store) :
    s.setFeed x = { s with main := x } := by
  simp [setFeed, single]

theorem feed_apart {F : Store} (apart : s.replica = some F) : s.feed = F := by
  rw [feed, apart]
  rfl

theorem setFeed_apart {F : Store} (apart : s.replica = some F) (x : Store) :
    s.setFeed x = { s with replica := some x } := by
  rw [setFeed, apart]

def looked (s : Session) (id : String) (now : Timestamp) : Session :=
  { s.addNotes (s.proposals.getNotes id now) with proposals := (s.proposals.get id now).1 }

/-- Nothing but the log and the stores differs, and each store from what it was by `R`. -/
structure Within (R : Store → Store → Prop) (s t : Session) : Prop where
  proposals : t.proposals = s.proposals
  settings : t.settings = s.settings
  shape : t.replica.isSome = s.replica.isSome
  main : R s.main t.main
  feed : R s.feed t.feed

namespace Within
variable {R : Store → Store → Prop}

theorem refl (same : ∀ s, R s s) (s : Session) : Within R s s :=
  ⟨rfl, rfl, rfl, same s.main, same s.feed⟩

theorem trans (both : ∀ {a b c}, R a b → R b c → R a c) (first : Within R s t)
    (second : Within R t u) : Within R s u where
  proposals := second.proposals.trans first.proposals
  settings := second.settings.trans first.settings
  shape := second.shape.trans first.shape
  main := both first.main second.main
  feed := both first.feed second.feed

theorem single (within : Within R s t) (single : s.replica = none) : t.replica = none := by
  have shape := within.shape
  rw [single] at shape
  exact Option.not_isSome_iff_eq_none.mp (Bool.eq_false_iff.mp shape)

end Within

structure Staging (tx : Nat) (s t : Session) : Prop where
  proposals : t.proposals = s.proposals
  settings : t.settings = s.settings
  single : s.replica = none → t.replica = none
  main : s.replica = none → s.main.Staging tx t.main

theorem Within.staging (within : Within (Store.Staging tx) s t) : Staging tx s t :=
  ⟨within.proposals, within.settings, within.single, fun _ => within.main⟩

end Session

namespace Service
variable {α : Type} {s t : Session} {tx : Nat} {R : Store → Store → Prop}
open Session (Within)

theorem within_bind {β : Type} {x : Service α} {f : α → Service β} (kept : Store.KeptWithin tx R)
    (first : Keeps (Within R) x) (rest : ∀ a, Keeps (Within R) (f a)) :
    Keeps (Within R) (x >>= f) :=
  keeps_bind (R := Within R) (Within.trans kept.trans) first rest

theorem onMain_within (kept : Store.KeptWithin tx R) {u : StoreUpdate α} (keeps : Keeps R u) :
    Keeps (Within R) (onMain u) := by
  intro s
  rw [perform_onMain]
  refine ⟨rfl, rfl, rfl, keeps s.main, ?_⟩
  cases replica : s.replica with
  | none =>
    simp only [Session.feed, replica]
    exact keeps s.main
  | some x =>
    simp only [Session.feed, replica]
    exact kept.refl x

theorem onFeed_within (kept : Store.KeptWithin tx R) {u : StoreUpdate α} (keeps : Keeps R u) :
    Keeps (Within R) (onFeed u) := by
  intro s
  rw [perform_onFeed]
  cases replica : s.replica with
  | none =>
    rw [Session.setFeed_single replica, Session.feed_single replica]
    refine ⟨rfl, rfl, rfl, keeps s.main, ?_⟩
    simp only [Session.feed, replica]
    exact keeps s.main
  | some x =>
    simp only [Session.setFeed, replica]
    refine ⟨rfl, rfl, ?_, kept.refl s.main, keeps s.feed⟩
    rw [replica]
    rfl

theorem perform_onMain_begin (s : Session) :
    perform s (onMain Store.begin) = match s.main.check .begin with
      | .ok _ => (.ok s.main.nextTransaction, { s with main := s.main.opened })
      | .error e => (.error (.internal e), s) := by
  rw [perform_onMain, Store.perform_begin]
  cases s.main.check .begin <;> rfl

theorem perform_inTransaction (s : Session) (body : Nat → Service α) :
    perform s (inTransaction body) =
      match perform s (onMain Store.begin) with
      | (.error e, t) => (.error e, t)
      | (.ok tx, t) =>
        match perform t (body tx) with
        | (.error e, u) => (.error e,
          Session.addNotes { u with main := u.main.rollback tx } (u.main.rollbackNotes tx))
        | (.ok a, u) =>
          match perform u (commit tx) with
          | (.error e, v) => (.error e, v)
          | (.ok _, v) => (.ok a, v) := by
  rw [inTransaction, perform_bind]
  cases perform s (onMain Store.begin) with
  | mk begun t =>
    cases begun with
    | error e => rfl
    | ok tx =>
      simp only [perform_bind, perform_outcome]
      cases perform t (body tx) with
      | mk done u =>
        cases done with
        | error e => rfl
        | ok a =>
          simp only [perform_bind, perform_pure]
          cases perform u (commit tx) with
          | mk ended v => cases ended <;> rfl

theorem commit_ok {u : Unit} (run : perform s (commit tx) = (.ok u, t)) :
    ∃ ws, s.main.pending.get? tx = some ws ∧ t.main = (s.main.rollback tx).applyAll ws ∧
      t.proposals = s.proposals ∧ t.replica = s.replica ∧ t.settings = s.settings := by
  obtain ⟨n, v, done, rest⟩ := perform_bind_ok.mp run
  obtain ⟨x, inside, same⟩ := onMain_ok.mp done
  obtain ⟨_, ws, found, _, _, applied⟩ := Store.commit_ok.mp inside
  cases rest
  subst same
  exact ⟨ws, found, applied, rfl, rfl, rfl⟩

theorem commit_error {e : ServiceError} (run : perform s (commit tx) = (.error e, t)) :
    t = { s with main := s.main.rollback tx } := by
  rcases perform_bind_error.mp run with failed | ⟨n, v, done, rest⟩
  · rw [perform_onMain, Prod.mk.injEq, mapError_error] at failed
    obtain ⟨⟨e', inside, _⟩, same⟩ := failed
    have undone := Store.commit_failed (Prod.ext inside rfl)
    rw [← same]
    exact congrArg (fun x => { s with main := x }) undone
  · cases rest

theorem commit_pending {r : Except ServiceError Unit}
    (run : perform s (commit tx) = (r, t)) : t.main.pending = (s.main.rollback tx).pending := by
  cases r with
  | error e => rw [commit_error run]
  | ok u =>
    obtain ⟨ws, _, applied, _⟩ := commit_ok run
    rw [applied, Store.applyAll_pending]

theorem commit_closed {r : Except ServiceError Unit}
    (run : perform s (commit tx) = (r, t)) : t.main.pending.get? tx = none := by
  rw [commit_pending run]
  exact Table.get?_erase_self _ _

theorem opened_within (s : Session) :
    Within (Store.Staging s.main.nextTransaction) s { s with main := s.main.opened } where
  proposals := rfl
  settings := rfl
  shape := rfl
  main := Store.Staging.opened s.main
  feed := by
    cases replica : s.replica with
    | none =>
      simp only [Session.feed, replica]
      exact Store.Staging.opened s.main
    | some x =>
      simp only [Session.feed, replica]
      exact Store.Staging.refl x

theorem body_within {body : Service α} {result : Except ServiceError α}
    (keeps : Keeps (Within (Store.Staging s.main.nextTransaction)) body)
    (run : perform { s with main := s.main.opened } body = (result, t)) :
    Within (Store.Staging s.main.nextTransaction) s t :=
  Within.trans (R := Store.Staging s.main.nextTransaction) Store.Staging.trans (opened_within s)
    (keeps.result run)

theorem rollback_within (within : Within (Store.Staging tx) s t) :
    Within (Store.Staging tx) s { t with main := t.main.rollback tx } where
  proposals := within.proposals
  settings := within.settings
  shape := within.shape
  main := within.main.rollback
  feed := by
    have feed := within.feed
    cases replica : t.replica with
    | none =>
      simp only [Session.feed, replica] at feed ⊢
      exact feed.rollback
    | some x =>
      simp only [Session.feed, replica] at feed ⊢
      exact feed

/-- A transaction that fails leaves no trace of what its body staged in the main store. -/
theorem inTransaction_error {body : Nat → Service α} {e : ServiceError}
    (within : ∀ tx, Keeps (Within (Store.Staging tx)) (body tx))
    (run : perform s (inTransaction body) = (.error e, t)) :
    Within (Store.Staging s.main.nextTransaction) s t ∧
      (s.main.pending.get? s.main.nextTransaction = none →
        t.main.pending.get? s.main.nextTransaction = none) := by
  rw [perform_inTransaction, perform_onMain_begin] at run
  cases checked : s.main.check .begin with
  | error e' =>
    rw [checked] at run
    cases run
    exact ⟨Within.refl Store.Staging.refl s, fun closed => closed⟩
  | ok u =>
    rw [checked] at run
    simp only at run
    split at run
    · rename_i e' u failed
      cases run
      have whole := body_within (within _) failed
      have undone := rollback_within whole
      exact ⟨⟨undone.proposals, undone.settings, undone.shape, undone.main, undone.feed⟩,
        fun _ => Table.get?_erase_self _ _⟩
    · rename_i a u done
      split at run
      · rename_i e' v failed
        cases run
        have whole := body_within (within _) done
        refine ⟨?_, fun _ => commit_closed failed⟩
        rw [commit_error failed]
        exact rollback_within whole
      · cases run

theorem inTransaction_ok {body : Nat → Service α} {a : α}
    (run : perform s (inTransaction body) = (.ok a, t)) :
    ∃ u ws, perform { s with main := s.main.opened } (body s.main.nextTransaction) = (.ok a, u) ∧
      u.main.pending.get? s.main.nextTransaction = some ws ∧
      t.main = (u.main.rollback s.main.nextTransaction).applyAll ws ∧
      t.proposals = u.proposals ∧ t.replica = u.replica ∧ t.settings = u.settings := by
  rw [perform_inTransaction, perform_onMain_begin] at run
  cases checked : s.main.check .begin with
  | error e =>
    rw [checked] at run
    cases run
  | ok v =>
    rw [checked] at run
    simp only at run
    split at run
    · cases run
    · rename_i b u done
      split at run
      · cases run
      · rename_i ended w committed
        cases run
        obtain ⟨ws, found, rest⟩ := commit_ok committed
        exact ⟨u, ws, done, found, rest⟩

theorem perform_getProposal (s : Session) (id : String) (now : Timestamp) :
    perform s (getProposal id now) =
      (match (s.proposals.get id now).2 with
        | some p => .ok p
        | none => .error (noProposal id),
      s.looked id now) := by
  simp only [getProposal, perform_bind, perform_get, perform_note, perform_modify]
  cases found : (s.proposals.get id now).2 with
  | none => rfl
  | some p => rfl

end Service

end SchoolTimetable
