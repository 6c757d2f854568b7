import Mathlib.Algebra.Order.BigOperators.Group.List
import Mathlib.Algebra.Order.Group.Nat
import SchoolTimetable.Proofs.Session.Generate

/-!
Which requests come to a proposal, and what they leave behind. While no operation is failing, a
request is granted if it is well-formed, what it refers to is there, its class is taught in the term
and its teachers teach its subjects; otherwise the first of these that is lacking tells. Whatever
fails, the stores stay as they are, and only a granted request comes into the cache.
-/
namespace SchoolTimetable

structure ProposalCache.Gains (c d : ProposalCache) (p : Proposal) : Prop where
  ttl : d.ttl = c.ttl
  here : d.entries.get? p.id = some p
  others : ∀ id, id ≠ p.id → d.entries.get? id = c.entries.get? id
  size : c.entries.get? p.id = none → d.size = c.size + 1

theorem ProposalCache.gains_save (c : ProposalCache) (p : Proposal) : c.Gains (c.save p) p :=
  ⟨rfl, Table.get?_insert_self _ _ _, fun _ apart => Table.get?_insert_of_ne _ _ apart,
    fun fresh => Table.size_insert p fresh⟩

namespace GenerateRequest
variable {r : GenerateRequest} {main : Store} {maxSlots : Nat}

theorem Judged.map {α β : Type} {x : Except ServiceError α} (judged : r.Judged main maxSlots x)
    (f : α → β) : r.Judged main maxSlots (x.map f) := by
  cases judged with
  | accepted formed refers taught paired a => exact .accepted formed refers taught paired (f a)
  | malformed no message => exact .malformed no message
  | unknown formed no message => exact .unknown formed no message
  | untaught formed refers no message => exact .untaught formed refers no message
  | unpaired formed refers taught no message => exact .unpaired formed refers taught no message

theorem Judged.ok_iff {α : Type} {x : Except ServiceError α} (judged : r.Judged main maxSlots x) :
    (∃ a, x = .ok a) ↔
      r.WellFormed maxSlots ∧ r.Refers main ∧ r.Taught main ∧ r.Paired main := by
  cases judged with
  | accepted formed refers taught paired a =>
    exact iff_of_true ⟨a, rfl⟩ ⟨formed, refers, taught, paired⟩
  | malformed no message => exact iff_of_false nofun fun all => no all.1
  | unknown formed no message => exact iff_of_false nofun fun all => no all.2.1
  | untaught formed refers no message => exact iff_of_false nofun fun all => no all.2.2.1
  | unpaired formed refers taught no message =>
    exact iff_of_false nofun fun all => no all.2.2.2

theorem Judged.error_kind {α : Type} {x : Except ServiceError α}
    (judged : r.Judged main maxSlots x) :
    (¬ r.WellFormed maxSlots → ∃ message, x = .error (.validation message)) ∧
    (r.WellFormed maxSlots → ¬ r.Refers main → ∃ message, x = .error (.notFound message)) ∧
    (r.WellFormed maxSlots → r.Refers main → ¬ r.Taught main →
      ∃ message, x = .error (.precondition message)) ∧
    (r.WellFormed maxSlots → r.Refers main → r.Taught main → ¬ r.Paired main →
      ∃ message, x = .error (.validation message)) := by
  cases judged with
  | accepted formed refers taught paired a =>
    exact ⟨fun no => absurd formed no, fun _ no => absurd refers no,
      fun _ _ no => absurd taught no, fun _ _ _ no => absurd paired no⟩
  | malformed no message =>
    exact ⟨fun _ => ⟨message, rfl⟩, fun formed => absurd formed no, fun formed => absurd formed no,
      fun formed => absurd formed no⟩
  | unknown formed no message =>
    exact ⟨fun lacking => absurd formed lacking, fun _ _ => ⟨message, rfl⟩,
      fun _ refers => absurd refers no, fun _ refers => absurd refers no⟩
  | untaught formed refers no message =>
    exact ⟨fun lacking => absurd formed lacking, fun _ lacking => absurd refers lacking,
      fun _ _ _ => ⟨message, rfl⟩, fun _ _ taught => absurd taught no⟩
  | unpaired formed refers taught no message =>
    exact ⟨fun lacking => absurd formed lacking, fun _ lacking => absurd refers lacking,
      fun _ _ lacking => absurd taught lacking, fun _ _ _ _ => ⟨message, rfl⟩⟩

/-- The weekly counts add up below `2 ^ 64`, where there are fewer than `2 ^ 32` of them and each is
below that. -/
theorem weeklyTotal_lt (few : r.loads.length < 2 ^ 32)
    (small : ∀ l ∈ r.loads, l.weeklyCount < 2 ^ 32) : r.weeklyTotal < 2 ^ 64 := by
  have most : r.weeklyTotal ≤ (r.loads.map (·.weeklyCount)).length • (2 ^ 32 - 1) := by
    refine List.sum_le_card_nsmul _ _ fun n member => ?_
    obtain ⟨l, listed, same⟩ := List.mem_map.mp member
    have bound := small l listed
    omega
  rw [List.length_map, Nat.nsmul_eq_mul] at most
  omega

end GenerateRequest

namespace Service
variable {s : Session} {id : String} {now : Timestamp} {r : GenerateRequest}

theorem generate_result (s : Session) (id : String) (now : Timestamp) (r : GenerateRequest) :
    (perform s (generate id now r)).1 =
      (r.basis s.main s.feed s.settings.maxSlotsPerDay).map fun b =>
        (r.toProposal b ((planned s r b).outcome r.loads) id now).toResponse := by
  rw [generate, perform_bind, perform_get]
  simp only
  rw [perform_bind, perform_lift]
  cases r.basis s.main s.feed s.settings.maxSlotsPerDay <;> rfl

theorem generate_kept (s : Session) (id : String) (now : Timestamp) (r : GenerateRequest) :
    let t := (perform s (generate id now r)).2
    t.main = s.main ∧ t.replica = s.replica ∧ t.settings = s.settings := by
  intro t
  cases answered : (perform s (generate id now r)).1 with
  | error e =>
    have same : t = s := generate_error (Prod.ext answered rfl)
    exact ⟨congrArg _ same, congrArg _ same, congrArg _ same⟩
  | ok answer =>
    obtain ⟨_, _, _, _, _, main, replica, settings, _⟩ := generate_ok (Prod.ext answered rfl)
    exact ⟨main, replica, settings⟩

/-- While no operation is failing, exactly the requests that pass all four groups of checks are
granted, and the first group that a request fails gives the kind of the error. Whatever fails, the
stores stay as they are, an error leaves the cache alone, and a grant adds the proposal that is
told, and nothing else, to it. -/
theorem generate_judged (s : Session) (id : String) (now : Timestamp) (r : GenerateRequest) :
    let result := (perform s (generate id now r)).1
    let t := (perform s (generate id now r)).2
    let formed := r.WellFormed s.settings.maxSlotsPerDay
    (s.main.Fit ∧ s.feed.Fit →
      ((∃ answer, result = .ok answer) ↔
        formed ∧ r.Refers s.main ∧ r.Taught s.main ∧ r.Paired s.main) ∧
      (¬ formed → ∃ message, result = .error (.validation message)) ∧
      (formed → ¬ r.Refers s.main → ∃ message, result = .error (.notFound message)) ∧
      (formed → r.Refers s.main → ¬ r.Taught s.main →
        ∃ message, result = .error (.precondition message)) ∧
      (formed → r.Refers s.main → r.Taught s.main → ¬ r.Paired s.main →
        ∃ message, result = .error (.validation message))) ∧
    (r.loads.length < 2 ^ 32 → (∀ l ∈ r.loads, l.weeklyCount < 2 ^ 32) →
      r.weeklyTotal < 2 ^ 64) ∧
    (t.main = s.main ∧ t.replica = s.replica ∧ t.settings = s.settings) ∧
    (∀ e, result = .error e → t.proposals = s.proposals) ∧
    ∀ answer, result = .ok answer → ∃ p : Proposal, p.id = id ∧ s.proposals.Gains t.proposals p ∧
      answer = ⟨p.id, p.score, p.lessons, p.shortfalls, p.stats⟩ := by
  intro result t formed
  refine ⟨fun fit => ?_, GenerateRequest.weeklyTotal_lt, generate_kept s id now r, ?_, ?_⟩
  · have judged : r.Judged s.main s.settings.maxSlotsPerDay result := by
      change r.Judged s.main s.settings.maxSlotsPerDay (perform s (generate id now r)).1
      rw [generate_result]
      exact (GenerateRequest.basis_judged fit.1 fit.2 r _).map _
    exact ⟨judged.ok_iff, judged.error_kind⟩
  · intro e failed
    have same : t = s := generate_error (Prod.ext failed rfl)
    rw [same]
  · intro answer granted
    obtain ⟨b, p, _, made, told, _, _, _, cache⟩ := generate_ok (Prod.ext granted rfl)
    refine ⟨p, by rw [made]; rfl, ?_, told⟩
    rw [show t.proposals = s.proposals.save p from cache]
    exact s.proposals.gains_save p

def mathMonday : GenerateRequest := { mondayOnly with loads := [⟨"math", "bea", 6, 1, [], none⟩] }

theorem generate_judged_staffRoom :
    let result := fun r => (perform staffRoom (generate "p1" ⟨20000, 0, 0⟩ r)).1
    (∃ answer, result mondayOnly = .ok answer) ∧
      (∃ message, result { mondayOnly with classId := "c2" } = .error (.notFound message)) ∧
      ∃ message, result mathMonday = .error (.validation message) := by
  intro result
  have fit : staffRoom.main.Fit ∧ staffRoom.feed.Fit := ⟨⟨rfl, rfl⟩, ⟨rfl, rfl⟩⟩
  have judged := fun r => (generate_judged staffRoom "p1" ⟨20000, 0, 0⟩ r).1 fit
  obtain ⟨granted, -, -⟩ := judged mondayOnly
  obtain ⟨-, -, unknown, -⟩ := judged { mondayOnly with classId := "c2" }
  obtain ⟨-, -, -, -, unpaired⟩ := judged mathMonday
  exact ⟨granted.mpr (by decide +kernel), unknown (by decide +kernel) (by decide +kernel),
    unpaired (by decide +kernel) (by decide +kernel) (by decide +kernel) (by decide +kernel)⟩

end Service

end SchoolTimetable
