import Mathlib.Data.List.Dedup
import Mathlib.Tactic.MkIffOfInductiveProp
import SchoolTimetable.Session.Generate
import SchoolTimetable.Proofs.Store.Ledgers

/-!
The checks that a request for a timetable goes through, in four groups: the form of the request,
what it refers to, whether its class is taught at all, and whether its teachers teach its subjects.
Each group passes where its condition holds and fails in a way of its own where it does not, and the
first group that fails tells the caller.
-/
namespace SchoolTimetable

namespace Weekday

theorem length_normalize (ds : List Int) :
    (normalize ds).length = (ds.filter fun d => 1 ≤ d ∧ d ≤ 7).dedup.length := by
  have distinct : ((normalize ds).map ((↑) : Nat → Int)).Nodup := by
    refine List.pairwise_map.mpr ((normalize_sorted ds).imp ?_)
    intro a b before
    omega
  have same : ((normalize ds).map ((↑) : Nat → Int)).Perm
      (ds.filter fun d => 1 ≤ d ∧ d ≤ 7).dedup := by
    apply (List.perm_ext_iff_of_nodup distinct (List.nodup_dedup _)).mpr
    intro d
    simp only [List.mem_map, mem_normalize_iff, isValid_iff, List.mem_dedup, List.mem_filter,
      decide_eq_true_eq]
    constructor
    · intro h
      obtain ⟨n, ⟨range, listed⟩, here⟩ := h
      exact ⟨here ▸ listed, here ▸ range⟩
    · intro h
      obtain ⟨listed, range⟩ := h
      have here : (d.toNat : Int) = d := by omega
      exact ⟨d.toNat, ⟨here.symm ▸ range, here.symm ▸ listed⟩, here⟩
  have count := same.length_eq
  rwa [List.length_map] at count

end Weekday

namespace ServiceError
variable {α β : Type} {kind : String → ServiceError} {P Q : Prop}

/-- The check passes where the condition holds, and fails in one way where it does not. -/
def Decides (kind : String → ServiceError) (P : Prop) (x : Except ServiceError α) : Prop :=
  (P ∧ ∃ a, x = .ok a) ∨ (¬ P ∧ ∃ message, x = .error (kind message))

theorem Decides.congr {x : Except ServiceError α} (h : Decides kind P x) (same : P ↔ Q) :
    Decides kind Q x := by
  rwa [Decides, ← same]

theorem Decides.and {x : Except ServiceError α} {f : α → Except ServiceError β}
    (first : Decides kind P x) (rest : ∀ a, Decides kind Q (f a)) :
    Decides kind (P ∧ Q) (x >>= f) := by
  rcases first with ⟨holds, a, run⟩ | ⟨fails, message, run⟩
  · rw [run]
    exact (rest a).congr (and_iff_right holds).symm
  · rw [run]
    exact Or.inr ⟨fun both => fails both.1, message, rfl⟩

theorem Decides.forM {P : α → Prop} {f : α → Except ServiceError Unit} {xs : List α}
    (each : ∀ x ∈ xs, Decides kind (P x) (f x)) : Decides kind (∀ x ∈ xs, P x) (xs.forM f) := by
  induction xs with
  | nil => exact Or.inl ⟨by simp, (), rfl⟩
  | cons x rest ih =>
    have others := ih fun y member => each y (List.mem_cons_of_mem _ member)
    exact ((each x List.mem_cons_self).and fun _ => others).congr List.forall_mem_cons.symm

theorem decides_required (found : Option α) (what id : String) :
    Decides .notFound (found.isSome = true) (required (.ok found) what id) := by
  cases found with
  | none => exact Or.inr ⟨nofun, _, rfl⟩
  | some a => exact Or.inl ⟨rfl, (), rfl⟩

end ServiceError

namespace GenerateRequest
variable {r : GenerateRequest} {main feed : Store} {maxSlots : Nat}
open ServiceError

def weekdays (r : GenerateRequest) : List Int := (r.days.filter fun d => 1 ≤ d ∧ d ≤ 7).dedup

@[mk_iff] structure WellFormed (r : GenerateRequest) (maxSlots : Nat) : Prop where
  term : Text.blank r.term = false
  classId : Text.blank r.classId = false
  slots : 1 ≤ r.slotsPerDay ∧ r.slotsPerDay ≤ maxSlots
  days : ∃ d ∈ r.days, 1 ≤ d ∧ d ≤ 7
  loads : r.loads ≠ []
  named : ∀ l ∈ r.loads, Text.blank l.subject = false ∧ Text.blank l.teacher = false
  asking : ∀ l ∈ r.loads, 1 ≤ l.weeklyCount
  filled : r.weeklyTotal = r.slotsPerDay.toNat * r.weekdays.length

@[mk_iff] structure Refers (r : GenerateRequest) (main : Store) : Prop where
  term : (main.terms.get? r.term).isSome = true
  classId : (main.classes.get? r.classId).isSome = true
  subjects : ∀ l ∈ r.loads, (main.subjects.get? l.subject).isSome = true

def Taught (r : GenerateRequest) (main : Store) : Prop :=
  ∃ a ∈ main.assignments, a.classId = r.classId ∧ a.term = r.term

def Paired (r : GenerateRequest) (main : Store) : Prop :=
  ∀ l ∈ r.loads, ∃ a ∈ main.assignments, a.classId = r.classId ∧ a.term = r.term ∧
    a.teacher = l.teacher ∧ a.subject = l.subject

instance (r : GenerateRequest) (maxSlots : Nat) : Decidable (r.WellFormed maxSlots) :=
  decidable_of_iff' _ (wellFormed_iff r maxSlots)

instance (r : GenerateRequest) (main : Store) : Decidable (r.Refers main) :=
  decidable_of_iff' _ (refers_iff r main)

instance (r : GenerateRequest) (main : Store) : Decidable (r.Taught main) :=
  inferInstanceAs (Decidable (∃ a ∈ main.assignments, a.classId = r.classId ∧ a.term = r.term))

instance (r : GenerateRequest) (main : Store) : Decidable (r.Paired main) :=
  inferInstanceAs (Decidable (∀ l ∈ r.loads, ∃ a ∈ main.assignments, a.classId = r.classId ∧
    a.term = r.term ∧ a.teacher = l.teacher ∧ a.subject = l.subject))

theorem loadError?_eq_none_iff {i : Nat} {l : SubjectLoad} :
    loadError? i l = none ↔
      (Text.blank l.subject = false ∧ Text.blank l.teacher = false) ∧ 1 ≤ l.weeklyCount := by
  unfold loadError?
  split
  · rename_i blank
    simp only [reduceCtorEq, false_iff]
    intro h
    simp [h.1] at blank
  · rename_i named
    rw [Bool.or_eq_true, not_or, Bool.not_eq_true, Bool.not_eq_true] at named
    split <;> simp [named] <;> omega

theorem loads_clear_iff : (r.loads.zipIdx.findSome? fun (l, i) => loadError? i l) = none ↔
    ∀ l ∈ r.loads,
      (Text.blank l.subject = false ∧ Text.blank l.teacher = false) ∧ 1 ≤ l.weeklyCount := by
  rw [List.findSome?_eq_none_iff]
  constructor
  · intro clear l member
    obtain ⟨i, here⟩ := List.mem_iff_getElem?.mp member
    have listed := List.mk_mem_zipIdx_iff_getElem?.mpr here
    exact loadError?_eq_none_iff.mp (clear (l, i) listed)
  · intro each x listed
    exact loadError?_eq_none_iff.mpr (each x.1 (List.fst_mem_of_mem_zipIdx listed))

theorem no_days_iff : Weekday.normalize r.days = [] ↔ ¬ ∃ d ∈ r.days, 1 ≤ d ∧ d ≤ 7 := by
  rw [← List.length_eq_zero_iff, Weekday.length_normalize, List.length_eq_zero_iff]
  simp

theorem shape_ok_iff {read : Nat × List Nat} : r.shape maxSlots = .ok read ↔
    r.WellFormed maxSlots ∧ read = (r.slotsPerDay.toNat, Weekday.normalize r.days) := by
  have days : r.weekdays.length = (Weekday.normalize r.days).length :=
    (Weekday.length_normalize r.days).symm
  simp only [shape, except_unless_ok, no_days_iff, not_or, Bool.not_eq_true, Int.not_lt, not_not]
  constructor
  · intro h
    obtain ⟨term, classId, slots, named, loads, run⟩ := h
    split at run
    · cases run
    · rename_i clear
      have each := loads_clear_iff.mp clear
      split at run
      · rename_i sum
        cases run
        exact ⟨⟨term, classId, slots, named, loads, fun l member => (each l member).1,
          fun l member => (each l member).2, days ▸ sum⟩, rfl⟩
      · cases run
  · intro h
    obtain ⟨formed, same⟩ := h
    have clear := loads_clear_iff.mpr fun l member =>
      ⟨formed.named l member, formed.asking l member⟩
    have sum := formed.filled
    rw [days] at sum
    refine ⟨formed.term, formed.classId, formed.slots, formed.days, formed.loads, ?_⟩
    simp only [clear, if_pos sum, same]

theorem decides_shape (r : GenerateRequest) (maxSlots : Nat) :
    Decides .validation (r.WellFormed maxSlots)
      ((r.shape maxSlots).mapError fun e => .validation e.message) := by
  cases run : r.shape maxSlots with
  | ok read => exact Or.inl ⟨(shape_ok_iff.mp run).1, read, rfl⟩
  | error e =>
    refine Or.inr ⟨fun formed => ?_, e.message, rfl⟩
    rw [shape_ok_iff.mpr ⟨formed, rfl⟩] at run
    cases run

theorem decides_references (fit : main.Fit) (r : GenerateRequest) :
    Decides .notFound (r.Refers main) (r.checkReferences main) := by
  have term : main.findTerm r.term = .ok (main.terms.get? r.term) := by
    rw [Store.findTerm, Store.check_of_fit fit]
    rfl
  have classId : main.findClass r.classId = .ok (main.classes.get? r.classId) := by
    rw [Store.findClass, Store.check_of_fit fit]
    rfl
  have subject : ∀ s, main.findSubject s = .ok (main.subjects.get? s) := by
    intro s
    rw [Store.findSubject, Store.check_of_fit fit]
    rfl
  have each : ∀ s ∈ sortDistinct (r.loads.map (·.subject)),
      Decides .notFound ((main.subjects.get? s).isSome = true)
        (required (main.findSubject s) "subject" s) := by
    intro s _
    rw [subject]
    exact decides_required _ _ _
  rw [checkReferences, term, classId]
  refine ((decides_required _ _ _).and fun _ => (decides_required _ _ _).and fun _ =>
    Decides.forM each).congr ?_
  simp only [mem_sortDistinct_iff, List.forall_mem_map]
  exact ⟨fun h => ⟨h.1, h.2.1, h.2.2⟩, fun h => ⟨h.term, h.classId, h.subjects⟩⟩

theorem listAssignments_of_fit (fit : main.Fit) (r : GenerateRequest) :
    main.listAssignments r.classId r.term =
      .ok (main.assignments.filter fun a => a.classId = r.classId ∧ a.term = r.term) := by
  rw [Store.listAssignments, Store.check_of_fit fit]
  rfl

theorem decides_pairs (r : GenerateRequest) (own : List Assignment) :
    Decides .validation (∀ l ∈ r.loads, ∃ a ∈ own, a.teacher = l.teacher ∧ a.subject = l.subject)
      (r.checkPairs own) := by
  refine Decides.forM fun l _ => ?_
  have found : (own.any fun a => a.teacher = l.teacher ∧ a.subject = l.subject) = true ↔
      ∃ a ∈ own, a.teacher = l.teacher ∧ a.subject = l.subject := by simp
  split
  · rename_i some
    exact Or.inl ⟨found.mp some, (), rfl⟩
  · rename_i none
    exact Or.inr ⟨fun pair => none (found.mpr pair), _, rfl⟩

/-- What comes of the checks, by the first group that fails. -/
inductive Judged {α : Type} (r : GenerateRequest) (main : Store) (maxSlots : Nat) :
    Except ServiceError α → Prop where
  | accepted (formed : r.WellFormed maxSlots) (refers : r.Refers main) (taught : r.Taught main)
      (paired : r.Paired main) (a : α) : Judged r main maxSlots (.ok a)
  | malformed (no : ¬ r.WellFormed maxSlots) (message : String) :
      Judged r main maxSlots (.error (.validation message))
  | unknown (formed : r.WellFormed maxSlots) (no : ¬ r.Refers main) (message : String) :
      Judged r main maxSlots (.error (.notFound message))
  | untaught (formed : r.WellFormed maxSlots) (refers : r.Refers main) (no : ¬ r.Taught main)
      (message : String) : Judged r main maxSlots (.error (.precondition message))
  | unpaired (formed : r.WellFormed maxSlots) (refers : r.Refers main) (taught : r.Taught main)
      (no : ¬ r.Paired main) (message : String) :
      Judged r main maxSlots (.error (.validation message))

theorem basis_judged (fit : main.Fit) (fitFeed : feed.Fit) (r : GenerateRequest) (maxSlots : Nat) :
    r.Judged main maxSlots (r.basis main feed maxSlots) := by
  let own := main.assignments.filter fun a => a.classId = r.classId ∧ a.term = r.term
  have taught : own = [] ↔ ¬ r.Taught main := by
    simp [own, Taught]
  have paired : r.Paired main ↔
      ∀ l ∈ r.loads, ∃ a ∈ own, a.teacher = l.teacher ∧ a.subject = l.subject := by
    simp [own, Paired, and_assoc]
  rw [basis, listAssignments_of_fit fit]
  rcases r.decides_shape maxSlots with ⟨formed, ⟨slots, days⟩, run⟩ | ⟨no, message, run⟩
  · rw [run]
    rcases decides_references fit r with ⟨refers, ⟨⟩, run⟩ | ⟨no, message, run⟩
    · rw [run]
      change r.Judged main maxSlots (if own = [] then _ else _)
      by_cases none : own = []
      · rw [if_pos none]
        exact .untaught formed refers (taught.mp none) _
      · rw [if_neg none]
        have some := not_not.mp (mt taught.mpr none)
        rcases r.decides_pairs own with ⟨pairs, ⟨⟩, run⟩ | ⟨no, message, run⟩
        · let teachers := own.map (·.teacher) ++ r.loads.map (·.teacher)
          obtain ⟨table, made⟩ := Store.ledgers_of_fit fit fitFeed r.term slots teachers
          rw [run]
          change r.Judged main maxSlots (reading (main.ledgers feed r.term slots teachers) >>= _)
          rw [made]
          exact .accepted formed refers some (paired.mpr pairs) _
        · rw [run]
          exact .unpaired formed refers some (mt paired.mp no) message
    · rw [run]
      exact .unknown formed no message
  · rw [run]
    exact .malformed no message

end GenerateRequest
end SchoolTimetable
