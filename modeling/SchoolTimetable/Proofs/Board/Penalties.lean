import Mathlib.Algebra.Order.BigOperators.Group.List
import Mathlib.Algebra.Order.Group.Nat
import Mathlib.Algebra.Ring.Int.Defs
import SchoolTimetable.Proofs.Board.Budgets
import SchoolTimetable.Proofs.Board.Filling

/-!
What the penalties count. A day loses its idle slots, which lie between its first lesson and its
last, and its empty cells, of which the idle slots are some. So the penalty for gaps is at least the
number of empty cells and at most twice that number. The score falls with each penalty, and only a
board without any has the highest.
-/
namespace SchoolTimetable

namespace Score
variable {slots : List Nat} {gap load conflict : Nat}

/-- The slots from the first lesson of a day to its last, less the lessons. -/
def idleSpan : List Nat → Int
  | [] => 0
  | first :: rest => rest.getLastD first - first + 1 - (first :: rest).length

theorem idle_eq_span (ascending : slots.Pairwise (· < ·)) : (idle slots : Int) = idleSpan slots := by
  cases slots with
  | nil => rfl
  | cons first rest =>
    have span := idle_add_length ascending
    simp only [idleSpan, List.length_cons]
    omega

theorem idle_add_le {n : Nat} (ascending : slots.Pairwise (· < ·))
    (range : ∀ slot ∈ slots, 1 ≤ slot ∧ slot ≤ n) : idle slots + slots.length ≤ n := by
  cases slots with
  | nil => simp [idle]
  | cons first rest =>
    have span := idle_add_length ascending
    have low := (range first List.mem_cons_self).1
    have high := (range _ List.getLastD_mem_cons).2
    rw [List.length_cons]
    omega

structure Weighs (gap load conflict : Nat) : Prop where
  fits : conflict * conflictWeight + gap * gapWeight + load * loadWeight < 2 ^ 64
  range : compute gap load conflict ≤ 100
  falls : ∀ gap' load' conflict', gap ≤ gap' → load ≤ load' → conflict ≤ conflict' →
    compute gap' load' conflict' ≤ compute gap load conflict
  perfect : compute gap load conflict = 100 ↔ gap = 0 ∧ load = 0 ∧ conflict = 0
  worthless : 1 ≤ conflict ∨ 50 ≤ gap ∨ 20 ≤ load → compute gap load conflict = 0

theorem weighs (gaps : gap < 2 ^ 32) (loads : load < 2 ^ 32) (conflicts : conflict < 2 ^ 32) :
    Weighs gap load conflict where
  fits := by
    simp only [conflictWeight, gapWeight, loadWeight]
    omega
  range := compute_le ..
  falls _ _ _ := compute_anti
  perfect := compute_eq_maxScore_iff
  worthless enough := by
    simp only [compute, maxScore, conflictWeight, gapWeight, loadWeight]
    omega

end Score

theorem total_map_cast {α : Type} (xs : List α) (f : α → Nat) :
    (total (xs.map f) : Int) = (xs.map fun x => (f x : Int)).sum := by
  induction xs with
  | nil => rfl
  | cons x rest ih =>
    rw [List.map_cons, total_cons, List.map_cons, List.sum_cons, ← ih, Int.natCast_add]

namespace Board
variable {origin b : Board}

def emptyCells (b : Board) : Nat :=
  (gridCells b.days b.slotsPerDay).countP fun c => (b.lessonAt? c).isNone

theorem emptyCells_eq (b : Board) : b.emptyCells = total (b.days.map b.emptyOn) :=
  List.countP_flatMap

theorem emptyCells_eq_zero_iff : b.emptyCells = 0 ↔ ∀ c, b.inGrid c → (b.lessonAt? c).isSome := by
  simp only [emptyCells, List.countP_eq_zero, mem_gridCells, Bool.not_eq_true,
    Option.isNone_eq_false_iff]
  rfl

theorem InStep.idle_le (h : InStep origin b) (day : Nat) :
    Score.idle (b.slotsOn day) ≤ b.emptyOn day := by
  have cells := h.emptyOn_add day
  have within := Score.idle_add_le (b.slotsOn_sorted day) fun _ listed => (h.mem_slotsOn listed).2
  omega

theorem InStep.gapPenalty_eq (h : InStep origin b) :
    b.gapPenalty = total (b.days.map fun day => Score.idle (b.slotsOn day)) + b.emptyCells := by
  rw [emptyCells_eq, ← total_map_add, gapPenalty]
  apply congrArg total
  apply List.map_congr_left
  intro day _
  have cells := h.emptyOn_add day
  omega

theorem InStep.gapPenalty_cast (h : InStep origin b) : (b.gapPenalty : Int) =
    (b.days.map fun day =>
      Score.idleSpan (b.slotsOn day) + ((b.slotsPerDay : Int) - (b.slotsOn day).length)).sum := by
  rw [gapPenalty, total_map_cast]
  apply congrArg List.sum
  apply List.map_congr_left
  intro day _
  have cells := h.emptyOn_add day
  have span := Score.idle_eq_span (b.slotsOn_sorted day)
  omega

theorem InStep.gapPenalty_eq_zero_iff (h : InStep origin b) (distinct : b.days.Nodup) :
    b.gapPenalty = 0 ↔ b.Full := by
  constructor
  · intro none
    have lost := h.gapPenalty_eq
    exact h.full (le_size_of_occupied distinct (emptyCells_eq_zero_iff.mp (by omega)))
  · exact Full.gapPenalty

/-- What the penalty for gaps says of the lessons. The slots of a day ascend and are no more than the
grid has, so no difference in it is negative. -/
structure GapsCounted (b : Board) : Prop where
  ascending : ∀ day, (b.slotsOn day).IsChain (· < ·)
  within : ∀ day, (b.slotsOn day).length ≤ b.slotsPerDay
  sum : (b.gapPenalty : Int) = (b.days.map fun day =>
    Score.idleSpan (b.slotsOn day) + ((b.slotsPerDay : Int) - (b.slotsOn day).length)).sum
  least : b.emptyCells ≤ b.gapPenalty
  most : b.gapPenalty ≤ 2 * b.emptyCells
  zero : b.gapPenalty = 0 ↔ b.Full

theorem InStep.gapsCounted (h : InStep origin b) (distinct : b.days.Nodup) : b.GapsCounted := by
  have penalty := h.gapPenalty_eq
  have idle : total (b.days.map fun day => Score.idle (b.slotsOn day)) ≤ b.emptyCells := by
    rw [emptyCells_eq]
    exact List.sum_le_sum fun day _ => h.idle_le day
  refine ⟨fun day => (b.slotsOn_sorted day).isChain, fun day => ?_, h.gapPenalty_cast, ?_, ?_,
    h.gapPenalty_eq_zero_iff distinct⟩
  · have cells := h.emptyOn_add day
    omega
  · omega
  · omega

/-- Whatever calls led to a board, its penalty for gaps counts idle slots and empty cells, and the
score weighs all penalties without overflow. -/
theorem evaluate_counts (slots : Nat) (days : List Nat) (teachers : Table TeacherId Availability)
    (built : ∀ t a, teachers.get? t = some a → a.Built) (calls : List BoardCall) :
    ((start slots days teachers).afterCalls calls).GapsCounted ∧
      ∀ gap load conflict, gap < 2 ^ 32 → load < 2 ^ 32 → conflict < 2 ^ 32 →
        Score.Weighs gap load conflict := by
  have run : Steps (fun _ => True) _ ((start slots days teachers).afterCalls calls) :=
    afterCalls_steps _ fun _ _ _ _ => trivial
  have inStep := (start_inStep slots days built).steps run
  have distinct := inStep.sameDays ▸ start_days_nodup slots days teachers
  exact ⟨inStep.gapsCounted distinct, fun _ _ _ => Score.weighs⟩

theorem evaluate_counts_two_days :
    let b := (start 6 [2, 1, 2] earlyTeachers).afterCalls twoDaysWithGaps
    (∀ t a, earlyTeachers.get? t = some a → a.Built) ∧ b.GapsCounted ∧ b.emptyCells = 7 ∧
      b.days.map (fun day => Score.idleSpan (b.slotsOn day)) = [3, 2] ∧
      b.evaluate = ⟨12, 0, 0, 76⟩ ∧ Score.Weighs 12 0 0 := by
  intro b
  have built : ∀ t a, earlyTeachers.get? t = some a → a.Built :=
    Availability.Built.only (.block _ (.withCaps 2 0)) "ann"
  obtain ⟨counted, weighs⟩ := evaluate_counts 6 [2, 1, 2] earlyTeachers built twoDaysWithGaps
  exact ⟨built, counted, by decide +kernel, by decide +kernel, by decide +kernel,
    weighs 12 0 0 (by decide) (by decide) (by decide)⟩

end Board

end SchoolTimetable
