import SchoolTimetable.Proofs.Board.Settling

/-!
Budgets of gap repair. A repair goes on where an earlier one ran out of its budget, so a larger budget
makes the same moves and then more of them. A plan is no worse for it: the further moves leave all
lessons, shortfalls and loads in number as they are, and may only close gaps.
-/
namespace SchoolTimetable

theorem Score.compute_anti {gap gap' load load' conflict conflict' : Nat} (gaps : gap' ≤ gap)
    (loads : load' ≤ load) (conflicts : conflict' ≤ conflict) :
    compute gap load conflict ≤ compute gap' load' conflict' := by
  simp only [compute, conflictWeight, gapWeight, loadWeight]
  omega

namespace Board
variable {b b' : Board}

theorem repairGaps_succ {src dest : Cell} (found : b.gapMove? = some (src, dest)) (budget : Nat) :
    repairGaps (budget + 1) b =
      ((repairGaps budget (b.move src dest)).1, (repairGaps budget (b.move src dest)).2 + 1) := by
  rw [repairGaps, found]

theorem repairGaps_add (first second : Nat) (b : Board) :
    let once := repairGaps first b
    let twice := repairGaps second once.1
    repairGaps (first + second) b = (twice.1, once.2 + twice.2) := by
  -- The repair restarts its search after each move, so only the board matters, not what was done.
  induction first generalizing b with
  | zero => simp [repairGaps]
  | succ first ih =>
    rw [Nat.succ_add]
    cases found : b.gapMove? with
    | none => simp [repairGaps_of_stuck found]
    | some way =>
      have later := ih (b.move way.1 way.2)
      simp only at later
      rw [repairGaps_succ found, repairGaps_succ found, later, Nat.add_right_comm]

theorem Slid.gapPenalty_le {n : Nat} (slid : Slid n b b') : b'.gapPenalty ≤ b.gapPenalty := by
  have gained := slid.gapPenalty_add
  omega

theorem repairGaps_score {origin : Board} (h : InStep origin b) (budget : Nat) :
    b.evaluate.score ≤ (repairGaps budget b).1.evaluate.score := by
  have slid := repairGaps_slid budget b
  have run : Steps (fun _ => True) b (repairGaps budget b).1 := repairGaps_steps budget b
  have load := loadPenalty_congr (h.sameOverage run)
  simp only [evaluate, load, slid.shortfalls]
  exact Score.compute_anti slid.gapPenalty_le (Nat.le_refl _) (Nat.le_refl _)

end Board

/-- With a larger budget a plan is repaired from where the smaller one has left it. -/
theorem PlanRun.make_add (loads : List SubjectLoad) (slots : Nat) (days : List Nat)
    (teachers : Table TeacherId Availability) (less extra : Nat) :
    let first := make loads slots days teachers less
    let second := Board.repairGaps extra first.board
    make loads slots days teachers (less + extra) =
      ⟨second.1, first.placed, first.moves + second.2⟩ := by
  let filled := (Board.start slots days teachers).placeLoads loads
  have repaired := Board.repairGaps_add less extra filled.1
  exact congrArg (fun r : Board × Nat => PlanRun.mk r.1 filled.2 r.2) repaired

open Board

/-- Repairs compose, and a plan with a larger budget has the same shortfalls, as many lessons, no
larger penalty for gaps and no smaller score. -/
theorem repair_budgets_compose (slots : Nat) (days : List Nat)
    (teachers : Table TeacherId Availability)
    (built : ∀ t a, teachers.get? t = some a → a.Built) :
    (∀ (b : Board) (first second : Nat),
      let once := repairGaps first b
      let twice := repairGaps second once.1
      repairGaps (first + second) b = (twice.1, once.2 + twice.2)) ∧
    ∀ (loads : List SubjectLoad) (less more : Nat), less ≤ more →
      let p := plan loads slots days teachers less
      let q := plan loads slots days teachers more
      q.shortfalls = p.shortfalls ∧ q.lessons.length = p.lessons.length ∧
        q.stats.gapPenalty ≤ p.stats.gapPenalty ∧ p.score ≤ q.score := by
  refine ⟨fun b first second => repairGaps_add first second b, ?_⟩
  intro loads less more le p q
  obtain ⟨extra, rfl⟩ := Nat.exists_eq_add_of_le le
  let first := PlanRun.make loads slots days teachers less
  have run : Steps (· ∈ loads) (.start slots days teachers) first.board :=
    PlanRun.make_steps loads slots days teachers less
  have inStep := (start_inStep slots days built).steps run
  have slid := repairGaps_slid extra first.board
  have lengths := congrArg List.length (repairGaps_contents extra first.board)
  rw [List.length_map, List.length_map] at lengths
  have later : q = PlanRun.outcome _ loads :=
    congrArg (PlanRun.outcome · loads) (PlanRun.make_add loads slots days teachers less extra)
  rw [later]
  exact ⟨slid.shortfalls, lengths, slid.gapPenalty_le, repairGaps_score inStep extra⟩

theorem repair_budgets_compose_wide_gap :
    let loads : List SubjectLoad := [⟨"math", "ann", 1, 0, [1], none⟩, ⟨"art", "bea", 1, 0, [4], none⟩]
    let p := plan loads 4 [1] Table.empty 1
    let q := plan loads 4 [1] Table.empty 3
    (∀ t a, (Table.empty : Table TeacherId Availability).get? t = some a → a.Built) ∧ 1 ≤ 3 ∧
      p.stats.iterations = 1 ∧ q.stats.iterations = 2 ∧
      p.stats.gapPenalty = 3 ∧ q.stats.gapPenalty = 2 ∧ p.score = 94 ∧ q.score = 96 ∧
      q.shortfalls = p.shortfalls ∧ q.lessons.length = p.lessons.length ∧ p.score ≤ q.score := by
  intro loads p q
  have built : ∀ t a, (Table.empty : Table TeacherId Availability).get? t = some a → a.Built := by
    intro t a found
    cases found
  obtain ⟨shortfalls, lessons, _, score⟩ :=
    (repair_budgets_compose 4 [1] Table.empty built).2 loads 1 3 (by decide)
  exact ⟨built, by decide, by decide +kernel, by decide +kernel, by decide +kernel,
    by decide +kernel, by decide +kernel, by decide +kernel, shortfalls, lessons, score⟩

end SchoolTimetable
