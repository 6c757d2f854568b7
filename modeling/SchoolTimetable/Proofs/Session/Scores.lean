import SchoolTimetable.Proofs.Board.Filling
import SchoolTimetable.Proofs.Session.Generate

/-!
The scores that come of accepted requests. The loads of such a request fill its grid exactly, so a
proposal is either a whole timetable with nothing to complain of, or it is short and scores nothing.
-/
namespace SchoolTimetable

namespace Proposal

def FillsGrid (p : Proposal) : Prop :=
  (p.lessons.map (·.cell)).Perm (gridCells p.days p.slotsPerDay)

/-- A proposal that can be kept is a whole timetable of the highest score, and every other scores
nothing. -/
structure PerfectOrShort (p : Proposal) : Prop where
  fills : p.isSavable = true ↔ p.FillsGrid
  scores : p.isSavable = true ↔ p.score = 100
  stats : p.isSavable = true → p.stats =
    { iterations := 0
      gapPenalty := 0
      loadPenalty := 0
      conflictPenalty := 0
      placedSlots := p.slotsPerDay * p.days.length
      requestedSlots := p.slotsPerDay * p.days.length }
  short : p.isSavable = false → p.score = 0

end Proposal

namespace GenerateRequest
variable {r : GenerateRequest} {main feed : Store} {b : PlanBasis}

theorem Based.unreserved (based : r.Based main feed b) (t : TeacherId) :
    ((Board.start b.slotsPerDay b.days b.ledgers).ledger t).Unreserved := by
  change ((b.ledgers.get? t).getD .unlimited).Unreserved
  cases found : b.ledgers.get? t with
  | none => exact Availability.unlimited_unreserved
  | some a =>
    change a.Unreserved
    rw [based.ledgers t a found]
    exact Availability.ofPreference_unreserved _ _ _

theorem Based.days_distinct (based : r.Based main feed b) : sortDistinct b.days = b.days := by
  apply sortDistinct_of_ascending
  rw [based.days]
  exact (Weekday.normalize_sorted r.days).imp fun before => decide_eq_true before

end GenerateRequest

namespace Service
variable {s t : Session} {id : String} {now : Timestamp} {r : GenerateRequest}

theorem planned_perfectOrShort {b : PlanBasis} {p : Proposal} (based : r.Based s.main s.feed b)
    (made : p = r.toProposal b ((planned s r b).outcome r.loads) id now) : p.PerfectOrShort := by
  have inStep := planned_inStep based
  have days : sortDistinct b.days = b.days := based.days_distinct
  have fits : total (r.loads.map (·.weeklyCount)) = b.slotsPerDay * b.days.length := based.filled
  have savable : p.isSavable = true ↔ (planned s r b).board.shortfalls = [] := by
    rw [made]
    exact List.isEmpty_iff
  have full : (planned s r b).board.Full ↔ p.FillsGrid := by
    rw [Board.Full, inStep.sameDays.trans days, inStep.sameSlots, ← inStep.lessons_cells, made]
    rfl
  have score : p.score = (planned s r b).board.evaluate.score := by
    rw [made]
    rfl
  rcases PlanRun.perfect_or_short based.start_inStep based.unreserved (days.symm ▸ fits)
    s.settings.gapRepairBudget with ⟨none, filled, moves, value⟩ | ⟨some, lacking, value⟩
  · rw [← planned] at none filled moves value
    have keeps := savable.mpr none
    have perfect : p.score = 100 := score.trans (congrArg Score.score value)
    have size : (planned s r b).board.grid.size = b.slotsPerDay * b.days.length := by
      rw [filled.size, inStep.sameDays.trans days, inStep.sameSlots]
      rfl
    refine ⟨iff_of_true keeps (full.mp filled), iff_of_true keeps perfect, fun _ => ?_, ?_⟩
    · simp only [made, GenerateRequest.toProposal, PlanRun.outcome, moves, value, size, fits]
    · intro refused
      rw [keeps] at refused
      cases refused
  · rw [← planned] at some lacking value
    have refused : ¬ p.isSavable = true := fun keeps => some (savable.mp keeps)
    have worthless : p.score = 0 := score.trans value
    refine ⟨iff_of_false refused fun filled => lacking (full.mpr filled), iff_of_false refused ?_,
      fun keeps => absurd keeps refused, fun _ => worthless⟩
    rw [worthless]
    decide

/-- What comes of an accepted request is cached, and is either perfect or short, whatever the
budget of the repair. -/
theorem generate_perfectOrShort {answer : GenerateResponse}
    (run : perform s (generate id now r) = (.ok answer, t)) :
    ∃ p, t.proposals.entries.get? id = some p ∧ answer = p.toResponse ∧
      p.days = Weekday.normalize r.days ∧ p.slotsPerDay = r.slotsPerDay.toNat ∧
      p.PerfectOrShort := by
  obtain ⟨b, p, based, made, told, _, _, _, cache⟩ := generate_ok run
  have key : p.id = id := made ▸ rfl
  refine ⟨p, ?_, told, ?_, ?_, planned_perfectOrShort based made⟩
  · rw [cache, ← key]
    exact Table.get?_insert_self _ _ _
  · rw [made]
    exact based.days
  · rw [made]
    exact based.slots

def twoDays : GenerateRequest where
  term := "t1"
  classId := "c1"
  slotsPerDay := 2
  days := [2, 1]
  loads := [⟨"math", "ann", 2, 0, [], none⟩, ⟨"art", "bea", 2, 1, [1], none⟩]

theorem generate_perfectOrShort_both :
    (∃ answer t p, perform staffRoom (generate "p1" ⟨20000, 0, 0⟩ twoDays) = (.ok answer, t) ∧
      t.proposals.entries.get? "p1" = some p ∧ p.score = 100 ∧ p.FillsGrid) ∧
    ∃ answer t p, perform staffRoom (generate "p1" ⟨20000, 0, 0⟩ mondayOnly) = (.ok answer, t) ∧
      t.proposals.entries.get? "p1" = some p ∧ p.score = 0 ∧ ¬ p.FillsGrid := by
  have cached : ∀ r n, (perform staffRoom (generate "p1" ⟨20000, 0, 0⟩ r)).1.toOption.map
      (fun answer => answer.shortfalls.length) = some n →
      ∃ answer t p, perform staffRoom (generate "p1" ⟨20000, 0, 0⟩ r) = (.ok answer, t) ∧
        t.proposals.entries.get? "p1" = some p ∧ p.shortfalls.length = n ∧ p.PerfectOrShort := by
    intro r n left
    cases run : perform staffRoom (generate "p1" ⟨20000, 0, 0⟩ r) with
    | mk result t =>
      rw [run] at left
      cases result with
      | error e => cases left
      | ok answer =>
        obtain ⟨p, found, told, _, _, law⟩ := generate_perfectOrShort run
        rw [told] at left
        exact ⟨answer, t, p, rfl, found, Option.some.inj left, law⟩
  constructor
  · obtain ⟨answer, t, p, run, found, none, law⟩ := cached twoDays 0 (by decide +kernel)
    have keeps : p.isSavable = true := List.isEmpty_iff_length_eq_zero.mpr none
    exact ⟨answer, t, p, run, found, law.scores.mp keeps, law.fills.mp keeps⟩
  · obtain ⟨answer, t, p, run, found, four, law⟩ := cached mondayOnly 4 (by decide +kernel)
    have refused : ¬ p.isSavable = true := by
      intro keeps
      rw [List.isEmpty_iff_length_eq_zero.mp keeps] at four
      cases four
    refine ⟨answer, t, p, run, found, law.short (Bool.not_eq_true _ ▸ refused), ?_⟩
    exact fun filled => refused (law.fills.mpr filled)

end Service

end SchoolTimetable
