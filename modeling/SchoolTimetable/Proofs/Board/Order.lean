import SchoolTimetable.Proofs.Board.Units

/-!
The order in which loads are placed. Loads of one difficulty and weekly count stay in the order in
which they are asked for, and those of different ones are ordered by them. So the loads of each
difficulty and count, in their order, settle the order of all, and with it the whole plan.
-/
namespace SchoolTimetable

/-- One load is not placed after another: it is harder, or as hard and no shorter. -/
def SubjectLoad.Precedes (x y : SubjectLoad) : Prop :=
  y.difficulty < x.difficulty ∨ (x.difficulty = y.difficulty ∧ y.weeklyCount ≤ x.weeklyCount)

/-- The same loads in an order that keeps loads of the same difficulty and weekly count in theirs. -/
def Reordered (loads loads' : List SubjectLoad) : Prop :=
  ∀ difficulty count,
    loads.filter (fun l => l.difficulty = difficulty ∧ l.weeklyCount = count) =
      loads'.filter fun l => l.difficulty = difficulty ∧ l.weeklyCount = count

namespace Reordered
variable {x y : SubjectLoad} {xs ys zs : List SubjectLoad}

theorem symm (h : Reordered xs ys) : Reordered ys xs := fun difficulty count =>
  (h difficulty count).symm

theorem trans (h : Reordered xs ys) (g : Reordered ys zs) : Reordered xs zs :=
  fun difficulty count => (h difficulty count).trans (g difficulty count)

theorem mem_iff (h : Reordered xs ys) : x ∈ xs ↔ x ∈ ys := by
  have own := h x.difficulty x.weeklyCount
  have kept : ∀ ls : List SubjectLoad, x ∈ ls ↔ x ∈ ls.filter fun l =>
      l.difficulty = x.difficulty ∧ l.weeklyCount = x.weeklyCount := by simp
  rw [kept xs, own, ← kept ys]

theorem perm (h : Reordered xs ys) : xs.Perm ys := by
  apply List.perm_iff_count.mpr
  intro x
  have kept : ∀ ls : List SubjectLoad, (ls.filter fun l =>
      l.difficulty = x.difficulty ∧ l.weeklyCount = x.weeklyCount).count x = ls.count x :=
    fun ls => List.count_filter (by simp)
  rw [← kept xs, h, kept]

theorem eq_of_sorted (h : Reordered xs ys) (sorted : xs.Pairwise SubjectLoad.Precedes)
    (sorted' : ys.Pairwise SubjectLoad.Precedes) : xs = ys := by
  induction xs generalizing ys with
  | nil => exact h.perm.nil_eq
  | cons x xs ih =>
    cases ys with
    | nil => exact absurd (h.mem_iff.mp List.mem_cons_self) List.not_mem_nil
    | cons y ys =>
      obtain ⟨first, rest⟩ := List.pairwise_cons.mp sorted
      obtain ⟨first', rest'⟩ := List.pairwise_cons.mp sorted'
      -- Each head comes in the other list, so neither is before the other.
      have alike : x.difficulty = y.difficulty ∧ x.weeklyCount = y.weeklyCount := by
        rcases List.mem_cons.mp (h.mem_iff.mpr List.mem_cons_self) with same | later
        · exact ⟨by rw [same], by rw [same]⟩
        · rcases List.mem_cons.mp (h.mem_iff.mp List.mem_cons_self) with same | later'
          · exact ⟨by rw [same], by rw [same]⟩
          · have before := first y later
            have before' := first' x later'
            simp only [SubjectLoad.Precedes] at before before'
            omega
      have heads := h x.difficulty x.weeklyCount
      simp only [List.filter_cons, alike, and_self, decide_true, if_true] at heads
      obtain ⟨rfl, _⟩ := List.cons.inj heads
      have tails : Reordered xs ys := by
        intro difficulty count
        have whole := h difficulty count
        simp only [List.filter_cons] at whole
        split at whole
        · exact (List.cons.inj whole).2
        · exact whole
      rw [ih tails rest rest']

end Reordered

namespace Board

theorem placementEntries_keys {loads : List SubjectLoad} {e : (Int × Int × Nat) × SubjectLoad}
    (member : e ∈ placementEntries loads) :
    e.1.1 = -e.2.difficulty ∧ e.1.2.1 = -(e.2.weeklyCount : Int) := by
  obtain ⟨p, _, rfl⟩ := List.mem_map.mp member
  exact ⟨rfl, rfl⟩

theorem placementOrder_sorted (loads : List SubjectLoad) :
    (placementOrder loads).Pairwise SubjectLoad.Precedes := by
  refine List.pairwise_map.mpr ((Table.sorted _).imp_of_mem ?_)
  intro e f member member' before
  have own := placementEntries_keys ((placementEntries_perm loads).mem_iff.mp member)
  have own' := placementEntries_keys ((placementEntries_perm loads).mem_iff.mp member')
  simp [Key.before, Key.same] at before
  simp only [SubjectLoad.Precedes]
  omega

theorem placementOrder_reordered (loads : List SubjectLoad) :
    Reordered (placementOrder loads) loads := by
  intro difficulty count
  let alike : (Int × Int × Nat) × SubjectLoad → Bool :=
    fun e => e.2.difficulty = difficulty ∧ e.2.weeklyCount = count
  -- Among loads that are alike, only the places tell the keys apart, and these ascend.
  have ascending : ((placementEntries loads).filter alike).Pairwise fun e f =>
      Key.before e.1 f.1 = true := by
    have places : loads.zipIdx.Pairwise fun a b => a.2 < b.2 := by
      have numbers := List.pairwise_lt_range' (s := 0) (n := loads.length) 1
      rw [← List.zipIdx_map_snd 0 loads] at numbers
      exact List.pairwise_map.mp numbers
    have ordered : (placementEntries loads).Pairwise fun e f => e.1.2.2 < f.1.2.2 :=
      List.pairwise_map.mpr places
    refine (ordered.filter alike).imp_of_mem ?_
    intro e f member member' before
    obtain ⟨listed, here⟩ := List.mem_filter.mp member
    obtain ⟨listed', there⟩ := List.mem_filter.mp member'
    have own := placementEntries_keys listed
    have own' := placementEntries_keys listed'
    simp only [alike, decide_eq_true_eq] at here there
    simp [Key.before, Key.same]
    omega
  have same : (Table.ofList (placementEntries loads)).entries.filter alike =
      (placementEntries loads).filter alike := by
    apply Table.entries_ext ((Table.sorted _).filter _) ascending
    intro e
    rw [List.mem_filter, List.mem_filter, (placementEntries_perm loads).mem_iff]
  have values := congrArg (List.map Prod.snd) same
  conv => rhs; rw [← placementEntries_values loads]
  rw [List.filter_map]
  exact (List.filter_map ..).trans values

end Board

open Board

/-- Reordered loads, over the same days, come to the same plan. -/
theorem plan_ignores_order {loads loads' : List SubjectLoad} (same : Reordered loads loads')
    {days days' : List Nat} (sameDays : ∀ day, day ∈ days ↔ day ∈ days') (slots : Nat)
    (teachers : Table TeacherId Availability) (budget : Nat) :
    plan loads' slots days' teachers budget = plan loads slots days teachers budget := by
  have order : placementOrder loads' = placementOrder loads := by
    have whole := ((placementOrder_reordered loads').trans same.symm).trans
      (placementOrder_reordered loads).symm
    exact whole.eq_of_sorted (placementOrder_sorted loads') (placementOrder_sorted loads)
  have start : Board.start slots days' teachers = Board.start slots days teachers := by
    have listed : sortDistinct days' = sortDistinct days := by
      refine Key.ascending_ext (sortDistinct_sorted _) (sortDistinct_sorted _) fun day => ?_
      rw [mem_sortDistinct_iff, mem_sortDistinct_iff, sameDays]
    rw [Board.start, listed, Board.start]
  have asked : total (loads'.map (·.weeklyCount)) = total (loads.map (·.weeklyCount)) :=
    total_perm (same.symm.perm.map _)
  simp only [plan, PlanRun.make, PlanRun.outcome, placeLoads, units, order, start, asked]

theorem plan_ignores_order_of_unlike_loads :
    let art : SubjectLoad := ⟨"art", "ann", 1, -2, [2], none⟩
    let music : SubjectLoad := ⟨"music", "ann", 1, -2, [2, 1], some "hall"⟩
    let math : SubjectLoad := ⟨"math", "bea", 2, 0, [3], none⟩
    let planned := fun loads days => plan loads 3 days Table.empty 4
    Reordered [math, art, music] [art, music, math] ∧
      planned [art, music, math] [2, 1, 2] = planned [math, art, music] [1, 2] ∧
      planned [music, art, math] [1, 2] ≠ planned [math, art, music] [1, 2] := by
  intro art music math planned
  have same : Reordered [math, art, music] [art, music, math] := by
    intro difficulty count
    by_cases zero : (0 : Int) = difficulty
    · simp [art, music, math, ← zero, List.filter_cons]
    · simp [art, music, math, zero, List.filter_cons]
  exact ⟨same, plan_ignores_order same (by simp [or_comm]) 3 Table.empty 4, by decide +kernel⟩

end SchoolTimetable
