import SchoolTimetable.Proofs.Board.Choices

/-!
The order in which the slots of a day are tried. Each slot of the day comes once: first those that
are preferred, by their first place among the preferences, then the others by number. No other list
is so ordered. Preferences that name no slot of the day, and those that are repeated, change
nothing.
-/
namespace SchoolTimetable

/-- The slots of a day with the preferred ones in front, each by its first place among the
preferences, and the others ascending. -/
structure PreferredFirst (preferred : List Int) (slots : Nat) (order : List Nat) : Prop where
  complete : order.Perm (List.range' 1 slots)
  parts : ∃ wanted others, order = wanted ++ others ∧
    (∀ s, s ∈ wanted ↔ (s : Int) ∈ preferred ∧ 1 ≤ s ∧ s ≤ slots) ∧
    (wanted.Pairwise fun (s s' : Nat) =>
      preferred.idxOf (s : Int) < preferred.idxOf (s' : Int)) ∧
    others.Pairwise (· < ·)

/-- The second list is the first one without some preferences that name no slot of the day, or that
come again. -/
inductive Trimmed (slots : Nat) (preferred : List Int) : List Int → Prop where
  | whole : Trimmed slots preferred preferred
  | outside {front back : List Int} {p : Int}
      (before : Trimmed slots preferred (front ++ p :: back))
      (names : ¬ (1 ≤ p ∧ p ≤ (slots : Int))) : Trimmed slots preferred (front ++ back)
  | repeated {front back : List Int} {p : Int}
      (before : Trimmed slots preferred (front ++ p :: back)) (again : p ∈ front) :
      Trimmed slots preferred (front ++ back)

variable {preferred : List Int} {slots : Nat} {order : List Nat}

theorem PreferredFirst.ranked (h : PreferredFirst preferred slots order) :
    order.Pairwise fun s s' =>
      Key.before (slotRank preferred s) (slotRank preferred s') = true := by
  obtain ⟨wanted, others, rfl, members, byPlace, ascending⟩ := h.parts
  have distinct : (wanted ++ others).Nodup := h.complete.nodup_iff.mpr List.nodup_range'
  have listed : ∀ s ∈ wanted, preferred.idxOf (s : Int) < preferred.length := by
    intro s member
    exact List.idxOf_lt_length_of_mem ((members s).mp member).1
  have unlisted : ∀ s ∈ others, preferred.idxOf (s : Int) = preferred.length := by
    intro s member
    have range := List.mem_range'_1.mp (h.complete.mem_iff.mp (List.mem_append_right _ member))
    apply List.idxOf_eq_length
    intro named
    have early := (members s).mpr ⟨named, by omega⟩
    exact List.disjoint_of_nodup_append distinct early member
  simp only [slotRank, Key.before_nat_pair]
  apply List.pairwise_append.mpr
  refine ⟨byPlace.imp Or.inl, ?_, ?_⟩
  · apply ascending.imp_of_mem
    intro s s' member member' before
    have := unlisted s member
    have := unlisted s' member'
    omega
  · intro s member s' member'
    have := listed s member
    have := unlisted s' member'
    omega

theorem candidateSlots_perm (preferred : List Int) (slots : Nat) :
    (candidateSlots preferred slots).Perm (List.range' 1 slots) := by
  have distinct : (candidateSlots preferred slots).Nodup := by
    apply (candidateSlots_ranked preferred slots).imp
    intro s s' before same
    exact Key.before_ne before (congrArg _ same)
  apply (List.perm_ext_iff_of_nodup distinct List.nodup_range').mpr
  intro s
  rw [mem_candidateSlots, List.mem_range'_1]
  omega

theorem candidateSlots_preferredFirst (preferred : List Int) (slots : Nat) :
    PreferredFirst preferred slots (candidateSlots preferred slots) where
  complete := candidateSlots_perm preferred slots
  parts := by
    refine ⟨_, _, rfl, ?_, firstOccurrences_ranked slots preferred, ?_⟩
    · intro s
      rw [mem_firstOccurrences, mem_slotsInRange]
    · exact (List.pairwise_lt_range' 1).filter _

theorem filter_firstOccurrences (p : Nat → Bool) (l : List Nat) :
    (firstOccurrences l).filter p = firstOccurrences (l.filter p) := by
  induction l with
  | nil => rfl
  | cons x rest ih =>
    rw [firstOccurrences, List.filter_cons, List.filter_cons]
    by_cases passes : p x = true
    · rw [if_pos passes, if_pos passes, firstOccurrences, ← ih, List.filter_filter,
        List.filter_filter]
      simp only [Bool.and_comm]
    · rw [if_neg passes, if_neg passes, ← ih, List.filter_filter]
      apply List.filter_congr
      intro s _
      by_cases same : s = x <;> simp_all

theorem firstOccurrences_again {front : List Nat} {s : Nat} (again : s ∈ front)
    (back : List Nat) :
    firstOccurrences (front ++ s :: back) = firstOccurrences (front ++ back) := by
  induction front with
  | nil => cases again
  | cons x rest ih =>
    simp only [List.cons_append, firstOccurrences]
    rcases List.mem_cons.mp again with here | later
    · rw [filter_firstOccurrences, filter_firstOccurrences]
      simp [here]
    · rw [ih later]

theorem Trimmed.slotsInRange {trimmed : List Int} (h : Trimmed slots preferred trimmed) :
    firstOccurrences (slotsInRange slots trimmed) =
      firstOccurrences (slotsInRange slots preferred) := by
  have append : ∀ front back : List Int, SchoolTimetable.slotsInRange slots (front ++ back) =
      SchoolTimetable.slotsInRange slots front ++ SchoolTimetable.slotsInRange slots back := by
    intro front back
    simp [SchoolTimetable.slotsInRange]
  induction h with
  | whole => rfl
  | outside before names ih =>
    rw [append, slotsInRange_cons, if_neg names, ← append] at ih
    exact ih
  | @repeated front back p before again ih =>
    rw [append, slotsInRange_cons] at ih
    by_cases names : 1 ≤ p ∧ p ≤ (slots : Int)
    · have early : p.toNat ∈ SchoolTimetable.slotsInRange slots front :=
        List.mem_map_of_mem (List.mem_filter.mpr ⟨again, decide_eq_true names⟩)
      rw [if_pos names, firstOccurrences_again early, ← append] at ih
      exact ih
    · rw [if_neg names, ← append] at ih
      exact ih

/-- The slots are tried in the one order that has the preferred ones in front, and preferences that
name no slot or come again may be left out. -/
theorem candidateSlots_preferred_then_ascending (preferred : List Int) (slots : Nat) :
    (∀ order, PreferredFirst preferred slots order ↔ order = candidateSlots preferred slots) ∧
      ∀ trimmed, Trimmed slots preferred trimmed →
        candidateSlots trimmed slots = candidateSlots preferred slots := by
  constructor
  · intro order
    constructor
    · intro h
      have perm := h.complete.trans (candidateSlots_perm preferred slots).symm
      refine perm.eq_of_pairwise ?_ h.ranked (candidateSlots_ranked preferred slots)
      intro s s' _ _ before after
      rw [Key.asymm before] at after
      cases after
    · rintro rfl
      exact candidateSlots_preferredFirst preferred slots
  · intro trimmed h
    simp only [candidateSlots, h.slotsInRange]

theorem candidateSlots_preferred_then_ascending_stray :
    PreferredFirst [9, 3, 0, 1, 3] 4 [3, 1, 2, 4] ∧ Trimmed 4 [9, 3, 0, 1, 3] [3, 0, 1] ∧
      candidateSlots [3, 0, 1] 4 = [3, 1, 2, 4] := by
  obtain ⟨order, trims⟩ := candidateSlots_preferred_then_ascending [9, 3, 0, 1, 3] 4
  have slots : candidateSlots [9, 3, 0, 1, 3] 4 = [3, 1, 2, 4] := by decide
  have trimmed : Trimmed 4 [9, 3, 0, 1, 3] [3, 0, 1] := by
    have first : Trimmed 4 [9, 3, 0, 1, 3] ([] ++ [3, 0, 1, 3]) :=
      .outside (p := 9) .whole (by decide)
    have second : Trimmed 4 [9, 3, 0, 1, 3] ([3, 0, 1] ++ []) := .repeated first (by decide)
    exact second
  exact ⟨(order _).mpr slots.symm, trimmed, (trims _ trimmed).trans slots⟩

end SchoolTimetable
