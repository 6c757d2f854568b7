import SchoolTimetable.Proofs.Board.Shortfalls

/-!
Which cell a lesson goes to. The cells that are open to its teacher are ranked, and the search meets
the cells of the grid in the order of their ranks, so what it finds first is the least of the open
ones. Ranks of different cells differ, so there is only one least cell.
-/
namespace SchoolTimetable

theorem Key.before_nat_pair {a b c d : Nat} :
    Key.before (a, b) (c, d) = true ↔ a < c ∨ (a = c ∧ b < d) := by
  simp [Key.before, Key.same]
  omega

/-- Where a slot comes on its day: slots that are preferred by their first place among the
preferences, all others after them, by number. -/
def slotRank (preferred : List Int) (slot : Nat) : Nat × Nat :=
  (preferred.idxOf (slot : Int), slot)

theorem slotsInRange_cons (slots : Nat) (p : Int) (rest : List Int) :
    slotsInRange slots (p :: rest) =
      if 1 ≤ p ∧ p ≤ slots then p.toNat :: slotsInRange slots rest
      else slotsInRange slots rest := by
  unfold slotsInRange
  split <;> simp [*]

theorem mem_slotsInRange {slots s : Nat} {preferred : List Int} :
    s ∈ slotsInRange slots preferred ↔ (s : Int) ∈ preferred ∧ 1 ≤ s ∧ s ≤ slots := by
  simp only [slotsInRange, List.mem_map, List.mem_filter, decide_eq_true_eq]
  constructor
  · rintro ⟨p, ⟨listed, range⟩, rfl⟩
    have same : (p.toNat : Int) = p := by omega
    exact ⟨same ▸ listed, by omega⟩
  · rintro ⟨listed, range⟩
    exact ⟨s, ⟨listed, by omega⟩, rfl⟩

theorem firstOccurrences_ranked (slots : Nat) (preferred : List Int) :
    (firstOccurrences (slotsInRange slots preferred)).Pairwise fun (s s' : Nat) =>
      preferred.idxOf (s : Int) < preferred.idxOf (s' : Int) := by
  induction preferred with
  | nil => exact .nil
  | cons p rest ih =>
    -- What is not the first preference is one place further back than among the others.
    have further : ∀ {s : Nat}, (s : Int) ≠ p →
        (p :: rest).idxOf (s : Int) = rest.idxOf (s : Int) + 1 :=
      fun apart => List.idxOf_cons_ne _ (Ne.symm apart)
    rw [slotsInRange_cons]
    split
    · rename_i range
      have first : (p.toNat : Int) = p := by omega
      have others : ∀ {s}, s ∈ (firstOccurrences (slotsInRange slots rest)).filter (· ≠ p.toNat) →
          (s : Int) ≠ p := by
        intro s member
        have apart := of_decide_eq_true (List.mem_filter.mp member).2
        omega
      refine .cons ?_ ((ih.filter _).imp_of_mem ?_)
      · intro s member
        simp [first, further (others member)]
      · intro s s' member member' before
        rw [further (others member), further (others member')]
        omega
    · rename_i outside
      refine ih.imp_of_mem ?_
      intro s s' member member' before
      have range := (mem_slotsInRange.mp (mem_firstOccurrences.mp member)).2
      have range' := (mem_slotsInRange.mp (mem_firstOccurrences.mp member')).2
      rw [further (by omega), further (by omega)]
      omega

theorem candidateSlots_ranked (preferred : List Int) (slots : Nat) :
    (candidateSlots preferred slots).Pairwise fun s s' =>
      Key.before (slotRank preferred s) (slotRank preferred s') = true := by
  have wanted : ∀ {s}, s ∈ firstOccurrences (slotsInRange slots preferred) →
      preferred.idxOf (s : Int) < preferred.length := by
    intro s member
    exact List.idxOf_lt_length_of_mem (mem_slotsInRange.mp (mem_firstOccurrences.mp member)).1
  have others : ∀ {s}, s ∈ (List.range' 1 slots).filter
      (· ∉ firstOccurrences (slotsInRange slots preferred)) →
        preferred.idxOf (s : Int) = preferred.length := by
    intro s member
    simp only [List.mem_filter, List.mem_range'_1, mem_firstOccurrences, mem_slotsInRange,
      decide_eq_true_eq] at member
    exact List.idxOf_eq_length fun listed => member.2 ⟨listed, by omega⟩
  simp only [slotRank, Key.before_nat_pair, candidateSlots]
  refine List.pairwise_append.mpr ⟨?_, ?_, ?_⟩
  · exact (firstOccurrences_ranked slots preferred).imp Or.inl
  · refine ((List.pairwise_lt_range' 1).filter _).imp_of_mem ?_
    intro s s' member member' before
    exact Or.inr ⟨(others member).trans (others member').symm, before⟩
  · intro s member s' member'
    exact Or.inl ((others member').symm ▸ wanted member)

theorem find?_least {α : Type} {R : α → α → Prop} {p : α → Bool} {l : List α} {a x : α}
    (ascending : l.Pairwise R) (found : l.find? p = some a) (listed : x ∈ l) (passes : p x = true)
    (apart : x ≠ a) : R a x := by
  obtain ⟨_, front, back, rfl, skipped⟩ := List.find?_eq_some_iff_append.mp found
  have later := List.pairwise_cons.mp (List.pairwise_append.mp ascending).2.1
  rcases List.mem_append.mp listed with before | here
  · have failed := skipped x before
    simp [passes] at failed
  · exact later.1 x ((List.mem_cons.mp here).resolve_left apart)

namespace Board
variable {b : Board} {l : SubjectLoad} {t : TeacherId} {c : Cell}

structure OpenTo (b : Board) (t : TeacherId) (c : Cell) : Prop where
  inside : b.inGrid c
  empty : b.lessonAt? c = none
  admitted : (b.ledger t).canAssign c = true

/-- Cells come by the lessons that their days hold, then by day, then by the rank of the slot. -/
def rank (b : Board) (l : SubjectLoad) (c : Cell) : (Nat × Nat) × Nat × Nat :=
  ((b.dayLoad c.day, c.day), slotRank l.preferredSlots c.slot)

theorem dayLoad_le_of_rank {d : Cell} (before : Key.before (b.rank l c) (b.rank l d) = true) :
    b.dayLoad c.day ≤ b.dayLoad d.day := by
  rcases Bool.or_eq_true_iff.mp before with lower | same
  · have := Key.before_nat_pair.mp lower
    omega
  · have loads := congrArg Prod.fst (Key.same_iff.mp (Bool.and_eq_true_iff.mp same).1)
    exact Nat.le_of_eq loads

theorem closedTo_iff : b.ClosedTo t ↔ ∀ c, ¬ b.OpenTo t c := by
  refine forall_congr' fun c => ⟨fun closed cell => ?_, fun shut inside empty => ?_⟩
  · have refused := Availability.refuses_iff.mp (closed cell.inside cell.empty)
    simp [cell.admitted] at refused
  · exact Availability.refuses_iff.mpr (Bool.not_eq_true _ ▸ fun yes => shut ⟨inside, empty, yes⟩)

theorem candidateDays_ranked (b : Board) :
    b.candidateDays.Pairwise fun d d' =>
      Key.before (b.dayLoad d, d) (b.dayLoad d', d') = true := by
  have own : ∀ {p}, p ∈ sortDistinct (b.days.map fun d => (b.dayLoad d, d)) →
      (b.dayLoad p.2, p.2) = p := by
    intro p member
    obtain ⟨d, _, rfl⟩ := List.mem_map.mp (mem_sortDistinct_iff.mp member)
    rfl
  refine List.pairwise_map.mpr ((sortDistinct_sorted _).imp_of_mem ?_)
  intro p q member member' before
  rwa [own member, own member']

/-- The search goes through the cells by their ranks. -/
theorem candidateCells_ranked (b : Board) (l : SubjectLoad) :
    (b.candidateCells l).Pairwise fun c d => Key.before (b.rank l c) (b.rank l d) = true := by
  refine List.pairwise_flatMap.mpr ⟨fun d _ => ?_, b.candidateDays_ranked.imp ?_⟩
  · refine List.pairwise_map.mpr ((candidateSlots_ranked l.preferredSlots b.slotsPerDay).imp ?_)
    intro s s' before
    rw [rank, rank, Key.before_pair]
    exact before
  · intro d d' before c here c' there
    obtain ⟨s, _, rfl⟩ := List.mem_map.mp here
    obtain ⟨s', _, rfl⟩ := List.mem_map.mp there
    exact Bool.or_eq_true_iff.mpr (Or.inl before)

def FirstFor (b : Board) (l : SubjectLoad) (c : Cell) : Prop :=
  b.OpenTo l.teacher c ∧
    ∀ d, b.OpenTo l.teacher d → d ≠ c → Key.before (b.rank l c) (b.rank l d) = true

theorem cellFor?_first (found : b.cellFor? l = some c) : b.FirstFor l c := by
  obtain ⟨inside, empty, admitted⟩ := cellFor?_spec found
  refine ⟨⟨inside, empty, admitted⟩, fun d cell apart => ?_⟩
  have passes : b.admits l.teacher d = true := by
    simp [admits, lessonAt?_eq_none_iff.mp cell.empty, cell.admitted]
  have listed : d ∈ b.candidateCells l := mem_candidateCells.mpr cell.inside
  have before := find?_least (b.candidateCells_ranked l) found listed passes apart
  exact before

theorem openTo_withLedger (b : Board) (u t : TeacherId) (c : Cell) :
    (b.withLedger u).OpenTo t c ↔ b.OpenTo t c := by
  obtain ⟨days, slots, grid, _⟩ := b.withLedger_frame u
  constructor <;> rintro ⟨inside, empty, admitted⟩
  · exact ⟨by simpa [inGrid, days, slots] using inside, by simpa [lessonAt?, grid] using empty,
      by simpa using admitted⟩
  · exact ⟨by simpa [inGrid, days, slots] using inside, by simpa [lessonAt?, grid] using empty,
      by simpa using admitted⟩

theorem firstFor_withLedger (b : Board) (u : TeacherId) (l : SubjectLoad) (c : Cell) :
    (b.withLedger u).FirstFor l c ↔ b.FirstFor l c := by
  have rank : (b.withLedger u).rank l = b.rank l := by
    funext d
    simp [Board.rank, dayLoad, (b.withLedger_frame u).2.2.2]
  simp only [FirstFor, openTo_withLedger, rank]

theorem pin_withLedger (b : Board) (l : SubjectLoad) (c : Cell) :
    (b.withLedger l.teacher).pin l c =
      { b with
        grid := b.grid.insert c ⟨c, l.subject, l.teacher, l.room⟩
        dayLoads := b.dayLoads.insert c.day (b.dayLoad c.day + 1)
        teachers := b.teachers.insert l.teacher ((b.ledger l.teacher).reserve c).1 } := by
  unfold withLedger
  split
  · rename_i known
    obtain ⟨a, found⟩ := Option.isSome_iff_exists.mp known
    have same : b.teachers.modify l.teacher (fun a => (a.reserve c).1) =
        b.teachers.insert l.teacher (a.reserve c).1 := by
      apply Table.ext
      intro u
      by_cases here : u = l.teacher
      · simp [here, found]
      · rw [Table.get?_modify_of_ne _ _ here, Table.get?_insert_of_ne _ _ here]
    simp [pin, ledger, found, same]
  · rename_i unknown
    have absent : b.teachers.get? l.teacher = none := by simpa [Table.contains] using unknown
    simp [pin, dayLoad, ledger, absent, Table.modify_insert]

/-- Placing one lesson. Where no cell is open to its teacher, nothing changes but that the teacher
becomes known, without limits. Otherwise the lesson goes to the open cell of the least rank, its day
counts one lesson more, and the teacher reserves the cell, which was not reserved before. -/
theorem placeOne_takes_first (b : Board) (l : SubjectLoad) :
    ((∀ c, ¬ b.OpenTo l.teacher c) →
      b.placeOne l =
        (if b.teachers.contains l.teacher then b
          else { b with teachers := b.teachers.insert l.teacher .unlimited }, none)) ∧
    ((∃ c, b.OpenTo l.teacher c) →
      ∃ c, b.FirstFor l c ∧ ((b.ledger l.teacher).reserve c).2 = true ∧
        b.placeOne l =
          ({ b with
              grid := b.grid.insert c ⟨c, l.subject, l.teacher, l.room⟩
              dayLoads := b.dayLoads.insert c.day (b.dayLoad c.day + 1)
              teachers := b.teachers.insert l.teacher ((b.ledger l.teacher).reserve c).1 },
            some c)) := by
  constructor
  · intro shut
    have closed := (closedTo_withLedger b l.teacher l.teacher).mpr (closedTo_iff.mpr shut)
    simp only [placeOne, cellFor?_eq_none_iff.mpr closed]
    rfl
  · rintro ⟨d, cell⟩
    cases found : (b.withLedger l.teacher).cellFor? l with
    | none =>
      have closed := (closedTo_withLedger b l.teacher l.teacher).mp (cellFor?_eq_none_iff.mp found)
      exact absurd cell (closedTo_iff.mp closed d)
    | some c =>
      have first := (firstFor_withLedger b l.teacher l c).mp (cellFor?_first found)
      have free := (Availability.canAssign_iff.mp first.1.admitted).2.1
      refine ⟨c, first, by simp [Availability.reserve_snd, free], ?_⟩
      simp only [placeOne, found, pin_withLedger]

theorem placeOne_takes_first_second_day :
    let teachers := Table.empty.insert "bea" ((Availability.withCaps 1 0).block ⟨2, 3⟩)
    let b := ((start 3 [1, 2] teachers).placeOne ⟨"math", "ann", 1, 0, [], none⟩).1
    let l : SubjectLoad := ⟨"art", "bea", 1, 0, [9, 3, 2, 3], none⟩
    let spent := ((b.placeOne l).1.placeOne l).1
    b.OpenTo "bea" ⟨1, 3⟩ ∧ b.FirstFor l ⟨2, 2⟩ ∧ (∀ c, ¬ spent.OpenTo "bea" c) ∧
      spent.placeOne l = (spent, none) := by
  intro teachers b l spent
  have there : b.OpenTo "bea" ⟨1, 3⟩ :=
    ⟨⟨by decide +kernel, by decide, by decide⟩, by decide +kernel, by decide +kernel⟩
  obtain ⟨c, first, _, placed⟩ := (placeOne_takes_first b l).2 ⟨_, there⟩
  have went : (b.placeOne l).2 = some ⟨2, 2⟩ := by decide +kernel
  have same : c = ⟨2, 2⟩ := Option.some.inj ((congrArg Prod.snd placed).symm.trans went)
  have shut : ∀ c, ¬ spent.OpenTo "bea" c :=
    closedTo_iff.mp ((cellFor?_eq_none_iff (l := l)).mp (by decide +kernel))
  have kept := (placeOne_takes_first spent l).1 shut
  rw [if_pos (by decide +kernel)] at kept
  exact ⟨there, same ▸ first, shut, kept⟩

end Board

end SchoolTimetable
