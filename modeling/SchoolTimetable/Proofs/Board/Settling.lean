import SchoolTimetable.Proofs.Board.Caps

/-!
Why gap repair stops. What the lessons of a day can come forward in all is a measure: each move takes
one from it. Where no move is left on a day, its slots are consecutive, or its first gap is held open
by a teacher who was never free in the cell to move to. Caps hold no gap open, as whoever gives a
lesson is within them.
-/
namespace SchoolTimetable

/-- What the slots of a day are in all behind an unbroken sequence from the first of them. Slots that
ascend are nowhere ahead of it, so no difference is cut off at zero. -/
def slack (slots : List Nat) : Nat :=
  total (slots.zipIdx.map fun x => x.1 - (slots.headD 0 + x.2))

theorem ascending_length {first slot : Nat} {rest back : List Nat}
    (ascending : (first :: rest ++ slot :: back).Pairwise (· < ·)) :
    first + rest.length < slot := by
  induction rest generalizing first with
  | nil => exact (List.pairwise_cons.mp ascending).1 slot List.mem_cons_self
  | cons next rest ih =>
    obtain ⟨later, ascends⟩ := List.pairwise_cons.mp ascending
    have here := later next List.mem_cons_self
    have there := ih ascends
    rw [List.length_cons]
    omega

/-- A slot that is not the first and comes forward by one takes one from the slack. -/
theorem slack_forward {front back : List Nat} {slot : Nat} (later : front ≠ [])
    (ascending : (front ++ slot :: back).Pairwise (· < ·)) :
    slack (front ++ slot :: back) + 1 = slack (front ++ (slot + 1) :: back) := by
  obtain ⟨first, rest, rfl⟩ := List.exists_cons_of_ne_nil later
  have behind := ascending_length ascending
  simp only [slack, List.zipIdx_append, List.zipIdx_cons, List.map_append, List.map_cons,
    total_append, total_cons, List.cons_append, List.headD_cons, Nat.zero_add]
  omega

theorem total_map_succ {α : Type} {xs : List α} {x : α} {f g : α → Nat} (distinct : xs.Nodup)
    (listed : x ∈ xs) (here : f x + 1 = g x) (elsewhere : ∀ y, y ≠ x → f y = g y) :
    total (xs.map f) + 1 = total (xs.map g) := by
  induction xs with
  | nil => cases listed
  | cons y rest ih =>
    obtain ⟨absent, distinct⟩ := List.nodup_cons.mp distinct
    rw [List.map_cons, List.map_cons, total_cons, total_cons]
    rcases List.mem_cons.mp listed with same | later
    · have others : rest.map f = rest.map g := by
        refine List.map_congr_left fun z member => elsewhere z fun again => ?_
        exact absent (same ▸ again ▸ member)
      rw [others, ← same, ← here]
      omega
    · have apart : y ≠ x := fun same => absent (same ▸ later)
      have := ih distinct later
      rw [elsewhere y apart]
      omega

namespace Availability
variable {a : Availability} {src dest : Cell}

theorem underCap_pred {cap load : Nat} (within : cap = 0 ∨ load ≤ cap) :
    underCap cap (load - 1) = true := by
  rw [underCap_iff]
  omega

theorem Fits.canMove_iff (fits : a.Fits dest.day) (held : a.isReserved src = true)
    (sameDay : src.day = dest.day) (apart : src ≠ dest) :
    a.canMove src dest = true ↔ a.isBlocked dest = false ∧ a.isReserved dest = false := by
  constructor
  · exact canMove_free apart
  · intro free
    have daily := underCap_pred fits.daily
    have weekly := underCap_pred fits.weekly
    simp [canMove, apart, free, held, sameDay, daily, weekly]

end Availability

namespace Board
variable {origin b : Board} {lesson : Lesson} {src dest : Cell}

def slack (b : Board) : Nat := total (b.days.map fun day => SchoolTimetable.slack (b.slotsOn day))

theorem GapMove.slotsOn_day (gap : b.GapMove lesson src dest) :
    ∃ front back, front ≠ [] ∧ b.slotsOn src.day = front ++ src.slot :: back ∧
      (b.move src dest).slotsOn src.day = front ++ dest.slot :: back := by
  obtain ⟨front, back, lessons, moved, l, listed, sameDay⟩ := gap.placedLessons
  refine ⟨(lessonsOn front src.day).map (·.cell.slot), (lessonsOn back src.day).map (·.cell.slot),
    ?_, ?_, ?_⟩
  · have kept : l ∈ lessonsOn front src.day :=
      List.mem_filter.mpr ⟨listed, decide_eq_true sameDay⟩
    exact List.ne_nil_of_mem (List.mem_map_of_mem kept)
  · rw [slotsOn_eq, lessons]
    simp [lessonsOn]
  · rw [slotsOn_eq, moved]
    simp [lessonsOn, gap.sameDay]

theorem GapMove.slotsOn_of_ne (gap : b.GapMove lesson src dest) {day : Nat} (apart : day ≠ src.day) :
    (b.move src dest).slotsOn day = b.slotsOn day := by
  obtain ⟨front, back, lessons, moved, _⟩ := gap.placedLessons
  rw [slotsOn_eq, slotsOn_eq, lessons, moved]
  simp [lessonsOn, gap.sameDay, apart.symm]

theorem GapMove.slack (gap : b.GapMove lesson src dest) (distinct : b.days.Nodup)
    (listed : src.day ∈ b.days) : (b.move src dest).slack + 1 = b.slack := by
  have days : (b.move src dest).days = b.days := by rw [gap.move_eq]
  rw [Board.slack, Board.slack, days]
  refine total_map_succ distinct listed ?_ fun day apart => by rw [gap.slotsOn_of_ne apart]
  obtain ⟨front, back, later, before, after⟩ := gap.slotsOn_day
  have ascending := (b.move src dest).slotsOn_sorted src.day
  rw [after] at ascending ⊢
  rw [before, ← gap.before]
  exact slack_forward later ascending

theorem InStep.repairGaps_slack (h : InStep origin b) (distinct : origin.days.Nodup)
    (budget : Nat) : (repairGaps budget b).1.slack + (repairGaps budget b).2 = b.slack := by
  revert h
  apply repairGaps_induction (P := fun n b b' => InStep origin b → b'.slack + n = b.slack)
  · exact fun _ _ => rfl
  · intro b b' n lesson src dest gap rest h
    have listed := (h.stored src lesson gap.found).2.1
    have one := gap.slack (h.sameDays ▸ distinct) listed
    have others := rest (h.moved gap)
    omega

theorem repairGaps_le (budget : Nat) (b : Board) : (repairGaps budget b).2 ≤ budget := by
  induction budget generalizing b with
  | zero => exact Nat.le_refl 0
  | succ budget ih =>
    unfold repairGaps
    split
    · exact Nat.zero_le _
    · exact Nat.succ_le_succ (ih _)

theorem repairGaps_stuck (budget : Nat) (b : Board) (spared : (repairGaps budget b).2 < budget) :
    (repairGaps budget b).1.gapMove? = none := by
  induction budget generalizing b with
  | zero => exact absurd spared (Nat.not_lt_zero _)
  | succ budget ih =>
    unfold repairGaps at spared ⊢
    split at spared
    · assumption
    · exact ih _ (Nat.lt_of_succ_lt_succ spared)

/-- The caps of a teacher stop no lesson from moving on its day. -/
theorem InStep.canMove_iff (h : InStep origin b) (staffed : b.Staffed)
    (found : b.lessonAt? src = some lesson) (sameDay : src.day = dest.day)
    (empty : b.lessonAt? dest = none) :
    (b.ledger lesson.teacher).canMove src dest = true ↔
      (origin.ledger lesson.teacher).isBlocked dest = false ∧
        (origin.ledger lesson.teacher).isReserved dest = false := by
  have gives : b.Gives lesson.teacher src := ⟨lesson, found, rfl⟩
  have apart : src ≠ dest := by
    intro same
    rw [same, empty] at found
    cases found
  have fits := sameDay ▸ (staffed _ _ gives).2
  have held := (h.reserved _ _).mpr (Or.inr gives)
  have nobody : ¬ b.Gives lesson.teacher dest := by
    intro given
    obtain ⟨l, there, _⟩ := given
    rw [empty] at there
    cases there
  have reserved := h.reserved lesson.teacher dest
  rw [or_iff_left nobody, Bool.coe_iff_coe] at reserved
  rw [fits.canMove_iff held sameDay apart, reserved, Availability.isBlocked, Availability.isBlocked,
    (h.limits lesson.teacher).blocked]

/-- The first gap of a day is before the lesson, whose teacher was not free to begin with in the
cell right before it. -/
structure HeldOpen (origin b : Board) (day slot : Nat) (lesson : Lesson) : Prop where
  found : b.lessonAt? ⟨day, slot⟩ = some lesson
  firstGap : ∃ front last rest, b.slotsOn day = front ++ last :: slot :: rest ∧
    Consecutive (front ++ [last]) ∧ last + 1 < slot
  taken : (origin.ledger lesson.teacher).isBlocked ⟨day, slot - 1⟩ = true ∨
    (origin.ledger lesson.teacher).isReserved ⟨day, slot - 1⟩ = true

/-- A day without a move has no gap, or a gap that is held open. -/
theorem InStep.settled (h : InStep origin b) (staffed : b.Staffed) {day : Nat}
    (stuck : b.gapMoveOn? day = none) :
    Consecutive (b.slotsOn day) ∨ ∃ slot lesson, HeldOpen origin b day slot lesson := by
  have ascending := b.slotsOn_sorted day
  cases gap : slotAfterGap? (b.slotsOn day) with
  | none => exact Or.inl ((slotAfterGap?_eq_none_iff ascending).mp gap)
  | some slot =>
    have firstGap := slotAfterGap?_split ascending gap
    have empty := (gap_before gap).1
    have listed : slot ∈ b.slotsOn day := by
      obtain ⟨front, last, rest, slots, _⟩ := firstGap
      simp [slots]
    obtain ⟨lesson, found⟩ := Option.isSome_iff_exists.mp (mem_slotsOn_iff.mp listed)
    obtain ⟨a, kept⟩ := Option.isSome_iff_exists.mp (staffed _ _ ⟨lesson, found, rfl⟩).1
    have own : b.ledger lesson.teacher = a := by
      rw [ledger, kept]
      rfl
    have refused : ¬ a.canMove ⟨day, slot⟩ ⟨day, slot - 1⟩ = true := by
      intro admitted
      have stored : b.grid.get? ⟨day, slot⟩ = some lesson := found
      simp [gapMoveOn?, gap, stored, kept, admitted] at stuck
    have sameDay : (⟨day, slot⟩ : Cell).day = (⟨day, slot - 1⟩ : Cell).day := rfl
    rw [← own, h.canMove_iff staffed found sameDay empty, not_and_or, Bool.not_eq_false,
      Bool.not_eq_false] at refused
    exact Or.inr ⟨slot, lesson, found, firstGap, refused⟩

theorem InStep.slotsOn_unlisted (h : InStep origin b) {day : Nat} (unlisted : day ∉ b.days) :
    b.slotsOn day = [] := by
  refine List.eq_nil_iff_forall_not_mem.mpr fun slot member => unlisted ?_
  obtain ⟨lesson, found⟩ := Option.isSome_iff_exists.mp (mem_slotsOn_iff.mp member)
  exact (h.stored _ lesson found).2.1

theorem start_days_nodup (slots : Nat) (days : List Nat) (teachers : Table TeacherId Availability) :
    (start slots days teachers).days.Nodup := Table.keys_nodup _

/-- Whatever calls led to a board, gap repair makes no more moves than its budget and the slack
allow. Where it makes fewer than its budget, each day is without gaps or its first gap is held open
by a teacher who was not free there to begin with, caps stop no lesson from moving, and there is
nothing left to repair. -/
theorem repairGaps_settles (slots : Nat) (days : List Nat) (teachers : Table TeacherId Availability)
    (built : ∀ t a, teachers.get? t = some a → a.Built) (calls : List BoardCall) (budget : Nat) :
    let origin := start slots days teachers
    let b := origin.afterCalls calls
    let repaired := (repairGaps budget b).1
    let moves := (repairGaps budget b).2
    moves ≤ min budget b.slack ∧
    (moves < budget →
      (∀ day, Consecutive (repaired.slotsOn day) ∨
        ∃ slot lesson, HeldOpen origin repaired day slot lesson) ∧
      (∀ lesson src dest, repaired.lessonAt? src = some lesson → src.day = dest.day →
        repaired.lessonAt? dest = none →
        ((repaired.ledger lesson.teacher).canMove src dest = true ↔
          (origin.ledger lesson.teacher).isBlocked dest = false ∧
            (origin.ledger lesson.teacher).isReserved dest = false)) ∧
      ∀ again, repairGaps again repaired = (repaired, 0)) := by
  intro origin b repaired moves
  have start : InStep origin origin := start_inStep slots days built
  have run : Steps (fun _ => True) origin b := afterCalls_steps _ fun _ _ _ _ => trivial
  have onward : Steps (fun _ => True) origin repaired := run.trans (repairGaps_steps budget b)
  have inStep := start.steps onward
  have staffed : repaired.Staffed := (start_staffed slots days teachers).steps start onward
  refine ⟨?_, fun spared => ?_⟩
  · have spent := (start.steps run).repairGaps_slack (start_days_nodup slots days teachers) budget
    have most : moves ≤ budget := repairGaps_le budget b
    have bound : moves ≤ b.slack := by omega
    exact Nat.le_min.mpr ⟨most, bound⟩
  · have stuck : repaired.gapMove? = none := repairGaps_stuck budget b spared
    refine ⟨fun day => ?_, ?_, repairGaps_of_stuck stuck⟩
    · by_cases listed : day ∈ repaired.days
      · exact inStep.settled staffed (List.findSome?_eq_none_iff.mp stuck day listed)
      · rw [inStep.slotsOn_unlisted listed]
        exact Or.inl .nil
    · intro lesson src dest found sameDay empty
      exact inStep.canMove_iff staffed found sameDay empty

def halfTime : Table TeacherId Availability :=
  Table.empty.insert "ann" (((Availability.withCaps 2 4).block ⟨2, 3⟩).reserve ⟨3, 3⟩).1

theorem repairGaps_settles_three_days :
    let calls : List BoardCall :=
      [.placeLoads [⟨"art", "bea", 3, 3, [1], none⟩, ⟨"math", "ann", 3, 2, [4], none⟩]]
    let b := (start 6 [1, 2, 3] halfTime).afterCalls calls
    let repaired := (repairGaps 9 b).1
    (∀ t a, halfTime.get? t = some a → a.Built) ∧ b.slack = 6 ∧ (repairGaps 9 b).2 = 2 ∧
      [1, 2, 3].map repaired.slotsOn = [[1, 2], [1, 4], [1, 4]] ∧
      (repaired.ledger "ann").weekly = (repaired.ledger "ann").weeklyCap ∧
      (∃ slot lesson, HeldOpen (start 6 [1, 2, 3] halfTime) repaired 3 slot lesson) ∧
      repairGaps 100 repaired = (repaired, 0) := by
  intro calls b repaired
  have built : ∀ t a, halfTime.get? t = some a → a.Built :=
    Availability.Built.only (.reserve _ (.block _ (.withCaps 2 4))) "ann"
  have moves : (repairGaps 9 b).2 = 2 := by decide +kernel
  have spared : (repairGaps 9 b).2 < 9 := moves ▸ by decide
  obtain ⟨days, _, still⟩ := (repairGaps_settles 6 [1, 2, 3] halfTime built calls 9).2 spared
  have gap : ¬ Consecutive (repaired.slotsOn 3) := by decide +kernel
  exact ⟨built, by decide +kernel, moves, by decide +kernel, by decide +kernel,
    (days 3).resolve_left gap, still 100⟩

end Board

end SchoolTimetable
