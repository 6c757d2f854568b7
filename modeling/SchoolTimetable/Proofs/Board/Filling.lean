import SchoolTimetable.Proofs.Board.Caps

/-!
Full boards. Every lesson that is asked for is pinned or noted as a shortfall, and a move changes
neither number. So where as many lessons are asked for as the grid has cells, a board without
shortfalls has a lesson in every cell; on such a board nothing is left to repair and nothing is
lost from the score. A day with fewer lessons than slots has an empty cell.
-/
namespace SchoolTimetable

def gridCells (days : List Nat) (slots : Nat) : List Cell :=
  days.flatMap fun day => Window.cellsBetween day 1 slots

theorem mem_gridCells {days : List Nat} {slots : Nat} {c : Cell} :
    c ∈ gridCells days slots ↔ c.day ∈ days ∧ 1 ≤ c.slot ∧ c.slot ≤ slots := by
  simp only [gridCells, List.mem_flatMap, Window.mem_cellsBetween_iff]
  constructor
  · intro h
    obtain ⟨day, listed, same, range⟩ := h
    exact ⟨same ▸ listed, range⟩
  · intro h
    exact ⟨c.day, h.1, rfl, h.2⟩

theorem length_gridCells (days : List Nat) (slots : Nat) :
    (gridCells days slots).length = slots * days.length := by
  induction days with
  | nil => rfl
  | cons day rest ih =>
    have own : (Window.cellsBetween day 1 slots).length = slots := by simp [Window.cellsBetween]
    rw [gridCells, List.flatMap_cons, List.length_append, own, List.length_cons, Nat.mul_add_one,
      Nat.add_comm]
    exact congrArg (· + slots) ih

theorem gridCells_nodup {days : List Nat} (distinct : days.Nodup) (slots : Nat) :
    (gridCells days slots).Nodup := by
  refine List.nodup_flatMap.mpr ⟨fun day _ => ?_, distinct.imp fun apart c first second => ?_⟩
  · refine (List.nodup_range' 1).map ?_
    intro a b same
    exact (Cell.mk.inj same).2
  · exact apart ((Window.mem_cellsBetween_iff.mp first).1.symm.trans
      (Window.mem_cellsBetween_iff.mp second).1)

theorem total_eq_zero {counts : List Nat} (none : ∀ n ∈ counts, n = 0) : total counts = 0 := by
  induction counts with
  | nil => rfl
  | cons n rest ih =>
    have first := none n List.mem_cons_self
    have others := ih fun x member => none x (List.mem_cons_of_mem _ member)
    change n + total rest = 0
    omega

theorem Score.idle_range' (start n : Nat) : Score.idle (List.range' start n) = 0 := by
  induction n generalizing start with
  | zero => rfl
  | succ n ih =>
    cases n with
    | zero => rfl
    | succ n =>
      have rest := ih (start + 1)
      rw [List.range'_succ] at rest ⊢
      rw [List.range'_succ, Score.idle, rest]
      omega

namespace Board
variable {origin b : Board}

/-! Every unit is accounted for. -/

def accounted (b : Board) : Nat := b.grid.size + b.shortfalls.length

theorem accounted_placeUnits (b : Board) (ls : List SubjectLoad) :
    (b.placeUnits ls).1.accounted = b.accounted + ls.length := by
  obtain ⟨given, missed, split, lessons, shortfalls⟩ := b.placeUnits_split ls
  have pinned := lessons.length_eq
  have noted := congrArg List.length shortfalls
  have units := split.length_eq
  simp only [List.length_append, List.length_map, length_lessons] at pinned noted units
  rw [accounted, accounted]
  omega

theorem Slid.size {n : Nat} {b' : Board} (slid : Slid n b b') : b'.grid.size = b.grid.size := by
  have same := slid.lessons.length_eq
  rw [placedLessons, placedLessons, List.length_map, List.length_map] at same
  exact same.symm

/-! Boards on which no cell is empty. -/

def Full (b : Board) : Prop := b.grid.keys.Perm (gridCells b.days b.slotsPerDay)

theorem InStep.keys_subset (h : InStep origin b) :
    b.grid.keys ⊆ gridCells b.days b.slotsPerDay := by
  intro c member
  obtain ⟨l, found⟩ := Table.mem_keys_iff.mp member
  exact mem_gridCells.mpr (h.stored c l found).2

theorem InStep.size_le (h : InStep origin b) : b.grid.size ≤ b.slotsPerDay * b.days.length := by
  have count := (List.subperm_of_subset b.grid.keys_nodup h.keys_subset).length_le
  rwa [length_gridCells, Table.keys, List.length_map] at count

theorem le_size_of_occupied (distinct : b.days.Nodup)
    (occupied : ∀ c, b.inGrid c → (b.lessonAt? c).isSome) :
    b.slotsPerDay * b.days.length ≤ b.grid.size := by
  have taken : gridCells b.days b.slotsPerDay ⊆ b.grid.keys := by
    intro c member
    exact Table.mem_keys_iff.mpr (Option.isSome_iff_exists.mp (occupied c (mem_gridCells.mp member)))
  have count := (List.subperm_of_subset (gridCells_nodup distinct _) taken).length_le
  rwa [length_gridCells, Table.keys, List.length_map] at count

theorem InStep.full (h : InStep origin b) (size : b.slotsPerDay * b.days.length ≤ b.grid.size) :
    b.Full := by
  apply (List.subperm_of_subset b.grid.keys_nodup h.keys_subset).perm_of_length_le
  rw [length_gridCells, Table.keys, List.length_map]
  exact size

theorem Full.size (full : b.Full) : b.grid.size = b.slotsPerDay * b.days.length := by
  rw [← length_gridCells, ← full.length_eq, Table.keys, List.length_map]
  rfl

theorem Full.slotsOn (full : b.Full) {day : Nat} (listed : day ∈ b.days) :
    b.slotsOn day = List.range' 1 b.slotsPerDay := by
  apply Key.ascending_ext
  · exact (b.slotsOn_sorted day).imp fun before => decide_eq_true before
  · exact (List.pairwise_lt_range' 1).imp fun before => decide_eq_true before
  · intro slot
    have occupied : slot ∈ b.slotsOn day ↔ (⟨day, slot⟩ : Cell) ∈ b.grid.keys := by
      rw [mem_slotsOn_iff, lessonAt?, Option.isSome_iff_exists, Table.mem_keys_iff]
    rw [occupied, full.mem_iff, mem_gridCells, List.mem_range'_1]
    simp only [listed, true_and]
    omega

theorem Full.gapMove? (full : b.Full) : b.gapMove? = none := by
  apply List.findSome?_eq_none_iff.mpr
  intro day listed
  have chain : Consecutive (b.slotsOn day) := by
    rw [full.slotsOn listed]
    exact List.isChain_range' 1 _ 1
  rw [gapMoveOn?, (slotAfterGap?_eq_none_iff (b.slotsOn_sorted day)).mpr chain]
  rfl

theorem Full.gapPenalty (full : b.Full) : b.gapPenalty = 0 := by
  apply total_eq_zero
  intro n member
  obtain ⟨day, listed, same⟩ := List.mem_map.mp member
  rw [← same, full.slotsOn listed, Score.idle_range', List.length_range']
  omega

/-! Cells that are empty. -/

theorem InStep.mem_slotsOn (h : InStep origin b) {day slot : Nat} (listed : slot ∈ b.slotsOn day) :
    day ∈ b.days ∧ 1 ≤ slot ∧ slot ≤ b.slotsPerDay := by
  obtain ⟨lesson, found⟩ := Option.isSome_iff_exists.mp (mem_slotsOn_iff.mp listed)
  exact (h.stored _ lesson found).2

theorem InStep.length_slotsOn (h : InStep origin b) (day : Nat) :
    (b.slotsOn day).length = b.dayLoad day := by
  rw [h.counted, Table.countKeys, List.countP_eq_length_filter, slotsOn, List.length_map]

def emptyOn (b : Board) (day : Nat) : Nat :=
  (Window.cellsBetween day 1 b.slotsPerDay).countP fun c => (b.lessonAt? c).isNone

theorem InStep.emptyOn_add (h : InStep origin b) (day : Nat) :
    b.emptyOn day + (b.slotsOn day).length = b.slotsPerDay := by
  have taken : (List.range' 1 b.slotsPerDay).filter
      (fun slot => (b.lessonAt? ⟨day, slot⟩).isSome) = b.slotsOn day := by
    apply Key.ascending_ext
    · exact ((List.pairwise_lt_range' 1).filter _).imp fun before => decide_eq_true before
    · exact (b.slotsOn_sorted day).imp fun before => decide_eq_true before
    · intro slot
      simp only [List.mem_filter, List.mem_range'_1, ← mem_slotsOn_iff]
      constructor
      · exact And.right
      · intro listed
        exact ⟨by have := h.mem_slotsOn listed; omega, listed⟩
  have cells := List.length_eq_countP_add_countP (l := List.range' 1 b.slotsPerDay)
    fun slot => (b.lessonAt? ⟨day, slot⟩).isSome
  rw [List.countP_eq_length_filter, taken, List.length_range'] at cells
  simp only [Bool.not_eq_true, Option.isSome_eq_false_iff, Bool.decide_eq_true] at cells
  simp only [emptyOn, Window.cellsBetween, Nat.add_sub_cancel, List.countP_map, Function.comp_def]
  omega

theorem InStep.exists_empty (h : InStep origin b) {day : Nat} (listed : day ∈ b.days)
    (room : b.dayLoad day < b.slotsPerDay) :
    ∃ c : Cell, c.day = day ∧ b.inGrid c ∧ b.lessonAt? c = none := by
  have cells := h.emptyOn_add day
  rw [h.length_slotsOn] at cells
  have some : 0 < b.emptyOn day := by omega
  obtain ⟨c, here, empty⟩ := List.countP_pos_iff.mp some
  obtain ⟨onDay, range⟩ := Window.mem_cellsBetween_iff.mp here
  exact ⟨c, onDay, ⟨onDay ▸ listed, range⟩, Option.isNone_iff_eq_none.mp empty⟩

/-! What is lost from the score. -/

theorem evaluate_full (full : b.Full) (light : loadPenalty b.teachers = 0)
    (none : b.shortfalls = []) : b.evaluate = ⟨0, 0, 0, Score.maxScore⟩ := by
  have conflicts : conflictPenalty b.shortfalls = 0 := by
    rw [none]
    rfl
  simp only [evaluate, full.gapPenalty, light, conflicts]
  rfl

theorem evaluate_short (short : b.shortfalls ≠ []) : b.evaluate.score = 0 := by
  have some := List.length_pos_of_ne_nil short
  simp only [evaluate, conflictPenalty_eq, Score.compute, Score.maxScore, Score.conflictWeight]
  omega

end Board

namespace PlanRun
open Board
variable {loads : List SubjectLoad} {slots : Nat} {days : List Nat}
  {teachers : Table TeacherId Availability}

/-- Where the loads fill the grid and nothing is reserved before, a plan either has a lesson in each
cell and loses nothing, or is short of some lesson and scores nothing. -/
theorem perfect_or_short (start : InStep (.start slots days teachers) (.start slots days teachers))
    (unreserved : ∀ t, ((Board.start slots days teachers).ledger t).Unreserved)
    (fits : total (loads.map (·.weeklyCount)) = slots * (sortDistinct days).length)
    (budget : Nat) :
    let run := make loads slots days teachers budget
    (run.board.shortfalls = [] ∧ run.board.Full ∧ run.moves = 0 ∧
        run.board.evaluate = ⟨0, 0, 0, Score.maxScore⟩) ∨
      (run.board.shortfalls ≠ [] ∧ ¬ run.board.Full ∧ run.board.evaluate.score = 0) := by
  intro run
  let filled := ((Board.start slots days teachers).placeLoads loads).1
  have placed : Steps (· ∈ loads) (.start slots days teachers) filled := placeLoads_steps _ loads
  have inStep := start.steps placed
  have accounted : filled.grid.size + filled.shortfalls.length =
      filled.slotsPerDay * filled.days.length := by
    rw [inStep.sameSlots, inStep.sameDays]
    have count := accounted_placeUnits (.start slots days teachers) (units loads)
    rw [length_units, fits] at count
    exact count.trans (Nat.zero_add _)
  have slid := repairGaps_slid budget filled
  -- lessons and shortfalls are as many as there are cells, and the repair changes neither number
  by_cases none : filled.shortfalls = []
  · have full : filled.Full := by
      rw [none] at accounted
      exact inStep.full (Nat.le_of_eq accounted.symm)
    have same := loadPenalty_congr (start.sameOverage placed)
    have light := same.trans (loadPenalty_unreserved unreserved)
    have still : repairGaps budget filled = (filled, 0) := repairGaps_of_stuck full.gapMove? budget
    have board : run.board = filled := congrArg Prod.fst still
    have moves : run.moves = 0 := congrArg Prod.snd still
    rw [board]
    exact Or.inl ⟨none, full, moves, evaluate_full full light none⟩
  · have short : run.board.shortfalls ≠ [] := fun empty => none (slid.shortfalls.symm.trans empty)
    refine Or.inr ⟨short, ?_, evaluate_short short⟩
    intro full
    have some := List.length_pos_of_ne_nil none
    have repaired : Steps (· ∈ loads) filled run.board := repairGaps_steps budget filled
    have moved := inStep.steps repaired
    have count := full.size
    rw [moved.sameSlots, moved.sameDays] at count
    rw [inStep.sameSlots, inStep.sameDays] at accounted
    have same : run.board.grid.size = filled.grid.size := slid.size
    omega

end PlanRun

end SchoolTimetable
