import SchoolTimetable.Proofs.Board.Units

/-!
What a shortfall says about the finished timetable. When a lesson is missed, its teacher can take no
cell that is empty then, and the cells that stay empty stay closed to the teacher, as caps, blocks
and reservations outlast placement and repair. Only a cell that the repair has vacated may be one
that the teacher could take.
-/
namespace SchoolTimetable

namespace Availability
variable {a b : Availability} {c : Cell}

inductive Refuses (a : Availability) (c : Cell) : Prop where
  | blocked (held : a.isBlocked c = true)
  | reserved (held : a.isReserved c = true)
  | fullDay (capped : a.dailyCap ≠ 0) (reached : a.dailyCap ≤ a.dayLoad c.day)
  | fullWeek (capped : a.weeklyCap ≠ 0) (reached : a.weeklyCap ≤ a.weekly)

theorem underCap_eq_false_iff {cap load : Nat} :
    underCap cap load = false ↔ cap ≠ 0 ∧ cap ≤ load := by
  rw [← Bool.not_eq_true, underCap_iff]
  omega

theorem refuses_iff : a.Refuses c ↔ a.canAssign c = false := by
  simp only [canAssign, Bool.and_eq_false_iff, Bool.not_eq_false', underCap_eq_false_iff]
  constructor
  · intro h
    cases h with
    | blocked held => exact Or.inl (Or.inl (Or.inl held))
    | reserved held => exact Or.inl (Or.inl (Or.inr held))
    | fullDay capped reached => exact Or.inl (Or.inr ⟨capped, reached⟩)
    | fullWeek capped reached => exact Or.inr ⟨capped, reached⟩
  · intro h
    rcases h with ((held | held) | ⟨capped, reached⟩) | ⟨capped, reached⟩
    · exact .blocked held
    · exact .reserved held
    · exact .fullDay capped reached
    · exact .fullWeek capped reached

/-- A cell stays closed while limits stay, the cell stays reserved and loads do not fall. -/
theorem Refuses.mono (refused : a.Refuses c) (limits : b.SameLimits a)
    (reserved : a.isReserved c = true → b.isReserved c = true)
    (daily : a.dayLoad c.day ≤ b.dayLoad c.day) (weekly : a.weekly ≤ b.weekly) : b.Refuses c := by
  cases refused with
  | blocked held =>
    refine .blocked ?_
    rw [isBlocked, limits.blocked]
    exact held
  | reserved held => exact .reserved (reserved held)
  | fullDay capped reached =>
    rw [← limits.dailyCap] at capped reached
    exact .fullDay capped (Nat.le_trans reached daily)
  | fullWeek capped reached =>
    rw [← limits.weeklyCap] at capped reached
    exact .fullWeek capped (Nat.le_trans reached weekly)

theorem Refuses.reserve (refused : a.Refuses c) (d : Cell) : (a.reserve d).1.Refuses c := by
  by_cases held : a.isReserved d = true
  · rw [reserve_taken held]
    exact refused
  · have free : a.isReserved d = false := Bool.not_eq_true _ ▸ held
    refine refused.mono (reserve_sameLimits a d) ?_ ?_ ?_
    · exact fun before => isReserved_reserve.mpr (Or.inr before)
    · rw [dayLoad_reserve free]
      omega
    · rw [weekly_reserve free]
      omega

end Availability

namespace Board
variable {origin b : Board} {t : TeacherId}

def ClosedTo (b : Board) (t : TeacherId) : Prop :=
  ∀ c, b.inGrid c → b.lessonAt? c = none → (b.ledger t).Refuses c

theorem closedTo_withLedger (b : Board) (u t : TeacherId) :
    (b.withLedger u).ClosedTo t ↔ b.ClosedTo t := by
  obtain ⟨days, slots, grid, _⟩ := b.withLedger_frame u
  simp only [ClosedTo, inGrid, lessonAt?, days, slots, grid, ledger_withLedger]

theorem ClosedTo.pinned (h : b.ClosedTo t) {l : SubjectLoad}
    (known : b.teachers.contains l.teacher = true) (c : Cell) : (b.pin l c).ClosedTo t := by
  intro d inside empty
  rw [lessonAt?_pin] at empty
  split at empty
  · cases empty
  · have refused := h d inside empty
    rw [ledger_pin known]
    split
    · rename_i same
      exact (same ▸ refused).reserve c
    · exact refused

theorem cellFor?_eq_none_iff {l : SubjectLoad} :
    b.cellFor? l = none ↔ b.ClosedTo l.teacher := by
  -- The search goes through every cell of the grid, whatever its order.
  rw [cellFor?, List.find?_eq_none]
  refine forall_congr' fun c => ?_
  rw [mem_candidateCells, admits, lessonAt?_eq_none_iff, Availability.refuses_iff]
  refine imp_congr_right fun _ => ?_
  cases b.grid.contains c <;> simp

theorem placeUnit_missed_iff (b : Board) (l : SubjectLoad) :
    (b.placeUnit l).2 = none ↔ b.ClosedTo l.teacher := by
  rw [← closedTo_withLedger b l.teacher, ← cellFor?_eq_none_iff, placeUnit, placeOne]
  cases (b.withLedger l.teacher).cellFor? l <;> simp

theorem ClosedTo.placeUnit (h : b.ClosedTo t) (l : SubjectLoad) :
    (b.placeUnit l).1.ClosedTo t := by
  have known := (closedTo_withLedger b l.teacher t).mpr h
  simp only [Board.placeUnit, placeOne]
  cases (b.withLedger l.teacher).cellFor? l with
  | some c => exact known.pinned (b.withLedger_known l.teacher) c
  | none => exact known

theorem ClosedTo.placeUnits (h : b.ClosedTo t) (ls : List SubjectLoad) :
    (b.placeUnits ls).1.ClosedTo t := by
  induction ls generalizing b with
  | nil => exact h
  | cons l rest ih =>
    rw [placeUnits_cons]
    exact ih (h.placeUnit l)

theorem placeUnit_shortfalls (b : Board) (l : SubjectLoad) :
    (b.placeUnit l).1.shortfalls =
      b.shortfalls ++ if (b.placeUnit l).2 = none then [.ofLoad l] else [] := by
  cases found : (b.withLedger l.teacher).cellFor? l with
  | some c => simp [placeUnit, placeOne, found, pin, withLedger_shortfalls]
  | none => simp [placeUnit, placeOne, found, withLedger_shortfalls]

def ShortfallsStand (b : Board) : Prop :=
  ∀ x ∈ b.shortfalls, ∀ c, b.inGrid c → b.lessonAt? c = none → (b.ledger x.teacher).Refuses c

theorem ShortfallsStand.placeUnit (h : b.ShortfallsStand) (l : SubjectLoad) :
    (b.placeUnit l).1.ShortfallsStand := by
  intro x listed
  rw [placeUnit_shortfalls] at listed
  rcases List.mem_append.mp listed with before | new
  · exact ClosedTo.placeUnit (h x before) l
  · split at new
    · rename_i missed
      rw [List.mem_singleton.mp new]
      exact ((b.placeUnit_missed_iff l).mp missed).placeUnit l
    · cases new

theorem ShortfallsStand.placeUnits (h : b.ShortfallsStand) (ls : List SubjectLoad) :
    (b.placeUnits ls).1.ShortfallsStand := by
  induction ls generalizing b with
  | nil => exact h
  | cons l rest ih =>
    rw [placeUnits_cons]
    exact ih (h.placeUnit l)

theorem start_shortfallsStand (slots : Nat) (days : List Nat)
    (teachers : Table TeacherId Availability) : (start slots days teachers).ShortfallsStand := by
  intro x listed
  cases listed

theorem InStep.repairGaps_refuses (h : InStep origin b) (budget : Nat) {c : Cell}
    (empty : b.lessonAt? c = none) (refused : (b.ledger t).Refuses c) :
    ((repairGaps budget b).1.ledger t).Refuses c := by
  have run : Steps (fun _ => True) b (repairGaps budget b).1 := repairGaps_steps budget b
  have repaired := h.steps run
  obtain ⟨weekly, daily⟩ := h.repairGaps_loads budget t
  refine refused.mono (h.sameLimits repaired t) ?_ (Nat.le_of_eq (daily c.day).symm)
    (Nat.le_of_eq weekly.symm)
  intro held
  rcases (h.reserved t c).mp held with first | ⟨l, found, _⟩
  · exact (repaired.reserved t c).mpr (Or.inl first)
  · rw [empty] at found
    cases found

theorem repairGaps_still (budget : Nat) (b : Board) :
    (repairGaps budget b).2 = 0 → (repairGaps budget b).1 = b := by
  apply repairGaps_induction (P := fun n b b' => n = 0 → b' = b)
  · exact fun _ _ => rfl
  · intro b b' n lesson src dest _ _ none
    cases none

end Board

open Board

/-- The teacher of a shortfall can take no empty cell of the finished timetable, unless the repair
has moved lessons and there was one in the cell before. -/
theorem plan_shortfalls_stand (loads : List SubjectLoad) (slots : Nat) (days : List Nat)
    (teachers : Table TeacherId Availability)
    (built : ∀ t a, teachers.get? t = some a → a.Built) (budget : Nat) :
    let filled := ((Board.start slots days teachers).placeLoads loads).1
    let final := (PlanRun.make loads slots days teachers budget).board
    let p := plan loads slots days teachers budget
    ∀ x ∈ p.shortfalls, ∀ c : Cell, c.day ∈ days → 1 ≤ c.slot → c.slot ≤ slots →
      (∀ l ∈ p.lessons, l.cell ≠ c) →
      (0 < p.stats.iterations ∧ ∃ l ∈ filled.lessons, l.cell = c) ∨
        (final.ledger x.teacher).Refuses c := by
  intro filled final p x listed c day least most empty
  have every : ∀ l ∈ BoardCall.loads (.placeLoads loads), True := fun _ _ => trivial
  have placed : Steps (fun _ => True) (.start slots days teachers) filled := afterCall_steps _ every
  have inStep := (start_inStep slots days built).steps placed
  have stand : filled.ShortfallsStand :=
    (start_shortfallsStand slots days teachers).placeUnits (units loads)
  have inside : filled.inGrid c := by
    rw [inGrid, inStep.sameDays, inStep.sameSlots]
    exact ⟨mem_sortDistinct_iff.mpr day, least, most⟩
  have noted : x ∈ filled.shortfalls := (repairGaps_slid budget filled).shortfalls ▸ listed
  cases found : filled.lessonAt? c with
  | none => exact Or.inr (inStep.repairGaps_refuses budget found (stand x noted c inside found))
  | some l =>
    have same := (inStep.stored c l found).1
    have member : l ∈ filled.lessons := inStep.mem_lessons.mpr (same ▸ found)
    refine Or.inl ⟨Nat.pos_of_ne_zero fun none => ?_, l, member, same⟩
    have still : final = filled := repairGaps_still budget filled none
    have kept : l ∈ final.lessons := still.symm ▸ member
    exact empty l kept same

def lateTeachers : Table TeacherId Availability :=
  Table.empty.insert "cat" ((Availability.unlimited.block ⟨1, 2⟩).block ⟨1, 3⟩)

def lateLoads : List SubjectLoad :=
  [⟨"math", "ann", 1, 1, [1], none⟩, ⟨"art", "bea", 1, 1, [4], none⟩,
    ⟨"chem", "cat", 1, 0, [], none⟩]

theorem lateTeachers_built : ∀ t a, lateTeachers.get? t = some a → a.Built :=
  Availability.Built.only (.block _ (.block _ .unlimited)) "cat"

theorem plan_shortfalls_stand_third_slot :
    let p := plan lateLoads 4 [1] lateTeachers 9
    (∀ t a, lateTeachers.get? t = some a → a.Built) ∧ p.stats.iterations = 2 ∧
      p.lessons.map (·.cell) = [⟨1, 1⟩, ⟨1, 2⟩] ∧ p.shortfalls.map (·.teacher) = ["cat"] ∧
      ((PlanRun.make lateLoads 4 [1] lateTeachers 9).board.ledger "cat").Refuses ⟨1, 3⟩ := by
  intro p
  have stand := plan_shortfalls_stand lateLoads 4 [1] lateTeachers lateTeachers_built 9
    (.ofLoad ⟨"chem", "cat", 1, 0, [], none⟩) (by decide +kernel) ⟨1, 3⟩ (by decide) (by decide)
    (by decide) (by decide +kernel)
  refine ⟨lateTeachers_built, by decide +kernel, by decide +kernel, by decide +kernel, ?_⟩
  rcases stand with ⟨_, vacated⟩ | refused
  · exact absurd vacated (by decide +kernel)
  · exact refused

/-- A shortfall of cat stays, while the repair has vacated a cell that cat could take. -/
theorem plan_shortfall_beside_vacated_cell :
    let final := (PlanRun.make lateLoads 4 [1] lateTeachers 9).board
    let p := plan lateLoads 4 [1] lateTeachers 9
    (∀ t a, lateTeachers.get? t = some a → a.Built) ∧
      ¬ ∀ x ∈ p.shortfalls, ∀ c : Cell, c.day ∈ [1] → 1 ≤ c.slot → c.slot ≤ 4 →
        (∀ l ∈ p.lessons, l.cell ≠ c) → (final.ledger x.teacher).Refuses c := by
  intro final p
  refine ⟨lateTeachers_built, fun stand => ?_⟩
  have refused : (final.ledger "cat").Refuses ⟨1, 4⟩ := stand
    (.ofLoad ⟨"chem", "cat", 1, 0, [], none⟩) (by decide +kernel) ⟨1, 4⟩ (by decide) (by decide)
    (by decide) (by decide +kernel)
  have closed := Availability.refuses_iff.mp refused
  have admitted : (final.ledger "cat").canAssign ⟨1, 4⟩ = true := by decide +kernel
  rw [closed] at admitted
  cases admitted

end SchoolTimetable
