import Mathlib.Data.List.Dedup
import SchoolTimetable.Proofs.Board.Choices
import SchoolTimetable.Proofs.Board.Filling
import SchoolTimetable.Proofs.Board.Maximality

/-!
Placement where nothing hinders the teachers. Such a teacher can take every empty cell, as a cell
that the teacher has reserved holds a lesson. So a lesson goes to a day that holds the fewest, which
keeps the days even, and none is missed before the grid is full.
-/
namespace SchoolTimetable

structure Availability.Unhindered (a : Availability) : Prop where
  dailyCap : a.dailyCap = 0
  weeklyCap : a.weeklyCap = 0
  unblocked : ∀ c, a.isBlocked c = false
  unreserved : ∀ c, a.isReserved c = false

theorem Availability.unlimited_unhindered : Availability.unlimited.Unhindered :=
  ⟨rfl, rfl, fun _ => rfl, fun _ => rfl⟩

namespace Board
variable {origin b : Board} {l : SubjectLoad} {t : TeacherId} {c : Cell}

theorem InStep.openTo (h : InStep origin b) (free : (origin.ledger t).Unhindered)
    (inside : b.inGrid c) (empty : b.lessonAt? c = none) : b.OpenTo t c := by
  have limits := h.limits t
  refine ⟨inside, empty, Availability.canAssign_iff.mpr ⟨?_, ?_, ?_, ?_⟩⟩
  · rw [Availability.isBlocked, limits.blocked]
    exact free.unblocked c
  · rw [← Bool.not_eq_true, h.reserved]
    rintro (before | ⟨lesson, found, _⟩)
    · simp [free.unreserved c] at before
    · simp [empty] at found
  · simp [Availability.underCap, limits.dailyCap, free.dailyCap]
  · simp [Availability.underCap, limits.weeklyCap, free.weeklyCap]

def Even (b : Board) : Prop := ∀ d ∈ b.days, ∀ d' ∈ b.days, b.dayLoad d ≤ b.dayLoad d' + 1

theorem InStep.even_pin (h : InStep origin b) (even : b.Even)
    (free : (origin.ledger l.teacher).Unhindered) (first : b.FirstFor l c) : (b.pin l c).Even := by
  intro d listed d' listed'
  have close := even d listed d' listed'
  have most := h.emptyOn_add d
  rw [h.length_slotsOn] at most
  -- The day that gets the lesson holds no more than any day with an empty cell.
  have fewest : c.day = d → b.dayLoad d ≤ b.dayLoad d' := by
    intro here
    by_contra more
    obtain ⟨e, onDay, inside, empty⟩ := h.exists_empty listed' (by omega)
    have apart : e ≠ c := by
      rintro rfl
      simp [← here, ← onDay] at more
    have least := dayLoad_le_of_rank (first.2 e (h.openTo free inside empty) apart)
    rw [here, onDay] at least
    omega
  rw [dayLoad_pin, dayLoad_pin]
  split
  · have := fewest ‹_›
    omega
  · omega

theorem InStep.even_placeUnit (h : InStep origin b) (even : b.Even)
    (free : (origin.ledger l.teacher).Unhindered) : (b.placeUnit l).1.Even := by
  obtain ⟨days, _, _, loads⟩ := b.withLedger_frame l.teacher
  have known : (b.withLedger l.teacher).Even := by
    simpa only [Even, days, dayLoad, loads] using even
  simp only [placeUnit, placeOne]
  cases found : (b.withLedger l.teacher).cellFor? l with
  | some c => exact (h.known l.teacher).even_pin known free (cellFor?_first found)
  | none => exact known

theorem InStep.even_placeUnits (h : InStep origin b) (even : b.Even) {ls : List SubjectLoad}
    (free : ∀ l ∈ ls, (origin.ledger l.teacher).Unhindered) : (b.placeUnits ls).1.Even := by
  induction ls generalizing b with
  | nil => exact even
  | cons l rest ih =>
    rw [placeUnits_cons]
    have own := free l List.mem_cons_self
    have run : Steps (fun _ => True) b (b.placeUnit l).1 := b.placeUnit_steps trivial
    have placed := h.steps run
    exact ih placed (h.even_placeUnit even own) fun x member => free x (List.mem_cons_of_mem _ member)

theorem InStep.le_size (h : InStep origin b) (distinct : b.days.Nodup)
    (free : (origin.ledger t).Unhindered) (closed : b.ClosedTo t) :
    b.slotsPerDay * b.days.length ≤ b.grid.size := by
  apply le_size_of_occupied distinct
  intro c inside
  rw [Option.isSome_iff_ne_none]
  exact fun empty => closedTo_iff.mp closed c (h.openTo free inside empty)

theorem InStep.shortfalls_placeUnits (h : InStep origin b) (distinct : b.days.Nodup)
    (none : b.grid.size = 0) {ls : List SubjectLoad}
    (free : ∀ l ∈ ls, (origin.ledger l.teacher).Unhindered) :
    (b.placeUnits ls).1.shortfalls.length =
      b.shortfalls.length + (ls.length - b.slotsPerDay * b.days.length) := by
  have run : Steps (fun _ => True) b (b.placeUnits ls).1 := b.placeUnits_steps fun _ _ => trivial
  have filled := h.steps run
  have days := filled.sameDays.trans h.sameDays.symm
  have slots := filled.sameSlots.trans h.sameSlots.symm
  have accounted := b.accounted_placeUnits ls
  rw [Board.accounted, Board.accounted, none] at accounted
  have noted := congrArg List.length (b.placeUnits_shortfalls ls)
  rw [List.length_append, List.length_map] at noted
  have most := filled.size_le
  rw [days, slots] at most
  cases lost : missed (b.placeUnits ls).2 with
  | nil =>
    rw [lost, List.length_nil] at noted
    omega
  | cons l others =>
    have member : l ∈ missed (b.placeUnits ls).2 := lost ▸ List.mem_cons_self
    have asked : l ∈ ls := by
      have told := List.mem_map_of_mem (f := Prod.fst) (mem_missed_iff.mp member)
      rwa [told_units] at told
    have least := filled.le_size (days ▸ distinct) (free l asked) (closedTo_of_missed member)
    rw [days, slots] at least
    omega

theorem start_length_days (slots : Nat) (days : List Nat)
    (teachers : Table TeacherId Availability) :
    (start slots days teachers).days.length = days.dedup.length := by
  apply List.Perm.length_eq
  apply (List.perm_ext_iff_of_nodup (Table.keys_nodup _) (List.nodup_dedup days)).mpr
  intro day
  exact mem_sortDistinct_iff.trans List.mem_dedup.symm

theorem InStep.placeLoads_balanced {slots : Nat} {days : List Nat}
    {teachers : Table TeacherId Availability} (h : InStep (start slots days teachers) b)
    (none : b.lessons = []) {loads : List SubjectLoad}
    (free : ∀ l ∈ loads, ∀ a, b.teachers.get? l.teacher = some a → a.Unhindered) :
    (b.placeLoads loads).1.Even ∧ (b.placeLoads loads).1.shortfalls.length =
      b.shortfalls.length + (total (loads.map (·.weeklyCount)) - slots * days.dedup.length) := by
  have empty : b.grid.size = 0 := by rw [← length_lessons, none, List.length_nil]
  have own : ∀ l ∈ units loads, ((start slots days teachers).ledger l.teacher).Unhindered := by
    intro l member
    have now : (b.ledger l.teacher).Unhindered := by
      rw [ledger]
      cases found : b.teachers.get? l.teacher with
      | none => exact Availability.unlimited_unhindered
      | some a => exact free l (mem_of_mem_units member) a found
    have limits := h.limits l.teacher
    refine ⟨limits.dailyCap ▸ now.dailyCap, limits.weeklyCap ▸ now.weeklyCap, fun c => ?_,
      fun c => ?_⟩
    · have blocked := now.unblocked c
      rwa [Availability.isBlocked, limits.blocked] at blocked
    · rw [← Bool.not_eq_true]
      intro before
      have held := (h.reserved l.teacher c).mpr (Or.inl before)
      simp [now.unreserved c] at held
  have noLessons : ∀ day, b.dayLoad day = 0 := by
    intro day
    rw [h.dayLoad_eq, none]
    rfl
  constructor
  · refine h.even_placeUnits ?_ own
    intro d _ d' _
    simp [noLessons]
  · have count := h.shortfalls_placeUnits (h.sameDays ▸ Table.keys_nodup _) empty own
    rw [h.sameDays, h.sameSlots, start_length_days, length_units] at count
    exact count

end Board

end SchoolTimetable
