import SchoolTimetable.Proofs.Board.Caps

/-!
Any calls on one ledger. The loads are counts of the reserved cells after every history, so a
ledger shows no more than its caps, its blocked cells and its reserved cells. That is why a
reservation that is given back leaves no trace, though the count of its day stays behind as a zero,
and why calls on different cells may be made in either order.
-/
namespace SchoolTimetable

inductive LedgerStart where
  | unlimited
  | withCaps (daily weekly : Nat)
  | ofPreference (preference : Option TeacherPreference) (slots : Nat) (existing : List DailyLesson)
  deriving DecidableEq, Repr

def LedgerStart.ledger : LedgerStart → Availability
  | unlimited => .unlimited
  | withCaps daily weekly => .withCaps daily weekly
  | ofPreference preference slots existing => .ofPreference preference slots existing

inductive LedgerCall where
  | block (c : Cell)
  | reserve (c : Cell)
  | release (c : Cell)
  deriving DecidableEq, Repr

namespace LedgerCall

def cell : LedgerCall → Cell
  | block c | reserve c | release c => c

def blocks : LedgerCall → Bool → Bool
  | block _, _ => true
  | reserve _, before | release _, before => before

/-- Whether the cell of the call is reserved afterwards, by whether it was before. -/
def holds : LedgerCall → Bool → Bool
  | block _, before => before
  | reserve _, _ => true
  | release _, _ => false

def tells : LedgerCall → Bool → Option Bool
  | block _, _ => none
  | reserve _, held => some !held
  | release _, held => some held

end LedgerCall

theorem CellSet.ext_has {s t : CellSet} (same : ∀ c, s.has c = t.has c) : s = t := by
  apply Table.ext
  intro c
  have here := same c
  unfold CellSet.has Table.contains at here
  cases first : s.get? c <;> cases second : t.get? c <;> simp_all

namespace Availability
variable {a b : Availability} {c : Cell}

def afterCall (a : Availability) : LedgerCall → Availability
  | .block c => a.block c
  | .reserve c => (a.reserve c).1
  | .release c => (a.release c).1

def answer (a : Availability) : LedgerCall → Option Bool
  | .block _ => none
  | .reserve c => some (a.reserve c).2
  | .release c => some (a.release c).2

def afterCalls (a : Availability) (calls : List LedgerCall) : Availability :=
  calls.foldl afterCall a

theorem built_start (start : LedgerStart) : start.ledger.Built := by
  cases start with
  | unlimited => exact .unlimited
  | withCaps daily weekly => exact .withCaps daily weekly
  | ofPreference preference slots existing => exact .ofPreference preference slots existing

theorem Built.afterCall (h : a.Built) (call : LedgerCall) : (a.afterCall call).Built := by
  cases call with
  | block c => exact .block c h
  | reserve c => exact .reserve c h
  | release c => exact .release c h

theorem Built.afterCalls (h : a.Built) (calls : List LedgerCall) : (a.afterCalls calls).Built :=
  foldl_keeps (fun _ call built => built.afterCall call) calls h

theorem built_iff_afterCalls : a.Built ↔
    ∃ (start : LedgerStart) (calls : List LedgerCall), start.ledger.afterCalls calls = a := by
  have next : ∀ (call : LedgerCall) {a : Availability},
      (∃ (start : LedgerStart) (calls : List LedgerCall), start.ledger.afterCalls calls = a) →
        ∃ (start : LedgerStart) (calls : List LedgerCall),
          start.ledger.afterCalls calls = a.afterCall call := by
    rintro call _ ⟨start, calls, rfl⟩
    exact ⟨start, calls ++ [call], by simp [Availability.afterCalls]⟩
  constructor
  · intro h
    induction h with
    | unlimited => exact ⟨.unlimited, [], rfl⟩
    | withCaps daily weekly => exact ⟨.withCaps daily weekly, [], rfl⟩
    | ofPreference preference slots existing =>
      exact ⟨.ofPreference preference slots existing, [], rfl⟩
    | block c _ ih => exact next (.block c) ih
    | reserve c _ ih => exact next (.reserve c) ih
    | release c _ ih => exact next (.release c) ih
  · rintro ⟨start, calls, rfl⟩
    exact (built_start start).afterCalls calls

/-! The loads are counts. -/

structure CountsCells (a : Availability) (cells : List Cell) : Prop where
  distinct : cells.Nodup
  listed : ∀ c, c ∈ cells ↔ a.isReserved c = true
  weekly : a.weekly = cells.length
  daily : ∀ day, a.dayLoad day = cells.countP (·.day = day)

theorem Balanced.countsCells (h : a.Balanced) : a.CountsCells a.reserved.keys where
  distinct := a.reserved.keys_nodup
  listed c := CellSet.has_iff.symm
  weekly := by rw [h.weekly, Table.size, Table.keys, List.length_map]
  daily := h.daily

theorem CountsCells.total_dayLoad {cells : List Cell} (h : a.CountsCells cells) {days : List Nat}
    (distinct : days.Nodup) (covered : ∀ c ∈ cells, c.day ∈ days) :
    total (days.map a.dayLoad) = a.weekly := by
  rw [h.weekly, ← total_countP_covered Cell.day distinct covered]
  exact congrArg total (List.map_congr_left fun day _ => h.daily day)

theorem Balanced.counted (h : a.Balanced) (held : a.isReserved c = true) :
    0 < a.weekly ∧ ∃ n, a.perDay.get? c.day = some (n + 1) := by
  have counts := h.countsCells
  have member : c ∈ a.reserved.keys := (counts.listed c).mpr held
  constructor
  · rw [counts.weekly]
    exact List.length_pos_of_mem member
  · have positive : 0 < a.dayLoad c.day := by
      rw [counts.daily]
      exact List.countP_pos_iff.mpr ⟨c, member, decide_eq_true rfl⟩
    unfold dayLoad at positive
    cases found : a.perDay.get? c.day with
    | none => simp [found] at positive
    | some n =>
      rw [found, Option.getD_some] at positive
      exact ⟨n - 1, by congr 1; omega⟩

structure Responds (a : Availability) (c : Cell) : Prop where
  reserve : (a.reserve c).2 = true ↔ a.isReserved c = false
  release : (a.release c).2 = true ↔ a.isReserved c = true
  reserveRefused : (a.reserve c).2 = false → (a.reserve c).1 = a
  releaseRefused : (a.release c).2 = false → (a.release c).1 = a
  /-- Neither count that goes down is zero. -/
  releaseCounted : (a.release c).2 = true →
    0 < a.weekly ∧ ∃ n, a.perDay.get? c.day = some (n + 1)

theorem Balanced.responds (h : a.Balanced) (c : Cell) : a.Responds c where
  reserve := by rw [reserve_snd, Bool.not_eq_true']
  release := by rw [release_snd]
  reserveRefused := by
    rw [reserve_snd, Bool.not_eq_false']
    exact reserve_taken
  releaseRefused := by
    rw [release_snd]
    exact release_free
  releaseCounted := by
    rw [release_snd]
    exact h.counted

/-! What a call does to the cells. -/

theorem isBlocked_afterCall (a : Availability) (call : LedgerCall) (d : Cell) :
    (a.afterCall call).isBlocked d =
      if d = call.cell then call.blocks (a.isBlocked d) else a.isBlocked d := by
  cases call with
  | block c =>
    rw [Bool.eq_iff_iff]
    simp only [afterCall, isBlocked_block, LedgerCall.cell, LedgerCall.blocks]
    by_cases same : d = c <;> simp [same]
  | reserve c => simp [afterCall, isBlocked, (reserve_sameLimits a c).blocked, LedgerCall.blocks]
  | release c => simp [afterCall, isBlocked, (release_sameLimits a c).blocked, LedgerCall.blocks]

theorem isReserved_afterCall (a : Availability) (call : LedgerCall) (d : Cell) :
    (a.afterCall call).isReserved d =
      if d = call.cell then call.holds (a.isReserved d) else a.isReserved d := by
  cases call with
  | block c => simp [afterCall, LedgerCall.holds]
  | reserve c =>
    rw [Bool.eq_iff_iff]
    simp only [afterCall, isReserved_reserve, LedgerCall.cell, LedgerCall.holds]
    by_cases same : d = c <;> simp [same]
  | release c =>
    rw [Bool.eq_iff_iff]
    simp only [afterCall, isReserved_release, LedgerCall.cell, LedgerCall.holds]
    by_cases same : d = c <;> simp [same]

theorem caps_afterCall (a : Availability) (call : LedgerCall) :
    ((a.afterCall call).dailyCap, (a.afterCall call).weeklyCap) = (a.dailyCap, a.weeklyCap) := by
  cases call with
  | block c => rfl
  | reserve c =>
    have limits := reserve_sameLimits a c
    exact Prod.ext limits.dailyCap limits.weeklyCap
  | release c =>
    have limits := release_sameLimits a c
    exact Prod.ext limits.dailyCap limits.weeklyCap

theorem answer_eq (a : Availability) (call : LedgerCall) :
    a.answer call = call.tells (a.isReserved call.cell) := by
  cases call with
  | block c => rfl
  | reserve c => simp [answer, reserve_snd, LedgerCall.tells, LedgerCall.cell]
  | release c => simp [answer, release_snd, LedgerCall.tells, LedgerCall.cell]

/-! What a ledger shows. -/

/-- No query tells the two ledgers apart. -/
structure SameAnswers (a b : Availability) : Prop where
  caps : (a.dailyCap, a.weeklyCap) = (b.dailyCap, b.weeklyCap)
  isBlocked : ∀ c, a.isBlocked c = b.isBlocked c
  isReserved : ∀ c, a.isReserved c = b.isReserved c
  blockedCells : a.blocked.keys = b.blocked.keys
  weekly : a.weekly = b.weekly
  dayLoad : ∀ day, a.dayLoad day = b.dayLoad day
  weeklyOverage : a.weeklyOverage = b.weeklyOverage
  dailyOverage : a.dailyOverage = b.dailyOverage
  canAssign : ∀ c, a.canAssign c = b.canAssign c
  canMove : ∀ src dest, a.canMove src dest = b.canMove src dest

structure SameCells (a b : Availability) : Prop where
  caps : (a.dailyCap, a.weeklyCap) = (b.dailyCap, b.weeklyCap)
  isBlocked : ∀ c, a.isBlocked c = b.isBlocked c
  isReserved : ∀ c, a.isReserved c = b.isReserved c

/-- The loads follow from the reserved cells, and with them all else that can be asked. -/
theorem SameCells.sameAnswers (h : a.SameCells b) (ha : a.Balanced) (hb : b.Balanced) :
    a.SameAnswers b := by
  obtain ⟨dailyCap, weeklyCap⟩ := Prod.mk.inj h.caps
  have reserved : a.reserved = b.reserved := CellSet.ext_has h.isReserved
  have weekly : a.weekly = b.weekly := by rw [ha.weekly, hb.weekly, reserved]
  have daily : ∀ day, a.dayLoad day = b.dayLoad day := by
    intro day
    rw [ha.daily, hb.daily, reservedOn, reserved, reservedOn]
  have blocked : a.blocked = b.blocked := CellSet.ext_has h.isBlocked
  have limits : a.SameLimits b := ⟨dailyCap, weeklyCap, blocked⟩
  have overage : a.SameOverage b := by
    apply limits.sameOverage
    · exact Or.inr (by rw [weekly])
    · exact Or.inr fun day => by rw [daily]
  constructor
  · exact h.caps
  · exact h.isBlocked
  · exact h.isReserved
  · rw [blocked]
  · exact weekly
  · exact daily
  · exact overage.weekly
  · exact overage.daily
  · intro c
    simp only [Availability.canAssign, h.isBlocked, h.isReserved, dailyCap, weeklyCap, weekly,
      daily]
  · intro src dest
    simp only [Availability.canMove, h.isBlocked, h.isReserved, dailyCap, weeklyCap, weekly, daily]

theorem SameCells.afterCall (h : a.SameCells b) (call : LedgerCall) :
    (a.afterCall call).SameCells (b.afterCall call) where
  caps := by rw [caps_afterCall, caps_afterCall, h.caps]
  isBlocked c := by rw [isBlocked_afterCall, isBlocked_afterCall, h.isBlocked]
  isReserved c := by rw [isReserved_afterCall, isReserved_afterCall, h.isReserved]

theorem SameCells.afterCalls (h : a.SameCells b) (calls : List LedgerCall) :
    (a.afterCalls calls).SameCells (b.afterCalls calls) := by
  induction calls generalizing a b with
  | nil => exact h
  | cons call rest ih => exact ih (h.afterCall call)

theorem reserve_release_sameCells (free : a.isReserved c = false) :
    ((a.afterCall (.reserve c)).afterCall (.release c)).SameCells a where
  caps := by rw [caps_afterCall, caps_afterCall]
  isBlocked d := by
    rw [isBlocked_afterCall, isBlocked_afterCall]
    simp [LedgerCall.blocks]
  isReserved d := by
    rw [isReserved_afterCall, isReserved_afterCall]
    by_cases same : d = c <;> simp [same, LedgerCall.cell, LedgerCall.holds, free]

theorem calls_comm_sameCells (a : Availability) {p q : LedgerCall} (apart : p.cell ≠ q.cell) :
    ((a.afterCall p).afterCall q).SameCells ((a.afterCall q).afterCall p) where
  caps := by rw [caps_afterCall, caps_afterCall, caps_afterCall, caps_afterCall]
  isBlocked d := by
    simp only [isBlocked_afterCall]
    by_cases first : d = p.cell <;> by_cases second : d = q.cell <;> simp_all
  isReserved d := by
    simp only [isReserved_afterCall]
    by_cases first : d = p.cell <;> by_cases second : d = q.cell <;> simp_all

theorem answer_afterCall (a : Availability) {p q : LedgerCall} (apart : q.cell ≠ p.cell) :
    (a.afterCall p).answer q = a.answer q := by
  rw [answer_eq, isReserved_afterCall, if_neg apart, ← answer_eq]

/-- Whatever was called, the loads count the reserved cells, a refused call changes nothing and none
takes from zero. A reservation that is given back is not seen again, and calls on different cells
have the same answers and effects in either order, as far as all later calls and queries tell. -/
theorem loads_count_reservations (start : LedgerStart) (calls : List LedgerCall) :
    let a := start.ledger.afterCalls calls
    (∃ cells, a.CountsCells cells ∧ ∀ days : List Nat, days.Nodup → (∀ c ∈ cells, c.day ∈ days) →
        total (days.map a.dayLoad) = a.weekly) ∧
      (∀ c, a.Responds c) ∧
      (∀ c, a.isReserved c = false → ∀ later,
        (a.afterCalls (.reserve c :: .release c :: later)).SameAnswers (a.afterCalls later)) ∧
      ∀ p q : LedgerCall, p.cell ≠ q.cell →
        (a.afterCall p).answer q = a.answer q ∧ (a.afterCall q).answer p = a.answer p ∧
          ∀ later,
            (a.afterCalls (p :: q :: later)).SameAnswers (a.afterCalls (q :: p :: later)) := by
  intro a
  have built : a.Built := (built_start start).afterCalls calls
  have balanced : ∀ more, (a.afterCalls more).Balanced := fun more =>
    (built.afterCalls more).balanced
  have counts := built.balanced.countsCells
  refine ⟨⟨_, counts, ?_⟩, built.balanced.responds, ?_, ?_⟩
  · intro days distinct covered
    exact counts.total_dayLoad distinct covered
  · intro c free later
    have undone := (reserve_release_sameCells free).afterCalls later
    exact undone.sameAnswers (balanced (.reserve c :: .release c :: later)) (balanced later)
  · intro p q apart
    refine ⟨answer_afterCall a apart.symm, answer_afterCall a apart, ?_⟩
    intro later
    have swapped := (calls_comm_sameCells a apart).afterCalls later
    exact swapped.sameAnswers (balanced (p :: q :: later)) (balanced (q :: p :: later))

/-- After a cell of a new day has been taken and given back the ledger is another one, with a zero
for that day, that answers as before. -/
theorem loads_count_reservations_given_back :
    let a := LedgerStart.unlimited.ledger.afterCalls [.block ⟨1, 2⟩, .reserve ⟨1, 1⟩]
    a.isReserved ⟨2, 1⟩ = false ∧ a.afterCalls [.reserve ⟨2, 1⟩, .release ⟨2, 1⟩] ≠ a ∧
      (a.afterCalls [.reserve ⟨2, 1⟩, .release ⟨2, 1⟩]).SameAnswers a ∧
      (⟨1, 3⟩ : Cell) ≠ ⟨1, 1⟩ ∧
      (a.afterCalls [.block ⟨1, 3⟩, .release ⟨1, 1⟩]).SameAnswers
        (a.afterCalls [.release ⟨1, 1⟩, .block ⟨1, 3⟩]) := by
  intro a
  obtain ⟨_, _, undone, swapped⟩ :=
    loads_count_reservations .unlimited [.block ⟨1, 2⟩, .reserve ⟨1, 1⟩]
  have free : a.isReserved ⟨2, 1⟩ = false := by decide
  have apart : (⟨1, 3⟩ : Cell) ≠ ⟨1, 1⟩ := by decide
  exact ⟨free, by decide, undone _ free [], apart,
    (swapped (.block ⟨1, 3⟩) (.release ⟨1, 1⟩) apart).2.2 []⟩

end Availability

end SchoolTimetable
