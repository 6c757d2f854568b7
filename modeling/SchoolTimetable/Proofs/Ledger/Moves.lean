import SchoolTimetable.Proofs.Ledger.Calls

/-!
Moving one lesson of a teacher. Whether a lesson can move is worked out without giving its cell
back; the answer is the one that the ledger would give after that. A move that is allowed goes
through, as giving back the one cell and taking the other, and keeps within the cap of the day it
goes to.
-/
namespace SchoolTimetable.Availability
variable {a : Availability} {src dest : Cell}

theorem dayLoad_release_eq (a : Availability) (c : Cell) (day : Nat) :
    (a.release c).1.dayLoad day =
      if c.day = day then a.dayLoad day - (if a.isReserved c then 1 else 0) else a.dayLoad day := by
  cases held : a.isReserved c with
  | true =>
    rw [dayLoad_release held]
    split <;> rfl
  | false =>
    rw [release_free held]
    split <;> rfl

theorem weekly_release_eq (a : Availability) (c : Cell) :
    (a.release c).1.weekly = a.weekly - if a.isReserved c then 1 else 0 := by
  cases held : a.isReserved c with
  | true => exact weekly_release held
  | false => rw [release_free held]; rfl

/-- The loads that a move is judged by are those of the ledger without the cell that is left. -/
theorem canMove_eq (apart : src ≠ dest) :
    a.canMove src dest = (a.release src).1.canAssign dest := by
  have limits := release_sameLimits a src
  have blocked : (a.release src).1.isBlocked dest = a.isBlocked dest := by
    rw [isBlocked, limits.blocked, isBlocked]
  have reserved : (a.release src).1.isReserved dest = a.isReserved dest := by
    rw [Bool.eq_iff_iff, isReserved_release]
    exact and_iff_right apart.symm
  rw [canMove, if_neg apart, canAssign, blocked, reserved, limits.dailyCap, limits.weeklyCap,
    dayLoad_release_eq, weekly_release_eq]
  cases a.isBlocked dest <;> cases a.isReserved dest <;> rfl

structure Moves (a : Availability) (src dest : Cell) : Prop where
  left : (a.release src).2 = true
  taken : ((a.release src).1.reserve dest).2 = true
  weekly : ((a.release src).1.reserve dest).1.weekly = a.weekly
  daily : a.dailyCap ≠ 0 → ((a.release src).1.reserve dest).1.dayLoad dest.day ≤ a.dailyCap

theorem Balanced.moves (h : a.Balanced) (held : a.isReserved src = true)
    (admitted : (a.release src).1.canAssign dest = true) : a.Moves src dest := by
  have limits := release_sameLimits a src
  obtain ⟨_, free, daily, _⟩ := canAssign_iff.mp admitted
  rw [underCap_iff, limits.dailyCap] at daily
  constructor
  · rw [release_snd, held]
  · rw [reserve_snd, free, Bool.not_false]
  · have counted := (h.counted held).1
    rw [weekly_reserve free, weekly_release held]
    omega
  · intro capped
    rw [dayLoad_reserve free, if_pos rfl]
    omega

/-- After any calls, a lesson can move to another cell exactly if that cell could be taken once its
own is given back, and then both calls succeed. -/
theorem canMove_foretells (start : LedgerStart) (calls : List LedgerCall) {src dest : Cell}
    (apart : src ≠ dest) :
    let a := start.ledger.afterCalls calls
    a.canMove src dest = (a.release src).1.canAssign dest ∧
      (a.canMove src dest = true → a.isReserved src = true → a.Moves src dest) := by
  intro a
  have balanced : a.Balanced := ((built_start start).afterCalls calls).balanced
  refine ⟨canMove_eq apart, ?_⟩
  intro admitted held
  rw [canMove_eq apart] at admitted
  exact balanced.moves held admitted

theorem canMove_foretells_at_limit :
    let a := (LedgerStart.withCaps 1 1).ledger.afterCalls [.reserve ⟨1, 3⟩]
    (⟨1, 3⟩ : Cell) ≠ ⟨1, 2⟩ ∧ a.canAssign ⟨1, 2⟩ = false ∧ a.canMove ⟨1, 3⟩ ⟨1, 2⟩ = true ∧
      a.isReserved ⟨1, 3⟩ = true ∧ (a.release ⟨1, 3⟩).1.canAssign ⟨1, 2⟩ = true ∧
      a.Moves ⟨1, 3⟩ ⟨1, 2⟩ := by
  intro a
  have apart : (⟨1, 3⟩ : Cell) ≠ ⟨1, 2⟩ := by decide
  have admitted : a.canMove ⟨1, 3⟩ ⟨1, 2⟩ = true := by decide
  have held : a.isReserved ⟨1, 3⟩ = true := by decide
  obtain ⟨agrees, moves⟩ := canMove_foretells (.withCaps 1 1) [.reserve ⟨1, 3⟩] apart
  exact ⟨apart, by decide, admitted, held, agrees.symm.trans admitted, moves admitted held⟩

end SchoolTimetable.Availability
