import SchoolTimetable.Text.Integer

/-!
Decimals as they are written, and which of them are too large for double precision. Main
statement: the test, whose powers of ten stay small however large the exponent is, decides the
exact comparison.
-/
namespace SchoolTimetable.Text

/-- The digits without the point, and the power of ten that they are multiplied by. -/
structure Decimal where
  digits : Nat
  power : Int

namespace Decimal

/-- From the digits before the point, those after it, and the exponent. -/
def ofParts (whole fraction : List Char) (exponent : Int) : Decimal :=
  ⟨digitsValue (whole ++ fraction), exponent - fraction.length⟩

/-- Halfway from the largest finite double to the next power of two; the tie goes up. -/
def doubleBound : Nat := (Nat.pow 2 54 - 1) * Nat.pow 2 970

/-- Whether rounding to the nearest double leaves the finite ones. -/
def exceedsDouble (d : Decimal) : Bool :=
  if 0 ≤ d.power then doubleBound ≤ d.digits * Nat.pow 10 (min d.power.toNat 309)
  else doubleBound ≤ d.digits / Nat.pow 10 (min (-d.power).toNat (d.digits.log2 + 1))

theorem doubleBound_lt : doubleBound < Nat.pow 10 309 := by decide +kernel

theorem le_mul_pow_min_iff {bound m : Nat} (h : bound < Nat.pow 10 m) (n k : Nat) :
    bound ≤ n * Nat.pow 10 (min k m) ↔ bound ≤ n * Nat.pow 10 k := by
  rcases Nat.le_total k m with hk | hk
  · rw [Nat.min_eq_left hk]
  · rw [Nat.min_eq_right hk]
    rcases Nat.eq_zero_or_pos n with rfl | pos
    · simp
    · have large : Nat.pow 10 m ≤ n * Nat.pow 10 m := Nat.le_mul_of_pos_left _ pos
      have grows : n * Nat.pow 10 m ≤ n * Nat.pow 10 k :=
        Nat.mul_le_mul_left n (Nat.pow_le_pow_right (by decide) hk)
      omega

theorem div_pow_min_log2 (n k : Nat) :
    n / Nat.pow 10 (min k (n.log2 + 1)) = n / Nat.pow 10 k := by
  have small : n < Nat.pow 10 (n.log2 + 1) :=
    Nat.lt_of_lt_of_le Nat.lt_log2_self (Nat.pow_le_pow_left (by decide) _)
  rcases Nat.le_total k (n.log2 + 1) with h | h
  · rw [Nat.min_eq_left h]
  · have large : n < Nat.pow 10 k :=
      Nat.lt_of_lt_of_le small (Nat.pow_le_pow_right (by decide) h)
    rw [Nat.min_eq_right h, Nat.div_eq_of_lt small, Nat.div_eq_of_lt large]

theorem exceedsDouble_iff (d : Decimal) :
    d.exceedsDouble ↔
      doubleBound * Nat.pow 10 (-d.power).toNat ≤ d.digits * Nat.pow 10 d.power.toNat := by
  unfold exceedsDouble
  split <;> rename_i h
  · rw [show (-d.power).toNat = 0 by omega]
    simpa using le_mul_pow_min_iff doubleBound_lt d.digits d.power.toNat
  · rw [div_pow_min_log2, show d.power.toNat = 0 by omega]
    simp [Nat.le_div_iff_mul_le (Nat.pow_pos (by decide : 0 < 10))]

end Decimal

end SchoolTimetable.Text
