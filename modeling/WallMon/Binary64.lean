import Mathlib.Algebra.Order.Field.Rat
import Mathlib.Algebra.Order.Floor.Semiring
import Mathlib.Data.Int.Log
import Mathlib.Data.Rat.Floor

/-!
# Arithmetic of `double`

A `double` is a rational number with 53 binary digits, and the result of an operation is the
nearest one, the even one of two. The exponent is not bounded, so this is the arithmetic as
long as nothing is very large or very close to 0.
-/

namespace WallMon

namespace Binary64

/-- The nearest integer, the even one of two -/
def nearestInt (x : ℚ) : ℤ :=
  let rest := x - ⌊x⌋
  if rest < 1 / 2 ∨ rest = 1 / 2 ∧ ⌊x⌋ % 2 = 0 then ⌊x⌋ else ⌊x⌋ + 1

/-- The nearest number of 53 binary digits -/
def nearest (x : ℚ) : ℚ :=
  if x = 0 then 0
  else
    let unit : ℚ := 2 ^ (Int.log 2 |x| - 52)
    nearestInt (x / unit) * unit

/-- Division -/
def div (x y : ℚ) : ℚ := nearest (x / y)

/-- Multiplication -/
def mul (x y : ℚ) : ℚ := nearest (x * y)

theorem floor_le_nearestInt (x : ℚ) : ⌊x⌋ ≤ nearestInt x := by
  rw [nearestInt]
  split
  · exact le_rfl
  · exact (Int.lt_succ ⌊x⌋).le

/-- A positive number has a positive nearest one. -/
theorem nearest_pos {x : ℚ} (hx : 0 < x) : 0 < nearest x := by
  rw [nearest, if_neg hx.ne', abs_of_pos hx]
  have hunit : (0 : ℚ) < 2 ^ (Int.log 2 x - 52) := zpow_pos two_pos _
  refine mul_pos (Int.cast_pos.mpr ?_) hunit
  refine lt_of_lt_of_le (Int.floor_pos.mpr ?_) (floor_le_nearestInt _)
  rw [one_le_div hunit]
  calc (2 : ℚ) ^ (Int.log 2 x - 52) ≤ 2 ^ Int.log 2 x :=
        zpow_le_zpow_right₀ one_le_two (Int.sub_le_self _ (by decide))
    _ ≤ x := Int.zpow_log_le_self one_lt_two hx

/-- Quotients of positive numbers are positive, -/
theorem zero_lt_div {x y : ℚ} (hx : 0 < x) (hy : 0 < y) : 0 < div x y :=
  nearest_pos (div_pos hx hy)

/-- and so are products. -/
theorem zero_lt_mul {x y : ℚ} (hx : 0 < x) (hy : 0 < y) : 0 < mul x y :=
  nearest_pos (mul_pos hx hy)

end Binary64

end WallMon
