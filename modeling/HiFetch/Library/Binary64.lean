import HiFetch.Library.FixedPoint
import Mathlib.Data.Int.Log

/-!
# Numbers of type `double`

A result of an operation on doubles is the exact one, rounded to 53 binary digits: to the nearest
such number, and in the middle to the one whose last digit is even.  The range of the exponents is
left out.  The error of a rounding is at most the value over `2 ^ 53`.
-/

namespace HiFetch

/-- The weight of the last of 53 binary digits. -/
def lastPlace (value : ℚ) : ℚ := 2 ^ (Int.log 2 |value| - 52)

/-- The number that represents a value. -/
def toDouble (value : ℚ) : ℚ := roundEven (value / lastPlace value) * lastPlace value

theorem lastPlace_pos (value : ℚ) : 0 < lastPlace value := zpow_pos two_pos _

theorem lastPlace_le {value : ℚ} (h : value ≠ 0) : lastPlace value ≤ |value| / 2 ^ 52 := by
  have hlog : (2 : ℚ) ^ Int.log 2 |value| ≤ |value| :=
    Int.zpow_log_le_self (by decide) (abs_pos.2 h)
  have hsplit : lastPlace value = 2 ^ Int.log 2 |value| / 2 ^ 52 := zpow_sub₀ two_ne_zero _ 52
  rw [hsplit]
  gcongr

theorem abs_roundEven_sub_le (value : ℚ) : |(roundEven value : ℚ) - value| ≤ 1 / 2 := by
  have hsum := Int.floor_add_fract value
  have hnonneg := Int.fract_nonneg value
  have hlt := Int.fract_lt_one value
  rw [abs_le]
  unfold roundEven
  split_ifs
  · constructor <;> linarith
  · push_cast
    constructor <;> linarith
  · constructor <;> linarith
  · push_cast
    constructor <;> linarith

/-- The error of one rounding. -/
theorem abs_toDouble_sub_le (value : ℚ) : |toDouble value - value| ≤ |value| / 2 ^ 53 := by
  rcases eq_or_ne value 0 with rfl | hne
  · simp [toDouble, roundEven]
  have hplace := lastPlace_pos value
  have hround := abs_roundEven_sub_le (value / lastPlace value)
  calc |toDouble value - value|
      = |(roundEven (value / lastPlace value) : ℚ) - value / lastPlace value| *
          lastPlace value := by
        rw [toDouble, ← abs_of_pos hplace, ← abs_mul, abs_of_pos hplace, sub_mul,
          div_mul_cancel₀ _ hplace.ne']
    _ ≤ 1 / 2 * (|value| / 2 ^ 52) :=
        mul_le_mul hround (lastPlace_le hne) hplace.le (by norm_num)
    _ = |value| / 2 ^ 53 := by ring

/-- A rounded value lies between two multiples of a value close to the exact one. -/
theorem toDouble_between {value exact low high : ℚ} (hexact : 0 ≤ exact) (hlow : 0 ≤ low)
    (h : exact * low ≤ value ∧ value ≤ exact * high) :
    exact * (low * (1 - 1 / 2 ^ 53)) ≤ toDouble value ∧
      toDouble value ≤ exact * (high * (1 + 1 / 2 ^ 53)) := by
  have hnonneg : 0 ≤ value := (mul_nonneg hexact hlow).trans h.1
  have herror := abs_le.1 (abs_toDouble_sub_le value)
  rw [abs_of_nonneg hnonneg] at herror
  constructor
  · calc exact * (low * (1 - 1 / 2 ^ 53)) = exact * low * (1 - 1 / 2 ^ 53) := by ring
      _ ≤ value * (1 - 1 / 2 ^ 53) := mul_le_mul_of_nonneg_right h.1 (by norm_num)
      _ = value - value / 2 ^ 53 := by ring
      _ ≤ toDouble value := by linarith
  · calc toDouble value ≤ value + value / 2 ^ 53 := by linarith
      _ = value * (1 + 1 / 2 ^ 53) := by ring
      _ ≤ exact * high * (1 + 1 / 2 ^ 53) := mul_le_mul_of_nonneg_right h.2 (by norm_num)
      _ = exact * (high * (1 + 1 / 2 ^ 53)) := by ring

end HiFetch
