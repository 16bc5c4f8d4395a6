import HiFetch.Library.Decimal
import Mathlib.Algebra.Order.Floor.Ring
import Mathlib.Data.Rat.Floor

/-!
# Printing with a fixed number of places

`%.6f` prints a number with six digits behind the point, rounded to the nearest one and in the
middle to the even one.  The number that is read back is the rounded one.
-/

namespace HiFetch

open CString Scanf

/-- The nearest whole number, and the even one of two. -/
def roundEven (value : ℚ) : ℤ :=
  if Int.fract value < 1 / 2 then ⌊value⌋
  else if 1 / 2 < Int.fract value then ⌊value⌋ + 1
  else if Even ⌊value⌋ then ⌊value⌋
  else ⌊value⌋ + 1

theorem roundEven_intCast (value : ℤ) : roundEven value = value := by
  unfold roundEven
  rw [Int.fract_intCast, if_pos (by norm_num), Int.floor_intCast]

theorem roundEven_nonneg {value : ℚ} (h : 0 ≤ value) : 0 ≤ roundEven value := by
  have hfloor : 0 ≤ ⌊value⌋ := Int.floor_nonneg.2 h
  unfold roundEven
  split_ifs <;> omega

theorem roundEven_neg (value : ℚ) : roundEven (-value) = -roundEven value := by
  by_cases hwhole : Int.fract value = 0
  · obtain ⟨count, rfl⟩ := Int.fract_eq_zero_iff.1 hwhole
    have hneg : -(count : ℚ) = ((-count : ℤ) : ℚ) := (Int.cast_neg count).symm
    rw [hneg, roundEven_intCast, roundEven_intCast]
  · have hfract : Int.fract (-value) = 1 - Int.fract value := Int.fract_neg hwhole
    have hfloor : ⌊-value⌋ = -⌊value⌋ - 1 := by
      have hsum := Int.floor_add_fract value
      have hnegSum := Int.floor_add_fract (-value)
      have hcast : ((⌊-value⌋ : ℤ) : ℚ) = ((-⌊value⌋ - 1 : ℤ) : ℚ) := by
        push_cast
        linarith
      exact Int.cast_injective hcast
    have heven : Even (-⌊value⌋ - 1) ↔ ¬Even ⌊value⌋ := by
      rw [Int.even_sub_one, even_neg]
    unfold roundEven
    rw [hfract, hfloor]
    simp only [heven]
    split_ifs <;> first | omega | linarith

/-- The last `places` digits of a number, with zeros in front. -/
def paddedDigits : ℕ → ℕ → List UInt8
  | 0, _ => []
  | places + 1, number => paddedDigits places (number / 10) ++ [UInt8.ofNat (48 + number % 10)]

theorem isDigit_paddedDigits {places number : ℕ} :
    ∀ byte ∈ paddedDigits places number, isDigit byte := by
  induction places generalizing number with
  | zero => exact nofun
  | succ places ih =>
    intro byte hbyte
    rcases List.mem_append.1 hbyte with hfront | hlast
    · exact ih byte hfront
    · rw [List.mem_singleton.1 hlast]
      exact (isDigit_char (Nat.mod_lt _ (by decide))).1

theorem length_paddedDigits (places number : ℕ) :
    (paddedDigits places number).length = places := by
  induction places generalizing number with
  | zero => rfl
  | succ places ih => rw [paddedDigits, List.length_append, ih, List.length_singleton]

/-- The digits of a number behind some other digits. -/
theorem digitsValue_paddedDigits (places number value : ℕ) :
    digitsValue (paddedDigits places number) value =
      value * 10 ^ places + number % 10 ^ places := by
  induction places generalizing number with
  | zero => simp [paddedDigits, digitsValue, Nat.mod_one]
  | succ places ih =>
    obtain ⟨hdigit, hvalue⟩ := isDigit_char (Nat.mod_lt number (show 0 < 10 by decide))
    rw [paddedDigits, digitsValue_append isDigit_paddedDigits, digitsValue_cons hdigit, hvalue, ih]
    unfold digitsValue
    rw [Nat.pow_succ', Nat.mod_mul]
    ring

/-- `%.*f`: the digits of the number times a power of ten. -/
def fixed (places : ℕ) (value : ℚ) : Decimal where
  negative := value < 0
  whole := magnitude ((roundEven (|value| * 10 ^ places)).toNat / 10 ^ places : ℕ)
  fraction := paddedDigits places (roundEven (|value| * 10 ^ places)).toNat
  whole_ne_nil := magnitude_ne_nil _
  isDigit_whole _ := isDigit_of_mem_magnitude
  isDigit_fraction := isDigit_paddedDigits

example : (fixed 2 (-5 / 4)).bytes = (ofText "-1.25").bytes := by decide +kernel

/-- What is read back is the rounded number. -/
theorem value_fixed (places : ℕ) (value : ℚ) :
    (fixed places value).value = roundEven (value * 10 ^ places) / 10 ^ places := by
  have hpower : (0 : ℚ) < 10 ^ places := by positivity
  have hround : ((roundEven (|value| * 10 ^ places)).toNat : ℤ) =
      roundEven (|value| * 10 ^ places) := Int.toNat_of_nonneg (roundEven_nonneg (by positivity))
  have hdigits : digitsValue ((fixed places value).whole ++ (fixed places value).fraction) 0 =
      (roundEven (|value| * 10 ^ places)).toNat := by
    show digitsValue (magnitude _ ++ paddedDigits places _) 0 = _
    rw [digitsValue_append fun _ ↦ isDigit_of_mem_magnitude, digitsValue_magnitude,
      digitsValue_paddedDigits, Int.natAbs_natCast]
    exact Nat.div_add_mod' _ _
  have hplaces : (fixed places value).fraction.length = places := length_paddedDigits _ _
  unfold Decimal.value
  rw [hdigits, hplaces, ← Int.cast_natCast, hround]
  by_cases hnegative : value < 0
  · have hsign : (fixed places value).negative = true := decide_eq_true hnegative
    rw [hsign, if_pos rfl, abs_of_neg hnegative, neg_mul, roundEven_neg]
    push_cast
    ring
  · have hsign : (fixed places value).negative = false := decide_eq_false hnegative
    rw [hsign, if_neg (by decide), abs_of_nonneg (not_lt.1 hnegative), Int.cast_one, one_mul]

end HiFetch
