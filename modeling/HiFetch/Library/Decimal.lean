import HiFetch.Library.Scanf
import Mathlib.Algebra.Order.Field.Rat
import Mathlib.Data.Rat.Cast.Order

/-!
# Decimal fractions

`atof` reads blanks, a sign, digits with a point among them, and an exponent.  Its value is an exact
fraction here.  Infinities and the hexadecimal notation are left out.

A printed decimal is read back, whatever follows it that does not continue a number.
-/

namespace HiFetch

open CString Scanf

/-- The digits behind a point, if there is one, and the rest of the input. -/
def scanFraction : List UInt8 → List UInt8 × List UInt8
  | 46 :: rest => (rest.takeWhile isDigit, rest.dropWhile isDigit)
  | input => ([], input)

/-- The exponent behind the digits of a number; without a digit in it, it is zero. -/
def scanExponent : List UInt8 → ℤ
  | 101 :: rest | 69 :: rest =>
      (scanSign rest).1 * digitsValue ((scanSign rest).2.takeWhile isDigit) 0
  | _ => 0

/-- `atof`; without a digit in front of the exponent, the value is zero. -/
def CString.atof (string : CString) : ℚ :=
  let signed := scanSign (string.bytes.dropWhile isSpace)
  let whole := signed.2.takeWhile isDigit
  let fraction := scanFraction (signed.2.dropWhile isDigit)
  if whole ++ fraction.1 = [] then 0
  else
    signed.1 * (digitsValue (whole ++ fraction.1) 0 / 10 ^ fraction.1.length) *
      10 ^ scanExponent fraction.2

example : atof ⟨[32, 45, 49, 46, 53, 101, 50, 120], by decide⟩ = -150 := by decide +kernel

/-- A sign, digits, and digits behind a point. -/
structure Decimal where
  negative : Bool
  whole : List UInt8
  fraction : List UInt8
  whole_ne_nil : whole ≠ []
  isDigit_whole : ∀ byte ∈ whole, isDigit byte
  isDigit_fraction : ∀ byte ∈ fraction, isDigit byte

namespace Decimal

/-- Without digits behind it, the point is left out. -/
def bytes (decimal : Decimal) : List UInt8 :=
  (if decimal.negative then [45] else []) ++
    (decimal.whole ++ if decimal.fraction = [] then [] else 46 :: decimal.fraction)

def value (decimal : Decimal) : ℚ :=
  (if decimal.negative then -1 else 1 : ℤ) *
    (digitsValue (decimal.whole ++ decimal.fraction) 0 / 10 ^ decimal.fraction.length)

/-- What may follow a number: no digit, point or exponent, and no letter of the hexadecimal
notation. -/
def Ends (tail : List UInt8) : Prop :=
  ∀ byte ∈ tail.head?,
    ¬isDigit byte ∧ byte ≠ 46 ∧ byte ≠ 101 ∧ byte ≠ 69 ∧ byte ≠ 120 ∧ byte ≠ 88

theorem scanExponent_of_ends {tail : List UInt8} (h : Ends tail) : scanExponent tail = 0 := by
  unfold scanExponent
  split
  · exact absurd rfl (h _ rfl).2.2.1
  · exact absurd rfl (h _ rfl).2.2.2.1
  · rfl

/-- The part from the point on. -/
theorem scanFraction_of_ends (decimal : Decimal) {tail : List UInt8} (h : Ends tail) :
    scanFraction ((if decimal.fraction = [] then [] else 46 :: decimal.fraction) ++ tail) =
      (decimal.fraction, tail) := by
  have htail : ∀ byte ∈ tail.head?, ¬isDigit byte := fun byte hbyte ↦ (h byte hbyte).1
  split_ifs with hnone
  · rw [hnone, List.nil_append]
    unfold scanFraction
    split
    · exact absurd rfl (h _ rfl).2.1
    · rfl
  · rw [List.cons_append, scanFraction, takeWhile_append_of_head decimal.isDigit_fraction htail,
      dropWhile_append_of_head decimal.isDigit_fraction htail]

theorem head_digits (decimal : Decimal) (back : List UInt8) :
    ∀ byte ∈ (decimal.whole ++ back).head?, isDigit byte := by
  intro byte hbyte
  rw [List.head?_append_of_ne_nil _ decimal.whole_ne_nil] at hbyte
  exact decimal.isDigit_whole byte (List.mem_of_mem_head? hbyte)

/-- The first byte is no blank. -/
theorem head_bytes (decimal : Decimal) (tail : List UInt8) :
    ∀ byte ∈ (decimal.bytes ++ tail).head?, ¬isSpace byte := by
  rw [bytes, List.append_assoc, List.append_assoc]
  by_cases hnegative : decimal.negative
  · rw [if_pos hnegative]
    rintro _ ⟨⟩
    decide
  · rw [if_neg hnegative, List.nil_append]
    intro byte hbyte
    exact (notSpace_of_isDigit (decimal.head_digits _ byte hbyte)).1

theorem scanSign_bytes (decimal : Decimal) (tail : List UInt8) :
    scanSign (decimal.bytes ++ tail) = (if decimal.negative then -1 else 1, decimal.whole ++
      ((if decimal.fraction = [] then [] else 46 :: decimal.fraction) ++ tail)) := by
  rw [bytes, List.append_assoc, List.append_assoc]
  by_cases hnegative : decimal.negative
  · rw [if_pos hnegative, if_pos hnegative]
    rfl
  · rw [if_neg hnegative, if_neg hnegative, List.nil_append]
    apply scanSign_of_ne
    intro byte hbyte
    exact (notSpace_of_isDigit (decimal.head_digits _ byte hbyte)).2

/-- The bytes are digits, a sign and a point. -/
theorem range_of_mem_bytes (decimal : Decimal) {byte : UInt8} (h : byte ∈ decimal.bytes) :
    45 ≤ byte.toNat ∧ byte.toNat ≤ 57 := by
  have hdigit : isDigit byte → 45 ≤ byte.toNat ∧ byte.toNat ≤ 57 := fun hbyte ↦
    ⟨le_trans (by decide) (isDigit_iff.1 hbyte).1, (isDigit_iff.1 hbyte).2⟩
  rcases List.mem_append.1 h with hsign | hnumber
  · split_ifs at hsign
    · rw [List.mem_singleton.1 hsign]
      decide
    · cases hsign
  · rcases List.mem_append.1 hnumber with hwhole | hfraction
    · exact hdigit (decimal.isDigit_whole byte hwhole)
    · split_ifs at hfraction
      · cases hfraction
      · rcases List.mem_cons.1 hfraction with rfl | hmem
        · decide
        · exact hdigit (decimal.isDigit_fraction byte hmem)

theorem value_nonneg {decimal : Decimal} (h : decimal.negative = false) : 0 ≤ decimal.value := by
  unfold value
  rw [h, if_neg (by decide), Int.cast_one, one_mul]
  exact div_nonneg (Nat.cast_nonneg _) (pow_nonneg (by decide) _)

theorem bytes_ne_nil (decimal : Decimal) : decimal.bytes ≠ [] := by
  unfold bytes
  exact List.append_ne_nil_of_right_ne_nil _
    (List.append_ne_nil_of_left_ne_nil decimal.whole_ne_nil _)

/-- A printed decimal is read back. -/
theorem atof_bytes (decimal : Decimal) {blanks tail : List UInt8}
    (hblanks : ∀ byte ∈ blanks, isSpace byte) (hends : Ends tail) {string : CString}
    (hstring : string.bytes = blanks ++ (decimal.bytes ++ tail)) :
    atof string = decimal.value := by
  have hback : ∀ byte ∈
      ((if decimal.fraction = [] then [] else 46 :: decimal.fraction) ++ tail).head?,
      ¬isDigit byte := by
    split_ifs
    · exact fun byte hbyte ↦ (hends byte hbyte).1
    · rintro _ ⟨⟩
      decide
  have hne : decimal.whole ++ decimal.fraction ≠ [] := fun hnil ↦
    decimal.whole_ne_nil (List.append_eq_nil_iff.1 hnil).1
  unfold atof
  rw [hstring, dropWhile_append_of_head hblanks (decimal.head_bytes tail), decimal.scanSign_bytes]
  simp only [takeWhile_append_of_head decimal.isDigit_whole hback,
    dropWhile_append_of_head decimal.isDigit_whole hback, decimal.scanFraction_of_ends hends,
    scanExponent_of_ends hends, if_neg hne, zpow_zero, mul_one]
  rfl

end Decimal

end HiFetch
