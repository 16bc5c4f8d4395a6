import Mathlib.Data.Int.Order.Basic
import Mathlib.Data.Int.Init
import Mathlib.Data.List.Sort
import Mathlib.Order.Basic

/-!
# Three-way comparators

A comparator answers with a number below, at or above zero, as `strcmp` does and `qsort` expects it.
A sort may rely on it if it is consistent: turning the arguments round turns the sign round, and
what is not above zero is transitive.  A comparator that follows a key in a linear order is
consistent, and so is its negation, which follows the key in the opposite order.
-/

namespace HiFetch.Comparator

variable {α κ : Type*}

/-- What a sort relies on. -/
structure Consistent (compare : α → α → ℤ) : Prop where
  sign_swap : ∀ first second, (compare second first).sign = -(compare first second).sign
  trans : ∀ {first second third}, compare first second ≤ 0 → compare second third ≤ 0 →
    compare first third ≤ 0

/-- The comparator compares the keys. -/
structure Follows [LT κ] (compare : α → α → ℤ) (key : α → κ) : Prop where
  neg_iff : ∀ first second, compare first second < 0 ↔ key first < key second
  pos_iff : ∀ first second, 0 < compare first second ↔ key second < key first

/-- One of two elements may stand before the other. -/
theorem Consistent.total {compare : α → α → ℤ} (h : Consistent compare) (first second : α) :
    compare first second ≤ 0 ∨ compare second first ≤ 0 := by
  by_cases hpos : 0 < compare first second
  · have hsign := h.sign_swap first second
    rw [Int.sign_eq_one_of_pos hpos, Int.sign_eq_neg_one_iff_neg] at hsign
    exact .inr hsign.le
  · exact .inl (not_lt.1 hpos)

/-- Insertion sorts by every consistent comparator. -/
theorem Consistent.pairwise_insertionSort {compare : α → α → ℤ} (h : Consistent compare)
    (elements : List α) :
    (elements.insertionSort fun first second ↦ compare first second ≤ 0).Pairwise
      fun first second ↦ compare first second ≤ 0 := by
  have htotal : Std.Total fun first second ↦ compare first second ≤ 0 := ⟨h.total⟩
  have htrans : IsTrans α fun first second ↦ compare first second ≤ 0 := ⟨fun _ _ _ ↦ h.trans⟩
  exact List.pairwise_insertionSort _ elements

/-! ## Keys -/

/-- The same order, from the greatest key down. -/
theorem Follows.neg [LT κ] {compare : α → α → ℤ} {key : α → κ} (h : Follows compare key) :
    Follows (fun first second ↦ -compare first second)
      (fun element ↦ OrderDual.toDual (key element)) where
  neg_iff first second := by
    rw [Int.neg_neg_iff_pos, h.pos_iff, OrderDual.toDual_lt_toDual]
  pos_iff first second := by
    rw [Int.neg_pos, h.neg_iff, OrderDual.toDual_lt_toDual]

/-- The keys of a part of the elements. -/
theorem Follows.comap {β : Type*} [LT κ] {compare : α → α → ℤ} {key : α → κ}
    (h : Follows compare key) (part : β → α) :
    Follows (fun first second ↦ compare (part first) (part second)) fun element ↦
      key (part element) where
  neg_iff _ _ := h.neg_iff _ _
  pos_iff _ _ := h.pos_iff _ _

section LinearOrder

variable [LinearOrder κ] {compare : α → α → ℤ} {key : α → κ} (h : Follows compare key)
include h

theorem Follows.nonpos_iff (first second : α) :
    compare first second ≤ 0 ↔ key first ≤ key second := by
  rw [← not_lt, h.pos_iff, not_lt]

/-- Keys make a comparator consistent. -/
theorem Follows.consistent : Consistent compare where
  sign_swap first second := by
    rcases lt_trichotomy (key first) (key second) with hlt | heq | hgt
    · rw [Int.sign_eq_neg_one_of_neg ((h.neg_iff first second).2 hlt),
        Int.sign_eq_one_of_pos ((h.pos_iff second first).2 hlt)]
      rfl
    · have hnone : ∀ one other, key one = key other → compare one other = 0 := by
        intro one other hkeys
        apply le_antisymm
        · exact (h.nonpos_iff one other).2 hkeys.le
        · rw [← not_lt, h.neg_iff]
          exact hkeys.not_lt
      rw [hnone first second heq, hnone second first heq.symm]
      rfl
    · rw [Int.sign_eq_one_of_pos ((h.pos_iff first second).2 hgt),
        Int.sign_eq_neg_one_of_neg ((h.neg_iff second first).2 hgt)]
  trans {first second third} hfirst hsecond := by
    rw [h.nonpos_iff] at hfirst hsecond ⊢
    exact hfirst.trans hsecond

end LinearOrder

end HiFetch.Comparator
