import Mathlib.Data.List.Basic
import Mathlib.Tactic.SplitIfs

/-!
# Searching an array

The part of an array in use is described by a count and a condition on indices.  `firstIndex` is a
loop that goes up and stops at the first match, `lastIndex` one that goes down.
-/

namespace HiFetch.ArraySearch

/-- The first index below `count` that meets the condition. -/
def firstIndex (count : ℕ) (condition : ℕ → Bool) : Option ℕ :=
  (List.range count).find? condition

/-- The last index below `count` that meets the condition. -/
def lastIndex : ℕ → (ℕ → Bool) → Option ℕ
  | 0, _ => none
  | count + 1, condition => if condition count then some count else lastIndex count condition

variable {count index : ℕ} {condition other : ℕ → Bool}

theorem firstIndex_eq_none :
    firstIndex count condition = none ↔ ∀ index < count, ¬condition index := by
  unfold firstIndex
  rw [List.find?_eq_none]
  simp

theorem firstIndex_eq_some : firstIndex count condition = some index ↔
    index < count ∧ condition index ∧ ∀ earlier < index, ¬condition earlier := by
  unfold firstIndex
  rw [List.find?_range_eq_some, List.mem_range]
  simp only [Bool.not_eq_true', Bool.not_eq_true]
  tauto

theorem firstIndex_congr (h : ∀ index < count, condition index = other index) :
    firstIndex count condition = firstIndex count other := by
  cases hfound : firstIndex count other with
  | none =>
    rw [firstIndex_eq_none] at hfound ⊢
    intro index hlt
    rw [h index hlt]
    exact hfound index hlt
  | some index =>
    rw [firstIndex_eq_some] at hfound ⊢
    obtain ⟨hlt, hcondition, hearlier⟩ := hfound
    refine ⟨hlt, by rwa [h index hlt], fun earlier hless ↦ ?_⟩
    rw [h earlier (Nat.lt_trans hless hlt)]
    exact hearlier earlier hless

/-- A count that grows keeps what has been found. -/
theorem firstIndex_of_le {larger : ℕ} (hle : count ≤ larger)
    (h : firstIndex count condition = some index) : firstIndex larger condition = some index := by
  rw [firstIndex_eq_some] at h ⊢
  exact ⟨Nat.lt_of_lt_of_le h.1 hle, h.2⟩

/-- An array without the value gets it at its end. -/
theorem firstIndex_succ (hnone : firstIndex count condition = none)
    (hsame : ∀ index < count, other index = condition index) (hnew : other count) :
    firstIndex (count + 1) other = some count := by
  rw [firstIndex_eq_none] at hnone
  refine firstIndex_eq_some.2 ⟨Nat.lt_succ_self _, hnew, fun earlier hlt ↦ ?_⟩
  rw [hsame earlier hlt]
  exact hnone earlier hlt

theorem lastIndex_eq_some : lastIndex count condition = some index ↔
    index < count ∧ condition index ∧
      ∀ later, index < later → later < count → ¬condition later := by
  induction count with
  | zero => simp [lastIndex]
  | succ count ih =>
    unfold lastIndex
    split_ifs with hlast
    · constructor
      · rintro ⟨⟩
        exact ⟨Nat.lt_succ_self _, hlast, fun later hlater hlt ↦ by omega⟩
      · rintro ⟨hlt, -, hlater⟩
        by_contra hne
        have hindex : index ≠ count := fun heq ↦ hne (by rw [heq])
        exact hlater count (by omega) (Nat.lt_succ_self _) hlast
    · rw [ih]
      constructor
      · rintro ⟨hlt, hcondition, hlater⟩
        refine ⟨by omega, hcondition, fun later hbehind hbelow ↦ ?_⟩
        rcases Nat.lt_succ_iff_lt_or_eq.1 hbelow with hsmall | rfl
        · exact hlater later hbehind hsmall
        · exact hlast
      · rintro ⟨hlt, hcondition, hlater⟩
        have hne : index ≠ count := fun heq ↦ hlast (heq ▸ hcondition)
        exact ⟨by omega, hcondition, fun later hbehind hbelow ↦ hlater later hbehind (by omega)⟩

end HiFetch.ArraySearch
