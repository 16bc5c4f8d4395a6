import Mathlib.Data.List.Induction
import Mathlib.Order.Bounds.Basic
import Mathlib.Order.OrderDual

/-!
# Running extrema

The least and the greatest value of a list, kept while its values arrive.  What is kept starts from
a value that stands for no value at all.  It may also be the answer, so the least value is right
only if the start was not below all of them.
-/

namespace HiFetch.RunningExtrema

variable {α : Type*} [LinearOrder α]

/-- A smaller value replaces the one that is kept. -/
def runningMin (start : α) (values : List α) : α :=
  values.foldl (fun least value ↦ if value < least then value else least) start

/-- A greater value replaces the one that is kept. -/
def runningMax (start : α) (values : List α) : α :=
  values.foldl (fun greatest value ↦ if greatest < value then value else greatest) start

theorem runningMin_concat (start value : α) (values : List α) :
    runningMin start (values ++ [value]) =
      if value < runningMin start values then value else runningMin start values := by
  rw [runningMin, List.foldl_append]
  rfl

theorem runningMax_concat (start value : α) (values : List α) :
    runningMax start (values ++ [value]) =
      if runningMax start values < value then value else runningMax start values := by
  rw [runningMax, List.foldl_append]
  rfl

/-- What is kept is the least among the values and the start. -/
theorem isLeast_insert_runningMin (start : α) (values : List α) :
    IsLeast (insert start {value | value ∈ values}) (runningMin start values) := by
  induction values using List.reverseRecOn with
  | nil => exact ⟨.inl rfl, by simp [lowerBounds, runningMin]⟩
  | append_singleton values value ih =>
    have hmore : insert start {other | other ∈ values ++ [value]} =
        insert value (insert start {other | other ∈ values}) := by
      ext other
      simp only [Set.mem_insert_iff, Set.mem_ofPred_eq, List.mem_append, List.mem_singleton]
      tauto
    rw [hmore, runningMin_concat, ← min_def_lt]
    exact ih.insert value

/-- The least value is kept exactly when some value is not above the start. -/
theorem isLeast_runningMin_iff {start : α} {values : List α} :
    IsLeast {value | value ∈ values} (runningMin start values) ↔
      ∃ value ∈ values, value ≤ start := by
  obtain ⟨hmem, hlower⟩ := isLeast_insert_runningMin start values
  have hbound : ∀ value ∈ values, runningMin start values ≤ value :=
    fun value hvalue ↦ hlower (.inr hvalue)
  constructor
  · intro h
    exact ⟨_, h.1, hlower (.inl rfl)⟩
  · rintro ⟨value, hvalue, hle⟩
    refine ⟨?_, hbound⟩
    rcases hmem with hstart | hkept
    · -- the start is kept, so it is that value
      have heq : value = runningMin start values :=
        le_antisymm (hle.trans_eq hstart.symm) (hbound value hvalue)
      exact heq ▸ hvalue
    · exact hkept

/-- The greatest value is kept exactly when some value is not below the start. -/
theorem isGreatest_runningMax_iff {start : α} {values : List α} :
    IsGreatest {value | value ∈ values} (runningMax start values) ↔
      ∃ value ∈ values, start ≤ value :=
  @isLeast_runningMin_iff αᵒᵈ _ start values

end HiFetch.RunningExtrema
