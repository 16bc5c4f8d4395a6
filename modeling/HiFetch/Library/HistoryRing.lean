import Mathlib.Data.List.GetD
import Mathlib.Data.List.Induction
import Mathlib.Logic.Function.Basic
import Mathlib.Tactic.Ring

/-!
# Rings of recent values

A ring keeps the values of the last pushes in an array with a write position.  Read from the write
position on, it gives the recent values in the order of the pushes, the newest one last, and blanks
for the pushes that have not happened.
-/

namespace HiFetch.HistoryRing

variable {α : Type*}

/-- The array and the write position. -/
structure History (α : Type*) where
  cells : ℤ → α
  position : ℤ

/-- The value goes to the write position, which then moves on. -/
def History.push (size : ℕ) (history : History α) (value : α) : History α where
  cells := Function.update history.cells history.position value
  position := (history.position + 1).tmod size

/-- The cell at a distance from the write position. -/
def History.read (size : ℕ) (history : History α) (offset : ℕ) : α :=
  history.cells ((history.position + offset).tmod size)

/-- A ring without values. -/
def blankHistory (blank : α) : History α := ⟨fun _ ↦ blank, 0⟩

/-- Of the `width` most recent values, the oldest one first, the one in a column; a blank where
there is none. -/
def recent (blank : α) (values : List α) (width column : ℕ) : α :=
  if values.length + column < width then blank
  else values.getD (values.length + column - width) blank

/-- The newest value is in the last column. -/
theorem recent_last (blank : α) (values : List α) (newest : α) (width : ℕ) :
    recent blank (values ++ [newest]) (width + 1) width = newest := by
  unfold recent
  rw [List.length_append, List.length_singleton, if_neg (by omega),
    show values.length + 1 + width - (width + 1) = values.length by omega]
  simp

/-- One push moves every value one column to the left. -/
theorem recent_append (blank : α) (values : List α) (newest : α) {width column : ℕ}
    (h : column + 1 < width) :
    recent blank (values ++ [newest]) width column = recent blank values width (column + 1) := by
  have hindex : values.length + 1 + column = values.length + (column + 1) := by omega
  unfold recent
  rw [List.length_append, List.length_singleton, hindex]
  split_ifs with hblank
  · rfl
  · exact List.getD_append _ _ _ _ (by omega)

/-- Fewer columns show the last ones of more columns. -/
theorem recent_of_le (blank : α) (values : List α) {width size : ℕ} (h : width ≤ size)
    (column : ℕ) :
    recent blank values width column = recent blank values size (size - width + column) := by
  unfold recent
  by_cases hblank : values.length + column < width
  · rw [if_pos hblank, if_pos (by omega)]
  · rw [if_neg hblank, if_neg (by omega)]
    congr 1
    omega

/-- What a ring shows after pushes of the values. -/
structure Holds (size : ℕ) (blank : α) (values : List α) (history : History α) : Prop where
  nonneg : 0 ≤ history.position
  lt : history.position < size
  read : ∀ offset < size, history.read size offset = recent blank values size offset

theorem holds_blankHistory {size : ℕ} (hsize : 0 < size) (blank : α) :
    Holds size blank [] (blankHistory blank) := by
  refine ⟨le_rfl, Int.natCast_pos.2 hsize, fun offset _ ↦ ?_⟩
  unfold recent
  split_ifs <;> simp [History.read, blankHistory]

/-- One push. -/
theorem Holds.push {size : ℕ} {blank : α} {values : List α} {history : History α}
    (h : Holds size blank values history) (value : α) :
    Holds size blank (values ++ [value]) (history.push size value) := by
  have hnonneg := h.nonneg
  have hlt := h.lt
  have hposition : (history.push size value).position = (history.position + 1) % size :=
    Int.tmod_eq_emod_of_nonneg (by omega)
  have hpositive : (0 : ℤ) < size := by omega
  refine ⟨?_, ?_, fun offset hoffset ↦ ?_⟩
  · rw [hposition]
    exact Int.emod_nonneg _ hpositive.ne'
  · rw [hposition]
    exact Int.emod_lt_of_pos _ hpositive
  have hcell : ((history.push size value).position + offset).tmod size =
      (history.position + (offset + 1 : ℕ)) % size := by
    have hpushed : 0 ≤ (history.position + 1) % (size : ℤ) := Int.emod_nonneg _ hpositive.ne'
    rw [hposition, Int.tmod_eq_emod_of_nonneg (by omega), Int.emod_add_emod]
    congr 1
    push_cast
    ring
  unfold History.read
  rw [hcell]
  change Function.update history.cells history.position value _ = _
  by_cases hlast : offset + 1 = size
  · -- the whole ring has been passed
    obtain rfl := hlast
    rw [Int.add_emod_right, Int.emod_eq_of_lt hnonneg hlt, Function.update_self, recent_last]
  · have hother : (history.position + (offset + 1 : ℕ)) % size ≠ history.position := by
      rcases lt_or_ge (history.position + (offset + 1 : ℕ)) size with hbefore | hbehind
      · rw [Int.emod_eq_of_lt (by omega) hbefore]
        omega
      · rw [← Int.sub_emod_right, Int.emod_eq_of_lt (by omega) (by omega)]
        omega
    rw [Function.update_of_ne hother, recent_append _ _ _ (by omega), ← h.read _ (by omega)]
    unfold History.read
    rw [Int.tmod_eq_emod_of_nonneg (by omega)]

/-- The ring holds the recent values. -/
theorem holds_foldl_push {size : ℕ} (hsize : 0 < size) (blank : α) (values : List α) :
    Holds size blank values (values.foldl (History.push size) (blankHistory blank)) := by
  induction values using List.reverseRecOn with
  | nil => exact holds_blankHistory hsize blank
  | append_singleton values value ih =>
    rw [List.foldl_append]
    exact ih.push value

end HiFetch.HistoryRing
