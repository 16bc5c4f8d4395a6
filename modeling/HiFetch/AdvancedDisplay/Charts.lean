import HiFetch.AdvancedDisplay.Drawing
import HiFetch.Library.RunningExtrema
import Mathlib.Algebra.Order.Field.Rat
import Mathlib.Algebra.Order.Floor.Ring
import Mathlib.Data.Rat.Floor

/-!
# Bar charts

`draw_graph` goes over the rows from the top and compares every value with the threshold of the
row.  What is seen are columns that stand on the last row, each as high as its share of the largest
value.  Values are exact fractions here.
-/

namespace HiFetch.AdvancedDisplay

open RunningExtrema Screen

/-- One row: the threshold falls from the largest value to none. -/
def graphRow (largest : ℚ) (height : ℤ) (row : ℕ) (values : List ℚ) : List Char :=
  values.map fun value ↦ if largest * (height - row) / height ≤ value then '█' else ' '

def drawGraph (x y width height : ℤ) (values : List ℚ) : List Char :=
  match values with
  | [] => []
  | first :: rest =>
      (List.range height.toNat).flatMap fun row : ℕ ↦
        moveCursor x (y + row) ++
          graphRow (runningMax first rest) height row (values.take width.toNat)

/-- Columns on the last of `height` rows; a column is full from its own height on. -/
def barChart (x y height : ℕ) (heights : List ℤ) : Picture := fun row column ↦
  if y ≤ row ∧ row < y + height ∧ x ≤ column then
    heights[column - x]?.map fun bar ↦ if (y + height : ℤ) ≤ row + bar then '█' else ' '
  else none

/-- The share of the largest value, in rows. -/
def barHeight (largest : ℚ) (height : ℕ) (value : ℚ) : ℤ := ⌊value * height / largest⌋

/-- A value reaches the threshold of a row if its column is high enough. -/
theorem threshold_le_iff {largest : ℚ} (hlargest : 0 < largest) {height : ℕ} (hheight : 0 < height)
    (row : ℕ) (value : ℚ) :
    largest * (((height : ℕ) : ℤ) - row) / ((height : ℕ) : ℤ) ≤ value ↔
      (height : ℤ) ≤ row + barHeight largest height value := by
  have hpos : (0 : ℚ) < height := Nat.cast_pos.2 hheight
  have hfloor : (height : ℤ) - row ≤ barHeight largest height value ↔
      (((height : ℤ) - row : ℤ) : ℚ) ≤ value * height / largest := Int.le_floor
  have hmove : (height : ℤ) ≤ row + barHeight largest height value ↔
      (height : ℤ) - row ≤ barHeight largest height value := by omega
  rw [hmove, hfloor, le_div_iff₀ hlargest, Int.cast_natCast, div_le_iff₀ hpos, mul_comm largest]
  push_cast
  exact Iff.rfl

theorem line_graphRow {largest : ℚ} (hlargest : 0 < largest) {height : ℕ} (hheight : 0 < height)
    (x y row : ℕ) (values : List ℚ) :
    Picture.line (y + row) x (graphRow largest height row values) =
      fun other column ↦
        if other = y + row ∧ x ≤ column then
          (values.map (barHeight largest height))[column - x]?.map fun bar ↦
            if (y + height : ℤ) ≤ other + bar then '█' else ' '
        else none := by
  funext other column
  unfold Picture.line graphRow
  by_cases hplace : other = y + row ∧ x ≤ column
  · rw [if_pos hplace, if_pos hplace, List.getElem?_map, List.getElem?_map, Option.map_map]
    congr 1
    funext value
    have hshift : (y + height : ℤ) ≤ other + barHeight largest height value ↔
        (height : ℤ) ≤ row + barHeight largest height value := by
      rw [hplace.1]
      push_cast
      omega
    simp only [Function.comp_apply, threshold_le_iff hlargest hheight, hshift]
  · rw [if_neg hplace, if_neg hplace]

theorem printable_graphRow (largest : ℚ) (height : ℤ) (row : ℕ) (values : List ℚ) :
    ∀ glyph ∈ graphRow largest height row values, Printable glyph := by
  intro glyph hmem
  obtain ⟨value, -, rfl⟩ := List.mem_map.1 hmem
  split_ifs <;> decide

/-- The rows of a chart, one below the other. -/
theorem stack_graphRows {largest : ℚ} (hlargest : 0 < largest) (x y height : ℕ)
    (values : List ℚ) :
    Picture.stack ((List.range height).map fun row ↦
        Picture.line (y + row) x (graphRow largest height row values)) =
      barChart x y height (values.map (barHeight largest height)) := by
  have hrows : ∀ index row column, row ≠ y + index →
      Picture.line (y + index) x (graphRow largest height index values) row column = none :=
    fun index row column hrow ↦ if_neg fun h ↦ hrow h.1
  funext row column
  rw [Picture.stack_rows hrows]
  unfold barChart
  by_cases hrow : y ≤ row ∧ row < y + height
  · rw [if_pos hrow, line_graphRow hlargest (by omega)]
    have hplace : row = y + (row - y) ∧ x ≤ column ↔
        y ≤ row ∧ row < y + height ∧ x ≤ column := by omega
    exact if_congr hplace rfl rfl
  · rw [if_neg hrow, if_neg fun h ↦ hrow ⟨h.1, h.2.1⟩]

/-- A graph is a bar chart.  With a largest value above zero, a graph that fits shows the first
values as columns on its last row, each as high as its share of the largest value. -/
theorem drawGraph_draws {size : Size} {x y width height : ℕ} {values : List ℚ} {largest : ℚ}
    (hgreatest : IsGreatest {value | value ∈ values} largest) (hlargest : 0 < largest)
    (hstart : x < size.columns) (hright : x + width ≤ size.columns)
    (hbottom : y + height ≤ size.rows) :
    Draws size (drawGraph x y width height values)
      (barChart x y height ((values.take width).map (barHeight largest height))) := by
  cases values with
  | nil => cases hgreatest.1
  | cons first rest =>
    have hmax : runningMax first rest = largest := by
      have hsame : runningMax first (first :: rest) = runningMax first rest := by
        unfold runningMax
        rw [List.foldl_cons, if_neg (lt_irrefl first)]
      have hrunning := isGreatest_runningMax_iff.2
        ⟨first, (List.mem_cons_self : first ∈ first :: rest), le_rfl⟩
      rw [hsame] at hrunning
      exact hrunning.unique hgreatest
    rw [← stack_graphRows hlargest]
    unfold drawGraph
    dsimp only
    rw [hmax, Int.toNat_natCast, Int.toNat_natCast]
    apply draws_flatMap
    intro row hrow
    have hlength : (graphRow largest height row ((first :: rest).take width)).length ≤ width := by
      rw [graphRow, List.length_map, List.length_take]
      exact Nat.min_le_left _ _
    have hlast := List.mem_range.1 hrow
    have hline := (prints_self (printable_graphRow largest height row
      ((first :: rest).take width))).draws (show y + row < size.rows by omega) hstart (by omega)
    rwa [Nat.cast_add] at hline

theorem drawGraph_draws_three :
    Draws ⟨24, 80⟩ (drawGraph (5 : ℕ) (2 : ℕ) (3 : ℕ) (4 : ℕ) [1, 4, 2])
      (barChart 5 2 4 (([1, 4, 2].take 3).map (barHeight 4 4))) := by
  have hgreatest : IsGreatest {value : ℚ | value ∈ [1, 4, 2]} 4 := by
    refine ⟨by simp, fun value hvalue ↦ ?_⟩
    have hmem : value = 1 ∨ value = 4 ∨ value = 2 := by simpa using hvalue
    rcases hmem with rfl | rfl | rfl <;> norm_num
  exact drawGraph_draws hgreatest (by norm_num) (by decide) (by decide) (by decide)

end HiFetch.AdvancedDisplay
