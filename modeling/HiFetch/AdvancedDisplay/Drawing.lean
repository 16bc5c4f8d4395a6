import HiFetch.Library.Screen

/-!
# Boxes and bars

The drawing functions write text with control sequences in it.  What a user sees is the screen of
the terminal that receives the text: a box is its frame, and a progress bar is a row of full and
light cells between brackets.
-/

namespace HiFetch.AdvancedDisplay

open Screen

def moveCursor (x y : ℤ) : List Char := cursorTo y x

def clearScreen : List Char := eraseScreen

/-- The text of `color.ansi_code`. -/
def setColor (color : List Char) : List Char := color

def resetColor : List Char := ['\x1b', '[', '0', 'm']

theorem isColour_resetColor : IsColour resetColor :=
  ⟨['0'], rfl, List.forall_mem_singleton.2 (by decide)⟩

theorem isColour_white : IsColour ['\x1b', '[', '3', '7', 'm'] :=
  ⟨['3', '7'], rfl, List.forall_mem_cons.2 ⟨by decide, List.forall_mem_singleton.2 (by decide)⟩⟩

/-- The corners in the order of the source, and the lines. -/
structure Border where
  topLeft : Char
  topRight : Char
  bottomLeft : Char
  bottomRight : Char
  horizontal : Char
  vertical : Char

/-- Style 0 has no special characters. -/
def border (style : ℤ) : Border :=
  if style = 0 then ⟨'+', '+', '+', '+', '-', '|'⟩ else ⟨'┌', '┐', '└', '┘', '─', '│'⟩

/-- The first or the last line of a box. -/
def edge (left middle right : Char) (width : ℤ) : List Char :=
  left :: (List.replicate (width - 2).toNat middle ++ [right])

/-- One round of the loop over the rows between them. -/
def sides (x y width : ℤ) (vertical : Char) (row : ℤ) : List Char :=
  (moveCursor x (y + row) ++ [vertical]) ++ (moveCursor (x + width - 1) (y + row) ++ [vertical])

def drawBox (x y width height : ℤ) (color : List Char) (style : ℤ) : List Char :=
  let border := border style
  setColor color ++
    (moveCursor x y ++ edge border.topLeft border.horizontal border.topRight width) ++
    (List.range (height - 2).toNat).flatMap (fun index : ℕ ↦
      sides x y width border.vertical (index + 1)) ++
    (moveCursor x (y + height - 1) ++
      edge border.bottomLeft border.horizontal border.bottomRight width) ++
    resetColor

/-! ## Frames -/

/-- What stands in a column of the first or the last line. -/
def edgeAt (x width : ℕ) (left middle right : Char) (column : ℕ) : Option Char :=
  if column = x then some left
  else if column = x + width - 1 then some right
  else if x < column ∧ column < x + width then some middle
  else none

/-- The frame of a box, with nothing inside it. -/
def frame (x y width height : ℕ) (border : Border) : Picture := fun row column ↦
  if row = y then edgeAt x width border.topLeft border.horizontal border.topRight column
  else if row = y + height - 1 then
    edgeAt x width border.bottomLeft border.horizontal border.bottomRight column
  else if y < row ∧ row < y + height ∧ (column = x ∨ column = x + width - 1) then
    some border.vertical
  else none

theorem length_edge (left middle right : Char) {width : ℕ} (hwidth : 2 ≤ width) :
    (edge left middle right width).length = width := by
  simp only [edge, List.length_cons, List.length_append, List.length_replicate, List.length_nil]
  omega

theorem line_edge {x row : ℕ} (left middle right : Char) {width : ℕ} (hwidth : 2 ≤ width) :
    Picture.line row x (edge left middle right width) =
      fun other column ↦ if other = row then edgeAt x width left middle right column else none := by
  funext other column
  unfold Picture.line edgeAt edge
  have hcount : (((width : ℕ) : ℤ) - 2).toNat = width - 2 := by omega
  rw [hcount]
  by_cases hrow : other = row
  · rw [if_pos hrow]
    by_cases hinside : x ≤ column ∧ column < x + width
    · rw [if_pos ⟨hrow, hinside.1⟩]
      by_cases hleft : column = x
      · rw [if_pos hleft, hleft, Nat.sub_self]
        rfl
      · obtain ⟨place, hplace⟩ : ∃ place, column - x = place + 1 :=
          Nat.exists_eq_succ_of_ne_zero (by omega)
        rw [if_neg hleft, hplace, List.getElem?_cons_succ]
        by_cases hright : column = x + width - 1
        · rw [if_pos hright, List.getElem?_append_right (by rw [List.length_replicate]; omega),
            List.length_replicate, show place - (width - 2) = 0 by omega]
          rfl
        · rw [if_neg hright, if_pos (by omega),
            List.getElem?_append_left (by rw [List.length_replicate]; omega),
            List.getElem?_replicate_of_lt (by omega)]
    · rw [show (if column = x then some left else _) = none by
        rw [if_neg (by omega), if_neg (by omega), if_neg (by omega)]]
      split_ifs with hbehind
      · apply List.getElem?_eq_none
        rw [List.length_cons, List.length_append, List.length_replicate, List.length_singleton]
        omega
      · rfl
  · rw [if_neg hrow, if_neg (fun h ↦ hrow h.1)]

/-- The two sides in one row. -/
theorem sides_apply (x width row : ℕ) (vertical : Char) (other column : ℕ) :
    ((Picture.line row (x + width - 1) [vertical]).atop (Picture.line row x [vertical])) other
      column =
      if other = row ∧ (column = x ∨ column = x + width - 1) then some vertical else none := by
  rw [Picture.line_singleton, Picture.line_singleton]
  show Option.or (if _ then _ else _) (if _ then _ else _) = _
  by_cases hright : other = row ∧ column = x + width - 1
  · have hside : other = row ∧ (column = x ∨ column = x + width - 1) := ⟨hright.1, .inr hright.2⟩
    rw [if_pos hright, if_pos hside]
    rfl
  · rw [if_neg hright, Option.none_or]
    apply if_congr _ rfl rfl
    constructor
    · exact fun h ↦ ⟨h.1, .inl h.2⟩
    · exact fun h ↦ ⟨h.1, h.2.resolve_right fun hcolumn ↦ hright ⟨h.1, hcolumn⟩⟩

/-- The frame is its first line, the sides, and its last line. -/
theorem frame_eq {x y width height : ℕ} (hwidth : 2 ≤ width) (hheight : 2 ≤ height)
    (border : Border) :
    frame x y width height border =
      (Picture.line (y + height - 1) x
        (edge border.bottomLeft border.horizontal border.bottomRight width)).atop
      ((Picture.stack ((List.range (height - 2)).map fun index ↦
        (Picture.line (y + 1 + index) (x + width - 1) [border.vertical]).atop
          (Picture.line (y + 1 + index) x [border.vertical]))).atop
      (Picture.line y x (edge border.topLeft border.horizontal border.topRight width))) := by
  have hrows : ∀ index row column, row ≠ y + 1 + index →
      ((Picture.line (y + 1 + index) (x + width - 1) [border.vertical]).atop
        (Picture.line (y + 1 + index) x [border.vertical])) row column = none := by
    intro index row column hrow
    rw [sides_apply, if_neg fun h ↦ hrow h.1]
  funext row column
  rw [line_edge _ _ _ hwidth, line_edge _ _ _ hwidth]
  show frame x y width height border row column =
    Option.or (if row = y + height - 1 then _ else none)
      (Option.or (Picture.stack _ row column) (if row = y then _ else none))
  rw [Picture.stack_rows hrows, sides_apply]
  unfold frame
  by_cases htop : row = y
  · rw [if_pos htop, if_pos htop, if_neg (by omega), if_neg (by omega), Option.none_or,
      Option.none_or]
  · rw [if_neg htop, if_neg htop, Option.or_none]
    by_cases hbottom : row = y + height - 1
    · rw [if_pos hbottom, if_pos hbottom, if_neg (by omega), Option.or_none]
    · rw [if_neg hbottom, if_neg hbottom, Option.none_or]
      by_cases hinside : y + 1 ≤ row ∧ row < y + 1 + (height - 2)
      · rw [if_pos hinside]
        apply if_congr _ rfl rfl
        constructor
        · exact fun h ↦ ⟨by omega, h.2.2⟩
        · exact fun h ↦ ⟨by omega, by omega, h.2⟩
      · rw [if_neg hinside, if_neg (by omega)]

theorem printable_border (style : ℤ) :
    Printable (border style).topLeft ∧ Printable (border style).topRight ∧
      Printable (border style).bottomLeft ∧ Printable (border style).bottomRight ∧
      Printable (border style).horizontal ∧ Printable (border style).vertical := by
  unfold border
  split_ifs <;> decide

theorem prints_edge {size : Size} {left middle right : Char} (hleft : Printable left)
    (hmiddle : Printable middle) (hright : Printable right) (width : ℤ) :
    Prints size (edge left middle right width) (edge left middle right width) := by
  apply prints_self
  intro glyph hmem
  rcases List.mem_cons.1 hmem with rfl | hrest
  · exact hleft
  · rcases List.mem_append.1 hrest with hline | hlast
    · rw [List.eq_of_mem_replicate hline]
      exact hmiddle
    · rw [List.mem_singleton.1 hlast]
      exact hright

/-- A box is its frame.  Whatever is on the screen, a box that fits paints its frame and leaves
every other cell as it is. -/
theorem drawBox_draws {size : Size} {x y width height : ℕ} {color : List Char}
    (hcolor : IsColour color) (hwidth : 2 ≤ width) (hheight : 2 ≤ height)
    (hright : x + width ≤ size.columns) (hbottom : y + height ≤ size.rows) (style : ℤ) :
    Draws size (drawBox x y width height color style) (frame x y width height (border style)) := by
  obtain ⟨htopLeft, htopRight, hbottomLeft, hbottomRight, hhorizontal, hvertical⟩ :=
    printable_border style
  have hedge (left middle right : Char) :
      x + (edge left middle right width).length ≤ size.columns := by
    rwa [length_edge _ _ _ hwidth]
  have htop := (prints_edge htopLeft hhorizontal htopRight width).draws
    (show y < size.rows by omega) (show x < size.columns by omega) (hedge _ _ _)
  have hlast := (prints_edge hbottomLeft hhorizontal hbottomRight width).draws
    (show y + height - 1 < size.rows by omega) (show x < size.columns by omega) (hedge _ _ _)
  have hsides : ∀ index ∈ List.range (height - 2),
      Draws size (sides x y width (border style).vertical (index + 1))
        ((Picture.line (y + 1 + index) (x + width - 1) [(border style).vertical]).atop
          (Picture.line (y + 1 + index) x [(border style).vertical])) := by
    intro index hindex
    have hrow : y + 1 + index < size.rows := by
      have hlt := List.mem_range.1 hindex
      omega
    have hleft := (prints_singleton hvertical).draws hrow (show x < size.columns by omega)
      (show x + 1 ≤ size.columns by omega)
    have hright := (prints_singleton hvertical).draws hrow
      (show x + width - 1 < size.columns by omega) (show x + width - 1 + 1 ≤ size.columns by omega)
    have hboth := hleft.append hright
    rwa [show ((y + 1 + index : ℕ) : ℤ) = y + (index + 1) by omega,
      show ((x + width - 1 : ℕ) : ℤ) = x + width - 1 by omega] at hboth
  rw [show ((y + height - 1 : ℕ) : ℤ) = y + height - 1 by omega] at hlast
  have hstart : Draws size color .empty := hcolor.draws
  have hall := (((hstart.append htop).append (draws_flatMap hsides)).append hlast).append
    isColour_resetColor.draws
  rw [Picture.empty_atop, Picture.atop_empty, ← frame_eq hwidth hheight] at hall
  rw [show height - 2 = ((height : ℤ) - 2).toNat by omega] at hall
  exact hall

theorem drawBox_draws_small :
    Draws ⟨24, 80⟩ (drawBox (2 : ℕ) (1 : ℕ) (10 : ℕ) (4 : ℕ) ['\x1b', '[', '3', '7', 'm'] 1)
      (frame 2 1 10 4 (border 1)) :=
  drawBox_draws isColour_white (by decide) (by decide) (by decide) (by decide) 1

/-! ## Progress bars -/

/-- The full cells of a bar; the division is towards zero. -/
def filledCells (width percentage : ℤ) : ℤ := (width * percentage).tdiv 100

def drawProgressBar (x y width percentage : ℤ) (color : List Char) : List Char :=
  moveCursor x y ++
    (['['] ++ setColor color ++
      List.replicate (filledCells width percentage).toNat '█' ++
      resetColor ++
      List.replicate (width - 2 - filledCells width percentage).toNat '░' ++
      (']' :: ' ' :: (printInt percentage ++ ['%'])))

/-- What is seen of a bar. -/
def barGlyphs (width percentage : ℤ) : List Char :=
  '[' :: (List.replicate (filledCells width percentage).toNat '█' ++
    (List.replicate (width - 2 - filledCells width percentage).toNat '░' ++
      (']' :: ' ' :: (printInt percentage ++ ['%']))))

theorem printable_replicate {glyph : Char} (h : Printable glyph) (count : ℕ) :
    ∀ other ∈ List.replicate count glyph, Printable other := by
  intro other hmem
  rw [List.eq_of_mem_replicate hmem]
  exact h

theorem printable_printInt (number : ℤ) : ∀ glyph ∈ printInt number, Printable glyph := by
  have hdigits : ∀ glyph ∈ Nat.toDigits 10 number.natAbs, Printable glyph := by
    intro glyph hmem
    have hdigit := Char.isDigit_iff_toNat.1
      (Nat.isDigit_of_mem_toDigits (by decide) (by decide) hmem)
    exact ⟨Nat.le_trans (by decide) hdigit.1, fun hdelete ↦ absurd (hdelete ▸ hdigit.2) (by decide)⟩
  unfold printInt
  split_ifs
  · intro glyph hmem
    rcases List.mem_cons.1 hmem with rfl | hdigit
    · decide
    · exact hdigits glyph hdigit
  · exact hdigits

theorem prints_bar {size : Size} {color : List Char} (hcolor : IsColour color)
    (width percentage : ℤ) :
    Prints size
      (['['] ++ setColor color ++
        List.replicate (filledCells width percentage).toNat '█' ++
        resetColor ++
        List.replicate (width - 2 - filledCells width percentage).toNat '░' ++
        (']' :: ' ' :: (printInt percentage ++ ['%'])))
      (barGlyphs width percentage) := by
  have hopen : Prints size ['['] ['['] := prints_singleton (by decide)
  have hcolour : Prints size (setColor color) [] := hcolor.prints
  have hfilled := @prints_self size _
    (printable_replicate (show Printable '█' by decide) (filledCells width percentage).toNat)
  have hreset : Prints size resetColor [] := isColour_resetColor.prints
  have hlight := @prints_self size _
    (printable_replicate (show Printable '░' by decide)
      (width - 2 - filledCells width percentage).toNat)
  have hclose : Prints size (']' :: ' ' :: (printInt percentage ++ ['%']))
      (']' :: ' ' :: (printInt percentage ++ ['%'])) := by
    apply prints_self
    simp only [List.forall_mem_cons, List.forall_mem_append]
    exact ⟨by decide, by decide, printable_printInt percentage, by decide, nofun⟩
  have hall := ((((hopen.append hcolour).append hfilled).append hreset).append hlight).append hclose
  simpa only [List.append_nil, List.append_assoc, List.nil_append, List.cons_append,
    barGlyphs] using hall

theorem drawProgressBar_draws {size : Size} {x y : ℕ} {width percentage : ℤ} {color : List Char}
    (hcolor : IsColour color) (hrow : y < size.rows)
    (hroom : x + (barGlyphs width percentage).length ≤ size.columns) :
    Draws size (drawProgressBar x y width percentage color)
      (.line y x (barGlyphs width percentage)) := by
  have hcolumn : x < size.columns := by
    rw [barGlyphs, List.length_cons] at hroom
    omega
  exact (prints_bar hcolor width percentage).draws hrow hcolumn hroom

/-- Which cells are full depends on the product of width and percentage. -/
theorem filledCells_bounds (width percentage : ℤ) (hwidth : 2 ≤ width) :
    (0 ≤ filledCells width percentage ∧ filledCells width percentage ≤ width - 2) ↔
      -100 < width * percentage ∧ width * percentage < 100 * (width - 1) := by
  unfold filledCells
  generalize width * percentage = product
  by_cases hneg : product < 0
  · have hquotient : product.tdiv 100 = -(-product / 100) := by
      rw [← Int.tdiv_eq_ediv_of_nonneg (by omega), Int.neg_tdiv, Int.neg_neg]
    rw [hquotient]
    omega
  · rw [Int.tdiv_eq_ediv_of_nonneg (Int.not_lt.1 hneg)]
    omega

/-- The closing bracket is where the width says if neither too many nor a negative number of cells
is full. -/
theorem getElem?_barGlyphs {width : ℕ} (hwidth : 2 ≤ width) (percentage : ℤ) :
    (barGlyphs width percentage)[width - 1]? = some ']' ↔
      0 ≤ filledCells width percentage ∧ filledCells width percentage ≤ (width : ℤ) - 2 := by
  obtain ⟨place, hplace⟩ : ∃ place, width - 1 = place + 1 :=
    Nat.exists_eq_succ_of_ne_zero (by omega)
  rw [barGlyphs, hplace, List.getElem?_cons_succ]
  generalize filledCells width percentage = filled
  by_cases hfull : place < filled.toNat
  · rw [List.getElem?_append_left (by rw [List.length_replicate]; exact hfull),
      List.getElem?_replicate_of_lt hfull]
    exact iff_of_false (by decide) (by omega)
  · rw [List.getElem?_append_right (by rw [List.length_replicate]; omega), List.length_replicate]
    by_cases hlight : place - filled.toNat < ((width : ℤ) - 2 - filled).toNat
    · rw [List.getElem?_append_left (by rw [List.length_replicate]; exact hlight),
        List.getElem?_replicate_of_lt hlight]
      exact iff_of_false (by decide) (by omega)
    · rw [List.getElem?_append_right (by rw [List.length_replicate]; omega),
        List.length_replicate, show place - filled.toNat - _ = 0 by omega]
      exact iff_of_true rfl (by omega)

/-- How far behind the opening bracket the closing one stands. -/
def closingPlace (width percentage : ℤ) : ℕ :=
  1 + ((filledCells width percentage).toNat + (width - 2 - filledCells width percentage).toNat)

theorem getElem?_barGlyphs_closingPlace (width percentage : ℤ) :
    (barGlyphs width percentage)[closingPlace width percentage]? = some ']' := by
  have hcells : (List.replicate (filledCells width percentage).toNat '█' ++
      List.replicate (width - 2 - filledCells width percentage).toNat '░').length =
        (filledCells width percentage).toNat +
          (width - 2 - filledCells width percentage).toNat := by
    rw [List.length_append, List.length_replicate, List.length_replicate]
  rw [barGlyphs, closingPlace, Nat.add_comm 1, List.getElem?_cons_succ, ← List.append_assoc,
    ← hcells, List.getElem?_append_right (Nat.le_refl _), Nat.sub_self]
  rfl

theorem closingPlace_full (width : ℕ) : closingPlace width 100 = width + 1 := by
  have hfilled : filledCells width 100 = width := Int.mul_tdiv_cancel _ (by decide)
  unfold closingPlace
  rw [hfilled]
  omega

/-- A cell of the row in which a bar is drawn. -/
theorem cells_drawProgressBar {size : Size} {x y : ℕ} {width percentage : ℤ} {color : List Char}
    (hcolor : IsColour color) (hrow : y < size.rows)
    (hroom : x + (barGlyphs width percentage).length ≤ size.columns) {terminal : Terminal}
    (hmode : terminal.mode = .text) {place : ℕ} {glyph : Char}
    (hglyph : (barGlyphs width percentage)[place]? = some glyph) :
    (terminal.receiveAll size (drawProgressBar x y width percentage color)).cells y (x + place) =
      glyph := by
  rw [(drawProgressBar_draws hcolor hrow hroom terminal hmode).2]
  have hcell : Picture.line y x (barGlyphs width percentage) y (x + place) = some glyph := by
    unfold Picture.line
    rw [if_pos ⟨rfl, by omega⟩, Nat.add_sub_cancel_left, hglyph]
  unfold Picture.paint
  rw [hcell, Option.getD_some]

/-- The closing bracket of a bar stands behind its full and light cells.  This is the last column of
the bar's width exactly if the product of width and percentage is above -100 and below
100 × (width - 1), and two columns behind it at 100 percent. -/
theorem drawProgressBar_closes {size : Size} {x y width : ℕ} {percentage : ℤ}
    {color : List Char} (hcolor : IsColour color) (hwidth : 2 ≤ width) (hrow : y < size.rows)
    (hroom : x + (barGlyphs width percentage).length ≤ size.columns) {terminal : Terminal}
    (hmode : terminal.mode = .text) :
    (terminal.receiveAll size (drawProgressBar x y width percentage color)).cells y
        (x + closingPlace width percentage) = ']' ∧
      ((terminal.receiveAll size (drawProgressBar x y width percentage color)).cells y
          (x + (width - 1)) = ']' ↔
        -100 < width * percentage ∧ width * percentage < 100 * ((width : ℤ) - 1)) ∧
      (percentage = 100 → closingPlace width percentage = width + 1) := by
  have hlong : width - 1 < (barGlyphs width percentage).length := by
    simp only [barGlyphs, List.length_cons, List.length_append, List.length_replicate]
    omega
  refine ⟨?_, ?_, ?_⟩
  · exact cells_drawProgressBar hcolor hrow hroom hmode (getElem?_barGlyphs_closingPlace _ _)
  · rw [cells_drawProgressBar hcolor hrow hroom hmode (List.getElem?_eq_getElem hlong),
      ← filledCells_bounds _ _ (by omega), ← getElem?_barGlyphs hwidth,
      List.getElem?_eq_getElem hlong, Option.some.injEq]
  · rintro rfl
    exact closingPlace_full width

/-- A bar of ten columns at 100 percent closes in the twelfth one. -/
theorem drawProgressBar_closes_full :
    (Terminal.receiveAll ⟨24, 80⟩ ⟨fun _ _ ↦ ' ', 0, 0, .text⟩
          (drawProgressBar (0 : ℕ) (3 : ℕ) (10 : ℕ) 100 ['\x1b', '[', '3', '7', 'm'])).cells 3
          (0 + closingPlace (10 : ℕ) 100) = ']' ∧
      ((Terminal.receiveAll ⟨24, 80⟩ ⟨fun _ _ ↦ ' ', 0, 0, .text⟩
          (drawProgressBar (0 : ℕ) (3 : ℕ) (10 : ℕ) 100 ['\x1b', '[', '3', '7', 'm'])).cells 3
          (0 + (10 - 1)) = ']' ↔
        -100 < ((10 : ℕ) : ℤ) * 100 ∧ ((10 : ℕ) : ℤ) * 100 < 100 * (((10 : ℕ) : ℤ) - 1)) ∧
      ((100 : ℤ) = 100 → closingPlace (10 : ℕ) 100 = 10 + 1) :=
  drawProgressBar_closes isColour_white (by decide) (by decide) (by decide) rfl

end HiFetch.AdvancedDisplay
