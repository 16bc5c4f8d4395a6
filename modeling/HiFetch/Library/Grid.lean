import HiFetch.Library.Curses
import Mathlib.Order.Fin.Basic

/-!
# A window of cells

A window has cells, a cursor inside it, and the colour pair of what is written next.  Writing a
symbol moves the cursor to the right, and from the last column to the next line; behind the last
column of the last line it fails, and the rest of a text is dropped.  Bytes below 32 and the byte
127 are not written as they are: four of them move the cursor, the others are written as two
symbols.  From 128 on, each byte is a symbol of its own, as in a locale with single bytes.

It is one way to do what curses documents: whatever is written, the lines above the cursor stay as
they are, and a printable text stands where it was written.
-/

namespace HiFetch.Curses

def Cell.blank : Cell := ⟨.byte 32, 0⟩

/-- The window without scrolling. -/
structure Grid (size : Size) where
  cells : ℕ → ℕ → Cell
  y : Fin size.rows
  x : Fin size.columns
  pair : ℕ

variable {size : Size}

namespace Grid

/-- `clear`. -/
def clear (window : Grid size) : Grid size where
  cells := fun _ _ ↦ .blank
  y := ⟨0, size.rows_pos⟩
  x := ⟨0, size.columns_pos⟩
  pair := window.pair

/-- `move`, if the place is inside the window. -/
def move (window : Grid size) (y x : ℤ) : Option (Grid size) :=
  if h : (0 ≤ y ∧ y < size.rows) ∧ 0 ≤ x ∧ x < size.columns then
    some { window with y := ⟨y.toNat, by omega⟩, x := ⟨x.toNat, by omega⟩ }
  else none

/-- The cursor moves to the start of the next line, if there is one. -/
def nextLine (window : Grid size) : Grid size × Bool :=
  if h : window.y + 1 < size.rows then
    ({ window with y := ⟨window.y + 1, h⟩, x := ⟨0, size.columns_pos⟩ }, true)
  else (window, false)

/-- The cell at the cursor gets a symbol. -/
def draw (window : Grid size) (glyph : Glyph) : Grid size :=
  { window with
    cells := fun row column ↦
      if row = window.y ∧ column = window.x then ⟨glyph, window.pair⟩
      else window.cells row column }

/-- A symbol at the cursor, which moves on. -/
def put (window : Grid size) (glyph : Glyph) : Grid size × Bool :=
  if h : window.x + 1 < size.columns then
    ({ window.draw glyph with x := ⟨window.x + 1, h⟩ }, true)
  else (window.draw glyph).nextLine

/-- `clrtoeol`. -/
def clearToEnd (window : Grid size) : Grid size :=
  { window with
    cells := fun row column ↦
      if row = window.y ∧ window.x ≤ column then .blank else window.cells row column }

/-- One after the other, until one of them fails. -/
def each {Item : Type} (write : Grid size → Item → Grid size × Bool) :
    Grid size → List Item → Grid size × Bool
  | window, [] => (window, true)
  | window, item :: rest =>
      if (write window item).2 then each write (write window item).1 rest
      else ((write window item).1, false)

/-- Blanks up to the next column of tabs, or the next line if that is behind the last column.  On
the last line the blanks go to its end. -/
def tab (window : Grid size) : Grid size × Bool :=
  let width := 8 - window.x.val % 8
  if window.x + width < size.columns ∨ ¬window.y + 1 < size.rows then
    each put window (List.replicate width (.byte 32))
  else window.clearToEnd.nextLine

/-- `addch` with a byte. -/
def addByte (window : Grid size) (byte : UInt8) : Grid size × Bool :=
  if byte = 10 then
    if window.y + 1 < size.rows then window.clearToEnd.nextLine else (window.clearToEnd, false)
  else if byte = 13 then ({ window with x := ⟨0, size.columns_pos⟩ }, true)
  else if byte = 8 then ({ window with x := ⟨window.x - 1, by omega⟩ }, true)
  else if byte = 9 then window.tab
  else if byte < 32 ∨ byte = 127 then each put window [.byte 94, .byte (byte ^^^ 64)]
  else window.put (.byte byte)

/-- `addstr`. -/
def addBytes (window : Grid size) (text : List UInt8) : Grid size × Bool :=
  each addByte window text

/-- `mvaddch` with a symbol. -/
def mvaddch (window : Grid size) (y x : ℤ) (glyph : Glyph) : Grid size :=
  match window.move y x with
  | none => window
  | some moved => (moved.put glyph).1

/-- `mvprintw`, with the text that the format gives. -/
def mvprintw (window : Grid size) (y x : ℤ) (text : List UInt8) : Grid size :=
  match window.move y x with
  | none => window
  | some moved => (moved.addBytes text).1

end Grid

/-! ## Lines above the cursor -/

/-- What writing does to the rest of a window. -/
structure Continues (before after : Grid size) : Prop where
  y_le : before.y.val ≤ after.y
  pair : after.pair = before.pair
  above : ∀ row < before.y.val, after.cells row = before.cells row

theorem Continues.refl (window : Grid size) : Continues window window :=
  ⟨le_rfl, rfl, fun _ _ ↦ rfl⟩

theorem Continues.trans {first second third : Grid size} (h : Continues first second)
    (hnext : Continues second third) : Continues first third where
  y_le := h.y_le.trans hnext.y_le
  pair := hnext.pair.trans h.pair
  above row hrow := (hnext.above row (hrow.trans_le h.y_le)).trans (h.above row hrow)

namespace Grid

theorem continues_nextLine (window : Grid size) : Continues window window.nextLine.1 := by
  unfold nextLine
  split_ifs
  · exact ⟨Nat.le_succ _, rfl, fun _ _ ↦ rfl⟩
  · exact .refl window

theorem continues_draw (window : Grid size) (glyph : Glyph) :
    Continues window (window.draw glyph) := by
  refine ⟨Nat.le_refl _, rfl, fun row hrow ↦ ?_⟩
  funext column
  exact if_neg fun h ↦ absurd h.1 hrow.ne

theorem continues_put (window : Grid size) (glyph : Glyph) :
    Continues window (window.put glyph).1 := by
  have hdraw := continues_draw window glyph
  unfold put
  split_ifs
  · exact ⟨hdraw.y_le, hdraw.pair, hdraw.above⟩
  · exact hdraw.trans (continues_nextLine _)

theorem continues_clearToEnd (window : Grid size) : Continues window window.clearToEnd := by
  refine ⟨Nat.le_refl _, rfl, fun row hrow ↦ ?_⟩
  funext column
  exact if_neg fun h ↦ absurd h.1 hrow.ne

theorem continues_each {Item : Type} {write : Grid size → Item → Grid size × Bool}
    (hwrite : ∀ window item, Continues window (write window item).1) (window : Grid size)
    (items : List Item) : Continues window (each write window items).1 := by
  induction items generalizing window with
  | nil => exact .refl window
  | cons item rest ih =>
    rw [each]
    split_ifs
    · exact (hwrite window item).trans (ih _)
    · exact hwrite window item

theorem continues_addByte (window : Grid size) (byte : UInt8) :
    Continues window (window.addByte byte).1 := by
  have hline := (continues_clearToEnd window).trans (continues_nextLine window.clearToEnd)
  unfold addByte tab
  dsimp only
  split_ifs
  · exact hline
  · exact continues_clearToEnd window
  · exact ⟨le_rfl, rfl, fun _ _ ↦ rfl⟩
  · exact ⟨le_rfl, rfl, fun _ _ ↦ rfl⟩
  · exact continues_each continues_put _ _
  · exact hline
  · exact continues_each continues_put _ _
  · exact continues_put _ _

theorem continues_addBytes (window : Grid size) (text : List UInt8) :
    Continues window (window.addBytes text).1 := continues_each continues_addByte window text

theorem move_eq_some {window moved : Grid size} {y x : ℤ} (h : window.move y x = some moved) :
    (moved.y : ℤ) = y ∧ (moved.x : ℤ) = x ∧ moved.cells = window.cells ∧
      moved.pair = window.pair := by
  unfold move at h
  split_ifs at h with hinside
  obtain rfl := Option.some.inj h
  exact ⟨Int.toNat_of_nonneg hinside.1.1, Int.toNat_of_nonneg hinside.2.1, rfl, rfl⟩

theorem pair_mvprintw (window : Grid size) (y x : ℤ) (text : List UInt8) :
    (window.mvprintw y x text).pair = window.pair := by
  unfold mvprintw
  split
  · rfl
  · rename_i moved hmoved
    exact (continues_addBytes moved text).pair.trans (move_eq_some hmoved).2.2.2

/-- A text changes no line above it. -/
theorem cells_mvprintw_above (window : Grid size) {y x : ℤ} {row : ℕ} (hrow : (row : ℤ) < y)
    (text : List UInt8) : (window.mvprintw y x text).cells row = window.cells row := by
  unfold mvprintw
  split
  · rfl
  · rename_i moved hmoved
    obtain ⟨hy, -, hcells, -⟩ := move_eq_some hmoved
    rw [(continues_addBytes moved text).above row (by omega), hcells]

end Grid

/-! ## Texts without control bytes -/

namespace Grid

theorem addByte_of_printing (window : Grid size) {byte : UInt8} (h : Printing byte) :
    window.addByte byte = window.put (.byte byte) := by
  have hne : byte ≠ 10 ∧ byte ≠ 13 ∧ byte ≠ 8 ∧ byte ≠ 9 := by
    refine ⟨?_, ?_, ?_, ?_⟩ <;> rintro rfl <;> exact absurd h.1 (by decide)
  have hcontrol : ¬(byte < 32 ∨ byte = 127) := by
    rintro (hlt | heq)
    · exact absurd h.1 (UInt8.not_le.2 hlt)
    · exact absurd (heq ▸ h.2) (by decide)
  unfold addByte
  rw [if_neg hne.1, if_neg hne.2.1, if_neg hne.2.2.1, if_neg hne.2.2.2, if_neg hcontrol]

/-- The line of the cursor, after a symbol has been written. -/
theorem cells_draw (window : Grid size) (glyph : Glyph) (column : ℕ) :
    (window.draw glyph).cells window.y column =
      if column = window.x then ⟨glyph, window.pair⟩ else window.cells window.y column := by
  unfold draw
  dsimp only
  simp only [true_and]

/-- In front of the last column, the cursor moves to the right. -/
theorem put_of_room (window : Grid size) (glyph : Glyph) (h : window.x + 1 < size.columns) :
    ∃ next : Grid size, window.put glyph = (next, true) ∧ next.y = window.y ∧
      next.x.val = window.x + 1 ∧ next.pair = window.pair ∧
      next.cells = (window.draw glyph).cells :=
  ⟨{ window.draw glyph with x := ⟨window.x + 1, h⟩ }, dif_pos h, rfl, rfl, rfl, rfl⟩

/-- In the last column, what follows is not written in this line. -/
theorem cells_addBytes_of_last (window : Grid size) {byte : UInt8} (h : Printing byte)
    (hlast : ¬window.x + 1 < size.columns) (rest : List UInt8) :
    (window.addBytes (byte :: rest)).1.cells window.y =
      (window.draw (.byte byte)).cells window.y := by
  unfold addBytes
  rw [each, addByte_of_printing window h, put, dif_neg hlast, nextLine]
  by_cases hnext : (window.draw (.byte byte)).y + 1 < size.rows
  · rw [dif_pos hnext, if_pos rfl]
    exact (continues_addBytes _ rest).above _ (Nat.lt_succ_self _)
  · rw [dif_neg hnext, if_neg Bool.false_ne_true]

/-- A text stands in its line, in the colour pair of the window. -/
theorem cells_addBytes (window : Grid size) {text : List UInt8}
    (h : ∀ byte ∈ text, Printing byte) {column : ℕ} (hcolumn : column < size.columns) :
    (window.addBytes text).1.cells window.y column =
      if window.x ≤ column then
        (text[column - window.x]?.map fun byte ↦ ⟨.byte byte, window.pair⟩).getD
          (window.cells window.y column)
      else window.cells window.y column := by
  induction text generalizing window with
  | nil => exact (ite_self _).symm
  | cons byte rest ih =>
    have hrest := fun other hmem ↦ h other (List.mem_cons_of_mem _ hmem)
    have hbyte := h byte List.mem_cons_self
    by_cases hroom : window.x + 1 < size.columns
    · -- The rest is written in the same line.
      obtain ⟨next, hput, hy, hx, hpair, hcells⟩ := put_of_room window (.byte byte) hroom
      have hnext : (window.addBytes (byte :: rest)).1 = (next.addBytes rest).1 := by
        unfold addBytes
        rw [each, addByte_of_printing window hbyte, hput, if_pos rfl]
      rw [hnext, ← hy, ih next hrest, hy, hx, hpair, hcells, cells_draw]
      rcases Nat.lt_trichotomy column window.x with hlt | heq | hgt
      · rw [if_neg (by omega), if_neg (by omega), if_neg (by omega)]
      · rw [if_neg (by omega), if_pos heq, if_pos heq.ge, heq, Nat.sub_self]
        rfl
      · rw [if_pos (by omega), if_neg (by omega), if_pos (by omega),
          show column - window.x = column - (window.x + 1) + 1 by omega, List.getElem?_cons_succ]
    · rw [cells_addBytes_of_last window hbyte hroom, cells_draw]
      have hle : column ≤ window.x := by omega
      rcases hle.lt_or_eq with hlt | heq
      · rw [if_neg (by omega), if_neg (by omega)]
      · rw [if_pos heq, if_pos heq.ge, heq, Nat.sub_self]
        rfl

/-- What stands in a line after a text has been printed into it. -/
theorem cells_mvprintw (window : Grid size) {row start column : ℕ} (hrow : row < size.rows)
    (hstart : start ≤ column) (hcolumn : column < size.columns) {text : List UInt8}
    (h : ∀ byte ∈ text, Printing byte) :
    (window.mvprintw row start text).cells row column =
      (text[column - start]?.map fun byte ↦ ⟨.byte byte, window.pair⟩).getD
        (window.cells row column) := by
  have hmove : window.move row start =
      some { window with y := ⟨row, hrow⟩, x := ⟨start, hstart.trans_lt hcolumn⟩ } :=
    dif_pos ⟨⟨Int.natCast_nonneg _, Int.ofNat_lt.2 hrow⟩, Int.natCast_nonneg _,
      Int.ofNat_lt.2 (hstart.trans_lt hcolumn)⟩
  unfold mvprintw
  rw [hmove]
  exact (cells_addBytes _ h hcolumn).trans (if_pos hstart)

end Grid

/-! ## The calls -/

end HiFetch.Curses
