import Mathlib.Data.Int.Notation
import Mathlib.Data.Nat.Notation
import Mathlib.Tactic.SplitIfs

/-!
# What curses documents

The calls that draw into a window are a parameter, and the laws say what their manual says of them:
the colour pair that is turned on is that of what is written next, a text stands in its line as far
as the line goes, and it leaves the lines above its own as they are, wherever it goes on below.

A law about the cells of a text is one about printable ASCII, at least where the text begins.  What
other bytes look like, and where they move the cursor, is left open.
-/

namespace HiFetch.Curses

/-- A byte, or a symbol of the alternative character set. -/
inductive Glyph where
  | byte (value : UInt8)
  | upperLeft
  | upperRight
  | lowerLeft
  | lowerRight
  | horizontal
  | vertical
  | block
  | board
deriving DecidableEq

structure Cell where
  glyph : Glyph
  pair : ℕ
deriving DecidableEq

structure Size where
  rows : ℕ
  columns : ℕ
  rows_pos : 0 < rows
  columns_pos : 0 < columns

/-- The calls that draw into a window, and what is seen of it. -/
structure Calls where
  Window : Size → Type
  cells {size : Size} : Window size → ℕ → ℕ → Cell
  /-- The pair of what is written next. -/
  pair {size : Size} : Window size → ℕ
  clear {size : Size} : Window size → Window size
  /-- `attron(COLOR_PAIR(pair))`. -/
  attron {size : Size} : Window size → ℕ → Window size
  /-- `attroff(COLOR_PAIR(pair))`. -/
  attroff {size : Size} : Window size → ℕ → Window size
  mvaddch {size : Size} : Window size → ℤ → ℤ → Glyph → Window size
  /-- `mvprintw`, with the text that the format gives. -/
  mvprintw {size : Size} : Window size → ℤ → ℤ → List UInt8 → Window size

/-- The byte takes one cell. -/
def Printing (byte : UInt8) : Prop := 32 ≤ byte ∧ byte ≤ 126

instance (byte : UInt8) : Decidable (Printing byte) :=
  inferInstanceAs (Decidable (32 ≤ byte ∧ byte ≤ 126))

structure Calls.Documented (curses : Calls) : Prop where
  cells_attron {size : Size} (window : curses.Window size) (pair : ℕ) :
    curses.cells (curses.attron window pair) = curses.cells window
  pair_attron {size : Size} (window : curses.Window size) (pair : ℕ) :
    curses.pair (curses.attron window pair) = pair
  cells_attroff {size : Size} (window : curses.Window size) (pair : ℕ) :
    curses.cells (curses.attroff window pair) = curses.cells window
  /-- Without a colour, a window has the pair 0. -/
  pair_attroff {size : Size} {window : curses.Window size} {pair : ℕ} :
    curses.pair window = pair → curses.pair (curses.attroff window pair) = 0
  pair_mvprintw {size : Size} (window : curses.Window size) (y x : ℤ) (text : List UInt8) :
    curses.pair (curses.mvprintw window y x text) = curses.pair window
  /-- The cursor never moves up.  The first byte is one that takes a cell of its own line. -/
  cells_mvprintw_above {size : Size} (window : curses.Window size) {y : ℤ} (x : ℤ)
    {text : List UInt8} {row : ℕ} : (row : ℤ) < y → (∀ byte ∈ text.head?, Printing byte) →
    curses.cells (curses.mvprintw window y x text) row = curses.cells window row
  /-- What stands in a line after a text has been printed into it. -/
  cells_mvprintw {size : Size} (window : curses.Window size) {row start column : ℕ}
    {text : List UInt8} : row < size.rows → start ≤ column → column < size.columns →
    (∀ byte ∈ text, Printing byte) →
    curses.cells (curses.mvprintw window row start text) row column =
      (text[column - start]?.map fun byte ↦ ⟨.byte byte, curses.pair window⟩).getD
        (curses.cells window row column)

/-! ## Texts in a line -/

section Line

variable {curses : Calls} {size : Size}

/-- The text stands in the line from a column on, as far as the line goes. -/
def Shows (window : curses.Window size) (row start : ℕ) (text : List UInt8) : Prop :=
  ∀ place byte, text[place]? = some byte → start + place < size.columns →
    (curses.cells window row (start + place)).glyph = .byte byte

theorem Shows.behind {window : curses.Window size} {row start : ℕ} {front back : List UInt8}
    (h : Shows window row start (front ++ back)) :
    Shows window row (start + front.length) back := by
  intro place byte hbyte hplace
  rw [Nat.add_assoc] at hplace ⊢
  refine h _ byte ?_ hplace
  rw [List.getElem?_append_right (Nat.le_add_right _ _), Nat.add_sub_cancel_left, hbyte]

theorem Shows.front {window : curses.Window size} {row start : ℕ} {front back : List UInt8}
    (h : Shows window row start (front ++ back)) : Shows window row start front := by
  intro place byte hbyte hplace
  have hinside := (List.getElem?_eq_some_iff.1 hbyte).1
  exact h place byte ((List.getElem?_append_left hinside).trans hbyte) hplace

end Line

end HiFetch.Curses
