import Mathlib.Data.Int.Notation
import Mathlib.Data.List.Basic
import Mathlib.Tactic.SplitIfs

/-!
# The screen of a terminal

A terminal of a fixed size receives code points.  It puts the printable ones into cells, from the
cursor to the right; after the last column it waits with the wrap until the next one arrives.  Of
the control sequences it knows `ESC [ row ; column H`, which moves the cursor, and `ESC [ 2 J`,
which clears the cells; all others leave the cells and the cursor as they are.

A picture says what stands in some of the cells.  `Draws` says what a text does to the screen,
whatever was on it; one text behind another draws its picture over the other's.
-/

namespace HiFetch.Screen

/-- The number of rows and of columns. -/
structure Size where
  rows : ℕ
  columns : ℕ

inductive Mode where
  | text
  | escape
  /-- The parameters that have ended, and the digits of the next one. -/
  | parameters (ended : List ℕ) (next : ℕ)
deriving DecidableEq

/-- The cells by row and column, the cursor, and the mode.  A column behind the last one is a wrap
that waits. -/
structure Terminal where
  cells : ℕ → ℕ → Char
  row : ℕ
  column : ℕ
  mode : Mode

abbrev Picture := ℕ → ℕ → Option Char

namespace Picture

/-- What one picture leaves open is taken from the other. -/
def atop (top bottom : Picture) : Picture := fun row column ↦
  (top row column).or (bottom row column)

def paint (picture : Picture) (cells : ℕ → ℕ → Char) : ℕ → ℕ → Char := fun row column ↦
  (picture row column).getD (cells row column)

def empty : Picture := fun _ _ ↦ none

/-- Some code points in a row. -/
def line (row column : ℕ) (glyphs : List Char) : Picture := fun other place ↦
  if other = row ∧ column ≤ place then glyphs[place - column]? else none

theorem paint_atop (top bottom : Picture) (cells : ℕ → ℕ → Char) :
    (top.atop bottom).paint cells = top.paint (bottom.paint cells) := by
  funext row column
  unfold atop paint
  dsimp only
  cases top row column <;> rfl

theorem paint_empty (cells : ℕ → ℕ → Char) : empty.paint cells = cells := rfl

/-- The last picture is on top. -/
def stack : List Picture → Picture
  | [] => empty
  | picture :: rest => (stack rest).atop picture

theorem empty_atop (picture : Picture) : empty.atop picture = picture := by
  funext row column
  exact Option.none_or

theorem atop_empty (picture : Picture) : picture.atop empty = picture := by
  funext row column
  exact Option.or_none

theorem atop_assoc (top middle bottom : Picture) :
    (top.atop middle).atop bottom = top.atop (middle.atop bottom) := by
  funext row column
  exact Option.or_assoc

theorem stack_append (below above : List Picture) :
    stack (below ++ above) = (stack above).atop (stack below) := by
  induction below with
  | nil => exact (atop_empty _).symm
  | cons picture rest ih => rw [List.cons_append, stack, stack, ih, atop_assoc]

/-- Pictures of one row each, one below the other. -/
theorem stack_rows {pictures : ℕ → Picture} {first : ℕ}
    (h : ∀ index row column, row ≠ first + index → pictures index row column = none)
    (count row column : ℕ) :
    stack ((List.range count).map pictures) row column =
      if first ≤ row ∧ row < first + count then pictures (row - first) row column else none := by
  induction count with
  | zero =>
    rw [if_neg (by omega)]
    rfl
  | succ count ih =>
    rw [List.range_succ, List.map_append, stack_append]
    show Option.or (pictures count row column) _ = _
    rw [ih]
    by_cases hrow : row = first + count
    · rw [if_neg (by omega), if_pos (by omega), Option.or_none, hrow, Nat.add_sub_cancel_left]
    · rw [h count row column hrow, Option.none_or]
      by_cases hbelow : first ≤ row ∧ row < first + count
      · rw [if_pos hbelow, if_pos (by omega)]
      · rw [if_neg hbelow, if_neg (by omega)]

theorem line_nil (row column : ℕ) : line row column [] = empty := by
  funext other place
  unfold line
  split_ifs <;> rfl

theorem line_singleton (row column : ℕ) (glyph : Char) :
    line row column [glyph] = fun other place ↦
      if other = row ∧ place = column then some glyph else none := by
  funext other place
  unfold line
  by_cases hplace : place = column
  · rw [hplace, Nat.sub_self]
    simp
  · rw [if_neg (show ¬(other = row ∧ place = column) from fun h ↦ hplace h.2)]
    split_ifs with hbehind
    · apply List.getElem?_eq_none
      rw [List.length_singleton]
      omega
    · rfl

/-- A row in two parts. -/
theorem line_append (row column : ℕ) (first second : List Char) :
    line row column (first ++ second) =
      (line row (column + first.length) second).atop (line row column first) := by
  funext other place
  unfold line atop
  dsimp only
  by_cases hfirst : other = row ∧ column ≤ place
  · rw [if_pos hfirst, if_pos hfirst]
    by_cases hsecond : other = row ∧ column + first.length ≤ place
    · have hbehind : first[place - column]? = none := List.getElem?_eq_none (by omega)
      rw [if_pos hsecond, List.getElem?_append_right (by omega), hbehind, Option.or_none,
        show place - column - first.length = place - (column + first.length) by omega]
    · rw [if_neg hsecond, List.getElem?_append_left (by omega), Option.none_or]
  · rw [if_neg hfirst, if_neg hfirst, if_neg (by omega), Option.none_or]

end Picture

def Printable (character : Char) : Prop := 32 ≤ character.toNat ∧ character.toNat ≠ 127

instance : DecidablePred Printable := fun character ↦
  inferInstanceAs (Decidable (32 ≤ character.toNat ∧ character.toNat ≠ 127))

namespace Terminal

/-- The next row; at the last one all rows move up. -/
def nextRow (size : Size) (terminal : Terminal) : Terminal :=
  if terminal.row + 1 < size.rows then { terminal with row := terminal.row + 1, column := 0 }
  else
    { terminal with
      cells := fun row column ↦
        if row + 1 < size.rows then terminal.cells (row + 1) column else ' '
      column := 0 }

/-- A code point is put at the cursor, behind a wrap that waits. -/
def put (size : Size) (terminal : Terminal) (glyph : Char) : Terminal :=
  let ready := if terminal.column < size.columns then terminal else terminal.nextRow size
  { ready with
    cells := (Picture.line ready.row ready.column [glyph]).paint ready.cells
    column := ready.column + 1 }

/-- Rows and columns are counted from one, and zero means one. -/
def execute (size : Size) (terminal : Terminal) (final : Char) (parameters : List ℕ) : Terminal :=
  if final = 'H' then
    { terminal with
      row := min (parameters.getD 0 0 - 1) (size.rows - 1)
      column := min (parameters.getD 1 0 - 1) (size.columns - 1) }
  else if final = 'J' ∧ parameters = [2] then { terminal with cells := fun _ _ ↦ ' ' }
  else terminal

/-- The terminal receives a code point. -/
def receive (size : Size) (terminal : Terminal) (character : Char) : Terminal :=
  if character = '\x1b' then { terminal with mode := .escape }
  else
    match terminal.mode with
    | .text =>
        if Printable character then terminal.put size character
        else if character = '\n' then terminal.nextRow size
        else terminal
    | .escape =>
        { terminal with mode := if character = '[' then .parameters [] 0 else .text }
    | .parameters ended next =>
        if character.isDigit then
          { terminal with mode := .parameters ended (10 * next + (character.toNat - 48)) }
        else if character = ';' then { terminal with mode := .parameters (ended ++ [next]) 0 }
        else if 64 ≤ character.toNat ∧ character.toNat < 127 then
          { terminal.execute size character (ended ++ [next]) with mode := .text }
        else terminal

def receiveAll (size : Size) (terminal : Terminal) (text : List Char) : Terminal :=
  text.foldl (receive size) terminal

theorem receiveAll_append (size : Size) (terminal : Terminal) (first second : List Char) :
    terminal.receiveAll size (first ++ second) =
      (terminal.receiveAll size first).receiveAll size second :=
  List.foldl_append

theorem receiveAll_cons (size : Size) (terminal : Terminal) (character : Char)
    (rest : List Char) :
    terminal.receiveAll size (character :: rest) =
      (terminal.receive size character).receiveAll size rest := rfl

end Terminal

open Terminal

variable {size : Size}

/-! ## Text in a row -/

/-- The text puts some code points into the row of the cursor, if there is room for them. -/
def Prints (size : Size) (text glyphs : List Char) : Prop :=
  ∀ terminal : Terminal, terminal.mode = .text → terminal.column + glyphs.length ≤ size.columns →
    terminal.receiveAll size text =
      { terminal with
        cells := (Picture.line terminal.row terminal.column glyphs).paint terminal.cells
        column := terminal.column + glyphs.length }

theorem prints_nil : Prints size [] [] := by
  intro terminal _ _
  rw [Picture.line_nil, Picture.paint_empty]
  rfl

theorem Prints.append {first second firstGlyphs secondGlyphs : List Char}
    (hfirst : Prints size first firstGlyphs) (hsecond : Prints size second secondGlyphs) :
    Prints size (first ++ second) (firstGlyphs ++ secondGlyphs) := by
  intro terminal hmode hroom
  rw [List.length_append] at hroom
  rw [receiveAll_append, hfirst terminal hmode (by omega), Picture.line_append,
    Picture.paint_atop, List.length_append, ← Nat.add_assoc]
  exact hsecond _ hmode (by dsimp only; omega)

theorem prints_singleton {glyph : Char} (h : Printable glyph) : Prints size [glyph] [glyph] := by
  intro terminal hmode hroom
  have hescape : glyph ≠ '\x1b' := by
    rintro rfl
    exact absurd h (by decide)
  have hcolumn : terminal.column < size.columns := hroom
  show terminal.receive size glyph = _
  unfold receive put
  simp only [if_neg hescape, hmode, if_pos h, if_pos hcolumn, List.length_singleton]

/-- Printable text. -/
theorem prints_self {text : List Char} (h : ∀ glyph ∈ text, Printable glyph) :
    Prints size text text := by
  induction text with
  | nil => exact prints_nil
  | cons glyph rest ih =>
    have hfirst : Prints size [glyph] [glyph] := prints_singleton (h glyph List.mem_cons_self)
    exact hfirst.append (ih fun other hmem ↦ h other (List.mem_cons_of_mem _ hmem))

/-! ## Control sequences -/

/-- The digits of a parameter. -/
theorem receiveAll_digits {digits : List Char} (hdigits : ∀ digit ∈ digits, digit.isDigit)
    (terminal : Terminal) (ended : List ℕ) (next : ℕ) :
    receiveAll size { terminal with mode := .parameters ended next } digits =
      { terminal with mode := .parameters ended (Nat.ofDigitChars 10 digits next) } := by
  induction digits generalizing next with
  | nil => rfl
  | cons digit rest ih =>
    have hdigit := hdigits digit List.mem_cons_self
    have hescape : digit ≠ '\x1b' := by
      rintro rfl
      exact absurd hdigit (by decide)
    have hrest := ih fun other hmem ↦ hdigits other (List.mem_cons_of_mem _ hmem)
    rw [receiveAll_cons, Nat.ofDigitChars_cons, ← hrest]
    unfold receive
    simp only [if_neg hescape, if_pos hdigit]
    rfl

/-- A number as `%d` prints it. -/
def printInt (number : ℤ) : List Char :=
  if number < 0 then '-' :: Nat.toDigits 10 number.natAbs else Nat.toDigits 10 number.natAbs

theorem printInt_natCast (number : ℕ) : printInt number = Nat.toDigits 10 number := by
  unfold printInt
  rw [if_neg (by omega), Int.natAbs_natCast]

/-- A number is received. -/
theorem receiveAll_number (terminal : Terminal) (ended : List ℕ) (number : ℕ) :
    receiveAll size { terminal with mode := .parameters ended 0 } (Nat.toDigits 10 number) =
      { terminal with mode := .parameters ended number } := by
  rw [receiveAll_digits (fun digit hmem ↦ Nat.isDigit_of_mem_toDigits (by decide) (by decide) hmem),
    Nat.ofDigitChars_ten_toDigits]

/-- `ESC [ row ; column H`, both counted from zero. -/
def cursorTo (row column : ℤ) : List Char :=
  '\x1b' :: '[' :: (printInt (row + 1) ++ ';' :: (printInt (column + 1) ++ ['H']))

/-- The cursor moves to a cell of the screen, whatever the terminal was doing. -/
theorem receiveAll_cursorTo (terminal : Terminal) {row column : ℕ} (hrow : row < size.rows)
    (hcolumn : column < size.columns) :
    terminal.receiveAll size (cursorTo row column) =
      { terminal with row := row, column := column, mode := .text } := by
  have hrowText : printInt ((row : ℤ) + 1) = Nat.toDigits 10 (row + 1) :=
    printInt_natCast (row + 1)
  have hcolumnText : printInt ((column : ℤ) + 1) = Nat.toDigits 10 (column + 1) :=
    printInt_natCast (column + 1)
  have hopen : (terminal.receive size '\x1b').receive size '[' =
      { terminal with mode := .parameters [] 0 } := rfl
  have hnext : receive size { terminal with mode := .parameters [] (row + 1) } ';' =
      { terminal with mode := .parameters [row + 1] 0 } := rfl
  have hclose : receive size { terminal with mode := .parameters [row + 1] (column + 1) } 'H' =
      { terminal with
        row := min row (size.rows - 1)
        column := min column (size.columns - 1)
        mode := .text } := rfl
  unfold cursorTo
  rw [receiveAll_cons, receiveAll_cons, hopen, receiveAll_append, hrowText, receiveAll_number,
    receiveAll_cons, hnext, receiveAll_append, hcolumnText, receiveAll_number, receiveAll_cons,
    hclose, Nat.min_eq_left (by omega), Nat.min_eq_left (by omega)]
  rfl

/-- `ESC [ … m` with numbers in it, which sets the colour of what follows. -/
def IsColour (text : List Char) : Prop :=
  ∃ parameters : List Char, text = '\x1b' :: '[' :: (parameters ++ ['m']) ∧
    ∀ character ∈ parameters, character.isDigit ∨ character = ';'

theorem receiveAll_parameters {parameters : List Char}
    (h : ∀ character ∈ parameters, character.isDigit ∨ character = ';') (terminal : Terminal)
    (ended : List ℕ) (next : ℕ) :
    ∃ laterEnded laterNext,
      receiveAll size { terminal with mode := .parameters ended next } parameters =
        { terminal with mode := .parameters laterEnded laterNext } := by
  induction parameters generalizing ended next with
  | nil => exact ⟨ended, next, rfl⟩
  | cons character rest ih =>
    have hrest := ih fun other hmem ↦ h other (List.mem_cons_of_mem _ hmem)
    rw [receiveAll_cons]
    rcases h character List.mem_cons_self with hdigit | rfl
    · have hescape : character ≠ '\x1b' := by
        rintro rfl
        exact absurd hdigit (by decide)
      have hstep : receive size { terminal with mode := .parameters ended next } character =
          { terminal with
            mode := .parameters ended (10 * next + (character.toNat - 48)) } := by
        unfold receive
        simp only [if_neg hescape, if_pos hdigit]
      rw [hstep]
      exact hrest _ _
    · exact hrest (ended ++ [next]) 0

/-- A colour changes neither the screen nor the cursor. -/
theorem IsColour.receiveAll_eq {text : List Char} (h : IsColour text) {terminal : Terminal}
    (hmode : terminal.mode = .text) : terminal.receiveAll size text = terminal := by
  obtain ⟨parameters, rfl, hparameters⟩ := h
  obtain ⟨cells, row, column, mode⟩ := terminal
  subst hmode
  have hopen : (receive size ⟨cells, row, column, .text⟩ '\x1b').receive size '[' =
      ⟨cells, row, column, .parameters [] 0⟩ := rfl
  obtain ⟨ended, next, hreceived⟩ :=
    @receiveAll_parameters size _ hparameters ⟨cells, row, column, .text⟩ [] 0
  rw [receiveAll_cons, receiveAll_cons, hopen, receiveAll_append, hreceived]
  rfl

theorem IsColour.prints {text : List Char} (h : IsColour text) : Prints size text [] := by
  intro terminal hmode _
  rw [h.receiveAll_eq hmode, Picture.line_nil, Picture.paint_empty]
  rfl

/-! ## Pictures -/

/-- The text draws a picture over what is on the screen. -/
def Draws (size : Size) (text : List Char) (picture : Picture) : Prop :=
  ∀ terminal : Terminal, terminal.mode = .text →
    (terminal.receiveAll size text).mode = .text ∧
      (terminal.receiveAll size text).cells = picture.paint terminal.cells

theorem draws_nil : Draws size [] .empty := fun _ hmode ↦ ⟨hmode, rfl⟩

theorem Draws.append {first second : List Char} {below above : Picture}
    (hfirst : Draws size first below) (hsecond : Draws size second above) :
    Draws size (first ++ second) (above.atop below) := by
  intro terminal hmode
  obtain ⟨hmiddle, hbelow⟩ := hfirst terminal hmode
  obtain ⟨hend, habove⟩ := hsecond _ hmiddle
  rw [receiveAll_append, Picture.paint_atop, ← hbelow]
  exact ⟨hend, habove⟩

theorem IsColour.draws {text : List Char} (h : IsColour text) : Draws size text .empty := by
  intro terminal hmode
  rw [h.receiveAll_eq hmode]
  exact ⟨hmode, rfl⟩

/-- Text behind a movement of the cursor. -/
theorem Prints.draws {text glyphs : List Char} (h : Prints size text glyphs) {row column : ℕ}
    (hrow : row < size.rows) (hcolumn : column < size.columns)
    (hroom : column + glyphs.length ≤ size.columns) :
    Draws size (cursorTo row column ++ text) (.line row column glyphs) := by
  intro terminal _
  rw [receiveAll_append, receiveAll_cursorTo terminal hrow hcolumn, h _ rfl hroom]
  exact ⟨rfl, rfl⟩

/-- A loop that draws one picture after the other. -/
theorem draws_flatMap {ι : Type*} {items : List ι} {text : ι → List Char} {picture : ι → Picture}
    (h : ∀ item ∈ items, Draws size (text item) (picture item)) :
    Draws size (items.flatMap text) (.stack (items.map picture)) := by
  induction items with
  | nil => exact draws_nil
  | cons item rest ih =>
    exact (h item List.mem_cons_self).append
      (ih fun other hmem ↦ h other (List.mem_cons_of_mem _ hmem))

/-- `ESC [ 2 J` -/
def eraseScreen : List Char := ['\x1b', '[', '2', 'J']

end HiFetch.Screen
