import Mathlib.Algebra.Ring.Nat
import Mathlib.Data.List.Basic
import Mathlib.Tactic.SplitIfs

/-!
# Columns of a terminal

A terminal receives bytes.  A code point takes one column, with the first byte of its encoding; the
continuation bytes take none, and an escape sequence `ESC [ … m` takes none.  A line of text is a
list of code points and such sequences, and its columns are the number of its code points.

The number of bytes outside the sequences is the number of columns plus the number of continuation
bytes, so it is the number of columns for ASCII text only.
-/

namespace HiFetch.Terminal

/-- What the terminal makes of the next byte. -/
inductive Mode where
  | text
  | escape
  | parameters
deriving DecidableEq

/-- The cursor: the columns that have been printed, and the mode. -/
structure Cursor where
  column : ℕ
  mode : Mode
deriving DecidableEq

/-- `10xxxxxx`. -/
def isContinuation (byte : UInt8) : Bool := 128 ≤ byte && byte < 192

/-- The cursor after a byte. -/
def Cursor.next : Cursor → UInt8 → Cursor
  | ⟨column, .text⟩, byte =>
      if byte = 27 then ⟨column, .escape⟩
      else if isContinuation byte then ⟨column, .text⟩
      else ⟨column + 1, .text⟩
  | ⟨column, .escape⟩, byte => if byte = 91 then ⟨column, .parameters⟩ else ⟨column, .text⟩
  | ⟨column, .parameters⟩, byte => if byte = 109 then ⟨column, .text⟩ else ⟨column, .parameters⟩

/-- The cursor after some bytes. -/
def Cursor.after (cursor : Cursor) (bytes : List UInt8) : Cursor := bytes.foldl Cursor.next cursor

/-- The column behind some bytes at the start of a line. -/
def column (bytes : List UInt8) : ℕ := (Cursor.after ⟨0, .text⟩ bytes).column

/-! ## Lines -/

/-- A code point, or an escape sequence for colours. -/
inductive Piece where
  | glyph (character : Char)
  | sgr (parameters : List UInt8)

namespace Piece

def bytes : Piece → List UInt8
  | glyph character => String.utf8EncodeChar character
  | sgr parameters => 27 :: 91 :: (parameters ++ [109])

/-- No code point is NUL or ESC, and the parameters are parameter bytes. -/
def WellFormed : Piece → Prop
  | glyph character => character.val ≠ 0 ∧ character.val ≠ 27
  | sgr parameters => ∀ byte ∈ parameters, 48 ≤ byte ∧ byte < 64

instance : DecidablePred WellFormed := fun piece ↦
  match piece with
  | glyph character => inferInstanceAs (Decidable (character.val ≠ 0 ∧ character.val ≠ 27))
  | sgr parameters => inferInstanceAs (Decidable (∀ byte ∈ parameters, 48 ≤ byte ∧ byte < 64))

def columns : Piece → ℕ
  | glyph _ => 1
  | sgr _ => 0

/-- The bytes of a code point behind its first one. -/
def continuations : Piece → ℕ
  | glyph character => character.utf8Size - 1
  | sgr _ => 0

end Piece

/-- A line of well-formed text. -/
structure Line where
  pieces : List Piece
  wellFormed : ∀ piece ∈ pieces, piece.WellFormed

namespace Line

def bytes (line : Line) : List UInt8 := line.pieces.flatMap Piece.bytes

def columns (line : Line) : ℕ := (line.pieces.map Piece.columns).sum

def continuations (line : Line) : ℕ := (line.pieces.map Piece.continuations).sum

end Line

/-! ## Encodings -/

theorem isContinuation_ofNat {n : ℕ} (h : n < 256) :
    isContinuation (UInt8.ofNat n) = (128 ≤ n && n < 192) := by
  simp only [isContinuation, UInt8.le_iff_toNat_le, UInt8.lt_iff_toNat_lt,
    UInt8.toNat_ofNat_of_lt' h]
  rfl

/-- The last bytes of an encoding. -/
theorem isContinuation_low (n : ℕ) : isContinuation (UInt8.ofNat (n % 64 + 128)) = true := by
  rw [isContinuation_ofNat (by omega), Bool.and_eq_true, decide_eq_true_eq, decide_eq_true_eq]
  omega

/-- The first byte of an encoding of several bytes. -/
theorem isContinuation_high {n : ℕ} (hlow : 192 ≤ n) (hhigh : n < 256) :
    isContinuation (UInt8.ofNat n) = false := by
  rw [isContinuation_ofNat hhigh, Bool.and_eq_false_iff, decide_eq_false_iff_not,
    decide_eq_false_iff_not]
  omega

/-- The first byte of a code point is no continuation byte, and the others are.  A first byte below
128 is the code point itself. -/
theorem utf8EncodeChar_eq_cons (character : Char) :
    ∃ first rest, String.utf8EncodeChar character = first :: rest ∧ isContinuation first = false ∧
      (∀ byte ∈ rest, isContinuation byte = true) ∧
      (first.toNat < 128 → character.val.toNat = first.toNat) := by
  have hmany : ∀ n : ℕ, 192 ≤ n → n < 256 → (UInt8.ofNat n).toNat < 128 →
      character.val.toNat = (UInt8.ofNat n).toNat := by
    intro n hlow hhigh hsmall
    rw [UInt8.toNat_ofNat_of_lt' hhigh] at hsmall
    omega
  unfold String.utf8EncodeChar
  dsimp only
  split_ifs with hone
  · have hbyte : character.val.toNat < 256 := by omega
    refine ⟨_, _, rfl, ?_, by simp, fun _ ↦ (UInt8.toNat_ofNat_of_lt' hbyte).symm⟩
    rw [isContinuation_ofNat hbyte, Bool.and_eq_false_iff, decide_eq_false_iff_not]
    omega
  all_goals
    refine ⟨_, _, rfl, isContinuation_high (by omega) (by omega), ?_,
      hmany _ (by omega) (by omega)⟩
    simp only [List.mem_cons, List.not_mem_nil, or_false, forall_eq_or_imp, forall_eq,
      isContinuation_low, and_self]

/-- An ASCII byte occurs in the encoding of its own code point only. -/
theorem not_mem_utf8EncodeChar {character : Char} {byte : UInt8} (hbyte : byte.toNat < 128)
    (hother : character.val.toNat ≠ byte.toNat) : byte ∉ String.utf8EncodeChar character := by
  obtain ⟨first, rest, hbytes, -, hrest, hfirst⟩ := utf8EncodeChar_eq_cons character
  rw [hbytes, List.mem_cons]
  rintro (rfl | hmem)
  · exact hother (hfirst hbyte)
  · have hlow := hrest byte hmem
    unfold isContinuation at hlow
    rw [Bool.and_eq_true, decide_eq_true_eq, UInt8.le_iff_toNat_le] at hlow
    exact absurd hlow.1 (Nat.not_le.2 hbyte)

namespace Piece

theorem length_glyph (character : Char) :
    (glyph character).bytes.length =
      (glyph character).columns + (glyph character).continuations := by
  have hpos := character.utf8Size_pos
  show (String.utf8EncodeChar character).length = 1 + (character.utf8Size - 1)
  rw [String.length_utf8EncodeChar]
  omega

theorem WellFormed.noNul {piece : Piece} (h : piece.WellFormed) : 0 ∉ piece.bytes := by
  cases piece with
  | glyph character =>
    exact not_mem_utf8EncodeChar (by decide) fun hzero ↦ h.1 (UInt32.toNat_inj.1 hzero)
  | sgr parameters =>
    intro hmem
    have hparameter : (0 : UInt8) ∈ parameters := by simpa [bytes] using hmem
    exact absurd (h 0 hparameter).1 (by decide)

theorem WellFormed.noEscape {character : Char} (h : (glyph character).WellFormed) :
    27 ∉ (glyph character).bytes :=
  not_mem_utf8EncodeChar (by decide) fun hescape ↦ h.2 (UInt32.toNat_inj.1 hescape)

end Piece

/-- The bytes of a line have no NUL. -/
theorem Line.noNul (line : Line) : 0 ∉ line.bytes := by
  intro hmem
  obtain ⟨piece, hpiece, hzero⟩ := List.mem_flatMap.1 hmem
  exact (line.wellFormed piece hpiece).noNul hzero

/-- What a byte machine does with well-formed pieces adds up over a line. -/
theorem foldl_pieces {State : Type*} {next : State → UInt8 → State} {counted : ℕ → State}
    {size : Piece → ℕ} (hpiece : ∀ piece : Piece, piece.WellFormed → ∀ count,
      piece.bytes.foldl next (counted count) = counted (count + size piece))
    {pieces : List Piece} (h : ∀ piece ∈ pieces, piece.WellFormed) (count : ℕ) :
    (pieces.flatMap Piece.bytes).foldl next (counted count) =
      counted (count + (pieces.map size).sum) := by
  induction pieces generalizing count with
  | nil => rfl
  | cons piece rest ih =>
    rw [List.flatMap_cons, List.foldl_append, hpiece piece (h piece List.mem_cons_self),
      ih fun other hother ↦ h other (List.mem_cons_of_mem _ hother), List.map_cons, List.sum_cons,
      Nat.add_assoc]

/-! ## The cursor -/

namespace Cursor

theorem after_cons (cursor : Cursor) (byte : UInt8) (rest : List UInt8) :
    cursor.after (byte :: rest) = (cursor.next byte).after rest := rfl

theorem after_append (cursor : Cursor) (front back : List UInt8) :
    cursor.after (front ++ back) = (cursor.after front).after back := List.foldl_append

theorem next_first {byte : UInt8} (hescape : byte ≠ 27) (hfirst : isContinuation byte = false)
    (column : ℕ) : Cursor.next ⟨column, .text⟩ byte = ⟨column + 1, .text⟩ := by
  unfold Cursor.next
  simp [hescape, hfirst]

theorem next_continuation {byte : UInt8} (h : isContinuation byte = true) (column : ℕ) :
    Cursor.next ⟨column, .text⟩ byte = ⟨column, .text⟩ := by
  have hescape : byte ≠ 27 := by
    rintro rfl
    exact absurd h (by decide)
  unfold Cursor.next
  simp [hescape, h]

theorem after_continuations {bytes : List UInt8} (h : ∀ byte ∈ bytes, isContinuation byte = true)
    (column : ℕ) : Cursor.after ⟨column, .text⟩ bytes = ⟨column, .text⟩ := by
  induction bytes with
  | nil => rfl
  | cons byte rest ih =>
    rw [after_cons, next_continuation (h byte List.mem_cons_self)]
    exact ih fun other hother ↦ h other (List.mem_cons_of_mem _ hother)

theorem after_parameters {parameters : List UInt8} (h : (Piece.sgr parameters).WellFormed)
    (column : ℕ) :
    Cursor.after ⟨column, .parameters⟩ (parameters ++ [109]) = ⟨column, .text⟩ := by
  induction parameters with
  | nil => rfl
  | cons byte rest ih =>
    have hbyte : byte ≠ 109 := by
      rintro rfl
      exact absurd (h 109 List.mem_cons_self).2 (by decide)
    rw [List.cons_append, after_cons]
    unfold Cursor.next
    dsimp only
    rw [if_neg hbyte]
    exact ih fun other hother ↦ h other (List.mem_cons_of_mem _ hother)

theorem after_piece {piece : Piece} (h : piece.WellFormed) (column : ℕ) :
    Cursor.after ⟨column, .text⟩ piece.bytes = ⟨column + piece.columns, .text⟩ := by
  cases piece with
  | glyph character =>
    obtain ⟨first, rest, hbytes, hfirst, hrest, -⟩ := utf8EncodeChar_eq_cons character
    have hescape := h.noEscape
    unfold Piece.bytes at hescape ⊢
    dsimp only at hescape ⊢
    rw [hbytes] at hescape ⊢
    have hne : first ≠ 27 := fun heq ↦ hescape (heq ▸ List.mem_cons_self)
    rw [after_cons, next_first hne hfirst]
    exact after_continuations hrest (column + 1)
  | sgr parameters => exact after_parameters h column

/-- A line takes one column for each code point, and none for an escape sequence. -/
theorem after_line (line : Line) (column : ℕ) :
    Cursor.after ⟨column, .text⟩ line.bytes = ⟨column + line.columns, .text⟩ :=
  foldl_pieces (fun _ hpiece column ↦ after_piece hpiece column) line.wellFormed column

theorem after_spaces (count column : ℕ) :
    Cursor.after ⟨column, .text⟩ (List.replicate count 32) = ⟨column + count, .text⟩ := by
  induction count generalizing column with
  | zero => rfl
  | succ count ih =>
    rw [List.replicate_succ, after_cons, next_first (by decide) (by decide), ih,
      Nat.add_right_comm, Nat.add_assoc]

end Cursor

/-- The column behind a line and some spaces. -/
theorem column_line_append_spaces (line : Line) (count : ℕ) :
    column (line.bytes ++ List.replicate count 32) = line.columns + count := by
  unfold column
  rw [Cursor.after_append, Cursor.after_line, Cursor.after_spaces, Nat.zero_add]

end HiFetch.Terminal
