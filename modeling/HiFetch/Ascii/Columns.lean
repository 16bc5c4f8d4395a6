import HiFetch.Library.CString
import HiFetch.Library.Terminal
import Mathlib.Algebra.BigOperators.Group.List.Basic
import Mathlib.Data.List.Fold
import Mathlib.Data.List.MinMax

/-!
# The columns of the logo and of the information

`display_system_info` prints logo lines and information lines side by side.  The padding between
them comes from `get_display_width`, which counts the bytes outside escape sequences.  A terminal
counts code points, so a line is drawn as many columns too far to the left as it has continuation
bytes, and the widest line is taken to be wider than it is.

The texts line up exactly when both errors cancel in every row.  Below the logo there is no line
whose continuation bytes could make up for the error of the width.
-/

namespace HiFetch.Ascii

open Terminal

/-- `ascii_line_count` -/
def asciiLineCount : ℕ := 19

/-! ## Widths -/

/-- The local variables of `get_display_width`. -/
structure WidthScan where
  width : ℕ
  inEscape : Bool

def WidthScan.next (scan : WidthScan) (byte : UInt8) : WidthScan :=
  if byte = 27 then { scan with inEscape := true }
  else if scan.inEscape && byte = 109 then { scan with inEscape := false }
  else if !scan.inEscape then { scan with width := scan.width + 1 }
  else scan

def getDisplayWidth (str : CString) : ℕ :=
  (str.bytes.foldl WidthScan.next ⟨0, false⟩).width

/-- The loop over the logo, and the two columns of the gap. -/
def maxAsciiWidth (currentAscii : List CString) : ℕ :=
  currentAscii.foldl (fun widest line ↦
    if widest < getDisplayWidth line then getDisplayWidth line else widest) 0 + 2

/-! ## Rows -/

/-- A row of the output, which a line break ends: the logo line, the padding, and the information
line. -/
structure Row where
  ascii : CString
  padding : ℤ
  info : Option CString

/-- What stands before the information.  With the empty string, `%*s` prints as many spaces as the
width says; a negative width only puts them on the other side. -/
def Row.before (row : Row) : List UInt8 :=
  row.ascii.bytes ++ List.replicate row.padding.natAbs 32

/-- The three branches that print. -/
def displayRow (currentAscii formattedInfo : List CString) (i : ℕ) : Option Row :=
  match currentAscii[i]?, formattedInfo[i]? with
  | some line, some info =>
      some ⟨line, (maxAsciiWidth currentAscii : ℤ) - getDisplayWidth line, some info⟩
  | some line, none => some ⟨line, 0, none⟩
  | none, some info => some ⟨CString.empty, maxAsciiWidth currentAscii, some info⟩
  | none, none => none

/-- The rows that `display_system_info` prints for the lines that it has formatted. -/
def displaySystemInfo (currentAscii formattedInfo : List CString) : List Row :=
  (List.range (max formattedInfo.length asciiLineCount)).filterMap
    (displayRow currentAscii formattedInfo)

/-! ## The law -/

/-- A logo: as many lines of well-formed text as `ascii_line_count` says. -/
structure Logo where
  lines : List Line
  length_lines : lines.length = asciiLineCount

def lineString (line : Line) : CString := ⟨line.bytes, line.noNul⟩

/-- The logo as an array of strings. -/
def Logo.table (logo : Logo) : List CString := logo.lines.map lineString

/-- The largest size of a line. -/
def Logo.widest (logo : Logo) (size : Line → ℕ) : ℕ := (logo.lines.map size).foldr max 0

/-- No padding is negative, and every information text begins two columns to the right of the widest
logo line. -/
def Aligned (logo : Logo) (formattedInfo : List CString) : Prop :=
  ∀ row ∈ displaySystemInfo logo.table formattedInfo,
    0 ≤ row.padding ∧ (row.info.isSome → column row.before = logo.widest Line.columns + 2)

/-- The bytes of a line outside its escape sequences. -/
def textBytes (line : Line) : ℕ := line.columns + line.continuations

/-- Every logo line beside an information line has as many continuation bytes as the widest line in
bytes is wider than the widest line in columns, and there is no such difference where information
stands below the logo. -/
structure Logo.Balanced (logo : Logo) (infoCount : ℕ) : Prop where
  beside : ∀ line ∈ logo.lines.take infoCount,
    logo.widest Line.columns + line.continuations = logo.widest textBytes
  below : asciiLineCount < infoCount → logo.widest Line.columns = logo.widest textBytes

/-! ## The width of a line -/

theorem foldl_next_text {bytes : List UInt8} (h : 27 ∉ bytes) (width : ℕ) :
    bytes.foldl WidthScan.next ⟨width, false⟩ = ⟨width + bytes.length, false⟩ := by
  induction bytes generalizing width with
  | nil => rfl
  | cons byte rest ih =>
    have hbyte : byte ≠ 27 := fun heq ↦ h (heq ▸ List.mem_cons_self)
    have hnext : WidthScan.next ⟨width, false⟩ byte = ⟨width + 1, false⟩ := by
      simp [WidthScan.next, hbyte]
    rw [List.foldl_cons, hnext, ih fun hmem ↦ h (List.mem_cons_of_mem _ hmem), List.length_cons,
      Nat.add_right_comm, Nat.add_assoc]

theorem foldl_next_parameters {parameters : List UInt8} (h : (Piece.sgr parameters).WellFormed)
    (width : ℕ) :
    (parameters ++ [109]).foldl WidthScan.next ⟨width, true⟩ = ⟨width, false⟩ := by
  induction parameters with
  | nil => rfl
  | cons byte rest ih =>
    obtain ⟨hlow, hhigh⟩ := h byte List.mem_cons_self
    have hescape : byte ≠ 27 := by
      rintro rfl
      exact absurd hlow (by decide)
    have hfinal : byte ≠ 109 := by
      rintro rfl
      exact absurd hhigh (by decide)
    have hnext : WidthScan.next ⟨width, true⟩ byte = ⟨width, true⟩ := by
      simp [WidthScan.next, hescape, hfinal]
    rw [List.cons_append, List.foldl_cons, hnext]
    exact ih fun other hother ↦ h other (List.mem_cons_of_mem _ hother)

theorem foldl_next_piece {piece : Piece} (h : piece.WellFormed) (width : ℕ) :
    piece.bytes.foldl WidthScan.next ⟨width, false⟩ =
      ⟨width + (piece.columns + piece.continuations), false⟩ := by
  cases piece with
  | glyph character => rw [foldl_next_text h.noEscape, Piece.length_glyph]
  | sgr parameters => exact foldl_next_parameters h width

/-- The width of a line is the number of its bytes outside escape sequences. -/
theorem getDisplayWidth_lineString (line : Line) :
    getDisplayWidth (lineString line) = textBytes line := by
  have hscan : line.bytes.foldl WidthScan.next ⟨0, false⟩ =
      ⟨0 + (line.pieces.map fun piece ↦ piece.columns + piece.continuations).sum, false⟩ :=
    foldl_pieces (fun _ hpiece width ↦ foldl_next_piece hpiece width) line.wellFormed 0
  calc
    getDisplayWidth (lineString line) =
        (line.pieces.map fun piece ↦ piece.columns + piece.continuations).sum := by
      unfold getDisplayWidth lineString
      rw [hscan, Nat.zero_add]
    _ = textBytes line := List.sum_map_add

/-! ## The width of the logo -/

theorem foldl_widest_eq_foldr_max (lines : List CString) :
    (lines.foldl (fun widest line ↦
      if widest < getDisplayWidth line then getDisplayWidth line else widest) 0) =
      (lines.map getDisplayWidth).foldr max 0 := by
  have hmax : (fun widest line ↦
      if widest < getDisplayWidth line then getDisplayWidth line else widest) =
      fun widest line ↦ max widest (getDisplayWidth line) := by
    funext widest line
    rw [max_def_lt]
  rw [hmax, ← List.foldl_map, List.foldl_eq_foldr]

theorem maxAsciiWidth_table (logo : Logo) :
    maxAsciiWidth logo.table = logo.widest textBytes + 2 := by
  unfold maxAsciiWidth
  rw [foldl_widest_eq_foldr_max]
  unfold Logo.table Logo.widest
  rw [List.map_map]
  congr 3
  funext line
  exact getDisplayWidth_lineString line

theorem Logo.table_getElem? (logo : Logo) (i : ℕ) :
    logo.table[i]? = logo.lines[i]?.map lineString := List.getElem?_map

theorem Logo.length_table (logo : Logo) : logo.table.length = asciiLineCount := by
  unfold Logo.table
  rw [List.length_map, logo.length_lines]

theorem Logo.le_widest {logo : Logo} {line : Line} (hline : line ∈ logo.lines)
    (size : Line → ℕ) : size line ≤ logo.widest size :=
  List.le_max_of_le' 0 (List.mem_map_of_mem hline) le_rfl

/-! ## The rows -/

/-- The row of an index, whichever branch prints it. -/
theorem mem_displaySystemInfo {currentAscii formattedInfo : List CString}
    (hlength : currentAscii.length = asciiLineCount) {row : Row} :
    row ∈ displaySystemInfo currentAscii formattedInfo ↔
      ∃ i, displayRow currentAscii formattedInfo i = some row := by
  unfold displaySystemInfo
  rw [List.mem_filterMap]
  refine exists_congr fun i ↦ and_iff_right_of_imp fun hrow ↦ ?_
  rw [List.mem_range, ← hlength]
  by_contra hlarge
  rw [not_lt, max_le_iff] at hlarge
  unfold displayRow at hrow
  rw [List.getElem?_eq_none hlarge.1, List.getElem?_eq_none hlarge.2] at hrow
  cases hrow

theorem displayRow_beside {logo : Logo} {formattedInfo : List CString} {i : ℕ} {line : Line}
    {info : CString} (hline : logo.lines[i]? = some line) (hinfo : formattedInfo[i]? = some info) :
    displayRow logo.table formattedInfo i =
      some ⟨lineString line, (logo.widest textBytes + 2 - textBytes line : ℕ), some info⟩ := by
  have hle := logo.le_widest (List.mem_of_getElem? hline) textBytes
  unfold displayRow
  rw [logo.table_getElem?, hline, hinfo, Option.map_some]
  dsimp only
  rw [maxAsciiWidth_table, getDisplayWidth_lineString, Nat.cast_sub (by omega)]

theorem displayRow_below {logo : Logo} {formattedInfo : List CString} {i : ℕ} {info : CString}
    (hline : logo.lines[i]? = none) (hinfo : formattedInfo[i]? = some info) :
    displayRow logo.table formattedInfo i =
      some ⟨CString.empty, (logo.widest textBytes + 2 : ℕ), some info⟩ := by
  unfold displayRow
  rw [logo.table_getElem?, hline, hinfo, Option.map_none]
  dsimp only
  rw [maxAsciiWidth_table]

/-- Without information, nothing is padded. -/
theorem displayRow_alone {logo : Logo} {formattedInfo : List CString} {i : ℕ}
    (hinfo : formattedInfo[i]? = none) {row : Row}
    (hrow : displayRow logo.table formattedInfo i = some row) :
    row.padding = 0 ∧ row.info = none := by
  unfold displayRow at hrow
  rw [hinfo] at hrow
  cases hline : logo.table[i]? with
  | none =>
    rw [hline] at hrow
    cases hrow
  | some line =>
    rw [hline] at hrow
    cases hrow
    exact ⟨rfl, rfl⟩

/-- The column of the information beside a logo line. -/
theorem column_before_line (line : Line) (padding : ℕ) (info : Option CString) :
    column (Row.before ⟨lineString line, padding, info⟩) = line.columns + padding :=
  column_line_append_spaces line padding

theorem column_before_empty (padding : ℕ) (info : Option CString) :
    column (Row.before ⟨CString.empty, padding, info⟩) = padding := by
  have hcolumn := column_before_line ⟨[], by simp⟩ padding info
  rwa [show Line.columns ⟨[], by simp⟩ = 0 from rfl, Nat.zero_add] at hcolumn

/-! ## Alignment -/

theorem balanced_of_aligned {logo : Logo} {formattedInfo : List CString}
    (h : Aligned logo formattedInfo) : logo.Balanced formattedInfo.length := by
  have hrow : ∀ i row, displayRow logo.table formattedInfo i = some row → row.info.isSome →
      column row.before = logo.widest Line.columns + 2 :=
    fun i row heq ↦ (h row ((mem_displaySystemInfo logo.length_table).2 ⟨i, heq⟩)).2
  constructor
  · intro line hline
    obtain ⟨i, hi⟩ := List.mem_iff_getElem?.1 hline
    rw [List.getElem?_take] at hi
    split_ifs at hi with hinfo
    have hcolumn := hrow i _ (displayRow_beside hi (List.getElem?_eq_getElem hinfo)) rfl
    have hle : textBytes line ≤ logo.widest textBytes :=
      logo.le_widest (List.mem_of_getElem? hi) textBytes
    rw [column_before_line] at hcolumn
    unfold textBytes at hcolumn hle ⊢
    omega
  · intro hbelow
    have hnone : logo.lines[asciiLineCount]? = none :=
      List.getElem?_eq_none logo.length_lines.le
    have hcolumn := hrow asciiLineCount _
      (displayRow_below hnone (List.getElem?_eq_getElem hbelow)) rfl
    rw [column_before_empty] at hcolumn
    omega

theorem aligned_of_balanced {logo : Logo} {formattedInfo : List CString}
    (h : logo.Balanced formattedInfo.length) : Aligned logo formattedInfo := by
  intro row hrow
  obtain ⟨i, hi⟩ := (mem_displaySystemInfo logo.length_table).1 hrow
  cases hinfo : formattedInfo[i]? with
  | none =>
    obtain ⟨hpadding, hnone⟩ := displayRow_alone hinfo hi
    exact ⟨hpadding.ge, fun hsome ↦ by simp [hnone] at hsome⟩
  | some info =>
    obtain ⟨hless, -⟩ := List.getElem?_eq_some_iff.1 hinfo
    cases hline : logo.lines[i]? with
    | none =>
      rw [displayRow_below hline hinfo] at hi
      cases hi
      have hbelow : asciiLineCount ≤ i := logo.length_lines ▸ List.getElem?_eq_none_iff.1 hline
      refine ⟨Int.natCast_nonneg _, fun _ ↦ ?_⟩
      rw [column_before_empty, h.below (hbelow.trans_lt hless)]
    | some line =>
      rw [displayRow_beside hline hinfo] at hi
      cases hi
      refine ⟨Int.natCast_nonneg _, fun _ ↦ ?_⟩
      have hmem : line ∈ logo.lines.take formattedInfo.length := by
        apply List.mem_of_getElem? (i := i)
        rw [List.getElem?_take, if_pos hless, hline]
      have hbeside := h.beside line hmem
      have hle : textBytes line ≤ logo.widest textBytes :=
        logo.le_widest (List.mem_of_getElem? hline) textBytes
      rw [column_before_line]
      unfold textBytes at hbeside hle ⊢
      omega

/-- The columns are aligned exactly when the continuation bytes are balanced. -/
theorem aligned_iff_balanced (logo : Logo) (formattedInfo : List CString) :
    Aligned logo formattedInfo ↔ logo.Balanced formattedInfo.length :=
  ⟨balanced_of_aligned, aligned_of_balanced⟩

/-- With information below the logo, the logo has to be ASCII text. -/
theorem balanced_iff_ascii {logo : Logo} {infoCount : ℕ} (h : asciiLineCount < infoCount) :
    logo.Balanced infoCount ↔ ∀ line ∈ logo.lines, line.continuations = 0 := by
  have htake : logo.lines.take infoCount = logo.lines :=
    List.take_of_length_le (logo.length_lines.le.trans h.le)
  constructor
  · intro hbalanced line hline
    have hbeside := hbalanced.beside line (htake.symm ▸ hline)
    have hbelow := hbalanced.below h
    omega
  · intro hascii
    have hsame : logo.widest Line.columns = logo.widest textBytes := by
      unfold Logo.widest
      congr 1
      apply List.map_congr_left
      intro line hline
      unfold textBytes
      rw [hascii line hline, Nat.add_zero]
    refine ⟨fun line hline ↦ ?_, fun _ ↦ hsame⟩
    rw [hascii line (htake ▸ hline), Nat.add_zero, hsame]

/-! ## The logo of Manjaro -/

def blocks (count : ℕ) : List Piece := List.replicate count (.glyph '█')

def spaces (count : ℕ) : List Piece := List.replicate count (.glyph ' ')

/-- Text between the escape sequences for green and for the default. -/
def greenLine (text : List Piece) (h : ∀ piece ∈ text, piece.WellFormed) : Line where
  pieces := .sgr [49, 59, 51, 50] :: text ++ [.sgr [48]]
  wellFormed := by
    simp only [List.cons_append, List.mem_cons, List.mem_append, List.not_mem_nil, or_false]
    rintro piece (rfl | htext | rfl)
    · decide +kernel
    · exact h piece htext
    · decide +kernel

def emptyLine : Line := ⟨[], by simp⟩

/-- `manjaro_ascii` -/
def manjaroAscii : Logo where
  lines :=
    List.replicate 4 (greenLine (blocks 18 ++ spaces 2 ++ blocks 8) (by decide +kernel)) ++
      [greenLine (blocks 8 ++ spaces 12 ++ blocks 8) (by decide +kernel)] ++
      List.replicate 9
        (greenLine (blocks 8 ++ spaces 2 ++ blocks 8 ++ spaces 2 ++ blocks 8)
          (by decide +kernel)) ++
      List.replicate 5 emptyLine
  length_lines := rfl

/-- The fifth line has fewer blocks than the first one, so its text stands further to the right. -/
theorem not_aligned_manjaroAscii : ¬Aligned manjaroAscii (List.replicate 5 CString.empty) := by
  intro h
  have hbeside := (balanced_of_aligned h).beside _
    (List.mem_of_getElem? (i := 4) (show _ = some (greenLine (blocks 8 ++ spaces 12 ++ blocks 8)
      (by decide +kernel)) from rfl))
  exact absurd hbeside (by decide +kernel)

end HiFetch.Ascii
