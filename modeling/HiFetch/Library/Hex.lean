import HiFetch.Library.Scanf

/-!
# Hexadecimal numbers

Numbers that are printed with upper-case hexadecimal digits and leading zeros are read back by `%X`,
and their digits are found by the scan set `[0-9A-F]`.
-/

namespace HiFetch.Scanf

open CString

/-- An upper-case digit. -/
def hexChar (digit : ℕ) : UInt8 := UInt8.ofNat (if digit < 10 then 48 + digit else 55 + digit)

/-- The digits, the last one first. -/
def hexBytes (number : ℕ) : List UInt8 := (Nat.digits 16 number).map hexChar

/-- What `%0*X` prints for a width. -/
def printedHex (width number : ℕ) : List UInt8 :=
  List.replicate (width - (hexBytes number).length) 48 ++ (hexBytes number).reverse

/-- The scan set `[0-9A-F]`. -/
def upperHex : List (UInt8 × UInt8) := [(48, 57), (65, 70)]

def inRanges (ranges : List (UInt8 × UInt8)) (byte : UInt8) : Bool :=
  ranges.any fun range ↦ range.1 ≤ byte && byte ≤ range.2

example : printedHex 8 3232235777 = [67, 48, 65, 56, 48, 49, 48, 49] := by decide +kernel

theorem hexChar_spec {digit : ℕ} (h : digit < 16) :
    inRanges upperHex (hexChar digit) ∧ hexDigit (hexChar digit) = digit := by
  have hchar : ∀ digit < 16, inRanges upperHex (hexChar digit) ∧
      hexDigit (hexChar digit) = digit := by decide
  exact hchar digit h

theorem upperHex_iff {byte : UInt8} :
    inRanges upperHex byte ↔ isDigit byte ∨ 65 ≤ byte.toNat ∧ byte.toNat ≤ 70 := by
  simp [inRanges, upperHex, isDigit, UInt8.le_iff_toNat_le]

theorem range_of_upperHex {byte : UInt8} (h : inRanges upperHex byte) :
    48 ≤ byte.toNat ∧ byte.toNat ≤ 70 := by
  rcases upperHex_iff.1 h with hdigit | hletter
  · have hrange := isDigit_iff.1 hdigit
    omega
  · omega

/-- A digit is read by `%X`, and is no blank, sign or `x`. -/
theorem isHexDigit_of_upperHex {byte : UInt8} (h : inRanges upperHex byte) :
    isHexDigit byte ∧ ¬isSpace byte ∧ byte ≠ 45 ∧ byte ≠ 43 ∧ byte ≠ 120 ∧ byte ≠ 88 := by
  obtain ⟨hlow, hhigh⟩ := range_of_upperHex h
  refine ⟨?_, (notSpace_of_le hlow).1, (notSpace_of_le hlow).2.1, (notSpace_of_le hlow).2.2, ?_, ?_⟩
  · unfold isHexDigit
    rcases upperHex_iff.1 h with hdigit | hletter
    · rw [hdigit]
      rfl
    · simp [UInt8.le_iff_toNat_le, hletter.1, hletter.2]
  · rintro rfl
    exact absurd hhigh (by decide)
  · rintro rfl
    exact absurd hhigh (by decide)

theorem upperHex_of_mem_printedHex {width number : ℕ} {byte : UInt8}
    (h : byte ∈ printedHex width number) : inRanges upperHex byte := by
  rcases List.mem_append.1 h with hzero | hdigit
  · rw [List.eq_of_mem_replicate hzero]
    decide
  · obtain ⟨digit, hmem, rfl⟩ := List.mem_map.1 (List.mem_reverse.1 hdigit)
    exact (hexChar_spec (Nat.digits_lt_base (by decide) hmem)).1

theorem hexValue_append (front back : List UInt8) :
    hexValue (front ++ back) =
      back.foldl (fun value byte ↦ 16 * value + hexDigit byte) (hexValue front) :=
  List.foldl_append

/-- Leading zeros do not count. -/
theorem hexValue_printedHex (width number : ℕ) : hexValue (printedHex width number) = number := by
  have hzeros : ∀ count, hexValue (List.replicate count 48) = 0 := by
    intro count
    induction count with
    | zero => rfl
    | succ count ih =>
      rw [List.replicate_succ', hexValue_append, ih]
      rfl
  have hdigits : ∀ digits : List ℕ, (∀ digit ∈ digits, digit < 16) →
      hexValue (digits.map hexChar).reverse = Nat.ofDigits 16 digits := by
    intro digits hdigits
    induction digits with
    | nil => rfl
    | cons digit digits ih =>
      rw [List.map_cons, List.reverse_cons, hexValue_append,
        ih fun other hmem ↦ hdigits other (List.mem_cons_of_mem _ hmem), Nat.ofDigits_cons]
      show 16 * Nat.ofDigits 16 digits + hexDigit (hexChar digit) = _
      rw [(hexChar_spec (hdigits digit List.mem_cons_self)).2, Nat.add_comm]
  rw [printedHex, hexValue_append, hzeros]
  exact (hdigits _ fun _ ↦ Nat.digits_lt_base (by decide)).trans (Nat.ofDigits_digits 16 number)

theorem length_printedHex {width number : ℕ} (h : number < 16 ^ width) :
    (printedHex width number).length = width := by
  have hle : (hexBytes number).length ≤ width := by
    rw [hexBytes, List.length_map]
    exact (Nat.digits_length_le_iff (by decide) number).2 h
  rw [printedHex, List.length_append, List.length_replicate, List.length_reverse]
  exact Nat.sub_add_cancel hle

theorem printedHex_ne_nil {width : ℕ} (h : 0 < width) (number : ℕ) :
    printedHex width number ≠ [] := by
  rw [← List.length_pos_iff, printedHex, List.length_append, List.length_replicate,
    List.length_reverse]
  omega

/-- What may follow a hexadecimal number. -/
def HexEnds (byte : UInt8) : Prop := ¬isHexDigit byte ∧ byte ≠ 120 ∧ byte ≠ 88

/-- A row of digits is read up to the byte behind it. -/
theorem scanHex_append {digits tail : List UInt8}
    (hdigits : ∀ byte ∈ digits, inRanges upperHex byte) (hne : digits ≠ [])
    (htail : ∀ byte ∈ tail.head?, HexEnds byte) :
    scanHex (digits ++ tail) = some ((hexValue digits : ℤ), tail) := by
  have hread : ∀ byte ∈ digits, isHexDigit byte := fun byte hmem ↦
    (isHexDigit_of_upperHex (hdigits byte hmem)).1
  have hstop : ∀ byte ∈ tail.head?, ¬isHexDigit byte := fun byte hbyte ↦ (htail byte hbyte).1
  have hhead : ∀ byte ∈ (digits ++ tail).head?, inRanges upperHex byte := by
    intro byte hbyte
    rw [List.head?_append_of_ne_nil _ hne] at hbyte
    exact hdigits byte (List.mem_of_mem_head? hbyte)
  have hsign : scanSign ((digits ++ tail).dropWhile isSpace) = (1, digits ++ tail) := by
    rw [dropWhile_of_head fun byte hbyte ↦ (isHexDigit_of_upperHex (hhead byte hbyte)).2.1]
    apply scanSign_of_ne
    intro byte hbyte
    have hupper := isHexDigit_of_upperHex (hhead byte hbyte)
    exact ⟨hupper.2.2.1, hupper.2.2.2.1⟩
  have hsecond : ∀ byte ∈ (digits ++ tail)[1]?, byte ≠ 120 ∧ byte ≠ 88 := by
    intro byte hbyte
    rw [List.getElem?_append] at hbyte
    split_ifs at hbyte with hlong
    · exact (isHexDigit_of_upperHex (hdigits byte (List.mem_of_getElem? hbyte))).2.2.2.2
    · have hlength : digits.length = 1 := by
        have hpos := List.length_pos_of_ne_nil hne
        omega
      rw [hlength, ← List.head?_eq_getElem?] at hbyte
      exact (htail byte hbyte).2
  unfold scanHex
  rw [hsign]
  dsimp only
  split
  · rename_i heq
    exact absurd rfl (hsecond 120 (by rw [heq]; rfl)).1
  · rename_i heq
    exact absurd rfl (hsecond 88 (by rw [heq]; rfl)).2
  · rw [takeWhile_append_of_head hread hstop, dropWhile_append_of_head hread hstop, if_neg hne,
      one_mul]

/-- A printed hexadecimal number is read back. -/
theorem scanHex_printedHex {width : ℕ} (hwidth : 0 < width) (number : ℕ) {tail : List UInt8}
    (htail : ∀ byte ∈ tail.head?, HexEnds byte) :
    scanHex (printedHex width number ++ tail) = some ((number : ℤ), tail) := by
  rw [scanHex_append (fun _ ↦ upperHex_of_mem_printedHex) (printedHex_ne_nil hwidth number) htail,
    hexValue_printedHex]

theorem hexEnds_of_isSpace (byte : UInt8) (h : isSpace byte) : HexEnds byte := by
  refine ⟨fun hdigit ↦ ?_, ?_, ?_⟩
  · unfold isHexDigit at hdigit
    rw [Bool.or_eq_true, Bool.or_eq_true] at hdigit
    refine (notSpace_of_le ?_).1 h
    rcases hdigit with (hdecimal | hupper) | hlower
    · exact (isDigit_iff.1 hdecimal).1
    · simp [UInt8.le_iff_toNat_le] at hupper
      omega
    · simp [UInt8.le_iff_toNat_le] at hlower
      omega
  · rintro rfl
    exact absurd h (by decide)
  · rintro rfl
    exact absurd h (by decide)

theorem scan_hex {width number : ℕ} (hwidth : 0 < width) (hnumber : number < 2 ^ 32)
    {tail : List UInt8} (htail : ∀ byte ∈ tail.head?, HexEnds byte) :
    scan (.hex 32) (printedHex width number ++ tail) = some (.integer number, tail) := by
  have hvalue : (Kind.hex 32).convert (number : ℤ) = number :=
    convert_unsigned (by decide) (by omega) (by exact_mod_cast hnumber)
  rw [scan, scanHex_printedHex hwidth number htail, Option.map_some]
  exact congrArg (fun value ↦ some (Value.integer value, tail)) hvalue

/-- The scan set finds a row of digits. -/
theorem scan_ranges {width : ℕ} {digits tail : List UInt8}
    (hdigits : ∀ byte ∈ digits, inRanges upperHex byte) (hne : digits ≠ [])
    (hlength : digits.length ≤ width)
    (hstop : digits.length = width ∨ ∀ byte ∈ tail.head?, ¬inRanges upperHex byte) :
    scan (.ranges width upperHex) (digits ++ tail) = some (.text (ofBuffer digits), tail) := by
  have hfound : scanBounded width (inRanges upperHex) (digits ++ tail) =
      some (ofBuffer digits, tail) := scanBounded_append hdigits hne hlength hstop
  exact congrArg (Option.map fun result ↦ (Value.text result.1, result.2)) hfound

/-- A printed hexadecimal number with white space in front of it. -/
def hexField (blanks : List UInt8) (width number : ℕ) : Field :=
  ⟨.hex 32, true, blanks, printedHex width number, .integer number⟩

theorem hexField_reads {blanks : List UInt8} (hblanks : ∀ byte ∈ blanks, isSpace byte)
    (hne : blanks ≠ []) {width number : ℕ} (hwidth : 0 < width) (hnumber : number < 2 ^ 32) :
    (hexField blanks width number).Reads HexEnds where
  blanks := hblanks
  blanks_ne_nil := hne
  head := by
    intro byte hbyte
    exact (isHexDigit_of_upperHex
      (upperHex_of_mem_printedHex (List.mem_of_mem_head? hbyte))).2.1
  ne_nil := printedHex_ne_nil hwidth number
  scan_eq := fun _ hback ↦ scan_hex hwidth hnumber hback

end HiFetch.Scanf
