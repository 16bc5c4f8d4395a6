import HiFetch.Library.CString

/-!
# Formatted input

`sscanf` as a function of the format and the input.  A format is a list of directives; the result
is the list of the values that are assigned, in order, up to the first directive that does not
match.  Numbers are converted as `strtol` and `strtoul` do and then cut to the width of their
target.

Two laws about a row of numbers are proved: printed numbers with blanks between them are read back,
and a row is not read to its end if a byte stands in the way that belongs to no number.
-/

namespace HiFetch.Scanf

open CString

inductive Kind where
  | signed (bits : ℕ)
  | unsigned (bits : ℕ)
  /-- `%s` -/
  | text
  /-- `%s` with a width. -/
  | word (width : ℕ)
  /-- `%[^stop]` with a width. -/
  | span (width : ℕ) (stop : UInt8)
  /-- `%c` -/
  | byte
  /-- `%X` -/
  | hex (bits : ℕ)
  /-- `%[…]` of ranges of bytes, with a width. -/
  | ranges (width : ℕ) (ranges : List (UInt8 × UInt8))
deriving DecidableEq

inductive Directive where
  /-- White space in the format. -/
  | blank
  /-- Any other byte of the format. -/
  | literal (byte : UInt8)
  /-- A conversion; `%*` does not assign its value. -/
  | convert (kind : Kind) (assigned : Bool)
deriving DecidableEq

inductive Value where
  | integer (value : ℤ)
  | text (value : CString)
  | byte (value : UInt8)
deriving DecidableEq

def isDigit (byte : UInt8) : Bool := 48 ≤ byte && byte ≤ 57

/-- The sign in front of a number. -/
def scanSign : List UInt8 → ℤ × List UInt8
  | 45 :: rest => (-1, rest)
  | 43 :: rest => (1, rest)
  | input => (1, input)

/-- The number at the start of the input, after white space. -/
def scanInteger (input : List UInt8) : Option (ℤ × List UInt8) :=
  let signed := scanSign (input.dropWhile isSpace)
  let digits := signed.2.takeWhile isDigit
  if digits = [] then none
  else some (signed.1 * digitsValue digits 0, signed.2.dropWhile isDigit)

def isHexDigit (byte : UInt8) : Bool :=
  isDigit byte || (65 ≤ byte && byte ≤ 70) || (97 ≤ byte && byte ≤ 102)

/-- The value of one hexadecimal digit. -/
def hexDigit (byte : UInt8) : ℕ :=
  if isDigit byte then byte.toNat - 48 else if byte ≤ 70 then byte.toNat - 55 else byte.toNat - 87

/-- The value of a row of hexadecimal digits. -/
def hexValue (digits : List UInt8) : ℕ :=
  digits.foldl (fun value byte ↦ 16 * value + hexDigit byte) 0

/-- The hexadecimal number at the start of the input, after white space, with or without `0x`. -/
def scanHex (input : List UInt8) : Option (ℤ × List UInt8) :=
  let signed := scanSign (input.dropWhile isSpace)
  match signed.2 with
  | 48 :: 120 :: rest | 48 :: 88 :: rest =>
      some (signed.1 * hexValue (rest.takeWhile isHexDigit), rest.dropWhile isHexDigit)
  | unsigned =>
      if unsigned.takeWhile isHexDigit = [] then none
      else some (signed.1 * hexValue (unsigned.takeWhile isHexDigit), unsigned.dropWhile isHexDigit)

/-- The target's value for a number. -/
def Kind.convert : Kind → ℤ → ℤ
  | .signed bits, value => (max (-2 ^ 63) (min (2 ^ 63 - 1) value)).bmod (2 ^ bits)
  | .unsigned bits, value | .hex bits, value =>
      (if value.natAbs < 2 ^ 64 then value % 2 ^ 64 else 2 ^ 64 - 1) % 2 ^ bits
  | _, value => value

/-- A word, after white space. -/
def scanText (input : List UInt8) : Option (CString × List UInt8) :=
  let word := (input.dropWhile isSpace).takeWhile fun byte ↦ !isSpace byte
  if word = [] then none
  else some (ofBuffer word, (input.dropWhile isSpace).dropWhile fun byte ↦ !isSpace byte)

/-- At most `width` bytes that meet the condition, and at least one. -/
def scanBounded (width : ℕ) (condition : UInt8 → Bool) (input : List UInt8) :
    Option (CString × List UInt8) :=
  let found := (input.take width).takeWhile condition
  if found = [] then none else some (ofBuffer found, input.drop found.length)

def scan : Kind → List UInt8 → Option (Value × List UInt8)
  | .text, input => (scanText input).map fun result ↦ (.text result.1, result.2)
  | .word width, input =>
      (scanBounded width (fun byte ↦ !isSpace byte) (input.dropWhile isSpace)).map fun result ↦
        (.text result.1, result.2)
  | .span width stop, input =>
      (scanBounded width (fun byte ↦ byte != stop) input).map fun result ↦
        (.text result.1, result.2)
  | .byte, byte :: rest => some (.byte byte, rest)
  | .byte, [] => none
  | .hex bits, input =>
      (scanHex input).map fun result ↦ (.integer ((Kind.hex bits).convert result.1), result.2)
  | .ranges width ranges, input =>
      (scanBounded width
        (fun byte ↦ ranges.any fun range ↦ range.1 ≤ byte && byte ≤ range.2) input).map
        fun result ↦ (.text result.1, result.2)
  | kind, input => (scanInteger input).map fun result ↦ (.integer (kind.convert result.1), result.2)

/-- The values that `sscanf` assigns. -/
def sscanf : List Directive → List UInt8 → List Value
  | [], _ => []
  | .blank :: format, input => sscanf format (input.dropWhile isSpace)
  | .literal byte :: format, input =>
      if input.head? = some byte then sscanf format input.tail else []
  | .convert kind assigned :: format, input =>
      match scan kind input with
      | none => []
      | some (value, rest) =>
          if assigned then value :: sscanf format rest else sscanf format rest

theorem sscanf_blank (format : List Directive) (input : List UInt8) :
    sscanf (.blank :: format) input = sscanf format (input.dropWhile isSpace) := rfl

theorem sscanf_literal (byte : UInt8) (format : List Directive) (input : List UInt8) :
    sscanf (.literal byte :: format) input =
      if input.head? = some byte then sscanf format input.tail else [] := rfl

/-- A text in the format is matched as a whole. -/
theorem sscanf_literals (text : List UInt8) (format : List Directive) (input : List UInt8) :
    sscanf (text.map .literal ++ format) input =
      if input.take text.length = text then sscanf format (input.drop text.length) else [] := by
  induction text generalizing input with
  | nil => rfl
  | cons byte text ih =>
    rw [List.map_cons, List.cons_append, sscanf_literal, ih]
    cases input with
    | nil => rfl
    | cons first input =>
      simp only [List.head?_cons, List.tail_cons, List.length_cons, List.take_succ_cons,
        List.drop_succ_cons, List.cons.injEq, Option.some_inj]
      split_ifs <;> simp_all

theorem sscanf_assigned {kind : Kind} {input rest : List UInt8} {value : Value}
    (h : scan kind input = some (value, rest)) (format : List Directive) :
    sscanf (.convert kind true :: format) input = value :: sscanf format rest := by
  rw [sscanf, h]
  rfl

/-- The conversion is one of a number. -/
def Kind.numeric : Kind → Bool
  | .signed _ | .unsigned _ => true
  | _ => false

/-- A row of numbers, each after white space. -/
def numbers (fields : List (Kind × Bool)) : List Directive :=
  fields.flatMap fun field ↦ [.blank, .convert field.1 field.2]

/-- A row of printed numbers, each after a blank. -/
def printed (values : List ℤ) : List UInt8 :=
  values.flatMap fun value ↦ 32 :: (ofInt value).bytes

/-! ## Splitting the input -/

theorem dropWhile_append_cons {condition : UInt8 → Bool} {byte : UInt8} (hbyte : ¬condition byte)
    (front back : List UInt8) :
    (front ++ byte :: back).dropWhile condition = front.dropWhile condition ++ byte :: back := by
  induction front with
  | nil => exact List.dropWhile_cons_of_neg hbyte
  | cons head front ih =>
    by_cases hhead : condition head
    · rw [List.cons_append, List.dropWhile_cons_of_pos hhead, List.dropWhile_cons_of_pos hhead, ih]
    · rw [List.cons_append, List.dropWhile_cons_of_neg hhead, List.dropWhile_cons_of_neg hhead,
        List.cons_append]

theorem takeWhile_append_of_head {condition : UInt8 → Bool} {front back : List UInt8}
    (hfront : ∀ byte ∈ front, condition byte) (hback : ∀ byte ∈ back.head?, ¬condition byte) :
    (front ++ back).takeWhile condition = front := by
  cases back with
  | nil => rw [List.append_nil, List.takeWhile_eq_self_iff.2 hfront]
  | cons byte back =>
    rw [takeWhile_append_cons (hback byte rfl), List.takeWhile_eq_self_iff.2 hfront]

theorem dropWhile_append_of_head {condition : UInt8 → Bool} {front back : List UInt8}
    (hfront : ∀ byte ∈ front, condition byte) (hback : ∀ byte ∈ back.head?, ¬condition byte) :
    (front ++ back).dropWhile condition = back := by
  cases back with
  | nil => rw [List.append_nil, List.dropWhile_eq_nil_iff.2 hfront]
  | cons byte back =>
    rw [dropWhile_append_cons (hback byte rfl), List.dropWhile_eq_nil_iff.2 hfront, List.nil_append]

theorem takeWhile_of_head {condition : UInt8 → Bool} {input : List UInt8}
    (h : ∀ byte ∈ input.head?, ¬condition byte) : input.takeWhile condition = [] := by
  cases input with
  | nil => rfl
  | cons byte rest => exact List.takeWhile_cons_of_neg (h byte rfl)

theorem dropWhile_of_head {condition : UInt8 → Bool} {input : List UInt8}
    (h : ∀ byte ∈ input.head?, ¬condition byte) : input.dropWhile condition = input := by
  cases input with
  | nil => rfl
  | cons byte rest => exact List.dropWhile_cons_of_neg (h byte rfl)

/-- The first element that fails the condition. -/
theorem exists_eq_append_cons {condition : UInt8 → Bool} {bytes : List UInt8}
    (h : ¬∀ byte ∈ bytes, condition byte) :
    ∃ front byte back, bytes = front ++ byte :: back ∧ (∀ other ∈ front, condition other) ∧
      ¬condition byte := by
  cases hback : bytes.dropWhile condition with
  | nil => exact absurd (List.dropWhile_eq_nil_iff.1 hback) h
  | cons byte back =>
    have hhead := List.head?_dropWhile_not condition bytes
    rw [hback, List.head?_cons] at hhead
    refine ⟨bytes.takeWhile condition, byte, back, ?_, fun _ ↦ List.mem_takeWhile_imp,
      by simpa using hhead⟩
    rw [← hback, List.takeWhile_append_dropWhile]

theorem mem_head?_take {list : List UInt8} {count : ℕ} {byte : UInt8}
    (h : byte ∈ (list.take count).head?) : byte ∈ list.head? := by
  cases list with
  | nil => simp at h
  | cons first rest =>
    cases count with
    | zero => cases h
    | succ count => exact h

/-! ## Printed numbers -/

theorem digitsValue_cons {byte : UInt8} (hbyte : isDigit byte) (rest : List UInt8) (value : ℕ) :
    digitsValue (byte :: rest) value = digitsValue rest (10 * value + (byte.toNat - 48)) :=
  if_pos hbyte

theorem digitsValue_append {front : List UInt8} (hfront : ∀ byte ∈ front, isDigit byte)
    (back : List UInt8) (value : ℕ) :
    digitsValue (front ++ back) value = digitsValue back (digitsValue front value) := by
  induction front generalizing value with
  | nil => rfl
  | cons byte front ih =>
    have hbyte := hfront byte List.mem_cons_self
    rw [List.cons_append, digitsValue_cons hbyte, digitsValue_cons hbyte,
      ih fun other hmem ↦ hfront other (List.mem_cons_of_mem _ hmem)]

theorem isDigit_iff {byte : UInt8} : isDigit byte ↔ 48 ≤ byte.toNat ∧ byte.toNat ≤ 57 := by
  unfold isDigit
  rw [Bool.and_eq_true, decide_eq_true_iff, decide_eq_true_iff, UInt8.le_iff_toNat_le,
    UInt8.le_iff_toNat_le]
  rfl

/-- Each digit makes the number at most ten times as large. -/
theorem digitsValue_lt {digits : List UInt8} (hdigits : ∀ byte ∈ digits, isDigit byte)
    (value : ℕ) : digitsValue digits value < (value + 1) * 10 ^ digits.length := by
  induction digits generalizing value with
  | nil => simp [digitsValue]
  | cons byte digits ih =>
    have hbyte := hdigits byte List.mem_cons_self
    have hlast := (isDigit_iff.1 hbyte).2
    have hrest := ih fun other hmem ↦ hdigits other (List.mem_cons_of_mem _ hmem)
    rw [digitsValue_cons hbyte, List.length_cons, Nat.pow_succ']
    calc
      digitsValue digits (10 * value + (byte.toNat - 48)) <
          (10 * value + (byte.toNat - 48) + 1) * 10 ^ digits.length := hrest _
      _ ≤ (value + 1) * 10 * 10 ^ digits.length := Nat.mul_le_mul_right _ (by omega)
      _ = (value + 1) * (10 * 10 ^ digits.length) := Nat.mul_assoc _ _ _

theorem isDigit_char {digit : ℕ} (h : digit < 10) :
    isDigit (UInt8.ofNat (48 + digit)) ∧ (UInt8.ofNat (48 + digit)).toNat - 48 = digit := by
  have hchar : ∀ digit < 10, isDigit (UInt8.ofNat (48 + digit)) ∧
      (UInt8.ofNat (48 + digit)).toNat - 48 = digit := by decide
  exact hchar digit h

theorem isDigit_of_mem_map {digits : List ℕ} (hdigits : ∀ digit ∈ digits, digit < 10)
    {byte : UInt8} (h : byte ∈ digits.map fun digit ↦ UInt8.ofNat (48 + digit)) : isDigit byte := by
  obtain ⟨digit, hdigit, rfl⟩ := List.mem_map.1 h
  exact (isDigit_char (hdigits digit hdigit)).1

/-- The digits of a number are read from the last one to the first. -/
theorem digitsValue_reverse {digits : List ℕ} (hdigits : ∀ digit ∈ digits, digit < 10) :
    digitsValue (digits.map fun digit ↦ UInt8.ofNat (48 + digit)).reverse 0 =
      Nat.ofDigits 10 digits := by
  induction digits with
  | nil => rfl
  | cons digit digits ih =>
    have hlast := isDigit_char (hdigits digit List.mem_cons_self)
    have hrest : ∀ other ∈ digits, other < 10 := fun other hmem ↦
      hdigits other (List.mem_cons_of_mem _ hmem)
    have hfront : ∀ byte ∈ (digits.map fun digit ↦ UInt8.ofNat (48 + digit)).reverse,
        isDigit byte := fun byte hmem ↦ isDigit_of_mem_map hrest (List.mem_reverse.1 hmem)
    calc
      digitsValue ((digit :: digits).map fun digit ↦ UInt8.ofNat (48 + digit)).reverse 0 =
          digitsValue [UInt8.ofNat (48 + digit)] (Nat.ofDigits 10 digits) := by
        rw [List.map_cons, List.reverse_cons, digitsValue_append hfront, ih hrest]
      _ = 10 * Nat.ofDigits 10 digits + digit := by
        rw [digitsValue_cons hlast.1, hlast.2, digitsValue]
      _ = Nat.ofDigits 10 (digit :: digits) := by
        rw [Nat.ofDigits_cons, Nat.add_comm]

theorem isDigit_of_mem_digitBytes {number : ℕ} {byte : UInt8} (h : byte ∈ digitBytes number) :
    isDigit byte :=
  isDigit_of_mem_map (fun _ hdigit ↦ Nat.digits_lt_base (by decide) hdigit) h

theorem digitsValue_digitBytes (number : ℕ) :
    digitsValue (digitBytes number).reverse 0 = number := by
  unfold digitBytes
  rw [digitsValue_reverse fun _ hdigit ↦ Nat.digits_lt_base (by decide) hdigit, Nat.ofDigits_digits]

/-- What `%d` prints behind the sign. -/
def magnitude (number : ℤ) : List UInt8 :=
  if number = 0 then [48] else (digitBytes number.natAbs).reverse

theorem isDigit_of_mem_magnitude {number : ℤ} {byte : UInt8} (h : byte ∈ magnitude number) :
    isDigit byte := by
  unfold magnitude at h
  split_ifs at h
  · rw [List.mem_singleton.1 h]
    decide
  · exact isDigit_of_mem_digitBytes (List.mem_reverse.1 h)

theorem magnitude_ne_nil (number : ℤ) : magnitude number ≠ [] := by
  unfold magnitude
  split_ifs with hzero
  · simp
  · simp [digitBytes, hzero]

theorem head_magnitude (number : ℤ) (tail : List UInt8) :
    ∀ byte ∈ (magnitude number ++ tail).head?, isDigit byte := by
  intro byte hbyte
  rw [List.head?_append_of_ne_nil _ (magnitude_ne_nil number)] at hbyte
  exact isDigit_of_mem_magnitude (List.mem_of_mem_head? hbyte)

theorem digitsValue_magnitude (number : ℤ) : digitsValue (magnitude number) 0 = number.natAbs := by
  unfold magnitude
  split_ifs with hzero
  · rw [hzero]
    decide
  · exact digitsValue_digitBytes _

theorem bytes_ofInt (number : ℤ) :
    (ofInt number).bytes = (if number < 0 then [45] else []) ++ magnitude number := rfl

theorem mem_bytes_ofInt {number : ℤ} {byte : UInt8} (h : byte ∈ (ofInt number).bytes) :
    byte = 45 ∨ isDigit byte := by
  rw [bytes_ofInt, List.mem_append] at h
  rcases h with hsign | hdigit
  · split_ifs at hsign
    · exact .inl (List.mem_singleton.1 hsign)
    · cases hsign
  · exact .inr (isDigit_of_mem_magnitude hdigit)

theorem le_of_mem_bytes_ofInt {number : ℤ} {byte : UInt8} (h : byte ∈ (ofInt number).bytes) :
    45 ≤ byte.toNat := by
  rcases mem_bytes_ofInt h with rfl | hdigit
  · decide
  · exact le_trans (by decide) (isDigit_iff.1 hdigit).1

theorem length_bytes_ofInt_le {number : ℤ} {count : ℕ} (hcount : 0 < count)
    (h : number.natAbs < 10 ^ count) : (ofInt number).bytes.length ≤ count + 1 := by
  have hmagnitude : (magnitude number).length ≤ count := by
    unfold magnitude
    split_ifs
    · exact hcount
    · rw [List.length_reverse]
      exact length_digitBytes_le h
  rw [bytes_ofInt, List.length_append]
  split_ifs
  · rw [List.length_singleton]
    omega
  · rw [List.length_nil]
    omega

theorem mem_printed {values : List ℤ} {byte : UInt8} (h : byte ∈ printed values) :
    byte = 32 ∨ byte = 45 ∨ isDigit byte := by
  obtain ⟨value, -, hmem⟩ := List.mem_flatMap.1 h
  rcases List.mem_cons.1 hmem with hblank | hnumber
  · exact .inl hblank
  · exact .inr (mem_bytes_ofInt hnumber)

theorem length_printed_le {values : List ℤ} {count : ℕ} (hcount : 0 < count)
    (h : ∀ value ∈ values, value.natAbs < 10 ^ count) :
    (printed values).length ≤ (count + 2) * values.length := by
  induction values with
  | nil => exact Nat.zero_le _
  | cons value values ih =>
    have hvalue := length_bytes_ofInt_le hcount (h value List.mem_cons_self)
    have hrest := ih fun other hmem ↦ h other (List.mem_cons_of_mem _ hmem)
    have hsplit : printed (value :: values) = 32 :: (ofInt value).bytes ++ printed values := rfl
    rw [hsplit, List.length_append, List.length_cons, List.length_cons, Nat.mul_succ]
    omega

/-- A byte from the digits on is no white space and no sign. -/
theorem notSpace_of_le {byte : UInt8} (h : 48 ≤ byte.toNat) :
    ¬isSpace byte ∧ byte ≠ 45 ∧ byte ≠ 43 := by
  refine ⟨fun hspace ↦ ?_, ?_, ?_⟩
  · unfold isSpace at hspace
    rw [Bool.or_eq_true, Bool.and_eq_true, beq_iff_eq, decide_eq_true_iff, decide_eq_true_iff,
      UInt8.le_iff_toNat_le, UInt8.le_iff_toNat_le] at hspace
    rcases hspace with rfl | ⟨-, hhigh⟩
    · exact absurd h (by decide)
    · exact absurd (h.trans hhigh) (by decide)
  · rintro rfl
    exact absurd h (by decide)
  · rintro rfl
    exact absurd h (by decide)

theorem notSpace_of_isDigit {byte : UInt8} (h : isDigit byte) :
    ¬isSpace byte ∧ byte ≠ 45 ∧ byte ≠ 43 :=
  notSpace_of_le (isDigit_iff.1 h).1

theorem scanSign_of_ne {input : List UInt8} (h : ∀ byte ∈ input.head?, byte ≠ 45 ∧ byte ≠ 43) :
    scanSign input = (1, input) := by
  unfold scanSign
  split
  · exact absurd rfl (h _ rfl).1
  · exact absurd rfl (h _ rfl).2
  · rfl

/-- A printed number does not start with white space. -/
theorem head_printed (number : ℤ) (tail : List UInt8) :
    ∀ byte ∈ ((ofInt number).bytes ++ tail).head?, ¬isSpace byte := by
  rw [bytes_ofInt]
  split_ifs with hneg
  · rintro _ ⟨⟩
    decide
  · intro byte hbyte
    exact (notSpace_of_isDigit (head_magnitude number tail byte hbyte)).1

/-- A printed number is read back. -/
theorem scanInteger_printed (number : ℤ) {tail : List UInt8}
    (htail : ∀ byte ∈ tail.head?, ¬isDigit byte) :
    scanInteger ((ofInt number).bytes ++ tail) = some (number, tail) := by
  have hsign : scanSign ((ofInt number).bytes ++ tail) =
      (if number < 0 then -1 else 1, magnitude number ++ tail) := by
    rw [bytes_ofInt]
    split_ifs with hneg
    · rfl
    · apply scanSign_of_ne
      intro byte hbyte
      exact (notSpace_of_isDigit (head_magnitude number tail byte hbyte)).2
  have hdigits : ∀ byte ∈ magnitude number, isDigit byte := fun _ ↦ isDigit_of_mem_magnitude
  have hvalue : (if number < 0 then -1 else 1) * ((number.natAbs : ℕ) : ℤ) = number := by
    split_ifs <;> omega
  unfold scanInteger
  rw [dropWhile_of_head (head_printed number tail), hsign]
  simp only [takeWhile_append_of_head hdigits htail, dropWhile_append_of_head hdigits htail,
    magnitude_ne_nil, if_false, digitsValue_magnitude, hvalue]

/-- The value of the leading digits depends on these alone. -/
theorem digitsValue_takeWhile (input : List UInt8) (value : ℕ) :
    digitsValue (input.takeWhile isDigit) value = digitsValue input value := by
  induction input generalizing value with
  | nil => rfl
  | cons byte rest ih =>
    by_cases hbyte : isDigit byte
    · rw [List.takeWhile_cons_of_pos hbyte, digitsValue_cons hbyte, digitsValue_cons hbyte, ih]
    · rw [List.takeWhile_cons_of_neg hbyte, digitsValue, digitsValue]
      exact (if_neg hbyte).symm

/-- `strtol` finds the number that a conversion finds. -/
theorem strtol_of_scanInteger {string : CString} {number : ℤ} {rest : List UInt8}
    (h : scanInteger string.bytes = some (number, rest)) :
    string.strtol = max (-2 ^ 63) (min (2 ^ 63 - 1) number) := by
  unfold scanInteger at h
  dsimp only at h
  split_ifs at h with hnone
  obtain ⟨rfl, -⟩ := Prod.mk.inj (Option.some.inj h)
  unfold strtol
  dsimp only
  rw [digitsValue_takeWhile]
  generalize string.bytes.dropWhile isSpace = input
  unfold scanSign
  split <;> simp

theorem strtol_ofInt (number : ℤ) :
    (ofInt number).strtol = max (-2 ^ 63) (min (2 ^ 63 - 1) number) := by
  have hscan := scanInteger_printed number
    (fun byte (hbyte : byte ∈ ([] : List UInt8).head?) ↦ nomatch hbyte)
  rw [List.append_nil] at hscan
  exact strtol_of_scanInteger hscan

/-- White space in front of a number does not matter. -/
theorem scanInteger_blanks {blanks : List UInt8} (h : ∀ byte ∈ blanks, isSpace byte)
    (input : List UInt8) : scanInteger (blanks ++ input) = scanInteger input := by
  unfold scanInteger
  rw [List.dropWhile_append_of_pos h]

theorem scanInteger_dropWhile (input : List UInt8) :
    scanInteger (input.dropWhile isSpace) = scanInteger input := by
  have htrimmed : ∀ byte ∈ (input.dropWhile isSpace).head?, ¬isSpace byte := by
    intro byte hbyte
    have hnot := List.head?_dropWhile_not isSpace input
    rw [hbyte] at hnot
    simpa using hnot
  unfold scanInteger
  rw [dropWhile_of_head htrimmed]

/-- A row of digits is read up to the byte behind it. -/
theorem scanInteger_digits {digits tail : List UInt8} (hdigits : ∀ byte ∈ digits, isDigit byte)
    (hne : digits ≠ []) (htail : ∀ byte ∈ tail.head?, ¬isDigit byte) :
    scanInteger (digits ++ tail) = some ((digitsValue digits 0 : ℤ), tail) := by
  have hhead : ∀ byte ∈ (digits ++ tail).head?, isDigit byte := by
    intro byte hbyte
    rw [List.head?_append_of_ne_nil _ hne] at hbyte
    exact hdigits byte (List.mem_of_mem_head? hbyte)
  have hsign : scanSign ((digits ++ tail).dropWhile isSpace) = (1, digits ++ tail) := by
    rw [dropWhile_of_head fun byte hbyte ↦ (notSpace_of_isDigit (hhead byte hbyte)).1]
    exact scanSign_of_ne fun byte hbyte ↦ (notSpace_of_isDigit (hhead byte hbyte)).2
  unfold scanInteger
  rw [hsign]
  simp only [takeWhile_append_of_head hdigits htail, dropWhile_append_of_head hdigits htail, hne,
    if_false, one_mul]

theorem scan_of_numeric {kind : Kind} (h : kind.numeric) (input : List UInt8) :
    scan kind input =
      (scanInteger input).map fun result ↦ (.integer (kind.convert result.1), result.2) := by
  cases kind with
  | signed bits => rfl
  | unsigned bits => rfl
  | text => cases h
  | word => cases h
  | span => cases h
  | byte => cases h
  | hex => cases h
  | ranges => cases h

/-- A part of the input with white space in front of it, and the conversion that reads it. -/
structure Field where
  kind : Kind
  assigned : Bool
  blanks : List UInt8
  text : List UInt8
  value : Value

/-- The conversion reads the text up to a byte of the given kind behind it. -/
structure Field.Reads (ends : UInt8 → Prop) (field : Field) : Prop where
  blanks : ∀ byte ∈ field.blanks, isSpace byte
  blanks_ne_nil : field.blanks ≠ []
  head : ∀ byte ∈ field.text.head?, ¬isSpace byte
  ne_nil : field.text ≠ []
  scan_eq : ∀ back : List UInt8, (∀ byte ∈ back.head?, ends byte) →
    scan field.kind (field.text ++ back) = some (field.value, back)

/-- The input that a row of fields makes. -/
def rowBytes (row : List Field) : List UInt8 := row.flatMap fun field ↦ field.blanks ++ field.text

/-- The values of the fields that are assigned. -/
def rowValues (row : List Field) : List Value :=
  row.filterMap fun field ↦ if field.assigned then some field.value else none

theorem rowBytes_cons (field : Field) (row : List Field) :
    rowBytes (field :: row) = field.blanks ++ (field.text ++ rowBytes row) := by
  unfold rowBytes
  rw [List.flatMap_cons, List.append_assoc]

theorem Field.Reads.head_append {ends : UInt8 → Prop} {field : Field} (h : field.Reads ends)
    (back : List UInt8) : ∀ byte ∈ (field.text ++ back).head?, ¬isSpace byte := by
  rw [List.head?_append_of_ne_nil _ h.ne_nil]
  exact h.head

/-- A field that is read up to any of some bytes is read up to any of fewer bytes. -/
theorem Field.Reads.mono {ends fewer : UInt8 → Prop} {field : Field} (h : field.Reads ends)
    (himp : ∀ byte, fewer byte → ends byte) : field.Reads fewer where
  blanks := h.blanks
  blanks_ne_nil := h.blanks_ne_nil
  head := h.head
  ne_nil := h.ne_nil
  scan_eq := fun back hback ↦ h.scan_eq back fun byte hbyte ↦ himp byte (hback byte hbyte)

/-- A row of fields is read. -/
theorem sscanf_row {ends : UInt8 → Prop} (hspace : ∀ byte, isSpace byte → ends byte)
    {row : List Field} (hrow : ∀ field ∈ row, field.Reads ends) {tail : List UInt8}
    (htail : ∀ byte ∈ tail.head?, ends byte) :
    sscanf (numbers (row.map fun field ↦ (field.kind, field.assigned))) (rowBytes row ++ tail) =
      rowValues row := by
  induction row with
  | nil => rfl
  | cons field row ih =>
    have hfield := hrow field List.mem_cons_self
    have hrest := ih fun other hmem ↦ hrow other (List.mem_cons_of_mem _ hmem)
    have hnext : ∀ byte ∈ (rowBytes row ++ tail).head?, ends byte := by
      cases row with
      | nil => exact htail
      | cons next row =>
        have hblanks := hrow next (List.mem_cons_of_mem _ List.mem_cons_self)
        intro byte hbyte
        rw [rowBytes_cons, List.append_assoc,
          List.head?_append_of_ne_nil _ hblanks.blanks_ne_nil] at hbyte
        exact hspace byte (hblanks.blanks byte (List.mem_of_mem_head? hbyte))
    have hformat : numbers ((field :: row).map fun field ↦ (field.kind, field.assigned)) =
        .blank :: .convert field.kind field.assigned ::
          numbers (row.map fun field ↦ (field.kind, field.assigned)) := rfl
    rw [rowBytes_cons, hformat, sscanf, List.append_assoc, List.append_assoc,
      dropWhile_append_of_head hfield.blanks (hfield.head_append _), sscanf,
      hfield.scan_eq _ hnext]
    dsimp only
    rw [hrest, rowValues, rowValues, List.filterMap_cons]
    cases field.assigned <;> rfl

/-- A printed number with white space in front of it. -/
def numberField (kind : Kind) (assigned : Bool) (blanks : List UInt8) (number : ℤ) : Field :=
  ⟨kind, assigned, blanks, (ofInt number).bytes, .integer (kind.convert number)⟩

theorem numberField_reads {kind : Kind} (h : kind.numeric) (assigned : Bool) {blanks : List UInt8}
    (hblanks : ∀ byte ∈ blanks, isSpace byte) (hne : blanks ≠ []) (number : ℤ) :
    (numberField kind assigned blanks number).Reads fun byte ↦ ¬isDigit byte where
  blanks := hblanks
  blanks_ne_nil := hne
  head := by
    intro byte hbyte
    exact head_printed number [] byte (by rwa [List.append_nil])
  ne_nil := by
    show (ofInt number).bytes ≠ []
    rw [bytes_ofInt]
    exact List.append_ne_nil_of_right_ne_nil _ (magnitude_ne_nil number)
  scan_eq := by
    intro back hback
    show scan kind ((ofInt number).bytes ++ back) = _
    rw [scan_of_numeric h, scanInteger_printed number hback]
    rfl

theorem not_isDigit_of_isSpace (byte : UInt8) (h : isSpace byte) : ¬isDigit byte :=
  fun hdigit ↦ (notSpace_of_isDigit hdigit).1 h

/-- The values that a row of numbers assigns. -/
def assignedValues (row : List ((Kind × Bool) × ℤ)) : List Value :=
  row.filterMap fun entry ↦
    if entry.1.2 then some (.integer (entry.1.1.convert entry.2)) else none

/-- A printed row of numbers is read back. -/
theorem sscanf_numbers_printed (row : List ((Kind × Bool) × ℤ))
    (hnumeric : ∀ entry ∈ row, entry.1.1.numeric) {tail : List UInt8}
    (htail : ∀ byte ∈ tail.head?, ¬isDigit byte) :
    sscanf (numbers (row.map Prod.fst)) (printed (row.map Prod.snd) ++ tail) =
      assignedValues row := by
  have hfields : ∀ field ∈ row.map fun entry ↦ numberField entry.1.1 entry.1.2 [32] entry.2,
      field.Reads fun byte ↦ ¬isDigit byte := by
    intro field hfield
    obtain ⟨entry, hentry, rfl⟩ := List.mem_map.1 hfield
    have hblanks : ∀ byte ∈ [(32 : UInt8)], isSpace byte := List.forall_mem_singleton.2 rfl
    exact numberField_reads (hnumeric entry hentry) entry.1.2 hblanks (by decide) entry.2
  have hread := sscanf_row not_isDigit_of_isSpace hfields htail
  rw [rowBytes, List.flatMap_map, List.map_map, rowValues, List.filterMap_map] at hread
  rw [printed, List.flatMap_map]
  exact hread

/-- A word is read up to the white space behind it. -/
theorem scanText_word {word tail : List UInt8} (hword : ∀ byte ∈ word, ¬isSpace byte)
    (hne : word ≠ []) (htail : ∀ byte ∈ tail.head?, isSpace byte) :
    scanText (word ++ tail) = some (ofBuffer word, tail) := by
  have hhead : ∀ byte ∈ (word ++ tail).head?, ¬isSpace byte := by
    intro byte hbyte
    rw [List.head?_append_of_ne_nil _ hne] at hbyte
    exact hword byte (List.mem_of_mem_head? hbyte)
  have hfront : ∀ byte ∈ word, !isSpace byte := by simpa using hword
  have hback : ∀ byte ∈ tail.head?, ¬(!isSpace byte) := by simpa using htail
  unfold scanText
  simp only [dropWhile_of_head hhead, takeWhile_append_of_head hfront hback,
    dropWhile_append_of_head hfront hback, hne, if_false]

/-- The bytes that meet the condition are read up to the width or to a byte that does not. -/
theorem scanBounded_append {width : ℕ} {condition : UInt8 → Bool} {found tail : List UInt8}
    (hfound : ∀ byte ∈ found, condition byte) (hne : found ≠ []) (hlength : found.length ≤ width)
    (hstop : found.length = width ∨ ∀ byte ∈ tail.head?, ¬condition byte) :
    scanBounded width condition (found ++ tail) = some (ofBuffer found, tail) := by
  have hhead : ∀ byte ∈ (tail.take (width - found.length)).head?, ¬condition byte := by
    rcases hstop with hfull | hstop
    · rw [hfull, Nat.sub_self]
      exact fun _ hmem ↦ (nomatch hmem)
    · intro byte hbyte
      cases tail with
      | nil =>
        rw [List.take_nil] at hbyte
        cases hbyte
      | cons first rest =>
        cases hroom : width - found.length with
        | zero =>
          rw [hroom] at hbyte
          cases hbyte
        | succ room =>
          rw [hroom] at hbyte
          exact hstop byte hbyte
  unfold scanBounded
  rw [List.take_append, List.take_of_length_le hlength]
  simp only [takeWhile_append_of_head hfound hhead, if_neg hne, List.drop_left]

/-! ## Values in range -/

theorem convert_signed {bits : ℕ} (hpos : 0 < bits) (hbits : bits ≤ 64) {value : ℤ}
    (hlow : -2 ^ (bits - 1) ≤ value) (hhigh : value < 2 ^ (bits - 1)) :
    (Kind.signed bits).convert value = value := by
  have hpow : (2 : ℤ) ^ (bits - 1) ≤ 2 ^ 63 := pow_le_pow_right₀ (by decide) (by omega)
  have hdouble : (2 : ℤ) ^ bits = 2 * 2 ^ (bits - 1) := by
    rw [← pow_succ', Nat.sub_add_cancel hpos]
  show (max (-2 ^ 63) (min (2 ^ 63 - 1) value)).bmod (2 ^ bits) = value
  rw [min_eq_right (by omega), max_eq_right (by omega)]
  apply Int.bmod_eq_of_le_mul_two
  · push_cast
    omega
  · push_cast
    omega

theorem convert_unsigned {bits : ℕ} (hbits : bits ≤ 64) {value : ℤ} (hlow : 0 ≤ value)
    (hhigh : value < 2 ^ bits) : (Kind.unsigned bits).convert value = value := by
  have hpow : (2 : ℤ) ^ bits ≤ 2 ^ 64 := pow_le_pow_right₀ (by decide) hbits
  show (if value.natAbs < 2 ^ 64 then value % 2 ^ 64 else 2 ^ 64 - 1) % 2 ^ bits = value
  rw [if_pos (by omega), Int.emod_eq_of_lt hlow (by omega), Int.emod_eq_of_lt hlow hhigh]

/-! ## Rows that are interrupted -/

section Interrupted

/-- A byte that belongs to no number. -/
def Stops (byte : UInt8) : Prop := ¬isSpace byte ∧ ¬isDigit byte ∧ byte ≠ 45 ∧ byte ≠ 43

/-- A byte behind the digits belongs to no number. -/
theorem stops_of_lt {byte : UInt8} (h : 57 < byte.toNat) : Stops byte := by
  have hle : 48 ≤ byte.toNat := by omega
  have hdigit : ¬isDigit byte := fun hdigit ↦ absurd (isDigit_iff.1 hdigit).2 (not_le.2 h)
  exact ⟨(notSpace_of_le hle).1, hdigit, (notSpace_of_le hle).2⟩

variable {stop : UInt8} (hstop : Stops stop)
include hstop

theorem scanSign_interrupted (front tail : List UInt8) :
    ∃ sign, ∃ rest : List UInt8, (rest = front ∨ rest.length < front.length) ∧
      scanSign (front ++ stop :: tail) = (sign, rest ++ stop :: tail) := by
  cases front with
  | nil => exact ⟨1, [], .inl rfl, scanSign_of_ne (by rintro _ ⟨⟩; exact hstop.2.2)⟩
  | cons byte front =>
    by_cases hminus : byte = 45
    · subst hminus
      exact ⟨-1, front, .inr (Nat.lt_succ_self _), rfl⟩
    · by_cases hplus : byte = 43
      · subst hplus
        exact ⟨1, front, .inr (Nat.lt_succ_self _), rfl⟩
      · refine ⟨1, byte :: front, .inl rfl, scanSign_of_ne ?_⟩
        rintro _ ⟨⟩
        exact ⟨hminus, hplus⟩

/-- A number that is read before a stop has a digit, and in front of it a byte that tells it from
a number before it.  It ends where its digits do. -/
theorem scanInteger_interrupted (front tail : List UInt8) :
    scanInteger (front ++ stop :: tail) = none ∨
      ∃ value, ∃ rest : List UInt8, rest.length < front.length ∧
        ((∀ byte ∈ front.head?, ¬isDigit byte) → rest.length + 1 < front.length) ∧
        (∀ byte ∈ rest.head?, ¬isDigit byte) ∧
        scanInteger (front ++ stop :: tail) = some (value, rest ++ stop :: tail) := by
  obtain ⟨sign, body, hbody, hsigned⟩ :=
    scanSign_interrupted hstop (front.dropWhile isSpace) tail
  have htrim := List.dropWhile_sublist isSpace (l := front)
  have hlength := congrArg List.length (List.takeWhile_append_dropWhile (p := isDigit) (l := body))
  rw [List.length_append] at hlength
  have hbodyLe : body.length ≤ front.length := by
    have := htrim.length_le
    rcases hbody with rfl | hbody <;> omega
  unfold scanInteger
  rw [dropWhile_append_cons hstop.1, hsigned]
  simp only [takeWhile_append_cons hstop.2.1, dropWhile_append_cons hstop.2.1]
  by_cases hnone : body.takeWhile isDigit = []
  · exact .inl (if_pos hnone)
  · have hpos := List.length_pos_of_ne_nil hnone
    refine .inr ⟨_, body.dropWhile isDigit, by omega, fun hhead ↦ ?_, fun byte hbyte ↦ ?_,
      if_neg hnone⟩
    · -- the digits do not start at the first byte, so a blank or a sign is in front of them
      have hne : body ≠ front := by
        rintro rfl
        exact hnone (takeWhile_of_head hhead)
      have hshort : body.length < front.length := by
        refine lt_of_le_of_ne hbodyLe fun heq ↦ hne ?_
        rcases hbody with rfl | hbody
        · exact htrim.eq_of_length heq
        · exact absurd htrim.length_le (by omega)
      omega
    · have hnot := List.head?_dropWhile_not isDigit body
      rw [hbyte] at hnot
      simpa using hnot

/-- A row of numbers that meets a stop.  Every number but the first takes two bytes before the stop,
the first one if it does not start with a digit, so with fewer bytes the row is not read to its end
and its last value is not assigned. -/
theorem length_sscanf_interrupted {fields : List (Kind × Bool)}
    (hnumeric : ∀ field ∈ fields, field.1.numeric) (hlast : ∀ field ∈ fields.getLast?, field.2)
    (front : List UInt8)
    (hfront : front.length + 1 < 2 * fields.length ∨
      (∀ byte ∈ front.head?, ¬isDigit byte) ∧ front.length < 2 * fields.length)
    (tail : List UInt8) (format : List Directive) :
    (sscanf (numbers fields ++ format) (front ++ stop :: tail)).length <
      fields.countP Prod.snd := by
  induction fields generalizing front with
  | nil => simp at hfront
  | cons field fields ih =>
    obtain ⟨kind, assigned⟩ := field
    have hformat : numbers ((kind, assigned) :: fields) ++ format =
        .blank :: .convert kind assigned :: (numbers fields ++ format) := rfl
    have hpos : 0 < ((kind, assigned) :: fields).countP Prod.snd := by
      rw [List.countP_pos_iff]
      have hne : (kind, assigned) :: fields ≠ [] := List.cons_ne_nil _ _
      exact ⟨_, List.getLast_mem hne, hlast _ (List.getLast?_eq_some_getLast hne)⟩
    rw [hformat, sscanf, sscanf, scan_of_numeric (hnumeric (kind, assigned) List.mem_cons_self),
      scanInteger_dropWhile]
    rcases scanInteger_interrupted hstop front tail with
      hnone | ⟨value, rest, hrest, hgap, hend, hsome⟩
    · rw [hnone]
      exact hpos
    · rw [hsome, Option.map_some]
      rw [List.length_cons] at hfront
      have hshort : rest.length < 2 * fields.length := by
        rcases hfront with hfront | ⟨hstart, hfront⟩
        · omega
        · have := hgap hstart
          omega
      have hmore : fields ≠ [] := List.length_pos_iff.1 (by omega)
      have hread := ih (fun other hmem ↦ hnumeric other (List.mem_cons_of_mem _ hmem))
        (fun other hmem ↦ hlast other (by rwa [List.getLast?_cons_of_ne_nil hmore])) rest
        (.inr ⟨hend, hshort⟩)
      cases assigned with
      | false => simpa using hread
      | true => simpa using hread

end Interrupted

end HiFetch.Scanf
