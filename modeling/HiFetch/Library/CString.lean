import Mathlib.Data.List.Basic
import Mathlib.Data.List.Infix
import Mathlib.Data.List.TakeWhile
import Mathlib.Data.Nat.Digits.Lemmas
import Mathlib.Tactic.SplitIfs

/-!
# C strings

A C string is a list of bytes other than NUL, and a buffer is a list of bytes.  The string in a
buffer ends before the first NUL, so what a buffer holds behind its first NUL is not part of the
string.
-/

namespace HiFetch

/-- The bytes of a C string, without the NUL that ends it. -/
@[ext]
structure CString where
  bytes : List UInt8
  noNul : 0 ∉ bytes
deriving DecidableEq

namespace CString

/-- `strlen`. -/
def length (string : CString) : ℕ := string.bytes.length

/-- The first `count` bytes, or the whole string if it is shorter. -/
def take (string : CString) (count : ℕ) : CString :=
  ⟨string.bytes.take count, fun hmem ↦ string.noNul (List.mem_of_mem_take hmem)⟩

/-- The string from a position on. -/
def drop (string : CString) (count : ℕ) : CString :=
  ⟨string.bytes.drop count, fun hmem ↦ string.noNul (List.mem_of_mem_drop hmem)⟩

/-- One string behind the other. -/
instance : Append CString where
  append first second := ⟨first.bytes ++ second.bytes, fun hmem ↦
    (List.mem_append.1 hmem).elim first.noNul second.noNul⟩

/-- The string that starts at the first byte of a buffer. -/
def ofBuffer (buffer : List UInt8) : CString :=
  ⟨buffer.takeWhile fun byte ↦ decide (byte ≠ 0), fun hmem ↦ by
    simpa using List.mem_takeWhile_imp hmem⟩

@[simp]
theorem bytes_take (string : CString) (count : ℕ) :
    (string.take count).bytes = string.bytes.take count := rfl

@[simp]
theorem bytes_append (first second : CString) :
    (first ++ second).bytes = first.bytes ++ second.bytes := rfl

theorem length_append (first second : CString) :
    (first ++ second).length = first.length + second.length := List.length_append

theorem length_take_le (string : CString) (count : ℕ) : (string.take count).length ≤ count := by
  unfold length
  rw [bytes_take, List.length_take]
  exact Nat.min_le_left _ _

theorem take_eq_self {string : CString} {count : ℕ} (h : string.length ≤ count) :
    string.take count = string := by
  ext1
  rw [bytes_take, List.take_of_length_le h]

/-- The empty string. -/
def empty : CString := ⟨[], by simp⟩

theorem length_eq_zero_iff {string : CString} : string.length = 0 ↔ string = empty := by
  rw [CString.ext_iff]
  exact List.length_eq_zero_iff

/-- A text in ASCII. -/
def ofText (text : String) : CString :=
  ofBuffer (text.toList.map fun character ↦ UInt8.ofNat character.toNat)

example : ofText "rm " = ⟨[114, 109, 32], by decide⟩ := by decide

/-! ## Strings in buffers -/

theorem bytes_ofBuffer (buffer : List UInt8) :
    (ofBuffer buffer).bytes = buffer.takeWhile fun byte ↦ decide (byte ≠ 0) := rfl

@[simp]
theorem ofBuffer_nil : ofBuffer [] = empty := rfl

/-- An element that fails the condition ends the front part of a list. -/
theorem takeWhile_append_cons {condition : UInt8 → Bool} {byte : UInt8}
    (hbyte : ¬condition byte) (front back : List UInt8) :
    (front ++ byte :: back).takeWhile condition = front.takeWhile condition := by
  rw [List.takeWhile_append]
  split_ifs with hwhole
  · rw [List.takeWhile_cons_of_neg hbyte, List.append_nil]
    exact (List.IsPrefix.eq_of_length (List.takeWhile_prefix _) hwhole).symm
  · rfl

/-- What follows the first NUL does not matter. -/
@[simp]
theorem ofBuffer_append_nul (front back : List UInt8) :
    ofBuffer (front ++ 0 :: back) = ofBuffer front := by
  ext1
  exact takeWhile_append_cons (by simp) front back

@[simp]
theorem ofBuffer_bytes (string : CString) : ofBuffer string.bytes = string := by
  ext1
  rw [bytes_ofBuffer, List.takeWhile_eq_self_iff]
  intro byte hmem
  apply decide_eq_true
  intro hzero
  exact string.noNul (hzero ▸ hmem)

/-- A buffer without a NUL is all of its string. -/
theorem bytes_ofBuffer_of_notMem {buffer : List UInt8} (h : 0 ∉ buffer) :
    (ofBuffer buffer).bytes = buffer :=
  congrArg CString.bytes (ofBuffer_bytes ⟨buffer, h⟩)

/-- A buffer that contains a NUL is a string, the NUL that ends it, and anything. -/
theorem exists_eq_append_nul {buffer : List UInt8} (h : 0 ∈ buffer) :
    ∃ back, buffer = (ofBuffer buffer).bytes ++ 0 :: back := by
  have hsplit : buffer = (ofBuffer buffer).bytes ++
      buffer.dropWhile fun byte ↦ decide (byte ≠ 0) := List.takeWhile_append_dropWhile.symm
  cases hback : buffer.dropWhile fun byte ↦ decide (byte ≠ 0) with
  | nil =>
    rw [hback, List.append_nil] at hsplit
    exact absurd (hsplit ▸ h) (ofBuffer buffer).noNul
  | cons byte back =>
    have hzero := List.head?_dropWhile_not (fun byte : UInt8 ↦ decide (byte ≠ 0)) buffer
    rw [hback, List.head?_cons] at hzero
    obtain rfl : byte = 0 := by simpa using hzero
    exact ⟨back, by rw [← hback]; exact hsplit⟩

theorem length_ofBuffer_lt_iff {buffer : List UInt8} :
    (ofBuffer buffer).length < buffer.length ↔ 0 ∈ buffer := by
  constructor
  · intro hlt
    by_contra hnone
    unfold length at hlt
    rw [bytes_ofBuffer_of_notMem hnone] at hlt
    exact absurd hlt (lt_irrefl _)
  · intro hnul
    obtain ⟨back, hback⟩ := exists_eq_append_nul hnul
    have hlength := congrArg List.length hback
    rw [List.length_append, List.length_cons] at hlength
    unfold length
    omega

theorem ofBuffer_eq_empty_iff {buffer : List UInt8} :
    ofBuffer buffer = empty ↔ ∀ byte ∈ buffer.head?, byte = 0 := by
  cases buffer with
  | nil => simp
  | cons byte rest =>
    rw [CString.ext_iff, bytes_ofBuffer, empty, List.takeWhile_eq_nil_iff]
    simp

/-- The test `buffer[0]`. -/
theorem getD_zero_ne_iff {buffer : List UInt8} :
    buffer.getD 0 0 ≠ 0 ↔ ofBuffer buffer ≠ empty := by
  rw [ne_eq, ne_eq, ofBuffer_eq_empty_iff]
  cases buffer <;> simp

/-- Two cuts of the same bytes hold the same string exactly when they are the same cut, or there is
a NUL up to the end of the shorter one. -/
theorem ofBuffer_take_eq_iff {bytes : List UInt8} {short long : ℕ} (hle : short ≤ long)
    (hlong : long ≤ bytes.length) :
    ofBuffer (bytes.take short) = ofBuffer (bytes.take long) ↔
      short = long ∨ 0 ∈ bytes.take (short + 1) := by
  rcases Nat.eq_or_lt_of_le hle with rfl | hlt
  · simp
  have hlonger : bytes.take long =
      bytes.take (short + 1) ++ (bytes.take long).drop (short + 1) := by
    have hsplit := List.take_append_drop (short + 1) (bytes.take long)
    rw [List.take_take, Nat.min_eq_left hlt] at hsplit
    exact hsplit.symm
  have hshorter : bytes.take short = (bytes.take (short + 1)).take short := by
    rw [List.take_take, Nat.min_eq_left (Nat.le_succ short)]
  have hlength : (bytes.take (short + 1)).length = short + 1 := by
    rw [List.length_take]
    omega
  constructor
  · refine fun heq ↦ .inr ?_
    by_contra hnone
    -- the longer cut has a string of more than `short` bytes
    have hbytes := congrArg CString.length heq
    rw [hlonger, length, length, bytes_ofBuffer, bytes_ofBuffer,
      List.takeWhile_append_of_pos, List.length_append, hlength] at hbytes
    · have hstarts := (List.takeWhile_prefix (l := bytes.take short)
        fun byte ↦ decide (byte ≠ 0)).length_le
      rw [List.length_take] at hstarts
      omega
    · intro byte hmem
      exact decide_eq_true fun hzero ↦ hnone (hzero ▸ hmem)
  · rintro (hsame | hnul)
    · exact absurd hsame hlt.ne
    · obtain ⟨front, back, hfront⟩ := List.append_of_mem hnul
      have hback : front.length ≤ short := by
        rw [hfront, List.length_append, List.length_cons] at hlength
        omega
      rw [hlonger, hshorter, hfront, List.append_assoc, List.cons_append, ofBuffer_append_nul,
        List.take_append, List.take_of_length_le hback]
      cases short - front.length with
      | zero => rw [List.take_zero, List.append_nil]
      | succ count => rw [List.take_succ_cons, ofBuffer_append_nul]

/-! ## Numbers -/

/-- `isspace` in the C locale. -/
def isSpace (byte : UInt8) : Bool := byte == 32 || (9 ≤ byte && byte ≤ 13)

/-- The value of the leading decimal digits. -/
def digitsValue : List UInt8 → ℕ → ℕ
  | [], value => value
  | byte :: rest, value =>
      if 48 ≤ byte && byte ≤ 57 then digitsValue rest (10 * value + (byte.toNat - 48)) else value

/-- `strtol` with base ten: blanks, a sign, digits; a value out of range is the nearest `long`. -/
def strtol (string : CString) : ℤ :=
  let value : ℤ := match string.bytes.dropWhile isSpace with
    | 45 :: rest => -digitsValue rest 0
    | 43 :: rest => digitsValue rest 0
    | bytes => digitsValue bytes 0
  max (-2 ^ 63) (min (2 ^ 63 - 1) value)

/-- `atoi`: `strtol`, cut to an `int`. -/
def atoi (string : CString) : ℤ := string.strtol.bmod (2 ^ 32)

@[simp]
theorem atoi_empty : atoi empty = 0 := by decide

example : atoi ⟨[32, 45, 52, 50, 10], by decide⟩ = -42 := by decide

/-- The decimal digits of a number, the last one first. -/
def digitBytes (number : ℕ) : List UInt8 :=
  (Nat.digits 10 number).map fun digit ↦ UInt8.ofNat (48 + digit)

theorem zero_notMem_digitBytes (number : ℕ) : 0 ∉ digitBytes number := by
  intro hmem
  obtain ⟨digit, hdigit, hzero⟩ := List.mem_map.1 hmem
  have hchar : ∀ digit < 10, UInt8.ofNat (48 + digit) ≠ 0 := by decide
  exact hchar digit (Nat.digits_lt_base (by decide) hdigit) hzero

theorem digitBytes_injective : Function.Injective digitBytes := by
  have hdigits : ∀ number, (digitBytes number).map (fun byte ↦ byte.toNat - 48) =
      Nat.digits 10 number := by
    intro number
    have hchar : ∀ digit < 10, (UInt8.ofNat (48 + digit)).toNat - 48 = digit := by decide
    calc
      (digitBytes number).map (fun byte ↦ byte.toNat - 48) =
          (Nat.digits 10 number).map fun digit ↦ (UInt8.ofNat (48 + digit)).toNat - 48 := by
        unfold digitBytes
        rw [List.map_map]
        rfl
      _ = (Nat.digits 10 number).map id := by
        apply List.map_congr_left
        intro digit hdigit
        exact hchar digit (Nat.digits_lt_base (by decide) hdigit)
      _ = Nat.digits 10 number := List.map_id _
  intro first second heq
  exact Nat.digits_inj_iff.1 (by rw [← hdigits, ← hdigits, heq])

theorem length_digitBytes_le {number count : ℕ} (h : number < 10 ^ count) :
    (digitBytes number).length ≤ count := by
  unfold digitBytes
  rw [List.length_map]
  exact (Nat.digits_length_le_iff (by decide) number).2 h

/-- A number as `%d` prints it. -/
def ofInt (number : ℤ) : CString where
  bytes :=
    (if number < 0 then [45] else []) ++
      if number = 0 then [48] else (digitBytes number.natAbs).reverse
  noNul := by
    rw [List.mem_append, not_or]
    constructor
    · split_ifs <;> simp
    · split_ifs
      · simp
      · rw [List.mem_reverse]
        exact zero_notMem_digitBytes _

example : (ofInt (-120)).bytes = [45, 49, 50, 48] := by decide

/-! ## Comparing and searching -/

/-- `strcmp`: the difference of the first two bytes that differ. -/
def strcmp (first second : CString) : ℤ :=
  compare first.bytes second.bytes
where
  compare : List UInt8 → List UInt8 → ℤ
    | [], [] => 0
    | byte :: _, [] => byte.toNat
    | [], byte :: _ => -byte.toNat
    | byte :: rest, other :: others =>
        if byte = other then compare rest others else byte.toNat - other.toNat

theorem strcmp_eq_zero_iff {first second : CString} : strcmp first second = 0 ↔ first = second := by
  have hcompare : ∀ one other : List UInt8, 0 ∉ one → 0 ∉ other →
      (strcmp.compare one other = 0 ↔ one = other) := by
    intro one
    induction one with
    | nil =>
      intro other _ hother
      cases other with
      | nil => simp [strcmp.compare]
      | cons byte rest =>
        have hbyte : byte ≠ 0 := fun hzero ↦ hother (hzero ▸ List.mem_cons_self)
        simpa [strcmp.compare, ← UInt8.toNat_inj] using hbyte
    | cons byte rest ih =>
      intro other hone hother
      have hbyte : byte ≠ 0 := fun hzero ↦ hone (hzero ▸ List.mem_cons_self)
      cases other with
      | nil => simpa [strcmp.compare, ← UInt8.toNat_inj] using hbyte
      | cons next others =>
        unfold strcmp.compare
        split_ifs with heq
        · rw [ih others (fun hmem ↦ hone (List.mem_cons_of_mem _ hmem))
            (fun hmem ↦ hother (List.mem_cons_of_mem _ hmem)), heq, List.cons.injEq,
            and_iff_right rfl]
        · rw [← UInt8.toNat_inj] at heq
          refine iff_of_false (by omega) fun hsame ↦ heq ?_
          rw [(List.cons.inj hsame).1]
  rw [CString.ext_iff]
  exact hcompare first.bytes second.bytes first.noNul second.noNul

/-- The tokens that one `strtok` after the other finds, for one separator. -/
def tokens (string : CString) (separator : UInt8) : List CString :=
  (string.bytes.splitOn separator).filterMap fun piece ↦
    if piece = [] then none else some (ofBuffer piece)

example : tokens ⟨[10, 97, 10, 10, 98], by decide⟩ 10 =
    [⟨[97], by decide⟩, ⟨[98], by decide⟩] := by decide

/-- `strstr` finds the second string in the first one. -/
def occurs (text pattern : CString) : Bool :=
  text.bytes.tails.any fun suffix ↦ pattern.bytes.isPrefixOf suffix

theorem occurs_iff_isInfix {text pattern : CString} :
    occurs text pattern = true ↔ pattern.bytes <:+: text.bytes := by
  unfold occurs
  rw [List.any_eq_true, List.infix_iff_prefix_suffix]
  apply exists_congr
  intro suffix
  rw [List.mem_tails, List.isPrefixOf_iff_prefix, and_comm]

end CString

end HiFetch
