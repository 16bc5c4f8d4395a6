import HiFetch.Library.Search
import HiFetch.Utils.TrimString

/-!
# The text between two patterns

`get_string_between` copies what stands between the first occurrence of one pattern and the next
occurrence of another one, at most 255 bytes of it.
-/

namespace HiFetch.Utils

open CString Search

def maxStr : ℕ := 256

/-- `strstr`, with the place of the occurrence. -/
def strstr (text pattern : CString) : Option ℕ := find pattern.bytes text.bytes

/-- `get_string_between`: the string that it leaves in `dest`. -/
def getStringBetween (src start stop : CString) : CString :=
  match strstr src start with
  | none => empty
  | some place =>
      let s := src.drop (place + start.length)
      match strstr s stop with
      | none => empty
      | some len => s.take (if maxStr ≤ len then maxStr - 1 else len)

theorem take_takeWhile {byte : UInt8} (rest : List UInt8) :
    let len := (rest.takeWhile fun other ↦ decide (other ≠ byte)).length
    rest.take (if maxStr ≤ len then maxStr - 1 else len) =
      (rest.takeWhile fun other ↦ decide (other ≠ byte)).take 255 := by
  intro len
  have hfront : rest.take len = rest.takeWhile fun other ↦ decide (other ≠ byte) :=
    (List.prefix_iff_eq_take.1 (List.takeWhile_prefix _)).symm
  rw [← hfront, List.take_take]
  congr 1
  split_ifs with hlong <;> simp only [maxStr] at * <;> omega

/-- With one byte as the second pattern, the text ends before the first such byte behind the first
pattern. -/
theorem bytes_getStringBetween (src start : CString) {stop : CString} {byte : UInt8}
    (hstop : stop.bytes = [byte]) :
    (getStringBetween src start stop).bytes =
      match behind start.bytes src.bytes with
      | none => []
      | some rest =>
          if byte ∈ rest then (rest.takeWhile fun other ↦ decide (other ≠ byte)).take 255
          else [] := by
  unfold getStringBetween strstr behind
  cases hfind : find start.bytes src.bytes with
  | none => rfl
  | some place =>
    rw [Option.map_some, hstop]
    dsimp only
    by_cases hmem : byte ∈ (src.drop (place + start.length)).bytes
    · rw [find_singleton_of_mem hmem]
      exact (take_takeWhile _).trans (if_pos hmem).symm
    · rw [find_singleton_of_notMem hmem]
      exact (if_neg hmem).symm

/-! ## The destination -/

/-- `get_string_between` with the bytes of `dest`, and with nothing where it leaves them.  A pointer
that is null is `none`. -/
def checkedGetStringBetween (src start stop : Option CString) (dest : List UInt8) :
    Option (List UInt8) :=
  match src, start, stop with
  | some src, some start, some stop =>
      match strstr src start with
      | none => writeBytes dest 0 [0]
      | some place =>
          let s := src.drop (place + start.length)
          match strstr s stop with
          | none => writeBytes dest 0 [0]
          | some len =>
              let len := if maxStr ≤ len then maxStr - 1 else len
              let copied := if 0 < len then writeBytes dest 0 (s.bytes.take len) else some dest
              copied.bind fun dest ↦ writeBytes dest len [0]
  | _, _, _ => writeBytes dest 0 [0]

/-- The text stands between the first occurrence of one pattern and the first occurrence of the
other one behind it. -/
def StandsBetween (src start stop : CString) (text : List UInt8) : Prop :=
  ∃ front rest back, Leftmost start.bytes src.bytes front rest ∧ Leftmost stop.bytes rest text back

/-- A text with a NUL behind it, and then what the destination held. -/
def TerminatedIn (dest text after : List UInt8) : Prop :=
  0 ∉ text ∧ after = text ++ 0 :: dest.drop (text.length + 1)

theorem writeBytes_zero {dest bytes : List UInt8} (h : bytes.length ≤ dest.length) :
    writeBytes dest 0 bytes = some (bytes ++ dest.drop bytes.length) := by
  rw [writeBytes, Nat.zero_add, if_pos h, List.take_zero, List.nil_append]

/-- The copy and the NUL behind it. -/
theorem writeBytes_terminated {dest bytes : List UInt8} (h : bytes.length < dest.length) :
    ((if 0 < bytes.length then writeBytes dest 0 bytes else some dest).bind fun dest ↦
      writeBytes dest bytes.length [0]) =
        some (bytes ++ 0 :: dest.drop (bytes.length + 1)) := by
  have hcopied : (if 0 < bytes.length then writeBytes dest 0 bytes else some dest) =
      some (bytes ++ dest.drop bytes.length) := by
    split_ifs with hpos
    · exact writeBytes_zero h.le
    · obtain rfl : bytes = [] := List.eq_nil_of_length_eq_zero (by omega)
      rfl
  have hroom : bytes.length < (bytes ++ dest.drop bytes.length).length := by
    rw [List.length_append, List.length_drop]
    omega
  rw [hcopied, Option.bind_some, writeBytes_singleton hroom,
    List.set_append_right _ _ (Nat.le_refl _), Nat.sub_self, List.drop_eq_getElem_cons h,
    List.set_cons_zero]

/-- The destination gets the string and a NUL. -/
theorem checkedGetStringBetween_eq (src start stop : CString) {dest : List UInt8}
    (hdest : dest.length = maxStr) :
    checkedGetStringBetween (some src) (some start) (some stop) dest =
      some ((getStringBetween src start stop).bytes ++
        0 :: dest.drop ((getStringBetween src start stop).length + 1)) := by
  have hnone : writeBytes dest 0 [0] =
      some (empty.bytes ++ 0 :: dest.drop (empty.length + 1)) :=
    writeBytes_zero (by rw [hdest]; decide)
  unfold checkedGetStringBetween getStringBetween
  dsimp only
  cases strstr src start with
  | none => exact hnone
  | some place =>
    dsimp only
    generalize src.drop (place + start.length) = s
    cases hlen : strstr s stop with
    | none => exact hnone
    | some len =>
      dsimp only
      have hle := find_le hlen
      generalize hcut : (if maxStr ≤ len then maxStr - 1 else len) = cut
      have hcutLe : cut ≤ len ∧ cut < maxStr := by
        rw [← hcut]
        unfold maxStr
        split_ifs <;> omega
      have hlength : (s.bytes.take cut).length = cut := List.length_take_of_le (by omega)
      have hroom : (s.bytes.take cut).length < dest.length := by
        rw [hlength, hdest]
        exact hcutLe.2
      have hwritten := writeBytes_terminated hroom
      rw [hlength] at hwritten
      rw [hwritten]
      unfold CString.length
      rw [bytes_take, hlength]

/-- The text between the first occurrences, or nothing. -/
theorem bytes_getStringBetween_of_standsBetween {src start stop : CString} {text : List UInt8}
    (h : StandsBetween src start stop text) :
    (getStringBetween src start stop).bytes = text.take 255 := by
  obtain ⟨front, rest, back, hstart, hstop⟩ := h
  have hplace : strstr src start = some front.length := find_eq_of_leftmost hstart
  have hdrop : (src.drop (front.length + start.length)).bytes = rest := by
    show src.bytes.drop (front.length + start.bytes.length) = rest
    rw [hstart.list_eq, ← List.append_assoc, ← List.length_append, List.drop_left]
  have hlen : strstr (src.drop (front.length + start.length)) stop = some text.length := by
    unfold strstr
    rw [hdrop]
    exact find_eq_of_leftmost hstop
  unfold getStringBetween
  rw [hplace]
  dsimp only
  rw [hlen]
  dsimp only
  rw [bytes_take, hdrop, hstop.list_eq]
  unfold maxStr
  split_ifs with hlong
  · rw [List.take_append_of_le_length (by omega)]
  · rw [List.take_left, List.take_of_length_le (by omega)]

theorem getStringBetween_of_not_standsBetween {src start stop : CString}
    (h : ∀ text, ¬StandsBetween src start stop text) : getStringBetween src start stop = empty := by
  unfold getStringBetween
  cases hplace : strstr src start with
  | none => rfl
  | some place =>
    dsimp only
    cases hlen : strstr (src.drop (place + start.length)) stop with
    | none => rfl
    | some len =>
      exact absurd ⟨_, _, _, leftmost_of_find hplace, leftmost_of_find hlen⟩ (h _)

/-- In a destination of 256 bytes, `get_string_between` leaves the text between the first occurrence
of `start` and the next one of `end`, cut to 255 bytes, or the empty string if there is none. -/
theorem checkedGetStringBetween_extracts (src start stop : CString) {dest : List UInt8}
    (hdest : dest.length = maxStr) :
    ∃ after, checkedGetStringBetween (some src) (some start) (some stop) dest = some after ∧
      (∀ text, StandsBetween src start stop text → TerminatedIn dest (text.take 255) after) ∧
      ((∀ text, ¬StandsBetween src start stop text) → TerminatedIn dest [] after) := by
  refine ⟨_, checkedGetStringBetween_eq src start stop hdest, fun text htext ↦ ?_, fun hnone ↦ ?_⟩
  · have hbytes := bytes_getStringBetween_of_standsBetween htext
    unfold CString.length
    rw [← hbytes]
    exact ⟨CString.noNul _, rfl⟩
  · rw [getStringBetween_of_not_standsBetween hnone]
    exact ⟨List.not_mem_nil, rfl⟩

/-- Overlapping patterns: between `aba` and `ab` in `abababc`. -/
theorem checkedGetStringBetween_extracts_example :
    ∃ after, checkedGetStringBetween (some (ofText "abababc")) (some (ofText "aba"))
        (some (ofText "ab")) (List.replicate 256 7) = some after ∧
      (∀ text, StandsBetween (ofText "abababc") (ofText "aba") (ofText "ab") text →
        TerminatedIn (List.replicate 256 7) (text.take 255) after) ∧
      ((∀ text, ¬StandsBetween (ofText "abababc") (ofText "aba") (ofText "ab") text) →
        TerminatedIn (List.replicate 256 7) [] after) :=
  checkedGetStringBetween_extracts _ _ _ List.length_replicate

end HiFetch.Utils
