import HiFetch.Monitor.StatLine

/-!
# Files read line by line

The loops over `/proc/stat` and `/proc/meminfo` call `fgets` until it delivers nothing.  A line that
is longer than the buffer arrives in pieces; a text whose lines all fit is delivered line by line.
-/

namespace HiFetch.Monitor

open CString

/-- What the next calls of `fgets` deliver, as strings. -/
def readCalls (room : ℕ) : ℕ → List UInt8 → List CString
  | 0, _ => []
  | calls + 1, file =>
      let line := fgets room file
      if line = [] then [] else ofBuffer line :: readCalls room calls (file.drop line.length)

/-- What `fgets` delivers up to the end of the file; a call with room takes a byte at least. -/
def readLines (room : ℕ) (file : List UInt8) : List CString := readCalls room file.length file

/-- A text of lines. -/
def textOf (lines : List (List UInt8)) : List UInt8 := lines.flatMap fun line ↦ line ++ [10]

theorem textOf_cons (line : List UInt8) (lines : List (List UInt8)) :
    textOf (line :: lines) = line ++ 10 :: textOf lines := by
  unfold textOf
  rw [List.flatMap_cons, List.append_assoc, List.singleton_append]

theorem fgets_line {room : ℕ} {line : List UInt8} (hline : 10 ∉ line) (hroom : line.length < room)
    (rest : List UInt8) : fgets room (line ++ 10 :: rest) = line ++ [10] := by
  obtain ⟨left, hleft⟩ := Nat.exists_eq_succ_of_ne_zero (Nat.sub_pos_of_lt hroom).ne'
  rw [fgets_append hline hroom.le, hleft, fgets, if_pos rfl]

theorem length_fgets_pos {room : ℕ} (hroom : 0 < room) {file : List UInt8} (hfile : file ≠ []) :
    0 < (fgets room file).length := by
  apply List.length_pos_of_ne_nil
  intro hnil
  have hhead := head_fgets hroom file
  rw [hnil, eq_comm, List.head?_nil, List.head?_eq_none_iff] at hhead
  exact hfile hhead

theorem readCalls_nil (room calls : ℕ) : readCalls room calls [] = [] := by
  cases calls <;> cases room <;> rfl

/-- There are enough calls if there is one for each byte. -/
theorem readCalls_eq {room : ℕ} (hroom : 0 < room) {calls other : ℕ} {file : List UInt8}
    (hcalls : file.length ≤ calls) (hother : file.length ≤ other) :
    readCalls room calls file = readCalls room other file := by
  induction calls generalizing other file with
  | zero =>
    obtain rfl := List.length_eq_zero_iff.1 (Nat.le_zero.1 hcalls)
    rw [readCalls_nil, readCalls_nil]
  | succ calls ih =>
    by_cases hfile : file = []
    · rw [hfile, readCalls_nil, readCalls_nil]
    · have hpos := List.length_pos_of_ne_nil hfile
      have hline := length_fgets_pos hroom hfile
      obtain ⟨left, rfl⟩ := Nat.exists_eq_succ_of_ne_zero (show other ≠ 0 by omega)
      have hrest : readCalls room calls (file.drop (fgets room file).length) =
          readCalls room left (file.drop (fgets room file).length) := by
        apply ih <;> (rw [List.length_drop]; omega)
      unfold readCalls
      dsimp only
      rw [hrest]

/-- The first line, and the rest of the file. -/
theorem readLines_eq_cons {room : ℕ} (hroom : 0 < room) {file : List UInt8} (hfile : file ≠ []) :
    readLines room file =
      ofBuffer (fgets room file) :: readLines room (file.drop (fgets room file).length) := by
  have hpos := List.length_pos_of_ne_nil hfile
  have hline := length_fgets_pos hroom hfile
  obtain ⟨calls, hcalls⟩ := Nat.exists_eq_succ_of_ne_zero hpos.ne'
  have hrest : readCalls room calls (file.drop (fgets room file).length) =
      readLines room (file.drop (fgets room file).length) := by
    refine readCalls_eq hroom ?_ le_rfl
    rw [List.length_drop]
    omega
  rw [readLines, hcalls, readCalls, if_neg (List.ne_nil_of_length_pos hline), hrest]

theorem readLines_line {room : ℕ} {line : List UInt8} (hline : 10 ∉ line)
    (hroom : line.length < room) (rest : List UInt8) :
    readLines room (line ++ 10 :: rest) = ofBuffer (line ++ [10]) :: readLines room rest := by
  have hdrop : (line ++ 10 :: rest).drop (line ++ [10]).length = rest := by
    rw [List.append_cons line 10 rest, List.drop_left]
  rw [readLines_eq_cons (Nat.zero_lt_of_lt hroom) (by simp), fgets_line hline hroom, hdrop]

/-- What is delivered of a line stands in it, or is the newline. -/
theorem mem_fgets {room : ℕ} {line rest : List UInt8} {byte : UInt8}
    (h : byte ∈ fgets room (line ++ 10 :: rest)) : byte ∈ line ∨ byte = 10 := by
  induction line generalizing room with
  | nil =>
    cases room with
    | zero => cases h
    | succ room =>
      rw [List.nil_append, fgets, if_pos rfl] at h
      exact .inr (List.mem_singleton.1 h)
  | cons first line ih =>
    cases room with
    | zero => cases h
    | succ room =>
      rw [List.cons_append, fgets] at h
      split_ifs at h with hnewline
      · exact .inr ((List.mem_singleton.1 h).trans hnewline)
      · rcases List.mem_cons.1 h with rfl | hmem
        · exact .inl List.mem_cons_self
        · exact (ih hmem).imp_left (List.mem_cons_of_mem _)

/-- Lines that fit are read one by one. -/
theorem readLines_textOf {room : ℕ} {lines : List (List UInt8)}
    (hlines : ∀ line ∈ lines, 10 ∉ line ∧ line.length < room) :
    readLines room (textOf lines) = lines.map fun line ↦ ofBuffer (line ++ [10]) := by
  induction lines with
  | nil => rfl
  | cons line lines ih =>
    obtain ⟨hnewline, hroom⟩ := hlines line List.mem_cons_self
    rw [textOf_cons, readLines_line hnewline hroom, List.map_cons,
      ih fun other hmem ↦ hlines other (List.mem_cons_of_mem _ hmem)]

end HiFetch.Monitor
