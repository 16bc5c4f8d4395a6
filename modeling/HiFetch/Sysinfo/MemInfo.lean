import HiFetch.Library.Binary64
import HiFetch.Monitor.CpuUsage
import HiFetch.Monitor.ProcFile
import HiFetch.Utils.ReadFile

/-!
# Three readers of `/proc/meminfo`

`get_mem_info` of hitop reads the file line by line with `fgets` and stops behind `SwapFree`.
`get_memory_performance` takes the whole text apart with `strtok` and reads all of it.
`get_memory_info` and `get_swap_info` of hifetch do the same and stop as soon as they have what they
need.  All of them know a line by the name at its start and the colon behind it, so other lines that
contain the name do not disturb them.

The formatted texts are left out, but not the numbers that are printed.  The `double` values of the
system report are rounded, and those of hitop and the performance report are rational numbers.
-/

namespace HiFetch.Sysinfo

open CString Scanf Monitor Utils

/-! ## The lines -/

/-- `Name: %lu kB` -/
def fieldFormat (name : List UInt8) : List Directive :=
  name.map .literal ++
    [.literal 58, .blank, .convert (.unsigned 64) true, .blank, .literal 107, .literal 66]

/-- The number that `sscanf` assigns, if it returns 1. -/
def scanField (name : List UInt8) (line : CString) : Option UInt64 :=
  match sscanf (fieldFormat name) line.bytes with
  | [.integer value] => some (.ofNat value.toNat)
  | _ => none

/-- `MemTotal` -/
def memTotalName : List UInt8 := [77, 101, 109, 84, 111, 116, 97, 108]

/-- `MemAvailable` -/
def memAvailableName : List UInt8 := [77, 101, 109, 65, 118, 97, 105, 108, 97, 98, 108, 101]

/-- `Buffers` -/
def buffersName : List UInt8 := [66, 117, 102, 102, 101, 114, 115]

/-- `Cached` -/
def cachedName : List UInt8 := [67, 97, 99, 104, 101, 100]

/-- `SwapTotal` -/
def swapTotalName : List UInt8 := [83, 119, 97, 112, 84, 111, 116, 97, 108]

/-- `SwapFree` -/
def swapFreeName : List UInt8 := [83, 119, 97, 112, 70, 114, 101, 101]

/-- A loop over lines; a round says whether the loop goes on. -/
def lineLoop {State Line : Type} (round : State → Line → State × Bool) : State → List Line → State
  | state, [] => state
  | state, line :: rest =>
      match round state line with
      | (next, true) => lineLoop round next rest
      | (next, false) => next

/-! ## hitop -/

structure MemInfo where
  total : UInt64
  used : UInt64
  available : UInt64
  buffers : UInt64
  cached : UInt64
  swapTotal : UInt64
  swapUsed : UInt64
  usagePercent : ℚ
  swapPercent : ℚ
  history : ℤ → ℚ
  historyPos : ℤ

/-- The body of the loop of `get_mem_info`. -/
def memInfoRound (mem : MemInfo) (line : CString) : MemInfo × Bool :=
  match scanField memTotalName line with
  | some value => ({ mem with total := value }, true)
  | none =>
  match scanField memAvailableName line with
  | some value => ({ mem with available := value }, true)
  | none =>
  match scanField buffersName line with
  | some value => ({ mem with buffers := value }, true)
  | none =>
  match scanField cachedName line with
  | some value => ({ mem with cached := value }, true)
  | none =>
  match scanField swapTotalName line with
  | some value => ({ mem with swapTotal := value }, true)
  | none =>
      if line.bytes.take 9 = swapFreeName ++ [58] then
        ({ mem with swapUsed := mem.swapTotal - (scanField swapFreeName line).getD 0 }, false)
      else (mem, true)

/-- A part of a whole in percent, and nothing of nothing. -/
def percentOf (part whole : UInt64) : ℚ :=
  if 0 < whole then (part.toNat : ℚ) / whole.toNat * 100 else 0

/-- `get_mem_info`; the file may not be there. -/
def getMemInfo (mem : MemInfo) (file : Option (List UInt8)) : MemInfo :=
  match file with
  | none => mem
  | some text =>
      let read := lineLoop memInfoRound mem (readLines 255 text)
      let used := read.total - read.available
      let usage := percentOf used read.total
      { read with
        used := used
        usagePercent := usage
        swapPercent := percentOf read.swapUsed read.swapTotal
        history := Function.update read.history read.historyPos usage
        historyPos := (read.historyPos + 1).tmod 60 }

/-! ## The performance report -/

structure MemoryPerformance where
  total : UInt64
  available : UInt64
  used : UInt64
  cached : UInt64
  buffers : UInt64
  swapTotal : UInt64
  swapUsed : UInt64
  usagePercent : ℚ

/-- `memset`. -/
def zeroMemoryPerformance : MemoryPerformance := ⟨0, 0, 0, 0, 0, 0, 0, 0⟩

/-- The body of the loop of `get_memory_performance`. -/
def memoryPerformanceRound (mem : MemoryPerformance) (line : CString) : MemoryPerformance × Bool :=
  match scanField memTotalName line with
  | some value => ({ mem with total := value * 1024 }, true)
  | none =>
  match scanField memAvailableName line with
  | some value => ({ mem with available := value * 1024 }, true)
  | none =>
  match scanField cachedName line with
  | some value => ({ mem with cached := value * 1024 }, true)
  | none =>
  match scanField buffersName line with
  | some value => ({ mem with buffers := value * 1024 }, true)
  | none =>
  match scanField swapTotalName line with
  | some value => ({ mem with swapTotal := value * 1024 }, true)
  | none =>
  match scanField swapFreeName line with
  | some value => ({ mem with swapUsed := mem.swapTotal - value * 1024 }, true)
  | none => (mem, true)

/-- `get_memory_performance`, up to the percentage, with the array `buffer` as it is found. -/
def getMemoryPerformance (buffer : List UInt8) (file : FileRead) : MemoryPerformance :=
  let mem := match readFileFast buffer 4096 file with
    | (1, filled) =>
        lineLoop memoryPerformanceRound zeroMemoryPerformance (tokens (ofBuffer filled) 10)
    | _ => zeroMemoryPerformance
  let used := mem.total - mem.available
  { mem with used := used, usagePercent := percentOf used mem.total }

/-! ## The system report -/

/-- The local variables of `get_memory_info` and of `get_swap_info`: a whole and a part that is not
used. -/
structure Amounts where
  total : UInt64
  free : UInt64

/-- The numbers that a line of the report prints. -/
structure UsageLine where
  used : ℚ
  total : ℚ
  percent : ℤ

/-- The percentage, computed with doubles. -/
def percentage (used total : UInt64) : ℤ :=
  truncate (toDouble (toDouble (toDouble used.toNat / toDouble total.toNat) * 100))

/-- `get_memory_info` prints both numbers in GiB. -/
def memoryLine (amounts : Amounts) : Option UsageLine :=
  if amounts.total ≠ 0 ∧ amounts.free ≠ 0 then
    let used := amounts.total - amounts.free
    some
      { used := toDouble (toDouble used.toNat / 1048576)
        total := toDouble (toDouble amounts.total.toNat / 1048576)
        percent := percentage used amounts.total }
  else none

/-- `get_swap_info` prints the used part in MiB. -/
def swapLine (amounts : Amounts) : Option UsageLine :=
  if 0 < amounts.total then
    let used := amounts.total - amounts.free
    some
      { used := toDouble (toDouble (toDouble used.toNat / 1048576) * 1024)
        total := toDouble (toDouble amounts.total.toNat / 1048576)
        percent := percentage used amounts.total }
  else none

theorem truncate_of_nonneg {value : ℚ} (h : 0 ≤ value) : truncate value = ⌊value⌋ := by
  rw [truncate, Rat.floor_def', Int.tdiv_eq_ediv_of_nonneg (Rat.num_nonneg.2 h)]

/-- A quotient of two rounded numbers. -/
theorem toDouble_div_between {part whole : ℚ} (hpart : 0 ≤ part) (hwhole : 0 < whole) :
    part / whole * ((1 - 1 / 2 ^ 53) / (1 + 1 / 2 ^ 53)) ≤ toDouble part / toDouble whole ∧
      toDouble part / toDouble whole ≤
        part / whole * ((1 + 1 / 2 ^ 53) / (1 - 1 / 2 ^ 53)) := by
  obtain ⟨hpartLow, hpartHigh⟩ := toDouble_between hpart zero_le_one
    ⟨(mul_one part).le, (mul_one part).ge⟩
  obtain ⟨hwholeLow, hwholeHigh⟩ := toDouble_between hwhole.le zero_le_one
    ⟨(mul_one whole).le, (mul_one whole).ge⟩
  rw [one_mul] at hpartLow hpartHigh hwholeLow hwholeHigh
  have hwholePos : 0 < toDouble whole := (mul_pos hwhole (by norm_num)).trans_le hwholeLow
  rw [← mul_div_mul_comm, ← mul_div_mul_comm]
  constructor
  · exact div_le_div₀ ((mul_nonneg hpart (by norm_num)).trans hpartLow) hpartLow hwholePos
      hwholeHigh
  · exact div_le_div₀ (mul_nonneg hpart (by norm_num)) hpartHigh (mul_pos hwhole (by norm_num))
      hwholeLow

/-- Rounding moves the percentage by one at most. -/
theorem abs_percentage_sub_le {used total : UInt64} (hle : used ≤ total) (hpos : 0 < total) :
    |percentage used total - ⌊(used.toNat / total.toNat * 100 : ℚ)⌋| ≤ 1 := by
  have hwhole : (0 : ℚ) < total.toNat := Nat.cast_pos.2 (UInt64.lt_iff_toNat_lt.1 hpos)
  have hpart : (0 : ℚ) ≤ used.toNat := Nat.cast_nonneg _
  have hshare : (used.toNat / total.toNat : ℚ) ≤ 1 :=
    (div_le_one hwhole).2 (Nat.cast_le.2 (UInt64.le_iff_toNat_le.1 hle))
  have hnonneg : (0 : ℚ) ≤ used.toNat / total.toNat := div_nonneg hpart hwhole.le
  obtain ⟨hlow, hhigh⟩ := toDouble_between hnonneg (by norm_num) (toDouble_div_between hpart hwhole)
  unfold percentage
  generalize toDouble (toDouble used.toNat / toDouble total.toNat) = quotient at *
  generalize (used.toNat / total.toNat : ℚ) = share at *
  have hleast : share * (1 - 1 / 2 ^ 50) ≤ quotient :=
    (mul_le_mul_of_nonneg_left (by norm_num) hnonneg).trans hlow
  have hmost : quotient ≤ share * (1 + 1 / 2 ^ 50) :=
    hhigh.trans (mul_le_mul_of_nonneg_left (by norm_num) hnonneg)
  have herror := abs_le.1 (abs_toDouble_sub_le (quotient * 100))
  rw [abs_of_nonneg (by linarith)] at herror
  generalize toDouble (quotient * 100) = shown at *
  have hbelow : share * 100 - 1 ≤ shown := by linarith
  have habove : shown < share * 100 + 1 := by linarith
  rw [truncate_of_nonneg (by linarith), abs_le]
  have hfloor := Int.floor_le (share * 100)
  have hnext := Int.lt_floor_add_one (share * 100)
  constructor
  · have hfloors : ⌊share * 100⌋ - 1 ≤ ⌊shown⌋ := by
      rw [Int.le_floor]
      push_cast
      linarith
    omega
  · have hfloors : ⌊shown⌋ < ⌊share * 100⌋ + 2 := by
      rw [Int.floor_lt]
      push_cast
      linarith
    omega

/-- 29 percent are shown as 28. -/
example : percentage 29 100 = 28 := by decide +kernel

/-- The body of both loops: the line of the whole, and the line of the free part, which is the last
one. -/
def amountsRound (totalName freeName : List UInt8) (amounts : Amounts) (line : CString) :
    Amounts × Bool :=
  match scanField totalName line with
  | some value => ({ amounts with total := value }, true)
  | none =>
  match scanField freeName line with
  | some value => ({ amounts with free := value }, false)
  | none => (amounts, true)

/-- The amounts that one of the two functions extracts, if it can read the file. -/
def readAmounts (totalName freeName buffer : List UInt8) (file : FileRead) : Option Amounts :=
  match readFileFast buffer 2048 file with
  | (1, filled) =>
      some (lineLoop (amountsRound totalName freeName) ⟨0, 0⟩ (tokens (ofBuffer filled) 10))
  | _ => none

def memoryAmounts (buffer : List UInt8) (file : FileRead) : Option Amounts :=
  readAmounts memTotalName memAvailableName buffer file

def swapAmounts (buffer : List UInt8) (file : FileRead) : Option Amounts :=
  readAmounts swapTotalName swapFreeName buffer file

/-- `info->memory` and `info->swap`; without numbers the texts are `Unknown` and `No swap`. -/
structure MemoryReport where
  memory : Option UsageLine
  swap : Option UsageLine

/-- `get_swap_info`, which leaves the text as it is if it cannot read the file. -/
def getSwapInfo (buffer : List UInt8) (file : FileRead) (report : MemoryReport) : MemoryReport :=
  match swapAmounts buffer file with
  | some amounts => { report with swap := swapLine amounts }
  | none => report

/-- `get_memory_info`; the two calls have arrays and reads of their own. -/
def getMemoryInfo (buffer swapBuffer : List UInt8) (file swapFile : FileRead)
    (report : MemoryReport) : MemoryReport :=
  getSwapInfo swapBuffer swapFile
    { report with memory := (memoryAmounts buffer file).bind memoryLine }

/-! ## Lines of the kernel -/

/-- A line `Name: <decimal> kB`, with any number of blanks behind the colon. -/
structure MemLine where
  name : List UInt8
  blanks : ℕ
  value : ℕ
  noColon : 58 ∉ name
  noNewline : 10 ∉ name
  noNul : 0 ∉ name
  value_lt : value < 2 ^ 53

def MemLine.bytes (line : MemLine) : List UInt8 :=
  line.name ++
    58 :: (List.replicate line.blanks 32 ++ ((ofInt line.value).bytes ++ [32, 107, 66]))

/-- The bytes behind the colon. -/
theorem MemLine.mem_bytes {line : MemLine} {byte : UInt8} (h : byte ∈ line.bytes) :
    byte ∈ line.name ∨ byte ∈ [58, 32, 45, 107, 66] ∨ isDigit byte := by
  unfold MemLine.bytes at h
  simp only [List.mem_append, List.mem_cons, List.not_mem_nil, or_false] at h ⊢
  rcases h with hname | hcolon | hblank | hnumber | hunit
  · exact .inl hname
  · exact .inr (.inl (.inl hcolon))
  · exact .inr (.inl (.inr (.inl (List.eq_of_mem_replicate hblank))))
  · rcases mem_bytes_ofInt hnumber with hsign | hdigit
    · exact .inr (.inl (.inr (.inr (.inl hsign))))
    · exact .inr (.inr hdigit)
  · tauto

theorem MemLine.notMem_bytes {line : MemLine} : 0 ∉ line.bytes ∧ 10 ∉ line.bytes := by
  constructor
  · intro hmem
    rcases MemLine.mem_bytes hmem with hname | hbyte | hdigit
    · exact line.noNul hname
    · exact absurd hbyte (by decide)
    · exact absurd hdigit (by decide)
  · intro hmem
    rcases MemLine.mem_bytes hmem with hname | hbyte | hdigit
    · exact line.noNewline hname
    · exact absurd hbyte (by decide)
    · exact absurd hdigit (by decide)

/-- A name that is compared with its colon is compared whole. -/
theorem take_name_eq_iff {name other : List UInt8} (hname : 58 ∉ name) (hother : 58 ∉ other)
    (rest : List UInt8) :
    (other ++ 58 :: rest).take (name.length + 1) = name ++ [58] ↔ name = other := by
  induction name generalizing other with
  | nil =>
    cases other with
    | nil => simp
    | cons byte other =>
      have hne : byte ≠ 58 := fun heq ↦ hother (heq ▸ List.mem_cons_self)
      simp [hne]
  | cons byte name ih =>
    rw [List.mem_cons, not_or] at hname
    cases other with
    | nil => simp [hname.1]
    | cons first other =>
      rw [List.mem_cons, not_or] at hother
      rw [List.length_cons, List.cons_append, List.take_succ_cons, List.cons_append,
        List.cons.injEq, ih hname.2 hother.2, List.cons.injEq, eq_comm (a := first)]

/-- The name is matched up to the colon. -/
theorem sscanf_fieldFormat {name other : List UInt8} (hname : 58 ∉ name) (hother : 58 ∉ other)
    (rest : List UInt8) :
    sscanf (fieldFormat name) (other ++ 58 :: rest) =
      if name = other then
        sscanf [.blank, .convert (.unsigned 64) true, .blank, .literal 107, .literal 66] rest
      else [] := by
  have hformat : fieldFormat name = (name ++ [58]).map .literal ++
      [.blank, .convert (.unsigned 64) true, .blank, .literal 107, .literal 66] := by
    rw [fieldFormat, List.map_append, List.append_assoc]
    rfl
  rw [hformat, sscanf_literals, List.length_append, List.length_singleton]
  simp only [take_name_eq_iff hname hother rest]
  split_ifs with heq
  · rw [heq, List.drop_length_add_append]
    rfl
  · rfl

/-- Behind the colon, `%lu` reads the printed number. -/
theorem sscanf_value {value : ℕ} (hvalue : value < 2 ^ 53) (blanks : ℕ) (tail : List UInt8) :
    sscanf [.blank, .convert (.unsigned 64) true, .blank, .literal 107, .literal 66]
      (List.replicate blanks 32 ++ ((ofInt value).bytes ++ 32 :: tail)) = [.integer value] := by
  have hunit : ∀ input : List UInt8, sscanf [.blank, .literal 107, .literal 66] input = [] := by
    intro input
    simp only [sscanf]
    split_ifs <;> rfl
  have hblanks : ∀ byte ∈ List.replicate blanks (32 : UInt8), isSpace byte := by
    intro byte hmem
    rw [List.eq_of_mem_replicate hmem]
    decide
  have htail : ∀ byte ∈ (32 :: tail).head?, ¬isDigit byte := by
    rintro _ ⟨⟩
    decide
  have hscan : scan (.unsigned 64) ((ofInt value).bytes ++ 32 :: tail) =
      some (.integer value, 32 :: tail) := by
    rw [scan_of_numeric rfl, scanInteger_printed _ htail, Option.map_some,
      convert_unsigned le_rfl (by omega) (by omega)]
  rw [sscanf_blank, dropWhile_append_of_head hblanks (head_printed value _),
    sscanf_assigned hscan, hunit]

/-- The line with what a reader leaves behind it. -/
theorem MemLine.bytes_ofBuffer_append (line : MemLine) {tail : List UInt8} (htail : 0 ∉ tail) :
    (ofBuffer (line.bytes ++ tail)).bytes = line.bytes ++ tail := by
  apply bytes_ofBuffer_of_notMem
  rw [List.mem_append, not_or]
  exact ⟨MemLine.notMem_bytes.1, htail⟩

/-- A reader knows a line by its name. -/
theorem scanField_line {name : List UInt8} (hname : 58 ∉ name) (line : MemLine)
    {tail : List UInt8} (htail : 0 ∉ tail) :
    scanField name (ofBuffer (line.bytes ++ tail)) =
      if name = line.name then some (.ofNat line.value) else none := by
  have hsplit : line.bytes ++ tail = line.name ++ 58 :: (List.replicate line.blanks 32 ++
      ((ofInt line.value).bytes ++ 32 :: ([107, 66] ++ tail))) := by
    unfold MemLine.bytes
    simp
  unfold scanField
  rw [line.bytes_ofBuffer_append htail, hsplit, sscanf_fieldFormat hname line.noColon]
  split_ifs
  · rw [sscanf_value line.value_lt]
    rfl
  · rfl

/-! ## The text in the buffers -/

/-- The text of the file. -/
def memText (lines : List MemLine) : List UInt8 := textOf (lines.map MemLine.bytes)

/-- The line in the buffer of `fgets`. -/
def fgetsLine (line : MemLine) : CString := ofBuffer (line.bytes ++ [10])

/-- The line as a token of `strtok`. -/
def strtokLine (line : MemLine) : CString := ofBuffer (line.bytes ++ [])

theorem readLines_memText {lines : List MemLine}
    (hshort : ∀ line ∈ lines, line.bytes.length < 255) :
    readLines 255 (memText lines) = lines.map fgetsLine := by
  unfold memText
  rw [readLines_textOf, List.map_map]
  · rfl
  · intro bytes hmem
    obtain ⟨line, hline, rfl⟩ := List.mem_map.1 hmem
    exact ⟨MemLine.notMem_bytes.2, hshort line hline⟩

theorem zero_notMem_memText (lines : List MemLine) : 0 ∉ memText lines := by
  intro hmem
  obtain ⟨bytes, hbytes, hzero⟩ := List.mem_flatMap.1 hmem
  obtain ⟨line, -, rfl⟩ := List.mem_map.1 hbytes
  rcases List.mem_append.1 hzero with hline | hnewline
  · exact MemLine.notMem_bytes.1 hline
  · exact absurd hnewline (by decide)

theorem tokens_memText (lines : List MemLine) :
    tokens (ofBuffer (memText lines)) 10 = lines.map strtokLine := by
  unfold tokens
  rw [bytes_ofBuffer_of_notMem (zero_notMem_memText lines)]
  induction lines with
  | nil => rfl
  | cons line lines ih =>
    have hne : line.bytes ≠ [] := by
      unfold MemLine.bytes
      simp
    have hcons : memText (line :: lines) = line.bytes ++ 10 :: memText lines := textOf_cons _ _
    have htoken : strtokLine line = ofBuffer line.bytes := congrArg ofBuffer (List.append_nil _)
    rw [hcons, List.splitOn_append_cons_self_of_not_mem MemLine.notMem_bytes.2,
      List.filterMap_cons, if_neg hne, List.map_cons, htoken]
    exact congrArg _ ih

/-- What `read_file_fast` leaves of the text. -/
theorem readFileFast_memText {lines : List MemLine} {buffer : List UInt8} {size : ℕ}
    (hpos : 0 < (memText lines).length) (hlength : (memText lines).length < size)
    (hsize : size ≤ intMax) (hbuffer : buffer.length = size) :
    ∃ filled, readFileFast buffer size
        (.delivered (memText lines) (memText lines).length) = (1, filled) ∧
      tokens (ofBuffer filled) 10 = lines.map strtokLine := by
  refine ⟨_, readFileFast_of_pos hsize hbuffer.ge hpos hlength le_rfl, ?_⟩
  rw [List.take_length, ofBuffer_append_nul, tokens_memText]

/-! ## The loops -/

section LineLoop

variable {State Line : Type} {round : State → Line → State × Bool}

theorem lineLoop_on {state next : State} {line : Line} (h : round state line = (next, true))
    (rest : List Line) : lineLoop round state (line :: rest) = lineLoop round next rest := by
  rw [lineLoop, h]

theorem lineLoop_stop {state next : State} {line : Line} (h : round state line = (next, false))
    (rest : List Line) : lineLoop round state (line :: rest) = next := by
  rw [lineLoop, h]

/-- Lines that change nothing. -/
theorem lineLoop_quiet {lines : List Line} {state : State}
    (h : ∀ line ∈ lines, round state line = (state, true)) (rest : List Line) :
    lineLoop round state (lines ++ rest) = lineLoop round state rest := by
  induction lines with
  | nil => rfl
  | cons line lines ih =>
    rw [List.cons_append, lineLoop_on (h line List.mem_cons_self)]
    exact ih fun other hmem ↦ h other (List.mem_cons_of_mem _ hmem)

/-- A loop over rendered lines does to a part of its state what another loop does to it. -/
theorem lineLoop_map {Kept Source : Type} {act : Kept → Source → Kept × Bool} {keep : State → Kept}
    {render : Source → Line}
    (h : ∀ state source, act (keep state) source =
      (keep (round state (render source)).1, (round state (render source)).2))
    (state : State) (sources : List Source) :
    keep (lineLoop round state (sources.map render)) = lineLoop act (keep state) sources := by
  induction sources generalizing state with
  | nil => rfl
  | cons source sources ih =>
    have hact := h state source
    rw [List.map_cons, lineLoop, lineLoop, hact]
    cases hround : round state (render source) with
    | mk next goes =>
      cases goes with
      | true => exact ih next
      | false => rfl

end LineLoop

section Rounds

variable (line : MemLine) {tail : List UInt8} (htail : 0 ∉ tail)
include htail

/-- A branch of a round is taken if the line has the name. -/
theorem match_scanField {name : List UInt8} (hname : 58 ∉ name) {Result : Type}
    (found : UInt64 → Result) (other : Result) :
    (match scanField name (ofBuffer (line.bytes ++ tail)) with
      | some value => found value
      | none => other) = if name = line.name then found (.ofNat line.value) else other := by
  rw [scanField_line hname line htail]
  split_ifs <;> rfl

theorem memInfoRound_line (mem : MemInfo) :
    memInfoRound mem (ofBuffer (line.bytes ++ tail)) =
      if memTotalName = line.name then ({ mem with total := .ofNat line.value }, true)
      else if memAvailableName = line.name then
        ({ mem with available := .ofNat line.value }, true)
      else if buffersName = line.name then ({ mem with buffers := .ofNat line.value }, true)
      else if cachedName = line.name then ({ mem with cached := .ofNat line.value }, true)
      else if swapTotalName = line.name then ({ mem with swapTotal := .ofNat line.value }, true)
      else if swapFreeName = line.name then
        ({ mem with swapUsed := mem.swapTotal - .ofNat line.value }, false)
      else (mem, true) := by
  have hswapFree : (ofBuffer (line.bytes ++ tail)).bytes.take 9 = swapFreeName ++ [58] ↔
      swapFreeName = line.name := by
    rw [line.bytes_ofBuffer_append htail]
    unfold MemLine.bytes
    rw [List.append_assoc, List.cons_append]
    exact take_name_eq_iff (show 58 ∉ swapFreeName by decide) line.noColon _
  unfold memInfoRound
  rw [match_scanField line htail (by decide), match_scanField line htail (by decide),
    match_scanField line htail (by decide), match_scanField line htail (by decide),
    match_scanField line htail (by decide), scanField_line (by decide) line htail]
  simp only [hswapFree]
  by_cases hlast : swapFreeName = line.name
  · rw [if_pos hlast, if_pos hlast, if_pos hlast]
    rfl
  · rw [if_neg hlast, if_neg hlast]

theorem memoryPerformanceRound_line (mem : MemoryPerformance) :
    memoryPerformanceRound mem (ofBuffer (line.bytes ++ tail)) =
      if memTotalName = line.name then ({ mem with total := .ofNat line.value * 1024 }, true)
      else if memAvailableName = line.name then
        ({ mem with available := .ofNat line.value * 1024 }, true)
      else if cachedName = line.name then ({ mem with cached := .ofNat line.value * 1024 }, true)
      else if buffersName = line.name then ({ mem with buffers := .ofNat line.value * 1024 }, true)
      else if swapTotalName = line.name then
        ({ mem with swapTotal := .ofNat line.value * 1024 }, true)
      else if swapFreeName = line.name then
        ({ mem with swapUsed := mem.swapTotal - .ofNat line.value * 1024 }, true)
      else (mem, true) := by
  unfold memoryPerformanceRound
  rw [match_scanField line htail (by decide), match_scanField line htail (by decide),
    match_scanField line htail (by decide), match_scanField line htail (by decide),
    match_scanField line htail (by decide), match_scanField line htail (by decide)]

theorem amountsRound_line {totalName freeName : List UInt8} (htotal : 58 ∉ totalName)
    (hfree : 58 ∉ freeName) (amounts : Amounts) :
    amountsRound totalName freeName amounts (ofBuffer (line.bytes ++ tail)) =
      if totalName = line.name then ({ amounts with total := .ofNat line.value }, true)
      else if freeName = line.name then ({ amounts with free := .ofNat line.value }, false)
      else (amounts, true) := by
  unfold amountsRound
  rw [match_scanField line htail htotal, match_scanField line htail hfree]

end Rounds

/-! ## What the readers extract -/

/-- The four numbers that all three readers extract. -/
structure Extracted where
  total : UInt64
  available : UInt64
  swapTotal : UInt64
  swapUsed : UInt64

def MemInfo.extracted (mem : MemInfo) : Extracted :=
  ⟨mem.total, mem.available, mem.swapTotal, mem.swapUsed⟩

def MemoryPerformance.extracted (mem : MemoryPerformance) : Extracted :=
  ⟨mem.total, mem.available, mem.swapTotal, mem.swapUsed⟩

/-- The system report keeps the free swap and subtracts where it prints. -/
def reportExtracted (memory swap : Amounts) : Extracted :=
  ⟨memory.total, memory.free, swap.total, swap.total - swap.free⟩

/-- What a line does to the four numbers; the unit is a factor. -/
def extractRound (unit : UInt64) (goesOn : Bool) (found : Extracted) (line : MemLine) :
    Extracted × Bool :=
  if memTotalName = line.name then ({ found with total := .ofNat line.value * unit }, true)
  else if memAvailableName = line.name then
    ({ found with available := .ofNat line.value * unit }, true)
  else if swapTotalName = line.name then
    ({ found with swapTotal := .ofNat line.value * unit }, true)
  else if swapFreeName = line.name then
    ({ found with swapUsed := found.swapTotal - .ofNat line.value * unit }, goesOn)
  else (found, true)

/-- `get_mem_info` counts in kB and stops behind the free swap. -/
theorem extracted_getMemInfo {lines : List MemLine}
    (hshort : ∀ line ∈ lines, line.bytes.length < 255) (mem : MemInfo) :
    (getMemInfo mem (some (memText lines))).extracted =
      lineLoop (extractRound 1 false) mem.extracted lines := by
  have hround : ∀ (state : MemInfo) (line : MemLine),
      extractRound 1 false state.extracted line =
        ((memInfoRound state (fgetsLine line)).1.extracted,
          (memInfoRound state (fgetsLine line)).2) := by
    intro state line
    unfold fgetsLine
    rw [memInfoRound_line line (by decide)]
    unfold extractRound
    simp only [UInt64.mul_one]
    by_cases hbuffers : buffersName = line.name
    · rw [← hbuffers]
      rfl
    · by_cases hcached : cachedName = line.name
      · rw [← hcached]
        rfl
      · rw [if_neg hbuffers, if_neg hcached]
        split_ifs <;> rfl
  rw [← lineLoop_map hround]
  show (lineLoop memInfoRound mem (readLines 255 (memText lines))).extracted = _
  rw [readLines_memText hshort]

/-- `get_memory_performance` counts in bytes and reads the whole text. -/
theorem extracted_getMemoryPerformance {lines : List MemLine} {buffer : List UInt8}
    (hpos : 0 < (memText lines).length) (hlength : (memText lines).length < 4096)
    (hbuffer : buffer.length = 4096) :
    (getMemoryPerformance buffer
        (.delivered (memText lines) (memText lines).length)).extracted =
      lineLoop (extractRound 1024 true) zeroMemoryPerformance.extracted lines := by
  have hround : ∀ (state : MemoryPerformance) (line : MemLine),
      extractRound 1024 true state.extracted line =
        ((memoryPerformanceRound state (strtokLine line)).1.extracted,
          (memoryPerformanceRound state (strtokLine line)).2) := by
    intro state line
    unfold strtokLine
    rw [memoryPerformanceRound_line line (by decide)]
    unfold extractRound
    by_cases hbuffers : buffersName = line.name
    · rw [← hbuffers]
      rfl
    · by_cases hcached : cachedName = line.name
      · rw [← hcached]
        rfl
      · rw [if_neg hbuffers, if_neg hcached]
        split_ifs <;> rfl
  obtain ⟨filled, hread, htokens⟩ := readFileFast_memText hpos hlength (by decide) hbuffer
  rw [← lineLoop_map hround, ← htokens]
  unfold getMemoryPerformance
  rw [hread]
  rfl

/-- One function of the system report goes as far as its second line. -/
theorem readAmounts_memText {lines : List MemLine} {totalName freeName buffer : List UInt8}
    (hpos : 0 < (memText lines).length) (hlength : (memText lines).length < 2048)
    (hbuffer : buffer.length = 2048) :
    readAmounts totalName freeName buffer (.delivered (memText lines) (memText lines).length) =
      some (lineLoop (amountsRound totalName freeName) ⟨0, 0⟩ (lines.map strtokLine)) := by
  obtain ⟨filled, hread, htokens⟩ := readFileFast_memText hpos hlength (by decide) hbuffer
  unfold readAmounts
  rw [hread]
  simp only [htokens]

/-! ## The four lines -/

/-- A text of at most 2047 bytes in which the four lines stand in this order among others; names
differ, every line has room in the buffer of `fgets`, and no part exceeds its whole. -/
structure MemFile where
  lines : List MemLine
  total : MemLine
  available : MemLine
  swapTotal : MemLine
  swapFree : MemLine
  order : [total, available, swapTotal, swapFree].Sublist lines
  total_name : total.name = memTotalName
  available_name : available.name = memAvailableName
  swapTotal_name : swapTotal.name = swapTotalName
  swapFree_name : swapFree.name = swapFreeName
  distinct : (lines.map (·.name)).Nodup
  short : ∀ line ∈ lines, line.bytes.length < 255
  length_le : (memText lines).length ≤ 2047
  available_le : available.value ≤ total.value
  swapFree_le : swapFree.value ≤ swapTotal.value

/-- A line that is none of the four. -/
def MemLine.Other (line : MemLine) : Prop :=
  memTotalName ≠ line.name ∧ memAvailableName ≠ line.name ∧ swapTotalName ≠ line.name ∧
    swapFreeName ≠ line.name

/-- The first element of a sublist, with what stands before and behind it. -/
theorem exists_eq_of_cons_sublist {α : Type} {first : α} {rest all : List α}
    (h : (first :: rest).Sublist all) :
    ∃ front back, all = front ++ first :: back ∧ rest.Sublist back := by
  obtain ⟨r₁, r₂, rfl, hmem, hrest⟩ := List.cons_sublist_iff.1 h
  obtain ⟨front, back, rfl⟩ := List.append_of_mem hmem
  exact ⟨front, back ++ r₂, by simp, hrest.trans (List.sublist_append_right back r₂)⟩

namespace MemFile

variable (file : MemFile)

/-- Between the four lines are others. -/
theorem exists_split : ∃ l₁ l₂ l₃ l₄ l₅ : List MemLine,
    file.lines = l₁ ++ file.total :: (l₂ ++ file.available :: (l₃ ++ file.swapTotal ::
      (l₄ ++ file.swapFree :: l₅))) ∧
    ∀ line ∈ l₁ ++ (l₂ ++ (l₃ ++ (l₄ ++ l₅))), line.Other := by
  obtain ⟨l₁, rest₁, hlines, hrest₁⟩ := exists_eq_of_cons_sublist file.order
  obtain ⟨l₂, rest₂, rfl, hrest₂⟩ := exists_eq_of_cons_sublist hrest₁
  obtain ⟨l₃, rest₃, rfl, hrest₃⟩ := exists_eq_of_cons_sublist hrest₂
  obtain ⟨l₄, l₅, rfl, -⟩ := exists_eq_of_cons_sublist hrest₃
  refine ⟨l₁, l₂, l₃, l₄, l₅, hlines, fun line hmem ↦ ?_⟩
  have hperm : file.lines.Perm ([file.total, file.available, file.swapTotal, file.swapFree] ++
      (l₁ ++ (l₂ ++ (l₃ ++ (l₄ ++ l₅))))) := by
    classical
    rw [hlines, List.perm_iff_count]
    intro other
    simp only [List.count_append, List.count_cons, List.count_nil]
    omega
  have hnodup := ((hperm.map (·.name)).nodup_iff).1 file.distinct
  rw [List.map_append] at hnodup
  have hne : ∀ name ∈ [memTotalName, memAvailableName, swapTotalName, swapFreeName],
      name ≠ line.name := by
    intro name hname
    apply (List.nodup_append.1 hnodup).2.2 name _ line.name (List.mem_map_of_mem hmem)
    simpa only [List.map_cons, List.map_nil, file.total_name, file.available_name,
      file.swapTotal_name, file.swapFree_name] using hname
  exact ⟨hne _ (by simp), hne _ (by simp), hne _ (by simp), hne _ (by simp)⟩

/-- The numbers of the four lines. -/
def extracted (unit : UInt64) : Extracted where
  total := .ofNat file.total.value * unit
  available := .ofNat file.available.value * unit
  swapTotal := .ofNat file.swapTotal.value * unit
  swapUsed := .ofNat file.swapTotal.value * unit - .ofNat file.swapFree.value * unit

theorem lineLoop_extractRound (unit : UInt64) (goesOn : Bool) (found : Extracted) :
    lineLoop (extractRound unit goesOn) found file.lines = file.extracted unit := by
  obtain ⟨l₁, l₂, l₃, l₄, l₅, hlines, hother⟩ := file.exists_split
  simp only [List.forall_mem_append] at hother
  obtain ⟨hother₁, hother₂, hother₃, hother₄, hother₅⟩ := hother
  have hquiet : ∀ line : MemLine, line.Other → ∀ state,
      extractRound unit goesOn state line = (state, true) := by
    rintro line ⟨htotal, havailable, hswapTotal, hswapFree⟩ state
    unfold extractRound
    rw [if_neg htotal, if_neg havailable, if_neg hswapTotal, if_neg hswapFree]
  have havailable : ∀ state, extractRound unit goesOn state file.available =
      ({ state with available := .ofNat file.available.value * unit }, true) := by
    intro state
    unfold extractRound
    rw [file.available_name, if_neg (by decide), if_pos rfl]
  have hswapTotal : ∀ state, extractRound unit goesOn state file.swapTotal =
      ({ state with swapTotal := .ofNat file.swapTotal.value * unit }, true) := by
    intro state
    unfold extractRound
    rw [file.swapTotal_name, if_neg (by decide), if_neg (by decide), if_pos rfl]
  have hswapFree : ∀ state, extractRound unit goesOn state file.swapFree =
      ({ state with swapUsed := state.swapTotal - .ofNat file.swapFree.value * unit }, goesOn) := by
    intro state
    unfold extractRound
    rw [file.swapFree_name, if_neg (by decide), if_neg (by decide), if_neg (by decide), if_pos rfl]
  rw [hlines, lineLoop_quiet fun line hmem ↦ hquiet line (hother₁ line hmem) _,
    lineLoop_on (if_pos file.total_name.symm),
    lineLoop_quiet fun line hmem ↦ hquiet line (hother₂ line hmem) _, lineLoop_on (havailable _),
    lineLoop_quiet fun line hmem ↦ hquiet line (hother₃ line hmem) _, lineLoop_on (hswapTotal _),
    lineLoop_quiet fun line hmem ↦ hquiet line (hother₄ line hmem) _]
  cases goesOn with
  | false => exact lineLoop_stop (hswapFree _) _
  | true =>
    rw [lineLoop_on (hswapFree _), ← List.append_nil l₅,
      lineLoop_quiet fun line hmem ↦ hquiet line (hother₅ line hmem) _]
    rfl

/-- The system report finds two lines in their order, whatever stands around them. -/
theorem lineLoop_amountsRound {lines front middle back : List MemLine} {whole free : MemLine}
    (hlines : lines = front ++ whole :: (middle ++ free :: back))
    (hwhole : 58 ∉ whole.name) (hfree : 58 ∉ free.name) (hne : whole.name ≠ free.name)
    (hother : ∀ line ∈ front ++ middle, whole.name ≠ line.name ∧ free.name ≠ line.name) :
    lineLoop (amountsRound whole.name free.name) ⟨0, 0⟩ (lines.map strtokLine) =
      ⟨.ofNat whole.value, .ofNat free.value⟩ := by
  rw [List.forall_mem_append] at hother
  have hround : ∀ (line : MemLine) (state : Amounts),
      amountsRound whole.name free.name state (strtokLine line) =
        if whole.name = line.name then ({ state with total := .ofNat line.value }, true)
        else if free.name = line.name then ({ state with free := .ofNat line.value }, false)
        else (state, true) := fun line state ↦
    amountsRound_line line (by decide) hwhole hfree state
  have hquiet : ∀ (lines : List MemLine),
      (∀ line ∈ lines, whole.name ≠ line.name ∧ free.name ≠ line.name) → ∀ state : Amounts,
      ∀ line ∈ lines.map strtokLine,
        amountsRound whole.name free.name state line = (state, true) := by
    intro lines hlines state line hmem
    obtain ⟨source, hsource, rfl⟩ := List.mem_map.1 hmem
    obtain ⟨hfirst, hsecond⟩ := hlines source hsource
    rw [hround, if_neg hfirst, if_neg hsecond]
  rw [hlines, List.map_append, lineLoop_quiet (hquiet front hother.1 _), List.map_cons,
    lineLoop_on ((hround whole _).trans (if_pos rfl)), List.map_append,
    lineLoop_quiet (hquiet middle hother.2 _), List.map_cons,
    lineLoop_stop ((hround free _).trans ((if_neg hne).trans (if_pos rfl)))]

/-! ## Agreement -/

/-- `read` delivers the whole text. -/
def read : FileRead := .delivered (memText file.lines) (memText file.lines).length

theorem length_memText_pos : 0 < (memText file.lines).length := by
  obtain ⟨l₁, l₂, l₃, l₄, l₅, hlines, -⟩ := file.exists_split
  rw [hlines]
  unfold memText textOf
  simp only [List.map_append, List.map_cons, List.flatMap_append, List.flatMap_cons,
    List.length_append, List.length_singleton]
  omega

theorem memoryAmounts_read {buffer : List UInt8} (hbuffer : buffer.length = 2048) :
    memoryAmounts buffer file.read =
      some ⟨.ofNat file.total.value, .ofNat file.available.value⟩ := by
  obtain ⟨l₁, l₂, l₃, l₄, l₅, hlines, hother⟩ := file.exists_split
  simp only [List.forall_mem_append] at hother
  obtain ⟨hother₁, hother₂, -⟩ := hother
  have hread : readAmounts file.total.name file.available.name buffer file.read = _ :=
    readAmounts_memText file.length_memText_pos (Nat.lt_succ_of_le file.length_le) hbuffer
  rw [lineLoop_amountsRound hlines file.total.noColon file.available.noColon] at hread
  · unfold memoryAmounts
    rw [← file.total_name, ← file.available_name]
    exact hread
  · rw [file.total_name, file.available_name]
    decide
  · rw [file.total_name, file.available_name, List.forall_mem_append]
    exact ⟨fun line hmem ↦ ⟨(hother₁ line hmem).1, (hother₁ line hmem).2.1⟩,
      fun line hmem ↦ ⟨(hother₂ line hmem).1, (hother₂ line hmem).2.1⟩⟩

theorem swapAmounts_read {buffer : List UInt8} (hbuffer : buffer.length = 2048) :
    swapAmounts buffer file.read =
      some ⟨.ofNat file.swapTotal.value, .ofNat file.swapFree.value⟩ := by
  obtain ⟨l₁, l₂, l₃, l₄, l₅, hlines, hother⟩ := file.exists_split
  simp only [List.forall_mem_append] at hother
  obtain ⟨hother₁, hother₂, hother₃, hother₄, -⟩ := hother
  have hsplit : file.lines = (l₁ ++ file.total :: (l₂ ++ file.available :: l₃)) ++
      file.swapTotal :: (l₄ ++ file.swapFree :: l₅) := by
    rw [hlines]
    simp
  have hread : readAmounts file.swapTotal.name file.swapFree.name buffer file.read = _ :=
    readAmounts_memText file.length_memText_pos (Nat.lt_succ_of_le file.length_le) hbuffer
  rw [lineLoop_amountsRound hsplit file.swapTotal.noColon file.swapFree.noColon] at hread
  · unfold swapAmounts
    rw [← file.swapTotal_name, ← file.swapFree_name]
    exact hread
  · rw [file.swapTotal_name, file.swapFree_name]
    decide
  · have hswap : ∀ line : MemLine, line.Other → swapTotalName ≠ line.name ∧
        swapFreeName ≠ line.name := fun _ hline ↦ hline.2.2
    rw [file.swapTotal_name, file.swapFree_name]
    simp only [List.forall_mem_append, List.forall_mem_cons, file.total_name, file.available_name]
    exact ⟨⟨fun line hmem ↦ hswap line (hother₁ line hmem), by decide,
      fun line hmem ↦ hswap line (hother₂ line hmem), by decide,
      fun line hmem ↦ hswap line (hother₃ line hmem)⟩,
      fun line hmem ↦ hswap line (hother₄ line hmem)⟩

/-- The numbers are those of the text, in a unit. -/
def Shows (unit : ℕ) (found : Extracted) : Prop :=
  found.total.toNat = file.total.value * unit ∧
    found.available.toNat = file.available.value * unit ∧
    found.swapTotal.toNat = file.swapTotal.value * unit ∧
    found.swapUsed.toNat = (file.swapTotal.value - file.swapFree.value) * unit

theorem shows_extracted {unit : ℕ} (hunit : unit ≤ 1024) :
    file.Shows unit (file.extracted (.ofNat unit)) := by
  have hnumber : ∀ line : MemLine,
      (UInt64.ofNat line.value * .ofNat unit).toNat = line.value * unit := by
    intro line
    have hvalue := line.value_lt
    have hproduct : line.value * unit < 2 ^ 64 :=
      (Nat.mul_le_mul_left _ hunit).trans_lt (by omega)
    calc
      (UInt64.ofNat line.value * .ofNat unit).toNat = line.value * unit % 2 ^ 64 := by
        rw [UInt64.toNat_mul, UInt64.toNat_ofNat_of_lt' (by rw [UInt64.size]; omega),
          UInt64.toNat_ofNat_of_lt' (by rw [UInt64.size]; omega)]
      _ = line.value * unit := Nat.mod_eq_of_lt hproduct
  refine ⟨hnumber _, hnumber _, hnumber _, ?_⟩
  have hle : UInt64.ofNat file.swapFree.value * .ofNat unit ≤
      UInt64.ofNat file.swapTotal.value * .ofNat unit := by
    rw [UInt64.le_iff_toNat_le, hnumber, hnumber]
    exact Nat.mul_le_mul_right _ file.swapFree_le
  calc
    (UInt64.ofNat file.swapTotal.value * .ofNat unit -
        UInt64.ofNat file.swapFree.value * .ofNat unit).toNat
        = (UInt64.ofNat file.swapTotal.value * .ofNat unit).toNat -
            (UInt64.ofNat file.swapFree.value * .ofNat unit).toNat :=
      UInt64.toNat_sub_of_le _ _ hle
    _ = file.swapTotal.value * unit - file.swapFree.value * unit := by rw [hnumber, hnumber]
    _ = (file.swapTotal.value - file.swapFree.value) * unit := (Nat.sub_mul _ _ _).symm

/-- The readers agree.  All three extract the numbers of the text: hitop and the system report in
kB, the performance report in bytes. -/
theorem readers_agree (mem : MemInfo) (report : MemoryReport)
    (long buffer swapBuffer : List UInt8) (hlong : long.length = 4096)
    (hbuffer : buffer.length = 2048) (hswapBuffer : swapBuffer.length = 2048) :
    file.Shows 1 (getMemInfo mem (some (memText file.lines))).extracted ∧
      file.Shows 1024 (getMemoryPerformance long file.read).extracted ∧
      ∃ memory swap, memoryAmounts buffer file.read = some memory ∧
        swapAmounts swapBuffer file.read = some swap ∧
        file.Shows 1 (reportExtracted memory swap) ∧
        getMemoryInfo buffer swapBuffer file.read file.read report =
          ⟨memoryLine memory, swapLine swap⟩ := by
  refine ⟨?_, ?_, _, _, file.memoryAmounts_read hbuffer, file.swapAmounts_read hswapBuffer, ?_, ?_⟩
  · rw [extracted_getMemInfo file.short, lineLoop_extractRound]
    exact file.shows_extracted (by decide)
  · unfold MemFile.read
    rw [extracted_getMemoryPerformance file.length_memText_pos
      (file.length_le.trans_lt (by decide)) hlong, lineLoop_extractRound]
    exact file.shows_extracted le_rfl
  · have hshows : file.Shows 1 (file.extracted (.ofNat 1)) := file.shows_extracted (by decide)
    simpa only [MemFile.extracted, reportExtracted, UInt64.reduceOfNat, UInt64.mul_one]
      using hshows
  · unfold getMemoryInfo getSwapInfo
    rw [file.memoryAmounts_read hbuffer, file.swapAmounts_read hswapBuffer]
    rfl

end MemFile

/-- A line of a small example. -/
def exampleLine (name : List UInt8) (value : ℕ) (hname : 58 ∉ name ∧ 10 ∉ name ∧ 0 ∉ name)
    (hvalue : value < 2 ^ 53) : MemLine :=
  ⟨name, 1, value, hname.1, hname.2.1, hname.2.2, hvalue⟩

/-- Five lines; `SwapCached` stands between two of the four. -/
def exampleFile : MemFile where
  lines := [exampleLine memTotalName 16 (by decide) (by decide),
    exampleLine memAvailableName 5 (by decide) (by decide),
    exampleLine ([83, 119, 97, 112] ++ cachedName) 3 (by decide) (by decide),
    exampleLine swapTotalName 8 (by decide) (by decide),
    exampleLine swapFreeName 7 (by decide) (by decide)]
  total := exampleLine memTotalName 16 (by decide) (by decide)
  available := exampleLine memAvailableName 5 (by decide) (by decide)
  swapTotal := exampleLine swapTotalName 8 (by decide) (by decide)
  swapFree := exampleLine swapFreeName 7 (by decide) (by decide)
  order := (((List.Sublist.refl _).cons _).cons_cons _).cons_cons _
  total_name := rfl
  available_name := rfl
  swapTotal_name := rfl
  swapFree_name := rfl
  distinct := by decide
  short := by decide +kernel
  length_le := by decide +kernel
  available_le := by decide
  swapFree_le := by decide

theorem readers_agree_example :
    exampleFile.Shows 1 (getMemInfo ⟨0, 0, 0, 0, 0, 0, 0, 0, 0, fun _ ↦ 0, 0⟩
        (some (memText exampleFile.lines))).extracted ∧
      exampleFile.Shows 1024
        (getMemoryPerformance (List.replicate 4096 0) exampleFile.read).extracted := by
  obtain ⟨hhitop, hperformance, -⟩ := exampleFile.readers_agree
    ⟨0, 0, 0, 0, 0, 0, 0, 0, 0, fun _ ↦ 0, 0⟩ ⟨none, none⟩ (List.replicate 4096 0)
    (List.replicate 2048 0) (List.replicate 2048 0) List.length_replicate List.length_replicate
    List.length_replicate
  exact ⟨hhitop, hperformance⟩

end HiFetch.Sysinfo
