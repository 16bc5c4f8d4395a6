import HiFetch.Library.Strtok
import HiFetch.Utils.ReadFile

/-!
# Speeds, loads and temperatures of the cores

`get_cpu_performance` fills three arrays with one place for each of at most `MAX_CORES` cores.  The
loops over `/proc/cpuinfo` and over the temperatures stop at the end of their arrays; the loop over
`/proc/stat` does not, and the buffer has room for more lines than the array has places.

An array is the list of what is written to it, with the index of each write.
-/

namespace HiFetch.Performance

open CString Scanf Strtok Utils

/-- `MAX_CORES`. -/
def maxCores : ℕ := 128

structure CpuPerformance where
  coreCount : ℤ
  frequencies : List (ℕ × Option ℚ)
  governor : CString
  minFreq : ℚ
  maxFreq : ℚ
  usagePercent : List (ℕ × ℚ)
  temperatures : List (ℕ × ℚ)

/-- What `get_cpu_performance` reads: for the two files that it takes apart, the text that
`read_file_fast` leaves, if it succeeds. -/
structure CpuInput where
  coreCount : ℤ
  cpuinfo : Option CString
  governor : FileRead
  minFreq : FileRead
  maxFreq : FileRead
  stat : Option CString
  powerLimit : ℕ → FileRead
  zone : ℕ → FileRead

/-- The number in a line of `/proc/cpuinfo`, from the second byte behind its first colon on.  Behind
a colon that ends the line, what is read does not belong to the line. -/
def frequency (line : CString) : Option (Option ℚ) :=
  if occurs line (ofText "cpu MHz") then
    match line.bytes.dropWhile fun byte ↦ byte != 58 with
    | [] => none
    | [_] => some none
    | _ :: _ :: number => some (some (atof (ofBuffer number)))
  else none

/-- The loop over `/proc/cpuinfo`. -/
def frequencyLoop : ℕ → List CString → List (ℕ × Option ℚ)
  | _, [] => []
  | core, line :: rest =>
      if core < maxCores then
        match frequency line with
        | some value => (core, value) :: frequencyLoop (core + 1) rest
        | none => frequencyLoop core rest
      else []

/-- `cpu%*d %lu %lu %lu %lu %lu %lu %lu` -/
def cpuFormat : List Directive :=
  [.literal 99, .literal 112, .literal 117, .convert (.signed 32) false] ++
    numbers (List.replicate 7 (.unsigned 64, true))

/-- The load in a line of `/proc/stat` that starts with `cpu` and a digit. -/
def usage (line : CString) : Option ℚ :=
  if [99, 112, 117].isPrefixOf line.bytes ∧ isDigit (line.bytes.getD 3 0) then
    match sscanf cpuFormat line.bytes with
    | [.integer user, .integer nice, .integer system, .integer idle, .integer iowait, .integer irq,
        .integer softirq] =>
        let total := UInt64.ofNat user.toNat + .ofNat nice.toNat + .ofNat system.toNat +
          .ofNat idle.toNat + .ofNat iowait.toNat + .ofNat irq.toNat + .ofNat softirq.toNat
        let work := total - .ofNat idle.toNat
        some (if 0 < total then (work.toNat : ℚ) / total.toNat * 100 else 0)
    | _ => none
  else none

/-- The loop over `/proc/stat`. -/
def usageLoop : ℕ → List CString → List (ℕ × ℚ)
  | _, [] => []
  | cpuIdx, line :: rest =>
      match usage line with
      | some value => (cpuIdx, value) :: usageLoop (cpuIdx + 1) rest
      | none => usageLoop cpuIdx rest

/-- The loop over the temperatures, from core `i` on, with the static buffer of the reads.  A
temperature of zero is replaced by that of the thermal zone. -/
def temperatureLoop (input : CpuInput) (i : ℕ) (buffer : List UInt8) :
    List (ℕ × ℚ) × List UInt8 :=
  if i < input.coreCount ∧ i < maxCores then
    let (own, buffer) := readSysfsFloat buffer (input.powerLimit i)
    if own = 0 then
      let (zone, buffer) := readSysfsFloat buffer (input.zone i)
      let rest := temperatureLoop input (i + 1) buffer
      ((i, own) :: (i, zone / 1000) :: rest.1, rest.2)
    else
      let rest := temperatureLoop input (i + 1) buffer
      ((i, own) :: rest.1, rest.2)
  else ([], buffer)
termination_by maxCores - i

/-- The lines of a text that has been read. -/
def linesOf (text : Option CString) : List CString := text.elim [] fun text ↦ tokens text 10

/-- `get_cpu_performance`, with the static buffer of the reads as an argument and as a result. -/
def getCpuPerformance (buffer : List UInt8) (input : CpuInput) : CpuPerformance × List UInt8 :=
  let (governor, buffer) := readSysfsString buffer input.governor
  let (minFreq, buffer) := readSysfsFloat buffer input.minFreq
  let (maxFreq, buffer) := readSysfsFloat buffer input.maxFreq
  let (temperatures, buffer) := temperatureLoop input 0 buffer
  ({ coreCount := input.coreCount
     frequencies := frequencyLoop 0 (linesOf input.cpuinfo)
     governor := (governor.getD empty).take 31
     minFreq := minFreq / 1000
     maxFreq := maxFreq / 1000
     usagePercent := usageLoop 0 (linesOf input.stat)
     temperatures := temperatures }, buffer)

/-! ## The law -/

/-- All writes go to places of the array. -/
def Inside {Value : Type} (writes : List (ℕ × Value)) : Prop :=
  ∀ write ∈ writes, write.1 < maxCores

structure CpuPerformance.Inside (cpuPerf : CpuPerformance) : Prop where
  frequencies : Performance.Inside cpuPerf.frequencies
  usagePercent : Performance.Inside cpuPerf.usagePercent
  temperatures : Performance.Inside cpuPerf.temperatures

/-- The number of lines of `/proc/stat` that hold a load. -/
def loadCount (stat : Option CString) : ℕ :=
  (linesOf stat).countP fun line ↦ (usage line).isSome

theorem inside_frequencyLoop (core : ℕ) (lines : List CString) :
    Inside (frequencyLoop core lines) := by
  induction lines generalizing core with
  | nil => exact fun _ hmem ↦ (nomatch hmem)
  | cons line rest ih =>
    unfold frequencyLoop
    split_ifs with hroom
    · split
      · exact List.forall_mem_cons.2 ⟨hroom, ih (core + 1)⟩
      · exact ih core
    · exact fun _ hmem ↦ (nomatch hmem)

theorem inside_temperatureLoop (input : CpuInput) (i : ℕ) (buffer : List UInt8) :
    Inside (temperatureLoop input i buffer).1 := by
  induction i, buffer using temperatureLoop.induct input with
  | case1 i buffer hroom next zone last hzone hown ih =>
    rw [temperatureLoop, if_pos hroom, hown]
    dsimp only
    rw [if_pos rfl, hzone]
    exact List.forall_mem_cons.2 ⟨hroom.2, List.forall_mem_cons.2 ⟨hroom.2, ih⟩⟩
  | case2 i buffer hroom own next hown hne ih =>
    rw [temperatureLoop, if_pos hroom, hown]
    dsimp only
    rw [if_neg hne]
    exact List.forall_mem_cons.2 ⟨hroom.2, ih⟩
  | case3 i buffer hfull =>
    rw [temperatureLoop, if_neg hfull]
    exact fun _ hmem ↦ (nomatch hmem)

/-- The loads go to the first places, one for each line that holds one. -/
theorem map_fst_usageLoop (cpuIdx : ℕ) (lines : List CString) :
    (usageLoop cpuIdx lines).map Prod.fst =
      List.range' cpuIdx (lines.countP fun line ↦ (usage line).isSome) := by
  induction lines generalizing cpuIdx with
  | nil => rfl
  | cons line rest ih =>
    unfold usageLoop
    cases hload : usage line with
    | some value =>
      rw [List.countP_cons_of_pos (by rw [hload]; rfl), List.range'_succ, List.map_cons, ih]
    | none => rw [List.countP_cons_of_neg (by simp [hload]), ih]

theorem inside_usageLoop_iff (stat : Option CString) :
    Inside (usageLoop 0 (linesOf stat)) ↔ loadCount stat ≤ maxCores := by
  have hplaces : Inside (usageLoop 0 (linesOf stat)) ↔
      ∀ place ∈ (usageLoop 0 (linesOf stat)).map Prod.fst, place < maxCores := by
    rw [List.forall_mem_map]
    rfl
  rw [hplaces, map_fst_usageLoop, ← List.range_eq_range']
  simp only [List.mem_range]
  constructor
  · intro h
    by_contra hgt
    exact absurd (h maxCores (not_le.1 hgt)) (lt_irrefl _)
  · exact fun hle place hlt ↦ hlt.trans_le hle

/-- Every write goes to a place of its array exactly when at most `MAX_CORES` lines of `/proc/stat`
hold the load of a core. -/
theorem getCpuPerformance_inside_iff (buffer : List UInt8) (input : CpuInput) :
    (getCpuPerformance buffer input).1.Inside ↔ loadCount input.stat ≤ maxCores := by
  constructor
  · exact fun h ↦ (inside_usageLoop_iff input.stat).1 h.usagePercent
  · intro h
    exact ⟨inside_frequencyLoop 0 _, (inside_usageLoop_iff input.stat).2 h,
      inside_temperatureLoop input 0 _⟩

/-- `cpu0 1 1 1 1 1 1 1` -/
def loadLine : List UInt8 :=
  [99, 112, 117, 48, 32, 49, 32, 49, 32, 49, 32, 49, 32, 49, 32, 49, 32, 49]

/-- A file of lines for cores, as `read_file_fast` reads it. -/
def loadFile (count : ℕ) : List UInt8 := terminated 10 (List.replicate count loadLine)

theorem loadCount_loadFile (count : ℕ) : loadCount (some (ofBuffer (loadFile count))) = count := by
  have hlines : ∀ line ∈ List.replicate count loadLine, line ≠ [] ∧ 10 ∉ line := by
    intro line hline
    rw [List.eq_of_mem_replicate hline]
    decide
  have hnoNul : 0 ∉ loadFile count := by
    intro hmem
    obtain ⟨line, hline, hzero⟩ := List.mem_flatMap.1 hmem
    rw [List.eq_of_mem_replicate hline] at hzero
    revert hzero
    decide
  have hpieces := pieces_terminated hlines []
  have hload : (usage (ofBuffer loadLine)).isSome := by decide +kernel
  rw [loadCount, linesOf, Option.elim_some, tokens_eq, bytes_ofBuffer_of_notMem hnoNul, loadFile,
    ← List.append_nil (terminated _ _), hpieces, pieces_nil, List.append_nil, List.map_replicate,
    List.countP_replicate, if_pos hload]

theorem length_loadFile (count : ℕ) : (loadFile count).length = 19 * count := by
  induction count with
  | zero => rfl
  | succ count ih =>
    rw [loadFile, List.replicate_succ, terminated_cons, List.length_append, List.length_cons]
    unfold loadFile at ih
    rw [ih]
    show 18 + (19 * count + 1) = 19 * (count + 1)
    omega

/-- A system with one core, and a file with a line more than there are places. -/
def crowdedInput : CpuInput where
  coreCount := 1
  cpuinfo := none
  governor := .openFails
  minFreq := .openFails
  maxFreq := .openFails
  stat := some (ofBuffer (loadFile 129))
  powerLimit := fun _ ↦ .openFails
  zone := fun _ ↦ .openFails

/-- The buffer has room for the line that has no place. -/
theorem crowdedInput_not_inside :
    readText (List.replicate 4096 0) 4096 (.delivered (loadFile 129) (loadFile 129).length) =
        crowdedInput.stat ∧
      ¬(getCpuPerformance zeroBuffer crowdedInput).1.Inside := by
  have hlength : (loadFile 129).length = 2451 := length_loadFile 129
  constructor
  · rw [readText_of_pos (by decide) (by rw [List.length_replicate]) (by omega) (by omega) le_rfl,
      List.take_length]
    rfl
  · intro h
    have hle := (inside_usageLoop_iff crowdedInput.stat).1 h.usagePercent
    have hcount : loadCount crowdedInput.stat = 129 := loadCount_loadFile 129
    rw [hcount] at hle
    exact absurd hle (by decide)

end HiFetch.Performance
