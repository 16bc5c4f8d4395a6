import HiFetch.Library.CString
import Mathlib.Data.List.Sort
import Mathlib.Data.Rat.Defs
import Mathlib.Order.Defs.LinearOrder
import Mathlib.Algebra.Order.Ring.Rat

/-!
# The process list of hitop

`get_processes` reads one row for every process into an array of 2048 rows, keeps the rows that the
filter matches at the front of the array, and sorts them.  The CPU share of a row is taken from the
time that the previous scan left in the slot of the same position.

The contents of `/proc` are an argument, with the lines of each entry already split into fields.
`double` values are rational numbers, and `qsort` is a parameter.
-/

namespace HiFetch.Monitor

open CString

def maxProcesses : ℕ := 2048

structure Process where
  pid : ℤ
  ppid : ℤ
  user : CString
  cpu : ℚ
  mem : ℚ
  vsz : ℕ
  rss : ℕ
  stat : UInt8
  command : CString
deriving DecidableEq

/-- A row of zero bytes. -/
def zeroProcess : Process where
  pid := 0
  ppid := 0
  user := empty
  cpu := 0
  mem := 0
  vsz := 0
  rss := 0
  stat := 0
  command := empty

inductive SortKey where
  | pid
  | user
  | cpu
  | mem
  | command
deriving DecidableEq

/-- `(sort_by + 1) % 5`. -/
def SortKey.next : SortKey → SortKey
  | .pid => .user
  | .user => .cpu
  | .cpu => .mem
  | .mem => .command
  | .command => .pid

/-- The whole array `processes` is kept, also the rows behind `count`. -/
structure ProcessList where
  processes : List Process
  count : ℕ
  selected : ℤ
  offset : ℤ
  sortBy : SortKey
  reverse : Bool
  filter : CString

/-- The list after `init_hitop`. -/
def initialList : ProcessList where
  processes := List.replicate maxProcesses zeroProcess
  count := 0
  selected := 0
  offset := 0
  sortBy := .cpu
  reverse := true
  filter := empty

/-- The rows on display. -/
def ProcessList.listed (plist : ProcessList) : List Process := plist.processes.take plist.count

/-! ## Sorting -/

def threeWay (first second : ℚ) : ℤ :=
  if second < first then 1 else if first < second then -1 else 0

def compareProcesses (sortBy : SortKey) (reverse : Bool) (first second : Process) : ℤ :=
  let result := match sortBy with
    | .pid => first.pid - second.pid
    | .user => strcmp first.user second.user
    | .cpu => threeWay first.cpu second.cpu
    | .mem => threeWay first.mem second.mem
    | .command => strcmp first.command second.command
  if reverse then -result else result

/-- A `qsort` that keeps all elements. -/
structure Qsort where
  sort : (Process → Process → ℤ) → List Process → List Process
  perm : ∀ compare rows, (sort compare rows).Perm rows

def insertionQsort : Qsort where
  sort compare := List.insertionSort fun first second ↦ compare first second ≤ 0
  perm _ rows := List.perm_insertionSort _ rows

/-! ## Scanning -/

/-- The fields of `/proc/<pid>/stat` that the scan uses. -/
structure StatFields where
  pid : ℤ
  comm : CString
  state : UInt8
  ppid : ℤ
  utime : ℕ
  stime : ℕ
  vsize : ℕ
  rss : ℤ

/-- The owner in `/proc/<pid>/status`. -/
inductive Owner where
  /-- The file has no line with a user number, or cannot be opened. -/
  | unknown
  | named (name : CString)
  /-- A user number without an entry in the password file. -/
  | unnamed (uid : ℤ)

/-- What the scan finds for one directory entry of `/proc`. -/
structure ProcEntry where
  name : CString
  /-- What the targets of the `sscanf` hold behind it, assigned or not.  Nothing when the file
  cannot be opened or read. -/
  stat : Option StatFields
  owner : Owner
  /-- The bytes that `fread` delivers, when the file can be opened. -/
  cmdline : Option (List UInt8)

/-- What one call of `get_processes` finds in `/proc`. -/
structure Snapshot where
  /-- The eight counters of the first line of `/proc/stat`. -/
  counters : Option (List ℕ)
  /-- The entries in the order of `readdir`. -/
  entries : Option (List ProcEntry)
  /-- The number in the first line of `/proc/meminfo`. -/
  memTotal : Option ℕ

/-- The static variables of `get_processes`. -/
structure Statics where
  prevTotalJiffies : ℕ
  /-- The array `prev_process_time`, once it has been allocated. -/
  prevProcessTime : Option (List ℕ)
  memTotal : ℕ

def initialStatics : Statics where
  prevTotalJiffies := 0
  prevProcessTime := none
  memTotal := 0

def Snapshot.totalJiffies (snapshot : Snapshot) : ℕ :=
  match snapshot.counters with
  | some counters => counters.sum % 2 ^ 64
  | none => 0

/-- `utime + stime`. -/
def StatFields.time (fields : StatFields) : ℕ := (fields.utime + fields.stime) % 2 ^ 64

/-- The fields of an entry that the scan gives a row to. -/
def ProcEntry.row (entry : ProcEntry) : Option StatFields :=
  if atoi entry.name ≤ 0 then none else entry.stat

def Owner.user : Owner → CString
  | .unknown => ⟨[117, 110, 107, 110, 111, 119, 110], by decide⟩
  | .named name => name.take 31
  | .unnamed uid => (ofInt uid).take 31

/-- The loop over the command line.  Its condition stops it at the first NUL, so the branch that
writes a blank is never taken. -/
def joinArguments : List UInt8 → List UInt8
  | [] => []
  | byte :: rest =>
      if byte = 0 then byte :: rest
      else (if byte = 0 ∧ rest.headD 0 ≠ 0 then 32 else byte) :: joinArguments rest

/-- The command column: the command line, or the name in `stat` if there is no command line. -/
def ProcEntry.command (entry : ProcEntry) (fields : StatFields) : CString :=
  match entry.cmdline with
  | none => fields.comm.take 255
  | some bytes =>
      let cmdline := ofBuffer (joinArguments (bytes.take 511))
      if 0 < cmdline.length then cmdline.take 255 else fields.comm.take 255

/-- The CPU share, in percent. -/
def cpuShare (prevTotal total prevTime time : ℕ) : ℚ :=
  if 0 < prevTotal ∧ prevTotal < total then
    let timeDiff : ℕ := (time + (2 ^ 64 - prevTime)) % 2 ^ 64
    let totalDiff : ℕ := total - prevTotal
    if 0 < totalDiff then (timeDiff : ℚ) / totalDiff * 100 else 0
  else 0

/-- `mem_total`, read by the first row that can read it. -/
def readMemTotal (snapshot : Snapshot) (memTotal : ℕ) : ℕ :=
  if memTotal = 0 then snapshot.memTotal.getD 0 else memTotal

/-- The row of an entry, given `mem_total` and the time in the slot of its position. -/
def makeRow (snapshot : Snapshot) (prevTotal memTotal prevTime : ℕ) (entry : ProcEntry)
    (fields : StatFields) : Process :=
  let rss : ℕ := (fields.rss * 4 % 2 ^ 64).toNat
  { pid := fields.pid
    ppid := fields.ppid
    user := entry.owner.user
    cpu := cpuShare prevTotal snapshot.totalJiffies prevTime fields.time
    mem := if 0 < memTotal then (rss : ℚ) / ((memTotal : ℚ) / 100) else 0
    vsz := fields.vsize / 1024
    rss := rss
    stat := fields.state
    command := entry.command fields }

/-- The loop over the directory: the rows, the slots and `mem_total`. -/
def scanLoop (snapshot : Snapshot) (prevTotal : ℕ) :
    List ProcEntry → ℕ → List ℕ → ℕ → List Process × List ℕ × ℕ
  | [], _, times, memTotal => ([], times, memTotal)
  | entry :: rest, index, times, memTotal =>
      if index < maxProcesses then
        match entry.row with
        | none => scanLoop snapshot prevTotal rest index times memTotal
        | some fields =>
            let total := readMemTotal snapshot memTotal
            let row := makeRow snapshot prevTotal total (times.getD index 0) entry fields
            let (rows, times, memTotal) :=
              scanLoop snapshot prevTotal rest (index + 1) (times.set index fields.time) total
            (row :: rows, times, memTotal)
      else ([], times, memTotal)

/-- The array of slots, zeroed when it is allocated. -/
def Statics.slots (statics : Statics) : List ℕ :=
  statics.prevProcessTime.getD (List.replicate maxProcesses 0)

/-! ## Filtering -/

/-- A row is kept if its command or its user contains the filter. -/
def matchesFilter (filter : CString) (process : Process) : Bool :=
  occurs process.command filter || occurs process.user filter

/-- The loop of the filter: the rows that are kept move to the front. -/
def filterLoop (keep : Process → Bool) : ℕ → ℕ → ℕ → List Process → List Process × ℕ
  | 0, _, kept, rows => (rows, kept)
  | remaining + 1, index, kept, rows =>
      match rows[index]? with
      | none => (rows, kept)
      | some row =>
          if keep row then filterLoop keep remaining (index + 1) (kept + 1) (rows.set kept row)
          else filterLoop keep remaining (index + 1) kept rows

/-- The rows and `plist->count` after the filter. -/
def applyFilter (filter : CString) (processes : List Process) (count : ℕ) : List Process × ℕ :=
  if 0 < filter.length then filterLoop (matchesFilter filter) count 0 0 processes
  else (processes, count)

def getProcesses (qsort : Qsort) (snapshot : Snapshot) (plist : ProcessList) (statics : Statics) :
    ProcessList × Statics :=
  match snapshot.entries with
  | none => (plist, { statics with prevProcessTime := some statics.slots })
  | some entries =>
      let (rows, times, memTotal) :=
        scanLoop snapshot statics.prevTotalJiffies entries 0 statics.slots statics.memTotal
      let (processes, count) :=
        applyFilter plist.filter (rows ++ plist.processes.drop rows.length) rows.length
      let sorted := qsort.sort (compareProcesses plist.sortBy plist.reverse) (processes.take count)
      ({ plist with processes := sorted ++ processes.drop count, count },
        { prevTotalJiffies := snapshot.totalJiffies, prevProcessTime := some times, memTotal })

/-- `display_processes` moves the offset so that the selected row is on a screen of `maxY` lines. -/
def displayProcesses (maxY : ℤ) (plist : ProcessList) : ProcessList :=
  let displayCount := if (plist.count : ℤ) < maxY - 6 then (plist.count : ℤ) else maxY - 6
  let offset :=
    if plist.offset + displayCount ≤ plist.selected then plist.selected - displayCount + 1
    else plist.offset
  { plist with offset := if plist.selected < offset then plist.selected else offset }

/-! ## What a scan records -/

/-- The entries that get a row, with their fields. -/
def Snapshot.recorded (snapshot : Snapshot) : List (ProcEntry × StatFields) :=
  (((snapshot.entries.getD []).filterMap fun entry ↦ entry.row.map (entry, ·))).take maxProcesses

def scanRows (snapshot : Snapshot) (statics : Statics) : List Process :=
  (scanLoop snapshot statics.prevTotalJiffies (snapshot.entries.getD []) 0 statics.slots
    statics.memTotal).1

/-- One round of the loop for every recorded entry. -/
structure Scanned (snapshot : Snapshot) (prevTotal index : ℕ) (times : List ℕ)
    (records : List (ProcEntry × StatFields)) (rows : List Process) (after : List ℕ) : Prop where
  length_eq : rows.length = records.length
  length_after : after.length = times.length
  row : ∀ position record, records[position]? = some record → ∃ memTotal,
    rows[position]? = some
      (makeRow snapshot prevTotal memTotal (times.getD (index + position) 0) record.1 record.2)
  slot : ∀ position record, records[position]? = some record →
    index + position < times.length → after.getD (index + position) 0 = record.2.time
  other : ∀ slot, slot < index ∨ index + records.length ≤ slot →
    after.getD slot 0 = times.getD slot 0

theorem getD_set_of_ne {times : List ℕ} {index slot : ℕ} (h : index ≠ slot) (time : ℕ) :
    (times.set index time).getD slot 0 = times.getD slot 0 := by
  rw [List.getD_eq_getElem?_getD, List.getD_eq_getElem?_getD, List.getElem?_set_ne h]

theorem getD_set_self {times : List ℕ} {index : ℕ} (h : index < times.length) (time : ℕ) :
    (times.set index time).getD index 0 = time := by
  rw [List.getD_eq_getElem?_getD, List.getElem?_set_self h, Option.getD_some]

/-- The round that makes the row at `index` comes before the rounds that make the rows behind it. -/
theorem Scanned.cons {snapshot : Snapshot} {prevTotal index : ℕ} {times after : List ℕ}
    {records : List (ProcEntry × StatFields)} {rows : List Process} {entry : ProcEntry}
    {fields : StatFields}
    (h : Scanned snapshot prevTotal (index + 1) (times.set index fields.time) records rows after)
    (memTotal : ℕ) :
    Scanned snapshot prevTotal index times ((entry, fields) :: records)
      (makeRow snapshot prevTotal memTotal (times.getD index 0) entry fields :: rows) after := by
  refine ⟨by rw [List.length_cons, List.length_cons, h.length_eq],
    by rw [h.length_after, List.length_set], fun position record hrecord ↦ ?_,
    fun position record hrecord hlt ↦ ?_, fun slot hslot ↦ ?_⟩
  · cases position with
    | zero =>
      obtain rfl : (entry, fields) = record := by simpa using hrecord
      exact ⟨memTotal, rfl⟩
    | succ position =>
      obtain ⟨total, hrow⟩ := h.row position record (by simpa using hrecord)
      refine ⟨total, ?_⟩
      rw [List.getElem?_cons_succ, hrow, getD_set_of_ne (by omega),
        show index + 1 + position = index + (position + 1) by omega]
  · cases position with
    | zero =>
      obtain rfl : (entry, fields) = record := by simpa using hrecord
      rw [Nat.add_zero] at hlt ⊢
      rw [h.other index (.inl (Nat.lt_succ_self _)), getD_set_self hlt]
    | succ position =>
      have hslot := h.slot position record (by simpa using hrecord)
        (by rw [List.length_set]; omega)
      rwa [show index + 1 + position = index + (position + 1) by omega] at hslot
  · rw [List.length_cons] at hslot
    rw [h.other slot (by omega), getD_set_of_ne (by omega)]

theorem scanLoop_cons (snapshot : Snapshot) (prevTotal : ℕ) (entry : ProcEntry)
    (rest : List ProcEntry) (index : ℕ) (times : List ℕ) (memTotal : ℕ) :
    scanLoop snapshot prevTotal (entry :: rest) index times memTotal =
      if index < maxProcesses then
        match entry.row with
        | none => scanLoop snapshot prevTotal rest index times memTotal
        | some fields =>
            let total := readMemTotal snapshot memTotal
            let behind :=
              scanLoop snapshot prevTotal rest (index + 1) (times.set index fields.time) total
            (makeRow snapshot prevTotal total (times.getD index 0) entry fields :: behind.1,
              behind.2)
      else ([], times, memTotal) := rfl

theorem scanLoop_scanned (snapshot : Snapshot) (prevTotal : ℕ) (entries : List ProcEntry)
    (index : ℕ) (times : List ℕ) (memTotal : ℕ) :
    Scanned snapshot prevTotal index times
      ((entries.filterMap fun entry ↦ entry.row.map (entry, ·)).take (maxProcesses - index))
      (scanLoop snapshot prevTotal entries index times memTotal).1
      (scanLoop snapshot prevTotal entries index times memTotal).2.1 := by
  induction entries generalizing index times memTotal with
  | nil =>
    rw [List.filterMap_nil, List.take_nil]
    exact ⟨rfl, rfl, by simp, by simp, fun _ _ ↦ rfl⟩
  | cons entry rest ih =>
    by_cases hindex : index < maxProcesses
    · cases hrow : entry.row with
      | none =>
        rw [scanLoop_cons, if_pos hindex, hrow,
          List.filterMap_cons_none (by rw [hrow, Option.map_none])]
        exact ih index times memTotal
      | some fields =>
        rw [scanLoop_cons, if_pos hindex, hrow,
          List.filterMap_cons_some (by rw [hrow, Option.map_some]),
          show maxProcesses - index = (maxProcesses - (index + 1)) + 1 by omega,
          List.take_succ_cons]
        exact (ih (index + 1) (times.set index fields.time) (readMemTotal snapshot memTotal)).cons _
    · have hnone : maxProcesses - index = 0 := by omega
      rw [scanLoop_cons, if_neg hindex, hnone, List.take_zero]
      exact ⟨rfl, rfl, by simp, by simp, fun _ _ ↦ rfl⟩

theorem length_scanRows (snapshot : Snapshot) (statics : Statics) :
    (scanRows snapshot statics).length = snapshot.recorded.length :=
  (scanLoop_scanned _ _ _ _ _ _).length_eq

/-! ## What the filter keeps -/

/-- The filter loop moves the rows that are kept to the front, in their order. -/
theorem filterLoop_spec (keep : Process → Bool) (remaining index kept : ℕ) (rows : List Process)
    (hkept : kept ≤ index) (hindex : index + remaining ≤ rows.length) :
    (filterLoop keep remaining index kept rows).1.length = rows.length ∧
      (filterLoop keep remaining index kept rows).2 =
        kept + (((rows.drop index).take remaining).filter keep).length ∧
      (filterLoop keep remaining index kept rows).1.take
          (filterLoop keep remaining index kept rows).2 =
        rows.take kept ++ ((rows.drop index).take remaining).filter keep := by
  induction remaining generalizing index kept rows with
  | zero => simp [filterLoop]
  | succ remaining ih =>
    have hlt : index < rows.length := by omega
    have hdrop : (rows.drop index).take (remaining + 1) =
        rows[index] :: (rows.drop (index + 1)).take remaining := by
      rw [List.drop_eq_getElem_cons hlt, List.take_succ_cons]
    unfold filterLoop
    rw [List.getElem?_eq_getElem hlt, hdrop]
    dsimp only
    by_cases hkeep : keep rows[index]
    · obtain ⟨hlength, hcount, hrows⟩ := ih (index + 1) (kept + 1) (rows.set kept rows[index])
        (by omega) (by rw [List.length_set]; omega)
      have hbehind : (rows.set kept rows[index]).drop (index + 1) = rows.drop (index + 1) :=
        List.drop_set_of_lt (by omega)
      have hfront : (rows.set kept rows[index]).take (kept + 1) =
          rows.take kept ++ [rows[index]] := by
        rw [List.take_succ_eq_append_getElem (by rw [List.length_set]; omega),
          List.getElem_set_self, List.take_set_of_le le_rfl]
      rw [if_pos hkeep, List.filter_cons_of_pos hkeep, List.length_cons]
      rw [hbehind] at hcount hrows
      rw [hfront, List.append_assoc, List.singleton_append] at hrows
      refine ⟨by rw [hlength, List.length_set], by rw [hcount]; omega, hrows⟩
    · rw [if_neg hkeep, List.filter_cons_of_neg hkeep]
      exact ih (index + 1) kept rows (by omega) (by omega)

/-- The rows that the filter lets through. -/
def shown (filter : CString) (rows : List Process) : List Process :=
  if 0 < filter.length then rows.filter (matchesFilter filter) else rows

theorem applyFilter_spec (filter : CString) (rows rest : List Process) :
    (applyFilter filter (rows ++ rest) rows.length).1.length = (rows ++ rest).length ∧
      (applyFilter filter (rows ++ rest) rows.length).2 = (shown filter rows).length ∧
      (applyFilter filter (rows ++ rest) rows.length).1.take
        (applyFilter filter (rows ++ rest) rows.length).2 = shown filter rows := by
  unfold applyFilter shown
  split_ifs with hfilter
  · obtain ⟨hlength, hcount, hrows⟩ := filterLoop_spec (matchesFilter filter) rows.length 0 0
      (rows ++ rest) le_rfl (by simp)
    rw [List.drop_zero, List.take_left, Nat.zero_add] at hcount
    rw [List.drop_zero, List.take_left, List.take_zero, List.nil_append] at hrows
    exact ⟨hlength, hcount, hrows⟩
  · exact ⟨rfl, rfl, List.take_left⟩

theorem length_shown_le (filter : CString) (rows : List Process) :
    (shown filter rows).length ≤ rows.length := by
  unfold shown
  split_ifs
  · exact List.length_filter_le _ _
  · exact le_rfl

/-- The filter decides about a process by its entry. -/
def recordMatches (filter : CString) (record : ProcEntry × StatFields) : Bool :=
  occurs (record.1.command record.2) filter || occurs record.1.owner.user filter

/-- The number of rows of a scan that the filter lets through. -/
def shownCount (filter : CString) (snapshot : Snapshot) : ℕ :=
  if 0 < filter.length then (snapshot.recorded.filter (recordMatches filter)).length
  else snapshot.recorded.length

theorem map_matchesFilter_scanRows (filter : CString) (snapshot : Snapshot) (statics : Statics) :
    (scanRows snapshot statics).map (matchesFilter filter) =
      snapshot.recorded.map (recordMatches filter) := by
  have hscanned := scanLoop_scanned snapshot statics.prevTotalJiffies (snapshot.entries.getD []) 0
    statics.slots statics.memTotal
  apply List.ext_getElem?
  intro position
  rw [List.getElem?_map, List.getElem?_map]
  cases hrecord : snapshot.recorded[position]? with
  | none =>
    have hle := List.getElem?_eq_none_iff.1 hrecord
    rw [← length_scanRows snapshot statics] at hle
    rw [List.getElem?_eq_none hle, Option.map_none, Option.map_none]
  | some record =>
    obtain ⟨memTotal, hrow⟩ := hscanned.row position record hrecord
    unfold scanRows
    rw [hrow, Option.map_some, Option.map_some]
    rfl

theorem length_shown_scanRows (filter : CString) (snapshot : Snapshot) (statics : Statics) :
    (shown filter (scanRows snapshot statics)).length = shownCount filter snapshot := by
  unfold shown shownCount
  split_ifs
  · have hcount := congrArg (List.countP id) (map_matchesFilter_scanRows filter snapshot statics)
    rw [List.countP_map, List.countP_map, Function.id_comp, Function.id_comp] at hcount
    rwa [List.countP_eq_length_filter, List.countP_eq_length_filter] at hcount
  · exact length_scanRows snapshot statics

/-- The array has all its rows, and `count` of them are on display. -/
structure ProcessList.Valid (plist : ProcessList) : Prop where
  length_eq : plist.processes.length = maxProcesses
  count_le : plist.count ≤ maxProcesses

theorem valid_initialList : initialList.Valid := ⟨List.length_replicate, Nat.zero_le _⟩

theorem length_recorded_le (snapshot : Snapshot) : snapshot.recorded.length ≤ maxProcesses := by
  unfold Snapshot.recorded
  rw [List.length_take]
  exact Nat.min_le_left _ _

/-- The scan, when the directory can be read. -/
theorem getProcesses_of_entries (qsort : Qsort) {snapshot : Snapshot} (plist : ProcessList)
    (statics : Statics) (hentries : snapshot.entries ≠ none) :
    (getProcesses qsort snapshot plist statics).1 =
      let rows := scanRows snapshot statics
      let filtered :=
        applyFilter plist.filter (rows ++ plist.processes.drop rows.length) rows.length
      { plist with
        processes :=
          qsort.sort (compareProcesses plist.sortBy plist.reverse) (filtered.1.take filtered.2) ++
            filtered.1.drop filtered.2
        count := filtered.2 } := by
  obtain ⟨entries, hsome⟩ := Option.ne_none_iff_exists'.1 hentries
  have hscan : (scanLoop snapshot statics.prevTotalJiffies entries 0 statics.slots
      statics.memTotal).1 = scanRows snapshot statics := by
    unfold scanRows
    rw [hsome, Option.getD_some]
  simp only [getProcesses, hsome, hscan]

/-- After a scan, the list displays the rows of the scan that the filter lets through, as `qsort`
orders them. -/
theorem listed_getProcesses (qsort : Qsort) {snapshot : Snapshot} (plist : ProcessList)
    (statics : Statics) (hentries : snapshot.entries ≠ none) :
    (getProcesses qsort snapshot plist statics).1.listed =
      qsort.sort (compareProcesses plist.sortBy plist.reverse)
        (shown plist.filter (scanRows snapshot statics)) := by
  obtain ⟨-, hcount, htake⟩ := applyFilter_spec plist.filter (scanRows snapshot statics)
    (plist.processes.drop (scanRows snapshot statics).length)
  have hsorted := (qsort.perm (compareProcesses plist.sortBy plist.reverse)
    (shown plist.filter (scanRows snapshot statics))).length_eq
  rw [getProcesses_of_entries qsort plist statics hentries]
  unfold ProcessList.listed
  dsimp only
  rw [htake, List.take_append_of_le_length (hcount.trans hsorted.symm).le,
    List.take_of_length_le (hsorted.trans hcount.symm).le]

/-- After a scan, the list displays the rows of the scan that the filter lets through, in some
order. -/
theorem getProcesses_spec (qsort : Qsort) {snapshot : Snapshot} {plist : ProcessList}
    (h : plist.Valid) (statics : Statics) (hentries : snapshot.entries ≠ none) :
    (getProcesses qsort snapshot plist statics).1.Valid ∧
      (getProcesses qsort snapshot plist statics).1.count = shownCount plist.filter snapshot ∧
      (getProcesses qsort snapshot plist statics).1.listed.Perm
        (shown plist.filter (scanRows snapshot statics)) := by
  have hrows : (scanRows snapshot statics).length ≤ maxProcesses := by
    rw [length_scanRows]
    exact length_recorded_le snapshot
  obtain ⟨hlength, hcount, htake⟩ := applyFilter_spec plist.filter (scanRows snapshot statics)
    (plist.processes.drop (scanRows snapshot statics).length)
  have hshown := length_shown_le plist.filter (scanRows snapshot statics)
  have harray : (scanRows snapshot statics ++
      plist.processes.drop (scanRows snapshot statics).length).length = maxProcesses := by
    rw [List.length_append, List.length_drop, h.length_eq]
    omega
  have hsorted := (qsort.perm (compareProcesses plist.sortBy plist.reverse)
    (shown plist.filter (scanRows snapshot statics))).length_eq
  refine ⟨?_, ?_, ?_⟩
  · rw [getProcesses_of_entries qsort plist statics hentries]
    constructor
    · dsimp only
      rw [htake, List.length_append, List.length_drop, hlength, harray, hsorted, hcount]
      omega
    · calc
        _ = (shown plist.filter (scanRows snapshot statics)).length := hcount
        _ ≤ (scanRows snapshot statics).length := hshown
        _ ≤ maxProcesses := hrows
  · rw [getProcesses_of_entries qsort plist statics hentries]
    exact hcount.trans (length_shown_scanRows _ _ _)
  · rw [listed_getProcesses qsort plist statics hentries]
    exact qsort.perm _ _

/-- Without a directory to read, the list stays as it is. -/
theorem getProcesses_of_none (qsort : Qsort) {snapshot : Snapshot} (plist : ProcessList)
    (statics : Statics) (hentries : snapshot.entries = none) :
    (getProcesses qsort snapshot plist statics).1 = plist := by
  unfold getProcesses
  rw [hentries]

end HiFetch.Monitor
