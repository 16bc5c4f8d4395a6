import HiFetch.Library.Transition
import HiFetch.Monitor.StatLine
import Mathlib.Tactic.NormNum

/-!
# CPU shares of two scans

A scan compares the time of a process with the slot of its position, which holds the time of the
process that the last scan listed there.  So a process gets its own share exactly when the slot
happens to hold its own earlier time, as it does for a process that has kept its position.

The times of a row are those that the `sscanf` of its line has assigned.  A name with white space
keeps it from assigning them, and the row is then made with what the two variables held before.
-/

namespace HiFetch.Monitor

open CString Scanf Transition

/-- The static variables after a scan. -/
def scanStatics (statics : Statics) (snapshot : Snapshot) : Statics :=
  match snapshot.entries with
  | none => { statics with prevProcessTime := some statics.slots }
  | some entries =>
      let (_, times, memTotal) :=
        scanLoop snapshot statics.prevTotalJiffies entries 0 statics.slots statics.memTotal
      { prevTotalJiffies := snapshot.totalJiffies, prevProcessTime := some times, memTotal }

/-- They do not depend on the list, its filter or its order. -/
theorem getProcesses_statics (qsort : Qsort) (snapshot : Snapshot) (plist : ProcessList)
    (statics : Statics) :
    (getProcesses qsort snapshot plist statics).2 = scanStatics statics snapshot := by
  cases hentries : snapshot.entries <;> simp only [getProcesses, scanStatics, hentries]

/-- A call of `get_processes`: the list as the keys have left it, and what the scan finds. -/
structure Call where
  plist : ProcessList
  snapshot : Snapshot

/-- The static variables after a call. -/
def callStep (qsort : Qsort) (statics : Statics) (call : Call) : Statics :=
  (getProcesses qsort call.snapshot call.plist statics).2

theorem callStep_eq (qsort : Qsort) (statics : Statics) (call : Call) :
    callStep qsort statics call = scanStatics statics call.snapshot :=
  getProcesses_statics qsort call.snapshot call.plist statics

/-- There is a slot for every row, and slots hold values of type `unsigned long`. -/
structure Statics.Valid (statics : Statics) : Prop where
  length_eq : statics.slots.length = maxProcesses
  slot_lt : ∀ slot, statics.slots.getD slot 0 < 2 ^ 64

theorem valid_initialStatics : initialStatics.Valid := by
  refine ⟨List.length_replicate, fun slot ↦ ?_⟩
  have hzero : initialStatics.slots.getD slot 0 = 0 := by
    simp only [Statics.slots, initialStatics, Option.getD_none, List.getD_eq_getElem?_getD,
      List.getElem?_replicate]
    split_ifs <;> rfl
  rw [hzero]
  decide

theorem scanned (snapshot : Snapshot) (statics : Statics) :
    Scanned snapshot statics.prevTotalJiffies 0 statics.slots snapshot.recorded
      (scanRows snapshot statics) (scanStatics statics snapshot).slots := by
  have h := scanLoop_scanned snapshot statics.prevTotalJiffies (snapshot.entries.getD []) 0
    statics.slots statics.memTotal
  have hslots : (scanStatics statics snapshot).slots = (scanLoop snapshot statics.prevTotalJiffies
      (snapshot.entries.getD []) 0 statics.slots statics.memTotal).2.1 := by
    cases hentries : snapshot.entries <;> simp only [scanStatics, hentries] <;> rfl
  rw [hslots]
  exact h

/-- The slot of a position after a scan: the time of the process listed there, or what the slot held
before. -/
def slotAfter (statics : Statics) (snapshot : Snapshot) (position : ℕ) : ℕ :=
  match snapshot.recorded[position]? with
  | some record => record.2.time
  | none => statics.slots.getD position 0

theorem slots_scanStatics {statics : Statics} (h : statics.Valid) (snapshot : Snapshot)
    (position : ℕ) :
    (scanStatics statics snapshot).slots.getD position 0 = slotAfter statics snapshot position := by
  have hscanned := scanned snapshot statics
  unfold slotAfter
  cases hrecord : snapshot.recorded[position]? with
  | some record =>
    have hlt : position < maxProcesses := calc
      position < snapshot.recorded.length := (List.getElem?_eq_some_iff.1 hrecord).1
      _ ≤ maxProcesses := length_recorded_le snapshot
    have hslot := hscanned.slot position record hrecord
    rw [Nat.zero_add, h.length_eq] at hslot
    exact hslot hlt
  | none =>
    refine hscanned.other position (.inr ?_)
    rw [Nat.zero_add]
    exact List.getElem?_eq_none_iff.1 hrecord

theorem time_lt (fields : StatFields) : fields.time < 2 ^ 64 := Nat.mod_lt _ (by decide)

theorem Statics.Valid.next {statics : Statics} (h : statics.Valid) (snapshot : Snapshot) :
    (scanStatics statics snapshot).Valid := by
  refine ⟨(scanned snapshot statics).length_after.trans h.length_eq, fun slot ↦ ?_⟩
  rw [slots_scanStatics h, slotAfter]
  cases snapshot.recorded[slot]? with
  | some record => exact time_lt record.2
  | none => exact h.slot_lt slot

/-! ## The files of a scan -/

/-- A directory entry of `/proc` with the files that its row is made from. -/
structure ProcFiles where
  name : CString
  /-- What the kernel prints into `stat`.  Nothing when the file cannot be opened or read. -/
  stat : Option StatRecord
  /-- What the targets of the `sscanf` hold when it is called. -/
  left : StatFields
  owner : Owner
  cmdline : Option (List UInt8)

def ProcFiles.entry (files : ProcFiles) : ProcEntry where
  name := files.name
  stat := files.stat.map fun record ↦ readTargets files.left record.line
  owner := files.owner
  cmdline := files.cmdline

/-- What one call of `get_processes` finds, before it reads the lines. -/
structure ProcScan where
  counters : Option (List ℕ)
  entries : Option (List ProcFiles)
  memTotal : Option ℕ

def ProcScan.snapshot (scan : ProcScan) : Snapshot where
  counters := scan.counters
  entries := scan.entries.map fun entries ↦ entries.map ProcFiles.entry
  memTotal := scan.memTotal

/-- The processes that the scan lists, in the order of their rows. -/
def ProcScan.recorded (scan : ProcScan) : List (ProcFiles × StatRecord) :=
  ((scan.entries.getD []).filterMap fun files ↦
    if atoi files.name ≤ 0 then none else files.stat.map (files, ·)).take maxProcesses

/-- The fields that the row of a listed process is made from. -/
def rowFields (record : ProcFiles × StatRecord) : StatFields :=
  readTargets record.1.left record.2.line

theorem recorded_snapshot (scan : ProcScan) :
    scan.snapshot.recorded =
      scan.recorded.map fun record ↦ (record.1.entry, rowFields record) := by
  have hentries : scan.snapshot.entries.getD [] = (scan.entries.getD []).map ProcFiles.entry := by
    cases hnone : scan.entries <;> simp [ProcScan.snapshot, hnone]
  have hentry : ∀ files : ProcFiles, files.entry.row.map (files.entry, ·) =
      (if atoi files.name ≤ 0 then none else files.stat.map (files, ·)).map
        fun record ↦ (record.1.entry, rowFields record) := by
    intro files
    show Option.map _ (if atoi files.name ≤ 0 then none else files.entry.stat) = _
    split_ifs with hname
    · rfl
    · cases hstat : files.stat <;> simp [ProcFiles.entry, rowFields, hstat]
  unfold Snapshot.recorded ProcScan.recorded
  rw [hentries, List.filterMap_map, List.map_take, List.map_filterMap]
  simp only [Function.comp_def, hentry]

/-- What a scan leaves in the slot of a position: the time of the row there, which for a name with
white space is the one left over, or what the slot held before. -/
theorem slotAfter_snapshot (statics : Statics) (scan : ProcScan) (position : ℕ) :
    slotAfter statics scan.snapshot position =
      ((scan.recorded[position]?.map fun record ↦ (rowFields record).time).getD
        (statics.slots.getD position 0)) := by
  unfold slotAfter
  rw [recorded_snapshot, List.getElem?_map]
  cases scan.recorded[position]? <;> rfl

/-! ## The share of a process -/

theorem cpuShare_eq_iff {prevTotal total prevTime time earlier later : ℕ} (hpos : 0 < prevTotal)
    (htotal : prevTotal < total) (hearlier : earlier ≤ later) :
    cpuShare prevTotal total prevTime time =
        100 * ((later : ℚ) - earlier) / ((total : ℚ) - prevTotal) ↔
      (time + (2 ^ 64 - prevTime)) % 2 ^ 64 = later - earlier := by
  have hne : ((total - prevTotal : ℕ) : ℚ) ≠ 0 := by
    rw [Nat.cast_ne_zero]
    omega
  unfold cpuShare
  rw [if_pos ⟨hpos, htotal⟩]
  dsimp only
  rw [if_pos (by omega), ← Nat.cast_sub hearlier, ← Nat.cast_sub htotal.le, div_mul_eq_mul_div,
    mul_comm, div_left_inj' hne, mul_right_inj' (by norm_num), Nat.cast_inj]

/-- The difference of two times is taken modulo `2 ^ 64`, so it is the right one for the right
earlier time only. -/
theorem difference_eq_iff {prevTime time earlier : ℕ} (hprev : prevTime < 2 ^ 64)
    (htime : time < 2 ^ 64) (hearlier : earlier ≤ time) :
    (time + (2 ^ 64 - prevTime)) % 2 ^ 64 = time - earlier ↔ prevTime = earlier := by
  omega

/-- The slot of a row holds the earlier time of its process.  If the name has white space, what is
left in the two variables has to make up for what is left in the slot. -/
def SlotFits (slot : ℕ) (before after : ProcFiles × StatRecord) : Prop :=
  (after.2.Solid → slot = before.2.time) ∧
    (¬after.2.Solid →
      (after.1.left.time + (2 ^ 64 - slot)) % 2 ^ 64 = after.2.time - before.2.time)

theorem slotFits_iff {slot : ℕ} (hslot : slot < 2 ^ 64) {before after : ProcFiles × StatRecord}
    (htime : before.2.time ≤ after.2.time) :
    SlotFits slot before after ↔
      ((rowFields after).time + (2 ^ 64 - slot)) % 2 ^ 64 = after.2.time - before.2.time := by
  unfold SlotFits rowFields
  by_cases hsolid : after.2.Solid
  · have hlt : after.2.time < 2 ^ 64 := Nat.mod_lt _ (by decide)
    rw [time_readTargets_of_solid hsolid, difference_eq_iff hslot hlt htime]
    exact ⟨fun h ↦ h.1 hsolid, fun h ↦ ⟨fun _ ↦ h, fun hnot ↦ absurd hsolid hnot⟩⟩
  · rw [time_readTargets_of_not_solid hsolid]
    exact ⟨fun h ↦ h.2 hsolid, fun h ↦ ⟨fun hyes ↦ absurd hyes hsolid, fun _ ↦ h⟩⟩

/-- A call that finds the files. -/
def ProcScan.call (scan : ProcScan) (plist : ProcessList) : Call := ⟨plist, scan.snapshot⟩

/-- The row at a position of a scan is that of the process listed there, with its share of the time
since the scan before. -/
theorem row_of_scans (qsort : Qsort) (earlier : List Call) {first : ProcScan}
    (hfirst : first.entries.isSome) (plist : ProcessList) {second : ProcScan} {position : ℕ}
    {after : ProcFiles × StatRecord} (hafter : second.recorded[position]? = some after) :
    ∃ slot < 2 ^ 64,
      slot = slotAfter (run (callStep qsort) initialStatics earlier) first.snapshot position ∧
      (scanRows second.snapshot (run (callStep qsort) initialStatics
          (earlier ++ [first.call plist])))[position]?.map (fun row ↦ (row.pid, row.cpu)) =
        some (after.2.pid.toInt, cpuShare first.snapshot.totalJiffies second.snapshot.totalJiffies
          slot (rowFields after).time) := by
  have hstep : ∀ statics call, statics.Valid → (callStep qsort statics call).Valid :=
    fun statics call h ↦ callStep_eq qsort statics call ▸ h.next call.snapshot
  have hvalid := (throughout_of_step hstep earlier valid_initialStatics).last
  rw [run_append, run_cons, run_nil, callStep_eq]
  generalize run (callStep qsort) initialStatics earlier = statics at hvalid ⊢
  have hslot := (hvalid.next first.snapshot).slot_lt position
  have hprev : (scanStatics statics first.snapshot).prevTotalJiffies =
      first.snapshot.totalJiffies := by
    obtain ⟨entries, hentries⟩ := Option.isSome_iff_exists.1 hfirst
    simp only [scanStatics, ProcScan.snapshot, hentries, Option.map_some]
  have hrecorded : second.snapshot.recorded[position]? =
      some (after.1.entry, rowFields after) := by
    rw [recorded_snapshot, List.getElem?_map, hafter, Option.map_some]
  rw [slots_scanStatics hvalid] at hslot
  refine ⟨_, hslot, rfl, ?_⟩
  obtain ⟨memTotal, hrow⟩ :=
    (scanned second.snapshot (scanStatics statics first.snapshot)).row position _ hrecorded
  have hpid : (rowFields after).pid = after.2.pid.toInt := pid_readTargets after.2 after.1.left
  show Option.map _ (scanRows second.snapshot (scanStatics statics first.snapshot))[position]? = _
  rw [hrow, Nat.zero_add, Option.map_some, slots_scanStatics hvalid, ← hpid, ← hprev]
  rfl

/-- After any earlier calls, let two consecutive calls list a process.  The row that the second
call makes for it has its own share exactly when the slot of its position fits. -/
theorem cpu_attributed_iff (qsort : Qsort) (earlier : List Call) (plist : ProcessList)
    {first second : ProcScan} (hpos : 0 < first.snapshot.totalJiffies)
    (htotal : first.snapshot.totalJiffies < second.snapshot.totalJiffies)
    {position : ℕ} {after : ProcFiles × StatRecord}
    (hafter : second.recorded[position]? = some after) :
    ∀ before ∈ first.recorded,
      before.2.pid = after.2.pid → before.2.time ≤ after.2.time →
      ((scanRows second.snapshot (run (callStep qsort) initialStatics
            (earlier ++ [first.call plist])))[position]?.map (fun row ↦ (row.pid, row.cpu)) =
          some (after.2.pid.toInt, 100 * ((after.2.time : ℚ) - before.2.time) /
            ((second.snapshot.totalJiffies : ℚ) - first.snapshot.totalJiffies)) ↔
        SlotFits (slotAfter (run (callStep qsort) initialStatics earlier) first.snapshot position)
          before after) := by
  intro before hbefore _ htime
  have hfirst : first.entries.isSome := by
    cases hnone : first.entries with
    | none => simp [ProcScan.recorded, hnone] at hbefore
    | some entries => rfl
  obtain ⟨slot, hslot, hslotAfter, hrow⟩ :=
    row_of_scans qsort earlier hfirst plist hafter
  rw [hrow, ← hslotAfter, Option.some.injEq, Prod.mk.injEq, cpuShare_eq_iff hpos htotal htime,
    slotFits_iff hslot htime]
  exact ⟨fun h ↦ h.2, fun h ↦ ⟨rfl, h⟩⟩

def fieldsAt (pid time : ℕ) : StatFields where
  pid := pid
  comm := ofInt pid
  state := 83
  ppid := 1
  utime := time
  stime := 0
  vsize := 0
  rss := 0

def entryAt (pid time : ℕ) : ProcEntry where
  name := ofInt pid
  stat := some (fieldsAt pid time)
  owner := .unknown
  cmdline := none

def snapshotAt (total : ℕ) (entries : List ProcEntry) : Snapshot where
  counters := some [total, 0, 0, 0, 0, 0, 0, 0]
  entries := some entries
  memTotal := some 1024

/-- The kernel's record of a process with a number and a time. -/
def recordAt (pid : Int32) (time : UInt64) : StatRecord where
  pid := pid
  comm := ofBuffer [97]
  state := 82
  ppid := 1
  pgrp := pid
  session := pid
  ttyNr := 0
  tpgid := -1
  flags := 0
  minflt := 0
  cminflt := 0
  majflt := 0
  cmajflt := 0
  utime := time
  stime := 0
  cutime := 0
  cstime := 0
  priority := 20
  nice := 0
  numThreads := 1
  itrealvalue := 0
  starttime := 0
  vsize := 0
  rss := 0
  others := List.replicate 28 1
  comm_length := by decide
  comm_clean := by decide
  state_letter := by decide
  others_length := rfl

theorem solid_recordAt (pid : Int32) (time : UInt64) : (recordAt pid time).Solid := by
  show ∀ byte ∈ (ofBuffer [97]).bytes, ¬isSpace byte
  decide +kernel

def filesAt (pid : Int32) (time : UInt64) : ProcFiles where
  name := ofInt pid.toInt
  stat := some (recordAt pid time)
  left := fieldsAt 0 0
  owner := .unknown
  cmdline := none

def scanAt (total : ℕ) (entries : List ProcFiles) : ProcScan where
  counters := some [total, 0, 0, 0, 0, 0, 0, 0]
  entries := some entries
  memTotal := some 1024

/-- A process that keeps its position, below one that stays. -/
theorem cpu_attributed_iff_example :
    (scanRows (scanAt 2000 [filesAt 1 130, filesAt 2 60]).snapshot
          (run (callStep insertionQsort) initialStatics
            ([] ++ [(scanAt 1000 [filesAt 1 100, filesAt 2 50]).call initialList])))[1]?.map
          (fun row ↦ (row.pid, row.cpu)) =
        some ((recordAt 2 60).pid.toInt,
          100 * (((recordAt 2 60).time : ℚ) - (recordAt 2 50).time) /
            (((scanAt 2000 [filesAt 1 130, filesAt 2 60]).snapshot.totalJiffies : ℚ) -
              (scanAt 1000 [filesAt 1 100, filesAt 2 50]).snapshot.totalJiffies)) ↔
      SlotFits (slotAfter (run (callStep insertionQsort) initialStatics [])
          (scanAt 1000 [filesAt 1 100, filesAt 2 50]).snapshot 1)
        (filesAt 2 50, recordAt 2 50) (filesAt 2 60, recordAt 2 60) := by
  have hafter : (scanAt 2000 [filesAt 1 130, filesAt 2 60]).recorded[1]? =
      some (filesAt 2 60, recordAt 2 60) := rfl
  have hbefore : (filesAt 2 50, recordAt 2 50) ∈
      (scanAt 1000 [filesAt 1 100, filesAt 2 50]).recorded := List.mem_of_getElem? (i := 1) rfl
  have hpos : 0 < (scanAt 1000 [filesAt 1 100, filesAt 2 50]).snapshot.totalJiffies := by decide
  have htotal : (scanAt 1000 [filesAt 1 100, filesAt 2 50]).snapshot.totalJiffies <
      (scanAt 2000 [filesAt 1 130, filesAt 2 60]).snapshot.totalJiffies := by decide
  have hpid : (recordAt 2 50).pid = (recordAt 2 60).pid := rfl
  have htime : (recordAt 2 50).time ≤ (recordAt 2 60).time := by decide
  exact (cpu_attributed_iff insertionQsort [] initialList hpos htotal hafter
    (filesAt 2 50, recordAt 2 50) hbefore hpid htime :)

/-- Process 1 ends between two scans, and process 2 moves to its position. -/
theorem cpu_misattributed :
    ¬∀ (qsort : Qsort) (plist : ProcessList) (first second : ProcScan) (position : ℕ)
        (before after : ProcFiles × StatRecord),
      before ∈ first.recorded → second.recorded[position]? = some after →
      before.2.pid = after.2.pid → before.2.time ≤ after.2.time →
      0 < first.snapshot.totalJiffies →
      first.snapshot.totalJiffies < second.snapshot.totalJiffies →
      (scanRows second.snapshot
          (run (callStep qsort) initialStatics [first.call plist]))[position]?.map
          (fun row ↦ (row.pid, row.cpu)) =
        some (after.2.pid.toInt, 100 * ((after.2.time : ℚ) - before.2.time) /
          ((second.snapshot.totalJiffies : ℚ) - first.snapshot.totalJiffies)) := by
  intro h
  have hafter : (scanAt 2000 [filesAt 2 60]).recorded[0]? =
      some (filesAt 2 60, recordAt 2 60) := rfl
  have hbefore : (filesAt 2 50, recordAt 2 50) ∈
      (scanAt 1000 [filesAt 1 100, filesAt 2 50]).recorded := List.mem_of_getElem? (i := 1) rfl
  have hpid : (recordAt 2 50).pid = (recordAt 2 60).pid := rfl
  have htime : (recordAt 2 50).time ≤ (recordAt 2 60).time := by decide
  have hpos : 0 < (scanAt 1000 [filesAt 1 100, filesAt 2 50]).snapshot.totalJiffies := by decide
  have htotal : (scanAt 1000 [filesAt 1 100, filesAt 2 50]).snapshot.totalJiffies <
      (scanAt 2000 [filesAt 2 60]).snapshot.totalJiffies := by decide
  have hshare := h insertionQsort initialList _ _ 0 _ _ hbefore hafter hpid htime hpos htotal
  have hfirst : (scanAt 1000 [filesAt 1 100, filesAt 2 50]).entries.isSome := rfl
  obtain ⟨slot, -, hslot, hrow⟩ :=
    row_of_scans insertionQsort [] hfirst initialList hafter
  -- the slot holds the time of process 1
  have hnumber : slot = 100 := by
    rw [hslot, slotAfter_snapshot]
    exact time_readTargets_of_solid (solid_recordAt 1 100) (fieldsAt 0 0)
  have htarget : (rowFields (filesAt 2 60, recordAt 2 60)).time = 60 :=
    time_readTargets_of_solid (solid_recordAt 2 60) (fieldsAt 0 0)
  rw [List.nil_append] at hrow
  rw [hrow, Option.some.injEq, Prod.mk.injEq, cpuShare_eq_iff hpos htotal htime, hnumber,
    htarget] at hshare
  exact absurd hshare.2 (by decide)

end HiFetch.Monitor
