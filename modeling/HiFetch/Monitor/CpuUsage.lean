import HiFetch.Library.Scanf
import HiFetch.Library.Transition
import Mathlib.Algebra.Order.Field.Basic
import Mathlib.Algebra.Order.Ring.Rat
import Mathlib.Logic.Function.Basic
import Mathlib.Tactic.Positivity

/-!
# The CPU usage

`get_cpu_info` reads the lines `cpu` and `cpuN` of `/proc/stat` and compares the seven counters of a
line with those saved for it: row 0 is the line `cpu`, and row `N + 1` the line `cpuN`.  The usage
is the part of the elapsed time that was work, in percent.  The usage of the line `cpu` also goes
to a ring of 60 values, which `draw_cpu_graph` shows as bars.

The counters are machine words and the usage is exact.
-/

namespace HiFetch.Monitor

open CString Scanf Transition

/-- The seven counters of a line. -/
structure CpuTimes where
  user : UInt64
  nice : UInt64
  system : UInt64
  idle : UInt64
  iowait : UInt64
  irq : UInt64
  softirq : UInt64
deriving DecidableEq

def CpuTimes.zero : CpuTimes := ⟨0, 0, 0, 0, 0, 0, 0⟩

def CpuTimes.total (times : CpuTimes) : UInt64 :=
  times.user + times.nice + times.system + times.idle + times.iowait + times.irq + times.softirq

def CpuTimes.work (times : CpuTimes) : UInt64 := times.user + times.nice + times.system

/-- No counter is smaller than before. -/
structure CpuTimes.Before (earlier later : CpuTimes) : Prop where
  user : earlier.user ≤ later.user
  nice : earlier.nice ≤ later.nice
  system : earlier.system ≤ later.system
  idle : earlier.idle ≤ later.idle
  iowait : earlier.iowait ≤ later.iowait
  irq : earlier.irq ≤ later.irq
  softirq : earlier.softirq ≤ later.softirq

/-- The sum of the counters is a machine word. -/
def CpuTimes.Fits (times : CpuTimes) : Prop :=
  times.user.toNat + times.nice.toNat + times.system.toNat + times.idle.toNat +
    times.iowait.toNat + times.irq.toNat + times.softirq.toNat < 2 ^ 64

/-- Which line it is. -/
inductive CpuKey where
  | all
  | core (number : ℤ)
deriving DecidableEq

/-- `%s %lu %lu %lu %lu %lu %lu %lu` -/
def cpuFormat : List Directive :=
  .convert .text true :: numbers (List.replicate 7 (.unsigned 64, true))

/-- The name and the counters, when all eight targets are assigned. -/
def cpuTargets : List Value → Option (CString × CpuTimes)
  | [.text name, .integer user, .integer nice, .integer system, .integer idle, .integer iowait,
      .integer irq, .integer softirq] =>
      some (name, ⟨.ofNat user.toNat, .ofNat nice.toNat, .ofNat system.toNat, .ofNat idle.toNat,
        .ofNat iowait.toNat, .ofNat irq.toNat, .ofNat softirq.toNat⟩)
  | _ => none

def cpuPrefix : List UInt8 := [99, 112, 117]

def cpuKey (name : CString) : Option CpuKey :=
  if name.bytes = cpuPrefix then some .all
  else if name.bytes.take 3 = cpuPrefix ∧ 3 < name.length then
    some (.core (ofBuffer (name.bytes.drop 3)).atoi)
  else none

/-- What a line of `/proc/stat` says about a CPU. -/
def cpuLine (line : List UInt8) : Option (CpuKey × CpuTimes) :=
  if line.take 3 = cpuPrefix then
    (cpuTargets (sscanf cpuFormat line)).bind fun targets ↦
      (cpuKey targets.1).map fun key ↦ (key, targets.2)
  else none

/-- `CpuInfo`, and the counters that `get_cpu_info` keeps in a static array. -/
structure CpuState where
  usage : ℤ → ℚ
  cores : ℤ
  totalUsage : ℚ
  history : ℤ → ℚ
  historyPos : ℤ
  prevCpuTimes : ℤ → CpuTimes

/-- `main` clears the structure with `memset`. -/
def startCpuState : CpuState where
  usage := fun _ ↦ 0
  cores := 0
  totalUsage := 0
  history := fun _ ↦ 0
  historyPos := 0
  prevCpuTimes := fun _ ↦ .zero

/-- The part of the elapsed time that was work, in percent. -/
def cpuPercent (prev times : CpuTimes) : ℚ :=
  let totalDiff := times.total - prev.total
  let workDiff := times.work - prev.work
  if 0 < totalDiff then workDiff.toNat / totalDiff.toNat * 100 else 0

def updateHistory (state : CpuState) (value : ℚ) : CpuState :=
  { state with
    history := Function.update state.history state.historyPos value
    historyPos := (state.historyPos + 1).tmod 60 }

/-- The body of the loop of `get_cpu_info`, for a line about a CPU. -/
def accountLine (state : CpuState) (line : CpuKey × CpuTimes) : CpuState :=
  match line.1 with
  | .all =>
      let prev := state.prevCpuTimes 0
      let usage := if 0 < prev.total then cpuPercent prev line.2 else state.totalUsage
      updateHistory
        { state with
          totalUsage := usage
          prevCpuTimes := Function.update state.prevCpuTimes 0 line.2 } usage
  | .core number =>
      if number < 32 then
        let prev := state.prevCpuTimes (number + 1)
        { state with
          usage :=
            if 0 < prev.total then
              Function.update state.usage number (cpuPercent prev line.2)
            else state.usage
          prevCpuTimes := Function.update state.prevCpuTimes (number + 1) line.2
          cores := number + 1 }
      else state

/-- `get_cpu_info`, for the lines of `/proc/stat` as `fgets` delivers them, or a file that cannot be
opened.  The loop also tests a counter of cores that it never increases. -/
def getCpuInfo (state : CpuState) (file : Option (List (List UInt8))) : CpuState :=
  match file with
  | none => state
  | some lines =>
      (lines.filterMap cpuLine).foldl accountLine { state with totalUsage := 0, cores := 0 }

/-! ## The graph -/

inductive GraphColor where
  | low
  | med
  | high
deriving DecidableEq

structure Block where
  row : ℤ
  column : ℤ
  color : GraphColor
deriving DecidableEq

def truncate (value : ℚ) : ℤ := value.num.tdiv value.den

def graphColor (value : ℚ) : GraphColor :=
  if 70 < value then .high else if 40 < value then .med else .low

/-- The blocks that `draw_cpu_graph` draws. -/
def drawCpuGraph (state : CpuState) (y x : ℤ) : List Block :=
  (List.range 8).flatMap fun (i : ℕ) ↦
    let histPos := (state.historyPos - 50 + 60).tmod 60
    (List.range 50).filterMap fun (j : ℕ) ↦
      let value := state.history ((histPos + j).tmod 60)
      let barHeight := truncate (value / 100 * 8)
      if 8 - barHeight ≤ i then
        some ⟨y + 8 - i, x + 1 + j, graphColor value⟩
      else none

/-! ## The law -/

/-- All values are percentages, and the graph stays in its box. -/
structure CpuState.InRange (state : CpuState) : Prop where
  totalUsage : 0 ≤ state.totalUsage ∧ state.totalUsage ≤ 100
  usage : ∀ core, 0 ≤ state.usage core ∧ state.usage core ≤ 100
  history : ∀ place, 0 ≤ state.history place ∧ state.history place ≤ 100
  historyPos : 0 ≤ state.historyPos ∧ state.historyPos ≤ 59
  graph : ∀ y x, ∀ block ∈ drawCpuGraph state y x,
    (y + 1 ≤ block.row ∧ block.row ≤ y + 8) ∧ x + 1 ≤ block.column ∧ block.column ≤ x + 50

/-- The lines about CPUs that the calls read, in order. -/
def cpuLines (files : List (Option (List (List UInt8)))) : List (CpuKey × CpuTimes) :=
  files.flatMap fun file ↦ (file.getD []).filterMap cpuLine

theorem toNat_total {times : CpuTimes} (h : times.Fits) : times.total.toNat =
    times.user.toNat + times.nice.toNat + times.system.toNat + times.idle.toNat +
      times.iowait.toNat + times.irq.toNat + times.softirq.toNat := by
  unfold CpuTimes.Fits at h
  simp only [CpuTimes.total, UInt64.toNat_add]
  omega

theorem toNat_work {times : CpuTimes} (h : times.Fits) : times.work.toNat =
    times.user.toNat + times.nice.toNat + times.system.toNat := by
  unfold CpuTimes.Fits at h
  simp only [CpuTimes.work, UInt64.toNat_add]
  omega

/-- The work is part of the elapsed time. -/
theorem toNat_work_sub_le {prev times : CpuTimes} (h : prev.Before times) (hfits : times.Fits) :
    (times.work - prev.work).toNat ≤ (times.total - prev.total).toNat := by
  obtain ⟨huser, hnice, hsystem, hidle, hiowait, hirq, hsoftirq⟩ := h
  rw [UInt64.le_iff_toNat_le] at huser hnice hsystem hidle hiowait hirq hsoftirq
  have hprev : prev.Fits := by
    unfold CpuTimes.Fits at hfits ⊢
    omega
  have hwork : prev.work ≤ times.work := by
    rw [UInt64.le_iff_toNat_le, toNat_work hprev, toNat_work hfits]
    omega
  have htotal : prev.total ≤ times.total := by
    rw [UInt64.le_iff_toNat_le, toNat_total hprev, toNat_total hfits]
    omega
  rw [UInt64.toNat_sub_of_le _ _ hwork, UInt64.toNat_sub_of_le _ _ htotal, toNat_work hprev,
    toNat_work hfits, toNat_total hprev, toNat_total hfits]
  omega

theorem cpuPercent_mem {prev times : CpuTimes} (hbefore : prev.Before times) (hfits : times.Fits) :
    0 ≤ cpuPercent prev times ∧ cpuPercent prev times ≤ 100 := by
  have hwork := toNat_work_sub_le hbefore hfits
  unfold cpuPercent
  simp only
  split_ifs with hpos
  · have hdiff : (0 : ℚ) < (times.total - prev.total).toNat := by
      exact_mod_cast UInt64.lt_iff_toNat_lt.1 hpos
    have hratio : ((times.work - prev.work).toNat : ℚ) / (times.total - prev.total).toNat ≤ 1 := by
      rw [div_le_one hdiff]
      exact_mod_cast hwork
    constructor
    · positivity
    · calc
        ((times.work - prev.work).toNat : ℚ) / (times.total - prev.total).toNat * 100 ≤ 1 * 100 :=
          mul_le_mul_of_nonneg_right hratio (by norm_num)
        _ = 100 := one_mul 100
  · norm_num

/-! ## The invariant -/

/-- The row of a line in the array of saved counters. -/
def CpuKey.row : CpuKey → ℤ
  | .all => 0
  | .core number => number + 1

/-- The lines of CPUs 0 to 30, and the line of all CPUs. -/
def CpuKey.Listed : CpuKey → Prop
  | .all => True
  | .core number => 0 ≤ number ∧ number ≤ 30

theorem CpuKey.eq_of_row_eq {key other : CpuKey} (hkey : key.Listed) (hother : other.Listed)
    (h : key.row = other.row) : key = other := by
  cases key with
  | all =>
    cases other with
    | all => rfl
    | core number =>
      simp only [CpuKey.row, CpuKey.Listed] at h hother
      omega
  | core number =>
    cases other with
    | all =>
      simp only [CpuKey.row, CpuKey.Listed] at h hkey
      omega
    | core _ =>
      simp only [CpuKey.row, add_left_inj] at h
      rw [h]

structure CpuState.Percentages (state : CpuState) : Prop where
  totalUsage : 0 ≤ state.totalUsage ∧ state.totalUsage ≤ 100
  usage : ∀ core, 0 ≤ state.usage core ∧ state.usage core ≤ 100
  history : ∀ place, 0 ≤ state.history place ∧ state.history place ≤ 100
  historyPos : 0 ≤ state.historyPos ∧ state.historyPos ≤ 59

theorem percentages_startCpuState : startCpuState.Percentages where
  totalUsage := by norm_num [startCpuState]
  usage := by norm_num [startCpuState]
  history := by norm_num [startCpuState]
  historyPos := by norm_num [startCpuState]

theorem forall_update_mem {values : ℤ → ℚ} (h : ∀ place, 0 ≤ values place ∧ values place ≤ 100)
    (place : ℤ) {value : ℚ} (hvalue : 0 ≤ value ∧ value ≤ 100) (other : ℤ) :
    0 ≤ Function.update values place value other ∧
      Function.update values place value other ≤ 100 := by
  by_cases heq : other = place
  · rwa [heq, Function.update_self]
  · rw [Function.update_of_ne heq]
    exact h other

/-- A line whose saved counters are older keeps the values percentages. -/
theorem CpuState.Percentages.accountLine {state : CpuState} (h : state.Percentages)
    {line : CpuKey × CpuTimes} (hbefore : (state.prevCpuTimes line.1.row).Before line.2)
    (hfits : line.2.Fits) : (accountLine state line).Percentages := by
  obtain ⟨key, times⟩ := line
  have hpercent := cpuPercent_mem hbefore hfits
  cases key with
  | all =>
    have husage : 0 ≤ (if 0 < (state.prevCpuTimes 0).total
          then cpuPercent (state.prevCpuTimes 0) times else state.totalUsage) ∧
        (if 0 < (state.prevCpuTimes 0).total
          then cpuPercent (state.prevCpuTimes 0) times else state.totalUsage) ≤ 100 := by
      split_ifs
      · exact hpercent
      · exact h.totalUsage
    refine ⟨husage, h.usage, forall_update_mem h.history _ husage, ?_⟩
    have hpos := h.historyPos
    show 0 ≤ (state.historyPos + 1).tmod 60 ∧ (state.historyPos + 1).tmod 60 ≤ 59
    rw [Int.tmod_eq_emod_of_nonneg (by omega)]
    omega
  | core number =>
    unfold HiFetch.Monitor.accountLine
    dsimp only
    split_ifs
    · exact ⟨h.totalUsage, forall_update_mem h.usage _ hpercent, h.history, h.historyPos⟩
    · exact ⟨h.totalUsage, h.usage, h.history, h.historyPos⟩
    · exact h

/-- Every saved row is older than the lines that are still to come. -/
def CpuState.Precedes (state : CpuState) (rest : List (CpuKey × CpuTimes)) : Prop :=
  ∀ line ∈ rest, (state.prevCpuTimes line.1.row).Before line.2

/-- Counters of one line never decrease. -/
def NonDecreasing (lines : List (CpuKey × CpuTimes)) : Prop :=
  lines.Pairwise fun earlier later ↦ earlier.1 = later.1 → earlier.2.Before later.2

theorem precedes_startCpuState (rest : List (CpuKey × CpuTimes)) :
    startCpuState.Precedes rest := by
  intro line _
  exact ⟨UInt64.zero_le, UInt64.zero_le, UInt64.zero_le, UInt64.zero_le, UInt64.zero_le,
    UInt64.zero_le, UInt64.zero_le⟩

/-- The row that a line saves is its own. -/
theorem prevCpuTimes_accountLine (state : CpuState) {line : CpuKey × CpuTimes}
    (hlisted : line.1.Listed) : (accountLine state line).prevCpuTimes =
      Function.update state.prevCpuTimes line.1.row line.2 := by
  obtain ⟨key, times⟩ := line
  cases key with
  | all => rfl
  | core number =>
    have hnumber : number < 32 := by
      simp only [CpuKey.Listed] at hlisted
      omega
    unfold accountLine
    dsimp only
    rw [if_pos hnumber]
    rfl

theorem CpuState.Precedes.accountLine {state : CpuState} {line : CpuKey × CpuTimes}
    {rest : List (CpuKey × CpuTimes)} (h : state.Precedes (line :: rest))
    (hmono : NonDecreasing (line :: rest)) (hlisted : ∀ other ∈ line :: rest, other.1.Listed) :
    (accountLine state line).Precedes rest := by
  intro other hmem
  rw [prevCpuTimes_accountLine state (hlisted line List.mem_cons_self)]
  by_cases hrow : other.1.row = line.1.row
  · rw [hrow, Function.update_self]
    apply (List.pairwise_cons.1 hmono).1 other hmem
    exact CpuKey.eq_of_row_eq (hlisted line List.mem_cons_self)
      (hlisted other (List.mem_cons_of_mem _ hmem)) hrow.symm
  · rw [Function.update_of_ne hrow]
    exact h other (List.mem_cons_of_mem _ hmem)

/-- The lines of one file keep the values percentages, and leave the saved rows older than the
lines of the next files. -/
theorem foldl_accountLine {state : CpuState} {lines rest : List (CpuKey × CpuTimes)}
    (hpercentages : state.Percentages) (hprecedes : state.Precedes (lines ++ rest))
    (hmono : NonDecreasing (lines ++ rest)) (hlisted : ∀ line ∈ lines ++ rest, line.1.Listed)
    (hfits : ∀ line ∈ lines ++ rest, line.2.Fits) :
    (lines.foldl accountLine state).Percentages ∧
      (lines.foldl accountLine state).Precedes rest := by
  induction lines generalizing state with
  | nil => exact ⟨hpercentages, hprecedes⟩
  | cons line lines ih =>
    apply ih
    · exact hpercentages.accountLine (hprecedes line List.mem_cons_self)
        (hfits line List.mem_cons_self)
    · exact hprecedes.accountLine hmono hlisted
    · exact (List.pairwise_cons.1 hmono).2
    · exact fun other hmem ↦ hlisted other (List.mem_cons_of_mem _ hmem)
    · exact fun other hmem ↦ hfits other (List.mem_cons_of_mem _ hmem)

/-- The graph stays in its box whatever it shows. -/
theorem mem_drawCpuGraph {state : CpuState} {y x : ℤ} {block : Block}
    (h : block ∈ drawCpuGraph state y x) :
    (y + 1 ≤ block.row ∧ block.row ≤ y + 8) ∧ x + 1 ≤ block.column ∧ block.column ≤ x + 50 := by
  obtain ⟨i, hi, hrow⟩ := List.mem_flatMap.1 h
  obtain ⟨j, hj, hblock⟩ := List.mem_filterMap.1 hrow
  rw [List.mem_range] at hi hj
  dsimp only at hblock
  split_ifs at hblock
  cases hblock
  dsimp only
  omega

theorem CpuState.Percentages.inRange {state : CpuState} (h : state.Percentages) : state.InRange :=
  ⟨h.totalUsage, h.usage, h.history, h.historyPos, fun _ _ _ ↦ mem_drawCpuGraph⟩

/-- A call, seen from the lines that are still to come. -/
theorem getCpuInfo_spec {state : CpuState} {file : Option (List (List UInt8))}
    {rest : List (CpuKey × CpuTimes)} (hpercentages : state.Percentages)
    (hprecedes : state.Precedes ((file.getD []).filterMap cpuLine ++ rest))
    (hmono : NonDecreasing ((file.getD []).filterMap cpuLine ++ rest))
    (hlisted : ∀ line ∈ (file.getD []).filterMap cpuLine ++ rest, line.1.Listed)
    (hfits : ∀ line ∈ (file.getD []).filterMap cpuLine ++ rest, line.2.Fits) :
    (getCpuInfo state file).Percentages ∧ (getCpuInfo state file).Precedes rest := by
  cases file with
  | none => exact ⟨hpercentages, hprecedes⟩
  | some lines =>
    have hcleared : { state with totalUsage := 0, cores := 0 : CpuState }.Percentages :=
      ⟨by norm_num, hpercentages.usage, hpercentages.history, hpercentages.historyPos⟩
    exact foldl_accountLine hcleared hprecedes hmono hlisted hfits

/-- The law, from any state whose saved rows are older than the lines to come. -/
theorem throughout_of_precedes {files : List (Option (List (List UInt8)))} {state : CpuState}
    (hpercentages : state.Percentages) (hprecedes : state.Precedes (cpuLines files))
    (hmono : NonDecreasing (cpuLines files)) (hlisted : ∀ line ∈ cpuLines files, line.1.Listed)
    (hfits : ∀ line ∈ cpuLines files, line.2.Fits) :
    Throughout getCpuInfo CpuState.InRange state files := by
  induction files generalizing state with
  | nil => exact (throughout_nil getCpuInfo CpuState.InRange state).2 hpercentages.inRange
  | cons file files ih =>
    obtain ⟨hnext, hrest⟩ := getCpuInfo_spec hpercentages hprecedes hmono hlisted hfits
    apply (throughout_cons getCpuInfo CpuState.InRange state file files).2
    refine ⟨hpercentages.inRange, ih hnext hrest ?_ ?_ ?_⟩
    · exact (List.pairwise_append.1 hmono).2.1
    · exact fun line hmem ↦ hlisted line (List.mem_append_right _ hmem)
    · exact fun line hmem ↦ hfits line (List.mem_append_right _ hmem)

/-- The CPU usage is a percentage.  If the counters of a line never decrease, their sums fit in a
machine word and the CPUs are numbered 0 to 30, then all usages and the whole history stay between 0
and 100, however the CPUs come and go, and the graph stays in its box. -/
theorem throughout_inRange (files : List (Option (List (List UInt8))))
    (hmono : NonDecreasing (cpuLines files)) (hlisted : ∀ line ∈ cpuLines files, line.1.Listed)
    (hfits : ∀ line ∈ cpuLines files, line.2.Fits) :
    Throughout getCpuInfo CpuState.InRange startCpuState files :=
  throughout_of_precedes percentages_startCpuState (precedes_startCpuState _) hmono hlisted hfits

/-- `cpu 4 0 1 5 0 0 0`, then `cpu 6 0 1 9 0 0 0` and `cpu7 1 0 0 2 0 0 0`. -/
def twoFiles : List (Option (List (List UInt8))) :=
  [some [[99, 112, 117, 32, 52, 32, 48, 32, 49, 32, 53, 32, 48, 32, 48, 32, 48, 10]], none,
    some [[99, 112, 117, 32, 54, 32, 48, 32, 49, 32, 57, 32, 48, 32, 48, 32, 48, 10],
      [99, 112, 117, 55, 32, 49, 32, 48, 32, 48, 32, 50, 32, 48, 32, 48, 32, 48, 10]]]

theorem throughout_inRange_twoFiles :
    Throughout getCpuInfo CpuState.InRange startCpuState twoFiles := by
  have hlines : cpuLines twoFiles = [(.all, ⟨4, 0, 1, 5, 0, 0, 0⟩), (.all, ⟨6, 0, 1, 9, 0, 0, 0⟩),
      (.core 7, ⟨1, 0, 0, 2, 0, 0, 0⟩)] := by decide +kernel
  apply throughout_inRange
  · rw [hlines]
    simp only [NonDecreasing, List.pairwise_cons, List.mem_cons, List.not_mem_nil, or_false,
      forall_eq_or_imp, forall_eq, reduceCtorEq, false_implies, true_implies, and_true,
      List.Pairwise.nil, implies_true]
    constructor <;> decide
  · rw [hlines]
    simp [CpuKey.Listed]
  · rw [hlines]
    simp [CpuTimes.Fits]

end HiFetch.Monitor
