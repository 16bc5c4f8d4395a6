import HiFetch.Library.RunningExtrema
import HiFetch.Profiler.Report
import Mathlib.Algebra.BigOperators.Group.List.Basic

/-!
# The statistics of a function

Every exit adds to the accounts of one function entry.  An account starts with a least time of
`1e9` microseconds and a greatest of zero; the greatest is right because no time is negative, but
the least is not one of the times as long as every call has taken longer than that.

A history follows the execution times that have been accounted to every entry since it was created.
-/

namespace HiFetch.Profiler

open ArraySearch RunningExtrema Transition

/-! ## Histories -/

/-- The entry and the execution time that a call accounts, if it is an exit that finds an entry. -/
def accountedExit (profiler : SystemProfiler) : Call → Option (FunctionPointer × ℚ)
  | .functionExit thread name currentTime _ =>
      if profiler.isProfiling then
        (findThread profiler thread).bind fun index ↦
          (findFunction (profiler.threads index) name).map fun place ↦
            (⟨index, place⟩, currentTime - enterTime profiler name thread)
      else none
  | _ => none

/-- The profiler, and the execution times of every entry in the order of the exits. -/
structure History where
  profiler : GlobalProfiler
  times : FunctionPointer → List ℚ

/-- The time that an exit adds to those of an entry. -/
def addedTime (exit : Option (FunctionPointer × ℚ)) (pointer : FunctionPointer) : List ℚ :=
  match exit with
  | some (accounted, time) => if accounted = pointer then [time] else []
  | none => []

/-- An entry that the call creates has no times yet, and one that it removes has none any more. -/
def timesAfter (profiler : SystemProfiler) (times : FunctionPointer → List ℚ) (call : Call)
    (pointer : FunctionPointer) : List ℚ :=
  if pointer ∈ profiler.functionEntries then
    times pointer ++ addedTime (accountedExit profiler call) pointer
  else []

def historyStep (history : History) (call : Call) : History where
  profiler := profilerStep history.profiler call
  times :=
    match history.profiler with
    | .present profiler => timesAfter profiler history.times call
    | _ => fun _ ↦ []

def startHistory : History := ⟨.null, fun _ ↦ []⟩

/-- The accounts of a function are those of the given times. -/
structure FunctionProfile.Folds (profile : FunctionProfile) (times : List ℚ) : Prop where
  callCount : profile.callCount = times.length
  totalTime : profile.totalTime = times.sum
  minTime : IsLeast {time | time ∈ times} profile.minTime
  maxTime : IsGreatest {time | time ∈ times} profile.maxTime

/-- So it is for every entry that an exit has been accounted to. -/
def Folded (history : History) : Prop :=
  ∀ profiler, history.profiler = .present profiler → ∀ pointer ∈ profiler.functionEntries,
    history.times pointer ≠ [] → (profiler.entry pointer).Folds (history.times pointer)

/-- A call accounts no negative time. -/
def NonNegative (history : History) (call : Call) : Prop :=
  ∀ profiler, history.profiler = .present profiler →
    ∀ exit ∈ accountedExit profiler call, 0 ≤ exit.2

/-- The first exit of an entry comes at most `1e9` microseconds after its enter, and every exit
finds room in the counter. -/
def WithinLimits (history : History) (call : Call) : Prop :=
  ∀ profiler, history.profiler = .present profiler → ∀ exit ∈ accountedExit profiler call,
    ((profiler.entry exit.1).callCount = 0 → exit.2 ≤ 1000000000) ∧
      (profiler.entry exit.1).callCount < 2 ^ 31 - 1

/-! ## Tables -/

/-- The number of functions of a thread, and the functions. -/
def ThreadProfile.table (profile : ThreadProfile) : ℕ × (ℕ → FunctionProfile) :=
  (profile.functionCount, profile.functions)

/-- The tables of all threads. -/
def SystemProfiler.tables (profiler : SystemProfiler) : ℕ → ℕ × (ℕ → FunctionProfile) :=
  ThreadProfile.table ∘ profiler.threads

/-- The table has the function. -/
def InTables (tables : ℕ → ℕ × (ℕ → FunctionProfile)) (pointer : FunctionPointer) : Prop :=
  pointer.function < (tables pointer.thread).1

def tableEntry (tables : ℕ → ℕ × (ℕ → FunctionProfile)) (pointer : FunctionPointer) :
    FunctionProfile :=
  (tables pointer.thread).2 pointer.function

/-- Unused slots have no functions, so the tables tell which entries there are. -/
theorem mem_functionEntries {profiler : SystemProfiler} (h : profiler.WellFormed)
    (pointer : FunctionPointer) :
    pointer ∈ profiler.functionEntries ↔ InTables profiler.tables pointer := by
  unfold SystemProfiler.functionEntries
  simp only [List.mem_flatMap, List.mem_map, List.mem_range]
  constructor
  · rintro ⟨thread, -, function, hfunction, rfl⟩
    exact hfunction
  · intro hfunction
    refine ⟨pointer.thread, not_le.1 fun hunused ↦ ?_, pointer.function, hfunction, rfl⟩
    have hnone := h.unused pointer.thread hunused
    have hsome : pointer.function < (profiler.threads pointer.thread).functionCount := hfunction
    omega

/-- The entry that `profile_function_enter` makes of an unused slot. -/
def FunctionProfile.create (slot : FunctionProfile) (name : FunctionName) : FunctionProfile :=
  { slot with
    name := name
    minTime := 1000000000
    maxTime := 0 }

/-- What a call does to the tables, and the exit that it accounts. -/
inductive TablesStep (before : ℕ → ℕ × (ℕ → FunctionProfile)) :
    (ℕ → ℕ × (ℕ → FunctionProfile)) → Option (FunctionPointer × ℚ) → Prop where
  | kept : TablesStep before before none
  | cleared : TablesStep before (fun _ ↦ (0, fun _ ↦ .zero)) none
  | created (thread : ℕ) (name : FunctionName) :
      TablesStep before
        (Function.update before thread
          ((before thread).1 + 1, Function.update (before thread).2 (before thread).1
            ((tableEntry before ⟨thread, (before thread).1⟩).create name)))
        none
  | recorded (pointer : FunctionPointer) (time : ℚ) (h : InTables before pointer) :
      TablesStep before
        (Function.update before pointer.thread
          ((before pointer.thread).1, Function.update (before pointer.thread).2 pointer.function
            ((tableEntry before pointer).record time)))
        (some (pointer, time))

section Operations

variable (profiler : SystemProfiler)

theorem tables_addProfileEvent (eventType : EventType) (name : FunctionName) (thread : ℕ)
    (duration : ℚ) (reading : Reading) :
    (addProfileEvent profiler eventType name thread duration reading).tables = profiler.tables := by
  unfold SystemProfiler.tables
  rw [(addProfileEvent_threads profiler eventType name thread duration reading).1]

theorem tables_setThread (index : ℕ) (profile : ThreadProfile) :
    (profiler.setThread index profile).tables =
      Function.update profiler.tables index profile.table :=
  Function.comp_update ThreadProfile.table profiler.threads index profile

/-- A thread that gets the table that was in its slot. -/
theorem tables_update {index : ℕ} {profile : ThreadProfile}
    (h : profile.table = (profiler.threads index).table) :
    ThreadProfile.table ∘ Function.update profiler.threads index profile = profiler.tables := by
  rw [Function.comp_update, h]
  exact Function.update_eq_self index profiler.tables

theorem tables_enterThread (thread : ℕ) (now : ℚ) :
    (enterThread profiler thread now).2.tables = profiler.tables := by
  unfold enterThread
  split
  next => rfl
  next =>
    split_ifs
    · exact tables_update profiler rfl
    · rfl

theorem tables_sampleSystemState (thread : ℕ) (usage : Option Reading)
    (freeram : Option (ℕ × Reading)) :
    (sampleSystemState profiler thread usage freeram).tables = profiler.tables :=
  sampleSystemState_of_addProfileEvent
    (fun next eventType name thread duration reading hbefore ↦
      (tables_addProfileEvent next eventType name thread duration reading).trans hbefore)
    rfl thread usage freeram

theorem tablesStep_profileFunctionEnter (thread : ℕ) (name : FunctionName) (now : ℚ)
    (reading : Reading) :
    TablesStep profiler.tables (profileFunctionEnter profiler thread name now reading).tables
      none := by
  have htables := tables_enterThread profiler thread now
  rcases profileFunctionEnter_cases profiler thread name now reading with
    hsame | hfull | ⟨index, next, hthread, place, profile, hfunction, hnext⟩
  · rw [hsame]
    exact .kept
  · rw [hfull, htables]
    exact .kept
  · rw [hthread] at htables
    rw [hnext, tables_addProfileEvent, tables_setThread, ← htables]
    dsimp only
    unfold enterFunction at hfunction
    split at hfunction
    next =>
      cases hfunction
      have hsame : Function.update next.tables index (next.threads index).table = next.tables :=
        Function.update_eq_self index next.tables
      rw [hsame]
      exact .kept
    next =>
      split_ifs at hfunction
      · cases hfunction
        exact .created index name
      · cases hfunction

theorem tablesStep_profileFunctionExit (thread : ℕ) (name : FunctionName) (currentTime : ℚ)
    (reading : Reading) :
    TablesStep profiler.tables (profileFunctionExit profiler thread name currentTime reading).tables
      (accountedExit profiler (.functionExit thread name currentTime reading)) := by
  unfold profileFunctionExit accountedExit
  dsimp only
  split_ifs
  · cases hthread : findThread profiler thread with
    | none => exact .kept
    | some index =>
      dsimp only [Option.bind_some]
      cases hfunction : findFunction (profiler.threads index) name with
      | none => exact .kept
      | some place =>
        have hplace : InTables profiler.tables ⟨index, place⟩ := findFunction_lt hfunction
        dsimp only [Option.map_some]
        rw [tables_addProfileEvent, tables_setThread]
        exact .recorded _ _ hplace
  · exact .kept

end Operations

theorem tablesStep_apply {profiler : SystemProfiler} (h : profiler.WellFormed) (call : Call) :
    TablesStep profiler.tables (call.apply profiler).tables (accountedExit profiler call) := by
  cases call with
  | init => exact .kept
  | start => exact .kept
  | stop => exact .kept
  | reset => exact .cleared
  | functionEnter thread name now reading =>
    exact tablesStep_profileFunctionEnter profiler thread name now reading
  | functionExit thread name currentTime reading =>
    exact tablesStep_profileFunctionExit profiler thread name currentTime reading
  | threadStart thread name now =>
    have hunused := h.unused profiler.threadCount (le_refl _)
    have hkept : (profileThreadStart profiler thread name now).tables = profiler.tables := by
      unfold profileThreadStart
      split_ifs
      · exact tables_update profiler (congrArg (·, _) hunused.symm)
      · rfl
    exact hkept ▸ .kept
  | threadEnd thread now =>
    have hkept : (profileThreadEnd profiler thread now).tables = profiler.tables := by
      unfold profileThreadEnd
      split
      next => rfl
      next index _ => exact tables_update profiler rfl
    exact hkept ▸ .kept
  | sample thread usage freeram =>
    have hkept := tables_sampleSystemState profiler thread usage freeram
    exact hkept ▸ .kept

/-! ## Accounts -/

/-- What an entry holds for the times accounted to it. -/
structure FunctionProfile.Accounts (profile : FunctionProfile) (times : List ℚ) : Prop where
  callCount : profile.callCount = (times.length : ℤ).bmod (2 ^ 32)
  totalTime : profile.totalTime = times.sum
  minTime : profile.minTime = runningMin 1000000000 times
  maxTime : profile.maxTime = runningMax 0 times

theorem FunctionProfile.Accounts.record {profile : FunctionProfile} {times : List ℚ}
    (h : profile.Accounts times) (time : ℚ) : (profile.record time).Accounts (times ++ [time]) where
  callCount := by
    show (profile.callCount + 1).bmod (2 ^ 32) = _
    rw [h.callCount, Int.bmod_add_bmod]
    simp
  totalTime := by
    show profile.totalTime + time = _
    rw [h.totalTime, List.sum_append, List.sum_singleton]
  minTime := by
    show (if time < profile.minTime then time else profile.minTime) = _
    rw [h.minTime, runningMin_concat]
  maxTime := by
    show (if profile.maxTime < time then time else profile.maxTime) = _
    rw [h.maxTime, runningMax_concat]

/-- One of the times is not above the start of the least time, and the counter has not run over. -/
def Countable (times : List ℚ) : Prop :=
  (∃ time ∈ times, time ≤ 1000000000) ∧ times.length < 2 ^ 31

/-- The accounts are exact for times that are not negative, unless all are above the start. -/
theorem FunctionProfile.Accounts.folds_iff {profile : FunctionProfile} {times : List ℚ}
    (h : profile.Accounts times) (hsome : times ≠ []) (hnonneg : ∀ time ∈ times, 0 ≤ time) :
    profile.Folds times ↔ Countable times := by
  have hmin : IsLeast {time | time ∈ times} profile.minTime ↔
      ∃ time ∈ times, time ≤ 1000000000 := by
    rw [h.minTime]
    exact isLeast_runningMin_iff
  have hmax : IsGreatest {time | time ∈ times} profile.maxTime := by
    obtain ⟨time, htime⟩ := List.exists_mem_of_ne_nil times hsome
    rw [h.maxTime]
    exact isGreatest_runningMax_iff.2 ⟨time, htime, hnonneg time htime⟩
  have hcount : profile.callCount = times.length ↔ times.length < 2 ^ 31 := by
    rw [h.callCount]
    constructor
    · intro heq
      have hrange : (times.length : ℤ).bmod (2 ^ 32) < (2 ^ 32 + 1) / 2 :=
        Int.bmod_lt (by norm_num)
      rw [heq] at hrange
      norm_num at hrange ⊢
      omega
    · intro hlt
      exact Int.bmod_eq_of_le (by omega) (by omega)
  exact ⟨fun hfolds ↦ ⟨hmin.1 hfolds.minTime, hcount.1 hfolds.callCount⟩,
    fun hlimits ↦ ⟨hcount.2 hlimits.2, h.totalTime, hmin.2 hlimits.1, hmax⟩⟩

/-- Every entry has the accounts of its times, and where there is no entry nothing has been
counted. -/
structure Accounted (tables : ℕ → ℕ × (ℕ → FunctionProfile)) (times : FunctionPointer → List ℚ) :
    Prop where
  used : ∀ pointer, InTables tables pointer → (tableEntry tables pointer).Accounts (times pointer)
  unused : ∀ pointer, ¬InTables tables pointer →
    (tableEntry tables pointer).callCount = 0 ∧ (tableEntry tables pointer).totalTime = 0

/-- What a step does to the times, told from the tables before it. -/
structure TimesStep (tables : ℕ → ℕ × (ℕ → FunctionProfile)) (exit : Option (FunctionPointer × ℚ))
    (before after : FunctionPointer → List ℚ) : Prop where
  old : ∀ pointer, InTables tables pointer →
    after pointer = before pointer ++ addedTime exit pointer
  new : ∀ pointer, ¬InTables tables pointer → after pointer = []

theorem timesStep_timesAfter {profiler : SystemProfiler} (h : profiler.WellFormed)
    (times : FunctionPointer → List ℚ) (call : Call) :
    TimesStep profiler.tables (accountedExit profiler call) times
      (timesAfter profiler times call) where
  old := fun pointer hin ↦ if_pos ((mem_functionEntries h pointer).2 hin)
  new := fun pointer hout ↦ if_neg (mt (mem_functionEntries h pointer).1 hout)

theorem addedTime_self (pointer : FunctionPointer) (time : ℚ) :
    addedTime (some (pointer, time)) pointer = [time] := if_pos rfl

theorem addedTime_of_ne {accounted pointer : FunctionPointer} (h : pointer ≠ accounted) (time : ℚ) :
    addedTime (some (accounted, time)) pointer = [] := if_neg h.symm

section Update

variable (tables : ℕ → ℕ × (ℕ → FunctionProfile))

theorem tableEntry_update (pointer : FunctionPointer) (count : ℕ) (profile : FunctionProfile) :
    tableEntry (Function.update tables pointer.thread
      (count, Function.update (tables pointer.thread).2 pointer.function profile)) =
        Function.update (tableEntry tables) pointer profile := by
  funext other
  unfold tableEntry
  by_cases hthread : other.thread = pointer.thread
  · rw [hthread, Function.update_self]
    by_cases hfunction : other.function = pointer.function
    · have heq : other = pointer := FunctionPointer.ext hthread hfunction
      rw [heq, Function.update_self]
      exact Function.update_self _ _ _
    · have hne : other ≠ pointer := fun heq ↦ hfunction (congrArg FunctionPointer.function heq)
      rw [Function.update_of_ne hne]
      dsimp only
      rw [Function.update_of_ne hfunction, hthread]
  · have hne : other ≠ pointer := fun heq ↦ hthread (congrArg FunctionPointer.thread heq)
    rw [Function.update_of_ne hthread, Function.update_of_ne hne]

/-- A table with one more function. -/
theorem inTables_create (thread : ℕ) (functions : ℕ → FunctionProfile) (other : FunctionPointer) :
    InTables (Function.update tables thread ((tables thread).1 + 1, functions)) other ↔
      other = ⟨thread, (tables thread).1⟩ ∨ InTables tables other := by
  unfold InTables
  rw [FunctionPointer.ext_iff]
  by_cases hthread : other.thread = thread
  · rw [hthread, Function.update_self]
    simp only [true_and]
    omega
  · rw [Function.update_of_ne hthread]
    simp only [hthread, false_and, false_or]

/-- A table whose functions have changed. -/
theorem inTables_record (thread : ℕ) (functions : ℕ → FunctionProfile) (other : FunctionPointer) :
    InTables (Function.update tables thread ((tables thread).1, functions)) other ↔
      InTables tables other := by
  unfold InTables
  by_cases hthread : other.thread = thread
  · rw [hthread, Function.update_self]
  · rw [Function.update_of_ne hthread]

end Update

theorem accounted_step {before after : ℕ → ℕ × (ℕ → FunctionProfile)}
    {exit : Option (FunctionPointer × ℚ)} (hstep : TablesStep before after exit)
    {times next : FunctionPointer → List ℚ} (htimes : TimesStep before exit times next)
    (h : Accounted before times) : Accounted after next := by
  cases hstep with
  | kept =>
    refine ⟨fun pointer hin ↦ ?_, h.unused⟩
    rw [htimes.old pointer hin, addedTime, List.append_nil]
    exact h.used pointer hin
  | cleared => exact ⟨fun pointer hin ↦ absurd hin (Nat.not_lt_zero _), fun _ _ ↦ ⟨rfl, rfl⟩⟩
  | created thread name =>
    have hnew : ¬InTables before ⟨thread, (before thread).1⟩ := lt_irrefl _
    have hentry := tableEntry_update before ⟨thread, (before thread).1⟩
    constructor
    · intro other hother
      rw [hentry]
      by_cases heq : other = ⟨thread, (before thread).1⟩
      · subst heq
        obtain ⟨hcount, htotal⟩ := h.unused _ hnew
        rw [Function.update_self, htimes.new _ hnew]
        exact ⟨hcount, htotal, rfl, rfl⟩
      · have hold := ((inTables_create before thread _ other).1 hother).resolve_left heq
        rw [Function.update_of_ne heq, htimes.old other hold, addedTime, List.append_nil]
        exact h.used other hold
    · intro other hother
      rw [inTables_create, not_or] at hother
      rw [hentry, Function.update_of_ne hother.1]
      exact h.unused other hother.2
  | recorded pointer time hin =>
    constructor
    · intro other hother
      rw [inTables_record] at hother
      rw [htimes.old other hother, tableEntry_update]
      by_cases heq : other = pointer
      · subst heq
        rw [Function.update_self, addedTime_self]
        exact (h.used other hother).record time
      · rw [Function.update_of_ne heq, addedTime_of_ne heq, List.append_nil]
        exact h.used other hother
    · intro other hother
      rw [inTables_record] at hother
      have hne : other ≠ pointer := fun heq ↦ hother (heq ▸ hin)
      rw [tableEntry_update, Function.update_of_ne hne]
      exact h.unused other hother

/-! ## Limits -/

/-- All entries with times are countable. -/
def AllCountable (tables : ℕ → ℕ × (ℕ → FunctionProfile)) (times : FunctionPointer → List ℚ) :
    Prop :=
  ∀ pointer, InTables tables pointer → times pointer ≠ [] → Countable (times pointer)

/-- One more time keeps an entry countable exactly within the limits. -/
theorem countable_append_iff {profile : FunctionProfile} {times : List ℚ}
    (h : profile.Accounts times) (hcountable : times ≠ [] → Countable times) (time : ℚ) :
    Countable (times ++ [time]) ↔
      (profile.callCount = 0 → time ≤ 1000000000) ∧ profile.callCount < 2 ^ 31 - 1 := by
  have hcount := h.callCount
  unfold Countable
  rw [List.length_append, List.length_singleton]
  by_cases hnone : times = []
  · subst hnone
    rw [hcount]
    simp
  · obtain ⟨⟨least, hleast, hle⟩, hlength⟩ := hcountable hnone
    have hpos := List.length_pos_iff.2 hnone
    rw [Int.bmod_eq_of_le (by omega) (by omega)] at hcount
    have hexists : ∃ other ∈ times ++ [time], other ≤ 1000000000 :=
      ⟨least, List.mem_append_left _ hleast, hle⟩
    constructor
    · rintro ⟨-, hroom⟩
      exact ⟨fun hzero ↦ by omega, by omega⟩
    · rintro ⟨-, hroom⟩
      exact ⟨hexists, by omega⟩

/-- Where no exit is accounted, the times of an entry are as they were. -/
theorem countable_of_none {tables : ℕ → ℕ × (ℕ → FunctionProfile)}
    {times next : FunctionPointer → List ℚ} (htimes : TimesStep tables none times next)
    (hcountable : AllCountable tables times) {pointer : FunctionPointer}
    (hsome : next pointer ≠ []) : Countable (next pointer) := by
  by_cases hin : InTables tables pointer
  · rw [htimes.old pointer hin, addedTime, List.append_nil] at hsome ⊢
    exact hcountable pointer hin hsome
  · exact absurd (htimes.new pointer hin) hsome

theorem allCountable_step_iff {before after : ℕ → ℕ × (ℕ → FunctionProfile)}
    {exit : Option (FunctionPointer × ℚ)} (hstep : TablesStep before after exit)
    {times next : FunctionPointer → List ℚ} (htimes : TimesStep before exit times next)
    (h : Accounted before times) (hcountable : AllCountable before times) :
    AllCountable after next ↔ ∀ recorded ∈ exit,
      ((tableEntry before recorded.1).callCount = 0 → recorded.2 ≤ 1000000000) ∧
        (tableEntry before recorded.1).callCount < 2 ^ 31 - 1 := by
  cases hstep with
  | kept =>
    exact iff_of_true (fun _ _ hsome ↦ countable_of_none htimes hcountable hsome) (by simp)
  | cleared =>
    exact iff_of_true (fun _ _ hsome ↦ countable_of_none htimes hcountable hsome) (by simp)
  | created thread name =>
    exact iff_of_true (fun _ _ hsome ↦ countable_of_none htimes hcountable hsome) (by simp)
  | recorded pointer time hin =>
    have happend := countable_append_iff (h.used pointer hin) (hcountable pointer hin) time
    have hnext := htimes.old pointer hin
    rw [addedTime_self] at hnext
    constructor
    · rintro hall _ ⟨⟩
      rw [← happend, ← hnext]
      apply hall pointer ((inTables_record before _ _ pointer).2 hin)
      rw [hnext]
      exact List.append_ne_nil_of_right_ne_nil _ (List.cons_ne_nil _ _)
    · intro hlimits other hother hsome
      rw [inTables_record] at hother
      by_cases heq : other = pointer
      · rw [heq, hnext]
        exact happend.2 (hlimits _ rfl)
      · have hsame := htimes.old other hother
        rw [addedTime_of_ne heq, List.append_nil] at hsame
        rw [hsame] at hsome ⊢
        exact hcountable other hother hsome

/-! ## Runs -/

/-- The accounts of every entry are those of its times, and no time is negative. -/
structure SystemProfiler.Invariant (profiler : SystemProfiler) (times : FunctionPointer → List ℚ) :
    Prop where
  wellFormed : profiler.WellFormed
  accounted : Accounted profiler.tables times
  nonneg : ∀ pointer, ∀ time ∈ times pointer, 0 ≤ time

theorem mem_addedTime {exit : Option (FunctionPointer × ℚ)} {pointer : FunctionPointer} {time : ℚ}
    (h : time ∈ addedTime exit pointer) : (pointer, time) ∈ exit := by
  unfold addedTime at h
  split at h
  next accounted other =>
    split_ifs at h with heq
    · rw [List.mem_singleton.1 h, heq]
      rfl
    · cases h
  next => cases h

section Present

variable {profiler : SystemProfiler} {times : FunctionPointer → List ℚ}
  (h : profiler.Invariant times)
include h

theorem SystemProfiler.Invariant.folded_iff :
    Folded ⟨.present profiler, times⟩ ↔ AllCountable profiler.tables times := by
  have hentry : ∀ pointer, InTables profiler.tables pointer → times pointer ≠ [] →
      ((profiler.entry pointer).Folds (times pointer) ↔ Countable (times pointer)) :=
    fun pointer hin hsome ↦ (h.accounted.used pointer hin).folds_iff hsome (h.nonneg pointer)
  constructor
  · intro hfolded pointer hin hsome
    rw [← hentry pointer hin hsome]
    exact hfolded profiler rfl pointer ((mem_functionEntries h.wellFormed pointer).2 hin) hsome
  · rintro hall _ ⟨⟩ pointer hmem hsome
    have hin := (mem_functionEntries h.wellFormed pointer).1 hmem
    exact (hentry pointer hin hsome).2 (hall pointer hin hsome)

theorem SystemProfiler.Invariant.apply {call : Call}
    (hcall : NonNegative ⟨.present profiler, times⟩ call) :
    (call.apply profiler).Invariant (timesAfter profiler times call) where
  wellFormed := h.wellFormed.apply call
  accounted := accounted_step (tablesStep_apply h.wellFormed call)
    (timesStep_timesAfter h.wellFormed times call) h.accounted
  nonneg := by
    intro pointer time htime
    unfold timesAfter at htime
    split_ifs at htime
    · rcases List.mem_append.1 htime with hold | hadded
      · exact h.nonneg pointer time hold
      · exact hcall profiler rfl _ (mem_addedTime hadded)
    · cases htime

/-- A call keeps the statistics exactly when it is within the limits. -/
theorem SystemProfiler.Invariant.folded_apply_iff {call : Call}
    (hcall : NonNegative ⟨.present profiler, times⟩ call)
    (hfolded : Folded ⟨.present profiler, times⟩) :
    Folded ⟨.present (call.apply profiler), timesAfter profiler times call⟩ ↔
      WithinLimits ⟨.present profiler, times⟩ call := by
  have hexact := allCountable_step_iff (tablesStep_apply h.wellFormed call)
    (timesStep_timesAfter h.wellFormed times call) h.accounted (h.folded_iff.1 hfolded)
  rw [(h.apply hcall).folded_iff, hexact]
  constructor
  · rintro hlimits _ ⟨⟩
    exact hlimits
  · intro hlimits
    exact hlimits profiler rfl

end Present

def History.Invariant (history : History) : Prop :=
  ∀ profiler, history.profiler = .present profiler → profiler.Invariant history.times

/-- A new profiler has no entries. -/
theorem invariant_profilerStep_null {call : Call} {profiler : SystemProfiler}
    (h : profilerStep .null call = .present profiler) : profiler.Invariant fun _ ↦ [] := by
  have hnull : GlobalProfiler.null.WellFormed := trivial
  have hwellFormed := wellFormed_profilerStep hnull call
  rw [h] at hwellFormed
  have htables : profiler.tables = fun _ ↦ (0, fun _ ↦ .zero) := by
    cases call with
    | init allocated now =>
      cases allocated with
      | false => cases h
      | true =>
        cases h
        rfl
    | start allocated created now =>
      cases allocated with
      | false => cases h
      | true =>
        cases h
        rfl
    | _ => cases h
  refine ⟨hwellFormed, ?_, by simp⟩
  rw [htables]
  exact ⟨fun pointer hin ↦ absurd hin (Nat.not_lt_zero _), fun _ _ ↦ ⟨rfl, rfl⟩⟩

theorem invariant_historyStep {history : History} (h : history.Invariant) {call : Call}
    (hcall : NonNegative history call) : (historyStep history call).Invariant := by
  obtain ⟨global, times⟩ := history
  cases global with
  | null => exact fun profiler hnext ↦ invariant_profilerStep_null hnext
  | present profiler =>
    intro next hnext
    cases (profilerStep_present profiler call).symm.trans hnext
    exact (h profiler rfl).apply hcall
  | fault =>
    intro next hnext
    cases (profilerStep_fault call).symm.trans hnext

theorem folded_historyStep_iff {history : History} (h : history.Invariant)
    (hfolded : Folded history) {call : Call} (hcall : NonNegative history call) :
    Folded (historyStep history call) ↔ WithinLimits history call := by
  obtain ⟨global, times⟩ := history
  cases global with
  | null =>
    exact iff_of_true (fun _ _ _ _ hsome ↦ absurd rfl hsome) fun _ hpresent ↦ nomatch hpresent
  | present profiler =>
    rw [← (h profiler rfl).folded_apply_iff hcall hfolded, historyStep, profilerStep_present]
  | fault =>
    exact iff_of_true (fun _ _ _ _ hsome ↦ absurd rfl hsome) fun _ hpresent ↦ nomatch hpresent

/-- In every run without negative execution times, the accounts of every entry are the number, the
sum, the minimum and the maximum of its times throughout, if and only if the first exit of every
entry comes at most `1e9` microseconds after its enter and no counter runs over. -/
theorem throughout_folded_iff (calls : List Call)
    (hnonneg : Along historyStep NonNegative startHistory calls) :
    Throughout historyStep Folded startHistory calls ↔
      Along historyStep WithinLimits startHistory calls := by
  have hbase : ∀ (history : History) call, history.Invariant → NonNegative history call →
      (historyStep history call).Invariant := fun _ _ h hcall ↦ invariant_historyStep h hcall
  have hexact : ∀ (history : History) call, history.Invariant → Folded history →
      NonNegative history call →
        (Folded (historyStep history call) ↔ WithinLimits history call) :=
    fun _ _ h hfolded hcall ↦ folded_historyStep_iff h hfolded hcall
  exact throughout_iff_along hbase hexact (fun _ hpresent ↦ nomatch hpresent)
    (fun _ hpresent ↦ nomatch hpresent) hnonneg

/-- A call that takes 5 microseconds. -/
theorem throughout_folded_iff_example :
    Throughout historyStep Folded startHistory
      [.start true 0 0, .functionEnter 7 emptyName 1 ⟨1, none⟩,
        .functionExit 7 emptyName 6 ⟨6, none⟩] := by
  apply (throughout_folded_iff _ _).2
  · refine ⟨(fun _ _ _ hexit ↦ nomatch hexit), (fun _ _ _ hexit ↦ nomatch hexit), ?_, trivial⟩
    rintro _ ⟨⟩ _ ⟨⟩
    constructor
    · intro _
      show (6 - 1 : ℚ) ≤ 1000000000
      norm_num
    · show (0 : ℤ) < 2 ^ 31 - 1
      norm_num
  · refine ⟨(fun _ _ _ hexit ↦ nomatch hexit), (fun _ _ _ hexit ↦ nomatch hexit), ?_, trivial⟩
    rintro _ ⟨⟩ _ ⟨⟩
    show (0 : ℚ) ≤ 6 - 1
    norm_num

/-- A call that takes 2000 seconds. -/
theorem not_throughout_folded :
    Along historyStep NonNegative startHistory
        [.start true 0 0, .functionEnter 7 emptyName 1 ⟨1, none⟩,
          .functionExit 7 emptyName 2000000001 ⟨2000000001, none⟩] ∧
      ¬Throughout historyStep Folded startHistory
        [.start true 0 0, .functionEnter 7 emptyName 1 ⟨1, none⟩,
          .functionExit 7 emptyName 2000000001 ⟨2000000001, none⟩] := by
  constructor
  · refine ⟨(fun _ _ _ hexit ↦ nomatch hexit), (fun _ _ _ hexit ↦ nomatch hexit), ?_, trivial⟩
    rintro _ ⟨⟩ _ ⟨⟩
    show (0 : ℚ) ≤ 2000000001 - 1
    norm_num
  · intro h
    have hfolds := h.last _ rfl ⟨0, 0⟩ (by decide) (List.cons_ne_nil _ _)
    have hmem := hfolds.minTime.1
    rw [Set.mem_ofPred_eq] at hmem
    have hleast : (if (2000000001 - 1 : ℚ) < 1000000000 then 2000000001 - 1 else 1000000000) ∈
        [(2000000001 - 1 : ℚ)] := hmem
    norm_num at hleast

end HiFetch.Profiler
