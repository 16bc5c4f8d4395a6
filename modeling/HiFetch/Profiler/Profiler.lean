import HiFetch.Library.ArraySearch
import HiFetch.Library.CString
import HiFetch.Library.Transition
import Mathlib.Algebra.Order.Ring.Rat
import Mathlib.Logic.Function.Basic

/-!
# The profiler

The profiler keeps a log of at most 10000 events and a table of at most 1024 threads, and for each
thread a table of at most 512 functions.  A call that finds its table full is not recorded.  Clock
readings are exact.

This module has the calls and the invariant of the tables.  A call is one step here.  For the calls
that hold the lock while they use the profiler this is how the threads see them, and `profiler_init`
makes the lock, so calls of it cannot overlap.  `sample_system_state` takes no lock: as one step it
is a sample that no other call comes into, and `Profiler/Sampling` has its single accesses.
-/

namespace HiFetch.Profiler

open ArraySearch Transition

/-- A function name that fits in its field. -/
abbrev FunctionName := { name : CString // name.length ≤ 127 }

/-- A thread name that fits in its field. -/
abbrev ThreadName := { name : CString // name.length ≤ 63 }

structure FunctionProfile where
  name : FunctionName
  executionTime : ℚ
  callCount : ℤ
  minTime : ℚ
  maxTime : ℚ
  totalTime : ℚ

inductive EventType where
  | enter
  | exit
  | sample
  | memory
deriving DecidableEq

structure ProfileEvent where
  timestamp : ℚ
  eventType : EventType
  functionName : FunctionName
  threadId : ℤ
  duration : ℚ
  memoryUsage : ℕ

structure ThreadProfile where
  threadId : ℕ
  threadName : ThreadName
  cpuTime : ℚ
  startTime : ℚ
  isActive : Bool
  functions : ℕ → FunctionProfile
  functionCount : ℕ

structure SystemProfiler where
  events : ℕ → ProfileEvent
  threads : ℕ → ThreadProfile
  eventCount : ℕ
  threadCount : ℕ
  profilingStartTime : ℚ
  totalProfilingTime : ℚ
  isProfiling : Bool

def emptyName {room : ℕ} : { name : CString // name.length ≤ room } :=
  ⟨CString.empty, Nat.zero_le _⟩

/-! Memory that `calloc` or `memset` has cleared. -/

def FunctionProfile.zero : FunctionProfile := ⟨emptyName, 0, 0, 0, 0, 0⟩

/-- An empty string is no event type; the model reads no event behind the count. -/
def ProfileEvent.zero : ProfileEvent := ⟨0, .sample, emptyName, 0, 0, 0⟩

def ThreadProfile.zero : ThreadProfile := ⟨0, emptyName, 0, 0, false, fun _ ↦ .zero, 0⟩

/-- What the clock and `getrusage` tell when an event is added. -/
structure Reading where
  time : ℚ
  maxrss : Option ℕ

/-- `(int)` of a thread number: its low 32 bits. -/
def intThread (thread : ℕ) : ℤ := (thread : ℤ).bmod (2 ^ 32)

def addProfileEvent (profiler : SystemProfiler) (eventType : EventType) (name : FunctionName)
    (thread : ℕ) (duration : ℚ) (reading : Reading) : SystemProfiler :=
  if 10000 ≤ profiler.eventCount then profiler
  else
    { profiler with
      events := Function.update profiler.events profiler.eventCount
        { timestamp := reading.time
          eventType := eventType
          functionName := name
          threadId := intThread thread
          duration := duration
          memoryUsage :=
            match reading.maxrss with
            | some maxrss => maxrss * 1024
            | none => (profiler.events profiler.eventCount).memoryUsage }
      eventCount := profiler.eventCount + 1 }

/-- The loop over the threads: the first entry of the thread. -/
def findThread (profiler : SystemProfiler) (thread : ℕ) : Option ℕ :=
  firstIndex profiler.threadCount fun index ↦ (profiler.threads index).threadId == thread

/-- The loop over the functions of a thread. -/
def findFunction (profile : ThreadProfile) (name : FunctionName) : Option ℕ :=
  firstIndex profile.functionCount fun index ↦ (profile.functions index).name == name

/-- `Thread-%d` -/
def defaultThreadName (index : ℕ) : ThreadName :=
  ⟨CString.take ⟨[84, 104, 114, 101, 97, 100, 45] ++ (CString.ofInt index).bytes, by
    simp [(CString.ofInt index).noNul]⟩ 63, CString.length_take_le _ _⟩

/-- The entry of a thread, which is made if there is none and the table has room. -/
def enterThread (profiler : SystemProfiler) (thread : ℕ) (now : ℚ) : Option ℕ × SystemProfiler :=
  match findThread profiler thread with
  | some index => (some index, profiler)
  | none =>
      if profiler.threadCount < 1024 then
        (some profiler.threadCount,
          { profiler with
            threads := Function.update profiler.threads profiler.threadCount
              { profiler.threads profiler.threadCount with
                threadId := thread
                startTime := now
                isActive := true
                threadName := defaultThreadName profiler.threadCount }
            threadCount := profiler.threadCount + 1 })
      else (none, profiler)

/-- The entry of a function, which is made if there is none and the table has room. -/
def enterFunction (profile : ThreadProfile) (name : FunctionName) : Option ℕ × ThreadProfile :=
  match findFunction profile name with
  | some index => (some index, profile)
  | none =>
      if profile.functionCount < 512 then
        (some profile.functionCount,
          { profile with
            functions := Function.update profile.functions profile.functionCount
              { profile.functions profile.functionCount with
                name := name
                minTime := 1000000000
                maxTime := 0 }
            functionCount := profile.functionCount + 1 })
      else (none, profile)

def SystemProfiler.setThread (profiler : SystemProfiler) (index : ℕ) (profile : ThreadProfile) :
    SystemProfiler :=
  { profiler with threads := Function.update profiler.threads index profile }

/-- `profile_function_enter`; `now` is the clock reading for a new thread. -/
def profileFunctionEnter (profiler : SystemProfiler) (thread : ℕ) (name : FunctionName) (now : ℚ)
    (reading : Reading) : SystemProfiler :=
  if profiler.isProfiling then
    match enterThread profiler thread now with
    | (none, profiler) => profiler
    | (some index, profiler) =>
        match enterFunction (profiler.threads index) name with
        | (none, _) => profiler
        | (some _, profile) =>
            addProfileEvent (profiler.setThread index profile) .enter name thread 0 reading
  else profiler

/-- The event is the ENTER of a function on a thread, as far as the log tells threads apart. -/
def ProfileEvent.isEnter (event : ProfileEvent) (name : FunctionName) (thread : ℕ) : Bool :=
  event.eventType == .enter && event.functionName == name && event.threadId == intThread thread

/-- The backward search for the time of the last ENTER. -/
def enterTime (profiler : SystemProfiler) (name : FunctionName) (thread : ℕ) : ℚ :=
  match lastIndex profiler.eventCount fun index ↦ (profiler.events index).isEnter name thread with
  | some index => (profiler.events index).timestamp
  | none => 0

/-- The accounts of a function after a call that took `time`. -/
def FunctionProfile.record (profile : FunctionProfile) (time : ℚ) : FunctionProfile :=
  { profile with
    callCount := (profile.callCount + 1).bmod (2 ^ 32)
    totalTime := profile.totalTime + time
    executionTime := time
    minTime := if time < profile.minTime then time else profile.minTime
    maxTime := if profile.maxTime < time then time else profile.maxTime }

def ThreadProfile.record (profile : ThreadProfile) (index : ℕ) (time : ℚ) : ThreadProfile :=
  { profile with
    functions :=
      Function.update profile.functions index ((profile.functions index).record time) }

def profileFunctionExit (profiler : SystemProfiler) (thread : ℕ) (name : FunctionName)
    (currentTime : ℚ) (reading : Reading) : SystemProfiler :=
  if profiler.isProfiling then
    match findThread profiler thread with
    | none => profiler
    | some index =>
        match findFunction (profiler.threads index) name with
        | none => profiler
        | some place =>
            let executionTime := currentTime - enterTime profiler name thread
            addProfileEvent
              (profiler.setThread index ((profiler.threads index).record place executionTime))
              .exit name thread executionTime reading
  else profiler

def profileThreadStart (profiler : SystemProfiler) (thread : ℕ) (name : ThreadName) (now : ℚ) :
    SystemProfiler :=
  if profiler.threadCount < 1024 then
    { profiler with
      threads := Function.update profiler.threads profiler.threadCount
        { profiler.threads profiler.threadCount with
          threadId := thread
          threadName := name
          startTime := now
          isActive := true
          functionCount := 0 }
      threadCount := profiler.threadCount + 1 }
  else profiler

def profileThreadEnd (profiler : SystemProfiler) (thread : ℕ) (now : ℚ) : SystemProfiler :=
  match findThread profiler thread with
  | none => profiler
  | some index =>
      profiler.setThread index
        { profiler.threads index with
          isActive := false
          cpuTime := now - (profiler.threads index).startTime }

def profilerReset (profiler : SystemProfiler) : SystemProfiler :=
  { profiler with
    eventCount := 0
    threadCount := 0
    events := fun _ ↦ .zero
    threads := fun _ ↦ .zero }

/-- `sample_system_state`: an event for `getrusage`, if it succeeds, and one for the free memory, if
`sysinfo` succeeds. -/
def sampleSystemState (profiler : SystemProfiler) (thread : ℕ) (usage : Option Reading)
    (freeram : Option (ℕ × Reading)) : SystemProfiler :=
  if profiler.isProfiling then
    let systemState : FunctionName :=
      ⟨⟨[115, 121, 115, 116, 101, 109, 95, 115, 116, 97, 116, 101], by decide⟩, by decide⟩
    let systemMemory : FunctionName :=
      ⟨⟨[115, 121, 115, 116, 101, 109, 95, 109, 101, 109, 111, 114, 121], by decide⟩, by decide⟩
    let sampled :=
      match usage with
      | some reading => addProfileEvent profiler .sample systemState thread 0 reading
      | none => profiler
    match freeram with
    | some (freeram, reading) => addProfileEvent sampled .memory systemMemory thread freeram reading
    | none => sampled
  else profiler

/-! ## Calls -/

/-- `global_profiler`. -/
inductive GlobalProfiler where
  | null
  | present (profiler : SystemProfiler)
  /-- NULL has been dereferenced, and the process has ended. -/
  | fault

def profilerInit (profiler : GlobalProfiler) (allocated : Bool) (now : ℚ) : GlobalProfiler :=
  match profiler with
  | .null =>
      if allocated then
        .present
          { events := fun _ ↦ .zero
            threads := fun _ ↦ .zero
            eventCount := 0
            threadCount := 0
            profilingStartTime := now
            totalProfilingTime := 0
            isProfiling := false }
      else .null
  | _ => profiler

/-- `profiler_start`, which uses the profiler even if `calloc` has failed. -/
def profilerStart (profiler : GlobalProfiler) (allocated : Bool) (created now : ℚ) :
    GlobalProfiler :=
  match profilerInit profiler allocated created with
  | .present profiler => .present { profiler with isProfiling := true, profilingStartTime := now }
  | _ => .fault

def profilerStop (profiler : SystemProfiler) (now : ℚ) : SystemProfiler :=
  { profiler with
    isProfiling := false
    totalProfilingTime := now - profiler.profilingStartTime }

/-- A call that returns at once when there is no profiler. -/
def GlobalProfiler.map (change : SystemProfiler → SystemProfiler) : GlobalProfiler → GlobalProfiler
  | .null => .null
  | .present profiler => .present (change profiler)
  | .fault => .fault

inductive Call where
  | init (allocated : Bool) (now : ℚ)
  | start (allocated : Bool) (created now : ℚ)
  | stop (now : ℚ)
  | reset
  | functionEnter (thread : ℕ) (name : FunctionName) (now : ℚ) (reading : Reading)
  | functionExit (thread : ℕ) (name : FunctionName) (currentTime : ℚ) (reading : Reading)
  | threadStart (thread : ℕ) (name : ThreadName) (now : ℚ)
  | threadEnd (thread : ℕ) (now : ℚ)
  | sample (thread : ℕ) (usage : Option Reading) (freeram : Option (ℕ × Reading))

/-- What a call does to a profiler that exists. -/
def Call.apply : Call → SystemProfiler → SystemProfiler
  | .init _ _, profiler => profiler
  | .start _ _ now, profiler => { profiler with isProfiling := true, profilingStartTime := now }
  | .stop now, profiler => profilerStop profiler now
  | .reset, profiler => profilerReset profiler
  | .functionEnter thread name now reading, profiler =>
      profileFunctionEnter profiler thread name now reading
  | .functionExit thread name currentTime reading, profiler =>
      profileFunctionExit profiler thread name currentTime reading
  | .threadStart thread name now, profiler => profileThreadStart profiler thread name now
  | .threadEnd thread now, profiler => profileThreadEnd profiler thread now
  | .sample thread usage freeram, profiler => sampleSystemState profiler thread usage freeram

/-- One call of the profiler's interface. -/
def profilerStep (profiler : GlobalProfiler) (call : Call) : GlobalProfiler :=
  match call with
  | .init allocated now => profilerInit profiler allocated now
  | .start allocated created now => profilerStart profiler allocated created now
  | call => profiler.map call.apply

@[simp]
theorem profilerStep_present (profiler : SystemProfiler) (call : Call) :
    profilerStep (.present profiler) call = .present (call.apply profiler) := by
  cases call <;> rfl

@[simp]
theorem profilerStep_fault (call : Call) : profilerStep .fault call = .fault := by
  cases call <;> rfl

/-! ## What the operations change -/

theorem addProfileEvent_threads (profiler : SystemProfiler) (eventType : EventType)
    (name : FunctionName) (thread : ℕ) (duration : ℚ) (reading : Reading) :
    (addProfileEvent profiler eventType name thread duration reading).threads = profiler.threads ∧
      (addProfileEvent profiler eventType name thread duration reading).threadCount =
        profiler.threadCount := by
  unfold addProfileEvent
  split_ifs <;> exact ⟨rfl, rfl⟩

theorem findThread_lt {profiler : SystemProfiler} {thread index : ℕ}
    (h : findThread profiler thread = some index) : index < profiler.threadCount :=
  (firstIndex_eq_some.1 h).1

theorem findFunction_lt {profile : ThreadProfile} {name : FunctionName} {place : ℕ}
    (h : findFunction profile name = some place) : place < profile.functionCount :=
  (firstIndex_eq_some.1 h).1

/-- `profile_function_enter` does nothing, or finds a table full, or has both entries. -/
theorem profileFunctionEnter_cases (profiler : SystemProfiler) (thread : ℕ) (name : FunctionName)
    (now : ℚ) (reading : Reading) :
    profileFunctionEnter profiler thread name now reading = profiler ∨
      profileFunctionEnter profiler thread name now reading =
        (enterThread profiler thread now).2 ∨
      ∃ index next, enterThread profiler thread now = (some index, next) ∧
        ∃ place profile, enterFunction (next.threads index) name = (some place, profile) ∧
          profileFunctionEnter profiler thread name now reading =
            addProfileEvent (next.setThread index profile) .enter name thread 0 reading := by
  unfold profileFunctionEnter
  split_ifs
  · split
    next next hthread => exact .inr (.inl (by rw [hthread]))
    next index next hthread =>
      split
      next => exact .inr (.inl (by rw [hthread]))
      next place profile hfunction =>
        exact .inr (.inr ⟨index, next, hthread, place, profile, hfunction, rfl⟩)
  · exact .inl rfl

/-- `profile_function_exit` does nothing or records a time with the entry that it finds. -/
theorem profileFunctionExit_cases (profiler : SystemProfiler) (thread : ℕ) (name : FunctionName)
    (currentTime : ℚ) (reading : Reading) :
    profileFunctionExit profiler thread name currentTime reading = profiler ∨
      ∃ index place time, findThread profiler thread = some index ∧
        profileFunctionExit profiler thread name currentTime reading =
          addProfileEvent
            (profiler.setThread index ((profiler.threads index).record place time))
            .exit name thread time reading := by
  unfold profileFunctionExit
  split_ifs
  · split
    next => exact .inl rfl
    next index hthread =>
      split
      next => exact .inl rfl
      next place _ => exact .inr ⟨index, place, _, hthread, rfl⟩
  · exact .inl rfl

/-- `sample_system_state` only adds events. -/
theorem sampleSystemState_of_addProfileEvent {motive : SystemProfiler → Prop}
    (hadd : ∀ profiler eventType name thread duration reading, motive profiler →
      motive (addProfileEvent profiler eventType name thread duration reading))
    {profiler : SystemProfiler} (h : motive profiler) (thread : ℕ) (usage : Option Reading)
    (freeram : Option (ℕ × Reading)) :
    motive (sampleSystemState profiler thread usage freeram) := by
  unfold sampleSystemState
  split_ifs
  · cases usage with
    | none =>
      cases freeram with
      | none => exact h
      | some freeram => exact hadd _ _ _ _ _ _ h
    | some reading =>
      have hsampled := fun name ↦ hadd profiler .sample name thread 0 reading h
      cases freeram with
      | none => exact hsampled _
      | some freeram => exact hadd _ _ _ _ _ _ (hsampled _)
  · exact h

theorem threadId_enterFunction (profile : ThreadProfile) (name : FunctionName) :
    (enterFunction profile name).2.threadId = profile.threadId := by
  unfold enterFunction
  split
  next => rfl
  next => split_ifs <;> rfl

theorem name_record (profile : ThreadProfile) (index : ℕ) (time : ℚ) (place : ℕ) :
    ((profile.record index time).functions place).name = (profile.functions place).name := by
  unfold ThreadProfile.record
  dsimp only
  by_cases heq : place = index
  · rw [heq, Function.update_self]
    rfl
  · rw [Function.update_of_ne heq]

/-! ## The invariant of the tables -/

/-- The functions of a thread are in bounds and have different names. -/
structure ThreadProfile.WellFormed (profile : ThreadProfile) : Prop where
  functionCount_le : profile.functionCount ≤ 512
  distinct : ∀ first second, first < profile.functionCount → second < profile.functionCount →
    (profile.functions first).name = (profile.functions second).name → first = second

/-- The tables are in bounds, unused slots are empty, and all slots are well formed. -/
structure SystemProfiler.WellFormed (profiler : SystemProfiler) : Prop where
  eventCount_le : profiler.eventCount ≤ 10000
  threadCount_le : profiler.threadCount ≤ 1024
  unused : ∀ index, profiler.threadCount ≤ index → (profiler.threads index).functionCount = 0
  threads : ∀ index, (profiler.threads index).WellFormed

/-- The same for the global variable. -/
def GlobalProfiler.WellFormed : GlobalProfiler → Prop
  | .present profiler => profiler.WellFormed
  | _ => True

/-- A thread without functions is well formed. -/
theorem ThreadProfile.wellFormed_of_functionCount {profile : ThreadProfile}
    (h : profile.functionCount = 0) : profile.WellFormed := by
  constructor
  · omega
  · intro first second hfirst
    omega

theorem ThreadProfile.WellFormed.enterFunction {profile : ThreadProfile} (h : profile.WellFormed)
    (name : FunctionName) : (enterFunction profile name).2.WellFormed := by
  unfold Profiler.enterFunction
  cases hfind : findFunction profile name with
  | some index => exact h
  | none =>
    have hnew : ∀ index < profile.functionCount, (profile.functions index).name ≠ name := by
      intro index hlt
      have hdiffers := firstIndex_eq_none.1 hfind index hlt
      rwa [beq_iff_eq] at hdiffers
    dsimp only
    split_ifs with hroom
    · refine ⟨hroom, fun first second hfirst hsecond heq ↦ ?_⟩
      dsimp only at hfirst hsecond heq
      by_cases hone : first = profile.functionCount
      · by_cases htwo : second = profile.functionCount
        · rw [hone, htwo]
        · rw [hone, Function.update_self, Function.update_of_ne htwo] at heq
          exact absurd heq.symm (hnew second (by omega))
      · by_cases htwo : second = profile.functionCount
        · rw [htwo, Function.update_self, Function.update_of_ne hone] at heq
          exact absurd heq (hnew first (by omega))
        · rw [Function.update_of_ne hone, Function.update_of_ne htwo] at heq
          exact h.distinct first second (by omega) (by omega) heq
    · exact h

theorem ThreadProfile.WellFormed.record {profile : ThreadProfile} (h : profile.WellFormed)
    (index : ℕ) (time : ℚ) : (profile.record index time).WellFormed := by
  refine ⟨h.functionCount_le, fun first second hfirst hsecond heq ↦ ?_⟩
  rw [name_record, name_record] at heq
  exact h.distinct first second hfirst hsecond heq

section Operations

variable {profiler : SystemProfiler} (h : profiler.WellFormed)
include h

theorem SystemProfiler.WellFormed.addProfileEvent (eventType : EventType) (name : FunctionName)
    (thread : ℕ) (duration : ℚ) (reading : Reading) :
    (addProfileEvent profiler eventType name thread duration reading).WellFormed := by
  unfold Profiler.addProfileEvent
  split_ifs with hfull
  · exact h
  · exact ⟨not_le.1 hfull, h.threadCount_le, h.unused, h.threads⟩

/-- A used slot may get other contents. -/
theorem SystemProfiler.WellFormed.setThread {index : ℕ} (hindex : index < profiler.threadCount)
    {profile : ThreadProfile} (hprofile : profile.WellFormed) :
    (profiler.setThread index profile).WellFormed := by
  refine ⟨h.eventCount_le, h.threadCount_le, fun other hother ↦ ?_, ?_⟩
  · have hne : other ≠ index := fun heq ↦ absurd hindex (not_lt.2 (heq ▸ hother))
    show (Function.update profiler.threads index profile other).functionCount = 0
    rw [Function.update_of_ne hne]
    exact h.unused other hother
  · exact (Function.forall_update_iff profiler.threads fun _ profile ↦ profile.WellFormed).2
      ⟨hprofile, fun other _ ↦ h.threads other⟩

/-- A new slot holds a thread without functions. -/
theorem SystemProfiler.WellFormed.addThread (hroom : profiler.threadCount < 1024)
    {profile : ThreadProfile} (hprofile : profile.functionCount = 0) :
    { profiler with
      threads := Function.update profiler.threads profiler.threadCount profile
      threadCount := profiler.threadCount + 1 : SystemProfiler }.WellFormed := by
  refine ⟨h.eventCount_le, hroom, fun other hother ↦ ?_, ?_⟩
  · have hne : other ≠ profiler.threadCount := fun heq ↦ by
      dsimp only at hother
      omega
    show (Function.update profiler.threads profiler.threadCount profile other).functionCount = 0
    rw [Function.update_of_ne hne]
    exact h.unused other (Nat.le_of_succ_le hother)
  · exact (Function.forall_update_iff profiler.threads fun _ profile ↦ profile.WellFormed).2
      ⟨ThreadProfile.wellFormed_of_functionCount hprofile, fun other _ ↦ h.threads other⟩

/-- The entry that `enterThread` gives is in use. -/
theorem SystemProfiler.WellFormed.enterThread (thread : ℕ) (now : ℚ) :
    (enterThread profiler thread now).2.WellFormed ∧
      ∀ index ∈ (enterThread profiler thread now).1,
        index < (Profiler.enterThread profiler thread now).2.threadCount := by
  unfold Profiler.enterThread
  cases hfind : findThread profiler thread with
  | some index =>
    refine ⟨h, ?_⟩
    rintro _ ⟨⟩
    exact findThread_lt hfind
  | none =>
    dsimp only
    split_ifs with hroom
    · refine ⟨h.addThread hroom (h.unused _ (le_refl _)), ?_⟩
      rintro _ ⟨⟩
      exact Nat.lt_succ_self _
    · exact ⟨h, by simp⟩

theorem SystemProfiler.WellFormed.profileFunctionEnter (thread : ℕ) (name : FunctionName) (now : ℚ)
    (reading : Reading) : (profileFunctionEnter profiler thread name now reading).WellFormed := by
  obtain ⟨hentered, hindex⟩ := h.enterThread thread now
  rcases profileFunctionEnter_cases profiler thread name now reading with
    hsame | hfull | ⟨index, next, hthread, place, profile, hfunction, hnext⟩
  · rw [hsame]
    exact h
  · rw [hfull]
    exact hentered
  · rw [hthread] at hentered hindex
    have hprofile := (hentered.threads index).enterFunction name
    rw [hfunction] at hprofile
    rw [hnext]
    exact (hentered.setThread (hindex index rfl) hprofile).addProfileEvent _ _ _ _ _

theorem SystemProfiler.WellFormed.profileFunctionExit (thread : ℕ) (name : FunctionName)
    (currentTime : ℚ) (reading : Reading) :
    (profileFunctionExit profiler thread name currentTime reading).WellFormed := by
  rcases profileFunctionExit_cases profiler thread name currentTime reading with
    hsame | ⟨index, place, time, hthread, hnext⟩
  · rw [hsame]
    exact h
  · have hrecorded := (h.threads index).record place time
    rw [hnext]
    exact (h.setThread (findThread_lt hthread) hrecorded).addProfileEvent _ _ _ _ _

theorem SystemProfiler.WellFormed.profileThreadStart (thread : ℕ) (name : ThreadName) (now : ℚ) :
    (profileThreadStart profiler thread name now).WellFormed := by
  unfold Profiler.profileThreadStart
  split_ifs with hroom
  · exact h.addThread hroom rfl
  · exact h

theorem SystemProfiler.WellFormed.profileThreadEnd (thread : ℕ) (now : ℚ) :
    (profileThreadEnd profiler thread now).WellFormed := by
  unfold Profiler.profileThreadEnd
  split
  next => exact h
  next index hthread =>
    have hprofile := h.threads index
    exact h.setThread (findThread_lt hthread) ⟨hprofile.functionCount_le, hprofile.distinct⟩

theorem SystemProfiler.WellFormed.sampleSystemState (thread : ℕ) (usage : Option Reading)
    (freeram : Option (ℕ × Reading)) :
    (sampleSystemState profiler thread usage freeram).WellFormed :=
  sampleSystemState_of_addProfileEvent
    (fun _ eventType name thread duration reading hbefore ↦
      hbefore.addProfileEvent eventType name thread duration reading) h thread usage freeram

end Operations

theorem wellFormed_cleared (profiler : SystemProfiler) : (profilerReset profiler).WellFormed where
  eventCount_le := Nat.zero_le _
  threadCount_le := Nat.zero_le _
  unused := fun _ _ ↦ rfl
  threads := fun _ ↦ ThreadProfile.wellFormed_of_functionCount rfl

theorem SystemProfiler.WellFormed.apply {profiler : SystemProfiler} (h : profiler.WellFormed)
    (call : Call) : (call.apply profiler).WellFormed := by
  cases call with
  | init => exact h
  | start => exact ⟨h.eventCount_le, h.threadCount_le, h.unused, h.threads⟩
  | stop => exact ⟨h.eventCount_le, h.threadCount_le, h.unused, h.threads⟩
  | reset => exact wellFormed_cleared profiler
  | functionEnter thread name now reading => exact h.profileFunctionEnter thread name now reading
  | functionExit thread name currentTime reading =>
    exact h.profileFunctionExit thread name currentTime reading
  | threadStart thread name now => exact h.profileThreadStart thread name now
  | threadEnd thread now => exact h.profileThreadEnd thread now
  | sample thread usage freeram => exact h.sampleSystemState thread usage freeram

theorem wellFormed_profilerInit {profiler : GlobalProfiler} (h : profiler.WellFormed)
    (allocated : Bool) (now : ℚ) : (profilerInit profiler allocated now).WellFormed := by
  cases profiler with
  | null =>
    cases allocated with
    | false => trivial
    | true =>
      exact ⟨Nat.zero_le _, Nat.zero_le _, fun _ _ ↦ rfl,
        fun _ ↦ ThreadProfile.wellFormed_of_functionCount rfl⟩
  | present profiler => exact h
  | fault => trivial

theorem wellFormed_profilerStart {profiler : GlobalProfiler} (h : profiler.WellFormed)
    (allocated : Bool) (created now : ℚ) :
    (profilerStart profiler allocated created now).WellFormed := by
  have hcreated := wellFormed_profilerInit h allocated created
  unfold profilerStart
  split
  next profiler hinit =>
    rw [hinit] at hcreated
    exact ⟨hcreated.eventCount_le, hcreated.threadCount_le, hcreated.unused, hcreated.threads⟩
  next => trivial

theorem wellFormed_profilerStep {profiler : GlobalProfiler} (h : profiler.WellFormed)
    (call : Call) : (profilerStep profiler call).WellFormed := by
  cases profiler with
  | null =>
    cases call with
    | init allocated now => exact wellFormed_profilerInit h allocated now
    | start allocated created now => exact wellFormed_profilerStart h allocated created now
    | _ => trivial
  | present profiler =>
    rw [profilerStep_present]
    exact SystemProfiler.WellFormed.apply h call
  | fault =>
    rw [profilerStep_fault]
    trivial

end HiFetch.Profiler
