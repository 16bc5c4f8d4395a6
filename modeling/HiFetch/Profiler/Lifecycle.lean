import HiFetch.Library.Transition
import Mathlib.Logic.Function.Basic

/-!
# The sampling thread

`profiler_start` creates a thread that samples the system until a flag is cleared, and
`profiler_stop` clears the flag and joins it.  The thread reads the profiler through
`global_profiler` without a lock, while `profiler_cleanup` frees it.

One thread of the program makes the calls, and the moves of the sampling threads come between its
steps in any order.  A load of the pointer and an access through it are two steps.  An access
through NULL or to a freed profiler, a second `free`, and a join of a thread that does not exist
are faults, and nothing happens after a fault.
-/

namespace HiFetch.Profiler.Lifecycle

open Transition

/-- The calls of the program; `record` is any call that returns without a profiler and uses it
otherwise. -/
inductive Call where
  | init
  | start
  | stop
  | cleanup
  | record
deriving DecidableEq

/-- Where the program is: before the named step, or outside the profiler. -/
inductive Position where
  | idle
  /-- The `calloc` of `profiler_init`. -/
  | allocate (starting : Bool)
  /-- The first fields of the new profiler. -/
  | fill (starting : Bool)
  /-- `is_profiling = 1` -/
  | begin
  /-- The test of `start_profiling_thread`. -/
  | testStart
  | create
  /-- `is_profiling = 0` -/
  | finish (cleaning : Bool)
  /-- The test of `stop_profiling_thread`. -/
  | testStop (cleaning : Bool)
  | join (cleaning : Bool)
  | free
  /-- `global_profiler = NULL` -/
  | forget
  | use
deriving DecidableEq

/-- Where a sampling thread is.  A pointer is a value of `global_profiler` that it has loaded. -/
inductive Sampling where
  | test
  /-- The load of `global_profiler` in `sample_system_state`. -/
  | load
  | readProfiling (pointer : ℕ)
  /-- The load of `global_profiler` in `add_profile_event`; `memory` is the second event. -/
  | event (memory : Bool)
  | append (memory : Bool) (pointer : ℕ)
  /-- The load of `global_profiler` behind the sample. -/
  | loadRate
  | sleep (pointer : Option ℕ)
deriving DecidableEq

inductive Sampler where
  | absent
  | running (position : Sampling)
  | returned
deriving DecidableEq

inductive Fault where
  | null
  | freed
  | doubleFree
  | noThread
deriving DecidableEq

/-- A profiler is named by the number of its allocation, and a thread by the number of its
creation; `handle` is `profiling_thread`. -/
structure System where
  globalProfiler : Option ℕ
  live : List ℕ
  allocations : ℕ
  isProfiling : Bool
  running : Bool
  handle : Option ℕ
  creations : ℕ
  samplers : ℕ → Sampler
  position : Position
  fault : Option Fault

inductive Action where
  | call (function : Call)
  /-- The next step of the program; an allocation or a creation in it may fail. -/
  | next (succeeds : Bool)
  /-- The next step of a sampling thread; the system call in front of an event may fail. -/
  | sample (thread : ℕ) (succeeds : Bool)

def startSystem : System where
  globalProfiler := none
  live := []
  allocations := 0
  isProfiling := false
  running := false
  handle := none
  creations := 0
  samplers := fun _ ↦ .absent
  position := .idle
  fault := none

namespace System

def goto (system : System) (position : Position) : System :=
  { system with position := position }

def fail (system : System) (fault : Fault) : System := { system with fault := some fault }

/-- An access through a pointer, and what comes next. -/
def access (system : System) (pointer : Option ℕ) (next : System) : System :=
  match pointer with
  | none => system.fail .null
  | some block => if block ∈ system.live then next else system.fail .freed

def setSampler (system : System) (thread : ℕ) (sampler : Sampler) : System :=
  { system with samplers := Function.update system.samplers thread sampler }

/-- Where `profiler_init` returns to. -/
def afterInit (system : System) (starting : Bool) : System :=
  system.goto (if starting then .begin else .idle)

/-- Where `profiler_stop` returns to. -/
def afterStop (system : System) (cleaning : Bool) : System :=
  system.goto (if cleaning then .free else .idle)

/-- The first step of a call: its test of `global_profiler`. -/
def enter (system : System) : Call → System
  | .init => if system.globalProfiler.isSome then system else system.goto (.allocate false)
  | .start => system.goto (if system.globalProfiler.isSome then .begin else .allocate true)
  | .stop => if system.globalProfiler.isSome then system.goto (.finish false) else system
  | .cleanup => if system.globalProfiler.isSome then system.goto (.finish true) else system
  | .record => if system.globalProfiler.isSome then system.goto .use else system

/-- `calloc` -/
def allocate (system : System) (starting succeeds : Bool) : System :=
  if succeeds then
    { system with
      globalProfiler := some system.allocations
      live := system.allocations :: system.live
      allocations := system.allocations + 1
      isProfiling := false }.goto (.fill starting)
  else { system with globalProfiler := none }.afterInit starting

/-- `pthread_create`; a failure leaves the handle as it is. -/
def create (system : System) (succeeds : Bool) : System :=
  if succeeds then
    { system with
      handle := some system.creations
      creations := system.creations + 1 }.setSampler system.creations (.running .test) |>.goto .idle
  else system.goto .idle

/-- `pthread_join`, which waits until the thread has returned. -/
def join (system : System) (cleaning : Bool) : System :=
  match system.handle with
  | none => system.fail .noThread
  | some thread =>
      match system.samplers thread with
      | .absent => system.fail .noThread
      | .running _ => system
      | .returned => (system.setSampler thread .absent).afterStop cleaning

/-- `free(global_profiler)` -/
def free (system : System) : System :=
  match system.globalProfiler with
  | none => system.goto .forget
  | some block =>
      if block ∈ system.live then { system with live := system.live.erase block }.goto .forget
      else system.fail .doubleFree

/-- The next step of the program. -/
def next (system : System) (succeeds : Bool) : System :=
  match system.position with
  | .idle => system
  | .allocate starting => system.allocate starting succeeds
  | .fill starting => system.access system.globalProfiler (system.afterInit starting)
  | .begin =>
      system.access system.globalProfiler ({ system with isProfiling := true }.goto .testStart)
  | .testStart =>
      if system.running then system.goto .idle else { system with running := true }.goto .create
  | .create => system.create succeeds
  | .finish cleaning =>
      system.access system.globalProfiler
        ({ system with isProfiling := false }.goto (.testStop cleaning))
  | .testStop cleaning =>
      if system.running then { system with running := false }.goto (.join cleaning)
      else system.afterStop cleaning
  | .join cleaning => system.join cleaning
  | .free => system.free
  | .forget => { system with globalProfiler := none }.goto .idle
  | .use => system.access system.globalProfiler (system.goto .idle)

/-- What comes after an event of a sample. -/
def afterEvent (memory : Bool) : Sampling := if memory then .loadRate else .event true

/-- The next step of a sampling thread. -/
def sample (system : System) (thread : ℕ) (succeeds : Bool) : System :=
  match system.samplers thread with
  | .absent | .returned => system
  | .running .test =>
      system.setSampler thread (if system.running then .running .load else .returned)
  | .running .load =>
      system.setSampler thread (.running
        (match system.globalProfiler with
          | none => .loadRate
          | some block => .readProfiling block))
  | .running (.readProfiling pointer) =>
      system.access pointer
        (system.setSampler thread
          (.running (if system.isProfiling then .event false else .loadRate)))
  | .running (.event memory) =>
      system.setSampler thread (.running
        (match system.globalProfiler with
          | none => afterEvent memory
          | some block => if succeeds then .append memory block else afterEvent memory))
  | .running (.append memory pointer) =>
      system.access pointer (system.setSampler thread (.running (afterEvent memory)))
  | .running .loadRate => system.setSampler thread (.running (.sleep system.globalProfiler))
  | .running (.sleep pointer) =>
      system.access pointer (system.setSampler thread (.running .test))

end System

def systemStep (system : System) (action : Action) : System :=
  if system.fault.isSome then system
  else
    match action with
    | .call function => if system.position = .idle then system.enter function else system
    | .next succeeds => system.next succeeds
    | .sample thread succeeds => system.sample thread succeeds

/-! ## What holds in every state -/

/-- A pointer that a sampling thread has loaded is the profiler's. -/
def Sampling.Holds (block : ℕ) : Sampling → Prop
  | .readProfiling pointer | .append _ pointer => pointer = block
  | .sleep pointer => pointer = some block
  | .test | .load | .event _ | .loadRate => True

/-- A sampling thread, which has not returned while the flag is set. -/
def Sampler.Exists (block : ℕ) (running : Bool) : Sampler → Prop
  | .absent => False
  | .running position => position.Holds block
  | .returned => running = false

theorem Sampler.Exists.clear {block : ℕ} {running : Bool} {sampler : Sampler}
    (h : sampler.Exists block running) : sampler.Exists block false := by
  cases sampler with
  | absent => exact h
  | running => exact h
  | returned => rfl

/-- No sampling thread exists. -/
def System.Quiet (system : System) : Prop := ∀ thread, system.samplers thread = .absent

/-- The thread of the handle is the only one, and a profiler is there. -/
def System.Attended (system : System) : Prop :=
  ∃ thread block, system.handle = some thread ∧ system.globalProfiler = some block ∧
    (system.samplers thread).Exists block system.running ∧
    ∀ other, other ≠ thread → system.samplers other = .absent

/-- Which sampling threads exist at each position of the program.  The flag may be set without a
thread, after a creation that failed. -/
def System.Threads (system : System) : Position → Prop
  | .allocate _ | .fill _ | .free | .forget => system.Quiet
  | .create => system.running = true ∧ system.Quiet
  | .join _ => system.running = false ∧ (system.Attended ∨ system.Quiet)
  | .idle | .begin | .testStart | .finish _ | .testStop _ | .use =>
      (system.running = true ∧ system.Attended) ∨ system.Quiet

/-- The program has a profiler, and it is the only one. -/
def System.Owning (system : System) : Prop :=
  ∃ block, system.globalProfiler = some block ∧ system.live = [block]

/-- Which profiler is allocated at each position. -/
def System.Memory (system : System) : Position → Prop
  | .allocate _ => system.globalProfiler = none ∧ system.live = []
  | .forget => system.live = []
  | .idle | .begin => system.live = system.globalProfiler.toList
  | .fill _ | .testStart | .create | .finish _ | .testStop _ | .join _ | .free | .use =>
      system.Owning

structure Sound (system : System) : Prop where
  fault_eq : system.fault = none
  memory : system.Memory system.position
  threads : system.Threads system.position

/-- The handle is one of a thread that has not been joined. -/
def System.joinable (system : System) : Bool :=
  match system.handle with
  | none => false
  | some thread => system.samplers thread != .absent

/-- `profiler_start` goes on with a profiler, and `stop_profiling_thread` joins a thread that has
been created. -/
def Supported (system : System) : Action → Prop
  | .next _ =>
      match system.position with
      | .begin => system.globalProfiler.isSome
      | .join _ => system.joinable
      | _ => True
  | _ => True

/-- The steps that a sampling thread still takes once the flag is clear. -/
def Sampler.remaining : Sampler → ℕ
  | .absent | .returned => 0
  | .running .test => 1
  | .running (.sleep _) => 2
  | .running .loadRate => 3
  | .running (.append true _) => 4
  | .running (.event true) => 5
  | .running (.append false _) => 6
  | .running (.event false) => 7
  | .running (.readProfiling _) => 8
  | .running .load => 9

theorem sound_start : Sound startSystem where
  fault_eq := rfl
  memory := rfl
  threads := .inr fun _ ↦ rfl

namespace System

theorem access_of_owning {system next : System} (h : system.Owning) :
    system.access system.globalProfiler next = next := by
  obtain ⟨block, hprofiler, hlive⟩ := h
  rw [hprofiler]
  exact if_pos (by rw [hlive]; exact List.mem_singleton_self block)

theorem not_joinable_of_quiet {system : System} (h : system.Quiet) : ¬system.joinable := by
  unfold joinable
  cases system.handle with
  | none => exact Bool.false_ne_true
  | some thread => simp [h thread]

/-- A call starts in a sound state. -/
theorem sound_enter {system : System} (h : Sound system) (hidle : system.position = .idle)
    (function : Call) : Sound (system.enter function) := by
  have hmemory := h.memory
  have hthreads := h.threads
  rw [hidle] at hmemory hthreads
  cases hprofiler : system.globalProfiler with
  | none =>
    have hquiet : system.Quiet := by
      rcases hthreads with ⟨-, -, block, -, hsome, -⟩ | hquiet
      · rw [hprofiler] at hsome
        cases hsome
      · exact hquiet
    have hlive : system.live = system.globalProfiler.toList := hmemory
    rw [hprofiler] at hlive
    have hallocate (starting : Bool) : Sound (system.goto (.allocate starting)) :=
      ⟨h.fault_eq, ⟨hprofiler, hlive⟩, hquiet⟩
    cases function <;>
      simp only [enter, hprofiler, Option.isSome_none, Bool.false_eq_true, if_false]
    · exact hallocate false
    · exact hallocate true
    · exact h
    · exact h
    · exact h
  | some block =>
    have howning : system.Owning := ⟨block, hprofiler, Eq.trans hmemory (by rw [hprofiler]; rfl)⟩
    cases function <;> simp only [enter, hprofiler, Option.isSome_some, if_true]
    · exact h
    · exact ⟨h.fault_eq, hmemory, hthreads⟩
    · exact ⟨h.fault_eq, howning, hthreads⟩
    · exact ⟨h.fault_eq, howning, hthreads⟩
    · exact ⟨h.fault_eq, howning, hthreads⟩

theorem toList_of_owning {system : System} (h : system.Owning) :
    system.live = system.globalProfiler.toList := by
  obtain ⟨block, hprofiler, hlive⟩ := h
  rw [hprofiler, hlive]
  rfl

theorem sound_afterInit {system : System} (hfault : system.fault = none)
    (hlive : system.live = system.globalProfiler.toList) (hquiet : system.Quiet)
    (starting : Bool) : Sound (system.afterInit starting) := by
  cases starting <;> exact ⟨hfault, hlive, .inr hquiet⟩

theorem sound_afterStop {system : System} (hfault : system.fault = none) (howning : system.Owning)
    (hquiet : system.Quiet) (cleaning : Bool) : Sound (system.afterStop cleaning) := by
  cases cleaning
  · exact ⟨hfault, toList_of_owning howning, .inr hquiet⟩
  · exact ⟨hfault, howning, hquiet⟩

/-- The creation of the thread: it is the only one, since there was none. -/
theorem sound_create {system : System} (hfault : system.fault = none) (howning : system.Owning)
    (hquiet : system.Quiet) (hrunning : system.running = true) (succeeds : Bool) :
    Sound (system.create succeeds) := by
  cases succeeds with
  | false => exact ⟨hfault, toList_of_owning howning, .inr hquiet⟩
  | true =>
    refine ⟨hfault, toList_of_owning howning, .inl ⟨hrunning, ?_⟩⟩
    obtain ⟨block, hprofiler, -⟩ := howning
    refine ⟨system.creations, block, rfl, hprofiler, ?_, fun other hother ↦ ?_⟩
    · show (Function.update system.samplers system.creations _ system.creations).Exists block
        system.running
      rw [Function.update_self]
      trivial
    · show Function.update system.samplers system.creations _ other = .absent
      rw [Function.update_of_ne hother]
      exact hquiet other

/-- A join waits, or it leaves no thread behind. -/
theorem sound_join {system : System} {cleaning : Bool} (h : Sound system)
    (hposition : system.position = .join cleaning) (hjoinable : system.joinable) :
    Sound (system.join cleaning) := by
  have hmemory := h.memory
  have hthreads := h.threads
  rw [hposition] at hmemory hthreads
  rcases hthreads.2 with ⟨thread, block, hhandle, -, hexists, hothers⟩ | hquiet
  · unfold join
    simp only [hhandle]
    cases hsampler : system.samplers thread with
    | absent =>
      rw [hsampler] at hexists
      exact hexists.elim
    | running => exact h
    | returned =>
      have hgone : (system.setSampler thread .absent).Quiet := by
        intro other
        by_cases hother : other = thread
        · rw [hother]
          exact Function.update_self ..
        · exact (Function.update_of_ne hother ..).trans (hothers other hother)
      exact @sound_afterStop (system.setSampler thread .absent) h.fault_eq hmemory hgone cleaning
  · exact absurd hjoinable (not_joinable_of_quiet hquiet)

/-- A supported step of the program keeps the state sound. -/
theorem sound_next {system : System} (h : Sound system) (succeeds : Bool)
    (hsupported : Supported system (.next succeeds)) : Sound (system.next succeeds) := by
  have hfault := h.fault_eq
  have hmemory := h.memory
  have hthreads := h.threads
  unfold next
  cases hposition : system.position with
  | idle => exact h
  | allocate starting =>
    rw [hposition] at hmemory hthreads
    cases succeeds with
    | false =>
      exact @sound_afterInit { system with globalProfiler := none } hfault hmemory.2 hthreads
        starting
    | true =>
      refine ⟨hfault, ⟨system.allocations, rfl, ?_⟩, hthreads⟩
      show system.allocations :: system.live = [system.allocations]
      rw [hmemory.2]
  | fill starting =>
    rw [hposition] at hmemory hthreads
    simp only [access_of_owning hmemory]
    exact sound_afterInit hfault (toList_of_owning hmemory) hthreads starting
  | begin =>
    rw [hposition] at hmemory hthreads
    simp only [Supported, hposition] at hsupported
    obtain ⟨block, hprofiler⟩ := Option.isSome_iff_exists.1 hsupported
    have howning : system.Owning := ⟨block, hprofiler, by rw [hmemory, hprofiler]; rfl⟩
    simp only [access_of_owning howning]
    exact ⟨hfault, howning, hthreads⟩
  | testStart =>
    rw [hposition] at hmemory hthreads
    by_cases hrunning : system.running = true
    · simp only [if_pos hrunning]
      exact ⟨hfault, toList_of_owning hmemory, hthreads⟩
    · simp only [if_neg hrunning]
      exact ⟨hfault, hmemory, rfl, hthreads.resolve_left fun hflag ↦ hrunning hflag.1⟩
  | create =>
    rw [hposition] at hmemory hthreads
    exact sound_create hfault hmemory hthreads.2 hthreads.1 succeeds
  | finish cleaning =>
    rw [hposition] at hmemory hthreads
    simp only [access_of_owning hmemory]
    exact ⟨hfault, hmemory, hthreads⟩
  | testStop cleaning =>
    rw [hposition] at hmemory hthreads
    by_cases hrunning : system.running = true
    · simp only [if_pos hrunning]
      refine ⟨hfault, hmemory, rfl, ?_⟩
      rcases hthreads with ⟨-, thread, block, hhandle, hprofiler, hexists, hothers⟩ | hquiet
      · refine .inl ⟨thread, block, hhandle, hprofiler, ?_, hothers⟩
        exact hexists.clear
      · exact .inr hquiet
    · simp only [if_neg hrunning]
      exact sound_afterStop hfault hmemory
        (hthreads.resolve_left fun hflag ↦ hrunning hflag.1) cleaning
  | join cleaning =>
    simp only [Supported, hposition] at hsupported
    exact sound_join h hposition hsupported
  | free =>
    rw [hposition] at hmemory hthreads
    obtain ⟨block, hprofiler, hlive⟩ := hmemory
    have hmem : block ∈ system.live := by rw [hlive]; exact List.mem_singleton_self block
    simp only [free, hprofiler, if_pos hmem]
    refine ⟨hfault, ?_, hthreads⟩
    show system.live.erase block = []
    rw [hlive, List.erase_cons_head]
  | forget =>
    rw [hposition] at hmemory hthreads
    exact ⟨hfault, hmemory, .inr hthreads⟩
  | use =>
    rw [hposition] at hmemory hthreads
    simp only [access_of_owning hmemory]
    exact ⟨hfault, toList_of_owning hmemory, hthreads⟩

/-! ## The sampling thread -/

/-- A thread exists only while the profiler does, and it is the one of the handle. -/
theorem present_spec {system : System} (h : Sound system) {thread : ℕ}
    (hpresent : system.samplers thread ≠ .absent) :
    ∃ block, system.globalProfiler = some block ∧ system.live = [block] ∧
      system.handle = some thread ∧ (system.samplers thread).Exists block system.running ∧
      ∀ other, other ≠ thread → system.samplers other = .absent := by
  have hnotQuiet : ¬system.Quiet := fun hquiet ↦ hpresent (hquiet thread)
  have hattended : system.Attended ∧ system.live = system.globalProfiler.toList := by
    have hmemory := h.memory
    have hthreads := h.threads
    cases hposition : system.position <;> rw [hposition] at hmemory hthreads
    case idle | begin =>
      exact ⟨(hthreads.resolve_right hnotQuiet).2, hmemory⟩
    case testStart | finish | testStop | use =>
      exact ⟨(hthreads.resolve_right hnotQuiet).2, toList_of_owning hmemory⟩
    case join => exact ⟨hthreads.2.resolve_right hnotQuiet, toList_of_owning hmemory⟩
    case create => exact absurd hthreads.2 hnotQuiet
    all_goals exact absurd hthreads hnotQuiet
  obtain ⟨⟨owner, block, hhandle, hprofiler, hexists, hothers⟩, hlive⟩ := hattended
  have howner : thread = owner := by
    by_contra hne
    exact hpresent (hothers thread hne)
  subst howner
  rw [hprofiler] at hlive
  exact ⟨block, hprofiler, hlive, hhandle, hexists, hothers⟩

/-- A step of a thread that exists: it still holds the profiler. -/
theorem sound_setSampler {system : System} (h : Sound system) {thread : ℕ}
    (hpresent : system.samplers thread ≠ .absent) {sampler : Sampler}
    (hexists : ∀ block, system.globalProfiler = some block →
      sampler.Exists block system.running) : Sound (system.setSampler thread sampler) := by
  refine ⟨h.fault_eq, ?_, ?_⟩
  · have hmemory := h.memory
    show (system.setSampler thread sampler).Memory system.position
    cases hposition : system.position <;> rw [hposition] at hmemory <;> exact hmemory
  have hattended : (system.setSampler thread sampler).Attended := by
    obtain ⟨block, hprofiler, -, hhandle, -, hothers⟩ := present_spec h hpresent
    refine ⟨thread, block, hhandle, hprofiler, ?_, fun other hother ↦ ?_⟩
    · show (Function.update system.samplers thread sampler thread).Exists block system.running
      rw [Function.update_self]
      exact hexists block hprofiler
    · exact (Function.update_of_ne hother ..).trans (hothers other hother)
  have hnotQuiet : ¬system.Quiet := fun hquiet ↦ hpresent (hquiet thread)
  have hthreads := h.threads
  show (system.setSampler thread sampler).Threads system.position
  cases hposition : system.position <;> rw [hposition] at hthreads
  case idle | begin | testStart | finish | testStop | use =>
    exact .inl ⟨(hthreads.resolve_right hnotQuiet).1, hattended⟩
  case join => exact ⟨hthreads.1, .inl hattended⟩
  case create => exact absurd hthreads.2 hnotQuiet
  all_goals exact absurd hthreads hnotQuiet

/-- What a step of a running thread does: it is a new position, in which the thread still holds the
profiler, and the thread gets nearer to its return once the flag is clear. -/
theorem sample_spec {system : System} (h : Sound system) {thread : ℕ} {position : Sampling}
    (hsampler : system.samplers thread = .running position) (succeeds : Bool) :
    ∃ sampler, system.sample thread succeeds = system.setSampler thread sampler ∧
      (∀ block, system.globalProfiler = some block → sampler.Exists block system.running) ∧
      (system.running = false → sampler.remaining < (Sampler.running position).remaining) := by
  have hpresent : system.samplers thread ≠ .absent := by rw [hsampler]; exact nofun
  obtain ⟨block, hprofiler, hlive, -, hexists, -⟩ := present_spec h hpresent
  rw [hsampler] at hexists
  have howning : system.Owning := ⟨block, hprofiler, hlive⟩
  have hpointer {pointer : ℕ} (heq : pointer = block) : some pointer = system.globalProfiler := by
    rw [hprofiler, heq]
  have hevent (memory : Bool) (other : ℕ) : (afterEvent memory).Holds other := by
    cases memory <;> exact trivial
  unfold sample
  rw [hsampler]
  cases position with
  | test =>
    cases hrunning : system.running with
    | true => exact ⟨_, rfl, fun _ _ ↦ trivial, nofun⟩
    | false => exact ⟨_, rfl, fun _ _ ↦ rfl, fun _ ↦ Nat.lt_succ_self 0⟩
  | load =>
    simp only [hprofiler]
    exact ⟨_, rfl, fun _ hother ↦ Option.some.inj hother, fun _ ↦ Nat.lt_succ_self 8⟩
  | readProfiling pointer =>
    simp only [hpointer hexists, access_of_owning howning]
    refine ⟨_, rfl, ?_, fun _ ↦ ?_⟩
    · cases system.isProfiling <;> exact fun _ _ ↦ trivial
    · cases system.isProfiling <;> simp [Sampler.remaining]
  | event memory =>
    simp only [hprofiler]
    refine ⟨_, rfl, fun other hother ↦ ?_, fun _ ↦ ?_⟩
    · cases succeeds
      · exact hevent memory other
      · exact Option.some.inj hother
    · cases memory <;> cases succeeds <;> simp [Sampler.remaining, afterEvent]
  | append memory pointer =>
    simp only [hpointer hexists, access_of_owning howning]
    refine ⟨_, rfl, fun other _ ↦ hevent memory other, fun _ ↦ ?_⟩
    cases memory <;> simp [Sampler.remaining, afterEvent]
  | loadRate => exact ⟨_, rfl, fun _ hother ↦ hother, fun _ ↦ Nat.lt_succ_self 2⟩
  | sleep pointer =>
    have heq : pointer = system.globalProfiler := by
      rw [hprofiler]
      exact hexists
    simp only [heq, access_of_owning howning]
    exact ⟨_, rfl, fun _ _ ↦ trivial, fun _ ↦ Nat.lt_succ_self 1⟩

/-- A step of a sampling thread keeps the state sound. -/
theorem sound_sample {system : System} (h : Sound system) (thread : ℕ) (succeeds : Bool) :
    Sound (system.sample thread succeeds) := by
  cases hsampler : system.samplers thread with
  | absent =>
    rw [sample, hsampler]
    exact h
  | returned =>
    rw [sample, hsampler]
    exact h
  | running position =>
    have hpresent : system.samplers thread ≠ .absent := by rw [hsampler]; exact nofun
    obtain ⟨sampler, heq, hexists, -⟩ := sample_spec h hsampler succeeds
    rw [heq]
    exact sound_setSampler h hpresent hexists

end System

/-! ## Every run -/

theorem sound_step {system : System} {action : Action} (h : Sound system)
    (hsupported : Supported system action) : Sound (systemStep system action) := by
  unfold systemStep
  rw [h.fault_eq, if_neg (by decide)]
  cases action with
  | call function =>
    by_cases hidle : system.position = .idle
    · simp only [if_pos hidle]
      exact System.sound_enter h hidle function
    · simp only [if_neg hidle]
      exact h
  | next succeeds => exact System.sound_next h succeeds hsupported
  | sample thread succeeds => exact System.sound_sample h thread succeeds

theorem fault_of_not_supported {system : System} {action : Action} (h : Sound system)
    (hsupported : ¬Supported system action) : (systemStep system action).fault ≠ none := by
  unfold systemStep
  rw [h.fault_eq, if_neg (by decide)]
  cases action with
  | call => exact absurd trivial hsupported
  | sample => exact absurd trivial hsupported
  | next succeeds =>
    unfold Supported at hsupported
    simp only [System.next]
    cases hposition : system.position <;> rw [hposition] at hsupported
    case begin =>
      have hnone : system.globalProfiler = none := by simpa using hsupported
      simp only [hnone]
      exact nofun
    case join cleaning =>
      unfold System.join
      unfold System.joinable at hsupported
      cases hhandle : system.handle with
      | none => exact nofun
      | some thread =>
        have habsent : system.samplers thread = .absent := by simpa [hhandle] using hsupported
        simp only [habsent]
        exact nofun
    all_goals exact absurd trivial hsupported

/-- What the program can rely on. -/
structure Safe (system : System) : Prop where
  fault_eq : system.fault = none
  /-- At most one sampling thread exists. -/
  alone : ∀ first second, system.samplers first ≠ .absent → system.samplers second ≠ .absent →
    first = second
  /-- It exists only while the profiler does. -/
  supplied : ∀ thread, system.samplers thread ≠ .absent →
    ∃ block ∈ system.live, system.globalProfiler = some block
  /-- Outside the calls no thread exists while the flag is clear. -/
  gone : system.position = .idle → system.running = false → system.Quiet
  /-- Outside the calls the profiler is the only memory that is allocated. -/
  owned : system.position = .idle → system.live = system.globalProfiler.toList

theorem Sound.safe {system : System} (h : Sound system) : Safe system where
  fault_eq := h.fault_eq
  alone first second hfirst hsecond := by
    obtain ⟨-, -, -, -, -, hothers⟩ := System.present_spec h hsecond
    by_contra hne
    exact hfirst (hothers first hne)
  supplied thread hpresent := by
    obtain ⟨block, hprofiler, hlive, -⟩ := System.present_spec h hpresent
    exact ⟨block, by rw [hlive]; exact List.mem_singleton_self block, hprofiler⟩
  gone hidle hrunning := by
    have hthreads := h.threads
    rw [hidle] at hthreads
    refine Or.resolve_left hthreads fun hset ↦ ?_
    rw [hrunning] at hset
    exact absurd hset.1 (by decide)
  owned hidle := by
    have hmemory := h.memory
    rw [hidle] at hmemory
    exact hmemory

/-- The sampling thread never outlives the profiler.  However the moves interleave, the program
stays safe as long as `profiler_start` has a profiler to go on with and `profiler_stop` has a thread
to join, and no longer. -/
theorem throughout_safe_iff (actions : List Action) :
    Throughout systemStep Safe startSystem actions ↔
      Along systemStep Supported startSystem actions := by
  have hbase : ∀ system action, (system.fault = none → Sound system) → True →
      ((systemStep system action).fault = none → Sound (systemStep system action)) := by
    intro system action hsound _ hnext
    have hfault : system.fault = none := by
      by_contra hfault
      refine hfault ?_
      unfold systemStep at hnext
      rwa [if_pos (Option.isSome_iff_ne_none.2 hfault)] at hnext
    by_contra hnot
    refine fault_of_not_supported (hsound hfault) (fun hsupported ↦ ?_) hnext
    exact hnot (sound_step (hsound hfault) hsupported)
  refine throughout_iff_along hbase ?_ (fun _ ↦ sound_start) sound_start.safe
    (along_of_forall fun _ _ ↦ trivial)
  intro system action hsound hsafe _
  have hcurrent := hsound hsafe.fault_eq
  constructor
  · intro hnext
    by_contra hnot
    exact fault_of_not_supported hcurrent hnot hnext.fault_eq
  · exact fun hsupported ↦ (sound_step hcurrent hsupported).safe

end HiFetch.Profiler.Lifecycle
