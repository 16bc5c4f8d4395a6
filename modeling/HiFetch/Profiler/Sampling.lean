import HiFetch.Profiler.EventTable
import HiFetch.Profiler.Profiler

/-!
# Samples without the lock

`sample_system_state` takes no lock, so its accesses to the profiler come between the calls that
hold it, and between those of other samples.  Here each of its accesses is a step of its own: the
test of `is_profiling`, and for an event the test of `event_count`, the load and the store of the
increment, and the writes into the place that has been counted.

A sample that finds a place may increment the count after another event has taken it.  The event is
then written behind the table, where the table of the threads is.
-/

namespace HiFetch.Profiler

open CString EventTable Transition

/-- The two events of a sample. -/
inductive Sampled where
  | state
  | memory (freeram : ℕ)

def Sampled.eventType : Sampled → EventType
  | .state => .sample
  | .memory _ => .memory

def Sampled.functionName : Sampled → FunctionName
  | .state => ⟨ofBuffer [115, 121, 115, 116, 101, 109, 95, 115, 116, 97, 116, 101], by decide⟩
  | .memory _ =>
      ⟨ofBuffer [115, 121, 115, 116, 101, 109, 95, 109, 101, 109, 111, 114, 121], by decide⟩

def Sampled.duration : Sampled → ℚ
  | .state => 0
  | .memory freeram => freeram

/-- Where a thread is in `sample_system_state`. -/
inductive Sampler where
  | outside
  /-- Before `getrusage`. -/
  | rusage
  /-- Before `sysinfo`. -/
  | sysinfo
  /-- In `add_profile_event`. -/
  | adding (sampled : Sampled) (stage : Stage)

/-- What the system gives for a step. -/
structure SampleInput where
  /-- `getrusage` or `sysinfo` returns 0. -/
  succeeds : Bool
  freeram : ℕ
  reading : Reading
  /-- What the table of the threads holds after an event has been written over it. -/
  overwritten : ℕ → ThreadProfile

/-- The writes of an event.  Behind the table of the events is that of the threads. -/
def writeEvent (profiler : SystemProfiler) (slot : ℕ) (sampled : Sampled) (thread : ℕ)
    (input : SampleInput) : SystemProfiler :=
  if slot < 10000 then
    { profiler with
      events := Function.update profiler.events slot
        { timestamp := input.reading.time
          eventType := sampled.eventType
          functionName := sampled.functionName
          threadId := intThread thread
          duration := sampled.duration
          memoryUsage :=
            match input.reading.maxrss with
            | some maxrss => maxrss * 1024
            | none => (profiler.events slot).memoryUsage } }
  else { profiler with threads := input.overwritten }

/-- Where the thread is when `add_profile_event` returns. -/
def Sampled.next : Sampled → Sampler
  | .state => .sysinfo
  | .memory _ => .outside

/-- The next step of a thread in `sample_system_state`, or its call. -/
def samplerStep (profiler : SystemProfiler) (thread : ℕ) (input : SampleInput) :
    Sampler → SystemProfiler × Sampler
  | .outside => (profiler, if profiler.isProfiling then .rusage else .outside)
  | .rusage => (profiler, if input.succeeds then .adding .state .outside else .sysinfo)
  | .sysinfo =>
      (profiler, if input.succeeds then .adding (.memory input.freeram) .outside else .outside)
  | .adding sampled .outside =>
      (profiler, if 10000 ≤ profiler.eventCount then sampled.next else .adding sampled .tested)
  | .adding sampled .tested => (profiler, .adding sampled (.loaded profiler.eventCount))
  | .adding sampled (.loaded count) =>
      ({ profiler with eventCount := count + 1 }, .adding sampled (.counted count))
  | .adding sampled (.counted slot) =>
      (writeEvent profiler slot sampled thread input, sampled.next)

/-- The profiler and where each thread is in `sample_system_state`. -/
structure Shared where
  profiler : GlobalProfiler
  samplers : ℕ → Sampler

/-- A call that holds the lock, or the next step of a sample. -/
inductive Move where
  | locked (call : Call) (unsampled : ∀ thread usage freeram, call ≠ .sample thread usage freeram)
  | sample (thread : ℕ) (input : SampleInput)

/-- Without a profiler, `sample_system_state` returns. -/
def sharedStep (shared : Shared) : Move → Shared
  | .locked call _ => { shared with profiler := profilerStep shared.profiler call }
  | .sample thread input =>
      match shared.profiler with
      | .present profiler =>
          let next := samplerStep profiler thread input (shared.samplers thread)
          { profiler := .present next.1
            samplers := Function.update shared.samplers thread next.2 }
      | _ => shared

def startShared : Shared := ⟨.null, fun _ ↦ .outside⟩

/-- A sample that stores the incremented count has loaded one that leaves a place: no other event
has taken the last place since the sample tested for it. -/
def FindsPlace (shared : Shared) : Move → Prop
  | .locked _ _ => True
  | .sample thread _ =>
      ∀ sampled count, shared.samplers thread = .adding sampled (.loaded count) → count < 10000

/-- A sample is inside only when there is a profiler, and the place it has counted is in the
table. -/
structure Attended (shared : Shared) : Prop where
  present : ∀ thread, shared.samplers thread ≠ .outside →
    ∃ profiler, shared.profiler = .present profiler
  slot : ∀ thread sampled slot,
    shared.samplers thread = .adding sampled (.counted slot) → slot < 10000

/-! ## A sample that nothing interrupts -/

section Uninterrupted

variable (profiler : SystemProfiler) (samplers : ℕ → Sampler) (thread : ℕ)

@[simp]
theorem sharedStep_sample (sampler : Sampler) (input : SampleInput) :
    sharedStep ⟨.present profiler, Function.update samplers thread sampler⟩ (.sample thread input) =
      ⟨.present (samplerStep profiler thread input sampler).1,
        Function.update samplers thread (samplerStep profiler thread input sampler).2⟩ := by
  simp [sharedStep]

def inputOf (succeeds : Bool) (freeram : ℕ) (reading : Reading) : SampleInput :=
  ⟨succeeds, freeram, reading, fun _ ↦ .zero⟩

/-- The test, the increment and the writes of an event, one after the other. -/
theorem run_adding (sampled : Sampled) (reading : Reading) :
    ∃ moves, run sharedStep
        ⟨.present profiler, Function.update samplers thread (.adding sampled .outside)⟩ moves =
      ⟨.present (addProfileEvent profiler sampled.eventType sampled.functionName thread
          sampled.duration reading),
        Function.update samplers thread sampled.next⟩ := by
  unfold addProfileEvent
  split_ifs with hfull
  · refine ⟨[.sample thread (inputOf true 0 reading)], ?_⟩
    simp [samplerStep, hfull]
  · refine ⟨List.replicate 4 (.sample thread (inputOf true 0 reading)), ?_⟩
    simp only [List.replicate, run_cons, run_nil, sharedStep_sample, samplerStep, if_neg hfull,
      writeEvent, if_pos (Nat.lt_of_not_le hfull)]
    rfl

/-- From the call of `sysinfo` on. -/
theorem run_sysinfo (freeram : Option (ℕ × Reading)) :
    ∃ moves, run sharedStep ⟨.present profiler, Function.update samplers thread .sysinfo⟩ moves =
      ⟨.present ((freeram.map fun found ↦
          addProfileEvent profiler (Sampled.memory found.1).eventType
            (Sampled.memory found.1).functionName thread (Sampled.memory found.1).duration
            found.2).getD profiler),
        Function.update samplers thread .outside⟩ := by
  cases freeram with
  | none =>
    refine ⟨[.sample thread (inputOf false 0 ⟨0, none⟩)], ?_⟩
    simp [samplerStep, inputOf]
  | some found =>
    obtain ⟨moves, hmoves⟩ := run_adding profiler samplers thread (.memory found.1) found.2
    refine ⟨.sample thread (inputOf true found.1 found.2) :: moves, ?_⟩
    rw [run_cons, sharedStep_sample]
    exact hmoves

/-- It is `sample_system_state` as one step. -/
theorem exists_run_sample (usage : Option Reading) (freeram : Option (ℕ × Reading)) :
    ∃ moves, run sharedStep ⟨.present profiler, Function.update samplers thread .outside⟩ moves =
      ⟨.present (sampleSystemState profiler thread usage freeram),
        Function.update samplers thread .outside⟩ := by
  by_cases hprofiling : profiler.isProfiling
  · have hcall : ∀ input, samplerStep profiler thread input .outside = (profiler, .rusage) := by
      simp [samplerStep, hprofiling]
    cases usage with
    | none =>
      obtain ⟨moves, hmoves⟩ := run_sysinfo profiler samplers thread freeram
      refine ⟨.sample thread (inputOf false 0 ⟨0, none⟩) ::
        .sample thread (inputOf false 0 ⟨0, none⟩) :: moves, ?_⟩
      rw [run_cons, run_cons, sharedStep_sample, hcall, sharedStep_sample]
      refine hmoves.trans ?_
      unfold sampleSystemState
      rw [if_pos hprofiling]
      cases freeram <;> rfl
    | some reading =>
      obtain ⟨added, hadded⟩ := run_adding profiler samplers thread .state reading
      obtain ⟨moves, hmoves⟩ := run_sysinfo (addProfileEvent profiler Sampled.state.eventType
        Sampled.state.functionName thread Sampled.state.duration reading) samplers thread freeram
      refine ⟨.sample thread (inputOf true 0 reading) :: .sample thread (inputOf true 0 reading) ::
        (added ++ moves), ?_⟩
      rw [run_cons, run_cons, sharedStep_sample, hcall, sharedStep_sample, run_append]
      refine (congrArg (run sharedStep · moves) hadded).trans (hmoves.trans ?_)
      unfold sampleSystemState
      rw [if_pos hprofiling]
      cases freeram <;> rfl
  · refine ⟨[.sample thread (inputOf true 0 ⟨0, none⟩)], ?_⟩
    simp [samplerStep, sampleSystemState, hprofiling]

end Uninterrupted

/-! ## The tables under samples -/

/-- The thread tables do not depend on the events. -/
theorem SystemProfiler.WellFormed.of_eq {profiler next : SystemProfiler} (h : profiler.WellFormed)
    (hthreads : next.threads = profiler.threads)
    (hthreadCount : next.threadCount = profiler.threadCount)
    (heventCount : next.eventCount ≤ 10000) : next.WellFormed where
  eventCount_le := heventCount
  threadCount_le := by rw [hthreadCount]; exact h.threadCount_le
  unused := by rw [hthreads, hthreadCount]; exact h.unused
  threads := by rw [hthreads]; exact h.threads

/-- A step keeps the tables unless it stores a count that is too large. -/
theorem wellFormed_samplerStep_iff {profiler : SystemProfiler} (h : profiler.WellFormed)
    (thread : ℕ) (input : SampleInput) {sampler : Sampler}
    (hslot : ∀ sampled slot, sampler = .adding sampled (.counted slot) → slot < 10000) :
    (samplerStep profiler thread input sampler).1.WellFormed ↔
      ∀ sampled count, sampler = .adding sampled (.loaded count) → count < 10000 := by
  cases sampler with
  | outside => exact ⟨fun _ ↦ nofun, fun _ ↦ h⟩
  | rusage => exact ⟨fun _ ↦ nofun, fun _ ↦ h⟩
  | sysinfo => exact ⟨fun _ ↦ nofun, fun _ ↦ h⟩
  | adding sampled stage =>
    cases stage with
    | outside => exact ⟨fun _ ↦ nofun, fun _ ↦ h⟩
    | tested => exact ⟨fun _ ↦ nofun, fun _ ↦ h⟩
    | loaded count =>
      constructor
      · rintro hnext _ _ ⟨⟩
        exact hnext.eventCount_le
      · intro hplace
        exact h.of_eq rfl rfl (hplace sampled count rfl)
    | counted slot =>
      have hwrite : (writeEvent profiler slot sampled thread input).WellFormed := by
        unfold writeEvent
        rw [if_pos (hslot sampled slot rfl)]
        exact h.of_eq rfl rfl h.eventCount_le
      exact ⟨fun _ ↦ nofun, fun _ ↦ hwrite⟩

/-- A step counts the place that it has loaded. -/
theorem slot_samplerStep {profiler : SystemProfiler} {thread : ℕ} {input : SampleInput}
    {sampler : Sampler} (hplace : ∀ sampled count, sampler = .adding sampled (.loaded count) →
      count < 10000) {sampled : Sampled} {slot : ℕ}
    (hnext : (samplerStep profiler thread input sampler).2 = .adding sampled (.counted slot)) :
    slot < 10000 := by
  cases sampler with
  | outside =>
    cases hprofiling : profiler.isProfiling <;> simp [samplerStep, hprofiling] at hnext
  | rusage => cases hsucceeds : input.succeeds <;> simp [samplerStep, hsucceeds] at hnext
  | sysinfo => cases hsucceeds : input.succeeds <;> simp [samplerStep, hsucceeds] at hnext
  | adding other stage =>
    cases stage with
    | outside =>
      by_cases hfull : 10000 ≤ profiler.eventCount <;>
        cases other <;> simp [samplerStep, hfull, Sampled.next] at hnext
    | tested => simp [samplerStep] at hnext
    | loaded count =>
      simp only [samplerStep, Sampler.adding.injEq, Stage.counted.injEq] at hnext
      exact hnext.2 ▸ hplace other count rfl
    | counted place => cases other <;> simp [samplerStep, Sampled.next] at hnext

theorem attended_start : Attended startShared where
  present := fun _ hinside ↦ absurd rfl hinside
  slot := fun _ _ _ hcounted ↦ Sampler.noConfusion hcounted

/-- A call that holds the lock leaves the samples where they are. -/
theorem attended_locked {shared : Shared} (h : Attended shared) (call : Call) :
    Attended { shared with profiler := profilerStep shared.profiler call } where
  present thread hinside := by
    obtain ⟨profiler, hpresent⟩ := h.present thread hinside
    exact ⟨call.apply profiler, by rw [hpresent, profilerStep_present]⟩
  slot := h.slot

theorem attended_sample {shared : Shared} (h : Attended shared) {thread : ℕ} {input : SampleInput}
    (hplace : FindsPlace shared (.sample thread input)) :
    Attended (sharedStep shared (.sample thread input)) := by
  unfold sharedStep
  cases hprofiler : shared.profiler with
  | null => exact h
  | fault => exact h
  | present profiler =>
    refine ⟨fun _ _ ↦ ⟨_, rfl⟩, fun other sampled slot hcounted ↦ ?_⟩
    dsimp only at hcounted
    by_cases hother : other = thread
    · rw [hother, Function.update_self] at hcounted
      exact slot_samplerStep hplace hcounted
    · rw [Function.update_of_ne hother] at hcounted
      exact h.slot other sampled slot hcounted

/-- The tables of the profiler, with samples in between.  In a run of calls that hold the lock and
of samples of any threads the log and the tables are in bounds, unused slots of the thread table
have no functions and the function names of a thread are pairwise distinct, exactly as long as no
sample stores a count for which there is no place. -/
theorem throughout_wellFormed_iff (moves : List Move) :
    Throughout sharedStep (fun shared ↦ shared.profiler.WellFormed) startShared moves ↔
      Along sharedStep FindsPlace startShared moves := by
  have hbase : ∀ shared move, Attended shared → shared.profiler.WellFormed → True →
      FindsPlace shared move → Attended (sharedStep shared move) := by
    intro shared move h _ _ hplace
    cases move with
    | locked call => exact attended_locked h call
    | sample thread input => exact attended_sample h hplace
  have hexact : ∀ shared move, Attended shared → shared.profiler.WellFormed → True →
      ((sharedStep shared move).profiler.WellFormed ↔ FindsPlace shared move) := by
    intro shared move h hformed _
    cases move with
    | locked call => exact ⟨fun _ ↦ trivial, fun _ ↦ wellFormed_profilerStep hformed call⟩
    | sample thread input =>
      unfold sharedStep FindsPlace
      have houtside : (∀ profiler, shared.profiler ≠ .present profiler) →
          shared.samplers thread = .outside := by
        intro hnone
        by_contra hinside
        obtain ⟨profiler, hpresent⟩ := h.present thread hinside
        exact hnone profiler hpresent
      cases hprofiler : shared.profiler with
      | null =>
        have hidle := houtside (by simp [hprofiler])
        simp [hidle, hprofiler, GlobalProfiler.WellFormed]
      | fault =>
        have hidle := houtside (by simp [hprofiler])
        simp [hidle, hprofiler, GlobalProfiler.WellFormed]
      | present profiler =>
        rw [hprofiler] at hformed
        exact wellFormed_samplerStep_iff hformed thread input (h.slot thread)
  exact throughout_iff_along_of_kept hbase hexact attended_start trivial
    (along_of_forall fun _ _ ↦ trivial)

/-! ## A sample that finds no place -/

/-- A profiler that is running, with a number of events and no threads. -/
structure Filled (profiler : SystemProfiler) (count : ℕ) : Prop where
  isProfiling : profiler.isProfiling
  eventCount : profiler.eventCount = count
  threadCount : profiler.threadCount = 0
  threads : profiler.threads = fun _ ↦ .zero

/-- Samples alone can fill the log up to any count. -/
theorem exists_run_filled {count : ℕ} (hcount : count ≤ 10000) :
    ∃ moves profiler, Filled profiler count ∧
      run sharedStep startShared moves = ⟨.present profiler, fun _ ↦ .outside⟩ := by
  induction count with
  | zero =>
    refine ⟨[.locked (.start true 0 0) (by simp)], _, ?_, rfl⟩
    exact ⟨rfl, rfl, rfl, rfl⟩
  | succ count ih =>
    obtain ⟨moves, profiler, hfilled, hrun⟩ := ih (by omega)
    obtain ⟨added, hadded⟩ :=
      exists_run_sample profiler (fun _ ↦ .outside) 1 (some ⟨0, none⟩) none
    rw [Function.update_eq_self] at hadded
    refine ⟨moves ++ added, _, ?_, by rw [run_append, hrun, hadded]⟩
    have hroom : ¬10000 ≤ profiler.eventCount := by
      rw [hfilled.eventCount]
      omega
    unfold sampleSystemState addProfileEvent
    rw [if_pos hfilled.isProfiling]
    dsimp only
    rw [if_neg hroom]
    exact ⟨hfilled.isProfiling, congrArg (· + 1) hfilled.eventCount, hfilled.threadCount,
      hfilled.threads⟩

def mainName : FunctionName := ⟨⟨[109, 97, 105, 110], by decide⟩, by decide⟩

/-- The first call of a thread adds an event. -/
theorem eventCount_profileFunctionEnter {profiler : SystemProfiler} {count : ℕ}
    (h : Filled profiler count) (hcount : count < 10000) (thread : ℕ) (name : FunctionName)
    (now : ℚ) (reading : Reading) :
    (profileFunctionEnter profiler thread name now reading).eventCount = count + 1 := by
  have hthread : findThread profiler thread = none := by
    unfold findThread
    rw [h.threadCount]
    rfl
  simp [profileFunctionEnter, h.isProfiling, enterThread, hthread, h.threadCount, h.threads,
    enterFunction, findFunction, ThreadProfile.zero, ArraySearch.firstIndex, addProfileEvent,
    SystemProfiler.setThread, h.eventCount,
    Nat.not_le.2 hcount]

/-- A sample finds a place, another call comes before the sample loads the count again. -/
def overtaken (thread : ℕ) (call : Call)
    (unsampled : ∀ thread usage freeram, call ≠ .sample thread usage freeram) : List Move :=
  let sample := .sample thread (inputOf true 0 ⟨0, none⟩)
  [sample, sample, sample, .locked call unsampled, sample, sample]

theorem run_overtaken {profiler : SystemProfiler} (hprofiling : profiler.isProfiling)
    (hroom : profiler.eventCount < 10000) (samplers : ℕ → Sampler) (thread : ℕ) (call : Call)
    (unsampled : ∀ thread usage freeram, call ≠ .sample thread usage freeram) :
    run sharedStep ⟨.present profiler, Function.update samplers thread .outside⟩
        (overtaken thread call unsampled) =
      ⟨.present { call.apply profiler with eventCount := (call.apply profiler).eventCount + 1 },
        Function.update samplers thread
          (.adding .state (.counted (call.apply profiler).eventCount))⟩ := by
  have hlocked : ∀ sampler, sharedStep ⟨.present profiler, Function.update samplers thread sampler⟩
      (.locked call unsampled) =
        ⟨.present (call.apply profiler), Function.update samplers thread sampler⟩ := by
    intro sampler
    simp [sharedStep]
  simp [overtaken, samplerStep, hprofiling, inputOf, Nat.not_le.2 hroom, hlocked]

/-- With 9999 events, a sample finds a place, an ENTER of another thread takes it, and the sample
counts 10001 events. -/
theorem not_throughout_wellFormed :
    ¬∀ moves,
      Throughout sharedStep (fun shared ↦ shared.profiler.WellFormed) startShared moves := by
  intro h
  have hmany : 9999 ≤ 10000 := by decide
  obtain ⟨moves, profiler, hfilled, hrun⟩ := exists_run_filled hmany
  have hroom : profiler.eventCount < 10000 := by
    rw [hfilled.eventCount]
    decide
  have hentered := eventCount_profileFunctionEnter hfilled (by decide) 2 mainName 0 ⟨0, none⟩
  have hlast := run_overtaken hfilled.isProfiling hroom (fun _ ↦ .outside) 1
    (.functionEnter 2 mainName 0 ⟨0, none⟩) (by simp)
  have hformed := (h (moves ++ overtaken 1 (.functionEnter 2 mainName 0 ⟨0, none⟩) (by simp))).last
  rw [Function.update_eq_self] at hlast
  rw [run_append, hrun, hlast] at hformed
  have hle : (profileFunctionEnter profiler 2 mainName 0 ⟨0, none⟩).eventCount + 1 ≤ 10000 :=
    hformed.eventCount_le
  rw [hentered] at hle
  exact absurd hle (by decide)

end HiFetch.Profiler
