import HiFetch.Profiler.Profiler

/-!
# Durations of calls

`profile_function_exit` takes the time of its call from the last ENTER of the function in the log.
An ENTER is not consumed by its EXIT, one that finds the log or a table full is not written, and
the log tells threads apart by 32 bits.  The duration of a call is right if its ENTER is in the log
and no ENTER of the same function and the same 32 bits has been written since: it is wrong for the
outer calls of a recursion.

A session follows the open calls of every thread beside the profiler.
-/

namespace HiFetch.Profiler

open ArraySearch Transition

/-- An open call: its function, the time at which it was entered, and the place of its ENTER. -/
structure Frame where
  name : FunctionName
  time : ℚ
  position : Option ℕ

structure Session where
  profiler : SystemProfiler
  openCalls : ℕ → List Frame

/-- What the threads do while profiling is on. -/
inductive Step where
  | enter (thread : ℕ) (name : FunctionName) (now : ℚ) (reading : Reading)
  | exit (thread : ℕ) (name : FunctionName) (currentTime : ℚ) (reading : Reading)
  | sample (thread : ℕ) (usage : Option Reading) (freeram : Option (ℕ × Reading))

def sessionStep (session : Session) : Step → Session
  | .enter thread name now reading =>
      let next := profileFunctionEnter session.profiler thread name now reading
      let position :=
        if next.eventCount = session.profiler.eventCount then none
        else some session.profiler.eventCount
      { profiler := next
        openCalls := Function.update session.openCalls thread
          (⟨name, reading.time, position⟩ :: session.openCalls thread) }
  | .exit thread name currentTime reading =>
      { profiler := profileFunctionExit session.profiler thread name currentTime reading
        openCalls := Function.update session.openCalls thread (session.openCalls thread).tail }
  | .sample thread usage freeram =>
      { session with profiler := sampleSystemState session.profiler thread usage freeram }

/-- A session without open calls. -/
def startSession (profiler : SystemProfiler) : Session := ⟨profiler, fun _ ↦ []⟩

/-- An exit is the exit of the innermost open call of its thread. -/
def WellNested (session : Session) : Step → Prop
  | .exit thread name _ _ => ∃ frame ∈ (session.openCalls thread).head?, frame.name = name
  | _ => True

/-- The execution time that a thread's entry holds for a function. -/
def recordedTime (profiler : SystemProfiler) (thread : ℕ) (name : FunctionName) : Option ℚ :=
  (findThread profiler thread).bind fun index ↦
    (findFunction (profiler.threads index) name).map fun place ↦
      ((profiler.threads index).functions place).executionTime

/-- An exit records the time since the matching enter. -/
def Exact (session : Session) : Step → Prop
  | .exit thread name currentTime reading => ∀ frame ∈ (session.openCalls thread).head?,
      recordedTime (profileFunctionExit session.profiler thread name currentTime reading)
        thread name = some (currentTime - frame.time)
  | _ => True

/-- The ENTER of the call that exits is in the log, and behind it no ENTER of the same function by a
thread with the same low 32 bits. -/
def Logged (session : Session) : Step → Prop
  | .exit thread name _ _ => ∀ frame ∈ (session.openCalls thread).head?, ∃ position,
      frame.position = some position ∧ ∀ later, position < later →
        later < session.profiler.eventCount →
          ¬(session.profiler.events later).isEnter name thread
  | _ => True

/-! ## What stays -/

/-- The thread has an entry, and that entry has the function. -/
def Knows (profiler : SystemProfiler) (thread : ℕ) (name : FunctionName) : Prop :=
  ∃ index, findThread profiler thread = some index ∧
    ∃ place, findFunction (profiler.threads index) name = some place

/-- The log and the tables only grow. -/
structure Extends (before after : SystemProfiler) : Prop where
  isProfiling : after.isProfiling = before.isProfiling
  eventCount : before.eventCount ≤ after.eventCount
  events : ∀ index < before.eventCount, after.events index = before.events index
  knows : ∀ thread name, Knows before thread name → Knows after thread name

theorem Extends.refl (profiler : SystemProfiler) : Extends profiler profiler :=
  ⟨rfl, le_refl _, fun _ _ ↦ rfl, fun _ _ h ↦ h⟩

theorem Extends.trans {first second third : SystemProfiler} (h : Extends first second)
    (hnext : Extends second third) : Extends first third where
  isProfiling := hnext.isProfiling.trans h.isProfiling
  eventCount := h.eventCount.trans hnext.eventCount
  events := by
    intro index hlt
    rw [hnext.events index (hlt.trans_le h.eventCount), h.events index hlt]
  knows := fun thread name hknows ↦ hnext.knows thread name (h.knows thread name hknows)

/-- An event is added behind the others, or the log is full. -/
theorem addProfileEvent_spec (profiler : SystemProfiler) (eventType : EventType)
    (name : FunctionName) (thread : ℕ) (duration : ℚ) (reading : Reading) :
    addProfileEvent profiler eventType name thread duration reading = profiler ∨
      (addProfileEvent profiler eventType name thread duration reading).eventCount =
          profiler.eventCount + 1 ∧
        ∃ memoryUsage, (addProfileEvent profiler eventType name thread duration reading).events
          profiler.eventCount =
            ⟨reading.time, eventType, name, intThread thread, duration, memoryUsage⟩ := by
  unfold addProfileEvent
  split_ifs
  · exact .inl rfl
  · exact .inr ⟨rfl, _, Function.update_self _ _ _⟩

@[simp]
theorem threads_setThread (profiler : SystemProfiler) (index : ℕ) (profile : ThreadProfile) :
    (profiler.setThread index profile).threads index = profile :=
  Function.update_self _ _ _

/-- A changed entry is still the first one of its thread. -/
theorem findThread_setThread {profiler : SystemProfiler} {index thread found : ℕ}
    {profile : ThreadProfile} (hthread : profile.threadId = (profiler.threads index).threadId)
    (h : findThread profiler thread = some found) :
    findThread (profiler.setThread index profile) thread = some found := by
  rw [← h]
  apply firstIndex_congr
  intro entry _
  show ((Function.update profiler.threads index profile entry).threadId == thread) = _
  by_cases heq : entry = index
  · rw [heq, Function.update_self, hthread]
  · rw [Function.update_of_ne heq]

theorem extends_addProfileEvent (profiler : SystemProfiler) (eventType : EventType)
    (name : FunctionName) (thread : ℕ) (duration : ℚ) (reading : Reading) :
    Extends profiler (addProfileEvent profiler eventType name thread duration reading) := by
  unfold addProfileEvent
  split_ifs
  · exact Extends.refl profiler
  · refine ⟨rfl, Nat.le_succ _, fun index hlt ↦ ?_, fun _ _ h ↦ h⟩
    exact Function.update_of_ne hlt.ne _ _

/-- The functions of an entry may grow. -/
theorem extends_setThread {profiler : SystemProfiler} {index : ℕ} {profile : ThreadProfile}
    (hthread : profile.threadId = (profiler.threads index).threadId)
    (hcount : (profiler.threads index).functionCount ≤ profile.functionCount)
    (hname : ∀ place < (profiler.threads index).functionCount,
      (profile.functions place).name = ((profiler.threads index).functions place).name) :
    Extends profiler (profiler.setThread index profile) := by
  refine ⟨rfl, le_refl _, fun _ _ ↦ rfl, ?_⟩
  rintro thread name ⟨other, hother, place, hplace⟩
  refine ⟨other, findThread_setThread hthread hother, place, ?_⟩
  show findFunction (Function.update profiler.threads index profile other) name = some place
  by_cases heq : other = index
  · subst heq
    rw [Function.update_self]
    apply firstIndex_of_le hcount
    rw [← hplace]
    apply firstIndex_congr
    intro entry hlt
    rw [hname entry hlt]
  · rw [Function.update_of_ne heq]
    exact hplace

theorem extends_enterThread (profiler : SystemProfiler) (thread : ℕ) (now : ℚ) :
    Extends profiler (enterThread profiler thread now).2 := by
  unfold enterThread
  split
  next => exact Extends.refl profiler
  next =>
    split_ifs
    · refine ⟨rfl, le_refl _, fun _ _ ↦ rfl, ?_⟩
      rintro other name ⟨index, hindex, place, hplace⟩
      have hlt := findThread_lt hindex
      refine ⟨index, ?_, place, ?_⟩
      · apply firstIndex_of_le (Nat.le_succ _)
        rw [← hindex]
        apply firstIndex_congr
        intro entry hentry
        dsimp only
        rw [Function.update_of_ne hentry.ne]
      · dsimp only
        rw [Function.update_of_ne hlt.ne]
        exact hplace
    · exact Extends.refl profiler

/-! ## Entering -/

theorem findThread_enterThread {profiler next : SystemProfiler} {thread index : ℕ} {now : ℚ}
    (h : enterThread profiler thread now = (some index, next)) :
    findThread next thread = some index := by
  unfold enterThread at h
  split at h
  next found hfind =>
    cases h
    exact hfind
  next hfind =>
    split_ifs at h
    · cases h
      refine firstIndex_succ hfind (fun earlier hlt ↦ ?_) (by simp)
      dsimp only
      rw [Function.update_of_ne hlt.ne]
    · cases h

theorem eventCount_enterThread (profiler : SystemProfiler) (thread : ℕ) (now : ℚ) :
    (enterThread profiler thread now).2.eventCount = profiler.eventCount := by
  unfold enterThread
  split
  next => rfl
  next => split_ifs <;> rfl

theorem findFunction_enterFunction {profile next : ThreadProfile} {name : FunctionName} {place : ℕ}
    (h : enterFunction profile name = (some place, next)) :
    findFunction next name = some place := by
  unfold enterFunction at h
  split at h
  next found hfind =>
    cases h
    exact hfind
  next hfind =>
    split_ifs at h
    · cases h
      refine firstIndex_succ hfind (fun earlier hlt ↦ ?_) (by simp)
      dsimp only
      rw [Function.update_of_ne hlt.ne]
    · cases h

/-- The functions an entry has keep their places. -/
theorem functions_enterFunction (profile : ThreadProfile) (name : FunctionName) :
    profile.functionCount ≤ (enterFunction profile name).2.functionCount ∧
      ∀ place < profile.functionCount, ((enterFunction profile name).2.functions place).name =
        (profile.functions place).name := by
  unfold enterFunction
  split
  next => exact ⟨le_refl _, fun _ _ ↦ rfl⟩
  next =>
    split_ifs
    · refine ⟨Nat.le_succ _, fun place hlt ↦ ?_⟩
      dsimp only
      rw [Function.update_of_ne hlt.ne]
    · exact ⟨le_refl _, fun _ _ ↦ rfl⟩

/-- What `profile_function_enter` writes to the log, if it writes anything. -/
structure Entered (before after : SystemProfiler) (thread : ℕ) (name : FunctionName) (time : ℚ) :
    Prop where
  eventCount : after.eventCount = before.eventCount + 1
  isEnter : (after.events before.eventCount).isEnter name thread
  timestamp : (after.events before.eventCount).timestamp = time
  knows : Knows after thread name

theorem profileFunctionEnter_spec (profiler : SystemProfiler) (thread : ℕ) (name : FunctionName)
    (now : ℚ) (reading : Reading) :
    Extends profiler (profileFunctionEnter profiler thread name now reading) ∧
      ((profileFunctionEnter profiler thread name now reading).eventCount = profiler.eventCount ∨
        Entered profiler (profileFunctionEnter profiler thread name now reading) thread name
          reading.time) := by
  have hthreads := extends_enterThread profiler thread now
  have hcount := eventCount_enterThread profiler thread now
  rcases profileFunctionEnter_cases profiler thread name now reading with
    hsame | hfull | ⟨index, next, hthread, place, profile, hfunction, hnext⟩
  · rw [hsame]
    exact ⟨Extends.refl profiler, .inl rfl⟩
  · rw [hfull]
    exact ⟨hthreads, .inl hcount⟩
  · rw [hthread] at hthreads hcount
    have hthreadId := threadId_enterFunction (next.threads index) name
    have hplaces := functions_enterFunction (next.threads index) name
    rw [hfunction] at hthreadId hplaces
    have hfunctions := hthreads.trans (extends_setThread hthreadId hplaces.1 hplaces.2)
    have hlog := extends_addProfileEvent (next.setThread index profile) .enter name thread 0
      reading
    have hknows : Knows (next.setThread index profile) thread name :=
      ⟨index, findThread_setThread hthreadId (findThread_enterThread hthread), place, by
        rw [threads_setThread]
        exact findFunction_enterFunction hfunction⟩
    have hplace : (next.setThread index profile).eventCount = profiler.eventCount := hcount
    rw [hnext]
    refine ⟨hfunctions.trans hlog, ?_⟩
    rcases addProfileEvent_spec (next.setThread index profile) .enter name thread 0 reading with
      hfull | ⟨hadded, memoryUsage, hevent⟩
    · exact .inl ((congrArg SystemProfiler.eventCount hfull).trans hplace)
    · rw [hplace] at hadded hevent
      refine .inr ⟨hadded, ?_, ?_, hlog.knows _ _ hknows⟩
      · rw [hevent]
        simp [ProfileEvent.isEnter]
      · rw [hevent]

/-! ## Exiting and sampling -/

theorem extends_record (profiler : SystemProfiler) (index place : ℕ) (time : ℚ) :
    Extends profiler (profiler.setThread index ((profiler.threads index).record place time)) := by
  have hname : ∀ other < (profiler.threads index).functionCount,
      (((profiler.threads index).record place time).functions other).name =
        ((profiler.threads index).functions other).name := fun other _ ↦ name_record _ _ _ _
  exact extends_setThread rfl (le_refl _) hname

theorem extends_profileFunctionExit (profiler : SystemProfiler) (thread : ℕ) (name : FunctionName)
    (currentTime : ℚ) (reading : Reading) :
    Extends profiler (profileFunctionExit profiler thread name currentTime reading) := by
  rcases profileFunctionExit_cases profiler thread name currentTime reading with
    hsame | ⟨index, place, time, -, hnext⟩
  · rw [hsame]
    exact Extends.refl profiler
  · rw [hnext]
    exact (extends_record profiler index place time).trans (extends_addProfileEvent _ _ _ _ _ _)

/-- A known function gets the time since the ENTER that the search finds. -/
theorem recordedTime_profileFunctionExit {profiler : SystemProfiler} {thread : ℕ}
    {name : FunctionName} (hprofiling : profiler.isProfiling = true)
    (hknows : Knows profiler thread name) (currentTime : ℚ) (reading : Reading) :
    recordedTime (profileFunctionExit profiler thread name currentTime reading) thread name =
      some (currentTime - enterTime profiler name thread) := by
  obtain ⟨index, hindex, place, hplace⟩ := hknows
  have hfound : ∀ time,
      findFunction ((profiler.threads index).record place time) name = some place := by
    intro time
    rw [← hplace]
    apply firstIndex_congr
    intro other _
    rw [name_record]
  have htime : ∀ time, recordedTime
      (profiler.setThread index ((profiler.threads index).record place time)) thread name =
        some time := by
    intro time
    have hthread := findThread_setThread
      (rfl : ((profiler.threads index).record place time).threadId = _) hindex
    unfold recordedTime
    rw [hthread, Option.bind_some, threads_setThread, hfound time, Option.map_some]
    simp [ThreadProfile.record, FunctionProfile.record]
  have hevent : ∀ before eventType duration, recordedTime
      (addProfileEvent before eventType name thread duration reading) thread name =
        recordedTime before thread name := by
    intro before eventType duration
    have hthreads := addProfileEvent_threads before eventType name thread duration reading
    unfold recordedTime findThread
    rw [hthreads.1, hthreads.2]
  unfold profileFunctionExit
  rw [if_pos hprofiling, hindex]
  dsimp only
  rw [hplace]
  dsimp only
  rw [hevent, htime]

theorem extends_sampleSystemState (profiler : SystemProfiler) (thread : ℕ) (usage : Option Reading)
    (freeram : Option (ℕ × Reading)) :
    Extends profiler (sampleSystemState profiler thread usage freeram) :=
  sampleSystemState_of_addProfileEvent
    (fun next eventType name thread duration reading hbefore ↦
      hbefore.trans (extends_addProfileEvent next eventType name thread duration reading))
    (Extends.refl profiler) thread usage freeram

/-! ## The invariant -/

/-- Every open call whose ENTER is in the log is found there, with the time of the call. -/
structure Session.Invariant (session : Session) : Prop where
  isProfiling : session.profiler.isProfiling = true
  logged : ∀ thread, ∀ frame ∈ session.openCalls thread, ∀ position ∈ frame.position,
    position < session.profiler.eventCount ∧
      (session.profiler.events position).isEnter frame.name thread ∧
      (session.profiler.events position).timestamp = frame.time ∧
      Knows session.profiler thread frame.name

theorem invariant_startSession {profiler : SystemProfiler} (h : profiler.isProfiling = true) :
    (startSession profiler).Invariant :=
  ⟨h, by simp [startSession]⟩

/-- A profiler that has grown still has what the open calls need. -/
theorem Session.Invariant.extend {session : Session} (h : session.Invariant)
    {next : SystemProfiler} (hextends : Extends session.profiler next)
    {openCalls : ℕ → List Frame}
    (hcalls : ∀ thread, ∀ frame ∈ openCalls thread, frame ∈ session.openCalls thread ∨
      ∀ position ∈ frame.position, position < next.eventCount ∧
        (next.events position).isEnter frame.name thread ∧
        (next.events position).timestamp = frame.time ∧ Knows next thread frame.name) :
    Session.Invariant ⟨next, openCalls⟩ where
  isProfiling := hextends.isProfiling.trans h.isProfiling
  logged := by
    intro thread frame hmem position hposition
    rcases hcalls thread frame hmem with hold | hnew
    · obtain ⟨hlt, henter, htime, hknows⟩ := h.logged thread frame hold position hposition
      refine ⟨hlt.trans_le hextends.eventCount, ?_, ?_, hextends.knows _ _ hknows⟩
      · rw [hextends.events position hlt]
        exact henter
      · rw [hextends.events position hlt]
        exact htime
    · exact hnew position hposition

theorem invariant_sessionStep {session : Session} (h : session.Invariant) (step : Step) :
    (sessionStep session step).Invariant := by
  cases step with
  | enter thread name now reading =>
    obtain ⟨hextends, hentered⟩ :=
      profileFunctionEnter_spec session.profiler thread name now reading
    apply h.extend hextends
    intro other frame hmem
    by_cases heq : other = thread
    · subst heq
      rw [Function.update_self, List.mem_cons] at hmem
      rcases hmem with rfl | hold
      · right
        intro position hposition
        dsimp only at hposition
        split_ifs at hposition with hsame
        · cases hposition
        · cases hposition
          obtain ⟨hcount, henter, htime, hknows⟩ := hentered.resolve_left hsame
          exact ⟨hcount ▸ Nat.lt_succ_self _, henter, htime, hknows⟩
      · exact .inl hold
    · rw [Function.update_of_ne heq] at hmem
      exact .inl hmem
  | exit thread name currentTime reading =>
    apply h.extend (extends_profileFunctionExit session.profiler thread name currentTime reading)
    intro other frame hmem
    by_cases heq : other = thread
    · subst heq
      rw [Function.update_self] at hmem
      exact .inl (List.mem_of_mem_tail hmem)
    · rw [Function.update_of_ne heq] at hmem
      exact .inl hmem
  | sample thread usage freeram =>
    exact h.extend (extends_sampleSystemState session.profiler thread usage freeram)
      fun _ _ hmem ↦ .inl hmem

/-- An exit whose ENTER is the last one in the log records the right time. -/
theorem exact_of_logged {session : Session} (h : session.Invariant) {step : Step}
    (hnested : WellNested session step) (hlogged : Logged session step) : Exact session step := by
  cases step with
  | exit thread name currentTime reading =>
    obtain ⟨frame, hframe, rfl⟩ := hnested
    intro other hother
    obtain rfl : frame = other := Option.mem_unique hframe hother
    obtain ⟨position, hposition, hlast⟩ := hlogged frame hframe
    obtain ⟨hlt, henter, htime, hknows⟩ :=
      h.logged thread frame (List.mem_of_mem_head? hframe) position hposition
    have hsearch : lastIndex session.profiler.eventCount
        (fun index ↦ (session.profiler.events index).isEnter frame.name thread) = some position :=
      lastIndex_eq_some.2 ⟨hlt, henter, hlast⟩
    rw [recordedTime_profileFunctionExit h.isProfiling hknows]
    unfold enterTime
    rw [hsearch]
    dsimp only
    rw [htime]
  | enter => trivial
  | sample => trivial

/-- From any profiler with profiling on, if calls are well nested in every thread and every exit
finds the ENTER of its call in the log, with no ENTER of the same function and the same low 32 bits
of the thread behind it, then every exit records the time since its enter. -/
theorem along_exact (profiler : SystemProfiler) (hprofiling : profiler.isProfiling = true)
    (steps : List Step) (hnested : Along sessionStep WellNested (startSession profiler) steps)
    (hlogged : Along sessionStep Logged (startSession profiler) steps) :
    Along sessionStep Exact (startSession profiler) steps := by
  have hstep : ∀ (session : Session) step, session.Invariant →
      (WellNested session step ∧ Logged session step) →
        (sessionStep session step).Invariant ∧ Exact session step := by
    intro session step h hallowed
    exact ⟨invariant_sessionStep h step, exact_of_logged h hallowed.1 hallowed.2⟩
  exact along_of_invariant hstep (invariant_startSession hprofiling) (hnested.and hlogged)

/-- A new profiler, with profiling on. -/
def startedProfiler : SystemProfiler where
  events := fun _ ↦ .zero
  threads := fun _ ↦ .zero
  eventCount := 0
  threadCount := 0
  profilingStartTime := 0
  totalProfilingTime := 0
  isProfiling := true

/-- A single call of `f`. -/
theorem along_exact_single : Along sessionStep Exact (startSession startedProfiler)
    [.enter 7 ⟨⟨[102], by decide⟩, by decide⟩ 1 ⟨2, none⟩,
      .exit 7 ⟨⟨[102], by decide⟩, by decide⟩ 5 ⟨6, none⟩] := by
  apply along_exact startedProfiler rfl
  · exact ⟨trivial, ⟨_, rfl, rfl⟩, trivial⟩
  · refine ⟨trivial, ?_, trivial⟩
    rintro _ ⟨⟩
    refine ⟨0, rfl, fun later hlow hhigh ↦ ?_⟩
    have hcount : later < 1 := hhigh
    omega

/-- The outer call of a recursion is given the time since the inner enter. -/
theorem not_along_exact : Along sessionStep WellNested (startSession startedProfiler)
      [.enter 7 emptyName 0 ⟨1, none⟩, .enter 7 emptyName 0 ⟨2, none⟩,
        .exit 7 emptyName 3 ⟨3, none⟩, .exit 7 emptyName 4 ⟨4, none⟩] ∧
    ¬Along sessionStep Exact (startSession startedProfiler)
      [.enter 7 emptyName 0 ⟨1, none⟩, .enter 7 emptyName 0 ⟨2, none⟩,
        .exit 7 emptyName 3 ⟨3, none⟩, .exit 7 emptyName 4 ⟨4, none⟩] := by
  constructor
  · exact ⟨trivial, trivial, ⟨_, rfl, rfl⟩, ⟨_, rfl, rfl⟩, trivial⟩
  · intro h
    have houter := h.2.2.2.1 ⟨emptyName, 1, some 0⟩ rfl
    have hwrong : (some (4 - 2) : Option ℚ) = some (4 - 1) := houter
    norm_num at hwrong

end HiFetch.Profiler
