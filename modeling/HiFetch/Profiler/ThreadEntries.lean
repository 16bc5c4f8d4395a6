import HiFetch.Profiler.Profiler

/-!
# One entry for a thread

`profile_function_enter` looks for the entry of its thread before it makes one;
`profile_thread_start` makes one without looking.  The entries of a run belong to different threads
exactly as long as `profile_thread_start` is called by threads that have no entry.
-/

namespace HiFetch.Profiler

open ArraySearch Transition

/-- No two entries in use have the same thread. -/
def SystemProfiler.OneEach (profiler : SystemProfiler) : Prop :=
  ∀ first second, first < profiler.threadCount → second < profiler.threadCount →
    (profiler.threads first).threadId = (profiler.threads second).threadId → first = second

def GlobalProfiler.OneEach : GlobalProfiler → Prop
  | .present profiler => profiler.OneEach
  | _ => True

/-- A `profile_thread_start` that makes an entry is called by a thread without one. -/
def StartsOnce : GlobalProfiler → Call → Prop
  | .present profiler, .threadStart thread _ _ =>
      profiler.threadCount < 1024 → findThread profiler thread = none
  | _, _ => True

theorem findThread_eq_none {profiler : SystemProfiler} {thread : ℕ} :
    findThread profiler thread = none ↔
      ∀ index < profiler.threadCount, (profiler.threads index).threadId ≠ thread := by
  unfold findThread
  rw [firstIndex_eq_none]
  simp only [beq_iff_eq, ne_eq]

section Operations

variable {profiler : SystemProfiler}

/-- A further entry keeps the entries apart exactly when its thread has none. -/
theorem oneEach_addThread_iff (h : profiler.OneEach) (profile : ThreadProfile) :
    { profiler with
      threads := Function.update profiler.threads profiler.threadCount profile
      threadCount := profiler.threadCount + 1 : SystemProfiler }.OneEach ↔
        findThread profiler profile.threadId = none := by
  rw [findThread_eq_none]
  constructor
  · intro hnext index hlt heq
    apply hlt.ne
    apply hnext index profiler.threadCount (Nat.lt_succ_of_lt hlt) (Nat.lt_succ_self _)
    dsimp only
    rw [Function.update_of_ne hlt.ne, Function.update_self, heq]
  · intro hnew first second hfirst hsecond heq
    dsimp only at hfirst hsecond heq
    by_cases hone : first = profiler.threadCount
    · by_cases htwo : second = profiler.threadCount
      · rw [hone, htwo]
      · rw [hone, Function.update_self, Function.update_of_ne htwo] at heq
        exact absurd heq.symm (hnew second (by omega))
    · by_cases htwo : second = profiler.threadCount
      · rw [htwo, Function.update_self, Function.update_of_ne hone] at heq
        exact absurd heq (hnew first (by omega))
      · rw [Function.update_of_ne hone, Function.update_of_ne htwo] at heq
        exact h first second (by omega) (by omega) heq

/-- An entry may change as long as its thread stays. -/
theorem SystemProfiler.OneEach.setThread (h : profiler.OneEach) {index : ℕ}
    {profile : ThreadProfile} (hsame : profile.threadId = (profiler.threads index).threadId) :
    (profiler.setThread index profile).OneEach := by
  have hthread : ∀ other, ((profiler.setThread index profile).threads other).threadId =
      (profiler.threads other).threadId := by
    intro other
    show (Function.update profiler.threads index profile other).threadId = _
    by_cases heq : other = index
    · rw [heq, Function.update_self, hsame]
    · rw [Function.update_of_ne heq]
  intro first second hfirst hsecond heq
  rw [hthread, hthread] at heq
  exact h first second hfirst hsecond heq

theorem SystemProfiler.OneEach.addProfileEvent (h : profiler.OneEach) (eventType : EventType)
    (name : FunctionName) (thread : ℕ) (duration : ℚ) (reading : Reading) :
    (addProfileEvent profiler eventType name thread duration reading).OneEach := by
  obtain ⟨hthreads, hcount⟩ :=
    addProfileEvent_threads profiler eventType name thread duration reading
  unfold SystemProfiler.OneEach
  rw [hthreads, hcount]
  exact h

theorem SystemProfiler.OneEach.enterThread (h : profiler.OneEach) (thread : ℕ) (now : ℚ) :
    (enterThread profiler thread now).2.OneEach := by
  unfold Profiler.enterThread
  cases hfind : findThread profiler thread with
  | some index => exact h
  | none =>
    dsimp only
    split_ifs
    · exact (oneEach_addThread_iff h _).2 hfind
    · exact h

theorem SystemProfiler.OneEach.profileFunctionEnter (h : profiler.OneEach) (thread : ℕ)
    (name : FunctionName) (now : ℚ) (reading : Reading) :
    (profileFunctionEnter profiler thread name now reading).OneEach := by
  have hentered := h.enterThread thread now
  rcases profileFunctionEnter_cases profiler thread name now reading with
    hsame | hfull | ⟨index, next, hthread, place, profile, hfunction, hnext⟩
  · rw [hsame]
    exact h
  · rw [hfull]
    exact hentered
  · rw [hthread] at hentered
    have hthreadId := threadId_enterFunction (next.threads index) name
    rw [hfunction] at hthreadId
    rw [hnext]
    exact (hentered.setThread hthreadId).addProfileEvent _ _ _ _ _

theorem SystemProfiler.OneEach.profileFunctionExit (h : profiler.OneEach) (thread : ℕ)
    (name : FunctionName) (currentTime : ℚ) (reading : Reading) :
    (profileFunctionExit profiler thread name currentTime reading).OneEach := by
  rcases profileFunctionExit_cases profiler thread name currentTime reading with
    hsame | ⟨index, place, time, hthread, hnext⟩
  · rw [hsame]
    exact h
  · have hthreadId : ((profiler.threads index).record place time).threadId =
        (profiler.threads index).threadId := rfl
    rw [hnext]
    exact (h.setThread hthreadId).addProfileEvent _ _ _ _ _

theorem SystemProfiler.OneEach.sampleSystemState (h : profiler.OneEach) (thread : ℕ)
    (usage : Option Reading) (freeram : Option (ℕ × Reading)) :
    (sampleSystemState profiler thread usage freeram).OneEach :=
  sampleSystemState_of_addProfileEvent
    (fun _ eventType name thread duration reading hbefore ↦
      hbefore.addProfileEvent eventType name thread duration reading) h thread usage freeram

/-- A call keeps the entries apart exactly when it starts no thread twice. -/
theorem oneEach_apply_iff (h : profiler.OneEach) (call : Call) :
    (call.apply profiler).OneEach ↔ StartsOnce (.present profiler) call := by
  cases call with
  | init => exact iff_of_true h trivial
  | start => exact iff_of_true h trivial
  | stop => exact iff_of_true h trivial
  | reset => exact iff_of_true (fun first second hfirst ↦ absurd hfirst (Nat.not_lt_zero _)) trivial
  | functionEnter thread name now reading =>
    exact iff_of_true (h.profileFunctionEnter thread name now reading) trivial
  | functionExit thread name currentTime reading =>
    exact iff_of_true (h.profileFunctionExit thread name currentTime reading) trivial
  | threadStart thread name now =>
    show (profileThreadStart profiler thread name now).OneEach ↔
      (profiler.threadCount < 1024 → findThread profiler thread = none)
    unfold profileThreadStart
    split_ifs with hroom
    · rw [oneEach_addThread_iff h]
      exact ⟨fun hnone _ ↦ hnone, fun hstarts ↦ hstarts hroom⟩
    · exact iff_of_true h fun hless ↦ absurd hless hroom
  | threadEnd thread now =>
    refine iff_of_true ?_ trivial
    show (profileThreadEnd profiler thread now).OneEach
    unfold profileThreadEnd
    split
    next => exact h
    next => exact h.setThread rfl
  | sample thread usage freeram =>
    exact iff_of_true (h.sampleSystemState thread usage freeram) trivial

end Operations

theorem oneEach_profilerStep_iff {profiler : GlobalProfiler} (h : profiler.OneEach) (call : Call) :
    (profilerStep profiler call).OneEach ↔ StartsOnce profiler call := by
  cases profiler with
  | null =>
    apply iff_of_true _ trivial
    -- a new profiler has no entries
    cases call with
    | init allocated now =>
      cases allocated with
      | false => trivial
      | true => exact fun first second hfirst ↦ absurd hfirst (Nat.not_lt_zero _)
    | start allocated created now =>
      cases allocated with
      | false => trivial
      | true => exact fun first second hfirst ↦ absurd hfirst (Nat.not_lt_zero _)
    | _ => trivial
  | present profiler =>
    rw [profilerStep_present]
    exact oneEach_apply_iff h call
  | fault =>
    rw [profilerStep_fault]
    exact iff_of_true trivial trivial

/-- In every run the entries in use belong to different threads throughout, if and only if no
`profile_thread_start` is called by a thread that has an entry while the table has room. -/
theorem throughout_oneEach_iff (calls : List Call) :
    Throughout profilerStep GlobalProfiler.OneEach .null calls ↔
      Along profilerStep StartsOnce .null calls := by
  have hexact : ∀ profiler call, GlobalProfiler.OneEach profiler → (fun _ _ ↦ True) profiler call →
      ((profilerStep profiler call).OneEach ↔ StartsOnce profiler call) :=
    fun profiler call h _ ↦ oneEach_profilerStep_iff h call
  exact throughout_iff_along_of_step hexact trivial (along_of_forall fun _ _ ↦ trivial)

/-- A thread that has entered a function and then calls `profile_thread_start`. -/
theorem not_throughout_oneEach :
    ¬Throughout profilerStep GlobalProfiler.OneEach .null
      [.start true 0 0, .functionEnter 7 emptyName 1 ⟨1, none⟩, .threadStart 7 emptyName 2] := by
  intro h
  have htwice : (0 : ℕ) = 1 := h.last 0 1 (by decide) (by decide) rfl
  exact absurd htwice (by decide)

end HiFetch.Profiler
