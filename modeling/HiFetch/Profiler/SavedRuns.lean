import HiFetch.Profiler.SavedProfile

/-!
# Profiles of runs

A run of calls that do not overlap, with names that contain neither a comma nor a line break, leaves
only such names in the log and in the tables, so what it has recorded can be saved at any moment and
read back.
-/

namespace HiFetch.Profiler

open Transition

theorem isInt_bmod (number : ℤ) : IsInt (number.bmod (2 ^ 32)) := by
  have hlow := Int.le_bmod (x := number) (m := 2 ^ 32) (by decide)
  have hhigh := Int.bmod_lt (x := number) (m := 2 ^ 32) (by decide)
  constructor <;> omega

/-! ## The tables -/

structure FunctionProfile.Storable (function : FunctionProfile) : Prop where
  name : Plain function.name.1.bytes
  callCount : IsInt function.callCount

structure ThreadProfile.Storable (profile : ThreadProfile) : Prop where
  threadName : Plain profile.threadName.1.bytes
  functions : ∀ place, (profile.functions place).Storable

/-- All slots, used or not, can be saved. -/
structure SystemProfiler.Recorded (profiler : SystemProfiler) : Prop where
  events : ∀ index, (profiler.events index).Storable
  threads : ∀ index, (profiler.threads index).Storable

theorem SystemProfiler.Recorded.storable {profiler : SystemProfiler} (h : profiler.Recorded) :
    profiler.Storable where
  log event hevent := by
    obtain ⟨index, -, rfl⟩ := List.mem_map.1 hevent
    exact h.events index
  savedFunctions function hfunction := by
    obtain ⟨index, -, hplaces⟩ := List.mem_flatMap.1 hfunction
    obtain ⟨place, -, rfl⟩ := List.mem_map.1 hplaces
    obtain ⟨hname, hcalls⟩ := (h.threads index).functions place
    exact ⟨(h.threads index).threadName, hname, hcalls⟩

theorem plain_nil : Plain [] := ⟨nofun, nofun⟩

theorem storable_event_zero : ProfileEvent.zero.Storable :=
  ⟨plain_nil, by constructor <;> decide⟩

theorem storable_function_zero : FunctionProfile.zero.Storable :=
  ⟨plain_nil, by constructor <;> decide⟩

theorem storable_thread_zero : ThreadProfile.zero.Storable :=
  ⟨plain_nil, fun _ ↦ storable_function_zero⟩

/-- A table in which one entry has been replaced. -/
theorem forall_update {α : Type*} {property : α → Prop} {table : ℕ → α}
    (h : ∀ index, property (table index)) {index : ℕ} {entry : α} (hentry : property entry) :
    ∀ other, property (Function.update table index entry other) := by
  intro other
  by_cases hother : other = index
  · rw [hother, Function.update_self]
    exact hentry
  · rw [Function.update_of_ne hother]
    exact h other

theorem ThreadProfile.Storable.enterFunction {profile : ThreadProfile} (h : profile.Storable)
    {name : FunctionName} (hname : Plain name.1.bytes) :
    (enterFunction profile name).2.Storable := by
  unfold Profiler.enterFunction
  split
  next => exact h
  next =>
    split_ifs
    · have hcalls := (h.functions profile.functionCount).callCount
      exact ⟨h.threadName, forall_update h.functions ⟨hname, hcalls⟩⟩
    · exact h

theorem ThreadProfile.Storable.record {profile : ThreadProfile} (h : profile.Storable)
    (place : ℕ) (time : ℚ) : (profile.record place time).Storable :=
  ⟨h.threadName, forall_update h.functions ⟨(h.functions place).name, isInt_bmod _⟩⟩

theorem plain_defaultThreadName (index : ℕ) : Plain (defaultThreadName index).1.bytes := by
  have hplain : Plain ([84, 104, 114, 101, 97, 100, 45] ++ (CString.ofInt index).bytes) :=
    ⟨notMem_append (by decide) (plain_ofInt index).1,
      notMem_append (by decide) (plain_ofInt index).2⟩
  exact ⟨fun hmem ↦ hplain.1 (List.mem_of_mem_take hmem),
    fun hmem ↦ hplain.2 (List.mem_of_mem_take hmem)⟩

/-! ## Calls -/

namespace SystemProfiler.Recorded

variable {profiler : SystemProfiler} (h : profiler.Recorded)

include h

theorem addProfileEvent (eventType : EventType) {name : FunctionName} (hname : Plain name.1.bytes)
    (thread : ℕ) (duration : ℚ) (reading : Reading) :
    (addProfileEvent profiler eventType name thread duration reading).Recorded := by
  have hthread : IsInt (intThread thread) := isInt_bmod thread
  unfold Profiler.addProfileEvent
  split_ifs
  · exact h
  · refine ⟨forall_update h.events ⟨hname, ?_⟩, h.threads⟩
    dsimp only
    exact hthread

theorem setThread (index : ℕ) {profile : ThreadProfile} (hprofile : profile.Storable) :
    (profiler.setThread index profile).Recorded :=
  ⟨h.events, forall_update h.threads hprofile⟩

theorem enterThread (thread : ℕ) (now : ℚ) : (enterThread profiler thread now).2.Recorded := by
  unfold Profiler.enterThread
  split
  next => exact h
  next =>
    split_ifs
    · exact ⟨h.events, forall_update h.threads
        ⟨plain_defaultThreadName _, (h.threads profiler.threadCount).functions⟩⟩
    · exact h

theorem profileFunctionEnter (thread : ℕ) {name : FunctionName} (hname : Plain name.1.bytes)
    (now : ℚ) (reading : Reading) :
    (profileFunctionEnter profiler thread name now reading).Recorded := by
  have henter := h.enterThread thread now
  rcases profileFunctionEnter_cases profiler thread name now reading with
    heq | heq | ⟨index, next, hthread, place, profile, hfunction, heq⟩
  · rw [heq]
    exact h
  · rw [heq]
    exact henter
  · rw [hthread] at henter
    have hprofile := (henter.threads index).enterFunction hname
    rw [hfunction] at hprofile
    rw [heq]
    exact (henter.setThread index hprofile).addProfileEvent _ hname _ _ _

theorem profileFunctionExit (thread : ℕ) {name : FunctionName} (hname : Plain name.1.bytes)
    (currentTime : ℚ) (reading : Reading) :
    (profileFunctionExit profiler thread name currentTime reading).Recorded := by
  unfold Profiler.profileFunctionExit
  split_ifs
  · split
    next => exact h
    next index _ =>
      split
      next => exact h
      next place _ =>
        have hset := h.setThread index ((h.threads index).record place
          (currentTime - enterTime profiler name thread))
        exact hset.addProfileEvent _ hname _ _ _
  · exact h

theorem profileThreadStart (thread : ℕ) {name : ThreadName} (hname : Plain name.1.bytes) (now : ℚ) :
    (profileThreadStart profiler thread name now).Recorded := by
  unfold Profiler.profileThreadStart
  split_ifs
  · exact ⟨h.events, forall_update h.threads
      ⟨hname, (h.threads profiler.threadCount).functions⟩⟩
  · exact h

theorem profileThreadEnd (thread : ℕ) (now : ℚ) :
    (profileThreadEnd profiler thread now).Recorded := by
  unfold Profiler.profileThreadEnd
  split
  next => exact h
  next index _ =>
    exact h.setThread index ⟨(h.threads index).threadName, (h.threads index).functions⟩

theorem sampleSystemState (thread : ℕ) (usage : Option Reading)
    (freeram : Option (ℕ × Reading)) :
    (sampleSystemState profiler thread usage freeram).Recorded := by
  unfold Profiler.sampleSystemState
  split_ifs
  · dsimp only
    cases usage with
    | none =>
      cases freeram with
      | none => exact h
      | some sample => exact h.addProfileEvent _ (by constructor <;> decide) _ _ _
    | some reading =>
      have hstate : (Profiler.addProfileEvent profiler .sample
          ⟨⟨[115, 121, 115, 116, 101, 109, 95, 115, 116, 97, 116, 101], by decide⟩, by decide⟩
          thread 0 reading).Recorded :=
        h.addProfileEvent _ (by constructor <;> decide) _ _ _
      cases freeram with
      | none => exact hstate
      | some sample => exact hstate.addProfileEvent _ (by constructor <;> decide) _ _ _
  · exact h

end SystemProfiler.Recorded

/-- The names of a call are plain. -/
def Call.Plain : Call → Prop
  | .functionEnter _ name _ _ | .functionExit _ name _ _ => Profiler.Plain name.1.bytes
  | .threadStart _ name _ => Profiler.Plain name.1.bytes
  | .init _ _ | .start _ _ _ | .stop _ | .reset | .threadEnd _ _ | .sample _ _ _ => True

def GlobalProfiler.Recorded : GlobalProfiler → Prop
  | .present profiler => profiler.Recorded
  | .null | .fault => True

theorem SystemProfiler.Recorded.apply {profiler : SystemProfiler} (h : profiler.Recorded)
    {call : Call} (hcall : call.Plain) : (call.apply profiler).Recorded := by
  cases call with
  | init => exact h
  | start => exact ⟨h.events, h.threads⟩
  | stop => exact ⟨h.events, h.threads⟩
  | reset => exact ⟨fun _ ↦ storable_event_zero, fun _ ↦ storable_thread_zero⟩
  | functionEnter thread name now reading =>
    exact h.profileFunctionEnter thread hcall now reading
  | functionExit thread name currentTime reading =>
    exact h.profileFunctionExit thread hcall currentTime reading
  | threadStart thread name now => exact h.profileThreadStart thread hcall now
  | threadEnd thread now => exact h.profileThreadEnd thread now
  | sample thread usage freeram => exact h.sampleSystemState thread usage freeram

theorem recorded_profilerInit {profiler : GlobalProfiler} (h : profiler.Recorded)
    (allocated : Bool) (now : ℚ) : (profilerInit profiler allocated now).Recorded := by
  cases profiler with
  | null =>
    cases allocated with
    | false => trivial
    | true => exact ⟨fun _ ↦ storable_event_zero, fun _ ↦ storable_thread_zero⟩
  | present profiler => exact h
  | fault => trivial

theorem recorded_profilerStep {profiler : GlobalProfiler} (h : profiler.Recorded) {call : Call}
    (hcall : call.Plain) : (profilerStep profiler call).Recorded := by
  cases profiler with
  | null =>
    cases call with
    | init allocated now => exact recorded_profilerInit h allocated now
    | start allocated created now =>
      cases allocated with
      | false => trivial
      | true => exact ⟨fun _ ↦ storable_event_zero, fun _ ↦ storable_thread_zero⟩
    | _ => trivial
  | present profiler =>
    rw [profilerStep_present]
    exact SystemProfiler.Recorded.apply h hcall
  | fault =>
    rw [profilerStep_fault]
    trivial

/-- At any moment of a run the saved profile can be read back.  The events and the functions that
are read from the file are those of the profiler, with rounded times. -/
theorem throughout_saved {calls : List Call} (h : ∀ call ∈ calls, call.Plain) (now : ℤ) :
    Throughout profilerStep
      (fun profiler ↦ ∀ present, profiler = .present present →
        readProfile (saveProfile present now) =
          some (present.log.map ProfileEvent.rounded,
            present.savedFunctions.map SavedFunction.rounded))
      .null calls := by
  have hplain : Along profilerStep (fun _ call ↦ call.Plain) .null calls := along_of_forall h
  have hrecorded : Throughout profilerStep GlobalProfiler.Recorded .null calls :=
    throughout_of_along (fun _ _ hbefore hcall ↦ recorded_profilerStep hbefore hcall) trivial
      hplain
  intro taken htaken present hpresent
  have hprofiler := hrecorded taken htaken
  rw [hpresent] at hprofiler
  exact readProfile_saveProfile (SystemProfiler.Recorded.storable hprofiler) now

/-- A profiler that is started, and one function that is profiled for a quarter of a millisecond. -/
def profiledFunction : List Call :=
  let name : FunctionName := ⟨⟨[102], by decide⟩, by decide⟩
  [.start true 1000 1001, .functionEnter 7 name 1010 ⟨1011 + 1 / 3, some 5⟩,
    .functionExit 7 name 1261 ⟨1262, none⟩]

theorem throughout_saved_profiledFunction :
    Throughout profilerStep
      (fun profiler ↦ ∀ present, profiler = .present present →
        readProfile (saveProfile present 1700000000) =
          some (present.log.map ProfileEvent.rounded,
            present.savedFunctions.map SavedFunction.rounded))
      .null profiledFunction := by
  have hname : Plain [102] := by constructor <;> decide
  have hplain : ∀ call ∈ profiledFunction, call.Plain := by
    simp only [profiledFunction, List.forall_mem_cons, List.not_mem_nil, false_implies,
      implies_true, and_true]
    exact ⟨trivial, hname, hname⟩
  exact throughout_saved hplain 1700000000

end HiFetch.Profiler
