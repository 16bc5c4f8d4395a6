import HiFetch.Profiler.Lifecycle

/-!
# Waiting for the sampling thread

`profiler_stop` clears the flag and waits for the thread to return.  Every step of the thread
brings it nearer to its test of the flag, so the wait ends after a bounded number of them, whatever
the other moves are.
-/

namespace HiFetch.Profiler.Lifecycle

open Transition

theorem remaining_le (sampler : Sampler) : sampler.remaining ≤ 9 := by
  unfold Sampler.remaining
  split <;> decide

theorem remaining_pos (position : Sampling) : 0 < (Sampler.running position).remaining := by
  unfold Sampler.remaining
  split <;> simp_all

def Action.isSampleOf (thread : ℕ) : Action → Bool
  | .sample other _ => other == thread
  | _ => false

/-- What the program finds behind a join. -/
def Joined (cleaning : Bool) (system : System) : Prop :=
  system.position = (if cleaning then .free else .idle) ∧ system.Quiet

theorem joined_of_returned {system : System} (h : Sound system) {cleaning : Bool} {thread : ℕ}
    (hjoin : system.position = .join cleaning) (hreturned : system.samplers thread = .returned)
    (succeeds : Bool) : Joined cleaning (systemStep system (.next succeeds)) := by
  have hpresent : system.samplers thread ≠ .absent := by rw [hreturned]; exact nofun
  obtain ⟨block, -, -, hhandle, -, hothers⟩ := System.present_spec h hpresent
  have hnext : systemStep system (.next succeeds) =
      (system.setSampler thread .absent).afterStop cleaning := by
    simp only [systemStep, h.fault_eq, Option.isSome_none, Bool.false_eq_true, if_false,
      System.next, hjoin, System.join, hhandle, hreturned]
  rw [hnext]
  constructor
  · cases cleaning <;> rfl
  · intro other
    show Function.update system.samplers thread .absent other = .absent
    by_cases hother : other = thread
    · rw [hother, Function.update_self]
    · rw [Function.update_of_ne hother]
      exact hothers other hother

/-- A step while the program waits: the wait ends, or it goes on with less to do. -/
theorem waiting_step {system : System} (h : Sound system) {cleaning : Bool} {thread : ℕ}
    (hjoin : system.position = .join cleaning) (hpresent : system.samplers thread ≠ .absent)
    (action : Action) :
    Joined cleaning (systemStep system action) ∨
      Sound (systemStep system action) ∧ (systemStep system action).position = .join cleaning ∧
        (systemStep system action).samplers thread ≠ .absent ∧
        ((systemStep system action).samplers thread).remaining ≤
          (system.samplers thread).remaining - if action.isSampleOf thread then 1 else 0 := by
  have hwait : Sound system ∧ system.position = .join cleaning ∧
      system.samplers thread ≠ .absent ∧ (system.samplers thread).remaining ≤
        (system.samplers thread).remaining := ⟨h, hjoin, hpresent, Nat.le_refl _⟩
  obtain ⟨block, hprofiler, -, hhandle, -, hothers⟩ := System.present_spec h hpresent
  have hrunning : system.running = false := by
    have hthreads := h.threads
    rw [hjoin] at hthreads
    exact hthreads.1
  cases action with
  | call function =>
    have hstep : systemStep system (.call function) = system := by
      simp [systemStep, h.fault_eq, hjoin]
    rw [hstep]
    exact .inr hwait
  | next succeeds =>
    cases hsampler : system.samplers thread with
    | absent => exact absurd hsampler hpresent
    | returned => exact .inl (joined_of_returned h hjoin hsampler succeeds)
    | running position =>
      have hstep : systemStep system (.next succeeds) = system := by
        simp [systemStep, h.fault_eq, System.next, hjoin, System.join, hhandle, hsampler]
      rw [hstep, ← hsampler]
      exact .inr hwait
  | sample other succeeds =>
    have hstep : systemStep system (.sample other succeeds) = system.sample other succeeds := by
      simp [systemStep, h.fault_eq]
    rw [hstep]
    by_cases hother : other = thread
    · subst hother
      cases hsampler : system.samplers other with
      | absent => exact absurd hsampler hpresent
      | returned =>
        have hsame : system.sample other succeeds = system := by
          simp only [System.sample, hsampler]
        rw [hsame, hsampler]
        exact .inr ⟨h, hjoin, by simp, Nat.zero_le _⟩
      | running position =>
        obtain ⟨sampler, heq, hexists, hless⟩ := System.sample_spec h hsampler succeeds
        have hlater : (system.setSampler other sampler).samplers other = sampler :=
          Function.update_self ..
        refine .inr ⟨System.sound_sample h other succeeds, ?_⟩
        rw [heq, hlater]
        refine ⟨hjoin, fun habsent ↦ ?_, ?_⟩
        · rw [habsent] at hexists
          exact hexists block hprofiler
        · simp only [Action.isSampleOf, beq_self_eq_true, if_true]
          exact Nat.le_sub_one_of_lt (hless hrunning)
    · have hsame : system.sample other succeeds = system := by
        simp only [System.sample, hothers other hother]
      rw [hsame]
      simpa [Action.isSampleOf, hother] using Or.inr hwait

/-- `profiler_stop` and `profiler_cleanup` do not wait forever.  Once the program waits for the
sampling thread, nine steps of that thread are enough, whatever else happens between them, and the
join leaves no thread behind. -/
theorem join_returns (actions : List Action)
    (hsupported : Along systemStep Supported startSystem actions) {cleaning : Bool} {thread : ℕ}
    (hjoin : (run systemStep startSystem actions).position = .join cleaning)
    (hpresent : (run systemStep startSystem actions).samplers thread ≠ .absent)
    (later : List Action) (hlater : 9 ≤ later.countP (Action.isSampleOf thread))
    (succeeds : Bool) :
    ∃ taken, taken <+: later ++ [.next succeeds] ∧
      Joined cleaning (run systemStep startSystem (actions ++ taken)) := by
  have hsound : Sound (run systemStep startSystem actions) :=
    (throughout_of_along (fun _ _ h hsupported ↦ sound_step h hsupported) sound_start
      hsupported).last
  simp only [run_append]
  generalize run systemStep startSystem actions = system at hjoin hpresent hsound
  have hcount := Nat.le_trans (remaining_le (system.samplers thread)) hlater
  clear hlater
  induction later generalizing system with
  | nil =>
    cases hsampler : system.samplers thread with
    | absent => exact absurd hsampler hpresent
    | returned =>
      exact ⟨[.next succeeds], List.prefix_rfl, joined_of_returned hsound hjoin hsampler succeeds⟩
    | running position =>
      rw [hsampler] at hcount
      exact absurd hcount (Nat.not_le_of_lt (remaining_pos position))
  | cons action later ih =>
    rcases waiting_step hsound hjoin hpresent action with hjoined |
      ⟨hnext, hposition, hthere, hless⟩
    · exact ⟨[action], by simp, hjoined⟩
    · have hfewer : ((systemStep system action).samplers thread).remaining ≤
          later.countP (Action.isSampleOf thread) := by
        rw [List.countP_cons] at hcount
        omega
      obtain ⟨taken, hprefix, hjoined⟩ := ih _ hposition hthere hnext hfewer
      exact ⟨action :: taken, (List.prefix_cons_inj action).2 hprefix, hjoined⟩

/-- A profiler that is started and stopped; its thread has not moved yet. -/
def startAndStop : List Action :=
  [.call .start, .next true, .next true, .next true, .next true, .next true, .call .stop,
    .next true, .next true]

theorem join_returns_startAndStop :
    ∃ taken, taken <+: List.replicate 9 (.sample 0 true) ++ [.next true] ∧
      Joined false (run systemStep startSystem (startAndStop ++ taken)) :=
  join_returns startAndStop
    ⟨trivial, trivial, trivial, rfl, trivial, trivial, trivial, trivial, trivial, trivial⟩
    rfl (show (run systemStep startSystem startAndStop).samplers 0 ≠ .absent by decide) _
    (by decide) true

end HiFetch.Profiler.Lifecycle
