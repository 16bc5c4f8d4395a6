import HiFetch.Library.Transition

/-!
# The event table without a lock

`add_profile_event` tests `event_count`, increments it and writes the event.  The calls of the
program hold `profiler_mutex` and come one after another; those of the sampling thread hold no lock.
The increment is a load and a store, so an event of one may be tested, counted or written between
any two steps of an event of the other, and `profiler_reset` may clear the count while the sampling
thread is inside.

The table has 10000 slots, and the threads follow it in memory.
-/

namespace HiFetch.Profiler.EventTable

open Transition

/-- Where a call of `add_profile_event` is. -/
inductive Stage where
  | outside
  /-- Behind the test of the count. -/
  | tested
  | loaded (count : ℕ)
  /-- The count is stored; the event is not written yet. -/
  | counted (slot : ℕ)
deriving DecidableEq

/-- The count, the call under the lock, the call of the sampling thread, and the slots that have
been written, in order. -/
structure Table where
  eventCount : ℕ
  locked : Stage
  sampling : Stage
  written : List ℕ

inductive Move where
  | locked
  | sampling
  /-- `profiler_reset`, which holds the lock. -/
  | reset

def startTable : Table := ⟨0, .outside, .outside, []⟩

/-- The next step of a call: the count, the stage and the slots written after it. -/
def advance (eventCount : ℕ) : Stage → ℕ × Stage × List ℕ
  | .outside => (eventCount, if 10000 ≤ eventCount then .outside else .tested, [])
  | .tested => (eventCount, .loaded eventCount, [])
  | .loaded count => (count + 1, .counted count, [])
  | .counted slot => (eventCount, .outside, [slot])

def tableStep (table : Table) : Move → Table
  | .locked =>
      let next := advance table.eventCount table.locked
      ⟨next.1, next.2.1, table.sampling, table.written ++ next.2.2⟩
  | .sampling =>
      let next := advance table.eventCount table.sampling
      ⟨next.1, table.locked, next.2.1, table.written ++ next.2.2⟩
  | .reset => if table.locked = .outside then { table with eventCount := 0 } else table

/-- The call has passed its test and not stored the count yet. -/
def Stage.Pending : Stage → Prop
  | .tested | .loaded _ => True
  | .outside | .counted _ => False

/-- How far the count and the slots can be.  Both calls can be pending only below the end, and then
one of them moves the count behind the test of the other; only the call under the lock can find it
moved twice, after a reset. -/
structure Bounded (table : Table) : Prop where
  eventCount_le : table.eventCount ≤ 10002
  locked : table.locked.Pending → table.eventCount ≤ 10001
  sampling : table.sampling.Pending → table.eventCount ≤ 10000
  both : table.locked.Pending → table.sampling.Pending → table.eventCount < 10000
  locked_loaded : ∀ slot, table.locked = .loaded slot →
    slot ≤ 10001 ∧ (slot < 10000 ∨ 10000 ≤ table.eventCount)
  sampling_loaded : ∀ slot, table.sampling = .loaded slot → slot ≤ 10000
  locked_counted : ∀ slot, table.locked = .counted slot → slot ≤ 10001
  sampling_counted : ∀ slot, table.sampling = .counted slot → slot ≤ 10001
  written : ∀ slot ∈ table.written, slot ≤ 10001

theorem bounded_start : Bounded startTable where
  eventCount_le := Nat.zero_le _
  locked := False.elim
  sampling := False.elim
  both := False.elim
  locked_loaded := nofun
  sampling_loaded := nofun
  locked_counted := nofun
  sampling_counted := nofun
  written := nofun

/-- A write adds the slot of a count that has been stored. -/
theorem written_append {table : Table} (h : Bounded table) {slot : ℕ} (hslot : slot ≤ 10001) :
    ∀ other ∈ table.written ++ [slot], other ≤ 10001 := by
  intro other hother
  rcases List.mem_append.1 hother with hold | hnew
  · exact h.written other hold
  · rw [List.mem_singleton.1 hnew]
    exact hslot

theorem bounded_locked {table : Table} (h : Bounded table) :
    Bounded (tableStep table .locked) := by
  cases hstage : table.locked with
  | outside =>
    by_cases hfull : 10000 ≤ table.eventCount
    · have hstep : tableStep table .locked = { table with locked := .outside } := by
        simp [tableStep, advance, hstage, hfull]
      rw [hstep]
      exact { h with
        locked := False.elim
        both := False.elim
        locked_loaded := nofun
        locked_counted := nofun }
    · have hstep : tableStep table .locked = { table with locked := .tested } := by
        simp [tableStep, advance, hstage, hfull]
      rw [hstep]
      exact { h with
        locked := fun _ ↦ by dsimp only; omega
        both := fun _ _ ↦ Nat.lt_of_not_le hfull
        locked_loaded := nofun
        locked_counted := nofun }
  | tested =>
    have hpending : table.locked.Pending := by rw [hstage]; trivial
    have hstep : tableStep table .locked = { table with locked := .loaded table.eventCount } := by
      simp [tableStep, advance, hstage]
    rw [hstep]
    exact { h with
      locked := fun _ ↦ h.locked hpending
      both := fun _ ↦ h.both hpending
      locked_loaded := by
        rintro slot ⟨⟩
        exact ⟨h.locked hpending, Nat.lt_or_ge ..⟩
      locked_counted := nofun }
  | loaded count =>
    have hpending : table.locked.Pending := by rw [hstage]; trivial
    have hstep : tableStep table .locked =
        { table with eventCount := count + 1, locked := .counted count } := by
      simp [tableStep, advance, hstage]
    obtain ⟨hle, hor⟩ := h.locked_loaded count hstage
    rw [hstep]
    exact { h with
      eventCount_le := Nat.succ_le_succ hle
      locked := False.elim
      -- the sampling thread has seen a count below the end, so this one is below it too
      sampling := fun hother ↦ by
        have hbelow := h.both hpending hother
        dsimp only
        omega
      both := False.elim
      locked_loaded := nofun
      locked_counted := by
        rintro slot ⟨⟩
        exact hle }
  | counted slot =>
    have hslot := h.locked_counted slot hstage
    have hstep : tableStep table .locked =
        { table with locked := .outside, written := table.written ++ [slot] } := by
      simp [tableStep, advance, hstage]
    rw [hstep]
    exact { h with
      locked := False.elim
      both := False.elim
      locked_loaded := nofun
      locked_counted := nofun
      written := written_append h hslot }

theorem bounded_sampling {table : Table} (h : Bounded table) :
    Bounded (tableStep table .sampling) := by
  cases hstage : table.sampling with
  | outside =>
    by_cases hfull : 10000 ≤ table.eventCount
    · have hstep : tableStep table .sampling = { table with sampling := .outside } := by
        simp [tableStep, advance, hstage, hfull]
      rw [hstep]
      exact { h with
        sampling := False.elim
        both := fun _ ↦ False.elim
        sampling_loaded := nofun
        sampling_counted := nofun }
    · have hstep : tableStep table .sampling = { table with sampling := .tested } := by
        simp [tableStep, advance, hstage, hfull]
      rw [hstep]
      exact { h with
        sampling := fun _ ↦ by dsimp only; omega
        both := fun _ _ ↦ Nat.lt_of_not_le hfull
        sampling_loaded := nofun
        sampling_counted := nofun }
  | tested =>
    have hpending : table.sampling.Pending := by rw [hstage]; trivial
    have hstep : tableStep table .sampling =
        { table with sampling := .loaded table.eventCount } := by
      simp [tableStep, advance, hstage]
    rw [hstep]
    exact { h with
      sampling := fun _ ↦ h.sampling hpending
      both := fun hother _ ↦ h.both hother hpending
      sampling_loaded := by
        rintro slot ⟨⟩
        exact h.sampling hpending
      sampling_counted := nofun }
  | loaded count =>
    have hpending : table.sampling.Pending := by rw [hstage]; trivial
    have hle := h.sampling_loaded count hstage
    have hstep : tableStep table .sampling =
        { table with eventCount := count + 1, sampling := .counted count } := by
      simp [tableStep, advance, hstage]
    rw [hstep]
    exact { h with
      eventCount_le := by dsimp only; omega
      locked := fun _ ↦ Nat.succ_le_succ hle
      sampling := False.elim
      both := fun _ ↦ False.elim
      -- the call under the lock has loaded its count before this one could reach the end
      locked_loaded := fun slot hslot ↦ by
        have hlocked : table.locked.Pending := by rw [hslot]; trivial
        have hbelow := h.both hlocked hpending
        have hor := h.locked_loaded slot hslot
        omega
      sampling_loaded := nofun
      sampling_counted := by
        rintro slot ⟨⟩
        omega }
  | counted slot =>
    have hslot := h.sampling_counted slot hstage
    have hstep : tableStep table .sampling =
        { table with sampling := .outside, written := table.written ++ [slot] } := by
      simp [tableStep, advance, hstage]
    rw [hstep]
    exact { h with
      sampling := False.elim
      both := fun _ ↦ False.elim
      sampling_loaded := nofun
      sampling_counted := nofun
      written := written_append h hslot }

/-- A reset while the sampling thread is inside: the call under the lock is not. -/
theorem bounded_reset {table : Table} (h : Bounded table) : Bounded (tableStep table .reset) := by
  unfold tableStep
  split_ifs with houtside
  · exact { h with
      eventCount_le := Nat.zero_le _
      locked := fun _ ↦ Nat.zero_le _
      sampling := fun _ ↦ Nat.zero_le _
      both := fun _ _ ↦ show 0 < 10000 by decide
      locked_loaded := fun slot hslot ↦ by
        rw [houtside] at hslot
        cases hslot }
  · exact h

/-- However the calls interleave, at most two slots behind the table are written.  The count never
passes 10002 and no event is written behind slot 10001. -/
theorem throughout_bounded (moves : List Move) :
    Throughout tableStep
      (fun table ↦ table.eventCount ≤ 10002 ∧ ∀ slot ∈ table.written, slot ≤ 10001)
      startTable moves := by
  have hbounded : Throughout tableStep Bounded startTable moves := by
    refine throughout_of_step (fun table move h ↦ ?_) moves bounded_start
    cases move with
    | locked => exact bounded_locked h
    | sampling => exact bounded_sampling h
    | reset => exact bounded_reset h
  intro taken htaken
  have h := hbounded taken htaken
  exact ⟨h.eventCount_le, h.written⟩

end HiFetch.Profiler.EventTable
