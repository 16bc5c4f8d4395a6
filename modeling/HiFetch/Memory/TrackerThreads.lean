import HiFetch.Library.Ownership
import HiFetch.Memory.TrackerInvariant

/-!
# The tracker in several threads

The sections of the tracked functions that hold the mutex are steps of their own, and so are
`malloc`, the writes to a block and `free`.  Between them other threads go on.

A block goes through stages: it is allocated, recorded, given to the client, who owns it until it
hands it to `tracked_free` or `tracked_realloc`, forgotten and freed.  The stages are not in the
program; they say what clients may do.  What a thread has still to do is a list of actions on
blocks of its own, so no other thread gets in its way.
-/

namespace HiFetch.Memory.Tracker

open Allocator ByteRange Transition

/-! ## The parts of a call -/

/-- What is left of a call behind its `malloc`. -/
inductive Part where
  /-- The section of `tracked_malloc`. -/
  | record (ptr size : ℕ) (site : Site)
  /-- `memset` in `tracked_calloc`. -/
  | clear (ptr bytes : ℕ)
  /-- The section of `tracked_realloc`. -/
  | copy (ptr newPtr size : ℕ)
  /-- The section of `tracked_free`. -/
  | forget (ptr : ℕ)
  | free (ptr : ℕ)
  /-- The call returns the block. -/
  | give (ptr : ℕ)

/-- The blocks that a part touches. -/
def Part.ptrs : Part → List ℕ
  | .record ptr _ _ | .clear ptr _ | .forget ptr | .free ptr | .give ptr => [ptr]
  | .copy ptr newPtr _ => [ptr, newPtr]

/-- The size that a call asks `malloc` for, and its site. -/
def TrackedCall.request : TrackedCall → Option (ℕ × Site)
  | .malloc size site | .realloc _ size site => some (size, site)
  | .calloc nmemb size site => some (nmemb * size % 2 ^ 64, site)
  | .free _ => none

/-- The block that a call takes back. -/
def TrackedCall.released : TrackedCall → Option ℕ
  | .realloc ptr _ _ | .free ptr => ptr
  | .malloc _ _ | .calloc _ _ _ => none

/-- The parts of `tracked_malloc`. -/
def mallocParts (size : ℕ) (site : Site) : List Part :=
  match site.result with
  | some ptr => [.record ptr size site, .give ptr]
  | none => []

/-- The parts of a call behind its `malloc`. -/
def TrackedCall.parts : TrackedCall → List Part
  | .malloc size site | .realloc none size site => mallocParts size site
  | .calloc nmemb size site =>
      let bytes := nmemb * size % 2 ^ 64
      match site.result with
      | some ptr => [.record ptr bytes site, .clear ptr bytes, .give ptr]
      | none => []
  | .realloc (some ptr) size site =>
      match site.result with
      | some newPtr =>
          [.record newPtr size site, .copy ptr newPtr size, .forget ptr, .free ptr, .give newPtr]
      | none => [.forget ptr, .free ptr]
  | .free (some ptr) => [.forget ptr, .free ptr]
  | .free none => []

/-! ## The stages of a block -/

/-- The entry for a block that `malloc` has given to a call. -/
def entry (ptr size : ℕ) (site : Site) : MemoryLeak :=
  { ptr, size, file := site.file, line := site.line, allocatedAt := site.now }

inductive Stage where
  | absent
  /-- Allocated, and not recorded yet. -/
  | fresh (leak : MemoryLeak)
  /-- In the hands of a call. -/
  | busy (leak : MemoryLeak)
  /-- In the hands of a client. -/
  | owned (leak : MemoryLeak)
  /-- Forgotten, and not freed yet. -/
  | leaving

/-- The block is behind its section of `tracked_malloc` and in front of that of `tracked_free`. -/
def Stage.Kept (stage : Stage) (leak : MemoryLeak) : Prop :=
  stage = .busy leak ∨ stage = .owned leak

def Stage.give : Stage → Stage
  | .busy leak => .owned leak
  | stage => stage

def Stage.take : Stage → Stage
  | .owned leak => .busy leak
  | stage => stage

def Stage.Idle : Stage → Prop
  | .absent | .owned _ => True
  | _ => False

/-- What a part needs. -/
def Part.Enabled (stage : ℕ → Stage) : Part → Prop
  | .record ptr size site => stage ptr = .fresh (entry ptr size site)
  | .clear ptr _ | .forget ptr | .give ptr => ∃ leak, stage ptr = .busy leak
  | .copy ptr newPtr _ => (∃ leak, stage ptr = .busy leak) ∧ ∃ leak, stage newPtr = .busy leak
  | .free ptr => stage ptr = .leaving

/-- What a part does to the stages. -/
def Part.advance (stage : ℕ → Stage) : Part → ℕ → Stage
  | .record ptr size site => Function.update stage ptr (.busy (entry ptr size site))
  | .clear _ _ | .copy _ _ _ => stage
  | .forget ptr => Function.update stage ptr .leaving
  | .free ptr => Function.update stage ptr .absent
  | .give ptr => Function.update stage ptr (stage ptr).give

/-- The parts as actions on blocks. -/
def blocks : Discipline ℕ Stage Part where
  footprint := Part.ptrs
  idle := Stage.Idle
  enabled := Part.Enabled
  advance := Part.advance
  enabled_congr := by
    intro first second part h
    cases part <;> simp_all [Part.Enabled, Part.ptrs]
  advance_congr := by
    intro first second part resource hresource h
    cases part <;> simp_all [Part.advance, Part.ptrs]
  advance_of_notMem := by
    intro stage part resource hresource
    cases part <;> simp_all [Part.advance, Part.ptrs]
  active := by
    intro stage part h resource hresource
    cases part with
    | record ptr size site =>
      rw [List.mem_singleton.1 hresource, show stage ptr = _ from h]
      exact id
    | free ptr =>
      rw [List.mem_singleton.1 hresource, show stage ptr = _ from h]
      exact id
    | clear ptr bytes =>
      obtain ⟨leak, hbusy⟩ := h
      rw [List.mem_singleton.1 hresource, hbusy]
      exact id
    | forget ptr =>
      obtain ⟨leak, hbusy⟩ := h
      rw [List.mem_singleton.1 hresource, hbusy]
      exact id
    | give ptr =>
      obtain ⟨leak, hbusy⟩ := h
      rw [List.mem_singleton.1 hresource, hbusy]
      exact id
    | copy ptr newPtr size =>
      obtain ⟨⟨leak, hbusy⟩, newLeak, hnew⟩ := h
      rcases List.mem_pair.1 hresource with rfl | rfl
      · rw [hbusy]
        exact id
      · rw [hnew]
        exact id

/-! ## Threads -/

/-- The tracker and the heap, what each thread has still to do, the stage of every address, and the
largest number of blocks that were live at once. -/
structure Threads where
  tracker : MemoryTracker
  live : Live
  rest : ℕ → List Part
  stage : ℕ → Stage
  mostLive : ℕ

/-- A part, as the thread does it. -/
def Part.perform (threads : Threads) : Part → Threads
  | .record ptr size site =>
      { threads with tracker := Tracker.record threads.tracker ptr size site }
  | .clear ptr bytes =>
      { threads with live := write threads.live ptr (List.replicate bytes 0) }
  | .copy ptr newPtr size =>
      { threads with
        live := (copyTracked ⟨some threads.tracker, threads.live⟩ ptr newPtr size).live }
  | .forget ptr => { threads with tracker := Tracker.forget threads.tracker ptr }
  | .free ptr => { threads with live := Allocator.free threads.live ptr }
  | .give _ => threads

/-- A block goes back from the client to a call. -/
def takeBack (stage : ℕ → Stage) : Option ℕ → ℕ → Stage
  | some ptr => Function.update stage ptr (stage ptr).take
  | none => stage

/-- The stages after a `malloc`. -/
def handOut (stage : ℕ → Stage) (size : ℕ) (site : Site) : ℕ → Stage :=
  match site.result with
  | some ptr => Function.update stage ptr (.fresh (entry ptr size site))
  | none => stage

/-- The blocks that a call takes back and gets are in its hands. -/
def TrackedCall.claim (call : TrackedCall) (stage : ℕ → Stage) : ℕ → Stage :=
  match call.request with
  | some (size, site) => handOut (takeBack stage call.released) size site
  | none => takeBack stage call.released

/-- The heap after the `malloc` of a call. -/
def TrackedCall.allocate (call : TrackedCall) (live : Live) : Live :=
  match call.request with
  | some (size, site) => Allocator.malloc live size site.contents site.result
  | none => live

inductive Move where
  | start (thread : ℕ) (call : TrackedCall)
  | resume (thread : ℕ)

/-- A thread starts a call only after its last one has returned. -/
def threadsStep (threads : Threads) : Move → Threads
  | .start thread call =>
      match threads.rest thread with
      | [] =>
          { threads with
            live := call.allocate threads.live
            rest := Function.update threads.rest thread call.parts
            stage := call.claim threads.stage
            mostLive := max threads.mostLive (call.allocate threads.live).length }
      | _ :: _ => threads
  | .resume thread =>
      match threads.rest thread with
      | [] => threads
      | part :: later =>
          { part.perform threads with
            rest := Function.update threads.rest thread later
            stage := part.advance threads.stage }

/-- `memory_tracker_init` has succeeded, and nothing is allocated. -/
def startThreads : Threads where
  tracker := { leaks := [], totalAllocated := 0, peakUsage := 0 }
  live := []
  rest := fun _ ↦ []
  stage := fun _ ↦ .absent
  mostLive := 0

/-- The client names blocks that it owns, and `malloc` keeps its contract. -/
def MoveAllowed (threads : Threads) : Move → Prop
  | .start _ call =>
      (∀ ptr ∈ call.released, ∃ leak, threads.stage ptr = .owned leak) ∧
        ∀ request ∈ call.request, ∀ address ∈ request.2.result,
          Fresh threads.live request.1 address
  | .resume _ => True

/-! ## A call that nothing interrupts -/

/-- The steps of one call. -/
def callMoves (thread : ℕ) (call : TrackedCall) : List Move :=
  .start thread call :: List.replicate call.parts.length (.resume thread)

/-- The tracker and the heap alone. -/
def Threads.world (threads : Threads) : World := ⟨some threads.tracker, threads.live⟩

/-- The copy changes the heap only. -/
theorem tracker_copyTracked (world : World) (ptr newPtr size : ℕ) :
    (copyTracked world ptr newPtr size).tracker = world.tracker := by
  unfold copyTracked
  split
  · rfl
  · split <;> rfl

/-- A call whose steps nothing interrupts is the function as it is written. -/
theorem callMoves_eq_run {threads : Threads} {thread : ℕ} (hidle : threads.rest thread = [])
    (call : TrackedCall) :
    (run threadsStep threads (callMoves thread call)).world = call.run threads.world ∧
      (run threadsStep threads (callMoves thread call)).rest = threads.rest := by
  have hback : Function.update threads.rest thread [] = threads.rest := by
    rw [← hidle, Function.update_eq_self]
  unfold callMoves
  cases call with
  | malloc size site =>
    cases hresult : site.result <;>
      simp [threadsStep, hidle, hback, TrackedCall.parts, mallocParts, hresult, Threads.world,
        TrackedCall.run, trackedMalloc, Part.perform, TrackedCall.allocate, TrackedCall.request]
  | calloc nmemb size site =>
    cases hresult : site.result <;>
      simp [threadsStep, hidle, hback, TrackedCall.parts, hresult, Threads.world,
        TrackedCall.run, trackedCalloc, trackedMalloc, Part.perform, TrackedCall.allocate,
        TrackedCall.request]
  | free ptr =>
    cases ptr <;>
      simp [threadsStep, hidle, hback, TrackedCall.parts, Threads.world,
        TrackedCall.run, trackedFree, Part.perform, TrackedCall.allocate, TrackedCall.request]
  | realloc ptr size site =>
    cases ptr with
    | none =>
      cases hresult : site.result <;>
        simp [threadsStep, hidle, hback, TrackedCall.parts, mallocParts, hresult, Threads.world,
          TrackedCall.run, trackedRealloc, trackedMalloc, Part.perform, TrackedCall.allocate,
          TrackedCall.request]
    | some ptr =>
      cases hresult : site.result with
      | none =>
        simp [threadsStep, hidle, hback, TrackedCall.parts, hresult, Threads.world,
          TrackedCall.run, trackedRealloc, trackedFree, trackedMalloc, Part.perform,
          TrackedCall.allocate, TrackedCall.request]
      | some newPtr =>
        simp [threadsStep, hidle, hback, TrackedCall.parts, hresult, Threads.world,
          TrackedCall.run, trackedRealloc, trackedFree, trackedMalloc, Part.perform,
          TrackedCall.allocate, TrackedCall.request, tracker_copyTracked]

/-! ## The lists of parts -/

section Lists

variable {stage : ℕ → Stage}

theorem completes_nil : blocks.Completes stage [] := ⟨trivial, nofun⟩

theorem completes_mallocParts {size : ℕ} {site : Site}
    (h : ∀ ptr ∈ site.result, stage ptr = .fresh (entry ptr size site)) :
    blocks.Completes stage (mallocParts size site) := by
  unfold mallocParts
  cases hresult : site.result with
  | none => exact completes_nil
  | some ptr =>
    have hptr := h ptr hresult
    constructor
    · simp [blocks, Part.Enabled, Part.advance, hptr]
    · simp [blocks, Discipline.reach, Part.ptrs, Part.advance, Stage.give, Stage.Idle]

theorem completes_calloc {ptr size : ℕ} {site : Site}
    (h : stage ptr = .fresh (entry ptr size site)) :
    blocks.Completes stage [.record ptr size site, .clear ptr size, .give ptr] := by
  constructor
  · simp [blocks, Part.Enabled, Part.advance, h]
  · simp [blocks, Discipline.reach, Part.ptrs, Part.advance, Stage.give, Stage.Idle]

theorem completes_free {ptr : ℕ} {leak : MemoryLeak} (h : stage ptr = .busy leak) :
    blocks.Completes stage [.forget ptr, .free ptr] := by
  constructor
  · simp [blocks, Part.Enabled, Part.advance, h]
  · simp [blocks, Discipline.reach, Part.ptrs, Part.advance, Stage.Idle]

theorem completes_realloc {ptr newPtr size : ℕ} {site : Site} {leak : MemoryLeak}
    (h : stage ptr = .busy leak) (hnew : stage newPtr = .fresh (entry newPtr size site))
    (hne : ptr ≠ newPtr) :
    blocks.Completes stage [.record newPtr size site, .copy ptr newPtr size, .forget ptr, .free ptr,
      .give newPtr] := by
  constructor
  · simp [blocks, Part.Enabled, Part.advance, h, hnew, hne, hne.symm]
  · simp [blocks, Discipline.reach, Part.ptrs, Part.advance, Stage.give, Stage.Idle, hne, hne.symm]

end Lists

/-! ## Starting a call -/

theorem handOut_of_notMem {stage : ℕ → Stage} {size : ℕ} {site : Site} {address : ℕ}
    (h : address ∉ site.result) : handOut stage size site address = stage address := by
  unfold handOut
  cases hresult : site.result with
  | none => rfl
  | some ptr =>
    apply Function.update_of_ne
    rintro rfl
    exact h hresult

theorem takeBack_of_notMem {stage : ℕ → Stage} {released : Option ℕ} {address : ℕ}
    (h : address ∉ released) : takeBack stage released address = stage address := by
  cases released with
  | none => rfl
  | some ptr =>
    apply Function.update_of_ne
    rintro rfl
    exact h rfl

/-- The parts of a call are about the blocks that it gets and takes back. -/
theorem mem_reach_parts_iff (call : TrackedCall) {address : ℕ} :
    address ∈ blocks.reach call.parts ↔
      (∃ request ∈ call.request, address ∈ request.2.result) ∨ address ∈ call.released := by
  unfold Discipline.reach
  cases call with
  | malloc size site =>
    cases hresult : site.result <;>
      simp [TrackedCall.parts, mallocParts, TrackedCall.request, TrackedCall.released, hresult,
        blocks, Part.ptrs, eq_comm]
  | calloc nmemb size site =>
    cases hresult : site.result <;>
      simp [TrackedCall.parts, TrackedCall.request, TrackedCall.released, hresult, blocks,
        Part.ptrs, eq_comm]
  | realloc ptr size site =>
    cases ptr with
    | none =>
      cases hresult : site.result <;>
        simp [TrackedCall.parts, mallocParts, TrackedCall.request, TrackedCall.released, hresult,
          blocks, Part.ptrs, eq_comm]
    | some ptr =>
      cases hresult : site.result with
      | none =>
        simp [TrackedCall.parts, TrackedCall.request, TrackedCall.released, hresult, blocks,
          Part.ptrs, eq_comm]
      | some newPtr =>
        simp [TrackedCall.parts, TrackedCall.request, TrackedCall.released, hresult, blocks,
          Part.ptrs, eq_comm]
        tauto
  | free ptr =>
    cases ptr <;>
      simp [TrackedCall.parts, TrackedCall.request, TrackedCall.released, blocks, Part.ptrs,
        eq_comm]

theorem claim_of_notMem (call : TrackedCall) {stage : ℕ → Stage} {address : ℕ}
    (h : address ∉ blocks.reach call.parts) : call.claim stage address = stage address := by
  rw [mem_reach_parts_iff, not_or] at h
  unfold TrackedCall.claim
  cases hrequest : call.request with
  | none => exact takeBack_of_notMem h.2
  | some request =>
    obtain ⟨size, site⟩ := request
    dsimp only
    rw [handOut_of_notMem fun hmem ↦ h.1 ⟨(size, site), hrequest, hmem⟩, takeBack_of_notMem h.2]

/-- The blocks that a call has got and taken back. -/
theorem claim_of_mem_result {call : TrackedCall} {size : ℕ} {site : Site}
    (hrequest : call.request = some (size, site)) {ptr : ℕ} (hptr : ptr ∈ site.result)
    (stage : ℕ → Stage) : call.claim stage ptr = .fresh (entry ptr size site) := by
  simp [TrackedCall.claim, hrequest, handOut, Option.mem_def.1 hptr]

theorem claim_of_mem_released {call : TrackedCall} {ptr : ℕ} (hptr : ptr ∈ call.released)
    {stage : ℕ → Stage} {leak : MemoryLeak} (howned : stage ptr = .owned leak)
    (hother : ∀ request ∈ call.request, ptr ∉ request.2.result) :
    call.claim stage ptr = .busy leak := by
  have htaken : takeBack stage call.released ptr = .busy leak := by
    simp [takeBack, Option.mem_def.1 hptr, howned, Stage.take]
  unfold TrackedCall.claim
  cases hrequest : call.request with
  | none => exact htaken
  | some request => exact (handOut_of_notMem (hother request hrequest)).trans htaken

/-- A call can do all its parts. -/
theorem completes_parts {call : TrackedCall} {stage : ℕ → Stage}
    (howned : ∀ ptr ∈ call.released, ∃ leak, stage ptr = .owned leak)
    (habsent : ∀ request ∈ call.request, ∀ address ∈ request.2.result,
      stage address = .absent) : blocks.Completes (call.claim stage) call.parts := by
  have hother : ∀ ptr ∈ call.released, ∀ request ∈ call.request, ptr ∉ request.2.result := by
    intro ptr hptr request hrequest hresult
    obtain ⟨leak, hleak⟩ := howned ptr hptr
    rw [habsent request hrequest ptr hresult] at hleak
    exact absurd hleak (by simp)
  cases call with
  | malloc size site =>
    exact completes_mallocParts fun ptr hptr ↦ claim_of_mem_result rfl hptr stage
  | calloc nmemb size site =>
    cases hresult : site.result with
    | none =>
      have hparts : (TrackedCall.calloc nmemb size site).parts = [] := by
        simp [TrackedCall.parts, hresult]
      rw [hparts]
      exact completes_nil
    | some ptr =>
      have hparts : (TrackedCall.calloc nmemb size site).parts =
          [.record ptr (nmemb * size % 2 ^ 64) site, .clear ptr (nmemb * size % 2 ^ 64),
            .give ptr] := by
        simp [TrackedCall.parts, hresult]
      rw [hparts]
      exact completes_calloc (claim_of_mem_result rfl hresult stage)
  | free ptr =>
    cases ptr with
    | none => exact completes_nil
    | some ptr =>
      obtain ⟨leak, hleak⟩ := howned ptr rfl
      exact completes_free (claim_of_mem_released rfl hleak (hother ptr rfl))
  | realloc ptr size site =>
    cases ptr with
    | none => exact completes_mallocParts fun ptr hptr ↦ claim_of_mem_result rfl hptr stage
    | some ptr =>
      obtain ⟨leak, hleak⟩ := howned ptr rfl
      have hbusy := claim_of_mem_released rfl hleak (hother ptr rfl)
      cases hresult : site.result with
      | none =>
        have hparts : (TrackedCall.realloc (some ptr) size site).parts =
            [.forget ptr, .free ptr] := by
          simp [TrackedCall.parts, hresult]
        rw [hparts]
        exact completes_free hbusy
      | some newPtr =>
        have hparts : (TrackedCall.realloc (some ptr) size site).parts =
            [.record newPtr size site, .copy ptr newPtr size, .forget ptr, .free ptr,
              .give newPtr] := by
          simp [TrackedCall.parts, hresult]
        rw [hparts]
        refine completes_realloc hbusy (claim_of_mem_result rfl hresult stage) ?_
        rintro rfl
        exact hother ptr rfl (size, site) rfl hresult

end HiFetch.Memory.Tracker
