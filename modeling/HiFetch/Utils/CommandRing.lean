import HiFetch.Library.Transition
import Mathlib.Logic.Function.Basic

/-!
# The ring of command buffers

`execute_cmd_fast` collects the output of a command in one of 256 buffers that all threads share.
`optimize_memory_pools` allocates them once: a flag is tested before the lock is taken and again
under it.  The slots are taken in turn, under the same lock, but a call writes to its buffer after
it has given the lock back, and for as long as its command runs.

A system is the shared variables and a position for every thread; each step of a thread is one
move.  The take with number `n` obtains slot `n % 256`, which is the reason why two calls use one
buffer only if their takes are at least 256 takes apart.
-/

namespace HiFetch.Utils

open Transition

/-- Where `optimize_memory_pools` has been called. -/
inductive Caller where
  | environment
  | executeCmdFast
deriving DecidableEq

/-- Where a thread is: before the named step, or outside both functions. -/
inductive Position where
  | idle
  /-- The flag load of `execute_cmd_fast`. -/
  | executeLoad
  /-- The flag load of `optimize_memory_pools`. -/
  | load (caller : Caller)
  | lock (caller : Caller)
  | recheck (caller : Caller)
  /-- The loop that fills the slots, before `slot`. -/
  | fill (caller : Caller) (slot : ℕ)
  | store (caller : Caller)
  | unlock (caller : Caller)
  | takeLock
  | take
  /-- The call has obtained a buffer in the take with this number; NULL is `none`. -/
  | takeUnlock (number : ℕ) (buffer : Option ℕ)
  /-- The command runs, and its output goes to the buffer. -/
  | running (number : ℕ) (buffer : Option ℕ)
deriving DecidableEq

/-- What a call has returned: the number of its take, and the buffer. -/
structure Result where
  number : ℕ
  buffer : Option ℕ
deriving DecidableEq

/-- The shared variables, the contents of the buffers (`none` is the static fallback buffer) and
the positions of the threads.  Buffers are named in the order in which they are allocated.  The
last three fields record what has been done: the slots filled, the slots taken, and the results
returned. -/
structure System where
  poolInitialized : Bool
  cmdBufferPool : ℕ → Option ℕ
  poolIndex : ℕ
  poolMutex : Option ℕ
  allocations : ℕ
  contents : Option ℕ → List UInt8
  position : ℕ → Position
  filled : List ℕ
  taken : List ℕ
  results : List Result

inductive Action where
  | optimizeMemoryPools
  | executeCmdFast
  /-- The next step of the code; a slot that is filled then gets a buffer if `allocated`. -/
  | next (allocated : Bool)
  /-- Output of the command arrives, the text is trimmed, or the fallback buffer is cleared. -/
  | write (bytes : List UInt8)
  /-- The call returns its buffer, or NULL. -/
  | finish (succeeds : Bool)

structure Move where
  thread : ℕ
  action : Action

def startSystem : System where
  poolInitialized := false
  cmdBufferPool := fun _ ↦ none
  poolIndex := 0
  poolMutex := none
  allocations := 0
  contents := fun _ ↦ []
  position := fun _ ↦ .idle
  filled := []
  taken := []
  results := []

/-- The thread is now at another position. -/
def System.at (system : System) (thread : ℕ) (position : Position) : System :=
  { system with position := Function.update system.position thread position }

/-- Where a thread goes when `optimize_memory_pools` returns. -/
def Caller.after : Caller → Position
  | .environment => .idle
  | .executeCmdFast => .takeLock

/-- `pthread_mutex_lock`, which waits while another thread has the lock. -/
def System.acquire (system : System) (thread : ℕ) (position : Position) : System :=
  match system.poolMutex with
  | some _ => system
  | none => { system with poolMutex := some thread }.at thread position

def System.release (system : System) (thread : ℕ) (position : Position) : System :=
  { system with poolMutex := none }.at thread position

/-- One slot of the fill loop. -/
def System.fillSlot (system : System) (slot : ℕ) (allocated : Bool) : System :=
  { system with
    cmdBufferPool := Function.update system.cmdBufferPool slot
      (if allocated then some system.allocations else none)
    allocations := system.allocations + 1
    filled := system.filled ++ [slot] }

/-- The two statements that take a slot. -/
def System.takeSlot (system : System) : System :=
  { system with
    poolIndex := (system.poolIndex + 1) % 256
    taken := system.taken ++ [system.poolIndex % 256] }

/-- The next step of a thread, or no step where the action is not the next one. -/
def systemStep (system : System) (move : Move) : System :=
  match system.position move.thread, move.action with
  | .idle, .optimizeMemoryPools => system.at move.thread (.load .environment)
  | .idle, .executeCmdFast => system.at move.thread .executeLoad
  | .executeLoad, .next _ =>
      if system.poolInitialized then system.at move.thread .takeLock
      else system.at move.thread (.load .executeCmdFast)
  | .load caller, .next _ =>
      if system.poolInitialized then system.at move.thread caller.after
      else system.at move.thread (.lock caller)
  | .lock caller, .next _ => system.acquire move.thread (.recheck caller)
  | .recheck caller, .next _ =>
      if system.poolInitialized then system.at move.thread (.unlock caller)
      else system.at move.thread (.fill caller 0)
  | .fill caller slot, .next allocated =>
      if slot < 256 then (system.fillSlot slot allocated).at move.thread (.fill caller (slot + 1))
      else system.at move.thread (.store caller)
  | .store caller, .next _ =>
      { system with poolInitialized := true }.at move.thread (.unlock caller)
  | .unlock caller, .next _ => system.release move.thread caller.after
  | .takeLock, .next _ => system.acquire move.thread .take
  | .take, .next _ =>
      system.takeSlot.at move.thread
        (.takeUnlock system.taken.length (system.cmdBufferPool (system.poolIndex % 256)))
  | .takeUnlock number buffer, .next _ => system.release move.thread (.running number buffer)
  | .running _ buffer, .write bytes =>
      { system with contents := Function.update system.contents buffer bytes }
  | .running number buffer, .finish succeeds =>
      { system with
        results := if succeeds then ⟨number, buffer⟩ :: system.results else system.results }.at
          move.thread .idle
  | _, _ => system

/-! ## The laws -/

/-- What the ring promises in every state. -/
structure RingLaw (system : System) : Prop where
  filledOnce : system.filled.Nodup
  filledBefore : ∀ thread, system.position thread = .take → ∀ slot < 256, slot ∈ system.filled
  index_lt : system.poolIndex < 256
  distinct : ∀ start, start + 256 ≤ system.taken.length →
    ((system.taken.drop start).take 256).Nodup

/-- The call that took number `number` writes to the buffer. -/
def Writes (system : System) (move : Move) (number : ℕ) (buffer : Option ℕ) : Prop :=
  system.position move.thread = .running number buffer ∧ ∃ bytes, move.action = .write bytes

/-- Every slot was allocated. -/
def Allocated (system : System) : Prop := ∀ slot < 256, system.cmdBufferPool slot ≠ none

/-- Nobody writes to a result before the 256th later take. -/
def Undisturbed (system : System) (move : Move) : Prop :=
  Allocated system → ∀ result ∈ system.results, ∀ number,
    Writes system move number result.buffer → result.number + 256 < system.taken.length

/-- Nobody writes to a result before the 256th later take, except a call that took the slot at
least 256 takes before the result's call. -/
def UndisturbedByLater (system : System) (move : Move) : Prop :=
  Allocated system → ∀ result ∈ system.results, ∀ number,
    Writes system move number result.buffer →
      number + 256 ≤ result.number ∨ result.number + 256 < system.taken.length

end HiFetch.Utils
