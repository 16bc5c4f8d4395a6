import HiFetch.Library.Allocator
import HiFetch.Library.Transition

/-!
# The allocation tracker

`tracked_malloc` and its siblings record every allocation in a table of 1024 entries and add its
size to `total_allocated`.  When the table is full, an allocation is not recorded.  `tracked_free`
removes an entry by moving the last one into its place.

`leaks` holds the entries `leaks[0..count)`, so `count` is its length.  The blocks of the heap are
part of the state, with their contents, and the results of `malloc` and `time` are arguments.
-/

namespace HiFetch.Memory.Tracker

open Allocator ByteRange
open scoped List

structure MemoryLeak where
  ptr : ℕ
  size : ℕ
  file : String
  line : ℤ
  allocatedAt : ℤ
deriving DecidableEq, Repr

/-- The bytes that an entry says are allocated. -/
def MemoryLeak.range (leak : MemoryLeak) : ByteRange := ⟨leak.ptr, leak.size⟩

structure MemoryTracker where
  leaks : List MemoryLeak
  totalAllocated : ℕ
  peakUsage : ℕ
deriving DecidableEq, Repr

def maxLeaks : ℕ := 1024

/-- `global_tracker` and the live blocks of the heap. -/
structure World where
  tracker : Option MemoryTracker
  live : Live

/-- The call site and what `malloc` and `time` give to one call: the address, the contents of a
fresh block, and the clock. -/
structure Site where
  file : String
  line : ℤ
  result : Option ℕ
  contents : ℕ → UInt8
  now : ℤ

/-- `memory_tracker_init`, given whether `calloc` succeeds. -/
def memoryTrackerInit (world : World) (allocated : Bool) : World :=
  match world.tracker with
  | some _ => world
  | none =>
      if allocated then
        { world with tracker := some { leaks := [], totalAllocated := 0, peakUsage := 0 } }
      else world

/-- The entry appended to the table, when there is room. -/
def record (tracker : MemoryTracker) (ptr size : ℕ) (site : Site) : MemoryTracker :=
  if tracker.leaks.length < maxLeaks then
    let total := (tracker.totalAllocated + size) % 2 ^ 64
    { leaks := tracker.leaks ++
        [{ ptr, size, file := site.file, line := site.line, allocatedAt := site.now }]
      totalAllocated := total
      peakUsage := if tracker.peakUsage < total then total else tracker.peakUsage }
  else tracker

/-- `tracked_malloc`: the pointer and the state. -/
def trackedMalloc (world : World) (size : ℕ) (site : Site) : Option ℕ × World :=
  let live := malloc world.live size site.contents site.result
  match site.result, world.tracker with
  | some ptr, some tracker => (some ptr, { tracker := some (record tracker ptr size site), live })
  | result, tracker => (result, { tracker, live })

/-- The entry of `ptr` removed from the table, if there is one: the last entry takes its place. -/
def forget (tracker : MemoryTracker) (ptr : ℕ) : MemoryTracker :=
  match tracker.leaks.findIdx? fun leak ↦ decide (leak.ptr = ptr) with
  | none => tracker
  | some index =>
      match tracker.leaks[index]?, tracker.leaks.getLast? with
      | some leak, some last =>
          { tracker with
            leaks := (tracker.leaks.set index last).dropLast
            totalAllocated := (tracker.totalAllocated + (2 ^ 64 - leak.size)) % 2 ^ 64 }
      | _, _ => tracker

/-- `tracked_free`. -/
def trackedFree (world : World) : Option ℕ → World
  | none => world
  | some ptr =>
      { tracker := world.tracker.map (forget · ptr), live := free world.live ptr }

/-- `tracked_calloc`: the product is taken in `size_t` arithmetic. -/
def trackedCalloc (world : World) (nmemb size : ℕ) (site : Site) : Option ℕ × World :=
  let bytes := nmemb * size % 2 ^ 64
  match trackedMalloc world bytes site with
  | (none, world) => (none, world)
  | (some ptr, world) =>
      (some ptr, { world with live := write world.live ptr (List.replicate bytes 0) })

/-- The copy of `tracked_realloc`: as many bytes as the entry of `ptr` and the new size allow; none
when the table has no entry of `ptr`. -/
def copyTracked (world : World) (ptr newPtr size : ℕ) : World :=
  match world.tracker with
  | none => world
  | some tracker =>
      match tracker.leaks.find? fun leak ↦ decide (leak.ptr = ptr) with
      | none => world
      | some leak =>
          { world with
            live := write world.live newPtr
              ((read world.live ptr).take (if leak.size < size then leak.size else size)) }

/-- `tracked_realloc`. -/
def trackedRealloc (world : World) (ptr : Option ℕ) (size : ℕ) (site : Site) :
    Option ℕ × World :=
  match ptr with
  | none => trackedMalloc world size site
  | some ptr =>
      match trackedMalloc world size site with
      | (none, world) => (none, trackedFree world (some ptr))
      | (some newPtr, world) =>
          (some newPtr, trackedFree (copyTracked world ptr newPtr size) (some ptr))

inductive TrackedCall where
  | malloc (size : ℕ) (site : Site)
  | calloc (nmemb size : ℕ) (site : Site)
  | realloc (ptr : Option ℕ) (size : ℕ) (site : Site)
  | free (ptr : Option ℕ)

/-- The state after a call. -/
def TrackedCall.run (world : World) : TrackedCall → World
  | .malloc size site => (trackedMalloc world size site).2
  | .calloc nmemb size site => (trackedCalloc world nmemb size site).2
  | .realloc ptr size site => (trackedRealloc world ptr size site).2
  | .free ptr => trackedFree world ptr

/-! ## Removing an entry -/

/-- Moving the last element into the place of another one removes that other one. -/
theorem swapRemove_perm {α : Type*} {items : List α} {index : ℕ} {item last : α}
    (hitem : items[index]? = some item) (hlast : items.getLast? = some last) :
    items.Perm (item :: (items.set index last).dropLast) := by
  obtain ⟨front, rfl⟩ : ∃ front, items = front ++ [last] :=
    ⟨items.dropLast, (List.dropLast_append_getLast? last hlast).symm⟩
  rcases Nat.lt_or_ge index front.length with hlt | hge
  · rw [List.getElem?_append_left hlt] at hitem
    rw [List.set_append_left _ _ hlt, List.dropLast_concat]
    obtain ⟨_, hget⟩ := List.getElem?_eq_some_iff.1 hitem
    have hset := List.set_perm_cons_eraseIdx hlt last
    have hfront := List.getElem_cons_eraseIdx_perm hlt
    rw [hget] at hfront
    calc
      front ++ [last] ~ last :: front := List.perm_append_singleton _ _
      _ ~ last :: item :: front.eraseIdx index := hfront.symm.cons _
      _ ~ item :: last :: front.eraseIdx index := List.Perm.swap _ _ _
      _ ~ item :: front.set index last := hset.symm.cons _
  · have hindex : index = front.length := by
      have hlt := (List.getElem?_eq_some_iff.1 hitem).1
      simp only [List.length_append, List.length_singleton] at hlt
      omega
    subst hindex
    obtain rfl : last = item := by simpa using hitem
    rw [List.set_append_right _ _ le_rfl]
    simp

end HiFetch.Memory.Tracker
