import HiFetch.Memory.LockDiscipline
import HiFetch.Memory.TrackerInvariant

/-!
# The contract of `tracked_realloc`

`tracked_realloc` allocates a new block, copies what the table says of the old one, and frees the
old block in any case.  So it loses the old block when `malloc` fails, and it loses its bytes when
the table has no entry of it: without a tracker, or for a block that went unrecorded.

Which tables there are is an invariant of the tracker, whenever it is started or stopped: its
entries are distinct live blocks with their sizes.
-/

namespace HiFetch.Memory.Tracker

open Allocator ByteRange Transition
open LockDiscipline (lockTrace)

/-! ## Tables of the tracker -/

/-- The live blocks satisfy the contract of the allocator, and the table of the tracker, if there is
one, has distinct live blocks with their sizes. -/
structure World.WellTracked (world : World) : Prop where
  valid : Valid world.live
  tracks : ∀ tracker ∈ world.tracker, Tracks tracker world.live

/-- `memory_tracker_cleanup`. -/
def memoryTrackerCleanup (world : World) : World := { world with tracker := none }

/-- What a program does with the tracker. -/
inductive TrackerUse where
  | init (allocated : Bool)
  | cleanup
  | call (call : TrackedCall)

def useTracker (world : World) : TrackerUse → World
  | .init allocated => memoryTrackerInit world allocated
  | .cleanup => memoryTrackerCleanup world
  | .call call => call.run world

/-- The allocator keeps its contract. -/
def KeepsContract (world : World) : TrackerUse → Prop
  | .call (.malloc size site) => ∀ address ∈ site.result, Fresh world.live size address
  | .call (.calloc nmemb size site) =>
      ∀ address ∈ site.result, Fresh world.live (nmemb * size % 2 ^ 64) address
  | .call (.realloc _ size site) => ∀ address ∈ site.result, Fresh world.live size address
  | _ => True

namespace World.WellTracked

variable {world : World}

theorem malloc (h : world.WellTracked) {size : ℕ} {site : Site}
    (hfresh : ∀ address ∈ site.result, Fresh world.live size address) :
    (trackedMalloc world size site).2.WellTracked := by
  have hvalid := h.valid.malloc size site.contents hfresh
  unfold trackedMalloc
  cases hresult : site.result with
  | none => exact ⟨h.valid, h.tracks⟩
  | some ptr =>
    rw [hresult] at hvalid
    cases htracker : world.tracker with
    | none => exact ⟨hvalid, by simp⟩
    | some tracker =>
      refine ⟨hvalid, ?_⟩
      rintro tracker' ⟨⟩
      have hrecord := (h.tracks tracker htracker).record h.valid hresult (hfresh ptr hresult)
      rwa [hresult] at hrecord

theorem write (h : world.WellTracked) (address : ℕ) (data : List UInt8) :
    World.WellTracked { world with live := write world.live address data } :=
  ⟨h.valid.write address data,
    fun tracker htracker ↦ (h.tracks tracker htracker).write address data⟩

theorem copyTracked (h : world.WellTracked) (ptr newPtr size : ℕ) :
    (copyTracked world ptr newPtr size).WellTracked := by
  unfold Tracker.copyTracked
  split
  · exact h
  · split
    · exact h
    · exact h.write newPtr _

theorem free (h : world.WellTracked) (ptr : Option ℕ) : (trackedFree world ptr).WellTracked := by
  cases ptr with
  | none => exact h
  | some ptr =>
    refine ⟨h.valid.free ptr, ?_⟩
    intro tracker' htracker'
    obtain ⟨tracker, htracker, rfl⟩ := Option.map_eq_some_iff.1 htracker'
    exact (h.tracks tracker htracker).forget h.valid ptr

end World.WellTracked

/-- Every use of the tracker keeps its table right. -/
theorem wellTracked_step {world : World} (h : world.WellTracked) {use : TrackerUse}
    (hcontract : KeepsContract world use) : (useTracker world use).WellTracked := by
  cases use with
  | init allocated =>
    unfold useTracker memoryTrackerInit
    cases htracker : world.tracker with
    | some tracker => exact h
    | none =>
      cases allocated with
      | false => exact h
      | true =>
        refine ⟨h.valid, ?_⟩
        rintro tracker ⟨⟩
        exact ⟨by simp, by simp, by simp, rfl⟩
  | cleanup => exact ⟨h.valid, by simp [useTracker, memoryTrackerCleanup]⟩
  | call call =>
    cases call with
    | malloc size site => exact h.malloc hcontract
    | free ptr => exact h.free ptr
    | calloc nmemb size site =>
      have hmalloc := h.malloc hcontract
      simp only [useTracker, TrackedCall.run, trackedCalloc]
      cases hresult : trackedMalloc world (nmemb * size % 2 ^ 64) site with
      | mk result after =>
        rw [hresult] at hmalloc
        cases result with
        | none => exact hmalloc
        | some ptr => exact hmalloc.write ptr _
    | realloc ptr size site =>
      have hmalloc := h.malloc hcontract
      simp only [useTracker, TrackedCall.run, trackedRealloc]
      cases ptr with
      | none => exact hmalloc
      | some ptr =>
        cases hresult : trackedMalloc world size site with
        | mk result after =>
          rw [hresult] at hmalloc
          cases result with
          | none => exact hmalloc.free (some ptr)
          | some newPtr => exact (hmalloc.copyTracked ptr newPtr size).free (some ptr)

/-- The program starts without a tracker and without blocks. -/
def startWorld : World where
  tracker := none
  live := []

/-- Whenever the tracker is started or stopped, its table is right in every state of a run. -/
theorem wellTracked_throughout {uses : List TrackerUse}
    (hcontract : Along useTracker KeepsContract startWorld uses) :
    Throughout useTracker World.WellTracked startWorld uses :=
  throughout_of_along (fun _ _ h hkeeps ↦ wellTracked_step h hkeeps)
    ⟨valid_nil, by simp [startWorld]⟩ hcontract

/-! ## The contract -/

/-- The table has an entry of the pointer. -/
def Tracked (world : World) (ptr : ℕ) : Prop :=
  ∃ tracker ∈ world.tracker, ∃ leak ∈ tracker.leaks, leak.ptr = ptr

/-- The entries of a pointer. -/
def entriesOf (world : World) (ptr : ℕ) : List MemoryLeak :=
  (world.tracker.elim [] MemoryTracker.leaks).filter fun leak ↦ decide (leak.ptr = ptr)

/-- `tracked_realloc` passes the pointer to `free` once. -/
def FreesOnce (world : World) (ptr size : ℕ) (site : Site) : Prop :=
  ∃ trace, lockTrace ⟨none, none, world⟩ (.trackedRealloc (some ptr) size site) = some trace ∧
    trace.count (.act (.free ptr)) = 1

/-- The contract of `realloc` for a live pointer. -/
structure HonoursRealloc (world : World) (ptr size : ℕ) (site : Site) : Prop where
  /-- A new block starts with the bytes that both blocks have room for. -/
  moved : ∀ newPtr, (trackedRealloc world (some ptr) size site).1 = some newPtr →
    (read (trackedRealloc world (some ptr) size site).2.live newPtr).take
        (min (read world.live ptr).length size) =
      (read world.live ptr).take (min (read world.live ptr).length size) ∧
    FreesOnce world ptr size site
  /-- Without a new block, the old one is still there. -/
  kept : (trackedRealloc world (some ptr) size site).1 = none →
    ptr ∈ (trackedRealloc world (some ptr) size site).2.live.map Block.address ∧
    read (trackedRealloc world (some ptr) size site).2.live ptr = read world.live ptr ∧
    entriesOf (trackedRealloc world (some ptr) size site).2 ptr = entriesOf world ptr

/-- `malloc` succeeds, and the table has an entry of the pointer, unless the fresh block happens to
start with the bytes of the old one. -/
def CanMove (world : World) (ptr size : ℕ) (site : Site) : Prop :=
  site.result ≠ none ∧ (Tracked world ptr ∨
    ((List.range size).map site.contents).take (min (read world.live ptr).length size) =
      (read world.live ptr).take (min (read world.live ptr).length size))

theorem freesOnce (world : World) (ptr size : ℕ) (site : Site) : FreesOnce world ptr size site := by
  have hruns : LockTrace.Traced.Runs (LockDiscipline.trackedRealloc (some ptr) size site)
      ⟨none, none, world⟩ none (trackedRealloc world (some ptr) size site).1
      ⟨none, none, (trackedRealloc world (some ptr) size site).2⟩ none [.free ptr] :=
    LockDiscipline.runs_trackedRealloc (some ptr) size site
  obtain ⟨trace, hrun, -, hactions⟩ := hruns
  refine ⟨trace, by simp [lockTrace, hrun], ?_⟩
  rw [LockTrace.count_act, hactions, List.count_singleton_self]

/-! ## What the call does -/

section Call

variable {world : World} {ptr newPtr size : ℕ} {site : Site}

theorem trackedMalloc_of_some (hresult : site.result = some newPtr) :
    trackedMalloc world size site =
      (some newPtr,
        { tracker := world.tracker.map fun tracker ↦ record tracker newPtr size site
          live := malloc world.live size site.contents (some newPtr) }) := by
  unfold trackedMalloc
  rw [hresult]
  cases world.tracker <;> rfl

theorem find?_record (hne : newPtr ≠ ptr) (tracker : MemoryTracker) :
    ((record tracker newPtr size site).leaks.find? fun leak ↦ decide (leak.ptr = ptr)) =
      tracker.leaks.find? fun leak ↦ decide (leak.ptr = ptr) := by
  unfold record
  split_ifs
  · rw [List.find?_append]
    simp [hne]
  · rfl

/-- The old block is read before the new one is written. -/
theorem trackedRealloc_of_some (hresult : site.result = some newPtr) (hne : newPtr ≠ ptr) :
    (trackedRealloc world (some ptr) size site).1 = some newPtr ∧
      read (trackedRealloc world (some ptr) size site).2.live newPtr =
        match world.tracker.bind fun tracker ↦
          tracker.leaks.find? fun leak ↦ decide (leak.ptr = ptr) with
        | none => (List.range size).map site.contents
        | some leak => overwrite ((List.range size).map site.contents)
            ((read world.live ptr).take (min leak.size size)) := by
  unfold trackedRealloc
  rw [trackedMalloc_of_some hresult]
  refine ⟨rfl, ?_⟩
  dsimp only [trackedFree]
  rw [read_free_of_ne hne.symm]
  unfold copyTracked
  cases htracker : world.tracker with
  | none => exact read_malloc_self _ _ _ _
  | some tracker =>
    dsimp only [Option.map_some, Option.bind_some]
    rw [find?_record hne]
    cases hfind : tracker.leaks.find? fun leak ↦ decide (leak.ptr = ptr) with
    | none => exact read_malloc_self _ _ _ _
    | some leak =>
      dsimp only
      have hmin : (if leak.size < size then leak.size else size) = min leak.size size := by
        split_ifs with hless
        · exact (min_eq_left hless.le).symm
        · exact (min_eq_right (not_lt.1 hless)).symm
      rw [read_write_self, read_malloc_self, read_malloc_of_ne hne, hmin]

/-- The size in an entry is that of the block. -/
theorem World.WellTracked.size_eq (h : world.WellTracked) {tracker : MemoryTracker}
    (htracker : world.tracker = some tracker) {leak : MemoryLeak} (hleak : leak ∈ tracker.leaks) :
    leak.size = (read world.live leak.ptr).length := by
  obtain ⟨block, hblock, hrange⟩ := List.mem_map.1 ((h.tracks tracker htracker).live leak hleak)
  have haddress : block.address = leak.ptr := congrArg ByteRange.start hrange
  rw [← haddress, h.valid.read_eq hblock]
  exact (congrArg ByteRange.length hrange).symm

/-- A tracked block is copied as far as both blocks have room. -/
theorem take_read_of_tracked (h : world.WellTracked) (hresult : site.result = some newPtr)
    (hne : newPtr ≠ ptr) (htracked : Tracked world ptr) :
    (read (trackedRealloc world (some ptr) size site).2.live newPtr).take
        (min (read world.live ptr).length size) =
      (read world.live ptr).take (min (read world.live ptr).length size) := by
  obtain ⟨tracker, htracker, entry, hentry, hptr⟩ := htracked
  rw [(trackedRealloc_of_some hresult hne).2, htracker]
  dsimp only [Option.bind_some]
  cases hfind : tracker.leaks.find? fun leak ↦ decide (leak.ptr = ptr) with
  | none => exact absurd hptr (by simpa using List.find?_eq_none.1 hfind entry hentry)
  | some leak =>
    have hleak : leak.ptr = ptr := by simpa using List.find?_some hfind
    have hsize := h.size_eq htracker (List.mem_of_find?_eq_some hfind)
    rw [hleak] at hsize
    have hlength : ((read world.live ptr).take
        (min (read world.live ptr).length size)).length =
          min (read world.live ptr).length size := by simp
    have hroom : ((read world.live ptr).take (min (read world.live ptr).length size)).length ≤
        ((List.range size).map site.contents).length := by simp
    have htake := take_overwrite hroom
    rw [hlength] at htake
    dsimp only
    rw [hsize]
    exact htake

theorem read_of_not_tracked (hresult : site.result = some newPtr) (hne : newPtr ≠ ptr)
    (hnot : ¬Tracked world ptr) :
    read (trackedRealloc world (some ptr) size site).2.live newPtr =
      (List.range size).map site.contents := by
  have hnone : (world.tracker.bind fun tracker ↦
      tracker.leaks.find? fun leak ↦ decide (leak.ptr = ptr)) = none := by
    rw [Option.bind_eq_none_iff]
    intro tracker htracker
    rw [List.find?_eq_none]
    intro leak hleak
    simpa using fun heq ↦ hnot ⟨tracker, htracker, leak, hleak, heq⟩
  rw [(trackedRealloc_of_some hresult hne).2, hnone]

/-- The old block is freed although there is no new one. -/
theorem notMem_of_none (hresult : site.result = none) :
    (trackedRealloc world (some ptr) size site).1 = none ∧
      ptr ∉ (trackedRealloc world (some ptr) size site).2.live.map Block.address := by
  have hmalloc : trackedMalloc world size site = (none, world) := by
    simp [trackedMalloc, hresult, malloc]
  unfold trackedRealloc
  rw [hmalloc]
  exact ⟨rfl, notMem_free _ _⟩

end Call

/-- For a live pointer `tracked_realloc` honours the contract exactly when `malloc` succeeds and the
table has an entry of the pointer, unless the fresh block happens to start with the bytes of the old
one. -/
theorem honoursRealloc_iff {world : World} (h : world.WellTracked) {ptr size : ℕ} {site : Site}
    (hptr : ptr ∈ world.live.map Block.address)
    (hfresh : ∀ address ∈ site.result, Fresh world.live size address) :
    HonoursRealloc world ptr size site ↔ CanMove world ptr size site := by
  cases hresult : site.result with
  | none =>
    apply iff_of_false
    · intro hhonours
      obtain ⟨hnull, hgone⟩ := notMem_of_none hresult
      exact hgone (hhonours.kept hnull).1
    · exact fun hmove ↦ hmove.1 hresult
  | some newPtr =>
    have hne : newPtr ≠ ptr := by
      obtain ⟨block, hblock, rfl⟩ := List.mem_map.1 hptr
      exact ((hfresh newPtr hresult).2 block hblock).1.symm
    have hreturned : (trackedRealloc world (some ptr) size site).1 = some newPtr :=
      (trackedRealloc_of_some hresult hne).1
    have hmoved : HonoursRealloc world ptr size site ↔
        (read (trackedRealloc world (some ptr) size site).2.live newPtr).take
            (min (read world.live ptr).length size) =
          (read world.live ptr).take (min (read world.live ptr).length size) := by
      constructor
      · exact fun hhonours ↦ (hhonours.moved newPtr hreturned).1
      · intro htake
        constructor
        · intro other hother
          obtain rfl := Option.some.inj (hreturned.symm.trans hother)
          exact ⟨htake, freesOnce world ptr size site⟩
        · intro hnone
          rw [hreturned] at hnone
          cases hnone
    rw [hmoved]
    unfold CanMove
    rw [hresult]
    by_cases htracked : Tracked world ptr
    · exact iff_of_true (take_read_of_tracked h hresult hne htracked) ⟨by simp, .inl htracked⟩
    · rw [read_of_not_tracked hresult hne htracked]
      simp [htracked]

/-- Four bytes that the tracker has recorded. -/
def exampleWorld : World :=
  (trackedMalloc (memoryTrackerInit startWorld true) 4 (siteAt 4096)).2

theorem wellTracked_exampleWorld : exampleWorld.WellTracked := by
  have hstart : startWorld.WellTracked := ⟨valid_nil, by simp [startWorld]⟩
  have hinit : (useTracker startWorld (.init true)).WellTracked := wellTracked_step hstart trivial
  apply hinit.malloc
  rintro address ⟨⟩
  exact ⟨by decide, by simp [useTracker, memoryTrackerInit, startWorld]⟩

theorem honoursRealloc_iff_example :
    HonoursRealloc exampleWorld 4096 8 (siteAt 8192) ↔
      CanMove exampleWorld 4096 8 (siteAt 8192) := by
  apply honoursRealloc_iff wellTracked_exampleWorld
  · decide
  · rintro address ⟨⟩
    refine ⟨by decide, ?_⟩
    rintro block (_ | ⟨_, ⟨⟩⟩)
    exact ⟨by decide, (apart_of_le (by decide)).symm⟩

/-- A site at which `malloc` fails. -/
def failingSite : Site := { siteAt 0 with result := none }

/-- The old block is lost when `malloc` fails, and its bytes are lost without a tracker. -/
theorem not_honoursRealloc :
    ¬HonoursRealloc exampleWorld 4096 8 failingSite ∧
      ¬HonoursRealloc { tracker := none, live := [⟨4096, [1, 2, 3, 4]⟩] } 4096 8
        (siteAt 8192) := by
  constructor
  · intro h
    exact absurd (h.kept (by decide)).1 (by decide)
  · intro h
    exact absurd (h.moved 8192 (by decide)).1 (by decide)

end HiFetch.Memory.Tracker
