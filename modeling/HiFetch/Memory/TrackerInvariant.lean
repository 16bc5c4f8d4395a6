import HiFetch.Memory.Tracker

/-!
# Accounting of the allocation tracker

The entries of the table are distinct live blocks with their sizes, `total_allocated` is the sum of
these sizes and `peak_usage` the largest value it has had.  The table misses a live block only
after more than 1024 blocks were live at once: an allocation goes unrecorded when the table is
full, and all its entries are live.

A `Ledger` carries what the law compares the tracker with, the largest total and the largest number
of live blocks so far.  `tracked_realloc` is observed twice, since it holds both blocks for a while.
-/

namespace HiFetch.Memory.Tracker

open Allocator ByteRange Transition
open scoped List

/-- The entries of the table are distinct live blocks, and the total is the sum of their sizes. -/
structure Tracks (tracker : MemoryTracker) (live : Live) : Prop where
  room : tracker.leaks.length ≤ maxLeaks
  distinct : (tracker.leaks.map MemoryLeak.ptr).Nodup
  live : ∀ leak ∈ tracker.leaks, leak.range ∈ live.map Block.range
  total_eq : tracker.totalAllocated = total (tracker.leaks.map MemoryLeak.range)

/-- The table is exactly the set of live blocks. -/
def Complete (tracker : MemoryTracker) (live : Live) : Prop :=
  (tracker.leaks.map MemoryLeak.range).Perm (live.map Block.range)

theorem ranges_nodup {leaks : List MemoryLeak} (h : (leaks.map MemoryLeak.ptr).Nodup) :
    (leaks.map MemoryLeak.range).Nodup := by
  have hmap : leaks.map MemoryLeak.ptr = (leaks.map MemoryLeak.range).map ByteRange.start := by
    rw [List.map_map]
    rfl
  exact (hmap ▸ h).of_map _

/-- When one of several distinct entries is removed, no other entry has its pointer. -/
theorem ptr_ne_of_perm {leaks rest : List MemoryLeak} {leak : MemoryLeak}
    (hdistinct : (leaks.map MemoryLeak.ptr).Nodup) (hperm : leaks.Perm (leak :: rest)) :
    ∀ other ∈ rest, other.ptr ≠ leak.ptr := by
  intro other hother heq
  have hnodup := (hperm.map MemoryLeak.ptr).nodup_iff.1 hdistinct
  apply (List.nodup_cons.1 hnodup).1
  rw [← heq]
  exact List.mem_map_of_mem hother

/-- What `forget` does: nothing, when no entry has the pointer, and otherwise it removes one entry
with the pointer and subtracts its size. -/
theorem forget_cases (tracker : MemoryTracker) (ptr : ℕ) :
    ((∀ leak ∈ tracker.leaks, leak.ptr ≠ ptr) ∧ forget tracker ptr = tracker) ∨
      ∃ leak, leak.ptr = ptr ∧ tracker.leaks.Perm (leak :: (forget tracker ptr).leaks) ∧
        (forget tracker ptr).totalAllocated =
          (tracker.totalAllocated + (2 ^ 64 - leak.size)) % 2 ^ 64 ∧
        (forget tracker ptr).peakUsage = tracker.peakUsage := by
  cases hfind : tracker.leaks.findIdx? fun leak ↦ decide (leak.ptr = ptr) with
  | none =>
    refine .inl ⟨fun leak hleak ↦ ?_, by rw [forget, hfind]⟩
    simpa using List.findIdx?_eq_none_iff.1 hfind leak hleak
  | some index =>
    obtain ⟨hlt, hptr, -⟩ := List.findIdx?_eq_some_iff_getElem.1 hfind
    have hleak : tracker.leaks[index]? = some tracker.leaks[index] := List.getElem?_eq_getElem hlt
    obtain ⟨last, hlast⟩ : ∃ last, tracker.leaks.getLast? = some last :=
      ⟨_, List.getLast?_eq_some_getLast (List.ne_nil_of_length_pos (by omega))⟩
    have hforget : forget tracker ptr =
        { tracker with
          leaks := (tracker.leaks.set index last).dropLast
          totalAllocated :=
            (tracker.totalAllocated + (2 ^ 64 - tracker.leaks[index].size)) % 2 ^ 64 } := by
      simp only [forget, hfind, hleak, hlast]
    rw [hforget]
    exact .inr ⟨tracker.leaks[index], by simpa using hptr, swapRemove_perm hleak hlast, rfl, rfl⟩

/-- Recording raises the peak to the new total, if that is larger. -/
theorem peakUsage_record {tracker : MemoryTracker} {ptr size : ℕ} {site : Site}
    (h : tracker.totalAllocated ≤ tracker.peakUsage) :
    (record tracker ptr size site).peakUsage =
      max tracker.peakUsage (record tracker ptr size site).totalAllocated := by
  by_cases hroom : tracker.leaks.length < maxLeaks
  · unfold record
    rw [if_pos hroom]
    dsimp only
    split_ifs with hless
    · exact (max_eq_right hless.le).symm
    · exact (max_eq_left (not_lt.1 hless)).symm
  · unfold record
    rw [if_neg hroom]
    exact (max_eq_left h).symm

/-- Distinct entries for live blocks are live blocks of their own. -/
theorem subperm_of_live {leaks : List MemoryLeak} {live : Live}
    (hdistinct : (leaks.map MemoryLeak.ptr).Nodup)
    (hlive : ∀ leak ∈ leaks, leak.range ∈ live.map Block.range) :
    (leaks.map MemoryLeak.range).Subperm (live.map Block.range) := by
  apply List.subperm_of_subset (ranges_nodup hdistinct)
  intro range hrange
  obtain ⟨leak, hleak, rfl⟩ := List.mem_map.1 hrange
  exact hlive leak hleak

/-- `malloc` adds the new block to the live ones. -/
theorem map_range_malloc {live : Live} {ptr : ℕ} (size : ℕ) {site : Site}
    (hresult : site.result = some ptr) :
    (malloc live size site.contents site.result).map Block.range =
      ⟨ptr, size⟩ :: live.map Block.range := by
  simp [hresult, malloc, Block.range]

namespace Tracks

variable {tracker : MemoryTracker} {live : Live}

theorem subperm (h : Tracks tracker live) :
    (tracker.leaks.map MemoryLeak.range).Subperm (live.map Block.range) :=
  subperm_of_live h.distinct h.live

/-- No entry has the address of a fresh block. -/
theorem ptr_ne_of_fresh (h : Tracks tracker live) {ptr size : ℕ} (hfresh : Fresh live size ptr) :
    ∀ leak ∈ tracker.leaks, leak.ptr ≠ ptr := by
  intro leak hleak hptr
  obtain ⟨block, hblock, hrange⟩ := List.mem_map.1 (h.live leak hleak)
  apply (hfresh.2 block hblock).1
  calc
    block.address = leak.ptr := congrArg ByteRange.start hrange
    _ = ptr := hptr

/-- Recording a fresh block of `malloc`. -/
theorem record (h : Tracks tracker live) (hvalid : Valid live) {ptr size : ℕ} {site : Site}
    (hresult : site.result = some ptr) (hfresh : Fresh live size ptr) :
    Tracks (record tracker ptr size site) (malloc live size site.contents site.result) := by
  have hvalid' : Valid (malloc live size site.contents site.result) :=
    hvalid.malloc size site.contents fun address haddress ↦ by
      rw [hresult] at haddress
      rwa [← Option.some.inj haddress]
  have hmalloc : (malloc live size site.contents site.result).map Block.range =
      ⟨ptr, size⟩ :: live.map Block.range := map_range_malloc size hresult
  by_cases hroom : tracker.leaks.length < maxLeaks
  · obtain ⟨entry, hentry, hleaks⟩ : ∃ entry : MemoryLeak, entry.range = ⟨ptr, size⟩ ∧
        (Tracker.record tracker ptr size site).leaks = tracker.leaks ++ [entry] := by
      rw [Tracker.record, if_pos hroom]
      exact ⟨_, rfl, rfl⟩
    have hlive : ∀ leak ∈ tracker.leaks ++ [entry], leak.range ∈
        (malloc live size site.contents site.result).map Block.range := by
      rw [hmalloc]
      intro leak hleak
      rcases List.mem_append.1 hleak with hold | hnew
      · exact List.mem_cons_of_mem _ (h.live leak hold)
      · rw [List.mem_singleton.1 hnew, hentry]
        exact List.mem_cons_self
    have hdistinct : ((tracker.leaks ++ [entry]).map MemoryLeak.ptr).Nodup := by
      rw [List.map_append, List.nodup_append]
      refine ⟨h.distinct, List.nodup_singleton _, ?_⟩
      intro address hold other hnew
      obtain ⟨leak, hleak, rfl⟩ := List.mem_map.1 hold
      rw [List.mem_singleton.1 hnew, show entry.ptr = ptr from congrArg ByteRange.start hentry]
      exact h.ptr_ne_of_fresh hfresh leak hleak
    have htotal : total ((tracker.leaks ++ [entry]).map MemoryLeak.range) =
        tracker.totalAllocated + size := by
      rw [List.map_append, total_append, h.total_eq, List.map_singleton, hentry]
      rfl
    have hlt : tracker.totalAllocated + size < 2 ^ 64 := calc
      tracker.totalAllocated + size = total ((tracker.leaks ++ [entry]).map MemoryLeak.range) :=
        htotal.symm
      _ ≤ total ((malloc live size site.contents site.result).map Block.range) :=
        total_le_of_subperm (subperm_of_live hdistinct hlive)
      _ < 2 ^ 64 := hvalid'.total_lt
    refine ⟨?_, hleaks ▸ hdistinct, hleaks ▸ hlive, ?_⟩
    · rw [hleaks, List.length_append]
      exact hroom
    · rw [hleaks, htotal, Tracker.record, if_pos hroom]
      exact Nat.mod_eq_of_lt hlt
  · rw [Tracker.record, if_neg hroom]
    refine ⟨h.room, h.distinct, fun leak hleak ↦ ?_, h.total_eq⟩
    rw [hmalloc]
    exact List.mem_cons_of_mem _ (h.live leak hleak)

/-- Writing to a block. -/
theorem write (h : Tracks tracker live) (address : ℕ) (data : List UInt8) :
    Tracks tracker (write live address data) :=
  ⟨h.room, h.distinct, by rw [map_range_write]; exact h.live, h.total_eq⟩

/-- Forgetting a pointer and freeing its block. -/
theorem forget (h : Tracks tracker live) (hvalid : Valid live) (ptr : ℕ) :
    Tracks (forget tracker ptr) (free live ptr) := by
  have hother : ∀ leak ∈ tracker.leaks, leak.ptr ≠ ptr →
      leak.range ∈ (free live ptr).map Block.range := by
    intro leak hleak hne
    rw [Valid.map_range_free]
    exact List.mem_filter.2 ⟨h.live leak hleak, decide_eq_true hne⟩
  rcases forget_cases tracker ptr with ⟨hnone, hforget⟩ | ⟨leak, rfl, hperm, htotal, -⟩
  · rw [hforget]
    exact ⟨h.room, h.distinct, fun leak hleak ↦ hother leak hleak (hnone leak hleak), h.total_eq⟩
  · have hdistinct := (hperm.map MemoryLeak.ptr).nodup_iff.1 h.distinct
    refine ⟨?_, (List.nodup_cons.1 hdistinct).2, fun other hmem ↦ ?_, ?_⟩
    · have hlength := hperm.length_eq
      have hroom := h.room
      rw [List.length_cons] at hlength
      omega
    · apply hother other (hperm.mem_iff.2 (List.mem_cons_of_mem _ hmem))
      exact ptr_ne_of_perm h.distinct hperm other hmem
    · have hbound : total (tracker.leaks.map MemoryLeak.range) < 2 ^ 64 := calc
        total (tracker.leaks.map MemoryLeak.range) ≤ total (live.map Block.range) :=
          total_le_of_subperm h.subperm
        _ < 2 ^ 64 := hvalid.total_lt
      have hsum : tracker.totalAllocated =
          leak.size + total ((Tracker.forget tracker leak.ptr).leaks.map MemoryLeak.range) := by
        rw [h.total_eq, total_perm (hperm.map MemoryLeak.range)]
        rfl
      rw [← h.total_eq] at hbound
      rw [htotal]
      omega

end Tracks

/-- A complete table that still has room stays complete when the new block is recorded. -/
theorem Complete.record {tracker : MemoryTracker} {live : Live} (h : Complete tracker live)
    {ptr size : ℕ} {site : Site} (hresult : site.result = some ptr)
    (hroom : tracker.leaks.length < maxLeaks) :
    Complete (record tracker ptr size site) (malloc live size site.contents site.result) := by
  have hleaks : (Tracker.record tracker ptr size site).leaks.map MemoryLeak.range =
      tracker.leaks.map MemoryLeak.range ++ [⟨ptr, size⟩] := by
    simp [Tracker.record, hroom, MemoryLeak.range]
  unfold Complete
  rw [hleaks, map_range_malloc size hresult]
  calc
    tracker.leaks.map MemoryLeak.range ++ [⟨ptr, size⟩]
      ~ ⟨ptr, size⟩ :: tracker.leaks.map MemoryLeak.range := List.perm_append_singleton _ _
    _ ~ ⟨ptr, size⟩ :: live.map Block.range := h.cons _

/-- A complete table stays complete when a pointer is forgotten and its block freed. -/
theorem Complete.forget {tracker : MemoryTracker} {live : Live} (h : Complete tracker live)
    (hdistinct : (tracker.leaks.map MemoryLeak.ptr).Nodup) (ptr : ℕ) :
    Complete (forget tracker ptr) (free live ptr) := by
  unfold Complete
  rw [Valid.map_range_free]
  apply List.Perm.trans _ (List.Perm.filter (fun range ↦ decide (range.start ≠ ptr)) h)
  rcases forget_cases tracker ptr with ⟨hnone, hforget⟩ | ⟨leak, rfl, hperm, -, -⟩
  · rw [hforget, List.filter_eq_self.2]
    intro range hrange
    obtain ⟨leak, hleak, rfl⟩ := List.mem_map.1 hrange
    exact decide_eq_true (hnone leak hleak)
  · have hkept : ((Tracker.forget tracker leak.ptr).leaks.map MemoryLeak.range).filter
        (fun range ↦ decide (range.start ≠ leak.ptr)) =
          (Tracker.forget tracker leak.ptr).leaks.map MemoryLeak.range := by
      apply List.filter_eq_self.2
      intro range hrange
      obtain ⟨other, hother, rfl⟩ := List.mem_map.1 hrange
      exact decide_eq_true (ptr_ne_of_perm hdistinct hperm other hother)
    have hentries := (hperm.map MemoryLeak.range).filter
      fun range ↦ decide (range.start ≠ leak.ptr)
    rw [List.map_cons, List.filter_cons_of_neg (by simp [MemoryLeak.range]), hkept] at hentries
    exact hentries.symm

/-! ## Runs -/

/-- `total_allocated`, zero while there is no tracker. -/
def World.totalAllocated (world : World) : ℕ :=
  (world.tracker.map MemoryTracker.totalAllocated).getD 0

/-- The state, the largest value of `total_allocated` so far, and the largest number of blocks that
were live at once. -/
structure Ledger where
  world : World
  largest : ℕ
  mostLive : ℕ

def Ledger.observe (ledger : Ledger) (world : World) : Ledger where
  world := world
  largest := max ledger.largest world.totalAllocated
  mostLive := max ledger.mostLive world.live.length

/-- The ledger after a call.  `tracked_realloc` allocates before it frees, so the state in between
is observed as well. -/
def ledgerStep (ledger : Ledger) : TrackedCall → Ledger
  | .realloc (some ptr) size site =>
      (ledger.observe (trackedMalloc ledger.world size site).2).observe
        (trackedRealloc ledger.world (some ptr) size site).2
  | call => ledger.observe (call.run ledger.world)

/-- `memory_tracker_init` succeeded, and nothing has been allocated since. -/
def startLedger : Ledger where
  world := memoryTrackerInit { tracker := none, live := [] } true
  largest := 0
  mostLive := 0

/-- The client names live pointers only, and `malloc` keeps its contract. -/
def Allowed (ledger : Ledger) : TrackedCall → Prop
  | .malloc size site => ∀ address ∈ site.result, Fresh ledger.world.live size address
  | .calloc nmemb size site =>
      ∀ address ∈ site.result, Fresh ledger.world.live (nmemb * size % 2 ^ 64) address
  | .realloc ptr size site =>
      (∀ address ∈ ptr, address ∈ ledger.world.live.map Block.address) ∧
        ∀ address ∈ site.result, Fresh ledger.world.live size address
  | .free ptr => ∀ address ∈ ptr, address ∈ ledger.world.live.map Block.address

/-- The law of the tracker. -/
structure Accounted (ledger : Ledger) (tracker : MemoryTracker) : Prop where
  tracker_eq : ledger.world.tracker = some tracker
  valid : Valid ledger.world.live
  tracks : Tracks tracker ledger.world.live
  peak_eq : tracker.peakUsage = ledger.largest
  total_le : tracker.totalAllocated ≤ ledger.largest
  live_le : ledger.world.live.length ≤ ledger.mostLive
  complete : ledger.mostLive ≤ maxLeaks → Complete tracker ledger.world.live

namespace Accounted

variable {ledger : Ledger} {tracker : MemoryTracker}

/-- Observing the same total and the same number of blocks changes no largest value. -/
theorem write (h : Accounted ledger tracker) (address : ℕ) (data : List UInt8) :
    Accounted { ledger with
      world := { ledger.world with live := write ledger.world.live address data } } tracker := by
  refine ⟨h.tracker_eq, h.valid.write address data, h.tracks.write address data, h.peak_eq,
    h.total_le, by simpa using h.live_le, fun hmost ↦ ?_⟩
  unfold Complete
  rw [map_range_write]
  exact h.complete hmost

/-- One `tracked_malloc`. -/
theorem malloc (h : Accounted ledger tracker) {size : ℕ} {site : Site}
    (hfresh : ∀ address ∈ site.result, Fresh ledger.world.live size address) :
    ∃ tracker', Accounted (ledger.observe (trackedMalloc ledger.world size site).2) tracker' := by
  have htracker := h.tracker_eq
  cases hresult : site.result with
  | none =>
    have hworld : (trackedMalloc ledger.world size site).2 = ledger.world := by
      simp [trackedMalloc, hresult, Allocator.malloc]
    have htotal : ledger.world.totalAllocated = tracker.totalAllocated := by
      simp [World.totalAllocated, htracker]
    have hobserve : ledger.observe ledger.world = ledger := by
      simp [Ledger.observe, htotal, h.total_le, h.live_le]
    rw [hworld, hobserve]
    exact ⟨tracker, h⟩
  | some ptr =>
    have hptr : Fresh ledger.world.live size ptr := hfresh ptr hresult
    have hworld : (trackedMalloc ledger.world size site).2 =
        { tracker := some (record tracker ptr size site)
          live := Allocator.malloc ledger.world.live size site.contents site.result } := by
      simp [trackedMalloc, hresult, htracker]
    have hlength : (Allocator.malloc ledger.world.live size site.contents site.result).length =
        ledger.world.live.length + 1 := by
      simp [hresult, Allocator.malloc]
    have htracks := h.tracks.record h.valid hresult hptr
    have hvalid := h.valid.malloc size site.contents hfresh
    rw [hworld]
    refine ⟨record tracker ptr size site, rfl, hvalid, htracks, ?_, ?_, ?_, ?_⟩
    · have hpeak := h.peak_eq
      have htotal := h.total_le
      change _ = max ledger.largest (record tracker ptr size site).totalAllocated
      rw [peakUsage_record (htotal.trans hpeak.ge), hpeak]
    · exact le_max_right _ _
    · exact le_max_right _ _
    · intro hmost
      have hlive : ledger.world.live.length + 1 ≤ maxLeaks := by
        rw [← hlength]
        exact (le_max_right _ _).trans hmost
      have hroom : tracker.leaks.length < maxLeaks := by
        have hle := h.tracks.subperm.length_le
        simp only [List.length_map] at hle
        omega
      exact (h.complete ((le_max_left _ _).trans hmost)).record hresult hroom

/-- One `tracked_free`. -/
theorem free (h : Accounted ledger tracker) (ptr : Option ℕ) :
    ∃ tracker', Accounted (ledger.observe (trackedFree ledger.world ptr)) tracker' := by
  have htracker := h.tracker_eq
  cases ptr with
  | none =>
    have htotal : ledger.world.totalAllocated = tracker.totalAllocated := by
      simp [World.totalAllocated, htracker]
    have hobserve : ledger.observe ledger.world = ledger := by
      simp [Ledger.observe, htotal, h.total_le, h.live_le]
    exact ⟨tracker, by simpa only [trackedFree, hobserve] using h⟩
  | some ptr =>
    have hworld : trackedFree ledger.world (some ptr) =
        { tracker := some (forget tracker ptr), live := Allocator.free ledger.world.live ptr } := by
      simp [trackedFree, htracker]
    have htracks := h.tracks.forget h.valid ptr
    have htotal : (forget tracker ptr).totalAllocated ≤ tracker.totalAllocated := by
      rw [htracks.total_eq, h.tracks.total_eq]
      rcases forget_cases tracker ptr with ⟨-, hforget⟩ | ⟨leak, -, hperm, -, -⟩
      · rw [hforget]
      · rw [total_perm (hperm.map MemoryLeak.range)]
        exact Nat.le_add_left _ _
    have hpeak : (forget tracker ptr).peakUsage = tracker.peakUsage := by
      rcases forget_cases tracker ptr with ⟨-, hforget⟩ | ⟨leak, -, -, -, hpeak⟩
      · rw [hforget]
      · exact hpeak
    have hlive : (Allocator.free ledger.world.live ptr).length ≤ ledger.mostLive := calc
      (Allocator.free ledger.world.live ptr).length ≤ ledger.world.live.length :=
        List.length_filter_le _ _
      _ ≤ ledger.mostLive := h.live_le
    have hobserve : ledger.observe (trackedFree ledger.world (some ptr)) =
        { ledger with world := trackedFree ledger.world (some ptr) } := by
      rw [hworld]
      simp [Ledger.observe, World.totalAllocated, htotal.trans h.total_le, hlive]
    rw [hobserve, hworld]
    exact ⟨forget tracker ptr, rfl, h.valid.free ptr, htracks, hpeak.trans h.peak_eq,
      htotal.trans h.total_le, hlive, fun hmost ↦ (h.complete hmost).forget h.tracks.distinct ptr⟩

end Accounted

/-- What `tracked_calloc` and `tracked_realloc` write changes only contents. -/
theorem accounted_copyTracked {ledger : Ledger} {tracker : MemoryTracker}
    (h : Accounted ledger tracker) (ptr newPtr size : ℕ) :
    Accounted { ledger with world := copyTracked ledger.world ptr newPtr size } tracker := by
  cases hfind : tracker.leaks.find? fun leak ↦ decide (leak.ptr = ptr) with
  | none =>
    have hworld : copyTracked ledger.world ptr newPtr size = ledger.world := by
      simp only [copyTracked, h.tracker_eq, hfind]
    rw [hworld]
    exact h
  | some leak =>
    have hworld : copyTracked ledger.world ptr newPtr size = { ledger.world with
        live := Allocator.write ledger.world.live newPtr ((read ledger.world.live ptr).take
          (if leak.size < size then leak.size else size)) } := by
      simp only [copyTracked, h.tracker_eq, hfind]
    rw [hworld]
    exact h.write _ _

/-- Every allowed call keeps the law. -/
theorem accounted_step {ledger : Ledger} {tracker : MemoryTracker}
    (h : Accounted ledger tracker) {call : TrackedCall} (hallowed : Allowed ledger call) :
    ∃ tracker', Accounted (ledgerStep ledger call) tracker' := by
  cases call with
  | malloc size site => exact h.malloc hallowed
  | free ptr => exact h.free ptr
  | calloc nmemb size site =>
    obtain ⟨tracker', h'⟩ := h.malloc hallowed
    refine ⟨tracker', ?_⟩
    rw [ledgerStep, TrackedCall.run, trackedCalloc]
    · cases hresult : trackedMalloc ledger.world (nmemb * size % 2 ^ 64) site with
      | mk result world =>
        rw [hresult] at h'
        cases result with
        | none => exact h'
        | some ptr =>
          have hwrite := h'.write ptr (List.replicate (nmemb * size % 2 ^ 64) 0)
          simpa only [Ledger.observe, World.totalAllocated, length_write] using hwrite
    · simp
  | realloc ptr size site =>
    obtain ⟨tracker', h'⟩ := h.malloc hallowed.2
    cases ptr with
    | none => exact ⟨tracker', h'⟩
    | some ptr =>
      rw [ledgerStep, trackedRealloc]
      cases hresult : trackedMalloc ledger.world size site with
      | mk result world =>
        rw [hresult] at h'
        cases result with
        | none => exact h'.free (some ptr)
        | some newPtr => exact (accounted_copyTracked h' ptr newPtr size).free (some ptr)

theorem accounted_start : Accounted startLedger
    { leaks := [], totalAllocated := 0, peakUsage := 0 } :=
  ⟨rfl, valid_nil, ⟨by simp, by simp, by simp, rfl⟩, rfl, le_rfl, le_rfl, fun _ ↦ List.Perm.nil⟩

/-- After every sequence of calls of clients that free only live pointers, over an allocator that
keeps its contract, the table holds distinct live blocks with their sizes, `total_allocated` and
`peak_usage` are right, and the table is complete unless more than 1024 blocks were live at once. -/
theorem tracker_accounted {calls : List TrackedCall}
    (hallowed : Along ledgerStep Allowed startLedger calls) :
    Throughout ledgerStep (fun ledger ↦ ∃ tracker, Accounted ledger tracker) startLedger calls :=
  throughout_of_along (fun _ _ ⟨_, h⟩ hcall ↦ accounted_step h hcall) ⟨_, accounted_start⟩ hallowed

/-- A site at which `malloc` returns `address`. -/
def siteAt (address : ℕ) : Site :=
  { file := "main.c", line := 1, result := some address, contents := fun _ ↦ 0, now := 0 }

theorem tracker_accounted_example :
    Throughout ledgerStep (fun ledger ↦ ∃ tracker, Accounted ledger tracker) startLedger
      [.malloc 16 (siteAt 4096), .realloc (some 4096) 32 (siteAt 8192), .free (some 8192)] := by
  refine tracker_accounted ⟨?_, ⟨?_, ?_⟩, ?_, trivial⟩
  · rintro address ⟨⟩
    exact ⟨by decide, by simp [startLedger, memoryTrackerInit]⟩
  · rintro address ⟨⟩
    decide
  · rintro address ⟨⟩
    refine ⟨by decide, ?_⟩
    rintro block (_ | ⟨_, ⟨⟩⟩)
    exact ⟨by decide, (apart_of_le (by decide)).symm⟩
  · rintro address ⟨⟩
    decide

end HiFetch.Memory.Tracker
