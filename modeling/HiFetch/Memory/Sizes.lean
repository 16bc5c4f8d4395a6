import HiFetch.Memory.PoolFailures
import HiFetch.Memory.Realloc

/-!
# Sizes of allocations

`pool_alloc` rounds a request up to a multiple of eight before it compares sizes, and
`tracked_calloc` multiplies before it allocates, both in `size_t` arithmetic.  A request of more
than `2 ^ 64 - 8` bytes is rounded to zero, which every block satisfies, and a product that does not
fit into 64 bits is reduced modulo `2 ^ 64`.  Below these limits every block is as large as asked.
-/

namespace HiFetch.Memory

open LinkedHeap Allocator
open Pool (MemoryPool MemBlock alignUp)
open Tracker (World Site trackedMalloc trackedCalloc)

/-! ## The pool -/

/-- The size that `pool_alloc` passes to `malloc`, if it falls back to it. -/
def fallbackSize (pool : MemoryPool) (size : ℕ) : Option ℕ :=
  if size = 0 then none
  else
    match find pool.headers (fun block ↦ decide (alignUp size ≤ block.size)) pool.freeBlocks with
    | .absent => some (alignUp size)
    | _ => none

/-- `size` rounded up to a multiple of eight. -/
def roundUp (size : ℕ) : ℕ := (size + 7) / 8 * 8

/-- No allocation of the pool is smaller than asked. -/
structure PoolSuffices (pool : MemoryPool) (size : ℕ) (header : Bool) (fallback : Option ℕ) :
    Prop where
  /-- The pointer returned from the pool belongs to a block of at least `size` bytes. -/
  handedOut : ∀ address ptr after,
    Pool.poolEvent (some pool) (.alloc size header fallback) = .handsOut address →
    Pool.poolAlloc pool size header fallback = some (some ptr, after) →
    ∃ block, after.headers[address]? = some block ∧ block.ptr = ptr ∧ size ≤ block.size
  /-- `malloc` is asked for at least `size` bytes. -/
  asked : ∀ bytes, fallbackSize pool size = some bytes → size ≤ bytes
  /-- `malloc` is asked only when no free block has at least the rounded size. -/
  lastResort : ∀ bytes, fallbackSize pool size = some bytes →
    ∃ free, Chain pool.headers pool.freeBlocks free ∧
      ∀ address ∈ free, ∀ block, pool.headers[address]? = some block → block.size < roundUp size

theorem alignUp_eq_roundUp {size : ℕ} (h : size ≤ 2 ^ 64 - 8) : alignUp size = roundUp size := by
  rw [Pool.alignUp_eq, roundUp, Nat.mod_eq_of_lt (by omega)]

theorem alignUp_eq_zero {size : ℕ} (h : 2 ^ 64 - 8 < size) (hsize : size < 2 ^ 64) :
    alignUp size = 0 := by
  rw [Pool.alignUp_eq]
  omega

theorem le_roundUp (size : ℕ) : size ≤ roundUp size := by
  unfold roundUp
  omega

/-- Taking a block off the free list keeps what the header describes. -/
theorem map_ptr_takeBlock {pool : MemoryPool} {before : Option ℕ} {address size : ℕ}
    {block : MemBlock} (header : Bool) (hblock : pool.headers[address]? = some block) :
    ((Pool.takeBlock pool before block size header).headers.map MemBlock.ptr)[address]? =
      some block.ptr := by
  have hrelink : ∀ headers head target,
      (relink headers head before target).1.map MemBlock.ptr = headers.map MemBlock.ptr :=
    fun headers head target ↦ relink_map MemBlock.ptr (fun _ _ ↦ rfl) headers head before target
  have hold : (pool.headers.map MemBlock.ptr)[address]? = some block.ptr := by
    rw [List.getElem?_map, hblock, Option.map_some]
  unfold Pool.takeBlock
  split_ifs
  · have hlt := (List.getElem?_eq_some_iff.1 hold).1
    rw [Pool.setFreeLink, hrelink, List.map_append, List.getElem?_append_left hlt, hold]
  · exact hold
  · rw [Pool.setFreeLink, hrelink, hold]

/-- The block handed out is recorded with the rounded size of the request. -/
theorem exists_block_handOut {pool : MemoryPool} {before : Option ℕ} {address size : ℕ}
    {block : MemBlock} (header : Bool) (hblock : pool.headers[address]? = some block) :
    ∃ block', (Pool.handOut (Pool.takeBlock pool before block size header) address
        size).headers[address]? = some block' ∧ block'.ptr = block.ptr ∧ block'.size = size := by
  have hptr : ((Pool.takeBlock pool before block size header).headers.map
      MemBlock.ptr)[address]? = some block.ptr := map_ptr_takeBlock header hblock
  rw [List.getElem?_map] at hptr
  obtain ⟨taken, htaken, heq⟩ := Option.map_eq_some_iff.1 hptr
  refine ⟨{ taken with
    size := size
    inUse := true
    next := (Pool.takeBlock pool before block size header).usedBlocks }, ?_, heq, rfl⟩
  unfold Pool.handOut
  rw [List.getElem?_modify_eq, htaken]
  rfl

/-- What `pool_alloc` asks of `malloc`, and when. -/
theorem fallbackSize_eq_some {pool : MemoryPool} {size bytes : ℕ}
    (h : fallbackSize pool size = some bytes) :
    bytes = alignUp size ∧
      find pool.headers (fun block ↦ decide (alignUp size ≤ block.size)) pool.freeBlocks =
        .absent := by
  unfold fallbackSize at h
  split_ifs at h
  cases hfind : find pool.headers (fun block ↦ decide (alignUp size ≤ block.size))
    pool.freeBlocks with
  | absent =>
    rw [hfind] at h
    exact ⟨(Option.some.inj h).symm, rfl⟩
  | endless => simp [hfind] at h
  | hit before address block => simp [hfind] at h

/-- Whatever the pool is, the block handed out is recorded with the rounded size. -/
theorem exists_block_of_handsOut {pool after : MemoryPool} {size address ptr : ℕ} {header : Bool}
    {fallback : Option ℕ}
    (hevent : Pool.poolEvent (some pool) (.alloc size header fallback) = .handsOut address)
    (halloc : Pool.poolAlloc pool size header fallback = some (some ptr, after)) :
    ∃ block, after.headers[address]? = some block ∧ block.ptr = ptr ∧
      block.size = alignUp size := by
  have hzero : size ≠ 0 := by
    rintro rfl
    simp [Pool.poolEvent] at hevent
  obtain ⟨before, block, hfind, -⟩ := Pool.poolAlloc_of_handsOut hevent
  simp only [Pool.poolAlloc, hzero, hfind, if_false, Option.some.injEq, Prod.mk.injEq] at halloc
  obtain ⟨rfl, rfl⟩ := halloc
  exact exists_block_handOut header (search_hit hfind).1

/-- Up to `2 ^ 64 - 8` bytes the rounded size is at least the request. -/
theorem poolSuffices_of_le {pool : MemoryPool} {size : ℕ} {header : Bool} {fallback : Option ℕ}
    (hsize : size ≤ 2 ^ 64 - 8) : PoolSuffices pool size header fallback := by
  have hround := alignUp_eq_roundUp hsize
  have hle := le_roundUp size
  constructor
  · intro address ptr after hevent halloc
    obtain ⟨block, hblock, hptr, hrecorded⟩ := exists_block_of_handsOut hevent halloc
    exact ⟨block, hblock, hptr, by omega⟩
  · intro bytes hbytes
    obtain ⟨rfl, -⟩ := fallbackSize_eq_some hbytes
    omega
  · intro bytes hbytes
    obtain ⟨free, hchain, hnone⟩ := find_absent (fallbackSize_eq_some hbytes).2
    refine ⟨free, hchain, ?_⟩
    intro address haddress block hblock
    have hsmall := hnone address haddress block hblock
    rw [hround] at hsmall
    simpa using hsmall

/-- A larger request is rounded to zero, and is met by the first free block or by `malloc(0)`. -/
theorem not_poolSuffices {pool : MemoryPool}
    (hhead : ∀ address ∈ pool.freeBlocks, address < pool.headers.length) {size : ℕ}
    (hsize : size < 2 ^ 64) {header : Bool} {fallback : Option ℕ} (hlarge : 2 ^ 64 - 8 < size) :
    ¬PoolSuffices pool size header fallback := by
  intro h
  have hround := alignUp_eq_zero hlarge hsize
  have hzero : size ≠ 0 := by omega
  cases hfree : pool.freeBlocks with
  | none =>
    have hfallback : fallbackSize pool size = some (alignUp size) := by
      simp [fallbackSize, hzero, find, search, hfree]
    have hasked := h.asked _ hfallback
    omega
  | some address =>
    have hlt := hhead address hfree
    have hblock : pool.headers[address]? = some pool.headers[address] :=
      List.getElem?_eq_getElem hlt
    have hfind : find pool.headers (fun block ↦ decide (alignUp size ≤ block.size))
        pool.freeBlocks = .hit none address pool.headers[address] := by
      simp [find, search, hfree, hround, hlt]
    have hevent : Pool.poolEvent (some pool) (.alloc size header fallback) = .handsOut address := by
      simp [Pool.poolEvent, hzero, hfind]
    have halloc : Pool.poolAlloc pool size header fallback = some (some pool.headers[address].ptr,
        Pool.handOut (Pool.takeBlock pool none pool.headers[address] (alignUp size) header) address
          (alignUp size)) := by
      simp [Pool.poolAlloc, hzero, hfind]
    obtain ⟨block, hafter, -, henough⟩ := h.handedOut address _ _ hevent halloc
    obtain ⟨other, hother, -, hrecorded⟩ := exists_block_of_handsOut hevent halloc
    obtain rfl := Option.some.inj (hafter.symm.trans hother)
    omega

/-! ## The tracker -/

/-- `tracked_calloc` returns null, or a block of zeros that has room for the whole array. -/
def CallocSuffices (world : World) (nmemb size : ℕ) (site : Site) : Prop :=
  ∀ ptr, (trackedCalloc world nmemb size site).1 = some ptr →
    ∃ bytes, read (trackedCalloc world nmemb size site).2.live ptr = List.replicate bytes 0 ∧
      nmemb * size ≤ bytes

/-- The block that `tracked_calloc` returns. -/
theorem trackedCalloc_of_some {world : World} {nmemb size ptr : ℕ} {site : Site}
    (hresult : site.result = some ptr) :
    (trackedCalloc world nmemb size site).1 = some ptr ∧
      read (trackedCalloc world nmemb size site).2.live ptr =
        List.replicate (nmemb * size % 2 ^ 64) 0 := by
  have hroom : (List.replicate (nmemb * size % 2 ^ 64) (0 : UInt8)).length =
      ((List.range (nmemb * size % 2 ^ 64)).map site.contents).length := by simp
  simp only [trackedCalloc, Tracker.trackedMalloc_of_some hresult, true_and]
  rw [read_write_self, read_malloc_self]
  have htake := take_overwrite hroom.le
  rwa [hroom, ← length_overwrite, List.take_length] at htake

theorem callocSuffices_iff (world : World) (nmemb size : ℕ) (site : Site) :
    CallocSuffices world nmemb size site ↔ site.result = none ∨ nmemb * size < 2 ^ 64 := by
  cases hresult : site.result with
  | none =>
    apply iff_of_true _ (.inl rfl)
    intro ptr hptr
    simp [trackedCalloc, trackedMalloc, hresult] at hptr
  | some address =>
    obtain ⟨hreturned, hread⟩ := trackedCalloc_of_some hresult
    constructor
    · intro h
      obtain ⟨bytes, hzeros, hroom⟩ := h address hreturned
      have hbytes : nmemb * size % 2 ^ 64 = bytes := by
        have hlength := congrArg List.length (hread.symm.trans hzeros)
        rwa [List.length_replicate, List.length_replicate] at hlength
      have hlt : nmemb * size % 2 ^ 64 < 2 ^ 64 := Nat.mod_lt _ (by decide)
      exact .inr (by omega)
    · rintro (hnone | hproduct)
      · cases hnone
      · intro ptr hptr
        obtain rfl := Option.some.inj (hreturned.symm.trans hptr)
        exact ⟨_, hread, (Nat.mod_eq_of_lt hproduct).ge⟩

/-- In every pool an allocation is as large as asked exactly when the request has at most
`2 ^ 64 - 8` bytes, and `tracked_calloc` returns an array that is too small exactly when `malloc`
succeeds and the product does not fit into 64 bits. -/
theorem allocations_suffice_iff {pool : MemoryPool}
    (hhead : ∀ address ∈ pool.freeBlocks, address < pool.headers.length) (request : BitVec 64)
    (header : Bool) (fallback : Option ℕ) (world : World) (nmemb size : BitVec 64) (site : Site) :
    (PoolSuffices pool request.toNat header fallback ↔ request.toNat ≤ 2 ^ 64 - 8) ∧
      (CallocSuffices world nmemb.toNat size.toNat site ↔
        site.result = none ∨ nmemb.toNat * size.toNat < 2 ^ 64) := by
  refine ⟨⟨fun h ↦ ?_, poolSuffices_of_le⟩, callocSuffices_iff world _ _ site⟩
  by_contra hlarge
  exact not_poolSuffices hhead request.isLt (not_le.1 hlarge) h

theorem allocations_suffice_iff_example :
    (PoolSuffices
        { freeBlocks := some 0, usedBlocks := none, poolStart := 4096, poolSize := 1048576,
          allocated := 0, headers := [⟨4096, 1048576, false, none⟩] } 100 true none ↔
        100 ≤ 2 ^ 64 - 8) ∧
      (CallocSuffices ⟨none, []⟩ 4 8 (Tracker.siteAt 4096) ↔
        (Tracker.siteAt 4096).result = none ∨ 4 * 8 < 2 ^ 64) := by
  refine allocations_suffice_iff ?_ 100 true none ⟨none, []⟩ 4 8 (Tracker.siteAt 4096)
  rintro address ⟨⟩
  decide

/-- A request of the largest size is met by a block of no bytes, and an array of `2 ^ 64` bytes by
another one. -/
theorem allocations_too_small :
    ¬PoolSuffices
        { freeBlocks := some 0, usedBlocks := none, poolStart := 4096, poolSize := 1048576,
          allocated := 0, headers := [⟨4096, 1048576, false, none⟩] } (2 ^ 64 - 1) true none ∧
      ¬CallocSuffices ⟨none, []⟩ (2 ^ 32) (2 ^ 32) (Tracker.siteAt 4096) := by
  constructor
  · apply not_poolSuffices
    · rintro address ⟨⟩
      decide
    · decide
    · decide
  · rw [callocSuffices_iff]
    decide

end HiFetch.Memory
