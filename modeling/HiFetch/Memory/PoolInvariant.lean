import HiFetch.Memory.Pool

/-!
# The representation invariant of the memory pool

While every header can be allocated, the two lists partition the headers, the ranges of all blocks
are apart and lie in the mapped region at multiples of eight, and `allocated` is the number of
bytes of the used blocks.  This holds after every sequence of calls, whatever the request sizes
and whatever pointers are freed.

The bytes are not conserved: a block taken whole is recorded with the rounded size of the request,
and the bytes between the two sizes are on no list any more.  A run keeps all bytes exactly when no
allocation takes a larger block whole.
-/

namespace HiFetch.Memory.Pool

open LinkedHeap ByteRange Transition
open scoped List

/-- The ranges of all headers, in the order of their allocation. -/
def ranges (pool : MemoryPool) : List ByteRange := pool.headers.map MemBlock.range

/-- The ranges of the headers at these addresses. -/
def rangesAt (pool : MemoryPool) (addresses : List ℕ) : List ByteRange :=
  addresses.filterMap ((ranges pool)[·]?)

theorem rangesAt_append (pool : MemoryPool) (first second : List ℕ) :
    rangesAt pool (first ++ second) = rangesAt pool first ++ rangesAt pool second :=
  List.filterMap_append

theorem rangesAt_range (pool : MemoryPool) :
    rangesAt pool (List.range pool.headers.length) = ranges pool := by
  have hlength : (ranges pool).length = pool.headers.length := List.length_map _
  unfold rangesAt
  rw [← hlength]
  apply List.ext_getElem?
  intro index
  induction (ranges pool) using List.reverseRecOn generalizing index with
  | nil => simp
  | append_singleton front last ih =>
    have hfront : (List.range front.length).filterMap ((front ++ [last])[·]?) =
        (List.range front.length).filterMap (front[·]?) := by
      apply List.filterMap_congr
      intro position hposition
      rw [List.getElem?_append_left (List.mem_range.1 hposition)]
    rw [List.length_append, List.length_singleton, List.range_succ, List.filterMap_append, hfront,
      List.ext_getElem? ih]
    simp

/-- The blocks of the two lists together have the ranges of all headers. -/
theorem Shape.total_eq {pool : MemoryPool} {free used : List ℕ} (h : Shape pool free used) :
    total (rangesAt pool free) + total (rangesAt pool used) = total (ranges pool) := by
  rw [← total_append, ← rangesAt_append, ← rangesAt_range pool]
  exact total_perm (h.onOneList.filterMap _)

/-! ## What a call does to the ranges -/

theorem getElem?_ranges {pool : MemoryPool} {address : ℕ} {block : MemBlock}
    (hblock : pool.headers[address]? = some block) :
    (ranges pool)[address]? = some block.range := by
  unfold ranges
  rw [List.getElem?_map, hblock]
  rfl

@[simp]
theorem ranges_setFreeLink (pool : MemoryPool) (before target : Option ℕ) :
    ranges (setFreeLink pool before target) = ranges pool :=
  relink_map MemBlock.range (fun _ _ ↦ rfl) _ _ _ _

@[simp]
theorem ranges_setUsedLink (pool : MemoryPool) (before target : Option ℕ) :
    ranges (setUsedLink pool before target) = ranges pool :=
  relink_map MemBlock.range (fun _ _ ↦ rfl) _ _ _ _

@[simp]
theorem ranges_giveBack (pool : MemoryPool) (address : ℕ) (block : MemBlock) :
    ranges (giveBack pool address block) = ranges pool := by
  apply List.ext_getElem?
  intro index
  simp only [ranges, giveBack, List.getElem?_map, List.getElem?_modify]
  cases pool.headers[index]? with
  | none => rfl
  | some other => by_cases hindex : address = index <;> simp [hindex, MemBlock.range]

theorem ranges_handOut {pool : MemoryPool} {address size : ℕ} {range : ByteRange}
    (hrange : (ranges pool)[address]? = some range) :
    ranges (handOut pool address size) = (ranges pool).set address (range.takeBytes size) := by
  obtain ⟨block, hblock, rfl⟩ : ∃ block, pool.headers[address]? = some block ∧
      block.range = range := by
    simpa [ranges] using hrange
  apply List.ext_getElem?
  intro index
  by_cases hindex : address = index
  · subst hindex
    obtain ⟨hlt, hget⟩ := List.getElem?_eq_some_iff.1 hblock
    simp [ranges, handOut, hlt, hget, MemBlock.range, takeBytes]
  · simp [ranges, handOut, hindex]

/-- The ranges after a split: the front part in place, the remainder as a new last header. -/
theorem ranges_split {pool : MemoryPool} {before : Option ℕ} {address size : ℕ} {block : MemBlock}
    (hblock : pool.headers[address]? = some block) (hsplit : splits block size) :
    ranges (handOut (takeBlock pool before block size true) address size) =
      (ranges pool).set address (block.range.takeBytes size) ++ [block.range.dropBytes size] := by
  have htake : ranges (takeBlock pool before block size true) =
      ranges pool ++ [block.range.dropBytes size] := by
    unfold takeBlock
    rw [if_pos hsplit, if_pos rfl, ranges_setFreeLink]
    simp [ranges, remainder, MemBlock.range, dropBytes]
  have hrange := getElem?_ranges hblock
  have hlt := (List.getElem?_eq_some_iff.1 hrange).1
  have hkept : (ranges (takeBlock pool before block size true))[address]? = some block.range := by
    rw [htake, List.getElem?_append_left hlt, hrange]
  rw [ranges_handOut hkept, htake, List.set_append_left _ _ hlt]

/-- The ranges after a block was taken whole. -/
theorem ranges_whole {pool : MemoryPool} {before : Option ℕ} {address size : ℕ} {block : MemBlock}
    {header : Bool} (hblock : pool.headers[address]? = some block) (hwhole : ¬ splits block size) :
    ranges (handOut (takeBlock pool before block size header) address size) =
      (ranges pool).set address (block.range.takeBytes size) := by
  have htake : ranges (takeBlock pool before block size header) = ranges pool := by
    unfold takeBlock
    rw [if_neg hwhole, ranges_setFreeLink]
  have hkept : (ranges (takeBlock pool before block size header))[address]? =
      some block.range := by
    rw [htake, getElem?_ranges hblock]
  rw [ranges_handOut hkept, htake]

theorem takeBlock_start_size_allocated (pool : MemoryPool) (before : Option ℕ) (block : MemBlock)
    (size : ℕ) (header : Bool) :
    (takeBlock pool before block size header).poolStart = pool.poolStart ∧
      (takeBlock pool before block size header).poolSize = pool.poolSize ∧
      (takeBlock pool before block size header).allocated = pool.allocated := by
  unfold takeBlock
  split_ifs <;> exact ⟨rfl, rfl, rfl⟩

/-- Addresses other than the one written keep their ranges. -/
theorem rangesAt_eq {pool pool' : MemoryPool} {addresses : List ℕ}
    (h : ∀ address ∈ addresses, (ranges pool')[address]? = (ranges pool)[address]?) :
    rangesAt pool' addresses = rangesAt pool addresses :=
  List.filterMap_congr h

/-! ## What a call does to the lists -/

/-- The first free block with at least the rounded size of the request. -/
def FirstFit (pool : MemoryPool) (size : ℕ) (block : MemBlock) : Prop :=
  ∃ front address rest, Chain pool.headers pool.freeBlocks (front ++ address :: rest) ∧
    pool.headers[address]? = some block ∧ alignUp size ≤ block.size ∧
    NoneHit pool.headers (fun other ↦ decide (alignUp size ≤ other.size)) front

section Shape

variable {pool : MemoryPool} {free used : List ℕ}

theorem shape_split {front rest : List ℕ} {address size : ℕ} {block : MemBlock}
    (h : Shape pool (front ++ address :: rest) used)
    (hblock : pool.headers[address]? = some block) (hsplit : splits block size) :
    Shape (handOut (takeBlock pool front.getLast? block size true) address size)
      (front ++ pool.headers.length :: rest) (address :: used) := by
  have hlt : address < pool.headers.length := (List.getElem?_eq_some_iff.1 hblock).1
  have hfreeLt := h.freeChain.lt_length
  have haddress := h.freeChain.notMem_others
  have htarget : Chain (pool.headers ++ [remainder block size]) (some pool.headers.length)
      (pool.headers.length :: rest) := by
    have hcell : (pool.headers ++ [remainder block size])[pool.headers.length]? =
        some (remainder block size) := by simp
    exact ((h.freeChain.behind hblock).alloc _).push hcell rfl
  have hnew : ∀ other ∈ front, other ∉ pool.headers.length :: rest := by
    intro other hother hmem
    rcases List.mem_cons.1 hmem with rfl | hmem
    · exact Nat.lt_irrefl _ (hfreeLt _ (List.mem_append_left _ hother))
    · exact h.freeChain.before_notMem_rest other hother hmem
  have hchains := chains_handOut
    { pool with headers := pool.headers ++ [remainder block size] } size
    (h.freeChain.alloc _) (h.usedChain.alloc _) htarget
    ((List.getElem?_append_left hlt).trans hblock) hnew
    (fun other hother ↦ h.disjoint other (List.mem_append_left _ hother))
    (by
      simp only [List.mem_append, List.mem_cons, not_or] at haddress ⊢
      exact ⟨haddress.1, hlt.ne, haddress.2⟩)
    (h.disjoint address (by simp))
  unfold takeBlock
  rw [if_pos hsplit, if_pos rfl]
  refine ⟨hchains.1, hchains.2, ?_⟩
  have hlength : (handOut (setFreeLink
      { pool with headers := pool.headers ++ [remainder block size] } front.getLast?
      (some pool.headers.length)) address size).headers.length = pool.headers.length + 1 := by
    simp [handOut, setFreeLink]
  rw [hlength, List.range_succ]
  calc
    front ++ pool.headers.length :: rest ++ address :: used
      ~ pool.headers.length :: (front ++ (rest ++ address :: used)) := by
        rw [List.append_assoc, List.cons_append]
        exact List.perm_middle
    _ ~ pool.headers.length :: (front ++ address :: rest ++ used) := by
        rw [List.append_assoc, List.cons_append]
        exact ((List.perm_append_left_iff _).2 List.perm_middle).cons _
    _ ~ pool.headers.length :: List.range pool.headers.length := h.onOneList.cons _
    _ ~ List.range pool.headers.length ++ [pool.headers.length] :=
        (List.perm_append_singleton _ _).symm

theorem shape_whole {front rest : List ℕ} {address size : ℕ} {block : MemBlock} {header : Bool}
    (h : Shape pool (front ++ address :: rest) used)
    (hblock : pool.headers[address]? = some block) (hwhole : ¬ splits block size) :
    Shape (handOut (takeBlock pool front.getLast? block size header) address size)
      (front ++ rest) (address :: used) := by
  have hchains := chains_handOut pool size h.freeChain h.usedChain (h.freeChain.behind hblock)
    hblock h.freeChain.before_notMem_rest
    (fun other hother ↦ h.disjoint other (List.mem_append_left _ hother))
    h.freeChain.notMem_others (h.disjoint address (by simp))
  unfold takeBlock
  rw [if_neg hwhole]
  refine ⟨hchains.1, hchains.2, ?_⟩
  have hlength : (handOut (setFreeLink pool front.getLast? block.next) address
      size).headers.length = pool.headers.length := by
    simp [handOut, setFreeLink]
  rw [hlength]
  calc
    front ++ rest ++ address :: used ~ front ++ address :: rest ++ used := by
      rw [List.append_assoc, List.append_assoc, List.cons_append]
      exact (List.perm_append_left_iff _).2 List.perm_middle
    _ ~ List.range pool.headers.length := h.onOneList

theorem shape_giveBack {front rest : List ℕ} {address : ℕ} {block : MemBlock}
    (h : Shape pool free (front ++ address :: rest))
    (hblock : pool.headers[address]? = some block) :
    Shape (giveBack (setUsedLink pool front.getLast? block.next) address block)
      (address :: free) (front ++ rest) := by
  have hchains := chains_giveBack h.usedChain h.freeChain hblock
    (fun other hother hfree ↦ h.disjoint other hfree (List.mem_append_left _ hother))
    (fun hfree ↦ h.disjoint address hfree (by simp))
  refine ⟨hchains.2, hchains.1, ?_⟩
  have hlength : (giveBack (setUsedLink pool front.getLast? block.next) address
      block).headers.length = pool.headers.length := by
    simp [giveBack, setUsedLink]
  rw [hlength]
  calc
    address :: free ++ (front ++ rest) ~ free ++ (front ++ address :: rest) := by
      rw [List.cons_append, ← List.append_assoc, ← List.append_assoc]
      exact List.perm_middle.symm
    _ ~ List.range pool.headers.length := h.onOneList

/-- The search of `pool_alloc` ends on a free list that ends, at the first block that is large
enough. -/
theorem firstFit_cases (h : Chain pool.headers pool.freeBlocks free) (size : ℕ) :
    ((∀ block, ¬ FirstFit pool size block) ∧
      find pool.headers (fun block ↦ decide (alignUp size ≤ block.size)) pool.freeBlocks =
        .absent) ∨
    ∃ front address rest block, free = front ++ address :: rest ∧
      pool.headers[address]? = some block ∧ alignUp size ≤ block.size ∧
      (∀ other, FirstFit pool size other ↔ other = block) ∧
      find pool.headers (fun block ↦ decide (alignUp size ≤ block.size)) pool.freeBlocks =
        .hit front.getLast? address block := by
  rcases find_cases (fun block ↦ decide (alignUp size ≤ block.size)) h with
    ⟨hfind, hnone⟩ | ⟨front, address, rest, block, rfl, hfind, hblock, hfits, hnone⟩
  · refine .inl ⟨fun block hfirst ↦ ?_, hfind⟩
    obtain ⟨front, address, rest, hchain, hblock, hfits, -⟩ := hfirst
    obtain rfl := h.unique hchain
    have := hnone address (by simp) block hblock
    simp_all
  · have hfits' : alignUp size ≤ block.size := by simpa using hfits
    refine .inr ⟨front, address, rest, block, rfl, hblock, hfits', fun other ↦ ?_, hfind⟩
    constructor
    · rintro ⟨front', address', rest', hchain, hother, hfitsOther, hnone'⟩
      have hfind' := find_hit hchain hother (by simpa using hfitsOther) hnone'
      rw [hfind] at hfind'
      injection hfind' with _ _ hcell
      exact hcell.symm
    · rintro rfl
      exact ⟨front, address, rest, h, hblock, hfits', hnone⟩

/-- What `pool_alloc` can do while the free list ends: reject a zero size, fall back to `malloc`, or
hand out the first free block that is large enough. -/
theorem poolAlloc_cases (h : Shape pool free used) (size : ℕ) (header : Bool)
    (fallback : Option ℕ) :
    (size = 0 ∧ poolAlloc pool size header fallback = some (none, pool)) ∨
    (size ≠ 0 ∧ (∀ block, ¬ FirstFit pool size block) ∧
      poolAlloc pool size header fallback = some (fallback, pool)) ∨
    ∃ front address rest block, size ≠ 0 ∧ free = front ++ address :: rest ∧
      pool.headers[address]? = some block ∧ alignUp size ≤ block.size ∧
      (∀ other, FirstFit pool size other ↔ other = block) ∧
      poolAlloc pool size header fallback = some (some block.ptr,
        handOut (takeBlock pool front.getLast? block (alignUp size) header) address
          (alignUp size)) := by
  by_cases hsize : size = 0
  · exact .inl ⟨hsize, by simp [poolAlloc, hsize]⟩
  · right
    rcases firstFit_cases h.freeChain size with
      ⟨hnone, hfind⟩ | ⟨front, address, rest, block, rfl, hblock, hfits, hfirst, hfind⟩
    · exact .inl ⟨hsize, hnone, by simp [poolAlloc, hsize, hfind]⟩
    · exact .inr ⟨front, address, rest, block, hsize, rfl, hblock, hfits, hfirst,
        by simp [poolAlloc, hsize, hfind]⟩

/-- What `pool_free` can do: ignore a null pointer, pass a foreign pointer on, or move the used
block with this pointer back to the free blocks. -/
theorem poolFree_cases (h : Shape pool free used) (ptr : Option ℕ) :
    (∃ released, poolFree pool ptr = some (released, pool)) ∨
    ∃ front address rest block, used = front ++ address :: rest ∧
      pool.headers[address]? = some block ∧ ptr = some block.ptr ∧
      poolFree pool ptr =
        some (none, giveBack (setUsedLink pool front.getLast? block.next) address block) := by
  cases ptr with
  | none => exact .inl ⟨none, rfl⟩
  | some ptr =>
    rcases find_cases (fun block ↦ decide (block.ptr = ptr)) h.usedChain with
      ⟨hfind, -⟩ | ⟨front, address, rest, block, rfl, hfind, hblock, hptr, -⟩
    · exact .inl ⟨some ptr, by simp [poolFree, hfind]⟩
    · have hptr' : block.ptr = ptr := by simpa using hptr
      exact .inr ⟨front, address, rest, block, rfl, hblock, by rw [hptr'],
        by simp [poolFree, hfind]⟩

end Shape

/-! ## The invariant -/

/-- The pool holds exactly these two lists, whose blocks partition the headers, lie apart in the
mapped region at multiples of eight, and are accounted for in `allocated`. -/
structure Represents (pool : MemoryPool) (free used : List ℕ) : Prop
    extends Shape pool free used where
  apart : (ranges pool).Pairwise Apart
  within : ∀ range ∈ ranges pool, range.Within pool.poolStart (pool.poolStart + pool.poolSize)
  aligned : ∀ range ∈ ranges pool, 8 ∣ range.start - pool.poolStart
  allocated_eq : pool.allocated = total (rangesAt pool used)

namespace Represents

variable {pool : MemoryPool} {free used : List ℕ}

theorem total_le_poolSize (h : Represents pool free used) :
    total (ranges pool) ≤ pool.poolSize := by
  simpa using total_le h.apart h.within

/-- The invariant after the block at `address` was cut down to its first `size` bytes and handed
out. -/
theorem handOut (h : Represents pool free used) {pool' : MemoryPool} {before : Option ℕ}
    {free' : List ℕ} {address size : ℕ} {block : MemBlock}
    (hpool' : pool' = Pool.handOut (takeBlock pool before block size true) address size)
    (hshape : Shape pool' free' (address :: used)) (haddress : address ∉ used)
    (haligned : 8 ∣ size) (hpoolSize : pool.poolSize < 2 ^ 64)
    (hcut : CutAt (ranges pool) address size block.range (ranges pool')) :
    Represents pool' free' (address :: used) := by
  obtain ⟨hstart', hsize', hallocated'⟩ :=
    takeBlock_start_size_allocated pool before block size true
  have hstart : pool'.poolStart = pool.poolStart := by rw [hpool']; exact hstart'
  have hsize : pool'.poolSize = pool.poolSize := by rw [hpool']; exact hsize'
  have hallocated : pool'.allocated = (pool.allocated + size) % 2 ^ 64 := by
    rw [hpool', ← hallocated']
    rfl
  have hapart := hcut.pairwise h.apart
  have hwithin := hcut.within h.within
  have hothers : rangesAt pool' used = rangesAt pool used := by
    apply rangesAt_eq
    intro other hother
    have hne : address ≠ other := fun heq ↦ haddress (heq ▸ hother)
    have hlt : other < (ranges pool).length := by
      simpa [ranges] using h.usedChain.lt_length other hother
    exact hcut.getElem?_of_ne hne hlt
  have hused : total (rangesAt pool' (address :: used)) = pool.allocated + size := calc
    total (rangesAt pool' (address :: used)) =
        total (block.range.takeBytes size :: rangesAt pool' used) :=
      congrArg total (List.filterMap_cons_some hcut.getElem?_self)
    _ = size + total (rangesAt pool used) := by rw [hothers, total_cons]; rfl
    _ = pool.allocated + size := by rw [h.allocated_eq, Nat.add_comm]
  have hlt : total (rangesAt pool' (address :: used)) < 2 ^ 64 := calc
    total (rangesAt pool' (address :: used)) ≤ total (ranges pool') := by
      rw [← hshape.total_eq]
      exact Nat.le_add_left _ _
    _ ≤ pool.poolSize := by simpa using total_le hapart hwithin
    _ < 2 ^ 64 := hpoolSize
  refine ⟨hshape, hapart, ?_, ?_, ?_⟩
  · rw [hstart, hsize]
    exact hwithin
  · rw [hstart]
    exact hcut.aligned haligned h.within h.aligned
  · rw [hallocated, hused, Nat.mod_eq_of_lt (hused ▸ hlt)]

/-- The invariant after a used block went back to the free blocks. -/
theorem giveBack {front rest : List ℕ} {address : ℕ} {block : MemBlock}
    (h : Represents pool free (front ++ address :: rest))
    (hblock : pool.headers[address]? = some block) (hpoolSize : pool.poolSize < 2 ^ 64) :
    Represents (giveBack (setUsedLink pool front.getLast? block.next) address block)
      (address :: free) (front ++ rest) := by
  have hranges : ranges (Pool.giveBack (setUsedLink pool front.getLast? block.next) address block) =
      ranges pool := by simp
  refine ⟨shape_giveBack h.toShape hblock, hranges ▸ h.apart, hranges ▸ h.within,
    hranges ▸ h.aligned, ?_⟩
  have hused : rangesAt (Pool.giveBack (setUsedLink pool front.getLast? block.next) address block)
      (front ++ rest) = rangesAt pool (front ++ rest) :=
    rangesAt_eq fun other _ ↦ by rw [hranges]
  have hhead : rangesAt pool (front ++ address :: rest) =
      rangesAt pool front ++ block.range :: rangesAt pool rest := by
    rw [rangesAt_append]
    congr 1
    exact List.filterMap_cons_some (getElem?_ranges hblock)
  have htotal : pool.allocated = total (rangesAt pool (front ++ rest)) + block.size := by
    rw [h.allocated_eq, hhead, rangesAt_append]
    simp only [total_append, total_cons, MemBlock.range]
    omega
  have hbound := h.total_le_poolSize
  have hsplit := h.toShape.total_eq
  have hallocated := h.allocated_eq
  change (pool.allocated + (2 ^ 64 - block.size)) % 2 ^ 64 = _
  rw [hused]
  omega

end Represents

/-- While headers can be allocated, `pool_alloc` returns and keeps the invariant.  It keeps the
number of bytes exactly when the block it takes is split or has the rounded size. -/
theorem poolAlloc_represents {pool : MemoryPool} {free used : List ℕ}
    (h : Represents pool free used) (hpoolSize : pool.poolSize < 2 ^ 64) (size : ℕ)
    (fallback : Option ℕ) :
    ∃ result pool' free' used', poolAlloc pool size true fallback = some (result, pool') ∧
      pool'.poolStart = pool.poolStart ∧ pool'.poolSize = pool.poolSize ∧
      Represents pool' free' used' ∧
      (total (ranges pool') = total (ranges pool) ↔ (size ≠ 0 → ∀ block,
        FirstFit pool size block → splits block (alignUp size) ∨ block.size = alignUp size)) := by
  rcases poolAlloc_cases h.toShape size true fallback with
    ⟨hzero, hresult⟩ | ⟨-, hnone, hresult⟩ |
    ⟨front, address, rest, block, hsize, rfl, hblock, hfits, hfirst, hresult⟩
  · exact ⟨none, pool, free, used, hresult, rfl, rfl, h, by simp [hzero]⟩
  · exact ⟨fallback, pool, free, used, hresult, rfl, rfl, h, by simp [hnone]⟩
  · have haddress : address ∉ used := h.disjoint address (by simp)
    have hcondition : (size ≠ 0 → ∀ other, FirstFit pool size other →
        splits other (alignUp size) ∨ other.size = alignUp size) ↔
        splits block (alignUp size) ∨ block.size = alignUp size := by
      simp [hsize, hfirst]
    have hset := total_set (getElem?_ranges hblock) (block.range.takeBytes (alignUp size))
    obtain ⟨hstart, hpoolSize', -⟩ :=
      takeBlock_start_size_allocated pool front.getLast? block (alignUp size) true
    rw [hcondition]
    by_cases hsplit : splits block (alignUp size)
    · have hranges : ranges (Pool.handOut (takeBlock pool front.getLast? block (alignUp size) true)
          address (alignUp size)) = _ := ranges_split hblock hsplit
      refine ⟨_, _, _, _, hresult, hstart, hpoolSize', h.handOut rfl
        (shape_split h.toShape hblock hsplit) haddress (eight_dvd_alignUp size) hpoolSize
        ⟨getElem?_ranges hblock, hfits, .inr hranges⟩, ?_⟩
      rw [hranges, total_append, total_cons]
      simp only [takeBytes, dropBytes, MemBlock.range, total_nil, hsplit, true_or,
        iff_true] at hset ⊢
      omega
    · have hranges : ranges (Pool.handOut (takeBlock pool front.getLast? block (alignUp size) true)
          address (alignUp size)) = _ := ranges_whole hblock hsplit
      refine ⟨_, _, _, _, hresult, hstart, hpoolSize', h.handOut rfl
        (shape_whole h.toShape hblock hsplit) haddress (eight_dvd_alignUp size) hpoolSize
        ⟨getElem?_ranges hblock, hfits, .inl hranges⟩, ?_⟩
      rw [hranges]
      simp only [takeBytes, MemBlock.range, hsplit, false_or] at hset ⊢
      omega

/-- `pool_free` returns and keeps the invariant and the number of bytes. -/
theorem poolFree_represents {pool : MemoryPool} {free used : List ℕ}
    (h : Represents pool free used) (hpoolSize : pool.poolSize < 2 ^ 64) (ptr : Option ℕ) :
    ∃ released pool' free' used', poolFree pool ptr = some (released, pool') ∧
      pool'.poolStart = pool.poolStart ∧ pool'.poolSize = pool.poolSize ∧
      Represents pool' free' used' ∧ total (ranges pool') = total (ranges pool) := by
  rcases poolFree_cases h.toShape ptr with
    ⟨released, hresult⟩ | ⟨front, address, rest, block, rfl, hblock, -, hresult⟩
  · exact ⟨released, pool, free, used, hresult, rfl, rfl, h, rfl⟩
  · exact ⟨_, _, _, _, hresult, rfl, rfl, h.giveBack hblock hpoolSize, by simp⟩

/-! ## Runs -/

/-- Every `malloc` of a header succeeds. -/
def PoolCall.HeaderAllocated : PoolCall → Prop
  | .alloc _ header _ => header = true
  | .free _ => True

/-- A call does not take a larger block whole: the first free block that is large enough, if there
is one, is split or has exactly the rounded size. -/
def FitsExactly (pool : Option MemoryPool) : PoolCall → Prop
  | .alloc size _ _ => size ≠ 0 → ∀ pool' ∈ pool, ∀ block, FirstFit pool' size block →
      splits block (alignUp size) ∨ block.size = alignUp size
  | .free _ => True

/-- No call has failed to return, and the invariant holds of the pool of this size mapped at this
address. -/
def Valid (poolStart poolSize : ℕ) (pool : Option MemoryPool) : Prop :=
  ∃ pool' free used, pool = some pool' ∧ pool'.poolStart = poolStart ∧
    pool'.poolSize = poolSize ∧ Represents pool' free used

/-- The blocks of both lists have as many bytes as the pool, so the free blocks have all of them
when no block is in use. -/
def Conserved (pool : Option MemoryPool) : Prop :=
  ∃ pool' free used, pool = some pool' ∧ Shape pool' free used ∧
    total (rangesAt pool' free) + total (rangesAt pool' used) = pool'.poolSize ∧
    (used = [] → total (rangesAt pool' free) = pool'.poolSize)

theorem conserved_some_iff {pool : MemoryPool} {free used : List ℕ} (h : Shape pool free used) :
    Conserved (some pool) ↔ total (ranges pool) = pool.poolSize := by
  constructor
  · rintro ⟨pool', free', used', heq, hshape, htotal, -⟩
    obtain rfl := Option.some.inj heq
    rw [← hshape.total_eq, htotal]
  · intro htotal
    have hsplit := h.total_eq
    refine ⟨pool, free, used, rfl, h, by omega, fun hused ↦ ?_⟩
    subst hused
    simp only [rangesAt, List.filterMap_nil, total_nil] at hsplit ⊢
    omega

theorem valid_poolCreate (poolStart poolSize : ℕ) :
    Valid poolStart poolSize (poolCreate poolSize true (some poolStart) true) := by
  refine ⟨_, [0], [], rfl, rfl, rfl, ⟨⟨⟨rfl, _, rfl, rfl⟩, rfl, by simp⟩, ?_, ?_, ?_, rfl⟩⟩
  all_goals simp [ranges, MemBlock.range, Within]

theorem conserved_poolCreate (poolStart poolSize : ℕ) :
    Conserved (poolCreate poolSize true (some poolStart) true) := by
  obtain ⟨pool, free, used, hpool, -, -, hrep⟩ := valid_poolCreate poolStart poolSize
  rw [hpool, conserved_some_iff hrep.toShape]
  obtain rfl := Option.some.inj hpool
  simp [ranges, MemBlock.range]

/-- One call keeps the invariant, and keeps all bytes exactly when it fits exactly. -/
theorem poolStep_valid {poolStart poolSize : ℕ} (hpoolSize : poolSize < 2 ^ 64)
    {pool : Option MemoryPool} (h : Valid poolStart poolSize pool) {call : PoolCall}
    (hheader : call.HeaderAllocated) :
    Valid poolStart poolSize (poolStep pool call) ∧
      (Conserved pool → (Conserved (poolStep pool call) ↔ FitsExactly pool call)) := by
  obtain ⟨pool, free, used, rfl, rfl, rfl, hrep⟩ := h
  cases call with
  | alloc size header fallback =>
    obtain rfl : header = true := hheader
    obtain ⟨result, pool', free', used', hresult, hstart, hsize, hrep', hexact⟩ :=
      poolAlloc_represents hrep hpoolSize size fallback
    have hstep : poolStep (some pool) (.alloc size true fallback) = some pool' := by
      simp [poolStep, hresult]
    rw [hstep]
    refine ⟨⟨pool', free', used', rfl, hstart, hsize, hrep'⟩, fun hconserved ↦ ?_⟩
    rw [conserved_some_iff hrep.toShape] at hconserved
    rw [conserved_some_iff hrep'.toShape, hsize, ← hconserved, hexact]
    simp [FitsExactly]
  | free ptr =>
    obtain ⟨released, pool', free', used', hresult, hstart, hsize, hrep', htotal⟩ :=
      poolFree_represents hrep hpoolSize ptr
    have hstep : poolStep (some pool) (.free ptr) = some pool' := by
      simp [poolStep, hresult]
    rw [hstep]
    refine ⟨⟨pool', free', used', rfl, hstart, hsize, hrep'⟩, fun hconserved ↦ ?_⟩
    rw [conserved_some_iff hrep.toShape] at hconserved
    rw [conserved_some_iff hrep'.toShape, hsize, ← hconserved, htotal]
    simp [FitsExactly]

/-- Every call of every run returns, and leaves two lists that partition the headers into blocks
that lie apart in the mapped region at multiples of eight, with `allocated` the number of bytes in
use.  Nothing is asked of the pointers that are freed. -/
theorem pool_valid_throughout {poolStart poolSize : ℕ} (hpoolSize : poolSize < 2 ^ 64)
    {calls : List PoolCall} (hheaders : ∀ call ∈ calls, call.HeaderAllocated) :
    Throughout poolStep (Valid poolStart poolSize)
      (poolCreate poolSize true (some poolStart) true) calls := by
  have hallowed : Along poolStep (fun _ call ↦ call.HeaderAllocated)
      (poolCreate poolSize true (some poolStart) true) calls := along_of_forall hheaders
  exact throughout_of_along (fun _ _ h hheader ↦ (poolStep_valid hpoolSize h hheader).1)
    (valid_poolCreate poolStart poolSize) hallowed

/-- Two blocks taken from a pool of the size that the program uses, one of them freed. -/
theorem pool_valid_throughout_example :
    Throughout poolStep (Valid 4096 1048576) (poolCreate 1048576 true (some 4096) true)
      [.alloc 100 true none, .alloc 1048000 true none, .free (some 4096)] :=
  pool_valid_throughout (by decide) (by simp [PoolCall.HeaderAllocated])

/-- A run of the pool keeps all bytes exactly when no allocation takes a larger block whole. -/
theorem pool_conserved_iff {poolStart poolSize : ℕ} (hpoolSize : poolSize < 2 ^ 64)
    {calls : List PoolCall} (hheaders : ∀ call ∈ calls, call.HeaderAllocated) :
    Throughout poolStep Conserved (poolCreate poolSize true (some poolStart) true) calls ↔
      Along poolStep FitsExactly (poolCreate poolSize true (some poolStart) true) calls := by
  have hallowed : Along poolStep (fun _ call ↦ call.HeaderAllocated)
      (poolCreate poolSize true (some poolStart) true) calls := along_of_forall hheaders
  exact throughout_iff_along (fun _ _ h hheader ↦ (poolStep_valid hpoolSize h hheader).1)
    (fun _ _ h hconserved hheader ↦ (poolStep_valid hpoolSize h hheader).2 hconserved)
    (valid_poolCreate poolStart poolSize) (conserved_poolCreate poolStart poolSize) hallowed

theorem pool_conserved_iff_example :
    Throughout poolStep Conserved (poolCreate 1048576 true (some 4096) true)
        [.alloc 100 true none, .free (some 4096)] ↔
      Along poolStep FitsExactly (poolCreate 1048576 true (some 4096) true)
        [.alloc 100 true none, .free (some 4096)] :=
  pool_conserved_iff (by decide) (by simp [PoolCall.HeaderAllocated])

/-- A request that leaves sixteen bytes of the pool takes the whole block, and these bytes stay
lost after the block was freed. -/
theorem pool_not_conserved :
    ¬ Throughout poolStep Conserved (poolCreate 1048576 true (some 4096) true)
      [.alloc 1048560 true none, .free (some 4096)] := by
  intro h
  obtain ⟨pool, free, used, hrun, hshape, htotal, -⟩ := h.last
  have hpool : run poolStep (poolCreate 1048576 true (some 4096) true)
      [.alloc 1048560 true none, .free (some 4096)] =
        some { freeBlocks := some 0, usedBlocks := none, poolStart := 4096, poolSize := 1048576,
               allocated := 0,
               headers := [{ ptr := 4096, size := 1048560, inUse := false, next := none }] } := by
    decide
  obtain rfl := Option.some.inj (hpool.symm.trans hrun)
  rw [hshape.total_eq] at htotal
  exact absurd htotal (by decide)

end HiFetch.Memory.Pool
