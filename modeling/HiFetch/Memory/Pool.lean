import HiFetch.Library.ByteRange
import HiFetch.Library.LinkedHeap
import HiFetch.Library.Transition
import Mathlib.Tactic.SplitIfs

/-!
# The memory pool

`pool_create` maps one region and describes it by a single free `MemBlock`.  `pool_alloc` takes the
first free block that is large enough, splits it or hands it out whole, and moves it to the list of
used blocks; `pool_free` moves it back.

The block headers come from `malloc` and live in a heap of their own: `headers` lists them in the
order of their allocation, and a link is a position in that list.  Nothing is assumed about the
links, so the failure path of `pool_alloc`, which leaves one header on both lists, is modelled as
the code runs it.  The results of `malloc` and `mmap` are arguments.  Sizes are `size_t` values,
with the wrap-around written out, and `none` stands for a call whose search loop never ends.
-/

namespace HiFetch.Memory.Pool

open LinkedHeap

structure MemBlock where
  ptr : ℕ
  size : ℕ
  inUse : Bool
  next : Option ℕ
deriving DecidableEq, Repr

/-- `sizeof(MemBlock)` on a 64-bit machine: two words, an `int` with padding, and a pointer. -/
def sizeofMemBlock : ℕ := 32

instance : Linked MemBlock where
  next := MemBlock.next
  setNext block link := { block with next := link }
  next_setNext _ _ := rfl

/-- The bytes that a header describes. -/
def MemBlock.range (block : MemBlock) : ByteRange := ⟨block.ptr, block.size⟩

structure MemoryPool where
  freeBlocks : Option ℕ
  usedBlocks : Option ℕ
  poolStart : ℕ
  poolSize : ℕ
  allocated : ℕ
  headers : Heap MemBlock
deriving DecidableEq, Repr

/-- `size = (size + 7) & ~7` in `size_t` arithmetic. -/
def alignUp (size : ℕ) : ℕ := (size + 7) % 2 ^ 64 &&& (2 ^ 64 - 8)

/-- `pool_create`, given the results of `malloc(sizeof(MemoryPool))`, of `mmap` and of the `malloc`
of the first header. -/
def poolCreate (size : ℕ) (struct : Bool) (mapping : Option ℕ) (header : Bool) :
    Option MemoryPool :=
  match struct, mapping with
  | true, some poolStart =>
      if header then
        some
          { freeBlocks := some 0, usedBlocks := none, poolStart, poolSize := size, allocated := 0,
            headers := [{ ptr := poolStart, size, inUse := false, next := none }] }
      else
        some
          { freeBlocks := none, usedBlocks := none, poolStart, poolSize := size, allocated := 0,
            headers := [] }
  | _, _ => none

/-- `*current = target` on the free list. -/
def setFreeLink (pool : MemoryPool) (before target : Option ℕ) : MemoryPool :=
  { pool with
    headers := (relink pool.headers pool.freeBlocks before target).1
    freeBlocks := (relink pool.headers pool.freeBlocks before target).2 }

/-- `*current = target` on the list of used blocks. -/
def setUsedLink (pool : MemoryPool) (before target : Option ℕ) : MemoryPool :=
  { pool with
    headers := (relink pool.headers pool.usedBlocks before target).1
    usedBlocks := (relink pool.headers pool.usedBlocks before target).2 }

/-- The block is larger than the request by more than a header, so `pool_alloc` wants to split. -/
def splits (block : MemBlock) (size : ℕ) : Prop :=
  (size + sizeofMemBlock) % 2 ^ 64 < block.size

instance (block : MemBlock) (size : ℕ) : Decidable (splits block size) :=
  inferInstanceAs (Decidable (_ < _))

/-- The header of the part that `pool_alloc` leaves free. -/
def remainder (block : MemBlock) (size : ℕ) : MemBlock :=
  { ptr := block.ptr + size, size := block.size - size, inUse := false, next := block.next }

/-- Take the block found at `before` off the free list.  When the header of the remainder cannot be
allocated, the free list is left as it is. -/
def takeBlock (pool : MemoryPool) (before : Option ℕ) (block : MemBlock) (size : ℕ)
    (header : Bool) : MemoryPool :=
  if splits block size then
    if header then
      setFreeLink { pool with headers := pool.headers ++ [remainder block size] } before
        (some pool.headers.length)
    else pool
  else setFreeLink pool before block.next

/-- Put the block at the front of the used blocks with the size of the request. -/
def handOut (pool : MemoryPool) (address size : ℕ) : MemoryPool :=
  { pool with
    headers := pool.headers.modify address fun block ↦
      { block with size, inUse := true, next := pool.usedBlocks }
    usedBlocks := some address
    allocated := (pool.allocated + size) % 2 ^ 64 }

/-- `pool_alloc`: the pointer returned and the pool, given whether the `malloc` of a header
succeeds and what the fallback `malloc(size)` returns. -/
def poolAlloc (pool : MemoryPool) (size : ℕ) (header : Bool) (fallback : Option ℕ) :
    Option (Option ℕ × MemoryPool) :=
  if size = 0 then some (none, pool)
  else
    match find pool.headers (fun block ↦ decide (alignUp size ≤ block.size)) pool.freeBlocks with
    | .endless => none
    | .absent => some (fallback, pool)
    | .hit before address block =>
        some (some block.ptr,
          handOut (takeBlock pool before block (alignUp size) header) address (alignUp size))

/-- Put the block back at the front of the free blocks. -/
def giveBack (pool : MemoryPool) (address : ℕ) (block : MemBlock) : MemoryPool :=
  { pool with
    headers := pool.headers.modify address fun block ↦
      { block with inUse := false, next := pool.freeBlocks }
    freeBlocks := some address
    allocated := (pool.allocated + (2 ^ 64 - block.size)) % 2 ^ 64 }

/-- `pool_free`: the pointer passed on to `free`, if any, and the pool. -/
def poolFree (pool : MemoryPool) (ptr : Option ℕ) : Option (Option ℕ × MemoryPool) :=
  match ptr with
  | none => some (none, pool)
  | some ptr =>
      match find pool.headers (fun block ↦ decide (block.ptr = ptr)) pool.usedBlocks with
      | .endless => none
      | .absent => some (some ptr, pool)
      | .hit before address block =>
          some (none, giveBack (setUsedLink pool before block.next) address block)

/-- A call of a client, with the allocator results that it meets. -/
inductive PoolCall where
  | alloc (size : ℕ) (header : Bool) (fallback : Option ℕ)
  | free (ptr : Option ℕ)

/-- The pool after a call; once a call has not returned, no later call does. -/
def poolStep (pool : Option MemoryPool) : PoolCall → Option MemoryPool
  | .alloc size header fallback =>
      pool.bind fun pool ↦ (poolAlloc pool size header fallback).map Prod.snd
  | .free ptr => pool.bind fun pool ↦ (poolFree pool ptr).map Prod.snd

/-! ## Rounding -/

/-- Masking with `~7` clears the low three bits. -/
theorem land_clearLow {word : ℕ} (h : word < 2 ^ 64) : word &&& (2 ^ 64 - 8) = word / 8 * 8 := by
  have hmask : 2 ^ 64 - 8 = (2 ^ 61 - 1) <<< 3 := by decide
  have hround : word / 8 * 8 = word >>> 3 <<< 3 := by
    rw [Nat.shiftLeft_eq, Nat.shiftRight_eq_div_pow]
  rw [hmask, hround]
  apply Nat.eq_of_testBit_eq
  intro bit
  simp only [Nat.testBit_and, Nat.testBit_shiftLeft, Nat.testBit_two_pow_sub_one,
    Nat.testBit_shiftRight]
  by_cases hlow : 3 ≤ bit
  · by_cases hhigh : bit < 64
    · have hbit : bit - 3 < 61 := by omega
      simp [hlow, hbit]
    · have hzero : word.testBit bit = false :=
        Nat.testBit_lt_two_pow (h.trans_le (Nat.pow_le_pow_right (by decide) (by omega)))
      have hbit : 3 + (bit - 3) = bit := by omega
      simp [hlow, hbit, hzero]
  · simp [hlow]

theorem alignUp_eq (size : ℕ) : alignUp size = (size + 7) % 2 ^ 64 / 8 * 8 :=
  land_clearLow (Nat.mod_lt _ (by decide))

theorem eight_dvd_alignUp (size : ℕ) : 8 ∣ alignUp size := by
  rw [alignUp_eq]
  exact Nat.dvd_mul_left 8 _

/-! ## The two lists -/

/-- Both lists end in null, and every header is on exactly one of them. -/
structure Shape (pool : MemoryPool) (free used : List ℕ) : Prop where
  freeChain : Chain pool.headers pool.freeBlocks free
  usedChain : Chain pool.headers pool.usedBlocks used
  onOneList : (free ++ used).Perm (List.range pool.headers.length)

namespace Shape

variable {pool : MemoryPool} {free used : List ℕ}

theorem nodup (h : Shape pool free used) : (free ++ used).Nodup :=
  h.onOneList.nodup_iff.2 List.nodup_range

theorem disjoint (h : Shape pool free used) : ∀ address ∈ free, address ∉ used :=
  fun _ hfree hused ↦ (List.nodup_append.1 h.nodup).2.2 _ hfree _ hused rfl

end Shape

/-- Replacing the free chain from a block on, and pushing that block to the used blocks. -/
theorem chains_handOut (pool : MemoryPool) {front rest new used : List ℕ} {address : ℕ}
    {block : MemBlock} {target : Option ℕ} (size : ℕ)
    (hfree : Chain pool.headers pool.freeBlocks (front ++ address :: rest))
    (hused : Chain pool.headers pool.usedBlocks used)
    (htarget : Chain pool.headers target new)
    (hblock : pool.headers[address]? = some block)
    (hnew : ∀ other ∈ front, other ∉ new) (hfront : ∀ other ∈ front, other ∉ used)
    (haddress : address ∉ front ++ new) (haddress' : address ∉ used) :
    Chain (handOut (setFreeLink pool front.getLast? target) address size).headers
        (handOut (setFreeLink pool front.getLast? target) address size).freeBlocks
        (front ++ new) ∧
      Chain (handOut (setFreeLink pool front.getLast? target) address size).headers
        (handOut (setFreeLink pool front.getLast? target) address size).usedBlocks
        (address :: used) := by
  have hlast : front.getLast? ≠ some address := fun heq ↦
    haddress (List.mem_append_left _ (List.mem_of_getLast? heq))
  constructor
  · exact (hfree.relink htarget hnew).modify haddress _
  · have hkept := (hused.relink_frame pool.freeBlocks target hfront).modify
      haddress' fun block ↦ { block with size, inUse := true, next := pool.usedBlocks }
    have hcell : (handOut (setFreeLink pool front.getLast? target) address size).headers[address]? =
        some { block with size, inUse := true, next := pool.usedBlocks } := by
      change (List.modify _ address _)[address]? = _
      rw [List.getElem?_modify_eq, setFreeLink, relink_getElem? hlast, hblock]
      rfl
    exact hkept.push hcell rfl

/-- Unlinking a used block, and pushing it to the free blocks. -/
theorem chains_giveBack {pool : MemoryPool} {front rest free : List ℕ} {address : ℕ}
    {block : MemBlock} (hused : Chain pool.headers pool.usedBlocks (front ++ address :: rest))
    (hfree : Chain pool.headers pool.freeBlocks free)
    (hblock : pool.headers[address]? = some block)
    (hfront : ∀ other ∈ front, other ∉ free) (haddress : address ∉ free) :
    Chain (giveBack (setUsedLink pool front.getLast? block.next) address block).headers
        (giveBack (setUsedLink pool front.getLast? block.next) address block).usedBlocks
        (front ++ rest) ∧
      Chain (giveBack (setUsedLink pool front.getLast? block.next) address block).headers
        (giveBack (setUsedLink pool front.getLast? block.next) address block).freeBlocks
        (address :: free) := by
  have hothers := hused.notMem_others
  have hlast : front.getLast? ≠ some address := fun heq ↦
    hothers (List.mem_append_left _ (List.mem_of_getLast? heq))
  constructor
  · exact (hused.relink (hused.behind hblock) hused.before_notMem_rest).modify hothers _
  · have hkept := (hfree.relink_frame pool.usedBlocks block.next hfront).modify haddress
      fun block ↦ { block with inUse := false, next := pool.freeBlocks }
    have hcell :
        (giveBack (setUsedLink pool front.getLast? block.next) address block).headers[address]? =
          some { block with inUse := false, next := pool.freeBlocks } := by
      change (List.modify _ address _)[address]? = _
      rw [List.getElem?_modify_eq, setUsedLink, relink_getElem? hlast, hblock]
      rfl
    exact hkept.push hcell rfl

end HiFetch.Memory.Pool
