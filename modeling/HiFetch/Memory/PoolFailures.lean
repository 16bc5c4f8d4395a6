import HiFetch.Memory.PoolInvariant

/-!
# The memory pool when a header cannot be allocated

When `pool_alloc` wants to split a block and the `malloc` of the new header fails, it leaves the
block on the free list and pushes it to the used blocks as well.  From there the lists share cells:
a later call hands the block out again, and the list of used blocks runs into itself.

The damage is exact.  A call keeps the headers on one list each if and only if it does not meet a
failed `malloc` for a block that it splits, and as long as this is so, no block is handed out twice
and every search loop ends.  Nothing is asked of the sizes and of the pointers that are freed.
-/

namespace HiFetch.Memory.Pool

open LinkedHeap Transition

/-! ## The history of the blocks -/

/-- What a call does with a block: `pool_alloc` returns its pointer, or `pool_free` puts it back. -/
inductive PoolEvent where
  | handsOut (block : ℕ)
  | takesBack (block : ℕ)
  | quiet
deriving DecidableEq

def poolEvent (pool : Option MemoryPool) : PoolCall → PoolEvent
  | .alloc size _ _ =>
      match pool with
      | none => .quiet
      | some pool =>
          if size = 0 then .quiet
          else
            match find pool.headers (fun block ↦ decide (alignUp size ≤ block.size))
              pool.freeBlocks with
            | .hit _ address _ => .handsOut address
            | _ => .quiet
  | .free none => .quiet
  | .free (some ptr) =>
      match pool with
      | none => .quiet
      | some pool =>
          match find pool.headers (fun block ↦ decide (block.ptr = ptr)) pool.usedBlocks with
          | .hit _ address _ => .takesBack address
          | _ => .quiet

/-- The block that is handed out is the one whose pointer is returned. -/
theorem poolAlloc_of_handsOut {pool : MemoryPool} {size address : ℕ} {header : Bool}
    {fallback : Option ℕ}
    (h : poolEvent (some pool) (.alloc size header fallback) = .handsOut address) :
    ∃ before block, find pool.headers (fun block ↦ decide (alignUp size ≤ block.size))
        pool.freeBlocks = .hit before address block ∧
      (poolAlloc pool size header fallback).map Prod.fst = some (some block.ptr) := by
  by_cases hsize : size = 0
  · simp [poolEvent, hsize] at h
  · cases hfind : find pool.headers (fun block ↦ decide (alignUp size ≤ block.size))
      pool.freeBlocks with
    | endless => simp [poolEvent, hsize, hfind] at h
    | absent => simp [poolEvent, hsize, hfind] at h
    | hit before found block =>
      have hfound : found = address := by simpa [poolEvent, hsize, hfind] using h
      exact ⟨before, block, by rw [hfound], by simp [poolAlloc, hsize, hfind]⟩

/-- What an event does to the list of used blocks. -/
def Moves (used used' : List ℕ) : PoolEvent → Prop
  | .handsOut block => block ∉ used ∧ used' = block :: used
  | .takesBack block => ∀ other ∈ used, other ≠ block → other ∈ used'
  | .quiet => used' = used

/-- A call that splits a block can allocate the new header. -/
def HeaderForSplit (pool : Option MemoryPool) : PoolCall → Prop
  | .alloc size header _ => size ≠ 0 → ∀ pool' ∈ pool, ∀ block, FirstFit pool' size block →
      splits block (alignUp size) → header
  | .free _ => True

/-- No call has failed to return, and every header is on exactly one of two lists that end. -/
def Sound (pool : Option MemoryPool) : Prop :=
  ∃ pool' free used, pool = some pool' ∧ Shape pool' free used

theorem sound_poolCreate (poolStart poolSize : ℕ) (header : Bool) :
    Sound (poolCreate poolSize true (some poolStart) header) := by
  cases header with
  | true => exact ⟨_, [0], [], rfl, ⟨rfl, _, rfl, rfl⟩, rfl, by simp⟩
  | false => exact ⟨_, [], [], rfl, rfl, rfl, by simp⟩

section Call

variable {pool : MemoryPool} {free used : List ℕ}

/-- The failure path: the block stays on the free list and is pushed to the used blocks. -/
theorem not_sound_handOut {front rest : List ℕ} {address : ℕ}
    (h : Shape pool (front ++ address :: rest) used) (size : ℕ) :
    ¬Sound (some (handOut pool address size)) := by
  rintro ⟨pool', free', used', heq, hshape⟩
  obtain rfl := Option.some.inj heq
  have hfree : address ∈ free' := h.freeChain.mem_of_modify hshape.freeChain
  have hused : address ∈ used' := by
    have hchain := hshape.usedChain
    cases used' with
    | nil => simp [handOut] at hchain
    | cons head tail =>
      obtain rfl := Option.some.inj hchain.1
      exact List.mem_cons_self
  exact hshape.disjoint address hfree hused

/-- `pool_alloc` with a header for every split keeps the lists sound, and returns a block that is
not in use. -/
theorem poolAlloc_sound (h : Shape pool free used) {size : ℕ} {header : Bool} {fallback : Option ℕ}
    (hheader : HeaderForSplit (some pool) (.alloc size header fallback)) :
    ∃ pool' free' used', poolStep (some pool) (.alloc size header fallback) = some pool' ∧
      Shape pool' free' used' ∧
      Moves used used' (poolEvent (some pool) (.alloc size header fallback)) := by
  by_cases hsize : size = 0
  · exact ⟨pool, free, used, by simp [poolStep, poolAlloc, hsize], h,
      by simp [poolEvent, hsize, Moves]⟩
  · rcases firstFit_cases h.freeChain size with
      ⟨-, hfind⟩ | ⟨front, address, rest, block, rfl, hblock, hfits, hfirst, hfind⟩
    · exact ⟨pool, free, used, by simp [poolStep, poolAlloc, hsize, hfind], h,
        by simp [poolEvent, hsize, hfind, Moves]⟩
    · have hevent : Moves used (address :: used)
          (poolEvent (some pool) (.alloc size header fallback)) := by
        have hnot := h.disjoint address (by simp)
        simp [poolEvent, hsize, hfind, Moves, hnot]
      have hstep : poolStep (some pool) (.alloc size header fallback) =
          some (handOut (takeBlock pool front.getLast? block (alignUp size) header) address
            (alignUp size)) := by
        simp [poolStep, poolAlloc, hsize, hfind]
      by_cases hsplit : splits block (alignUp size)
      · obtain rfl : header = true :=
          hheader hsize pool rfl block ((hfirst block).2 rfl) hsplit
        exact ⟨_, _, _, hstep, shape_split h hblock hsplit, hevent⟩
      · exact ⟨_, _, _, hstep, shape_whole h hblock hsplit, hevent⟩

/-- Without a header for a split, the block ends up on both lists. -/
theorem headerForSplit_of_sound (h : Shape pool free used) {size : ℕ} {header : Bool}
    {fallback : Option ℕ} (hsound : Sound (poolStep (some pool) (.alloc size header fallback))) :
    HeaderForSplit (some pool) (.alloc size header fallback) := by
  intro hsize pool' hpool block hfirst hsplit
  obtain rfl := Option.some.inj hpool
  rcases poolAlloc_cases h size header fallback with
    ⟨hzero, -⟩ | ⟨-, hnone, -⟩ | ⟨front, address, rest, other, -, rfl, -, -, hunique, hresult⟩
  · exact absurd hzero hsize
  · exact absurd hfirst (hnone block)
  · obtain rfl := (hunique block).1 hfirst
    by_contra hheader
    have hstep : poolStep (some pool) (.alloc size header fallback) =
        some (handOut pool address (alignUp size)) := by
      simp [poolStep, hresult, takeBlock, hsplit, hheader]
    rw [hstep] at hsound
    exact not_sound_handOut h (alignUp size) hsound

/-- `pool_free` keeps the lists sound, and what it takes off the used blocks is the block that it
puts back. -/
theorem poolFree_sound (h : Shape pool free used) (ptr : Option ℕ) :
    ∃ pool' free' used', poolStep (some pool) (.free ptr) = some pool' ∧
      Shape pool' free' used' ∧ Moves used used' (poolEvent (some pool) (.free ptr)) := by
  cases ptr with
  | none => exact ⟨pool, free, used, rfl, h, rfl⟩
  | some ptr =>
    rcases find_cases (fun block ↦ decide (block.ptr = ptr)) h.usedChain with
      ⟨hfind, -⟩ | ⟨front, address, rest, block, rfl, hfind, hblock, -, -⟩
    · exact ⟨pool, free, used, by simp [poolStep, poolFree, hfind], h,
        by simp [poolEvent, hfind, Moves]⟩
    · refine ⟨_, _, _, by simp [poolStep, poolFree, hfind], shape_giveBack h hblock, ?_⟩
      simp only [poolEvent, hfind, Moves]
      intro other hother hne
      simpa [hne] using hother

end Call

/-- A sound call does to the list of used blocks what its event says. -/
theorem poolStep_sound {pool : MemoryPool} {free used : List ℕ} (h : Shape pool free used)
    {call : PoolCall} (hheader : HeaderForSplit (some pool) call) :
    ∃ pool' free' used', poolStep (some pool) call = some pool' ∧ Shape pool' free' used' ∧
      Moves used used' (poolEvent (some pool) call) := by
  cases call with
  | alloc size header fallback => exact poolAlloc_sound h hheader
  | free ptr => exact poolFree_sound h ptr

theorem sound_step_iff {pool : Option MemoryPool} (h : Sound pool) (call : PoolCall) :
    Sound (poolStep pool call) ↔ HeaderForSplit pool call := by
  obtain ⟨pool, free, used, rfl, hshape⟩ := h
  constructor
  · intro hsound
    cases call with
    | alloc size header fallback => exact headerForSplit_of_sound hshape hsound
    | free ptr => trivial
  · intro hheader
    obtain ⟨pool', free', used', hstep, hshape', -⟩ := poolStep_sound hshape hheader
    exact ⟨pool', free', used', hstep, hshape'⟩

/-! ## Runs -/

-- The used block then points to itself, so a search for another pointer does not end.
example : run poolStep (poolCreate 1048576 true (some 4096) true)
    [.alloc 100 false none, .alloc 100 true none, .free (some 1)] = none := by decide

end HiFetch.Memory.Pool
