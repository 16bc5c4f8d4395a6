import HiFetch.Library.LiveList
import HiFetch.Memory.PoolFailures

/-!
# Destroying the memory pool

`pool_destroy` unmaps the region and then gives back the headers of the free and of the used blocks,
list by list.  What matters is that every header is on one of the two lists and none on both.

So the destructor is right in exactly the states that the failure path of `pool_alloc` does not
reach: it may be called at any moment of a run, and then gives back every header once, if and only
if no call of the run that splits a block fails to allocate the new header.
-/

namespace HiFetch.Memory.Pool

open LinkedHeap Transition

/-- `pool_destroy`: the headers that were passed to `free`, in order.  There is no result when a
header is read after it was passed to `free`. -/
def poolDestroy (pool : MemoryPool) : Option (List ℕ) :=
  (freeAll pool.headers [] pool.freeBlocks).bind fun freed ↦
    freeAll pool.headers freed pool.usedBlocks

/-- The pool is destroyed without reading a dead header, and every header is given back once. -/
def DestroysAll (pool : Option MemoryPool) : Prop :=
  ∃ pool', pool = some pool' ∧ ∃ freed, poolDestroy pool' = some freed ∧
    freed.Perm (List.range pool'.headers.length)

theorem poolDestroy_eq_some_iff {pool : MemoryPool} {freed : List ℕ} :
    poolDestroy pool = some freed ↔
      ∃ free used, Chain pool.headers pool.freeBlocks free ∧
        Chain pool.headers pool.usedBlocks used ∧ (∀ address ∈ used, address ∉ free) ∧
        freed = free ++ used := by
  unfold poolDestroy
  rw [Option.bind_eq_some_iff]
  simp only [freeAll_eq_some_iff, List.nil_append]
  constructor
  · rintro ⟨first, ⟨free, hfree, -, hfirst⟩, used, hused, hlive, rfl⟩
    subst hfirst
    exact ⟨first, used, hfree, hused, hlive, rfl⟩
  · rintro ⟨free, used, hfree, hused, hlive, rfl⟩
    exact ⟨free, ⟨free, hfree, by simp, rfl⟩, used, hused, hlive, rfl⟩

/-- The destructor is right exactly where both lists end and every header is on one of them. -/
theorem destroysAll_iff_sound (pool : Option MemoryPool) : DestroysAll pool ↔ Sound pool := by
  constructor
  · rintro ⟨pool, rfl, freed, hdestroy, hperm⟩
    obtain ⟨free, used, hfree, hused, -, rfl⟩ := poolDestroy_eq_some_iff.1 hdestroy
    exact ⟨pool, free, used, rfl, hfree, hused, hperm⟩
  · rintro ⟨pool, free, used, rfl, hshape⟩
    have hdisjoint : ∀ address ∈ used, address ∉ free :=
      fun address hused hfree ↦ hshape.disjoint address hfree hused
    exact ⟨pool, rfl, free ++ used, poolDestroy_eq_some_iff.2
      ⟨free, used, hshape.freeChain, hshape.usedChain, hdisjoint, rfl⟩, hshape.onOneList⟩

/-- At every moment of a run `pool_destroy` would give back every header that was ever allocated,
each once, exactly when no call of the run that splits a block fails to allocate the new header.
Nothing is asked of the sizes and of the pointers that are freed. -/
theorem destroysAll_throughout_iff (poolStart poolSize : ℕ) (header : Bool)
    (calls : List PoolCall) :
    Throughout poolStep DestroysAll (poolCreate poolSize true (some poolStart) header) calls ↔
      Along poolStep HeaderForSplit (poolCreate poolSize true (some poolStart) header) calls := by
  have hstart := (destroysAll_iff_sound _).2 (sound_poolCreate poolStart poolSize header)
  have hallowed : Along poolStep (fun _ _ ↦ True)
      (poolCreate poolSize true (some poolStart) header) calls := along_of_forall fun _ _ ↦ trivial
  refine throughout_iff_along_of_step (fun pool call h _ ↦ ?_) hstart hallowed
  rw [destroysAll_iff_sound] at h ⊢
  exact sound_step_iff h call

-- After a failed split the block is on both lists, and its header is read after it was freed.
example : (run poolStep (poolCreate 1048576 true (some 4096) true)
    [.alloc 100 false none]).map poolDestroy = some none := by decide

end HiFetch.Memory.Pool
