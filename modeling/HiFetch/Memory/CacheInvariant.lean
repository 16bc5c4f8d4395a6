import HiFetch.Memory.Cache

/-!
# Chains and counters of the cache

Deleting and cleaning up release items: the released items leave the contents, and the counters
drop by their number and their sizes.  Inserting adds one item to the contents and to the counters.
Overwriting replaces an item in the contents and leaves the counters alone.

So `total_items` always counts the items.  The chains are well formed as long as every inserted key
is stored in full, or its stored part happens to be new and to have the same hash.  `total_memory`
is the sum of the data sizes as long as overwriting does not change the size of an item.
-/

namespace HiFetch.Memory.ResultCache

open KeyedTable Transition

def Cache.contents (cache : Cache) : Multiset CacheItem := KeyedTable.contents cache.buckets

/-- The sum of `data_size` over all items. -/
def Cache.dataTotal (cache : Cache) : ℕ := (cache.contents.map CacheItem.dataSize).sum

/-! ## Releasing items -/

/-- The second cache is the first one without the released items. -/
structure Released (before after : Cache) (released : Multiset CacheItem) : Prop where
  contents_eq : before.contents = after.contents + released
  totalItems_eq : before.totalItems = after.totalItems + BitVec.ofNat 32 released.card
  totalMemory_eq : before.totalMemory =
    after.totalMemory + BitVec.ofNat 64 (released.map CacheItem.dataSize).sum

theorem released_refl (cache : Cache) : Released cache cache 0 :=
  ⟨by simp, by simp, by simp⟩

theorem Released.trans {first second third : Cache} {released later : Multiset CacheItem}
    (h : Released first second released) (hlater : Released second third later) :
    Released first third (later + released) := by
  refine ⟨?_, ?_, ?_⟩
  · rw [h.contents_eq, hlater.contents_eq, add_assoc]
  · rw [h.totalItems_eq, hlater.totalItems_eq, Multiset.card_add, BitVec.ofNat_add,
      BitVec.add_assoc]
  · rw [h.totalMemory_eq, hlater.totalMemory_eq, Multiset.map_add, Multiset.sum_add,
      BitVec.ofNat_add, BitVec.add_assoc]

/-- The counters after a list of items has been released. -/
theorem foldl_release (items : List CacheItem) (cache : Cache) :
    (items.foldl Cache.release cache).buckets = cache.buckets ∧
      cache.totalItems =
        (items.foldl Cache.release cache).totalItems + BitVec.ofNat 32 items.length ∧
      cache.totalMemory = (items.foldl Cache.release cache).totalMemory +
        BitVec.ofNat 64 (items.map CacheItem.dataSize).sum := by
  induction items generalizing cache with
  | nil => simp
  | cons item rest ih =>
    obtain ⟨hbuckets, hitems, hmemory⟩ := ih (cache.release item)
    refine ⟨hbuckets, ?_, ?_⟩
    · rw [List.foldl_cons, List.length_cons, BitVec.ofNat_add, ← BitVec.add_assoc, ← hitems]
      exact (BitVec.sub_add_cancel _ _).symm
    · rw [List.foldl_cons, List.map_cons, List.sum_cons, Nat.add_comm, BitVec.ofNat_add,
        ← BitVec.add_assoc, ← hmemory]
      exact (BitVec.sub_add_cancel _ _).symm

theorem cacheDelete_released (cache : Cache) (key : CString) :
    (lookup cache key = none ∧ cacheDelete cache key = cache) ∨
      ∃ item, lookup cache key = some item ∧ Released cache (cacheDelete cache key) {item} := by
  cases hlookup : lookup cache key with
  | none => exact .inl ⟨rfl, by rw [cacheDelete, hlookup]⟩
  | some item =>
    refine .inr ⟨item, rfl, ?_, ?_, ?_⟩
    · unfold cacheDelete
      rw [hlookup, ← Multiset.cons_zero, Multiset.add_cons, add_zero]
      exact contents_eraseP cache.buckets (hashKey key) hlookup
    · unfold cacheDelete
      rw [hlookup, Multiset.card_singleton]
      exact (BitVec.sub_add_cancel _ _).symm
    · unfold cacheDelete
      rw [hlookup, Multiset.map_singleton, Multiset.sum_singleton]
      exact (BitVec.sub_add_cancel _ _).symm

/-- Deleting a key releases the item that it finds, or nothing. -/
theorem exists_released_cacheDelete (cache : Cache) (key : CString) :
    ∃ released, Released cache (cacheDelete cache key) released := by
  rcases cacheDelete_released cache key with ⟨-, hdelete⟩ | ⟨item, -, hreleased⟩
  · exact ⟨0, by rw [hdelete]; exact released_refl cache⟩
  · exact ⟨{item}, hreleased⟩

theorem cleanBucket_released (now : ℤ) (cache : Cache) (bucket : Fin 256) :
    Released cache (cleanBucket now cache bucket)
      ((cache.buckets bucket).filter fun item ↦ expired now item : List CacheItem) := by
  have hfold := foldl_release ((cache.buckets bucket).filter fun item ↦ expired now item) cache
  refine ⟨?_, ?_, ?_⟩
  · have h := contents_filter cache.buckets bucket fun item ↦ !expired now item
    simpa [Cache.contents] using h
  · simpa [cleanBucket, cleanChain_eq] using hfold.2.1
  · simpa [cleanBucket, cleanChain_eq] using hfold.2.2

/-- Cleaning up releases expired items only. -/
theorem cacheCleanupExpired_released (cache : Cache) (now : ℤ) :
    ∃ released : Multiset CacheItem, Released cache (cacheCleanupExpired cache now) released ∧
      ∀ item ∈ released, expired now item := by
  unfold cacheCleanupExpired
  induction List.finRange 256 generalizing cache with
  | nil => exact ⟨0, released_refl cache, by simp⟩
  | cons bucket rest ih =>
    obtain ⟨released, hrest, hexpired⟩ := ih (cleanBucket now cache bucket)
    refine ⟨_, (cleanBucket_released now cache bucket).trans hrest, fun item hmem ↦ ?_⟩
    rcases Multiset.mem_add.1 hmem with hlater | hfirst
    · exact hexpired item hlater
    · exact (List.mem_filter.1 hfirst).2

/-- Every call other than `cache_set` releases items. -/
theorem cacheStep_cases (cache : Cache) (call : CacheCall) :
    (∃ key data itemAllocated dataAllocated now,
        call = .set key data itemAllocated dataAllocated now) ∨
      ((∀ key data itemAllocated dataAllocated now,
        call ≠ .set key data itemAllocated dataAllocated now) ∧
        ∃ released, Released cache (cacheStep cache call) released) := by
  cases call with
  | set key data itemAllocated dataAllocated now => exact .inl ⟨_, _, _, _, _, rfl⟩
  | get key allocated now =>
    refine .inr ⟨by simp, ?_⟩
    rcases cacheGet_cases cache key allocated now with ⟨-, hget⟩ | ⟨-, hget⟩
    · rw [cacheStep, hget]
      exact exists_released_cacheDelete cache key
    · rw [cacheStep, hget]
      exact ⟨0, released_refl cache⟩
  | delete key => exact .inr ⟨by simp, exists_released_cacheDelete cache key⟩
  | cleanupExpired now =>
    obtain ⟨released, hreleased, -⟩ := cacheCleanupExpired_released cache now
    exact .inr ⟨by simp, released, hreleased⟩

/-! ## Setting -/

/-- Overwriting replaces one item. -/
theorem contents_modify {cache : Cache} {key : CString} {item : CacheItem}
    (hlookup : lookup cache key = some item) (change : CacheItem → CacheItem) :
    ∃ rest, cache.contents = item ::ₘ rest ∧
      (cache.modify key change).contents = change item ::ₘ rest :=
  ⟨_, contents_eraseP cache.buckets (hashKey key) hlookup,
    KeyedTable.contents_modifyFirst cache.buckets (hashKey key) hlookup⟩

theorem contents_push (cache : Cache) (key : CString) (item : CacheItem) :
    (cache.push key item).contents = item ::ₘ cache.contents :=
  KeyedTable.contents_push cache.buckets (hashKey key) item

/-- `total_items` is the number of items, as a C `int`. -/
def Cache.Counted (cache : Cache) : Prop :=
  cache.totalItems = BitVec.ofNat 32 cache.contents.card

theorem Released.counted {before after : Cache} {released : Multiset CacheItem}
    (h : Released before after released) (hcounted : before.Counted) : after.Counted := by
  rw [Cache.Counted, h.contents_eq, Multiset.card_add, BitVec.ofNat_add, h.totalItems_eq]
    at hcounted
  exact (BitVec.add_left_inj _).1 hcounted

theorem counted_cacheCreate : cacheCreate.Counted := by
  simp [Cache.Counted, Cache.contents, cacheCreate]

/-- Every call keeps `total_items` right. -/
theorem counted_step {cache : Cache} (h : cache.Counted) (call : CacheCall) :
    (cacheStep cache call).Counted := by
  rcases cacheStep_cases cache call with
    ⟨key, data, itemAllocated, dataAllocated, now, rfl⟩ | ⟨-, released, hreleased⟩
  · have hmodify : ∀ item change, lookup cache key = some item →
        (cache.modify key change).Counted := by
      intro item change hlookup
      obtain ⟨rest, hbefore, hafter⟩ := contents_modify hlookup change
      unfold Cache.Counted
      rw [hafter, Multiset.card_cons]
      unfold Cache.Counted at h
      rw [hbefore, Multiset.card_cons] at h
      exact h
    rw [cacheStep]
    rcases cacheSet_cases cache key data itemAllocated dataAllocated now with
      ⟨hset, -⟩ | ⟨item, hlookup, -, -, hset⟩ | ⟨item, hlookup, -, -, hset⟩ | ⟨-, -, -, -, hset⟩
    · rwa [hset]
    · rw [hset]
      exact hmodify item _ hlookup
    · rw [hset]
      exact hmodify item _ hlookup
    · rw [hset, Cache.Counted, contents_push, Multiset.card_cons, BitVec.ofNat_add, ← h]
      rfl
  · exact hreleased.counted h

/-! ## Chains -/

/-- Every item is in the bucket of its key, and no two items have the same key. -/
def Cache.ChainsWellFormed (cache : Cache) : Prop :=
  WellFormed hashKey CacheItem.key cache.buckets

theorem chainsWellFormed_cacheCreate : cacheCreate.ChainsWellFormed := wellFormed_empty

namespace Cache.ChainsWellFormed

variable {cache : Cache}

theorem modify (h : cache.ChainsWellFormed) (key : CString) {change : CacheItem → CacheItem}
    (hchange : ∀ item, (change item).key = item.key) :
    (cache.modify key change).ChainsWellFormed :=
  WellFormed.modifyFirst h hchange

theorem cacheDelete (h : cache.ChainsWellFormed) (key : CString) :
    (cacheDelete cache key).ChainsWellFormed := by
  cases hlookup : lookup cache key with
  | none => rwa [ResultCache.cacheDelete, hlookup]
  | some item =>
    rw [ResultCache.cacheDelete, hlookup]
    exact WellFormed.update_sublist h List.eraseP_sublist

theorem cleanBucket (h : cache.ChainsWellFormed) (now : ℤ) (bucket : Fin 256) :
    (cleanBucket now cache bucket).ChainsWellFormed := by
  unfold Cache.ChainsWellFormed
  rw [buckets_cleanBucket]
  exact WellFormed.update_sublist h List.filter_sublist

theorem cacheCleanupExpired (h : cache.ChainsWellFormed) (now : ℤ) :
    (cacheCleanupExpired cache now).ChainsWellFormed := by
  rw [ResultCache.cacheCleanupExpired]
  induction List.finRange 256 generalizing cache with
  | nil => exact h
  | cons bucket rest ih => exact ih (h.cleanBucket now bucket)

theorem cacheGet (h : cache.ChainsWellFormed) (key : CString) (allocated : Bool) (now : ℤ) :
    (cacheGet cache key allocated now).2.ChainsWellFormed := by
  rcases cacheGet_cases cache key allocated now with ⟨-, hget⟩ | ⟨-, hget⟩
  · rw [hget]
    exact h.cacheDelete key
  · rwa [hget]

end Cache.ChainsWellFormed

/-! ## Lookups -/

theorem lookup_modify (cache : Cache) (key other : CString) {change : CacheItem → CacheItem}
    (hchange : ∀ item, (change item).key = item.key) :
    lookup (cache.modify key change) other =
      if key = other then (lookup cache key).map change else lookup cache other :=
  find_modifyFirst hchange key other

theorem lookup_push (cache : Cache) {key : CString} {item : CacheItem} (hkey : item.key = key)
    (other : CString) :
    lookup (cache.push key item) other = if key = other then some item else lookup cache other := by
  subst hkey
  exact find_push item other

namespace Cache.ChainsWellFormed

variable {cache : Cache}

theorem lookup_cacheDelete (h : cache.ChainsWellFormed) (key other : CString) :
    lookup (ResultCache.cacheDelete cache key) other =
      if key = other then none else lookup cache other := by
  cases hlookup : lookup cache key with
  | none =>
    rw [ResultCache.cacheDelete, hlookup]
    split_ifs with hkey
    · rw [← hkey, hlookup]
    · rfl
  | some item =>
    rw [ResultCache.cacheDelete, hlookup]
    exact WellFormed.find_eraseP h key other

theorem lookup_cleanBucket (h : cache.ChainsWellFormed) (now : ℤ) (bucket : Fin 256)
    (key : CString) :
    lookup (ResultCache.cleanBucket now cache bucket) key =
      if hashKey key = bucket then (lookup cache key).filter fun item ↦ !expired now item
      else lookup cache key := by
  unfold lookup
  rw [buckets_cleanBucket]
  exact WellFormed.find_filter h bucket _ key

theorem lookup_cacheCleanupExpired (h : cache.ChainsWellFormed) (now : ℤ) (key : CString) :
    lookup (ResultCache.cacheCleanupExpired cache now) key =
      (lookup cache key).filter fun item ↦ !expired now item := by
  have hbuckets : ∀ (buckets : List (Fin 256)) (cache : Cache), cache.ChainsWellFormed →
      lookup (buckets.foldl (ResultCache.cleanBucket now) cache) key =
        if hashKey key ∈ buckets then (lookup cache key).filter fun item ↦ !expired now item
        else lookup cache key := by
    intro buckets
    induction buckets with
    | nil => simp
    | cons bucket rest ih =>
      intro cache hcache
      rw [List.foldl_cons, ih _ (hcache.cleanBucket now bucket), hcache.lookup_cleanBucket]
      by_cases hbucket : hashKey key = bucket <;> by_cases hrest : hashKey key ∈ rest <;>
        simp [hbucket, hrest, List.mem_cons]
  rw [ResultCache.cacheCleanupExpired, hbuckets _ cache h, if_pos (List.mem_finRange _)]

end Cache.ChainsWellFormed

/-! ## Which runs keep the chains well formed -/

/-- A call that inserts an item stores its key in full, or the stored part of the key is new and has
the hash of the key. -/
def KeyStored (cache : Cache) : CacheCall → Prop
  | .set key data itemAllocated dataAllocated _ =>
      lookup cache key = none → data ≠ [] → itemAllocated → dataAllocated →
        key.length ≤ 127 ∨ (hashKey (key.take 127) = hashKey key ∧
          ∀ item ∈ cache.contents, item.key ≠ key.take 127)
  | _ => True

theorem chainsWellFormed_step_iff {cache : Cache} (h : cache.ChainsWellFormed) (call : CacheCall) :
    (cacheStep cache call).ChainsWellFormed ↔ KeyStored cache call := by
  cases call with
  | set key data itemAllocated dataAllocated now =>
    rw [cacheStep, KeyStored]
    rcases cacheSet_cases cache key data itemAllocated dataAllocated now with
      ⟨hset, hrefused⟩ | ⟨item, hlookup, -, -, hset⟩ | ⟨item, hlookup, -, -, hset⟩ |
        ⟨hlookup, hdata, hitem, hcopy, hset⟩
    · rw [hset]
      apply iff_of_true h
      intro _ hdata hitem hcopy
      rcases hrefused with hempty | ⟨-, hnot⟩
      · exact absurd hempty hdata
      · exact absurd ⟨hitem, hcopy⟩ hnot
    · rw [hset]
      exact iff_of_true (h.modify key fun _ ↦ rfl) fun hnone ↦ by simp [hlookup] at hnone
    · rw [hset]
      exact iff_of_true (h.modify key fun _ ↦ rfl) fun hnone ↦ by simp [hlookup] at hnone
    · rw [hset]
      have hpush : (cache.push key (newItem key data now)).ChainsWellFormed ↔
          hashKey (key.take 127) = hashKey key ∧
            ∀ item ∈ cache.contents, item.key ≠ key.take 127 := WellFormed.push_iff h
      rw [hpush]
      constructor
      · exact fun hstored _ _ _ _ ↦ .inr hstored
      · intro hstored
        rcases hstored hlookup hdata hitem hcopy with hshort | hstored
        · rw [CString.take_eq_self hshort]
          exact ⟨rfl, (WellFormed.find_eq_none_iff h).1 hlookup⟩
        · exact hstored
  | get key allocated now => exact iff_of_true (h.cacheGet key allocated now) trivial
  | delete key => exact iff_of_true (h.cacheDelete key) trivial
  | cleanupExpired now => exact iff_of_true (h.cacheCleanupExpired now) trivial

/-- In a run of the cache, every item is in the bucket of its key and no two items have the same
key, exactly when every insertion stores a key that keeps it so. -/
theorem chains_wellFormed_iff (calls : List CacheCall) :
    Throughout cacheStep Cache.ChainsWellFormed cacheCreate calls ↔
      Along cacheStep KeyStored cacheCreate calls := by
  have hallowed : Along cacheStep (fun _ _ ↦ True) cacheCreate calls :=
    along_of_forall fun _ _ ↦ trivial
  exact throughout_iff_along_of_step (fun _ call h _ ↦ chainsWellFormed_step_iff h call)
    chainsWellFormed_cacheCreate hallowed

/-- A path of 128 bytes. -/
def longKey : CString := ⟨List.replicate 128 97, by decide⟩

/-- The key of an item keeps one byte less, and has another hash. -/
theorem chains_not_wellFormed :
    ¬Throughout cacheStep Cache.ChainsWellFormed cacheCreate [.set longKey [1] true true 0] := by
  intro h
  have hplaced := h.last.placed (hashKey longKey) (newItem longKey [1] 0) (by decide +kernel)
  exact absurd hplaced (by decide +kernel)

/-! ## Memory -/

/-- `total_memory` is the sum of `data_size` over all items. -/
def Cache.Balanced (cache : Cache) : Prop := cache.totalMemory.toNat = cache.dataTotal

instance (cache : Cache) : Decidable cache.Balanced := inferInstanceAs (Decidable (_ = _))

/-- The copies of the data are blocks of one address space. -/
def Cache.DataFits (cache : Cache) : Prop := cache.dataTotal < 2 ^ 64

instance (cache : Cache) : Decidable cache.DataFits := inferInstanceAs (Decidable (_ < _))

/-- No `malloc` of the call fails. -/
def CacheCall.Allocated : CacheCall → Prop
  | .set _ _ itemAllocated dataAllocated _ => itemAllocated ∧ dataAllocated
  | .get _ allocated _ => allocated
  | _ => True

/-- A call that overwrites an item does not change its size. -/
def SizeKept (cache : Cache) : CacheCall → Prop
  | .set key data _ _ _ =>
      data ≠ [] → ∀ item, lookup cache key = some item → item.dataSize = data.length
  | _ => True

theorem Released.balanced {before after : Cache} {released : Multiset CacheItem}
    (h : Released before after released) (hbalanced : before.Balanced) : after.Balanced := by
  have htotal : before.dataTotal =
      after.dataTotal + (released.map CacheItem.dataSize).sum := by
    rw [Cache.dataTotal, h.contents_eq, Multiset.map_add, Multiset.sum_add, Cache.dataTotal]
  have hlt := before.totalMemory.isLt
  have hmemory := congrArg BitVec.toNat h.totalMemory_eq
  unfold Cache.Balanced at hbalanced ⊢
  rw [BitVec.toNat_add, BitVec.toNat_ofNat] at hmemory
  have hafter := after.totalMemory.isLt
  omega

theorem balanced_cacheCreate : cacheCreate.Balanced := by
  simp [Cache.Balanced, Cache.dataTotal, Cache.contents, cacheCreate]

/-- Overwriting leaves `total_memory` alone. -/
theorem balanced_overwrite_iff {cache : Cache} (h : cache.Balanced) {key : CString}
    {item : CacheItem} (hlookup : lookup cache key = some item) (data : List UInt8) (now : ℤ) :
    (cache.modify key (overwriteItem data now)).Balanced ↔ item.dataSize = data.length := by
  obtain ⟨rest, hbefore, hafter⟩ := contents_modify hlookup (overwriteItem data now)
  unfold Cache.Balanced Cache.dataTotal at h
  rw [hbefore, Multiset.map_cons, Multiset.sum_cons] at h
  unfold Cache.Balanced Cache.dataTotal
  rw [hafter, Multiset.map_cons, Multiset.sum_cons, Cache.modify, h]
  exact Nat.add_right_cancel_iff

theorem balanced_push {cache : Cache} (h : cache.Balanced) {key : CString} {item : CacheItem}
    (hfits : (cache.push key item).DataFits) : (cache.push key item).Balanced := by
  have htotal : (cache.push key item).dataTotal = item.dataSize + cache.dataTotal := by
    rw [Cache.dataTotal, contents_push, Multiset.map_cons, Multiset.sum_cons, Cache.dataTotal]
  unfold Cache.DataFits at hfits
  rw [htotal] at hfits
  unfold Cache.Balanced
  rw [htotal, Cache.push, BitVec.toNat_add, BitVec.toNat_ofNat, h]
  omega

theorem balanced_step_iff {cache : Cache} (h : cache.Balanced) {call : CacheCall}
    (hallocated : call.Allocated) (hfits : (cacheStep cache call).DataFits) :
    (cacheStep cache call).Balanced ↔ SizeKept cache call := by
  rcases cacheStep_cases cache call with
    ⟨key, data, itemAllocated, dataAllocated, now, rfl⟩ | ⟨hset, released, hreleased⟩
  · rw [cacheStep] at hfits ⊢
    unfold SizeKept
    rcases cacheSet_cases cache key data itemAllocated dataAllocated now with
      ⟨hset, hrefused⟩ | ⟨item, hlookup, hdata, -, hset⟩ | ⟨-, -, -, hnot, -⟩ |
        ⟨hlookup, -, -, -, hset⟩
    · rw [hset]
      apply iff_of_true h
      intro hdata
      rcases hrefused with hempty | ⟨-, hnot⟩
      · exact absurd hempty hdata
      · exact absurd hallocated hnot
    · rw [hset, balanced_overwrite_iff h hlookup]
      constructor
      · rintro hsize - other hother
        rw [hlookup] at hother
        rwa [← Option.some.inj hother]
      · exact fun hsize ↦ hsize hdata item hlookup
    · exact absurd hallocated.2 hnot
    · rw [hset] at hfits ⊢
      apply iff_of_true (balanced_push h hfits)
      intro _ item hitem
      simp [hlookup] at hitem
  · refine iff_of_true (hreleased.balanced h) ?_
    cases call with
    | set => exact absurd rfl (hset _ _ _ _ _)
    | get | delete | cleanupExpired => trivial

/-- While all allocations succeed, `total_memory` is the sum of the data sizes throughout a run
exactly when no call overwrites an item with data of another size. -/
theorem memory_balanced_iff {calls : List CacheCall}
    (hallocated : ∀ call ∈ calls, call.Allocated)
    (hfits : Throughout cacheStep Cache.DataFits cacheCreate calls) :
    Throughout cacheStep Cache.Balanced cacheCreate calls ↔
      Along cacheStep SizeKept cacheCreate calls := by
  have hcalls : Along cacheStep (fun _ call ↦ call.Allocated) cacheCreate calls :=
    along_of_forall hallocated
  exact throughout_iff_along_of_step
    (fun _ _ h hallowed ↦ balanced_step_iff h hallowed.1 hallowed.2)
    balanced_cacheCreate (hcalls.and hfits.along_next)

def shortKey : CString := ⟨[97], by decide⟩

theorem memory_balanced_iff_example :
    Throughout cacheStep Cache.Balanced cacheCreate
        [.set shortKey [1, 2] true true 0, .delete shortKey] ↔
      Along cacheStep SizeKept cacheCreate
        [.set shortKey [1, 2] true true 0, .delete shortKey] := by
  refine memory_balanced_iff (by simp [CacheCall.Allocated]) ?_
  rw [throughout_cons, throughout_cons, throughout_nil]
  decide +kernel

/-- Two bytes replace one byte under the same key; deleting the key takes two bytes off the counter,
which wraps around. -/
theorem memory_not_balanced :
    ¬Throughout cacheStep Cache.Balanced cacheCreate
      [.set shortKey [1] true true 0, .set shortKey [1, 2] true true 0, .delete shortKey] := by
  intro h
  exact absurd h.last (by decide +kernel)

end HiFetch.Memory.ResultCache
