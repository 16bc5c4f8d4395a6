import HiFetch.Library.LockTrace
import HiFetch.Memory.CacheInvariant
import HiFetch.Memory.PoolInvariant
import HiFetch.Memory.Tracker

/-!
# Locks of the memory functions

The ten functions of the cache, the pool and the tracker that take a lock, once more as the source
has them: every acquire and release of a mutex, and every modification of a chain, of the pool and
of the table, on every path to an exit, null arguments included.  `free` of a heap pointer is an
event as well.  The counters of the cache are atomic, and no mutex guards them.

Without their traces these calls are the functions of the three models.  With them, every call on
finite lists keeps the law of lock traces.
-/

namespace HiFetch.Memory.LockDiscipline

open LinkedHeap LockTrace LockTrace.Traced Allocator
open ResultCache (Cache CacheItem GetResult hashKey lookup expired overwriteItem loseData newItem)
open Pool (MemoryPool alignUp takeBlock setUsedLink)
open Tracker (World MemoryTracker Site maxLeaks)

inductive Mutex where
  | bucket (bucket : Fin 256)
  | pool
  | tracker
deriving DecidableEq

inductive HeapAction where
  | free (ptr : ℕ)
deriving DecidableEq

/-- What the arguments `cache` and `pool` point to, if they are not null, and `global_tracker` with
the heap. -/
structure Globals where
  cache : Option Cache
  pool : Option MemoryPool
  world : World

abbrev Call := Traced Mutex HeapAction Globals

/-! ## Modifications -/

def Globals.mapCache (globals : Globals) (change : Cache → Cache) : Globals :=
  { globals with cache := globals.cache.map change }

def Globals.mapPool (globals : Globals) (change : MemoryPool → MemoryPool) : Globals :=
  { globals with pool := globals.pool.map change }

def Globals.mapTracker (globals : Globals) (change : MemoryTracker → MemoryTracker) : Globals :=
  { globals with
    world := { globals.world with tracker := globals.world.tracker.map change } }

def Globals.mapLive (globals : Globals) (change : Live → Live) : Globals :=
  { globals with world := { globals.world with live := change globals.world.live } }

def setChain (cache : Cache) (bucket : Fin 256)
    (change : List CacheItem → List CacheItem) : Cache :=
  { cache with
    buckets := Function.update cache.buckets bucket (change (cache.buckets bucket)) }

def setCounters (cache : Cache) (items : BitVec 32) (memory : BitVec 64) : Cache :=
  { cache with totalItems := items, totalMemory := memory }

/-- Modify a chain, which the mutex of its bucket guards. -/
def writeChain (bucket : Fin 256) (change : List CacheItem → List CacheItem) : Call Unit :=
  write (.bucket bucket) (·.mapCache (setChain · bucket change))

def writePool (change : MemoryPool → MemoryPool) : Call Unit := write .pool (·.mapPool change)

def writeTracker (change : MemoryTracker → MemoryTracker) : Call Unit :=
  write .tracker (·.mapTracker change)

/-- The atomic counters, after an item was linked into its chain. -/
def countLinked (item : CacheItem) : Call Unit :=
  update (·.mapCache fun cache ↦ setCounters cache (cache.totalItems + 1)
    (cache.totalMemory + BitVec.ofNat 64 item.dataSize))

/-- The atomic counters, after an item was unlinked. -/
def countUnlinked (item : CacheItem) : Call Unit :=
  update (·.mapCache (·.release item))

def heapFree (ptr : ℕ) : Call Unit := do
  act (.free ptr)
  update (·.mapLive (free · ptr))

/-! ## The cache -/

/-- The search loop over the chain of a key. -/
def searchChain (key : CString) : Call (Option CacheItem) := do
  let globals ← get
  return globals.cache.bind (lookup · key)

/-- `cache_set`. -/
def cacheSet (key : Option CString) (data : Option (List UInt8))
    (itemAllocated dataAllocated : Bool) (now : ℤ) : Call ℤ := do
  let globals ← get
  match globals.cache, key, data with
  | some _, some key, some data =>
      if data.length = 0 then return -1
      else
        lock (.bucket (hashKey key))
        match ← searchChain key with
        | some _ =>
            if dataAllocated then
              writeChain (hashKey key) (KeyedTable.modifyFirst
                (fun item ↦ decide (item.key = key)) (overwriteItem data now))
              unlock (.bucket (hashKey key))
              return 0
            else
              writeChain (hashKey key) (KeyedTable.modifyFirst
                (fun item ↦ decide (item.key = key)) loseData)
              unlock (.bucket (hashKey key))
              return -1
        | none =>
            if itemAllocated then
              if dataAllocated then
                writeChain (hashKey key) (newItem key data now :: ·)
                countLinked (newItem key data now)
                unlock (.bucket (hashKey key))
                return 0
              else
                unlock (.bucket (hashKey key))
                return -1
            else
              unlock (.bucket (hashKey key))
              return -1
  | _, _, _ => return -1

/-- `cache_delete`. -/
def cacheDelete (key : Option CString) : Call Unit := do
  let globals ← get
  match globals.cache, key with
  | some _, some key =>
      lock (.bucket (hashKey key))
      match ← searchChain key with
      | some item =>
          writeChain (hashKey key) (·.eraseP fun item ↦ decide (item.key = key))
          countUnlinked item
          unlock (.bucket (hashKey key))
          return ()
      | none =>
          unlock (.bucket (hashKey key))
          return ()
  | _, _ => return ()

/-- `cache_get`. -/
def cacheGet (key : Option CString) (allocated : Bool) (now : ℤ) : Call GetResult := do
  let globals ← get
  match globals.cache, key with
  | some _, some key =>
      lock (.bucket (hashKey key))
      match ← searchChain key with
      | some item =>
          if expired now item then
            unlock (.bucket (hashKey key))
            cacheDelete (some key)
            return .null
          else
            let result : GetResult :=
              if allocated then
                match item.data with
                | none => .fault
                | some data => .copied (data.take item.dataSize) item.dataSize
              else .null
            unlock (.bucket (hashKey key))
            return result
      | none =>
          unlock (.bucket (hashKey key))
          return .null
  | _, _ => return .null

/-- The loop of `cache_cleanup_expired` over one chain, of which it has kept the first items. -/
def cleanLoop (now : ℤ) (bucket : Fin 256) : List CacheItem → List CacheItem → Call Unit
  | _, [] => return ()
  | kept, item :: rest =>
      if expired now item then do
        writeChain bucket fun _ ↦ kept ++ rest
        countUnlinked item
        cleanLoop now bucket kept rest
      else cleanLoop now bucket (kept ++ [item]) rest

/-- The loop of `cache_cleanup_expired` over the buckets. -/
def cleanBuckets (now : ℤ) : List (Fin 256) → Call Unit
  | [] => return ()
  | bucket :: rest => do
      lock (.bucket bucket)
      let globals ← get
      cleanLoop now bucket [] ((globals.cache.map (·.buckets bucket)).getD [])
      unlock (.bucket bucket)
      cleanBuckets now rest

/-- `cache_cleanup_expired`. -/
def cacheCleanupExpired (now : ℤ) : Call Unit := do
  let globals ← get
  match globals.cache with
  | none => return ()
  | some _ => cleanBuckets now (List.finRange 256)

/-! ## The pool -/

/-- `pool_alloc`. -/
def poolAlloc (size : ℕ) (header : Bool) (fallback : Option ℕ) : Call (Option ℕ) := do
  let globals ← get
  match globals.pool with
  | none => return none
  | some pool =>
      if size = 0 then return none
      else
        lock .pool
        match find pool.headers (fun block ↦ decide (alignUp size ≤ block.size))
          pool.freeBlocks with
        | .endless => diverge
        | .absent =>
            unlock .pool
            return fallback
        | .hit before address block =>
            writePool (takeBlock · before block (alignUp size) header)
            writePool (Pool.handOut · address (alignUp size))
            unlock .pool
            return some block.ptr

/-- `pool_free`. -/
def poolFree (ptr : Option ℕ) : Call Unit := do
  let globals ← get
  match globals.pool, ptr with
  | some pool, some ptr =>
      lock .pool
      match find pool.headers (fun block ↦ decide (block.ptr = ptr)) pool.usedBlocks with
      | .endless => diverge
      | .absent =>
          unlock .pool
          heapFree ptr
      | .hit before address block =>
          writePool (setUsedLink · before block.next)
          writePool (Pool.giveBack · address block)
          unlock .pool
          return ()
  | _, _ => return ()

/-! ## The tracker -/

/-- `tracked_malloc`. -/
def trackedMalloc (size : ℕ) (site : Site) : Call (Option ℕ) := do
  update (·.mapLive fun live ↦ malloc live size site.contents site.result)
  let globals ← get
  match site.result, globals.world.tracker with
  | some ptr, some tracker =>
      lock .tracker
      if tracker.leaks.length < maxLeaks then
        writeTracker fun tracker ↦ Tracker.record tracker ptr size site
        unlock .tracker
        return some ptr
      else
        unlock .tracker
        return some ptr
  | result, _ => return result

/-- `tracked_free`. -/
def trackedFree (ptr : Option ℕ) : Call Unit := do
  let globals ← get
  match ptr, globals.world.tracker with
  | none, _ => return ()
  | some ptr, none => heapFree ptr
  | some ptr, some tracker =>
      lock .tracker
      match tracker.leaks.findIdx? fun leak ↦ decide (leak.ptr = ptr) with
      | some _ =>
          writeTracker fun tracker ↦ Tracker.forget tracker ptr
          unlock .tracker
          heapFree ptr
      | none =>
          unlock .tracker
          heapFree ptr

/-- `tracked_calloc`. -/
def trackedCalloc (nmemb size : ℕ) (site : Site) : Call (Option ℕ) := do
  match ← trackedMalloc (nmemb * size % 2 ^ 64) site with
  | none => return none
  | some ptr =>
      update (·.mapLive fun live ↦
        Allocator.write live ptr (List.replicate (nmemb * size % 2 ^ 64) 0))
      return some ptr

/-- The copy in the critical section of `tracked_realloc`. -/
def copyTracked (ptr newPtr size : ℕ) : Call Unit := do
  let globals ← get
  match globals.world.tracker with
  | none => return ()
  | some _ =>
      lock .tracker
      update fun globals ↦
        { globals with world := Tracker.copyTracked globals.world ptr newPtr size }
      unlock .tracker
      return ()

/-- `tracked_realloc`. -/
def trackedRealloc (ptr : Option ℕ) (size : ℕ) (site : Site) : Call (Option ℕ) := do
  match ptr with
  | none => trackedMalloc size site
  | some ptr =>
      match ← trackedMalloc size site with
      | none =>
          trackedFree (some ptr)
          return none
      | some newPtr =>
          copyTracked ptr newPtr size
          trackedFree (some ptr)
          return some newPtr

/-! ## The calls follow the models -/

section Cache

variable {cache : Cache} {pool : Option MemoryPool} {world : World}

@[simp]
theorem runs_searchChain_bind {α : Type} {globals after : Globals} {key : CString}
    {rest : Option CacheItem → Call α} {held held' : Option Mutex} {last : α}
    {done : List HeapAction} :
    Runs (searchChain key >>= rest) globals held last after held' done ↔
      Runs (rest (globals.cache.bind (lookup · key))) globals held last after held' done :=
  runs_quiet_bind_iff rfl rfl rfl

theorem runs_cacheSet (key : CString) (data : List UInt8) (itemAllocated dataAllocated : Bool)
    (now : ℤ) :
    Runs (cacheSet (some key) (some data) itemAllocated dataAllocated now)
      ⟨some cache, pool, world⟩ none
      (ResultCache.cacheSet cache key data itemAllocated dataAllocated now).1
      ⟨some (ResultCache.cacheSet cache key data itemAllocated dataAllocated now).2, pool, world⟩
      none [] := by
  unfold cacheSet ResultCache.cacheSet
  rw [runs_get_bind]
  by_cases hdata : data.length = 0
  · simp [hdata]
  · cases hlookup : lookup cache key with
    | some item =>
      cases dataAllocated <;>
        simp [hdata, hlookup, writeChain, Globals.mapCache, setChain, Cache.modify]
    | none =>
      cases itemAllocated <;> cases dataAllocated <;>
        simp [hdata, hlookup, writeChain, countLinked, Globals.mapCache, setChain, setCounters,
          Cache.push]

theorem runs_cacheDelete (key : CString) :
    Runs (cacheDelete (some key)) ⟨some cache, pool, world⟩ none ()
      ⟨some (ResultCache.cacheDelete cache key), pool, world⟩ none [] := by
  unfold cacheDelete ResultCache.cacheDelete
  rw [runs_get_bind]
  cases hlookup : lookup cache key with
  | none => simp [hlookup]
  | some item =>
    simp [hlookup, writeChain, countUnlinked, Globals.mapCache, setChain, Cache.release]

/-- The lock is free again before `cache_get` calls `cache_delete`. -/
theorem runs_cacheGet (key : CString) (allocated : Bool) (now : ℤ) :
    Runs (cacheGet (some key) allocated now) ⟨some cache, pool, world⟩ none
      (ResultCache.cacheGet cache key allocated now).1
      ⟨some (ResultCache.cacheGet cache key allocated now).2, pool, world⟩ none [] := by
  unfold cacheGet ResultCache.cacheGet ResultCache.judge
  rw [runs_get_bind]
  cases hlookup : lookup cache key with
  | none => simp [hlookup]
  | some item =>
    by_cases hexpired : expired now item
    · have hdelete : Runs (cacheDelete (some key) >>= fun _ ↦ pure GetResult.null)
          ⟨some cache, pool, world⟩ none .null
          ⟨some (ResultCache.cacheDelete cache key), pool, world⟩ none [] :=
        (runs_cacheDelete key).bind ((runs_pure _).2 ⟨rfl, rfl, rfl, rfl⟩)
      simpa [hlookup, hexpired] using hdelete
    · cases allocated <;> cases hdata : item.data <;> simp [hlookup, hexpired, hdata]

/-- Releasing items leaves the chains alone. -/
theorem foldl_release_setBuckets (items : List CacheItem) (cache : Cache)
    (buckets : Fin 256 → List CacheItem) :
    items.foldl Cache.release { cache with buckets := buckets } =
      { items.foldl Cache.release cache with buckets := buckets } := by
  induction items generalizing cache with
  | nil => rfl
  | cons item rest ih => exact ih (cache.release item)

/-- The loop over one chain holds the mutex of the bucket throughout. -/
theorem runs_cleanLoop (now : ℤ) (bucket : Fin 256) (kept rest : List CacheItem)
    (hchain : cache.buckets bucket = kept ++ rest) :
    Runs (cleanLoop now bucket kept rest) ⟨some cache, pool, world⟩ (some (.bucket bucket)) ()
      ⟨some { (rest.filter fun item ↦ expired now item).foldl Cache.release cache with
        buckets := Function.update cache.buckets bucket
          (kept ++ rest.filter fun item ↦ !expired now item) }, pool, world⟩
      (some (.bucket bucket)) [] := by
  induction rest generalizing cache kept with
  | nil =>
    have hkept : Function.update cache.buckets bucket kept = cache.buckets := by
      rw [List.append_nil] at hchain
      rw [← hchain, Function.update_eq_self]
    simp [cleanLoop, hkept]
  | cons item rest ih =>
    unfold cleanLoop
    by_cases hexpired : expired now item
    · let unlinked := (setChain cache bucket fun _ ↦ kept ++ rest).release item
      have hunlinked : unlinked.buckets bucket = kept ++ rest := Function.update_self _ _ _
      have hrest := ih kept hunlinked
      have hbuckets : Function.update unlinked.buckets bucket
          (kept ++ rest.filter fun item ↦ !expired now item) =
            Function.update cache.buckets bucket
              (kept ++ rest.filter fun item ↦ !expired now item) := Function.update_idem _ _ _
      have hcounters : (rest.filter fun item ↦ expired now item).foldl Cache.release unlinked =
          { (rest.filter fun item ↦ expired now item).foldl Cache.release (cache.release item) with
            buckets := unlinked.buckets } :=
        foldl_release_setBuckets _ (cache.release item) unlinked.buckets
      rw [hbuckets, hcounters] at hrest
      simpa [hexpired, writeChain, countUnlinked, Globals.mapCache] using hrest
    · have hmoved : cache.buckets bucket = (kept ++ [item]) ++ rest := by
        rw [hchain, List.append_assoc, List.singleton_append]
      simpa [hexpired] using ih (kept ++ [item]) hmoved

theorem runs_cleanBuckets (now : ℤ) (buckets : List (Fin 256)) :
    Runs (cleanBuckets now buckets) ⟨some cache, pool, world⟩ none ()
      ⟨some (buckets.foldl (ResultCache.cleanBucket now) cache), pool, world⟩ none [] := by
  induction buckets generalizing cache with
  | nil => simp [cleanBuckets]
  | cons bucket rest ih =>
    have hclean : ResultCache.cleanBucket now cache bucket =
        { ((cache.buckets bucket).filter fun item ↦ expired now item).foldl Cache.release cache with
          buckets := Function.update cache.buckets bucket
            ((cache.buckets bucket).filter fun item ↦ !expired now item) } := by
      unfold ResultCache.cleanBucket
      rw [ResultCache.cleanChain_eq]
    have hloop : Runs (cleanLoop now bucket [] (cache.buckets bucket)) ⟨some cache, pool, world⟩
        (some (.bucket bucket)) () ⟨some (ResultCache.cleanBucket now cache bucket), pool, world⟩
        (some (.bucket bucket)) [] := by
      rw [hclean]
      exact runs_cleanLoop now bucket [] _ (List.nil_append _).symm
    unfold cleanBuckets
    rw [runs_lock_bind, runs_get_bind, Option.map_some, Option.getD_some]
    apply hloop.bind
    rw [runs_unlock_bind]
    exact ih

theorem runs_cacheCleanupExpired (now : ℤ) :
    Runs (cacheCleanupExpired now) ⟨some cache, pool, world⟩ none ()
      ⟨some (ResultCache.cacheCleanupExpired cache now), pool, world⟩ none [] := by
  unfold cacheCleanupExpired
  rw [runs_get_bind]
  exact runs_cleanBuckets now _

end Cache

section Pool

variable {cache : Option Cache} {pool : MemoryPool} {world : World}

/-- `pool_alloc` on a free list that ends. -/
theorem runs_poolAlloc {free : List ℕ} (h : Chain pool.headers pool.freeBlocks free) (size : ℕ)
    (header : Bool) (fallback : Option ℕ) :
    ∃ result after, Pool.poolAlloc pool size header fallback = some (result, after) ∧
      Runs (poolAlloc size header fallback) ⟨cache, some pool, world⟩ none result
        ⟨cache, some after, world⟩ none [] := by
  unfold poolAlloc Pool.poolAlloc
  by_cases hsize : size = 0
  · exact ⟨none, pool, by simp [hsize], by simp [hsize]⟩
  · rcases Pool.firstFit_cases h size with
      ⟨-, hfind⟩ | ⟨front, address, rest, block, -, -, -, -, hfind⟩
    · exact ⟨fallback, pool, by simp [hsize, hfind], by simp [hsize, hfind]⟩
    · exact ⟨some block.ptr, _, by rw [if_neg hsize, hfind],
        by simp [hsize, hfind, writePool, Globals.mapPool]⟩

/-- `pool_free` on a list of used blocks that ends.  A foreign pointer goes to `free`. -/
theorem runs_poolFree {used : List ℕ} (h : Chain pool.headers pool.usedBlocks used)
    (ptr : Option ℕ) :
    ∃ released after, Pool.poolFree pool ptr = some (released, after) ∧
      Runs (poolFree ptr) ⟨cache, some pool, world⟩ none ()
        ⟨cache, some after, { world with
          live := released.elim world.live (free world.live) }⟩ none
          (released.toList.map .free) := by
  unfold poolFree Pool.poolFree
  cases ptr with
  | none => exact ⟨none, pool, rfl, by simp⟩
  | some ptr =>
    rcases find_cases (fun block ↦ decide (block.ptr = ptr)) h with
      ⟨hfind, -⟩ | ⟨front, address, rest, block, -, hfind, -, -, -⟩
    · exact ⟨some ptr, pool, by simp [hfind], by simp [hfind, heapFree, Globals.mapLive]⟩
    · exact ⟨none, _, by simp [hfind]; rfl, by simp [hfind, writePool, Globals.mapPool]⟩

end Pool

section Tracker

variable {cache : Option Cache} {pool : Option MemoryPool} {world : World}

theorem runs_trackedMalloc (size : ℕ) (site : Site) :
    Runs (trackedMalloc size site) ⟨cache, pool, world⟩ none
      (Tracker.trackedMalloc world size site).1
      ⟨cache, pool, (Tracker.trackedMalloc world size site).2⟩ none [] := by
  unfold trackedMalloc Tracker.trackedMalloc
  rw [runs_update_bind, runs_get_bind]
  cases hresult : site.result with
  | none => simp [Globals.mapLive]
  | some ptr =>
    cases htracker : world.tracker with
    | none => simp [Globals.mapLive, htracker]
    | some tracker =>
      by_cases hroom : tracker.leaks.length < maxLeaks
      · simp [Globals.mapLive, htracker, hroom, writeTracker, Globals.mapTracker]
      · simp [Globals.mapLive, htracker, hroom, Tracker.record]

theorem runs_trackedFree (ptr : Option ℕ) :
    Runs (trackedFree ptr) ⟨cache, pool, world⟩ none ()
      ⟨cache, pool, Tracker.trackedFree world ptr⟩ none (ptr.toList.map .free) := by
  unfold trackedFree Tracker.trackedFree
  rw [runs_get_bind]
  cases ptr with
  | none => simp
  | some ptr =>
    cases htracker : world.tracker with
    | none => simp [heapFree, Globals.mapLive, htracker]
    | some tracker =>
      cases hfind : tracker.leaks.findIdx? fun leak ↦ decide (leak.ptr = ptr) with
      | none => simp [hfind, heapFree, Globals.mapLive, htracker, Tracker.forget]
      | some index =>
        simp [hfind, heapFree, Globals.mapLive, htracker, writeTracker, Globals.mapTracker]

theorem runs_trackedCalloc (nmemb size : ℕ) (site : Site) :
    Runs (trackedCalloc nmemb size site) ⟨cache, pool, world⟩ none
      (Tracker.trackedCalloc world nmemb size site).1
      ⟨cache, pool, (Tracker.trackedCalloc world nmemb size site).2⟩ none [] := by
  unfold trackedCalloc
  apply (runs_trackedMalloc (nmemb * size % 2 ^ 64) site).bind
  simp only [Tracker.trackedCalloc]
  cases Tracker.trackedMalloc world (nmemb * size % 2 ^ 64) site with
  | mk result after =>
    cases result <;> simp only [runs_update_bind, runs_pure, Globals.mapLive, and_self]

theorem runs_copyTracked (ptr newPtr size : ℕ) :
    Runs (copyTracked ptr newPtr size) ⟨cache, pool, world⟩ none ()
      ⟨cache, pool, Tracker.copyTracked world ptr newPtr size⟩ none [] := by
  unfold copyTracked
  rw [runs_get_bind]
  cases htracker : world.tracker with
  | none => simp [htracker, Tracker.copyTracked]
  | some tracker => simp

/-- `tracked_realloc` goes through three critical sections, one after the other. -/
theorem runs_trackedRealloc (ptr : Option ℕ) (size : ℕ) (site : Site) :
    Runs (trackedRealloc ptr size site) ⟨cache, pool, world⟩ none
      (Tracker.trackedRealloc world ptr size site).1
      ⟨cache, pool, (Tracker.trackedRealloc world ptr size site).2⟩ none
      (ptr.toList.map .free) := by
  unfold trackedRealloc Tracker.trackedRealloc
  cases ptr with
  | none => exact runs_trackedMalloc size site
  | some ptr =>
    apply (runs_trackedMalloc size site).bind
    cases Tracker.trackedMalloc world size site with
    | mk result after =>
      cases result with
      | none => exact (runs_trackedFree (some ptr)).bind ((runs_pure _).2 ⟨rfl, rfl, rfl, rfl⟩)
      | some newPtr =>
        apply (runs_copyTracked ptr newPtr size).bind
        exact (runs_trackedFree (some ptr)).bind ((runs_pure _).2 ⟨rfl, rfl, rfl, rfl⟩)

end Tracker

/-! ## All calls -/

/-- A call of one of the ten functions, with the results of `malloc` and `time` that it meets. -/
inductive MemoryCall where
  | cacheSet (key : Option CString) (data : Option (List UInt8))
      (itemAllocated dataAllocated : Bool) (now : ℤ)
  | cacheGet (key : Option CString) (allocated : Bool) (now : ℤ)
  | cacheDelete (key : Option CString)
  | cacheCleanupExpired (now : ℤ)
  | poolAlloc (size : ℕ) (header : Bool) (fallback : Option ℕ)
  | poolFree (ptr : Option ℕ)
  | trackedMalloc (size : ℕ) (site : Site)
  | trackedFree (ptr : Option ℕ)
  | trackedCalloc (nmemb size : ℕ) (site : Site)
  | trackedRealloc (ptr : Option ℕ) (size : ℕ) (site : Site)

/-- The trace of a call, if it returns. -/
def lockTrace (globals : Globals) : MemoryCall → Option (List (Event Mutex HeapAction))
  | .cacheSet key data itemAllocated dataAllocated now =>
      (cacheSet key data itemAllocated dataAllocated now globals).map (·.2.2)
  | .cacheGet key allocated now => (cacheGet key allocated now globals).map (·.2.2)
  | .cacheDelete key => (cacheDelete key globals).map (·.2.2)
  | .cacheCleanupExpired now => (cacheCleanupExpired now globals).map (·.2.2)
  | .poolAlloc size header fallback => (poolAlloc size header fallback globals).map (·.2.2)
  | .poolFree ptr => (poolFree ptr globals).map (·.2.2)
  | .trackedMalloc size site => (trackedMalloc size site globals).map (·.2.2)
  | .trackedFree ptr => (trackedFree ptr globals).map (·.2.2)
  | .trackedCalloc nmemb size site => (trackedCalloc nmemb size site globals).map (·.2.2)
  | .trackedRealloc ptr size site => (trackedRealloc ptr size site globals).map (·.2.2)

/-- Both lists of the pool end.  The chains of the cache are lists, and the table of the tracker is
an array. -/
def FiniteLists (globals : Globals) : Prop :=
  ∀ pool ∈ globals.pool, ∃ free used, Chain pool.headers pool.freeBlocks free ∧
    Chain pool.headers pool.usedBlocks used

/-- The call returns, and can be followed from holding no mutex to holding none. -/
def Returns {α : Type} (call : Call α) (globals : Globals) : Prop :=
  ∃ result after done, Runs call globals none result after none done

theorem Returns.exists_trace {α : Type} {call : Call α} {globals : Globals}
    (h : Returns call globals) :
    ∃ trace, (call globals).map (·.2.2) = some trace ∧ Disciplined trace := by
  obtain ⟨result, after, done, hruns⟩ := h
  obtain ⟨trace, hrun, hdisciplined⟩ := hruns.disciplined
  exact ⟨trace, by rw [hrun, Option.map_some], hdisciplined⟩

/-! With a null argument nothing happens. -/

theorem returns_cacheSet (globals : Globals) (key : Option CString) (data : Option (List UInt8))
    (itemAllocated dataAllocated : Bool) (now : ℤ) :
    Returns (cacheSet key data itemAllocated dataAllocated now) globals := by
  obtain ⟨cache, pool, world⟩ := globals
  match cache, key, data with
  | some cache, some key, some data =>
    exact ⟨_, _, _, runs_cacheSet key data itemAllocated dataAllocated now⟩
  | none, _, _ => exact ⟨-1, ⟨none, pool, world⟩, [], by simp [cacheSet]⟩
  | some cache, none, _ => exact ⟨-1, ⟨some cache, pool, world⟩, [], by simp [cacheSet]⟩
  | some cache, some _, none => exact ⟨-1, ⟨some cache, pool, world⟩, [], by simp [cacheSet]⟩

theorem returns_cacheGet (globals : Globals) (key : Option CString) (allocated : Bool) (now : ℤ) :
    Returns (cacheGet key allocated now) globals := by
  obtain ⟨cache, pool, world⟩ := globals
  match cache, key with
  | some cache, some key => exact ⟨_, _, _, runs_cacheGet key allocated now⟩
  | none, _ => exact ⟨.null, ⟨none, pool, world⟩, [], by simp [cacheGet]⟩
  | some cache, none => exact ⟨.null, ⟨some cache, pool, world⟩, [], by simp [cacheGet]⟩

theorem returns_cacheDelete (globals : Globals) (key : Option CString) :
    Returns (cacheDelete key) globals := by
  obtain ⟨cache, pool, world⟩ := globals
  match cache, key with
  | some cache, some key => exact ⟨_, _, _, runs_cacheDelete key⟩
  | none, _ => exact ⟨(), ⟨none, pool, world⟩, [], by simp [cacheDelete]⟩
  | some cache, none => exact ⟨(), ⟨some cache, pool, world⟩, [], by simp [cacheDelete]⟩

theorem returns_cacheCleanupExpired (globals : Globals) (now : ℤ) :
    Returns (cacheCleanupExpired now) globals := by
  obtain ⟨cache, pool, world⟩ := globals
  cases cache with
  | none => exact ⟨(), ⟨none, pool, world⟩, [], by simp [cacheCleanupExpired]⟩
  | some cache => exact ⟨_, _, _, runs_cacheCleanupExpired now⟩

theorem returns_poolAlloc {globals : Globals} (h : FiniteLists globals) (size : ℕ) (header : Bool)
    (fallback : Option ℕ) : Returns (poolAlloc size header fallback) globals := by
  obtain ⟨cache, pool, world⟩ := globals
  cases pool with
  | none => exact ⟨none, ⟨cache, none, world⟩, [], by simp [poolAlloc]⟩
  | some pool =>
    obtain ⟨free, used, hfree, -⟩ := h pool rfl
    obtain ⟨result, after, -, hruns⟩ := runs_poolAlloc hfree size header fallback
    exact ⟨_, _, _, hruns⟩

theorem returns_poolFree {globals : Globals} (h : FiniteLists globals) (ptr : Option ℕ) :
    Returns (poolFree ptr) globals := by
  obtain ⟨cache, pool, world⟩ := globals
  cases pool with
  | none => exact ⟨(), ⟨cache, none, world⟩, [], by simp [poolFree]⟩
  | some pool =>
    obtain ⟨free, used, -, hused⟩ := h pool rfl
    obtain ⟨released, after, -, hruns⟩ := runs_poolFree hused ptr
    exact ⟨_, _, _, hruns⟩

/-- On finite lists every call of the ten functions returns.  It acquires a mutex only while it
holds none, releases what it has acquired, and modifies the chains, the pool and the table only
while it holds the mutex that guards them. -/
theorem lockTrace_disciplined {globals : Globals} (h : FiniteLists globals) (call : MemoryCall) :
    ∃ trace, lockTrace globals call = some trace ∧ Disciplined trace := by
  cases call with
  | cacheSet key data itemAllocated dataAllocated now =>
    exact (returns_cacheSet globals key data itemAllocated dataAllocated now).exists_trace
  | cacheGet key allocated now => exact (returns_cacheGet globals key allocated now).exists_trace
  | cacheDelete key => exact (returns_cacheDelete globals key).exists_trace
  | cacheCleanupExpired now => exact (returns_cacheCleanupExpired globals now).exists_trace
  | poolAlloc size header fallback =>
    exact (returns_poolAlloc h size header fallback).exists_trace
  | poolFree ptr => exact (returns_poolFree h ptr).exists_trace
  | trackedMalloc size site =>
    exact Returns.exists_trace ⟨_, _, _, runs_trackedMalloc size site⟩
  | trackedFree ptr => exact Returns.exists_trace ⟨_, _, _, runs_trackedFree ptr⟩
  | trackedCalloc nmemb size site =>
    exact Returns.exists_trace ⟨_, _, _, runs_trackedCalloc nmemb size site⟩
  | trackedRealloc ptr size site =>
    exact Returns.exists_trace ⟨_, _, _, runs_trackedRealloc ptr size site⟩

/-- `cache_get` of an expired item locks its bucket twice. -/
theorem lockTrace_disciplined_example :
    ∃ trace, lockTrace
        ⟨some (ResultCache.cacheSet ResultCache.cacheCreate ResultCache.shortKey [1] true true 0).2,
          Pool.poolCreate 1048576 true (some 4096) true, ⟨none, []⟩⟩
        (.cacheGet (some ResultCache.shortKey) true 31) = some trace ∧ Disciplined trace := by
  apply lockTrace_disciplined
  rintro pool ⟨⟩
  exact ⟨[0], [], ⟨rfl, _, rfl, rfl⟩, rfl⟩

end HiFetch.Memory.LockDiscipline
