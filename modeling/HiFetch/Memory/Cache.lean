import HiFetch.Library.CString
import HiFetch.Library.KeyedTable
import HiFetch.Library.Transition

/-!
# The result cache

The cache keeps the results of file reads and commands for thirty seconds.  It is a hash table of
256 chains; an item keeps at most 127 bytes of its key, while the bucket is chosen by the whole key.
`cache_get` judges an item in one critical section and, if it is expired, deletes its key in a
second one.

Whether each `malloc` succeeds and what `time` returns are arguments.  The counters have the widths
of the C types `atomic_int` and `atomic_size_t`.
-/

namespace HiFetch.Memory.ResultCache

open KeyedTable

structure CacheItem where
  key : CString
  /-- The copy of the data, or the null pointer that a failed `malloc` left. -/
  data : Option (List UInt8)
  dataSize : ℕ
  timestamp : ℤ
deriving DecidableEq

structure Cache where
  buckets : Fin 256 → List CacheItem
  totalItems : BitVec 32
  totalMemory : BitVec 64

/-- `CACHE_TIMEOUT`, in seconds. -/
def cacheTimeout : ℤ := 30

/-- One round of the loop of `hash_key`; `char` is signed. -/
def hashByte (hash : UInt32) (byte : UInt8) : UInt32 :=
  ((hash <<< 5) + hash) + byte.toInt8.toInt32.toUInt32

/-- `hash_key`. -/
def hashKey (key : CString) : Fin 256 :=
  Fin.ofNat 256 (key.bytes.foldl hashByte 5381).toNat

/-- `cache_create`, when `calloc` succeeds. -/
def cacheCreate : Cache where
  buckets := fun _ ↦ []
  totalItems := 0
  totalMemory := 0

/-- The search loop over the chain of a key: `strcmp` with the stored copy of each key. -/
def lookup (cache : Cache) (key : CString) : Option CacheItem :=
  find hashKey CacheItem.key cache.buckets key

/-! ## Setting -/

/-- An item with new data. -/
def overwriteItem (data : List UInt8) (now : ℤ) (item : CacheItem) : CacheItem :=
  { item with data := some data, dataSize := data.length, timestamp := now }

/-- An item whose data was freed, and for whose new data `malloc` failed. -/
def loseData (item : CacheItem) : CacheItem := { item with data := none }

/-- A new item; `strncpy` copies at most 127 bytes of the key. -/
def newItem (key : CString) (data : List UInt8) (now : ℤ) : CacheItem :=
  { key := key.take 127, data := some data, dataSize := data.length, timestamp := now }

def Cache.modify (cache : Cache) (key : CString) (change : CacheItem → CacheItem) : Cache :=
  { cache with
    buckets := Function.update cache.buckets (hashKey key)
      (modifyFirst (fun item ↦ decide (item.key = key)) change (cache.buckets (hashKey key))) }

def Cache.push (cache : Cache) (key : CString) (item : CacheItem) : Cache :=
  { buckets := Function.update cache.buckets (hashKey key) (item :: cache.buckets (hashKey key))
    totalItems := cache.totalItems + 1
    totalMemory := cache.totalMemory + BitVec.ofNat 64 item.dataSize }

/-- `cache_set`: its result and the cache. -/
def cacheSet (cache : Cache) (key : CString) (data : List UInt8)
    (itemAllocated dataAllocated : Bool) (now : ℤ) : ℤ × Cache :=
  if data.length = 0 then (-1, cache)
  else match lookup cache key with
    | some _ =>
        if dataAllocated then (0, cache.modify key (overwriteItem data now))
        else (-1, cache.modify key loseData)
    | none =>
        if itemAllocated && dataAllocated then (0, cache.push key (newItem key data now))
        else (-1, cache)

/-! ## Deleting -/

/-- The counters after an item has been freed. -/
def Cache.release (cache : Cache) (item : CacheItem) : Cache :=
  { cache with
    totalItems := cache.totalItems - 1
    totalMemory := cache.totalMemory - BitVec.ofNat 64 item.dataSize }

/-- `cache_delete`. -/
def cacheDelete (cache : Cache) (key : CString) : Cache :=
  match lookup cache key with
  | none => cache
  | some item =>
      { cache.release item with
        buckets := Function.update cache.buckets (hashKey key)
          ((cache.buckets (hashKey key)).eraseP fun item ↦ decide (item.key = key)) }

/-! ## Getting -/

def expired (now : ℤ) (item : CacheItem) : Bool := decide (cacheTimeout < now - item.timestamp)

/-- What `cache_get` gives to its caller. -/
inductive GetResult where
  | null
  | copied (data : List UInt8) (size : ℕ)
  /-- `memcpy` reads from a null pointer. -/
  | fault
deriving DecidableEq

/-- The end of the first critical section of `cache_get`. -/
inductive Verdict where
  | expired
  | result (result : GetResult)
deriving DecidableEq

/-- The first critical section of `cache_get`.  It leaves the cache as it is. -/
def judge (cache : Cache) (key : CString) (allocated : Bool) (now : ℤ) : Verdict :=
  match lookup cache key with
  | none => .result .null
  | some item =>
      if expired now item then .expired
      else if allocated then
        match item.data with
        | none => .result .fault
        | some data => .result (.copied (data.take item.dataSize) item.dataSize)
      else .result .null

/-- `cache_get`, when no other thread takes a step between its critical sections. -/
def cacheGet (cache : Cache) (key : CString) (allocated : Bool) (now : ℤ) : GetResult × Cache :=
  match judge cache key allocated now with
  | .expired => (.null, cacheDelete cache key)
  | .result result => (result, cache)

/-! ## Cleaning up -/

/-- The cleanup loop over one chain: the items that stay, and the counters. -/
def cleanChain (now : ℤ) : List CacheItem → Cache → List CacheItem × Cache
  | [], cache => ([], cache)
  | item :: rest, cache =>
      if expired now item then cleanChain now rest (cache.release item)
      else
        let (kept, cache) := cleanChain now rest cache
        (item :: kept, cache)

/-- The critical section of `cache_cleanup_expired` for one bucket. -/
def cleanBucket (now : ℤ) (cache : Cache) (bucket : Fin 256) : Cache :=
  let (kept, cleaned) := cleanChain now (cache.buckets bucket) cache
  { cleaned with buckets := Function.update cache.buckets bucket kept }

/-- `cache_cleanup_expired`. -/
def cacheCleanupExpired (cache : Cache) (now : ℤ) : Cache :=
  (List.finRange 256).foldl (cleanBucket now) cache

/-! ## Calls -/

inductive CacheCall where
  | set (key : CString) (data : List UInt8) (itemAllocated dataAllocated : Bool) (now : ℤ)
  | get (key : CString) (allocated : Bool) (now : ℤ)
  | delete (key : CString)
  | cleanupExpired (now : ℤ)

/-- The result of a call; `cache_delete` and `cache_cleanup_expired` have none. -/
inductive CallResult where
  | code (code : ℤ)
  | data (result : GetResult)
  | done
deriving DecidableEq

def cacheStep (cache : Cache) : CacheCall → Cache
  | .set key data itemAllocated dataAllocated now =>
      (cacheSet cache key data itemAllocated dataAllocated now).2
  | .get key allocated now => (cacheGet cache key allocated now).2
  | .delete key => cacheDelete cache key
  | .cleanupExpired now => cacheCleanupExpired cache now

def cacheResult (cache : Cache) : CacheCall → CallResult
  | .set key data itemAllocated dataAllocated now =>
      .code (cacheSet cache key data itemAllocated dataAllocated now).1
  | .get key allocated now => .data (cacheGet cache key allocated now).1
  | .delete _ => .done
  | .cleanupExpired _ => .done

/-! ## What the operations do -/

/-- `cache_set` overwrites the item it finds, or loses the data of this item, or pushes a new item,
or leaves the cache as it is. -/
theorem cacheSet_cases (cache : Cache) (key : CString) (data : List UInt8)
    (itemAllocated dataAllocated : Bool) (now : ℤ) :
    ((cacheSet cache key data itemAllocated dataAllocated now) = (-1, cache) ∧
        (data = [] ∨ lookup cache key = none ∧ ¬(itemAllocated ∧ dataAllocated))) ∨
      (∃ item, lookup cache key = some item ∧ data ≠ [] ∧ dataAllocated ∧
        cacheSet cache key data itemAllocated dataAllocated now =
          (0, cache.modify key (overwriteItem data now))) ∨
      (∃ item, lookup cache key = some item ∧ data ≠ [] ∧ ¬dataAllocated ∧
        cacheSet cache key data itemAllocated dataAllocated now =
          (-1, cache.modify key loseData)) ∨
      (lookup cache key = none ∧ data ≠ [] ∧ itemAllocated ∧ dataAllocated ∧
        cacheSet cache key data itemAllocated dataAllocated now =
          (0, cache.push key (newItem key data now))) := by
  by_cases hdata : data = []
  · exact .inl ⟨by simp [cacheSet, hdata], .inl hdata⟩
  · cases hlookup : lookup cache key with
    | some item =>
      cases dataAllocated with
      | true => exact .inr (.inl ⟨item, rfl, hdata, rfl, by simp [cacheSet, hdata, hlookup]⟩)
      | false =>
        exact .inr (.inr (.inl ⟨item, rfl, hdata, by simp, by simp [cacheSet, hdata, hlookup]⟩))
    | none =>
      by_cases hallocated : itemAllocated ∧ dataAllocated
      · refine .inr (.inr (.inr ⟨rfl, hdata, hallocated.1, hallocated.2, ?_⟩))
        simp [cacheSet, hdata, hlookup, hallocated]
      · refine .inl ⟨?_, .inr ⟨rfl, hallocated⟩⟩
        have hand : (itemAllocated && dataAllocated) = false := by simpa using hallocated
        simp [cacheSet, hdata, hlookup, hand]

/-- `cache_get` deletes the key of an expired item, and leaves the cache as it is otherwise. -/
theorem cacheGet_cases (cache : Cache) (key : CString) (allocated : Bool) (now : ℤ) :
    ((∃ item, lookup cache key = some item ∧ expired now item) ∧
        cacheGet cache key allocated now = (.null, cacheDelete cache key)) ∨
      ((∀ item, lookup cache key = some item → ¬expired now item) ∧
        (cacheGet cache key allocated now).2 = cache) := by
  cases hlookup : lookup cache key with
  | none => exact .inr ⟨by simp, by simp [cacheGet, judge, hlookup]⟩
  | some item =>
    by_cases hexpired : expired now item
    · exact .inl ⟨⟨item, rfl, hexpired⟩, by simp [cacheGet, judge, hlookup, hexpired]⟩
    · refine .inr ⟨by simpa using hexpired, ?_⟩
      cases allocated <;> cases hdata : item.data <;>
        simp [cacheGet, judge, hlookup, hexpired, hdata]

/-- The cleanup loop keeps the items that are not expired and releases the others. -/
theorem cleanChain_eq (now : ℤ) (chain : List CacheItem) (cache : Cache) :
    cleanChain now chain cache =
      (chain.filter fun item ↦ !expired now item,
        (chain.filter fun item ↦ expired now item).foldl Cache.release cache) := by
  induction chain generalizing cache with
  | nil => rfl
  | cons item rest ih =>
    by_cases hexpired : expired now item <;> simp [cleanChain, hexpired, ih]

@[simp]
theorem buckets_cleanBucket (now : ℤ) (cache : Cache) (bucket : Fin 256) :
    (cleanBucket now cache bucket).buckets = Function.update cache.buckets bucket
      ((cache.buckets bucket).filter fun item ↦ !expired now item) := by
  unfold cleanBucket
  rw [cleanChain_eq]

end HiFetch.Memory.ResultCache
