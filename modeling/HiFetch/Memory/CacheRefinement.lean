import HiFetch.Memory.CacheInvariant

/-!
# The cache as a map with expiry

What the cache is for: a map from keys to data and the time at which they were stored, in which an
entry older than thirty seconds is not found.  For clients whose keys fit into an item, the cache
gives every call the result of this map, however the keys are spread over the chains.

`total_items` is the number of keys as a C `int`, so it is the number of keys as long as there are
fewer than `2 ^ 31` of them.
-/

namespace HiFetch.Memory.ResultCache

open KeyedTable Transition

structure Entry where
  data : List UInt8
  timestamp : ℤ

abbrev Store := CString → Option Entry

def emptyStore : Store := fun _ ↦ none

def Entry.current (now : ℤ) (entry : Entry) : Bool := decide (now - entry.timestamp ≤ 30)

/-- The map after a call. -/
def storeStep (store : Store) : CacheCall → Store
  | .set key data _ _ now => Function.update store key (some { data, timestamp := now })
  | .get key _ now => Function.update store key ((store key).filter (Entry.current now))
  | .delete key => Function.update store key none
  | .cleanupExpired now => fun key ↦ (store key).filter (Entry.current now)

/-- The result of a call. -/
def storeResult (store : Store) : CacheCall → CallResult
  | .set _ _ _ _ _ => .code 0
  | .get key _ now =>
      match (store key).filter (Entry.current now) with
      | some entry => .data (.copied entry.data entry.data.length)
      | none => .data .null
  | .delete _ => .done
  | .cleanupExpired _ => .done

/-- The number of keys of the map. -/
noncomputable def Store.keyCount (store : Store) : ℕ := {key | (store key).isSome}.ncard

/-- A call with a key that fits into an item and with data to store, whose allocations succeed. -/
def CacheCall.Proper : CacheCall → Prop
  | .set key data itemAllocated dataAllocated _ =>
      key.length ≤ 127 ∧ data ≠ [] ∧ itemAllocated ∧ dataAllocated
  | .get key allocated _ => key.length ≤ 127 ∧ allocated
  | .delete key => key.length ≤ 127
  | .cleanupExpired _ => True

def CacheItem.entry (item : CacheItem) : Entry where
  data := item.data.getD []
  timestamp := item.timestamp

/-- The item has its data. -/
def CacheItem.Intact (item : CacheItem) : Prop :=
  ∃ data, item.data = some data ∧ item.dataSize = data.length

/-- The cache stands for the map. -/
structure Refines (cache : Cache) (store : Store) : Prop where
  chains : cache.ChainsWellFormed
  counted : cache.Counted
  intact : ∀ item ∈ cache.contents, item.Intact
  lookup_eq : ∀ key, (lookup cache key).map CacheItem.entry = store key

theorem refines_cacheCreate : Refines cacheCreate emptyStore :=
  ⟨chainsWellFormed_cacheCreate, counted_cacheCreate, by simp [Cache.contents, cacheCreate],
    fun _ ↦ rfl⟩

@[simp]
theorem current_entry (now : ℤ) (item : CacheItem) :
    item.entry.current now = !expired now item := by
  unfold Entry.current expired
  rw [cacheTimeout, ← decide_not]
  exact decide_eq_decide.2 not_lt.symm

theorem filter_entry (found : Option CacheItem) (now : ℤ) :
    (found.map CacheItem.entry).filter (Entry.current now) =
      (found.filter fun item ↦ !expired now item).map CacheItem.entry := by
  cases found with
  | none => rfl
  | some item =>
    rw [Option.map_some, Option.filter_some, Option.filter_some, current_entry]
    cases expired now item <;> rfl

theorem Released.intact {before after : Cache} {released : Multiset CacheItem}
    (h : Released before after released) (hintact : ∀ item ∈ before.contents, item.Intact) :
    ∀ item ∈ after.contents, item.Intact := by
  intro item hmem
  refine hintact item ?_
  rw [h.contents_eq, Multiset.mem_add]
  exact .inl hmem

theorem intact_overwrite {cache : Cache} (h : ∀ item ∈ cache.contents, item.Intact)
    {key : CString} {item : CacheItem} (hlookup : lookup cache key = some item)
    (data : List UInt8) (now : ℤ) :
    ∀ found ∈ (cache.modify key (overwriteItem data now)).contents, found.Intact := by
  obtain ⟨rest, hbefore, hafter⟩ := contents_modify hlookup (overwriteItem data now)
  intro found hmem
  rw [hafter, Multiset.mem_cons] at hmem
  rcases hmem with rfl | hmem
  · exact ⟨data, rfl, rfl⟩
  · refine h found ?_
    rw [hbefore, Multiset.mem_cons]
    exact .inr hmem

theorem intact_push {cache : Cache} (h : ∀ item ∈ cache.contents, item.Intact)
    (key stored : CString) (data : List UInt8) (now : ℤ) :
    ∀ found ∈ (cache.push key (newItem stored data now)).contents, found.Intact := by
  intro found hmem
  rw [contents_push, Multiset.mem_cons] at hmem
  rcases hmem with rfl | hmem
  · exact ⟨data, rfl, rfl⟩
  · exact h found hmem

namespace Refines

variable {cache : Cache} {store : Store}

/-- The number of keys is `total_items`, up to the width of a C `int`. -/
theorem totalItems_eq (h : Refines cache store) :
    cache.totalItems = BitVec.ofNat 32 store.keyCount := by
  have hkeys : {key | (store key).isSome} =
      {key | (find hashKey CacheItem.key cache.buckets key).isSome} := by
    ext key
    rw [Set.mem_ofPred_eq, Set.mem_ofPred_eq, ← h.lookup_eq, Option.isSome_map]
    rfl
  rw [h.counted, Store.keyCount, hkeys, WellFormed.ncard_keys h.chains]
  rfl

theorem delete (h : Refines cache store) (key : CString) :
    Refines (cacheDelete cache key) (Function.update store key none) := by
  have hlookups : ∀ other, (lookup (cacheDelete cache key) other).map CacheItem.entry =
      Function.update store key none other := by
    intro other
    rw [h.chains.lookup_cacheDelete, Function.update_apply, ← h.lookup_eq other]
    by_cases hother : key = other
    · rw [if_pos hother, if_pos hother.symm, Option.map_none]
    · rw [if_neg hother, if_neg (Ne.symm hother)]
  obtain ⟨released, hreleased⟩ := exists_released_cacheDelete cache key
  exact ⟨h.chains.cacheDelete key, hreleased.counted h.counted, hreleased.intact h.intact,
    hlookups⟩

theorem cleanupExpired (h : Refines cache store) (now : ℤ) :
    Refines (cacheCleanupExpired cache now) fun key ↦ (store key).filter (Entry.current now) := by
  obtain ⟨released, hreleased, -⟩ := cacheCleanupExpired_released cache now
  refine ⟨h.chains.cacheCleanupExpired now, hreleased.counted h.counted,
    hreleased.intact h.intact, fun key ↦ ?_⟩
  rw [h.chains.lookup_cacheCleanupExpired, ← h.lookup_eq, filter_entry]

/-- Storing under a key: the item that is overwritten or pushed holds the entry. -/
theorem set (h : Refines cache store) {key : CString} (hkey : key.length ≤ 127)
    {data : List UInt8} (hdata : data ≠ []) (now : ℤ) :
    Refines (cacheSet cache key data true true now).2
        (Function.update store key (some { data, timestamp := now })) ∧
      (cacheSet cache key data true true now).1 = 0 := by
  have hchains : (cacheSet cache key data true true now).2.ChainsWellFormed :=
    (chainsWellFormed_step_iff h.chains (.set key data true true now)).2 fun _ _ _ _ ↦ .inl hkey
  have hcounted : (cacheSet cache key data true true now).2.Counted :=
    counted_step h.counted (.set key data true true now)
  have hlookups : ∀ after : Cache, (∀ other, (lookup after other).map CacheItem.entry =
      if key = other then some { data, timestamp := now }
      else (lookup cache other).map CacheItem.entry) →
      ∀ other, (lookup after other).map CacheItem.entry =
        Function.update store key (some { data, timestamp := now }) other := by
    intro after hafter other
    rw [hafter, Function.update_apply, ← h.lookup_eq other]
    by_cases hother : key = other
    · rw [if_pos hother, if_pos hother.symm]
    · rw [if_neg hother, if_neg (Ne.symm hother)]
  rcases cacheSet_cases cache key data true true now with
    ⟨-, hrefused⟩ | ⟨item, hlookup, -, -, hset⟩ | ⟨-, -, -, hnot, -⟩ | ⟨hlookup, -, -, -, hset⟩
  · rcases hrefused with hempty | ⟨-, hnot⟩
    · exact absurd hempty hdata
    · exact absurd ⟨rfl, rfl⟩ hnot
  · rw [hset] at hchains hcounted ⊢
    refine ⟨⟨hchains, hcounted, intact_overwrite h.intact hlookup data now,
      hlookups _ fun other ↦ ?_⟩, rfl⟩
    have hchange : ∀ item, (overwriteItem data now item).key = item.key := fun _ ↦ rfl
    rw [lookup_modify cache key other hchange, hlookup]
    split_ifs <;> rfl
  · exact absurd rfl hnot
  · rw [hset] at hchains hcounted ⊢
    refine ⟨⟨hchains, hcounted, intact_push h.intact key key data now,
      hlookups _ fun other ↦ ?_⟩, rfl⟩
    rw [lookup_push cache (CString.take_eq_self hkey) other]
    split_ifs <;> rfl

/-- Getting a key: an entry that is not current is deleted and not found. -/
theorem get (h : Refines cache store) (key : CString) (now : ℤ) :
    Refines (cacheGet cache key true now).2
        (Function.update store key ((store key).filter (Entry.current now))) ∧
      CallResult.data (cacheGet cache key true now).1 = storeResult store (.get key true now) := by
  cases hlookup : lookup cache key with
  | none =>
    have hstore : store key = none := by rw [← h.lookup_eq, hlookup, Option.map_none]
    have hget : cacheGet cache key true now = (.null, cache) := by
      simp only [cacheGet, judge, hlookup]
    constructor
    · rw [hget, hstore, Option.filter_none, ← hstore, Function.update_eq_self]
      exact h
    · rw [hget, storeResult, hstore, Option.filter_none]
  | some item =>
    have hstore : store key = some item.entry := by rw [← h.lookup_eq, hlookup, Option.map_some]
    cases hexpired : expired now item with
    | true =>
      have hget : cacheGet cache key true now = (.null, cacheDelete cache key) := by
        simp only [cacheGet, judge, hlookup, hexpired, if_true]
      have hfilter : (some item.entry).filter (Entry.current now) = none := by
        rw [Option.filter_some, current_entry, hexpired]
        rfl
      rw [hget, storeResult, hstore, hfilter]
      exact ⟨h.delete key, rfl⟩
    | false =>
      obtain ⟨data, hdata, hsize⟩ := h.intact item (mem_of_find hlookup)
      have hget : cacheGet cache key true now = (.copied data data.length, cache) := by
        simp [cacheGet, judge, hlookup, hexpired, hdata, hsize]
      have hfilter : (some item.entry).filter (Entry.current now) = some item.entry := by
        rw [Option.filter_some, current_entry, hexpired]
        rfl
      constructor
      · rw [hget, hstore, hfilter, ← hstore, Function.update_eq_self]
        exact h
      · rw [hget, storeResult, hstore, hfilter]
        simp [CacheItem.entry, hdata]

/-- Every proper call keeps the refinement and has the result of the map. -/
theorem step (h : Refines cache store) {call : CacheCall} (hproper : call.Proper) :
    Refines (cacheStep cache call) (storeStep store call) ∧
      cacheResult cache call = storeResult store call := by
  cases call with
  | set key data itemAllocated dataAllocated now =>
    obtain ⟨hkey, hdata, rfl, rfl⟩ := hproper
    obtain ⟨hset, hresult⟩ := h.set hkey hdata now
    exact ⟨hset, congrArg CallResult.code hresult⟩
  | get key allocated now =>
    obtain ⟨-, rfl⟩ := hproper
    exact h.get key now
  | delete key => exact ⟨h.delete key, rfl⟩
  | cleanupExpired now => exact ⟨h.cleanupExpired now, rfl⟩

end Refines

/-- Runs of the cache and of the map give the same results. -/
theorem refines_run {calls : List CacheCall} (hproper : ∀ call ∈ calls, call.Proper) :
    Refines (run cacheStep cacheCreate calls) (run storeStep emptyStore calls) ∧
      outputs cacheStep cacheResult cacheCreate calls =
        outputs storeStep storeResult emptyStore calls := by
  have hstep : ∀ cache store call, Refines cache store → call.Proper →
      Refines (cacheStep cache call) (storeStep store call) ∧
        cacheResult cache call = storeResult store call := fun _ _ _ h hcall ↦ h.step hcall
  exact simulation hstep refines_cacheCreate hproper

/-- The cache refines a map with expiry.  Every result is that of the map, and `total_items` is the
number of keys as a C `int`. -/
theorem cache_refines_store {calls : List CacheCall} (hproper : ∀ call ∈ calls, call.Proper) :
    outputs cacheStep cacheResult cacheCreate calls =
        outputs storeStep storeResult emptyStore calls ∧
      (run cacheStep cacheCreate calls).totalItems =
        BitVec.ofNat 32 (run storeStep emptyStore calls).keyCount ∧
      ((run storeStep emptyStore calls).keyCount < 2 ^ 31 →
        (run cacheStep cacheCreate calls).totalItems.toInt =
          (run storeStep emptyStore calls).keyCount) := by
  obtain ⟨hend, houtputs⟩ := refines_run hproper
  refine ⟨houtputs, hend.totalItems_eq, fun hsmall ↦ ?_⟩
  rw [hend.totalItems_eq, BitVec.toInt_ofNat']
  exact Int.bmod_eq_of_le (by omega) (by omega)

/-- An item that is overwritten, found while it is current, and gone when it has expired. -/
theorem cache_refines_store_example :
    let calls : List CacheCall := [.set shortKey [1] true true 0, .set shortKey [2, 3] true true 10,
      .get shortKey true 40, .get shortKey true 41]
    outputs cacheStep cacheResult cacheCreate calls =
        outputs storeStep storeResult emptyStore calls ∧
      (run cacheStep cacheCreate calls).totalItems =
        BitVec.ofNat 32 (run storeStep emptyStore calls).keyCount ∧
      ((run storeStep emptyStore calls).keyCount < 2 ^ 31 →
        (run cacheStep cacheCreate calls).totalItems.toInt =
          (run storeStep emptyStore calls).keyCount) :=
  cache_refines_store (by simp [CacheCall.Proper, CString.length, shortKey])

/-! ## More keys than a C `int` counts -/

/-- A different key for every number. -/
def numeral (number : ℕ) : CString :=
  ⟨CString.digitBytes number, CString.zero_notMem_digitBytes number⟩

theorem numeral_injective : Function.Injective numeral := fun _ _ heq ↦
  CString.digitBytes_injective (congrArg CString.bytes heq)

/-- Storing one byte under each key. -/
def fill (keys : List CString) : List CacheCall :=
  keys.map fun key ↦ .set key [0] true true 0

theorem isSome_run_fill (keys : List CString) (store : Store) (key : CString) :
    (run storeStep store (fill keys) key).isSome ↔ key ∈ keys ∨ (store key).isSome := by
  induction keys generalizing store with
  | nil => simp [fill]
  | cons head rest ih =>
    have hcons : run storeStep store (fill (head :: rest)) =
        run storeStep (Function.update store head (some ⟨[0], 0⟩)) (fill rest) := rfl
    rw [hcons, ih, List.mem_cons, Function.update_apply]
    by_cases hkey : key = head <;> simp [hkey]

theorem keyCount_fill {keys : List CString} (h : keys.Nodup) :
    (run storeStep emptyStore (fill keys)).keyCount = keys.length := by
  have hkeys : {key | (run storeStep emptyStore (fill keys) key).isSome} = keys.toFinset := by
    ext key
    rw [Set.mem_ofPred_eq, isSome_run_fill]
    simp [emptyStore]
  unfold Store.keyCount
  rw [hkeys, Set.ncard_coe_finset, List.toFinset_card_of_nodup h]

/-- After `2 ^ 31` different keys, all of them short, `total_items` is not their number. -/
theorem totalItems_ne_keyCount :
    (∀ call ∈ fill ((List.range (2 ^ 31)).map numeral), call.Proper) ∧
      (run cacheStep cacheCreate (fill ((List.range (2 ^ 31)).map numeral))).totalItems.toInt ≠
        (run storeStep emptyStore (fill ((List.range (2 ^ 31)).map numeral))).keyCount := by
  have hproper : ∀ call ∈ fill ((List.range (2 ^ 31)).map numeral), call.Proper := by
    intro call hcall
    obtain ⟨key, hkey, rfl⟩ := List.mem_map.1 hcall
    obtain ⟨number, hnumber, rfl⟩ := List.mem_map.1 hkey
    have hlt : number < 10 ^ 127 := (List.mem_range.1 hnumber).trans (by norm_num)
    exact ⟨CString.length_digitBytes_le hlt, by simp, rfl, rfl⟩
  refine ⟨hproper, ?_⟩
  have hcount := keyCount_fill ((List.nodup_range (n := 2 ^ 31)).map numeral_injective)
  rw [List.length_map, List.length_range] at hcount
  rw [(refines_run hproper).1.totalItems_eq, hcount]
  decide

end HiFetch.Memory.ResultCache
