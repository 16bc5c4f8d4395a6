import HiFetch.Memory.CacheInvariant

/-!
# Failed calls of `cache_set`

`cache_set` allocates twice for a new key, before it links the item into its chain.  For a key that
it finds it frees the old data first and allocates afterwards, so a failed `malloc` leaves an item
without data.  Such an item keeps its size and its time, and `cache_get` copies from its null
pointer.  A failed call changes nothing exactly when it finds no data to free.
-/

namespace HiFetch.Memory.ResultCache

open KeyedTable Transition

/-- A call of `cache_set` that returns -1 leaves the cache as it is, so every later `cache_get`
returns what it would have returned. -/
def FailsUnchanged (cache : Cache) : CacheCall → Prop
  | .set key data itemAllocated dataAllocated now =>
      (cacheSet cache key data itemAllocated dataAllocated now).1 = -1 →
        (cacheSet cache key data itemAllocated dataAllocated now).2 = cache ∧
        ∀ other allocated later,
          cacheGet (cacheSet cache key data itemAllocated dataAllocated now).2 other allocated
            later = cacheGet cache other allocated later
  | _ => True

/-- A call of `cache_set` whose `malloc` for the data fails finds no item that has data. -/
def KeepsData (cache : Cache) : CacheCall → Prop
  | .set key data _ dataAllocated _ =>
      data ≠ [] → ¬dataAllocated → ∀ item, lookup cache key = some item → item.data = none
  | _ => True

theorem lookup_modify_loseData {cache : Cache} {key : CString} {item : CacheItem}
    (hlookup : lookup cache key = some item) :
    lookup (cache.modify key loseData) key = some (loseData item) := by
  have hkey : ∀ item, (loseData item).key = item.key := fun _ ↦ rfl
  rw [lookup_modify cache key key hkey, if_pos rfl, hlookup, Option.map_some]

/-- Losing the data of an item changes the cache unless the item has none. -/
theorem modify_loseData_eq_iff {cache : Cache} {key : CString} {item : CacheItem}
    (hlookup : lookup cache key = some item) :
    cache.modify key loseData = cache ↔ item.data = none := by
  constructor
  · intro hsame
    have hlost : some (loseData item) = some item := calc
      some (loseData item) = lookup (cache.modify key loseData) key :=
        (lookup_modify_loseData hlookup).symm
      _ = some item := by rw [hsame, hlookup]
    exact (congrArg CacheItem.data (Option.some.inj hlost)).symm
  · intro hnone
    have hchain : modifyFirst (fun item ↦ decide (item.key = key)) loseData
        (cache.buckets (hashKey key)) = cache.buckets (hashKey key) := by
      apply modifyFirst_eq_self
      intro other hother
      obtain rfl := Option.some.inj (hlookup.symm.trans hother)
      unfold loseData
      rw [← hnone]
    unfold Cache.modify
    rw [hchain, Function.update_eq_self]

/-- One call, in any cache. -/
theorem failsUnchanged_iff_keepsData (cache : Cache) (call : CacheCall) :
    FailsUnchanged cache call ↔ KeepsData cache call := by
  cases call with
  | set key data itemAllocated dataAllocated now =>
    rw [FailsUnchanged, KeepsData]
    rcases cacheSet_cases cache key data itemAllocated dataAllocated now with
      ⟨hset, hrefused⟩ | ⟨item, hlookup, -, hcopy, hset⟩ | ⟨item, hlookup, hdata, hcopy, hset⟩ |
        ⟨hlookup, -, -, hcopy, hset⟩
    · rw [hset]
      apply iff_of_true
      · exact fun _ ↦ ⟨rfl, fun _ _ _ ↦ rfl⟩
      · intro hdata _ item hitem
        rcases hrefused with hempty | ⟨hnone, -⟩
        · exact absurd hempty hdata
        · simp [hnone] at hitem
    · rw [hset]
      exact iff_of_true (by simp) fun _ hnot ↦ absurd hcopy hnot
    · rw [hset]
      calc
        _ ↔ cache.modify key loseData = cache := by
          constructor
          · exact fun h ↦ (h rfl).1
          · intro h _
            exact ⟨h, fun _ _ _ ↦ by rw [h]⟩
        _ ↔ item.data = none := modify_loseData_eq_iff hlookup
        _ ↔ _ := by
          constructor
          · intro hnone _ _ other hother
            rwa [← Option.some.inj (hlookup.symm.trans hother)]
          · exact fun h ↦ h hdata hcopy item hlookup
    · rw [hset]
      exact iff_of_true (by simp) fun _ hnot ↦ absurd hcopy hnot
  | get | delete | cleanupExpired => exact Iff.rfl

/-- In a run of the cache, every failed `cache_set` leaves the cache as it is exactly when no call
fails to allocate the data with which it overwrites other data. -/
theorem along_failsUnchanged_iff (calls : List CacheCall) :
    Along cacheStep FailsUnchanged cacheCreate calls ↔
      Along cacheStep KeepsData cacheCreate calls :=
  along_congr failsUnchanged_iff_keepsData

/-- The second call fails and frees the data of the first one. -/
theorem not_along_failsUnchanged :
    ¬Along cacheStep FailsUnchanged cacheCreate
      [.set shortKey [1] true true 0, .set shortKey [2] true false 1] := by
  rintro ⟨-, hfails, -⟩
  have hunchanged := (hfails (by decide +kernel)).2 shortKey true 2
  exact absurd (congrArg Prod.fst hunchanged) (by decide +kernel)

end HiFetch.Memory.ResultCache
