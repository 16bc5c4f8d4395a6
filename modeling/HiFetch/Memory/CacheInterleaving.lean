import HiFetch.Memory.CacheRefinement

/-!
# Interleavings of cache calls

Each critical section of a cache call is one step of a thread.  `cache_set` and `cache_delete` have
one section, `cache_cleanup_expired` one for every bucket, and `cache_get` of an expired item two:
the second one is that of `cache_delete` with the same key.

Between the two sections of `cache_get` another thread can store a new value under the key, which
the second section then removes.  A second way to lose a value is a `cache_set` that frees the old
data and then fails to allocate.  As long as neither happens, every value is removed by a client or
because it has expired itself.
-/

namespace HiFetch.Memory.ResultCache

open KeyedTable Transition

/-- Where a thread is between two critical sections. -/
inductive Position where
  | idle
  /-- `cache_get` has judged the item of the key expired, in the step `judgedAt` at time `now`. -/
  | deleting (key : CString) (judgedAt : ℕ) (now : ℤ)
  | cleaning (now : ℤ) (buckets : List (Fin 256))
deriving DecidableEq

/-- The cache and its threads.  `steps` counts the steps so far, and `storedAt` is the step in which
a `cache_set` last stored a value under a key. -/
structure System where
  cache : Cache
  position : ℕ → Position
  steps : ℕ
  storedAt : CString → ℕ

inductive Action where
  | set (key : CString) (data : List UInt8) (itemAllocated dataAllocated : Bool) (now : ℤ)
  | get (key : CString) (allocated : Bool) (now : ℤ)
  | delete (key : CString)
  | cleanupExpired (now : ℤ)
  /-- The next critical section of the call that the thread is in. -/
  | resume

structure Move where
  thread : ℕ
  action : Action

def startSystem : System where
  cache := cacheCreate
  position := fun _ ↦ .idle
  steps := 0
  storedAt := fun _ ↦ 0

/-- One critical section.  A thread starts a call only after its last one has returned. -/
def systemStep (system : System) (move : Move) : System :=
  match system.position move.thread, move.action with
  | .idle, .set key data itemAllocated dataAllocated now =>
      let result := cacheSet system.cache key data itemAllocated dataAllocated now
      { system with
        cache := result.2
        steps := system.steps + 1
        storedAt :=
          if result.1 = 0 then Function.update system.storedAt key system.steps
          else system.storedAt }
  | .idle, .get key allocated now =>
      { system with
        position :=
          if judge system.cache key allocated now = .expired then
            Function.update system.position move.thread (.deleting key system.steps now)
          else system.position
        steps := system.steps + 1 }
  | .idle, .delete key =>
      { system with cache := cacheDelete system.cache key, steps := system.steps + 1 }
  | .idle, .cleanupExpired now =>
      { system with
        position :=
          Function.update system.position move.thread (.cleaning now (List.finRange 256))
        steps := system.steps + 1 }
  | .deleting key _ _, .resume =>
      { system with
        cache := cacheDelete system.cache key
        position := Function.update system.position move.thread .idle
        steps := system.steps + 1 }
  | .cleaning now (bucket :: rest), .resume =>
      { system with
        cache := cleanBucket now system.cache bucket
        position := Function.update system.position move.thread (.cleaning now rest)
        steps := system.steps + 1 }
  | .cleaning _ [], .resume =>
      { system with
        position := Function.update system.position move.thread .idle
        steps := system.steps + 1 }
  | _, _ => system

/-! ## The law -/

/-- The call stores its data. -/
def Stores (cache : Cache) (key : CString) (data : List UInt8)
    (itemAllocated dataAllocated : Bool) : Prop :=
  data ≠ [] ∧ dataAllocated ∧ (itemAllocated ∨ lookup cache key ≠ none)

theorem cacheSet_eq_zero_iff {cache : Cache} {key : CString} {data : List UInt8}
    {itemAllocated dataAllocated : Bool} {now : ℤ} :
    (cacheSet cache key data itemAllocated dataAllocated now).1 = 0 ↔
      Stores cache key data itemAllocated dataAllocated := by
  unfold Stores
  rcases cacheSet_cases cache key data itemAllocated dataAllocated now with
    ⟨hset, hrefused⟩ | ⟨item, hlookup, hdata, hcopy, hset⟩ | ⟨item, hlookup, hdata, hcopy, hset⟩ |
      ⟨hlookup, hdata, hitem, hcopy, hset⟩
  · rw [hset]
    refine iff_of_false (by simp) ?_
    rintro ⟨hdata, hcopy, hroom⟩
    rcases hrefused with hempty | ⟨hnone, hnot⟩
    · exact hdata hempty
    · rcases hroom with hitem | hsome
      · exact hnot ⟨hitem, hcopy⟩
      · exact hsome hnone
  · rw [hset]
    exact iff_of_true rfl ⟨hdata, hcopy, .inr (by simp [hlookup])⟩
  · rw [hset]
    exact iff_of_false (by simp) fun h ↦ hcopy h.2.1
  · rw [hset]
    exact iff_of_true rfl ⟨hdata, hcopy, .inl hitem⟩

/-- A `cache_set` that neither stores its data nor loses old data leaves the cache as it is. -/
theorem cacheSet_eq_of_not_stores {cache : Cache} {key : CString} {data : List UInt8}
    {itemAllocated dataAllocated : Bool} {now : ℤ}
    (hstores : ¬Stores cache key data itemAllocated dataAllocated)
    (hkept : data ≠ [] → lookup cache key ≠ none → dataAllocated) :
    cacheSet cache key data itemAllocated dataAllocated now = (-1, cache) := by
  rcases cacheSet_cases cache key data itemAllocated dataAllocated now with
    ⟨hset, -⟩ | ⟨item, hlookup, hdata, hcopy, -⟩ | ⟨item, hlookup, hdata, hcopy, -⟩ |
      ⟨hlookup, hdata, hitem, hcopy, -⟩
  · exact hset
  · exact absurd ⟨hdata, hcopy, .inr (by simp [hlookup])⟩ hstores
  · exact absurd (hkept hdata (by simp [hlookup])) hcopy
  · exact absurd ⟨hdata, hcopy, .inl hitem⟩ hstores

/-- A `cache_set` of another key changes no lookup. -/
theorem lookup_cacheSet_of_ne {cache : Cache} {key other : CString} (hkey : key.length ≤ 127)
    (hne : key ≠ other) {data : List UInt8} {itemAllocated dataAllocated : Bool} {now : ℤ} :
    lookup (cacheSet cache key data itemAllocated dataAllocated now).2 other =
      lookup cache other := by
  have hmodify : ∀ change : CacheItem → CacheItem, (∀ item, (change item).key = item.key) →
      lookup (cache.modify key change) other = lookup cache other := by
    intro change hchange
    rw [lookup_modify cache key other hchange, if_neg hne]
  rcases cacheSet_cases cache key data itemAllocated dataAllocated now with
    ⟨hset, -⟩ | ⟨item, -, -, -, hset⟩ | ⟨item, -, -, -, hset⟩ | ⟨-, -, -, -, hset⟩
  · rw [hset]
  · rw [hset]
    exact hmodify _ fun _ ↦ rfl
  · rw [hset]
    exact hmodify _ fun _ ↦ rfl
  · rw [hset, lookup_push cache (CString.take_eq_self hkey) other, if_neg hne]

theorem intact_cacheSet {cache : Cache} (h : ∀ item ∈ cache.contents, item.Intact)
    {key : CString} {data : List UInt8} {itemAllocated dataAllocated : Bool} {now : ℤ}
    (hkept : data ≠ [] → lookup cache key ≠ none → dataAllocated) :
    ∀ item ∈ (cacheSet cache key data itemAllocated dataAllocated now).2.contents,
      item.Intact := by
  rcases cacheSet_cases cache key data itemAllocated dataAllocated now with
    ⟨hset, -⟩ | ⟨item, hlookup, -, -, hset⟩ | ⟨item, hlookup, hdata, hcopy, -⟩ | ⟨-, -, -, -, hset⟩
  · rwa [hset]
  · rw [hset]
    exact intact_overwrite h hlookup data now
  · exact absurd (hkept hdata (by simp [hlookup])) hcopy
  · rw [hset]
    exact intact_push h key key data now

/-- What `cache_set` takes out of the cache, unless it loses old data: the item it overwrites. -/
theorem lost_of_cacheSet {cache : Cache} {key : CString} {data : List UInt8}
    {itemAllocated dataAllocated : Bool} {now : ℤ}
    (hkept : data ≠ [] → lookup cache key ≠ none → dataAllocated) {item : CacheItem}
    (hbefore : item ∈ cache.contents)
    (hafter : item ∉ (cacheSet cache key data itemAllocated dataAllocated now).2.contents) :
    item.key = key ∧ Stores cache key data itemAllocated dataAllocated := by
  rcases cacheSet_cases cache key data itemAllocated dataAllocated now with
    ⟨hset, -⟩ | ⟨found, hlookup, hdata, hcopy, hset⟩ | ⟨found, hlookup, hdata, hcopy, -⟩ |
      ⟨-, -, -, -, hset⟩
  · rw [hset] at hafter
    exact absurd hbefore hafter
  · obtain ⟨rest, hfound, hchanged⟩ := contents_modify hlookup (overwriteItem data now)
    rw [hset, hchanged, Multiset.mem_cons, not_or] at hafter
    rw [hfound, Multiset.mem_cons] at hbefore
    rcases hbefore with rfl | hrest
    · exact ⟨keyOf_of_find hlookup, hdata, hcopy, .inr (by simp [hlookup])⟩
    · exact absurd hrest hafter.2
  · exact absurd (hkept hdata (by simp [hlookup])) hcopy
  · rw [hset, contents_push, Multiset.mem_cons, not_or] at hafter
    exact absurd hbefore hafter.2

/-- What the deletion section takes out of the cache: the item of the key. -/
theorem lost_of_cacheDelete {cache : Cache} {key : CString} {item : CacheItem}
    (hbefore : item ∈ cache.contents) (hafter : item ∉ (cacheDelete cache key).contents) :
    lookup cache key = some item := by
  rcases cacheDelete_released cache key with ⟨-, hdelete⟩ | ⟨found, hlookup, hreleased⟩
  · rw [hdelete] at hafter
    exact absurd hbefore hafter
  · rw [hreleased.contents_eq, Multiset.mem_add, Multiset.mem_singleton] at hbefore
    rcases hbefore with hmem | rfl
    · exact absurd hmem hafter
    · exact hlookup

/-- What the cleanup of a bucket takes out of the cache: expired items. -/
theorem lost_of_cleanBucket {cache : Cache} {now : ℤ} {bucket : Fin 256} {item : CacheItem}
    (hbefore : item ∈ cache.contents) (hafter : item ∉ (cleanBucket now cache bucket).contents) :
    expired now item := by
  rw [(cleanBucket_released now cache bucket).contents_eq, Multiset.mem_add] at hbefore
  rcases hbefore with hmem | hmem
  · exact absurd hmem hafter
  · exact (List.mem_filter.1 hmem).2

theorem expired_of_judge {cache : Cache} {key : CString} {allocated : Bool} {now : ℤ}
    (h : judge cache key allocated now = .expired) :
    ∀ item, lookup cache key = some item → expired now item := by
  intro item hitem
  by_contra hexpired
  unfold judge at h
  rw [hitem] at h
  simp only [hexpired] at h
  cases allocated <;> cases hdata : item.data <;> simp [hdata] at h

/-- The step may take the item out of the cache: it stores a new value under the key of the item, it
is the client's deletion of the key, or the item has expired.  A `cache_get` may remove only what
was stored before it judged the key. -/
def Permitted (system : System) (move : Move) (item : CacheItem) : Prop :=
  match system.position move.thread, move.action with
  | .idle, .set key data itemAllocated dataAllocated _ =>
      item.key = key ∧ Stores system.cache key data itemAllocated dataAllocated
  | .idle, .delete key => item.key = key
  | .deleting key judgedAt now, .resume =>
      item.key = key ∧ 30 < now - item.timestamp ∧ system.storedAt key ≤ judgedAt
  | .cleaning now _, .resume => 30 < now - item.timestamp
  | _, _ => False

/-- Every item that the step takes out of the cache may be taken out. -/
def Justified (system : System) (move : Move) : Prop :=
  ∀ item ∈ system.cache.contents, item ∉ (systemStep system move).cache.contents →
    Permitted system move item

/-- The keys fit into an item. -/
def Move.KeyFits (move : Move) : Prop :=
  match move.action with
  | .set key _ _ _ _ => key.length ≤ 127
  | .get key _ _ => key.length ≤ 127
  | .delete key => key.length ≤ 127
  | _ => True

/-- A `cache_set` does not store a value while a `cache_get` is between its verdict on the key and
its deletion of the key, and it does not fail after it has freed an old value. -/
def Undisturbed (system : System) (move : Move) : Prop :=
  match system.position move.thread, move.action with
  | .idle, .set key data itemAllocated dataAllocated _ =>
      (Stores system.cache key data itemAllocated dataAllocated →
        ∀ thread judgedAt now, system.position thread ≠ .deleting key judgedAt now) ∧
      (data ≠ [] → lookup system.cache key ≠ none → dataAllocated)
  | _, _ => True

/-! ## The invariant -/

/-- Moving a thread to a place that is not before a deletion begins no deletion. -/
theorem deleting_of_update {positions : ℕ → Position} {thread : ℕ} {position : Position}
    (hposition : ∀ key judgedAt now, position ≠ .deleting key judgedAt now) (other : ℕ)
    (key : CString) (judgedAt : ℕ) (now : ℤ)
    (h : Function.update positions thread position other = .deleting key judgedAt now) :
    positions other = .deleting key judgedAt now := by
  rw [Function.update_apply] at h
  split_ifs at h
  · exact absurd h (hposition key judgedAt now)
  · exact h

/-- What holds between the two sections of `cache_get`. -/
structure Pending (system : System) (key : CString) (judgedAt : ℕ) (now : ℤ) : Prop where
  stored_le : system.storedAt key ≤ judgedAt
  judged_lt : judgedAt < system.steps
  expired : ∀ item, lookup system.cache key = some item → expired now item

structure Sound (system : System) : Prop where
  chains : system.cache.ChainsWellFormed
  intact : ∀ item ∈ system.cache.contents, item.Intact
  stored_le : ∀ key, system.storedAt key ≤ system.steps
  pending : ∀ thread key judgedAt now, system.position thread = .deleting key judgedAt now →
    Pending system key judgedAt now

theorem sound_startSystem : Sound startSystem :=
  ⟨chainsWellFormed_cacheCreate, by simp [Cache.contents, startSystem, cacheCreate],
    fun _ ↦ le_rfl, by rintro _ _ _ _ ⟨⟩⟩

/-- A step that stores nothing under the key and finds no new item for it. -/
theorem Pending.next {system after : System} {key : CString} {judgedAt : ℕ} {now : ℤ}
    (h : Pending system key judgedAt now) (hstored : after.storedAt key = system.storedAt key)
    (hsteps : system.steps ≤ after.steps)
    (hlookup : ∀ item, lookup after.cache key = some item → lookup system.cache key = some item) :
    Pending after key judgedAt now :=
  ⟨hstored ▸ h.stored_le, h.judged_lt.trans_le hsteps,
    fun item hitem ↦ h.expired item (hlookup item hitem)⟩

namespace Sound

variable {system : System}

/-- A step that releases items, stores nothing, and begins no deletion. -/
theorem release (h : Sound system) {cache : Cache} {released : Multiset CacheItem}
    (hreleased : Released system.cache cache released) (hchains : cache.ChainsWellFormed)
    (hlookup : ∀ key item, lookup cache key = some item → lookup system.cache key = some item)
    {position : ℕ → Position}
    (hposition : ∀ thread key judgedAt now, position thread = .deleting key judgedAt now →
      system.position thread = .deleting key judgedAt now) :
    Sound { system with cache, position, steps := system.steps + 1 } :=
  ⟨hchains, hreleased.intact h.intact, fun key ↦ (h.stored_le key).trans (Nat.le_succ _),
    fun thread key judgedAt now hthread ↦
      (h.pending thread key judgedAt now (hposition _ _ _ _ hthread)).next rfl (Nat.le_succ _)
        (hlookup key)⟩

theorem lookup_of_cacheDelete (h : Sound system) {key other : CString} {item : CacheItem}
    (hitem : lookup (cacheDelete system.cache key) other = some item) :
    lookup system.cache other = some item := by
  rw [h.chains.lookup_cacheDelete] at hitem
  split_ifs at hitem
  exact hitem

theorem lookup_of_cleanBucket (h : Sound system) {now : ℤ} {bucket : Fin 256} {key : CString}
    {item : CacheItem} (hitem : lookup (cleanBucket now system.cache bucket) key = some item) :
    lookup system.cache key = some item := by
  rw [h.chains.lookup_cleanBucket] at hitem
  split_ifs at hitem
  · exact (Option.filter_eq_some_iff.1 hitem).1
  · exact hitem

/-- The deletion section, also of `cache_get`. -/
theorem delete (h : Sound system) (key : CString) {position : ℕ → Position}
    (hposition : ∀ thread key judgedAt now, position thread = .deleting key judgedAt now →
      system.position thread = .deleting key judgedAt now) :
    Sound { system with
      cache := cacheDelete system.cache key, position, steps := system.steps + 1 } := by
  obtain ⟨released, hreleased⟩ := exists_released_cacheDelete system.cache key
  exact h.release hreleased (h.chains.cacheDelete key) (fun _ _ ↦ h.lookup_of_cacheDelete) hposition

/-- An undisturbed `cache_set`. -/
theorem set (h : Sound system) {key : CString} (hkey : key.length ≤ 127) {data : List UInt8}
    {itemAllocated dataAllocated : Bool} (now : ℤ)
    (hpending : Stores system.cache key data itemAllocated dataAllocated →
      ∀ thread judgedAt now, system.position thread ≠ .deleting key judgedAt now)
    (hkept : data ≠ [] → lookup system.cache key ≠ none → dataAllocated) :
    Sound { system with
      cache := (cacheSet system.cache key data itemAllocated dataAllocated now).2
      steps := system.steps + 1
      storedAt :=
        if (cacheSet system.cache key data itemAllocated dataAllocated now).1 = 0 then
          Function.update system.storedAt key system.steps
        else system.storedAt } := by
  by_cases hstores : Stores system.cache key data itemAllocated dataAllocated
  · rw [if_pos (cacheSet_eq_zero_iff.2 hstores)]
    refine ⟨?_, ?_, fun other ↦ ?_, fun thread other judgedAt time hthread ↦ ?_⟩
    · exact (chainsWellFormed_step_iff h.chains (.set key data itemAllocated dataAllocated now)).2
        fun _ _ _ _ ↦ .inl hkey
    · exact intact_cacheSet h.intact hkept
    · have hle := h.stored_le other
      change Function.update system.storedAt key system.steps other ≤ system.steps + 1
      rw [Function.update_apply]
      split_ifs <;> omega
    · have hne : key ≠ other := by
        rintro rfl
        exact hpending hstores thread judgedAt time hthread
      refine (h.pending thread other judgedAt time hthread).next ?_ (Nat.le_succ _)
        fun item hitem ↦ ?_
      · exact Function.update_of_ne hne.symm _ _
      · rwa [lookup_cacheSet_of_ne hkey hne] at hitem
  · rw [cacheSet_eq_of_not_stores hstores hkept, if_neg (by simp)]
    apply h.release (released_refl _) h.chains (fun _ _ hitem ↦ hitem)
    intro _ _ _ _ hthread
    exact hthread

/-- The verdict of `cache_get`. -/
theorem get (h : Sound system) (thread : ℕ) (key : CString) (allocated : Bool) (now : ℤ) :
    Sound { system with
      position :=
        if judge system.cache key allocated now = .expired then
          Function.update system.position thread (.deleting key system.steps now)
        else system.position
      steps := system.steps + 1 } := by
  refine ⟨h.chains, h.intact, fun other ↦ (h.stored_le other).trans (Nat.le_succ _),
    fun other key' judgedAt time hother ↦ ?_⟩
  have hkept : system.position other = .deleting key' judgedAt time →
      Pending { system with
        position :=
          if judge system.cache key allocated now = .expired then
            Function.update system.position thread (.deleting key system.steps now)
          else system.position
        steps := system.steps + 1 } key' judgedAt time := fun hold ↦
    (h.pending other key' judgedAt time hold).next rfl (Nat.le_succ _) fun _ hitem ↦ hitem
  by_cases hjudge : judge system.cache key allocated now = .expired
  · simp only [if_pos hjudge, Function.update_apply] at hother
    split_ifs at hother with hthread
    · obtain ⟨rfl, rfl, rfl⟩ := Position.deleting.inj hother
      exact ⟨h.stored_le key, Nat.lt_succ_self _, expired_of_judge hjudge⟩
    · exact hkept hother
  · simp only [if_neg hjudge] at hother
    exact hkept hother

/-- A step that leaves the cache as it is and begins no deletion. -/
theorem stay (h : Sound system) {position : ℕ → Position}
    (hposition : ∀ thread key judgedAt now, position thread = .deleting key judgedAt now →
      system.position thread = .deleting key judgedAt now) :
    Sound { system with position, steps := system.steps + 1 } :=
  h.release (released_refl _) h.chains (fun _ _ hitem ↦ hitem) hposition

end Sound

/-- A step that leaves the cache as it is takes nothing out. -/
theorem justified_of_cache_eq {system : System} {move : Move}
    (h : (systemStep system move).cache = system.cache) : Justified system move := by
  intro item hbefore hafter
  rw [h] at hafter
  exact absurd hbefore hafter

/-- An undisturbed step keeps the invariant. -/
theorem sound_step {system : System} (h : Sound system) {move : Move} (hkey : move.KeyFits)
    (hundisturbed : Undisturbed system move) : Sound (systemStep system move) := by
  obtain ⟨thread, action⟩ := move
  cases hposition : system.position thread with
  | idle =>
    cases action with
    | set key data itemAllocated dataAllocated now =>
      simp only [Undisturbed, hposition] at hundisturbed
      simpa only [systemStep, hposition] using h.set hkey now hundisturbed.1 hundisturbed.2
    | get key allocated now =>
      simpa only [systemStep, hposition] using h.get thread key allocated now
    | delete key =>
      simpa only [systemStep, hposition] using h.delete key fun _ _ _ _ hthread ↦ hthread
    | cleanupExpired now =>
      simpa only [systemStep, hposition] using h.stay (deleting_of_update (by simp))
    | resume => simpa only [systemStep, hposition] using h
  | deleting key judgedAt now =>
    cases action with
    | resume => simpa only [systemStep, hposition] using h.delete key (deleting_of_update (by simp))
    | set | get | delete | cleanupExpired => simpa only [systemStep, hposition] using h
  | cleaning now buckets =>
    cases action with
    | resume =>
      cases buckets with
      | nil => simpa only [systemStep, hposition] using h.stay (deleting_of_update (by simp))
      | cons bucket rest =>
        simpa only [systemStep, hposition] using
          h.release (cleanBucket_released now system.cache bucket)
            (h.chains.cleanBucket now bucket) (fun _ _ ↦ h.lookup_of_cleanBucket)
            (deleting_of_update (by simp))
    | set | get | delete | cleanupExpired => simpa only [systemStep, hposition] using h

/-- An undisturbed step takes out only what may be taken out. -/
theorem justified_step {system : System} (h : Sound system) {move : Move}
    (hundisturbed : Undisturbed system move) : Justified system move := by
  obtain ⟨thread, action⟩ := move
  cases hposition : system.position thread with
  | idle =>
    cases action with
    | set key data itemAllocated dataAllocated now =>
      intro item hbefore hafter
      simp only [Undisturbed, hposition] at hundisturbed
      simp only [systemStep, hposition] at hafter
      simpa only [Permitted, hposition] using lost_of_cacheSet hundisturbed.2 hbefore hafter
    | delete key =>
      intro item hbefore hafter
      simp only [systemStep, hposition] at hafter
      simpa only [Permitted, hposition] using keyOf_of_find (lost_of_cacheDelete hbefore hafter)
    | get | cleanupExpired | resume =>
      apply justified_of_cache_eq
      simp only [systemStep, hposition]
  | deleting key judgedAt now =>
    cases action with
    | resume =>
      intro item hbefore hafter
      simp only [systemStep, hposition] at hafter
      have hlookup := lost_of_cacheDelete hbefore hafter
      have hpending := h.pending thread key judgedAt now hposition
      have hexpired := hpending.expired item hlookup
      simp only [Permitted, hposition]
      exact ⟨keyOf_of_find hlookup, of_decide_eq_true hexpired, hpending.stored_le⟩
    | set | get | delete | cleanupExpired =>
      apply justified_of_cache_eq
      simp only [systemStep, hposition]
  | cleaning now buckets =>
    cases action with
    | resume =>
      cases buckets with
      | nil =>
        apply justified_of_cache_eq
        simp only [systemStep, hposition]
      | cons bucket rest =>
        intro item hbefore hafter
        simp only [systemStep, hposition] at hafter
        have hexpired := lost_of_cleanBucket hbefore hafter
        simp only [Permitted, hposition]
        exact of_decide_eq_true hexpired
    | set | get | delete | cleanupExpired =>
      apply justified_of_cache_eq
      simp only [systemStep, hposition]

theorem undisturbed_resume (system : System) (thread : ℕ) :
    Undisturbed system ⟨thread, .resume⟩ := by
  cases hposition : system.position thread <;> simp only [Undisturbed, hposition]

/-- In every interleaving in which no `cache_set` disturbs a `cache_get` between its two sections or
fails after it has freed old data, a value is removed only by a newer value, by the client, or
because it has itself expired. -/
theorem no_lost_update {moves : List Move} (hkeys : ∀ move ∈ moves, move.KeyFits)
    (hundisturbed : Along systemStep Undisturbed startSystem moves) :
    Along systemStep Justified startSystem moves := by
  have hcalls : Along systemStep (fun _ move ↦ move.KeyFits) startSystem moves :=
    along_of_forall hkeys
  have hstep : ∀ system move, Sound system → move.KeyFits ∧ Undisturbed system move →
      Sound (systemStep system move) ∧ Justified system move :=
    fun _ _ h hmove ↦ ⟨sound_step h hmove.1 hmove.2, justified_step h hmove.2⟩
  exact along_of_invariant hstep sound_startSystem (hcalls.and hundisturbed)

theorem no_lost_update_example :
    Along systemStep Justified startSystem
      [⟨0, .set shortKey [1] true true 0⟩, ⟨1, .get shortKey true 40⟩, ⟨1, .resume⟩] := by
  apply no_lost_update (by simp [Move.KeyFits, CString.length, shortKey])
  refine ⟨?_, trivial, ?_, trivial⟩
  · exact ⟨by simp [startSystem], fun _ _ ↦ rfl⟩
  · exact undisturbed_resume _ 1

/-- One thread stores a value and later stores it anew; in between, another thread's `cache_get` has
judged the old value expired, and then removes the new one. -/
theorem lost_update :
    ¬Along systemStep Justified startSystem
      [⟨0, .set shortKey [1] true true 0⟩, ⟨1, .get shortKey true 40⟩,
        ⟨0, .set shortKey [2] true true 41⟩, ⟨1, .resume⟩] := by
  rintro ⟨-, -, -, hresume, -⟩
  have hpermitted := hresume { key := shortKey, data := some [2], dataSize := 1, timestamp := 41 }
    (mem_contents.2 ⟨hashKey shortKey, by decide +kernel⟩) fun hmem ↦ by
      obtain ⟨bucket, hbucket⟩ := mem_contents.1 hmem
      revert bucket
      decide +kernel
  have hposition : (run systemStep startSystem
      [⟨0, .set shortKey [1] true true 0⟩, ⟨1, .get shortKey true 40⟩,
        ⟨0, .set shortKey [2] true true 41⟩]).position 1 = .deleting shortKey 1 40 := by
    decide +kernel
  simp only [run_cons, run_nil] at hposition
  simp only [Permitted, hposition] at hpermitted
  exact absurd hpermitted.2.2 (by decide +kernel)

/-! ## Every disturbance can lose a value -/

theorem lookup_cacheSet_self {cache : Cache} {key : CString} (hkey : key.length ≤ 127)
    {data : List UInt8} {itemAllocated dataAllocated : Bool} {now : ℤ}
    (hstores : Stores cache key data itemAllocated dataAllocated) :
    ∃ item, lookup (cacheSet cache key data itemAllocated dataAllocated now).2 key = some item := by
  obtain ⟨hdata, hcopy, hroom⟩ := hstores
  rcases cacheSet_cases cache key data itemAllocated dataAllocated now with
    ⟨-, hempty | ⟨hnone, hnot⟩⟩ | ⟨item, hlookup, -, -, hset⟩ | ⟨item, -, -, hnot, -⟩ |
      ⟨-, -, -, -, hset⟩
  · exact absurd hempty hdata
  · rcases hroom with hitem | hsome
    · exact absurd ⟨hitem, hcopy⟩ hnot
    · exact absurd hnone hsome
  · have hchange : ∀ item, (overwriteItem data now item).key = item.key := fun _ ↦ rfl
    rw [hset, lookup_modify cache key key hchange, if_pos rfl, hlookup]
    exact ⟨_, rfl⟩
  · exact absurd hcopy hnot
  · rw [hset, lookup_push cache (CString.take_eq_self hkey) key, if_pos rfl]
    exact ⟨_, rfl⟩

/-- A `cache_set` that fails after it has freed old data loses the old value. -/
theorem not_justified_of_failed {system : System} (h : Sound system) {thread : ℕ} {key : CString}
    {data : List UInt8} {itemAllocated : Bool} {now : ℤ}
    (hposition : system.position thread = .idle) (hdata : data ≠ [])
    (hfound : lookup system.cache key ≠ none) :
    ¬Justified system ⟨thread, .set key data itemAllocated false now⟩ := by
  obtain ⟨item, hlookup⟩ := Option.ne_none_iff_exists'.1 hfound
  have hset : cacheSet system.cache key data itemAllocated false now =
      (-1, system.cache.modify key loseData) := by
    simp [cacheSet, hdata, hlookup]
  obtain ⟨rest, hbefore, hafter⟩ := contents_modify hlookup loseData
  have hmem : item ∈ system.cache.contents := by
    rw [hbefore]
    exact Multiset.mem_cons_self _ _
  have hgone : item ∉ (system.cache.modify key loseData).contents := by
    rw [hafter, Multiset.mem_cons, not_or]
    constructor
    · obtain ⟨bytes, hbytes, -⟩ := h.intact item hmem
      intro heq
      rw [heq] at hbytes
      exact absurd hbytes (by simp [loseData])
    · have hdistinct : (system.cache.contents.map CacheItem.key).Nodup := h.chains.distinct
      rw [hbefore, Multiset.map_cons, Multiset.nodup_cons] at hdistinct
      exact fun hrest ↦ hdistinct.1 (Multiset.mem_map_of_mem _ hrest)
  intro hjustified
  have hpermitted := hjustified item hmem (by simpa only [systemStep, hposition, hset] using hgone)
  simp only [Permitted, hposition, Stores] at hpermitted
  exact absurd hpermitted.2.2.1 (by decide)

/-- After a `cache_set` between the two sections of a `cache_get` of the same key, the second
section loses the new value. -/
theorem not_justified_of_pending {system : System} (h : Sound system) {thread : ℕ} {key : CString}
    (hkey : key.length ≤ 127) {data : List UInt8} {itemAllocated dataAllocated : Bool} {now : ℤ}
    (hposition : system.position thread = .idle)
    (hstores : Stores system.cache key data itemAllocated dataAllocated)
    {other : ℕ} {judgedAt : ℕ} {time : ℤ}
    (hother : system.position other = .deleting key judgedAt time) :
    ¬Justified (systemStep system ⟨thread, .set key data itemAllocated dataAllocated now⟩)
      ⟨other, .resume⟩ := by
  have hafter : systemStep system ⟨thread, .set key data itemAllocated dataAllocated now⟩ =
      { system with
        cache := (cacheSet system.cache key data itemAllocated dataAllocated now).2
        steps := system.steps + 1
        storedAt := Function.update system.storedAt key system.steps } := by
    simp only [systemStep, hposition, cacheSet_eq_zero_iff.2 hstores, if_true]
  rw [hafter]
  have hchains := (chainsWellFormed_step_iff h.chains
    (.set key data itemAllocated dataAllocated now)).2 fun _ _ _ _ ↦ .inl hkey
  obtain ⟨item, hlookup⟩ : ∃ item, lookup
      (cacheSet system.cache key data itemAllocated dataAllocated now).2 key = some item :=
    lookup_cacheSet_self hkey hstores
  intro hjustified
  have hgone : item ∉ (cacheDelete
      (cacheSet system.cache key data itemAllocated dataAllocated now).2 key).contents := by
    have hnone : lookup (cacheDelete
        (cacheSet system.cache key data itemAllocated dataAllocated now).2 key) key = none := by
      have hdelete := hchains.lookup_cacheDelete key key
      rwa [if_pos rfl] at hdelete
    have hnot := (WellFormed.find_eq_none_iff (hchains.cacheDelete key)).1 hnone
    exact fun hmem ↦ hnot item hmem (keyOf_of_find hlookup)
  have hpermitted := hjustified item (mem_of_find hlookup)
    (by simpa only [systemStep, hother] using hgone)
  simp only [Permitted, hother, Function.update_self] at hpermitted
  exact absurd hpermitted.2.2 (Nat.not_le.2 (h.pending other key judgedAt time hother).judged_lt)

/-- Wherever a run is disturbed for the first time, it can be continued so that a value is lost. -/
theorem lost_update_of_disturbed {moves : List Move} {move : Move}
    (hkeys : ∀ move ∈ moves, move.KeyFits) (hkey : move.KeyFits)
    (hundisturbed : Along systemStep Undisturbed startSystem moves)
    (hdisturbed : ¬Undisturbed (run systemStep startSystem moves) move) :
    ∃ rest, ¬Along systemStep Justified startSystem (moves ++ move :: rest) := by
  have hcalls : Along systemStep (fun _ move ↦ move.KeyFits) startSystem moves :=
    along_of_forall hkeys
  have hstep : ∀ system move, Sound system → move.KeyFits ∧ Undisturbed system move →
      Sound (systemStep system move) := fun _ _ h hmove ↦ sound_step h hmove.1 hmove.2
  have hsound := (throughout_of_along hstep sound_startSystem (hcalls.and hundisturbed)).last
  obtain ⟨thread, action⟩ := move
  cases hposition : (run systemStep startSystem moves).position thread with
  | deleting | cleaning => simp [Undisturbed, hposition] at hdisturbed
  | idle =>
    cases action with
    | get | delete | cleanupExpired | resume => simp [Undisturbed, hposition] at hdisturbed
    | set key data itemAllocated dataAllocated now =>
      simp only [Undisturbed, hposition, Classical.not_and_iff_not_or_not] at hdisturbed
      rcases hdisturbed with hpending | hkept
      · push Not at hpending
        obtain ⟨hstores, other, judgedAt, time, hother⟩ := hpending
        refine ⟨[⟨other, .resume⟩], fun halong ↦ ?_⟩
        rw [along_append, along_cons, along_cons] at halong
        exact not_justified_of_pending hsound hkey hposition hstores hother halong.2.2.1
      · push Not at hkept
        obtain ⟨hdata, hfound, hcopy⟩ := hkept
        refine ⟨[], fun halong ↦ ?_⟩
        rw [along_append, along_cons] at halong
        obtain rfl : dataAllocated = false := by simpa using hcopy
        exact not_justified_of_failed hsound hposition hdata hfound halong.2.1

end HiFetch.Memory.ResultCache
