import HiFetch.Library.UnlinkLoop
import HiFetch.Memory.CacheInvariant

/-!
# Cleaning up, on the pointers

`cache_cleanup_expired` unlinks items while it walks a chain.  Here the chains are what the source
has: item nodes in a heap, reached from the heads of the buckets, with the addresses that were
passed to `free`.  A read of a freed node has no result.

The loop removes the expired items of a bucket, wherever they stand, and keeps the order of the
others.  The other buckets share no node with this one, so the 256 critical sections together
remove exactly the expired items of the cache.  The lists of the cache model are the items along
these chains, and the two cleanups agree.
-/

namespace HiFetch.Memory.ResultCache

open LinkedHeap

structure CacheNode where
  item : CacheItem
  next : Option ℕ

instance : Linked CacheNode where
  next := CacheNode.next
  setNext node link := { node with next := link }
  next_setNext _ _ := rfl

/-- The cache with its nodes.  An address passed to `free` stays in `freed`. -/
structure CacheHeap where
  nodes : Heap CacheNode
  buckets : Fin 256 → Option ℕ
  totalItems : BitVec 32
  totalMemory : BitVec 64
  freed : List ℕ

/-- The two counters after an item has been unlinked. -/
def releaseItem (counters : BitVec 32 × BitVec 64) (item : CacheItem) : BitVec 32 × BitVec 64 :=
  (counters.1 - 1, counters.2 - BitVec.ofNat 64 item.dataSize)

namespace CacheHeap

/-- What the loop over the chain of a bucket starts from. -/
def sweep (heap : CacheHeap) (bucket : Fin 256) : Sweep CacheNode (BitVec 32 × BitVec 64) where
  heap := heap.nodes
  head := heap.buckets bucket
  freed := heap.freed
  account := (heap.totalItems, heap.totalMemory)

/-- The critical section of `cache_cleanup_expired` for one bucket. -/
def cleanupBucket (now : ℤ) (heap : CacheHeap) (bucket : Fin 256) : Option CacheHeap :=
  (unlinkAll CacheNode.item (expired now) releaseItem (heap.sweep bucket)).map fun swept ↦
      { nodes := swept.heap
        buckets := Function.update heap.buckets bucket swept.head
        totalItems := swept.account.1
        totalMemory := swept.account.2
        freed := swept.freed }

/-- `cache_cleanup_expired`. -/
def cleanupExpired (heap : CacheHeap) (now : ℤ) : Option CacheHeap :=
  (List.finRange 256).foldlM (cleanupBucket now) heap

/-- The item of the node at an address. -/
def itemAt (heap : CacheHeap) (address : ℕ) : Option CacheItem :=
  contentAt CacheNode.item heap.nodes address

def expiredAt (heap : CacheHeap) (now : ℤ) (address : ℕ) : Bool :=
  passesAt CacheNode.item (expired now) heap.nodes address

/-- The bytes of data of the nodes at these addresses. -/
def dataAt (heap : CacheHeap) (addresses : List ℕ) : ℕ :=
  ((addresses.filterMap heap.itemAt).map CacheItem.dataSize).sum

/-- The chain of every bucket is finite and has only live nodes, and the chains share none. -/
structure Holds (heap : CacheHeap) (chains : Fin 256 → List ℕ) : Prop where
  chain : ∀ bucket, Chain heap.nodes (heap.buckets bucket) (chains bucket)
  apart : ∀ {bucket other}, bucket ≠ other → ∀ address ∈ chains bucket, address ∉ chains other
  live : ∀ bucket, ∀ address ∈ chains bucket, address ∉ heap.freed

/-- The nodes at these addresses have been unlinked and freed, and nothing else has changed. -/
structure Removed (before after : CacheHeap) (chains : Fin 256 → List ℕ) (removed : List ℕ) :
    Prop where
  holds : after.Holds fun bucket ↦ (chains bucket).filter fun address ↦ address ∉ removed
  itemAt_eq : ∀ address, after.itemAt address = before.itemAt address
  freed_eq : after.freed = before.freed ++ removed
  totalItems_eq : after.totalItems = before.totalItems - BitVec.ofNat 32 removed.length
  totalMemory_eq : after.totalMemory =
    before.totalMemory - BitVec.ofNat 64 (before.dataAt removed)

/-! ## One bucket -/

theorem foldl_releaseItem (items : List CacheItem) (counters : BitVec 32 × BitVec 64) :
    items.foldl releaseItem counters = (counters.1 - BitVec.ofNat 32 items.length,
      counters.2 - BitVec.ofNat 64 (items.map CacheItem.dataSize).sum) := by
  induction items generalizing counters with
  | nil => simp
  | cons item rest ih =>
    rw [List.foldl_cons, ih, releaseItem, List.length_cons, List.map_cons, List.sum_cons,
      Nat.add_comm rest.length, BitVec.ofNat_add, BitVec.ofNat_add, BitVec.sub_sub,
      BitVec.sub_sub]
    rfl

theorem Holds.nodup {heap : CacheHeap} {chains : Fin 256 → List ℕ} (h : heap.Holds chains)
    (bucket : Fin 256) : (chains bucket).Nodup := (h.chain bucket).nodup

theorem length_filterMap_itemAt {heap : CacheHeap} {addresses : List ℕ}
    (h : ∀ address ∈ addresses, address < heap.nodes.length) :
    (addresses.filterMap heap.itemAt).length = addresses.length := by
  rw [List.length_filterMap_eq_countP, List.countP_eq_length]
  intro address haddress
  simp [itemAt, contentAt, h address haddress]

/-- The chains of the other buckets have no node of this one. -/
theorem Holds.filter_notMem_of_ne {heap : CacheHeap} {chains : Fin 256 → List ℕ}
    (h : heap.Holds chains) {bucket other : Fin 256} (hne : other ≠ bucket) (now : ℤ) :
    ((chains other).filter fun address ↦ address ∉ (chains bucket).filter (heap.expiredAt now)) =
      chains other := by
  rw [List.filter_eq_self]
  intro address haddress
  have hnot := h.apart hne address haddress
  simp [hnot]

theorem filter_notMem_filter (addresses : List ℕ) (condition : ℕ → Bool) :
    (addresses.filter fun address ↦ address ∉ addresses.filter condition) =
      addresses.filter fun address ↦ !condition address := by
  apply List.filter_congr
  intro address haddress
  simp [haddress]

/-- The loop over one bucket removes its expired nodes. -/
theorem cleanupBucket_removed {heap : CacheHeap} {chains : Fin 256 → List ℕ}
    (h : heap.Holds chains) (now : ℤ) (bucket : Fin 256) :
    ∃ after, cleanupBucket now heap bucket = some after ∧
      Removed heap after chains ((chains bucket).filter (heap.expiredAt now)) := by
  have hview : ∀ (node : CacheNode) link, (Linked.setNext node link).item = node.item :=
    fun _ _ ↦ rfl
  have hchain : Chain (heap.sweep bucket).heap (heap.sweep bucket).head (chains bucket) :=
    h.chain bucket
  obtain ⟨swept, hrun, hswept⟩ := unlinkAll_spec releaseItem hview hchain (h.live bucket)
  refine ⟨_, by rw [cleanupBucket, hrun, Option.map_some], ?_⟩
  have haccount := hswept.account_eq
  rw [foldl_releaseItem] at haccount
  constructor
  · constructor
    · intro other
      rcases eq_or_ne other bucket with rfl | hne
      · change Chain swept.heap (Function.update heap.buckets other swept.head other) _
        rw [Function.update_self, filter_notMem_filter]
        exact hswept.chain
      · change Chain swept.heap (Function.update heap.buckets bucket swept.head other) _
        rw [Function.update_of_ne hne, h.filter_notMem_of_ne hne]
        exact hswept.frame (h.chain other) (h.apart hne.symm)
    · intro first second hne address haddress hother
      exact h.apart hne address (List.mem_of_mem_filter haddress) (List.mem_of_mem_filter hother)
    · intro other address haddress hfreed
      obtain ⟨hmem, hnot⟩ := List.mem_filter.1 haddress
      rw [hswept.freed_eq] at hfreed
      rcases List.mem_append.1 hfreed with hold | hnew
      · exact h.live other address hmem hold
      · exact absurd hnew (of_decide_eq_true hnot)
  · exact hswept.content_eq
  · exact hswept.freed_eq
  · have hlt : ∀ address ∈ (chains bucket).filter (heap.expiredAt now),
        address < heap.nodes.length := fun address haddress ↦
      (h.chain bucket).lt_length address (List.mem_of_mem_filter haddress)
    rw [← length_filterMap_itemAt hlt]
    exact congrArg Prod.fst haccount
  · exact congrArg Prod.snd haccount

/-! ## All buckets -/

variable {heap : CacheHeap} {chains : Fin 256 → List ℕ}

theorem expiredAt_eq {before after : CacheHeap}
    (h : ∀ address, after.itemAt address = before.itemAt address) (now : ℤ) :
    after.expiredAt now = before.expiredAt now := by
  funext address
  exact congrArg (Option.any (expired now)) (h address)

theorem dataAt_append (heap : CacheHeap) (first second : List ℕ) :
    heap.dataAt (first ++ second) = heap.dataAt first + heap.dataAt second := by
  rw [dataAt, List.filterMap_append, List.map_append, List.sum_append, dataAt, dataAt]

theorem removed_nil (h : heap.Holds chains) : Removed heap heap chains [] := by
  have hkept : (fun bucket ↦ (chains bucket).filter fun address ↦ address ∉ ([] : List ℕ)) =
      chains := by
    funext bucket
    simp
  refine ⟨?_, fun _ ↦ rfl, by simp, by simp, by simp [dataAt]⟩
  rwa [hkept]

theorem Removed.trans {between after : CacheHeap} {removed later : List ℕ}
    (h : Removed heap between chains removed)
    (hlater : Removed between after (fun bucket ↦
      (chains bucket).filter fun address ↦ address ∉ removed) later) :
    Removed heap after chains (removed ++ later) := by
  have hdata : between.dataAt later = heap.dataAt later := by
    unfold dataAt
    rw [funext h.itemAt_eq]
  constructor
  · have hkept : (fun bucket ↦ (chains bucket).filter fun address ↦ address ∉ removed ++ later) =
        fun bucket ↦ ((chains bucket).filter fun address ↦ address ∉ removed).filter
          fun address ↦ address ∉ later := by
      funext bucket
      rw [List.filter_filter]
      apply List.filter_congr
      intro address _
      simp [Bool.and_comm]
    rw [hkept]
    exact hlater.holds
  · intro address
    rw [hlater.itemAt_eq, h.itemAt_eq]
  · rw [hlater.freed_eq, h.freed_eq, List.append_assoc]
  · rw [hlater.totalItems_eq, h.totalItems_eq, BitVec.sub_sub, List.length_append,
      BitVec.ofNat_add]
  · rw [hlater.totalMemory_eq, h.totalMemory_eq, BitVec.sub_sub, dataAt_append, BitVec.ofNat_add,
      hdata]

/-- The critical sections for these buckets remove the expired nodes of each. -/
theorem foldlM_cleanupBucket_removed (h : heap.Holds chains) (now : ℤ)
    {buckets : List (Fin 256)} (hnodup : buckets.Nodup) :
    ∃ after, buckets.foldlM (cleanupBucket now) heap = some after ∧
      Removed heap after chains
        (buckets.flatMap fun bucket ↦ (chains bucket).filter (heap.expiredAt now)) := by
  induction buckets generalizing heap chains with
  | nil => exact ⟨heap, rfl, removed_nil h⟩
  | cons bucket rest ih =>
    obtain ⟨hbucket, hrest⟩ := List.nodup_cons.1 hnodup
    obtain ⟨between, hfirst, hremoved⟩ := cleanupBucket_removed h now bucket
    obtain ⟨after, hrun, hlater⟩ := ih hremoved.holds hrest
    refine ⟨after, by rw [List.foldlM_cons, hfirst]; exact hrun, ?_⟩
    have hothers : (rest.flatMap fun other ↦ ((chains other).filter fun address ↦
        address ∉ (chains bucket).filter (heap.expiredAt now)).filter (between.expiredAt now)) =
        rest.flatMap fun other ↦ (chains other).filter (heap.expiredAt now) := by
      rw [expiredAt_eq hremoved.itemAt_eq]
      apply List.flatMap_congr
      intro other hother
      have hne : other ≠ bucket := fun heq ↦ hbucket (heq ▸ hother)
      rw [h.filter_notMem_of_ne hne]
    rw [hothers] at hlater
    exact hremoved.trans hlater

/-! ## A second cleanup -/

theorem cleanupBucket_eq_self (h : heap.Holds chains) {now : ℤ} {bucket : Fin 256}
    (hnone : ∀ address ∈ chains bucket, ¬heap.expiredAt now address) :
    cleanupBucket now heap bucket = some heap := by
  have hchain : Chain (heap.sweep bucket).heap (heap.sweep bucket).head (chains bucket) :=
    h.chain bucket
  unfold cleanupBucket
  rw [unlinkAll_eq_self releaseItem hchain (h.live bucket) hnone, Option.map_some]
  simp [sweep, Function.update_eq_self]

theorem cleanupExpired_eq_self (h : heap.Holds chains) {now : ℤ}
    (hnone : ∀ bucket, ∀ address ∈ chains bucket, ¬heap.expiredAt now address) :
    heap.cleanupExpired now = some heap := by
  unfold cleanupExpired
  induction List.finRange 256 with
  | nil => rfl
  | cons bucket rest ih =>
    rw [List.foldlM_cons, cleanupBucket_eq_self h (hnone bucket)]
    exact ih

/-! ## The whole cache -/

/-- The expired nodes of the cache. -/
def expiredNodes (heap : CacheHeap) (chains : Fin 256 → List ℕ) (now : ℤ) : List ℕ :=
  (List.finRange 256).flatMap fun bucket ↦ (chains bucket).filter (heap.expiredAt now)

theorem mem_expiredNodes {now : ℤ} {address : ℕ} :
    address ∈ heap.expiredNodes chains now ↔
      (∃ bucket, address ∈ chains bucket) ∧ heap.expiredAt now address := by
  simp [expiredNodes]

theorem nodup_expiredNodes (h : heap.Holds chains) (now : ℤ) :
    (heap.expiredNodes chains now).Nodup := by
  unfold expiredNodes
  rw [List.nodup_flatMap]
  constructor
  · exact fun bucket _ ↦ (h.nodup bucket).filter _
  · apply (List.nodup_finRange 256).imp
    intro first second hne address hfirst hsecond
    exact h.apart hne address (List.mem_of_mem_filter hfirst) (List.mem_of_mem_filter hsecond)

/-- Whatever the chains are and wherever the expired nodes stand in them, `cache_cleanup_expired`
returns.  It keeps the other nodes in their order, with their items, frees every expired node once,
and takes the number and the sizes of the freed items off the counters.  A second cleanup at the
same time changes nothing. -/
theorem cleanupExpired_removes_expired (h : heap.Holds chains) (now : ℤ) :
    ∃ after removed, heap.cleanupExpired now = some after ∧
      after.Holds (fun bucket ↦
        (chains bucket).filter fun address ↦ !heap.expiredAt now address) ∧
      (∀ address, after.itemAt address = heap.itemAt address) ∧
      after.freed = heap.freed ++ removed ∧ removed.Nodup ∧
      (∀ address, address ∈ removed ↔
        (∃ bucket, address ∈ chains bucket) ∧ heap.expiredAt now address) ∧
      after.totalItems = heap.totalItems - BitVec.ofNat 32 removed.length ∧
      after.totalMemory = heap.totalMemory - BitVec.ofNat 64 (heap.dataAt removed) ∧
      after.cleanupExpired now = some after := by
  obtain ⟨after, hrun, hremoved⟩ := foldlM_cleanupBucket_removed h now (List.nodup_finRange 256)
  have hkept : (fun bucket ↦ (chains bucket).filter fun address ↦
      address ∉ heap.expiredNodes chains now) =
        fun bucket ↦ (chains bucket).filter fun address ↦ !heap.expiredAt now address := by
    funext bucket
    apply List.filter_congr
    intro address haddress
    have hplaced : ∃ bucket, address ∈ chains bucket := ⟨bucket, haddress⟩
    simp [mem_expiredNodes, hplaced]
  have hholds := hremoved.holds
  change after.Holds (fun bucket ↦ (chains bucket).filter fun address ↦
    address ∉ heap.expiredNodes chains now) at hholds
  rw [hkept] at hholds
  refine ⟨after, heap.expiredNodes chains now, hrun, hholds, hremoved.itemAt_eq,
    hremoved.freed_eq, nodup_expiredNodes h now, fun _ ↦ mem_expiredNodes,
    hremoved.totalItems_eq, hremoved.totalMemory_eq, ?_⟩
  apply cleanupExpired_eq_self hholds
  intro bucket address haddress
  rw [expiredAt_eq hremoved.itemAt_eq]
  simpa using (List.mem_filter.1 haddress).2

/-- One chain with a run of expired nodes, a node that stays, and an expired last node. -/
def exampleHeap : CacheHeap where
  nodes :=
    [⟨newItem shortKey [1] 0, some 1⟩, ⟨newItem shortKey [2] 10, some 2⟩,
      ⟨newItem shortKey [3] 90, some 3⟩, ⟨newItem shortKey [4] 20, none⟩]
  buckets := Function.update (fun _ ↦ none) (hashKey shortKey) (some 0)
  totalItems := 4
  totalMemory := 4
  freed := []

def exampleChains : Fin 256 → List ℕ :=
  Function.update (fun _ ↦ []) (hashKey shortKey) [0, 1, 2, 3]

theorem holds_exampleHeap : exampleHeap.Holds exampleChains := by
  have hempty : ∀ {bucket : Fin 256}, bucket ≠ hashKey shortKey → exampleChains bucket = [] :=
    fun hne ↦ Function.update_of_ne hne _ _
  constructor
  · intro bucket
    by_cases hbucket : bucket = hashKey shortKey
    · subst hbucket
      have hhead : exampleHeap.buckets (hashKey shortKey) = some 0 := by simp [exampleHeap]
      have hchain : exampleChains (hashKey shortKey) = [0, 1, 2, 3] := by simp [exampleChains]
      rw [hhead, hchain]
      exact ⟨rfl, _, rfl, rfl, _, rfl, rfl, _, rfl, rfl, _, rfl, rfl⟩
    · rw [hempty hbucket]
      simp [exampleHeap, hbucket]
  · intro bucket other hne address haddress hother
    by_cases hbucket : bucket = hashKey shortKey
    · rw [hempty fun heq ↦ hne (hbucket.trans heq.symm)] at hother
      simp at hother
    · rw [hempty hbucket] at haddress
      simp at haddress
  · simp [exampleHeap]

theorem cleanupExpired_removes_expired_example :
    ∃ after removed, exampleHeap.cleanupExpired 100 = some after ∧
      after.Holds (fun bucket ↦
        (exampleChains bucket).filter fun address ↦ !exampleHeap.expiredAt 100 address) ∧
      (∀ address, after.itemAt address = exampleHeap.itemAt address) ∧
      after.freed = exampleHeap.freed ++ removed ∧ removed.Nodup ∧
      (∀ address, address ∈ removed ↔
        (∃ bucket, address ∈ exampleChains bucket) ∧ exampleHeap.expiredAt 100 address) ∧
      after.totalItems = exampleHeap.totalItems - BitVec.ofNat 32 removed.length ∧
      after.totalMemory =
        exampleHeap.totalMemory - BitVec.ofNat 64 (exampleHeap.dataAt removed) ∧
      after.cleanupExpired 100 = some after :=
  cleanupExpired_removes_expired holds_exampleHeap 100

/-! ## The lists of the cache model -/

/-- The items along the chains, and the counters, are those of the cache. -/
structure Represents (heap : CacheHeap) (chains : Fin 256 → List ℕ) (cache : Cache) : Prop
    extends Holds heap chains where
  items : ∀ bucket, (chains bucket).filterMap heap.itemAt = cache.buckets bucket
  totalItems_eq : heap.totalItems = cache.totalItems
  totalMemory_eq : heap.totalMemory = cache.totalMemory

/-- The items of the nodes that stay are the items that stay. -/
theorem filterMap_itemAt_filter (heap : CacheHeap) (now : ℤ) (addresses : List ℕ)
    (stays : Bool → Bool) :
    (addresses.filter fun address ↦ stays (heap.expiredAt now address)).filterMap heap.itemAt =
      (addresses.filterMap heap.itemAt).filter fun item ↦ stays (expired now item) := by
  rw [List.filterMap_filter, List.filter_filterMap]
  apply List.filterMap_congr
  intro address _
  cases hitem : heap.itemAt address with
  | none => simp
  | some item =>
    have hexpired : heap.expiredAt now address = expired now item :=
      congrArg (Option.any (expired now)) hitem
    rw [hexpired, Option.filter_some]

/-- The critical section of one bucket agrees with that of the cache model. -/
theorem Represents.cleanupBucket {cache : Cache} (h : Represents heap chains cache) (now : ℤ)
    (bucket : Fin 256) :
    ∃ after kept, CacheHeap.cleanupBucket now heap bucket = some after ∧
      Represents after kept (cleanBucket now cache bucket) := by
  obtain ⟨after, hrun, hremoved⟩ := cleanupBucket_removed h.toHolds now bucket
  have hreleased := filterMap_itemAt_filter heap now (chains bucket) id
  have hkept := filterMap_itemAt_filter heap now (chains bucket) not
  simp only [id_eq, h.items] at hreleased hkept
  have hcleaned := cleanBucket_released now cache bucket
  refine ⟨after, _, hrun, hremoved.holds, ?_, ?_, ?_⟩
  · intro other
    rw [buckets_cleanBucket, funext hremoved.itemAt_eq]
    rcases eq_or_ne other bucket with rfl | hne
    · rw [Function.update_self, filter_notMem_filter, hkept]
    · rw [Function.update_of_ne hne, h.filter_notMem_of_ne hne, h.items]
  · have hitems := hcleaned.totalItems_eq
    rw [Multiset.coe_card, ← hreleased, length_filterMap_itemAt] at hitems
    · rw [hremoved.totalItems_eq, h.totalItems_eq, hitems]
      exact BitVec.add_sub_cancel _ _
    · intro address haddress
      exact (h.chain bucket).lt_length address (List.mem_of_mem_filter haddress)
  · have hmemory := hcleaned.totalMemory_eq
    rw [Multiset.map_coe, Multiset.sum_coe, ← hreleased] at hmemory
    rw [hremoved.totalMemory_eq, h.totalMemory_eq, hmemory]
    exact BitVec.add_sub_cancel _ _

/-- `cache_cleanup_expired` on the nodes refines that of the cache model. -/
theorem Represents.cleanupExpired {cache : Cache} (h : Represents heap chains cache) (now : ℤ) :
    ∃ after kept, heap.cleanupExpired now = some after ∧
      Represents after kept (cacheCleanupExpired cache now) := by
  unfold CacheHeap.cleanupExpired cacheCleanupExpired
  induction List.finRange 256 generalizing heap chains cache with
  | nil => exact ⟨heap, chains, rfl, h⟩
  | cons bucket rest ih =>
    obtain ⟨between, kept, hfirst, hbetween⟩ := h.cleanupBucket now bucket
    obtain ⟨after, last, hrun, hafter⟩ := ih hbetween
    exact ⟨after, last, by rw [List.foldlM_cons, hfirst]; exact hrun, hafter⟩

end CacheHeap

end HiFetch.Memory.ResultCache
