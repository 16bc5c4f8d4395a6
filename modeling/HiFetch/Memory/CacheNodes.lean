import HiFetch.Library.LiveList
import HiFetch.Memory.CacheCleanup

/-!
# The cache on its nodes

All operations of the cache on what the source has: item nodes that are allocated, linked into the
chain of a bucket, rewritten, unlinked and passed to `free`.  A read of a freed node has no result.

The nodes carry out the cache model.  From the empty cache, every run of calls returns, reads no
freed node, and gives the results of the model; and every node that was ever allocated has been
freed once or is on exactly one chain.
-/

namespace HiFetch.Memory.ResultCache

open KeyedTable LinkedHeap Transition

namespace CacheHeap

/-- `cache_create`, when `calloc` succeeds. -/
def create : CacheHeap where
  nodes := []
  buckets := fun _ ↦ none
  totalItems := 0
  totalMemory := 0
  freed := []

/-- The search loop over the chain of a key. -/
def findNode (heap : CacheHeap) (key : CString) : Found CacheNode :=
  findLive heap.nodes heap.freed (fun node ↦ decide (node.item.key = key))
    (heap.buckets (hashKey key))

def writeItem (heap : CacheHeap) (address : ℕ) (change : CacheItem → CacheItem) : CacheHeap :=
  { heap with
    nodes := heap.nodes.modify address fun node ↦ { node with item := change node.item } }

/-- A new node at the front of a chain. -/
def pushNode (heap : CacheHeap) (bucket : Fin 256) (item : CacheItem) : CacheHeap :=
  { heap with
    nodes := heap.nodes ++ [{ item, next := heap.buckets bucket }]
    buckets := Function.update heap.buckets bucket (some heap.nodes.length)
    totalItems := heap.totalItems + 1
    totalMemory := heap.totalMemory + BitVec.ofNat 64 item.dataSize }

/-- `*current = item->next; free(item)`. -/
def unlinkNode (heap : CacheHeap) (bucket : Fin 256) (before : Option ℕ) (address : ℕ)
    (node : CacheNode) : CacheHeap :=
  let relinked := relink heap.nodes (heap.buckets bucket) before node.next
  let counters := releaseItem (heap.totalItems, heap.totalMemory) node.item
  { nodes := relinked.1
    buckets := Function.update heap.buckets bucket relinked.2
    totalItems := counters.1
    totalMemory := counters.2
    freed := heap.freed ++ [address] }

/-- `cache_set`. -/
def cacheSet (heap : CacheHeap) (key : CString) (data : List UInt8)
    (itemAllocated dataAllocated : Bool) (now : ℤ) : Option (ℤ × CacheHeap) :=
  if data.length = 0 then some (-1, heap)
  else match heap.findNode key with
    | .endless => none
    | .hit _ address _ =>
        if dataAllocated then some (0, heap.writeItem address (overwriteItem data now))
        else some (-1, heap.writeItem address loseData)
    | .absent =>
        if itemAllocated && dataAllocated then
          some (0, heap.pushNode (hashKey key) (newItem key data now))
        else some (-1, heap)

/-- `cache_delete`. -/
def cacheDelete (heap : CacheHeap) (key : CString) : Option CacheHeap :=
  match heap.findNode key with
  | .endless => none
  | .hit before address node => some (heap.unlinkNode (hashKey key) before address node)
  | .absent => some heap

/-- `cache_get`. -/
def cacheGet (heap : CacheHeap) (key : CString) (allocated : Bool) (now : ℤ) :
    Option (GetResult × CacheHeap) :=
  match heap.findNode key with
  | .endless => none
  | .hit _ _ node =>
      if expired now node.item then (heap.cacheDelete key).map fun heap ↦ (.null, heap)
      else if allocated then
        match node.item.data with
        | none => some (.fault, heap)
        | some data => some (.copied (data.take node.item.dataSize) node.item.dataSize, heap)
      else some (.null, heap)
  | .absent => some (.null, heap)

/-- A call on the nodes: its result and the heap. -/
def call (heap : CacheHeap) : CacheCall → Option (CallResult × CacheHeap)
  | .set key data itemAllocated dataAllocated now =>
      (heap.cacheSet key data itemAllocated dataAllocated now).map fun (code, heap) ↦
        (.code code, heap)
  | .get key allocated now =>
      (heap.cacheGet key allocated now).map fun (result, heap) ↦ (.data result, heap)
  | .delete key => (heap.cacheDelete key).map fun heap ↦ (.done, heap)
  | .cleanupExpired now => (heap.cleanupExpired now).map fun heap ↦ (.done, heap)

/-- The calls of a client, one after the other: their results and the heap. -/
def calls (heap : CacheHeap) : List CacheCall → Option (List CallResult × CacheHeap)
  | [] => some ([], heap)
  | first :: rest => do
      let (result, heap) ← heap.call first
      let (results, heap) ← heap.calls rest
      pure (result :: results, heap)

/-- The nodes carry out the cache, and every node that was allocated has been freed once or is on a
chain. -/
structure Owns (heap : CacheHeap) (chains : Fin 256 → List ℕ) (cache : Cache) : Prop
    extends Represents heap chains cache where
  freed_nodup : heap.freed.Nodup
  freed_lt : ∀ address ∈ heap.freed, address < heap.nodes.length
  owned : ∀ address < heap.nodes.length,
    address ∈ heap.freed ∨ ∃ bucket, address ∈ chains bucket

theorem owns_create : Owns create (fun _ ↦ []) cacheCreate where
  chain _ := rfl
  apart _ _ h := by simp at h
  live _ _ h := by simp at h
  items _ := rfl
  totalItems_eq := rfl
  totalMemory_eq := rfl
  freed_nodup := List.nodup_nil
  freed_lt _ h := by simp [create] at h
  owned _ h := by simp [create] at h

/-! ## Searching -/

section Find

variable {heap : CacheHeap} {chains : Fin 256 → List ℕ} {cache : Cache}

/-- The items in front of the hit, the item found, and those behind it. -/
structure Hit (heap : CacheHeap) (chains : Fin 256 → List ℕ) (cache : Cache) (key : CString)
    (front rest : List ℕ) (address : ℕ) (node : CacheNode) : Prop where
  chain_eq : chains (hashKey key) = front ++ address :: rest
  node_eq : heap.nodes[address]? = some node
  bucket_eq : cache.buckets (hashKey key) =
    front.filterMap heap.itemAt ++ node.item :: rest.filterMap heap.itemAt
  front_ne : ∀ item ∈ front.filterMap heap.itemAt, ¬decide (item.key = key) = true
  key_eq : node.item.key = key

theorem itemAt_eq_some_iff {address : ℕ} {item : CacheItem} :
    heap.itemAt address = some item ↔ ∃ node, heap.nodes[address]? = some node ∧
      node.item = item := by
  simp [itemAt, contentAt]

theorem itemAt_eq_none_iff {address : ℕ} :
    heap.itemAt address = none ↔ heap.nodes.length ≤ address := by
  simp [itemAt, contentAt]

theorem front_ne_of_noneHit {key : CString} {addresses : List ℕ}
    (h : NoneHit heap.nodes (fun node ↦ decide (node.item.key = key)) addresses) :
    ∀ item ∈ addresses.filterMap heap.itemAt, ¬decide (item.key = key) = true := by
  intro item hitem
  obtain ⟨address, haddress, hat⟩ := List.mem_filterMap.1 hitem
  obtain ⟨node, hnode, rfl⟩ := itemAt_eq_some_iff.1 hat
  simpa using h address haddress node hnode

/-- The search finds what the lookup of the model finds. -/
theorem Represents.findNode_cases (h : Represents heap chains cache) (key : CString) :
    (heap.findNode key = .absent ∧ lookup cache key = none) ∨
      ∃ front address rest node, heap.findNode key = .hit front.getLast? address node ∧
        Hit heap chains cache key front rest address node ∧
        lookup cache key = some node.item := by
  unfold findNode
  rw [findLive_eq_find (h.chain _) (h.live _)]
  rcases find_cases (fun node : CacheNode ↦ decide (node.item.key = key)) (h.chain (hashKey key))
    with ⟨hfind, hnone⟩ | ⟨front, address, rest, node, hchain, hfind, hnode, hkey, hnone⟩
  · refine .inl ⟨hfind, ?_⟩
    unfold lookup KeyedTable.find
    rw [← h.items, List.find?_eq_none]
    exact front_ne_of_noneHit hnone
  · have hitem : heap.itemAt address = some node.item := itemAt_eq_some_iff.2 ⟨node, hnode, rfl⟩
    have hbucket : cache.buckets (hashKey key) =
        front.filterMap heap.itemAt ++ node.item :: rest.filterMap heap.itemAt := by
      rw [← h.items, hchain, List.filterMap_append, List.filterMap_cons_some hitem]
    have hfront := front_ne_of_noneHit hnone
    refine .inr ⟨front, address, rest, node, hfind,
      ⟨hchain, hnode, hbucket, hfront, of_decide_eq_true hkey⟩, ?_⟩
    unfold lookup KeyedTable.find
    rw [hbucket, List.find?_append, List.find?_eq_none.2 hfront, Option.none_or]
    exact List.find?_cons_of_pos hkey

end Find

/-! ## Rewriting an item -/

section Steps

variable {heap : CacheHeap} {chains : Fin 256 → List ℕ} {cache : Cache} {key : CString}
  {front rest : List ℕ} {address : ℕ} {node : CacheNode}

theorem modifyFirst_append {condition : CacheItem → Bool} {before after : List CacheItem}
    {item : CacheItem} (hbefore : ∀ other ∈ before, ¬condition other = true)
    (hitem : condition item = true) (change : CacheItem → CacheItem) :
    modifyFirst condition change (before ++ item :: after) = before ++ change item :: after := by
  induction before with
  | nil => simp [modifyFirst, hitem]
  | cons head before ih =>
    rw [List.cons_append, modifyFirst, if_neg (hbefore head List.mem_cons_self),
      ih fun other hother ↦ hbefore other (List.mem_cons_of_mem _ hother), List.cons_append]

theorem itemAt_writeItem_self (hnode : heap.nodes[address]? = some node)
    (change : CacheItem → CacheItem) :
    (heap.writeItem address change).itemAt address = some (change node.item) := by
  unfold itemAt contentAt writeItem
  rw [List.getElem?_modify_eq, hnode]
  rfl

theorem itemAt_writeItem_of_ne {other : ℕ} (hne : address ≠ other)
    (change : CacheItem → CacheItem) :
    (heap.writeItem address change).itemAt other = heap.itemAt other := by
  unfold itemAt contentAt writeItem
  simp [hne]

theorem filterMap_writeItem {addresses : List ℕ} (hnot : address ∉ addresses)
    (change : CacheItem → CacheItem) :
    addresses.filterMap (heap.writeItem address change).itemAt =
      addresses.filterMap heap.itemAt := by
  apply List.filterMap_congr
  intro other hother
  exact itemAt_writeItem_of_ne (ne_of_mem_of_not_mem hother hnot).symm change

theorem Hit.notMem_others (h : Hit heap chains cache key front rest address node)
    (howns : Owns heap chains cache) : address ∉ front ++ rest := by
  have hchain := howns.chain (hashKey key)
  rw [h.chain_eq] at hchain
  exact hchain.notMem_others

theorem Hit.notMem_of_ne (h : Hit heap chains cache key front rest address node)
    (howns : Owns heap chains cache) {other : Fin 256} (hne : other ≠ hashKey key) :
    address ∉ chains other := by
  apply howns.apart hne.symm
  rw [h.chain_eq]
  simp

/-- Rewriting the item that was found is `modify` of the model. -/
theorem Owns.writeItem (howns : Owns heap chains cache)
    (h : Hit heap chains cache key front rest address node) (change : CacheItem → CacheItem) :
    Owns (heap.writeItem address change) chains (cache.modify key change) := by
  have hnext : ∀ node : CacheNode, Linked.next { node with item := change node.item } =
      Linked.next node := fun _ ↦ rfl
  have hlength : (heap.writeItem address change).nodes.length = heap.nodes.length :=
    List.length_modify _ _ _
  constructor
  · constructor
    · exact ⟨fun bucket ↦ (howns.chain bucket).modify_of_next address hnext, howns.apart,
        howns.live⟩
    · intro bucket
      rcases eq_or_ne bucket (hashKey key) with rfl | hne
      · have hothers := h.notMem_others howns
        rw [List.mem_append, not_or] at hothers
        have hself := itemAt_writeItem_self h.node_eq change
        change _ = Function.update cache.buckets (hashKey key) _ (hashKey key)
        rw [Function.update_self, h.bucket_eq, h.chain_eq, List.filterMap_append,
          List.filterMap_cons_some hself, filterMap_writeItem hothers.1,
          filterMap_writeItem hothers.2,
          modifyFirst_append h.front_ne (decide_eq_true h.key_eq) change]
      · change _ = Function.update cache.buckets (hashKey key) _ bucket
        rw [Function.update_of_ne hne, filterMap_writeItem (h.notMem_of_ne howns hne),
          howns.items]
    · exact howns.totalItems_eq
    · exact howns.totalMemory_eq
  · exact howns.freed_nodup
  · rw [hlength]
    exact howns.freed_lt
  · rw [hlength]
    exact howns.owned

/-! ## Pushing a node -/

theorem itemAt_pushNode_of_lt {bucket : Fin 256} {item : CacheItem} {other : ℕ}
    (h : other < heap.nodes.length) :
    (heap.pushNode bucket item).itemAt other = heap.itemAt other := by
  unfold itemAt contentAt pushNode
  rw [List.getElem?_append_left h]

theorem filterMap_pushNode (howns : Owns heap chains cache) (bucket other : Fin 256)
    (item : CacheItem) :
    (chains other).filterMap (heap.pushNode bucket item).itemAt = cache.buckets other := by
  rw [← howns.items]
  apply List.filterMap_congr
  intro address haddress
  exact itemAt_pushNode_of_lt ((howns.chain other).lt_length address haddress)

/-- The address of a new node is on no chain. -/
theorem Owns.length_notMem (howns : Owns heap chains cache) (bucket : Fin 256) :
    heap.nodes.length ∉ chains bucket :=
  fun hmem ↦ lt_irrefl _ ((howns.chain bucket).lt_length _ hmem)

/-- A new node is `push` of the model. -/
theorem Owns.pushNode (howns : Owns heap chains cache) (key : CString) (item : CacheItem) :
    Owns (heap.pushNode (hashKey key) item)
      (Function.update chains (hashKey key) (heap.nodes.length :: chains (hashKey key)))
      (cache.push key item) := by
  have hlength : (heap.pushNode (hashKey key) item).nodes.length = heap.nodes.length + 1 :=
    List.length_append
  have hself : (heap.pushNode (hashKey key) item).nodes[heap.nodes.length]? =
      some { item, next := heap.buckets (hashKey key) } := by
    change (heap.nodes ++ _)[heap.nodes.length]? = _
    rw [List.getElem?_append_right le_rfl, Nat.sub_self]
    rfl
  have hmem : ∀ bucket address, address ∈ Function.update chains (hashKey key)
      (heap.nodes.length :: chains (hashKey key)) bucket →
      address ∈ chains bucket ∨ (bucket = hashKey key ∧ address = heap.nodes.length) := by
    intro bucket address haddress
    rw [Function.update_apply] at haddress
    split_ifs at haddress with hbucket
    · subst hbucket
      rcases List.mem_cons.1 haddress with heq | haddress
      · exact .inr ⟨rfl, heq⟩
      · exact .inl haddress
    · exact .inl haddress
  constructor
  · constructor
    · refine ⟨fun bucket ↦ ?_, fun {bucket other} hne address haddress hother ↦ ?_,
        fun bucket address haddress hfreed ↦ ?_⟩
      · change Chain _ (Function.update heap.buckets (hashKey key) _ bucket) _
        rcases eq_or_ne bucket (hashKey key) with rfl | hne
        · rw [Function.update_self, Function.update_self]
          exact ((howns.chain (hashKey key)).alloc _).push hself rfl
        · rw [Function.update_of_ne hne, Function.update_of_ne hne]
          exact (howns.chain bucket).alloc _
      · rcases hmem bucket address haddress with hold | ⟨hbucket, rfl⟩
        · rcases hmem other address hother with hold' | ⟨-, rfl⟩
          · exact howns.apart hne address hold hold'
          · exact howns.length_notMem bucket hold
        · rcases hmem other _ hother with hold' | ⟨hbucket', -⟩
          · exact howns.length_notMem other hold'
          · exact hne (hbucket.trans hbucket'.symm)
      · rcases hmem bucket address haddress with hold | ⟨-, rfl⟩
        · exact howns.live bucket address hold hfreed
        · exact lt_irrefl _ (howns.freed_lt _ hfreed)
    · intro bucket
      change _ = Function.update cache.buckets (hashKey key) _ bucket
      rcases eq_or_ne bucket (hashKey key) with rfl | hne
      · have hitem := itemAt_eq_some_iff.2 ⟨_, hself, rfl⟩
        rw [Function.update_self, Function.update_self, List.filterMap_cons_some hitem,
          filterMap_pushNode howns]
      · rw [Function.update_of_ne hne, Function.update_of_ne hne, filterMap_pushNode howns]
    · exact congrArg (· + 1) howns.totalItems_eq
    · exact congrArg (· + BitVec.ofNat 64 item.dataSize) howns.totalMemory_eq
  · exact howns.freed_nodup
  · rw [hlength]
    exact fun address hfreed ↦ Nat.lt_succ_of_lt (howns.freed_lt address hfreed)
  · intro address haddress
    rw [hlength] at haddress
    rcases Nat.lt_succ_iff_lt_or_eq.1 haddress with hlt | rfl
    · rcases howns.owned address hlt with hfreed | ⟨bucket, hbucket⟩
      · exact .inl hfreed
      · refine .inr ⟨bucket, ?_⟩
        rw [Function.update_apply]
        split_ifs with heq
        · exact List.mem_cons_of_mem _ (heq ▸ hbucket)
        · exact hbucket
    · refine .inr ⟨hashKey key, ?_⟩
      rw [Function.update_self]
      exact List.mem_cons_self

/-! ## Unlinking a node -/

/-- Unlinking the node that was found is the deletion of the model. -/
theorem Owns.unlinkNode (howns : Owns heap chains cache)
    (h : Hit heap chains cache key front rest address node)
    (hlookup : lookup cache key = some node.item) :
    Owns (heap.unlinkNode (hashKey key) front.getLast? address node)
      (Function.update chains (hashKey key) (front ++ rest))
      (ResultCache.cacheDelete cache key) := by
  have hchain := howns.chain (hashKey key)
  rw [h.chain_eq] at hchain
  have hview : ∀ (node : CacheNode) link, (Linked.setNext node link).item = node.item :=
    fun _ _ ↦ rfl
  have hitems : ∀ other, (heap.unlinkNode (hashKey key) front.getLast? address node).itemAt
      other = heap.itemAt other := fun other ↦ contentAt_relink hview _ _ _ _ other
  have hlength : (heap.unlinkNode (hashKey key) front.getLast? address node).nodes.length =
      heap.nodes.length := relink_length _ _ _ _
  have hfront : ∀ other ∈ front, other ∈ chains (hashKey key) := by
    intro other hother
    rw [h.chain_eq]
    exact List.mem_append_left _ hother
  have hkept : ∀ other ∈ front ++ rest, other ∈ chains (hashKey key) ∧ other ≠ address := by
    intro other hother
    refine ⟨?_, fun heq ↦ hchain.notMem_others (heq ▸ hother)⟩
    rw [h.chain_eq]
    simp only [List.mem_append, List.mem_cons] at hother ⊢
    tauto
  have hmem : ∀ bucket other, other ∈ Function.update chains (hashKey key) (front ++ rest) bucket →
      other ∈ chains bucket ∧ other ≠ address := by
    intro bucket other hother
    rcases eq_or_ne bucket (hashKey key) with rfl | hne
    · rw [Function.update_self] at hother
      exact hkept other hother
    · rw [Function.update_of_ne hne] at hother
      exact ⟨hother, fun heq ↦ h.notMem_of_ne howns hne (heq ▸ hother)⟩
  have hdelete : ResultCache.cacheDelete cache key = { cache.release node.item with
      buckets := Function.update cache.buckets (hashKey key)
        ((cache.buckets (hashKey key)).eraseP fun item ↦ decide (item.key = key)) } := by
    rw [ResultCache.cacheDelete, hlookup]
  rw [hdelete]
  constructor
  · constructor
    · refine ⟨fun bucket ↦ ?_, fun {bucket other} hne target hbucket hother ↦ ?_,
        fun bucket target hbucket hfreed ↦ ?_⟩
      · change Chain _ (Function.update heap.buckets (hashKey key) _ bucket) _
        rcases eq_or_ne bucket (hashKey key) with rfl | hne
        · rw [Function.update_self, Function.update_self]
          exact hchain.relink (hchain.behind h.node_eq) hchain.before_notMem_rest
        · rw [Function.update_of_ne hne, Function.update_of_ne hne]
          exact (howns.chain bucket).relink_frame _ _
            fun other hother ↦ howns.apart hne.symm other (hfront other hother)
      · exact howns.apart hne target (hmem bucket target hbucket).1 (hmem other target hother).1
      · obtain ⟨hchained, hne⟩ := hmem bucket target hbucket
        rcases List.mem_append.1 hfreed with hold | hnew
        · exact howns.live bucket target hchained hold
        · exact hne (List.mem_singleton.1 hnew)
    · intro bucket
      change _ = Function.update cache.buckets (hashKey key) _ bucket
      rw [funext hitems]
      rcases eq_or_ne bucket (hashKey key) with rfl | hne
      · have hkey : decide (node.item.key = key) = true := decide_eq_true h.key_eq
        rw [Function.update_self, Function.update_self, List.filterMap_append, h.bucket_eq,
          List.eraseP_append_right _ h.front_ne]
        exact congrArg _ (List.eraseP_cons_of_pos
          (p := fun item : CacheItem ↦ decide (item.key = key)) hkey).symm
      · rw [Function.update_of_ne hne, Function.update_of_ne hne, howns.items]
    · exact congrArg (· - 1) howns.totalItems_eq
    · exact congrArg (· - BitVec.ofNat 64 node.item.dataSize) howns.totalMemory_eq
  · have hnot : address ∉ heap.freed := howns.live (hashKey key) address (by simp [h.chain_eq])
    exact List.nodup_append_comm.1 (List.nodup_cons.2 ⟨hnot, howns.freed_nodup⟩)
  · rw [hlength]
    intro other hfreed
    rcases List.mem_append.1 hfreed with hold | hnew
    · exact howns.freed_lt other hold
    · rw [List.mem_singleton.1 hnew]
      exact (List.getElem?_eq_some_iff.1 h.node_eq).1
  · rw [hlength]
    intro other hother
    rcases eq_or_ne other address with rfl | hne
    · exact .inl (List.mem_append_right _ List.mem_cons_self)
    · rcases howns.owned other hother with hfreed | ⟨bucket, hbucket⟩
      · exact .inl (List.mem_append_left _ hfreed)
      · refine .inr ⟨bucket, ?_⟩
        rcases eq_or_ne bucket (hashKey key) with rfl | hbucket'
        · rw [Function.update_self]
          rw [h.chain_eq] at hbucket
          simp only [List.mem_append, List.mem_cons] at hbucket ⊢
          tauto
        · rwa [Function.update_of_ne hbucket']

end Steps

/-! ## The calls -/

section Calls

variable {heap : CacheHeap} {chains : Fin 256 → List ℕ} {cache : Cache}

theorem Owns.cacheDelete (h : Owns heap chains cache) (key : CString) :
    ∃ after kept, heap.cacheDelete key = some after ∧
      Owns after kept (ResultCache.cacheDelete cache key) := by
  unfold CacheHeap.cacheDelete
  rcases h.findNode_cases key with ⟨hfind, hlookup⟩ |
    ⟨front, address, rest, node, hfind, hhit, hlookup⟩
  · refine ⟨heap, chains, by rw [hfind], ?_⟩
    rw [ResultCache.cacheDelete, hlookup]
    exact h
  · exact ⟨_, _, by rw [hfind], h.unlinkNode hhit hlookup⟩

theorem Owns.cacheSet (h : Owns heap chains cache) (key : CString) (data : List UInt8)
    (itemAllocated dataAllocated : Bool) (now : ℤ) :
    ∃ after kept, heap.cacheSet key data itemAllocated dataAllocated now =
        some ((ResultCache.cacheSet cache key data itemAllocated dataAllocated now).1, after) ∧
      Owns after kept
        (ResultCache.cacheSet cache key data itemAllocated dataAllocated now).2 := by
  unfold CacheHeap.cacheSet ResultCache.cacheSet
  by_cases hdata : data.length = 0
  · rw [if_pos hdata, if_pos hdata]
    exact ⟨heap, chains, rfl, h⟩
  · rw [if_neg hdata, if_neg hdata]
    rcases h.findNode_cases key with ⟨hfind, hlookup⟩ |
      ⟨front, address, rest, node, hfind, hhit, hlookup⟩
    · simp only [hfind, hlookup]
      by_cases hallocated : (itemAllocated && dataAllocated) = true
      · rw [if_pos hallocated, if_pos hallocated]
        exact ⟨_, _, rfl, h.pushNode key _⟩
      · rw [if_neg hallocated, if_neg hallocated]
        exact ⟨heap, chains, rfl, h⟩
    · simp only [hfind, hlookup]
      cases dataAllocated with
      | true => exact ⟨_, _, rfl, h.writeItem hhit _⟩
      | false => exact ⟨_, _, rfl, h.writeItem hhit _⟩

theorem Owns.cacheGet (h : Owns heap chains cache) (key : CString) (allocated : Bool) (now : ℤ) :
    ∃ after kept, heap.cacheGet key allocated now =
        some ((ResultCache.cacheGet cache key allocated now).1, after) ∧
      Owns after kept (ResultCache.cacheGet cache key allocated now).2 := by
  obtain ⟨after, kept, hdelete, hafter⟩ := h.cacheDelete key
  unfold CacheHeap.cacheGet ResultCache.cacheGet judge
  rcases h.findNode_cases key with ⟨hfind, hlookup⟩ |
    ⟨front, address, rest, node, hfind, hhit, hlookup⟩
  · simp only [hfind, hlookup]
    exact ⟨heap, chains, rfl, h⟩
  · simp only [hfind, hlookup]
    cases expired now node.item with
    | true => exact ⟨after, kept, by rw [if_pos rfl, hdelete]; rfl, hafter⟩
    | false =>
      cases allocated with
      | false => exact ⟨heap, chains, rfl, h⟩
      | true =>
        cases node.item.data with
        | none => exact ⟨heap, chains, rfl, h⟩
        | some data => exact ⟨heap, chains, rfl, h⟩

/-- Cleaning up frees nodes of the chains that were live until then. -/
theorem Owns.cleanupExpired (h : Owns heap chains cache) (now : ℤ) :
    ∃ after kept, heap.cleanupExpired now = some after ∧
      Owns after kept (cacheCleanupExpired cache now) := by
  obtain ⟨after, kept, hrun, hrepresents⟩ := h.toRepresents.cleanupExpired now
  obtain ⟨other, hother, hremoved⟩ :=
    foldlM_cleanupBucket_removed h.toHolds now (List.nodup_finRange 256)
  obtain rfl : other = after := Option.some.inj (hother.symm.trans hrun)
  have hchains : kept = fun bucket ↦ (chains bucket).filter fun address ↦
      address ∉ heap.expiredNodes chains now := by
    funext bucket
    exact (hrepresents.chain bucket).unique (hremoved.holds.chain bucket)
  have hfreed : other.freed = heap.freed ++ heap.expiredNodes chains now := hremoved.freed_eq
  have hlength : other.nodes.length = heap.nodes.length := by
    apply le_antisymm
    · rw [← itemAt_eq_none_iff, hremoved.itemAt_eq, itemAt_eq_none_iff]
    · rw [← itemAt_eq_none_iff, ← hremoved.itemAt_eq, itemAt_eq_none_iff]
  refine ⟨other, kept, hrun, hrepresents, ?_, ?_, ?_⟩
  · rw [hfreed, List.nodup_append]
    refine ⟨h.freed_nodup, nodup_expiredNodes h.toHolds now, ?_⟩
    rintro address hold other hnew rfl
    obtain ⟨⟨bucket, hbucket⟩, -⟩ := mem_expiredNodes.1 hnew
    exact h.live bucket address hbucket hold
  · rw [hfreed, hlength]
    intro address haddress
    rcases List.mem_append.1 haddress with hold | hnew
    · exact h.freed_lt address hold
    · obtain ⟨⟨bucket, hbucket⟩, -⟩ := mem_expiredNodes.1 hnew
      exact (h.chain bucket).lt_length address hbucket
  · rw [hfreed, hlength, hchains]
    intro address haddress
    by_cases hexpired : address ∈ heap.expiredNodes chains now
    · exact .inl (List.mem_append_right _ hexpired)
    · rcases h.owned address haddress with hold | ⟨bucket, hbucket⟩
      · exact .inl (List.mem_append_left _ hold)
      · exact .inr ⟨bucket, List.mem_filter.2 ⟨hbucket, decide_eq_true hexpired⟩⟩

/-- Every call returns, with the result of the model. -/
theorem Owns.call (h : Owns heap chains cache) (call : CacheCall) :
    ∃ after kept, heap.call call = some (cacheResult cache call, after) ∧
      Owns after kept (cacheStep cache call) := by
  cases call with
  | set key data itemAllocated dataAllocated now =>
    obtain ⟨after, kept, hset, howns⟩ := h.cacheSet key data itemAllocated dataAllocated now
    exact ⟨after, kept, by rw [CacheHeap.call, hset]; rfl, howns⟩
  | get key allocated now =>
    obtain ⟨after, kept, hget, howns⟩ := h.cacheGet key allocated now
    exact ⟨after, kept, by rw [CacheHeap.call, hget]; rfl, howns⟩
  | delete key =>
    obtain ⟨after, kept, hdelete, howns⟩ := h.cacheDelete key
    exact ⟨after, kept, by rw [CacheHeap.call, hdelete]; rfl, howns⟩
  | cleanupExpired now =>
    obtain ⟨after, kept, hclean, howns⟩ := h.cleanupExpired now
    exact ⟨after, kept, by rw [CacheHeap.call, hclean]; rfl, howns⟩

theorem Owns.calls (h : Owns heap chains cache) (calls : List CacheCall) :
    ∃ after kept, heap.calls calls = some (outputs cacheStep cacheResult cache calls, after) ∧
      Owns after kept (run cacheStep cache calls) := by
  induction calls generalizing heap chains cache with
  | nil => exact ⟨heap, chains, rfl, h⟩
  | cons call rest ih =>
    obtain ⟨between, kept, hcall, hbetween⟩ := h.call call
    obtain ⟨after, last, hrest, hafter⟩ := ih hbetween
    exact ⟨after, last, by rw [CacheHeap.calls, hcall]; simp [hrest, outputs], hafter⟩

end Calls

/-- The nodes carry out the cache.  Every run of calls on the pointers returns, never reads a node
that was passed to `free`, and gives the results of the cache model, whose chains are the items
along the links and whose counters are those of the heap. -/
theorem calls_refine_cache (calls : List CacheCall) :
    ∃ heap chains, create.calls calls =
        some (outputs cacheStep cacheResult cacheCreate calls, heap) ∧
      Represents heap chains (run cacheStep cacheCreate calls) := by
  obtain ⟨heap, chains, hcalls, howns⟩ := owns_create.calls calls
  exact ⟨heap, chains, hcalls, howns.toRepresents⟩

/-! ## Destroying the cache -/

/-- `cache_destroy`: the nodes passed to `free` so far, or nothing if it reads one of them. -/
def cacheDestroy (heap : CacheHeap) : Option (List ℕ) :=
  (List.finRange 256).foldlM (fun freed bucket ↦ freeAll heap.nodes freed (heap.buckets bucket))
    heap.freed

/-- The loop over these buckets gives back their chains. -/
theorem Holds.foldlM_freeAll {heap : CacheHeap} {chains : Fin 256 → List ℕ}
    (h : heap.Holds chains) {buckets : List (Fin 256)} (hnodup : buckets.Nodup) {freed : List ℕ}
    (hlive : ∀ bucket ∈ buckets, ∀ address ∈ chains bucket, address ∉ freed) :
    buckets.foldlM (fun freed bucket ↦ freeAll heap.nodes freed (heap.buckets bucket)) freed =
      some (freed ++ buckets.flatMap chains) := by
  induction buckets generalizing freed with
  | nil => simp
  | cons bucket rest ih =>
    obtain ⟨hbucket, hrest⟩ := List.nodup_cons.1 hnodup
    have hfirst : freeAll heap.nodes freed (heap.buckets bucket) = some (freed ++ chains bucket) :=
      freeAll_eq_some_iff.2 ⟨_, h.chain bucket, hlive bucket List.mem_cons_self, rfl⟩
    rw [List.foldlM_cons, hfirst, Option.bind_eq_bind, Option.bind_some, ih hrest,
      List.flatMap_cons, List.append_assoc]
    intro other hother address haddress hfreed
    rcases List.mem_append.1 hfreed with hold | hnew
    · exact hlive other (List.mem_cons_of_mem _ hother) address haddress hold
    · have hne : bucket ≠ other := fun heq ↦ hbucket (heq ▸ hother)
      exact h.apart hne address hnew haddress

/-- After every run of calls, `cache_destroy` returns, reads no node that was passed to `free`, and
every node that the run ever allocated has then been passed to `free` exactly once. -/
theorem cacheDestroy_frees_all (calls : List CacheCall) :
    ∃ results heap freed, create.calls calls = some (results, heap) ∧
      heap.cacheDestroy = some freed ∧ freed.Perm (List.range heap.nodes.length) := by
  obtain ⟨heap, chains, hcalls, howns⟩ := owns_create.calls calls
  refine ⟨_, heap, _, hcalls, howns.foldlM_freeAll (List.nodup_finRange 256)
    (fun bucket _ ↦ howns.live bucket), ?_⟩
  rw [List.perm_ext_iff_of_nodup _ List.nodup_range]
  · intro address
    rw [List.mem_append, List.mem_flatMap, List.mem_range]
    constructor
    · rintro (hfreed | ⟨bucket, -, hbucket⟩)
      · exact howns.freed_lt address hfreed
      · exact (howns.chain bucket).lt_length address hbucket
    · intro haddress
      rcases howns.owned address haddress with hfreed | ⟨bucket, hbucket⟩
      · exact .inl hfreed
      · exact .inr ⟨bucket, List.mem_finRange bucket, hbucket⟩
  · rw [List.nodup_append, List.nodup_flatMap]
    refine ⟨howns.freed_nodup, ⟨fun bucket _ ↦ howns.nodup bucket, ?_⟩, ?_⟩
    · apply (List.nodup_finRange 256).imp
      intro first second hne address hfirst hsecond
      exact howns.apart hne address hfirst hsecond
    · rintro address hfreed other hchained rfl
      obtain ⟨bucket, -, hbucket⟩ := List.mem_flatMap.1 hchained
      exact howns.live bucket address hbucket hfreed

end CacheHeap

end HiFetch.Memory.ResultCache
