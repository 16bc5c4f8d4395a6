import HiFetch.Memory.CachedOutput

/-!
# Runs of cached reads

Calls of `cache_file_content_optimized` and `cache_command_output` one after the other, with
deletions and cleanups in between.  A request of a call says what comes from reading the file, or
from executing the command if the pointer to its output is not cut.

Where the file behind every key gives the same text each time, a client cannot tell the cached
calls from uncached ones, whichever allocations of the cache fail.  And while no clock reading is
later than thirty seconds after the first one, the source of a key is read at most once.
-/

namespace HiFetch.Memory.CachedOutput

open KeyedTable ResultCache Transition Utils

inductive CachedCall where
  | request (request : Request)
  | delete (key : CString)
  | cleanupExpired (now : ℤ)

def cachedStep (cache : Cache) : CachedCall → Cache
  | .request request => (cachedOutput cache request).2
  | .delete key => cacheDelete cache key
  | .cleanupExpired now => cacheCleanupExpired cache now

/-- What a call returns; the other two calls return nothing. -/
def cachedAnswer (cache : Cache) : CachedCall → Option Answer
  | .request request => some (cachedOutput cache request).1
  | .delete _ => none
  | .cleanupExpired _ => none

theorem cacheFileContentOptimized_eq (cache : Cache) (path : CString) (buffer : List UInt8)
    (file : FileRead) (request : Request) :
    cacheFileContentOptimized (some cache) path buffer file request =
      ((cachedOutput cache { request with
          key := path, output := readText buffer 8192 file }).1,
        some (cachedStep cache (.request { request with
          key := path, output := readText buffer 8192 file }))) := rfl

/-- A command without output, or with output at an address that fits into an `int`. -/
theorem cacheCommandOutput_of_whole (cache : Cache) (cmd : CString) {executed : Option CmdOutput}
    (hwhole : ∀ output ∈ executed, output.pointer = output.address) (request : Request) :
    cacheCommandOutput (some cache) cmd executed request =
      ((cachedOutput cache { request with
          key := cmd, output := executed.map CmdOutput.text }).1,
        some (cachedStep cache (.request { request with
          key := cmd, output := executed.map CmdOutput.text }))) := by
  have hfound : executed.filter (fun output ↦ output.pointer ≠ 0) = executed := by
    cases executed with
    | none => rfl
    | some output =>
      rw [Option.filter_some_pos]
      rw [decide_eq_true_eq, hwhole output rfl]
      exact output.address_ne_zero
  unfold cacheCommandOutput
  dsimp only
  rw [hfound, if_neg]
  · rfl
  · rintro ⟨-, output, houtput, hcut⟩
    exact hcut (hwhole output houtput)

/-- A `cache_get` that returns null has left an item of the key only if it could not copy it. -/
theorem cachedOutput_cases (cache : Cache) (request : Request) :
    (∃ data size, cacheGet cache request.key request.getAllocated request.getTime =
        (.copied data size, cache) ∧ cachedOutput cache request = (.text data, cache)) ∨
      (cacheGet cache request.key request.getAllocated request.getTime = (.fault, cache) ∧
        cachedOutput cache request = (.fault, cache)) ∨
      ∃ rest, cacheGet cache request.key request.getAllocated request.getTime = (.null, rest) ∧
        (request.output = none ∧ cachedOutput cache request = (.null, rest) ∨
          ∃ text, request.output = some text ∧ cachedOutput cache request =
            (strdup text request.copyAllocated, (cacheSet rest request.key (stored text)
              request.itemAllocated request.dataAllocated request.setTime).2)) := by
  unfold cachedOutput
  cases hget : cacheGet cache request.key request.getAllocated request.getTime with
  | mk result rest =>
    cases result with
    | copied data size =>
      obtain rfl : rest = cache := by
        rcases cacheGet_cases cache request.key request.getAllocated request.getTime with
          ⟨-, heq⟩ | ⟨-, heq⟩
        · rw [hget] at heq
          simp at heq
        · rwa [hget] at heq
      exact .inl ⟨data, size, rfl, rfl⟩
    | fault =>
      obtain rfl : rest = cache := by
        rcases cacheGet_cases cache request.key request.getAllocated request.getTime with
          ⟨-, heq⟩ | ⟨-, heq⟩
        · rw [hget] at heq
          simp at heq
        · rwa [hget] at heq
      exact .inr (.inl ⟨rfl, rfl⟩)
    | null =>
      refine .inr (.inr ⟨rest, rfl, ?_⟩)
      cases houtput : request.output with
      | none => exact .inl ⟨rfl, rfl⟩
      | some text => exact .inr ⟨text, rfl, rfl⟩

/-! ## Sources that do not change -/

/-- The file of the key gives its fixed text, and the copies for the client can be allocated.
Nothing is asked of the allocations of the cache itself. -/
def Steady (contents : CString → Option CString) : CachedCall → Prop
  | .request request =>
      request.key.length ≤ 127 ∧ request.output = contents request.key ∧
        request.getAllocated ∧ request.copyAllocated
  | _ => True

/-- What a call would return if it always read the file. -/
def plainAnswer (contents : CString → Option CString) : CachedCall → Option Answer
  | .request request =>
      match contents request.key with
      | none => some .null
      | some text => some (.text (stored text))
  | _ => none

/-- Every item holds the text of its key. -/
structure Agrees (contents : CString → Option CString) (cache : Cache) : Prop where
  chains : cache.ChainsWellFormed
  texts : ∀ item ∈ cache.contents, ∃ text, contents item.key = some text ∧
    item.data = some (stored text) ∧ item.dataSize = (stored text).length

namespace Agrees

variable {contents : CString → Option CString} {cache : Cache}

theorem released (h : Agrees contents cache) {after : Cache} {items : Multiset CacheItem}
    (hchains : after.ChainsWellFormed) (hreleased : Released cache after items) :
    Agrees contents after := by
  refine ⟨hchains, fun item hitem ↦ h.texts item ?_⟩
  rw [hreleased.contents_eq]
  exact Multiset.mem_add.2 (.inl hitem)

theorem cacheDelete (h : Agrees contents cache) (key : CString) :
    Agrees contents (cacheDelete cache key) := by
  obtain ⟨items, hreleased⟩ := exists_released_cacheDelete cache key
  exact h.released (h.chains.cacheDelete key) hreleased

/-- A `cache_get` that can make its copy returns the text of the key, or finds no item or removes
the one it finds. -/
theorem cacheGet (h : Agrees contents cache) (key : CString) (now : ℤ) :
    (∃ text, contents key = some text ∧
        cacheGet cache key true now = (.copied (stored text) (stored text).length, cache)) ∨
      ∃ rest, cacheGet cache key true now = (.null, rest) ∧ Agrees contents rest ∧
        lookup rest key = none := by
  unfold ResultCache.cacheGet judge
  cases hlookup : lookup cache key with
  | none => exact .inr ⟨cache, rfl, h, hlookup⟩
  | some item =>
    cases hexpired : expired now item with
    | true =>
      refine .inr ⟨ResultCache.cacheDelete cache key, by simp [hexpired], h.cacheDelete key, ?_⟩
      rw [h.chains.lookup_cacheDelete, if_pos rfl]
    | false =>
      obtain ⟨text, htext, hdata, hsize⟩ := h.texts item (mem_of_find hlookup)
      have hkey : item.key = key := keyOf_of_find hlookup
      refine .inl ⟨text, hkey ▸ htext, ?_⟩
      simp [hexpired, hdata, hsize]

/-- Setting the text of a key that has no item. -/
theorem cacheSet (h : Agrees contents cache) {key text : CString} (hkey : key.length ≤ 127)
    (htext : contents key = some text) (hnone : lookup cache key = none)
    (itemAllocated dataAllocated : Bool) (now : ℤ) :
    Agrees contents (cacheSet cache key (stored text) itemAllocated dataAllocated now).2 := by
  have hchains := (chainsWellFormed_step_iff h.chains
    (.set key (stored text) itemAllocated dataAllocated now)).2 fun _ _ _ _ ↦ .inl hkey
  rw [cacheStep] at hchains
  rcases cacheSet_cases cache key (stored text) itemAllocated dataAllocated now with
    ⟨hset, -⟩ | ⟨item, hlookup, -⟩ | ⟨item, hlookup, -⟩ | ⟨-, -, -, -, hset⟩
  · rwa [hset]
  · rw [hnone] at hlookup
    cases hlookup
  · rw [hnone] at hlookup
    cases hlookup
  · rw [hset] at hchains ⊢
    refine ⟨hchains, fun item hitem ↦ ?_⟩
    rw [contents_push, Multiset.mem_cons] at hitem
    rcases hitem with rfl | hitem
    · refine ⟨text, ?_, rfl, rfl⟩
      change contents (key.take 127) = some text
      rwa [CString.take_eq_self hkey]
    · exact h.texts item hitem

/-- Every steady call keeps the texts and returns what it would without the cache. -/
theorem step (h : Agrees contents cache) {call : CachedCall} (hsteady : Steady contents call) :
    Agrees contents (cachedStep cache call) ∧
      cachedAnswer cache call = plainAnswer contents call := by
  cases call with
  | request request =>
    obtain ⟨hkey, houtput, hget, hcopy⟩ := hsteady
    simp only [cachedStep, cachedAnswer, plainAnswer, cachedOutput, hget, houtput]
    rcases h.cacheGet request.key request.getTime with ⟨text, htext, hfound⟩ |
      ⟨rest, hnull, hrest, hnone⟩
    · simp only [hfound, htext]
      exact ⟨h, trivial⟩
    · simp only [hnull]
      cases htext : contents request.key with
      | none => exact ⟨hrest, rfl⟩
      | some text =>
        refine ⟨hrest.cacheSet hkey htext hnone _ _ _, ?_⟩
        simp only [hcopy]
        rfl
  | delete key => exact ⟨h.cacheDelete key, rfl⟩
  | cleanupExpired now =>
    obtain ⟨items, hreleased, -⟩ := cacheCleanupExpired_released cache now
    exact ⟨h.released (h.chains.cacheCleanupExpired now) hreleased, rfl⟩

end Agrees

theorem agrees_cacheCreate (contents : CString → Option CString) :
    Agrees contents cacheCreate :=
  ⟨chainsWellFormed_cacheCreate, by simp [Cache.contents, cacheCreate]⟩

/-- While the files give the same texts, every call of every run returns what it would return
without the cache. -/
theorem cached_eq_plain {contents : CString → Option CString} {calls : List CachedCall}
    (hsteady : ∀ call ∈ calls, Steady contents call) :
    outputs cachedStep cachedAnswer cacheCreate calls = calls.map (plainAnswer contents) := by
  rw [outputs_eq_map_iff]
  exact along_of_invariant (fun _ _ h hcall ↦ h.step hcall) (agrees_cacheCreate contents)
    (along_of_forall hsteady)

/-- A request for a short key whose source gives one byte, with every allocation. -/
def exampleRequest (now : ℤ) : Request where
  key := shortKey
  output := some shortKey
  getTime := now
  getAllocated := true
  setTime := now
  itemAllocated := true
  dataAllocated := true
  copyAllocated := true

theorem cached_eq_plain_example :
    outputs cachedStep cachedAnswer cacheCreate
        [.request (exampleRequest 0), .request (exampleRequest 30), .delete shortKey,
          .request (exampleRequest 31)] =
      [.request (exampleRequest 0), .request (exampleRequest 30), .delete shortKey,
        .request (exampleRequest 31)].map (plainAnswer fun _ ↦ some shortKey) :=
  cached_eq_plain (by simp [Steady, exampleRequest, shortKey, CString.length])

/-! ## At most one read in thirty seconds -/

/-- The call reads the file or executes the command of the key. -/
def consults (key : CString) (cache : Cache) : CachedCall → Bool
  | .request request =>
      decide (request.key = key ∧
        (cacheGet cache request.key request.getAllocated request.getTime).1 = .null)
  | _ => false

/-- The clock of the call is within thirty seconds of `since`; a request of the key gets a text and
its allocations, and the key is not deleted. -/
def Within (key : CString) (since : ℤ) : CachedCall → Prop
  | .request request =>
      since ≤ request.setTime ∧ request.getTime ≤ since + 30 ∧
        (request.key = key → request.output ≠ none ∧ request.getAllocated ∧
          request.itemAllocated ∧ request.dataAllocated)
  | .delete other => other ≠ key
  | .cleanupExpired now => now ≤ since + 30

/-- The key has an item that was stored since then. -/
def Holding (key : CString) (since : ℤ) (cache : Cache) : Prop :=
  ∃ item, lookup cache key = some item ∧ since ≤ item.timestamp

theorem overwriteItem_key (data : List UInt8) (now : ℤ) (item : CacheItem) :
    (overwriteItem data now item).key = item.key := rfl

theorem loseData_key (item : CacheItem) : (loseData item).key = item.key := rfl

namespace Holding

variable {key : CString} {since : ℤ} {cache : Cache}

theorem delete (h : Holding key since cache) {other : CString} (hne : other ≠ key) :
    Holding key since (cacheDelete cache other) := by
  obtain ⟨item, hlookup, htime⟩ := h
  refine ⟨item, ?_, htime⟩
  unfold cacheDelete
  cases lookup cache other with
  | none => exact hlookup
  | some found =>
    rw [← hlookup]
    exact find_update_eq (find?_eraseP_of_ne hne _)

theorem cleanBucket (h : Holding key since cache) {now : ℤ} (hnow : now ≤ since + 30)
    (bucket : Fin 256) : Holding key since (cleanBucket now cache bucket) := by
  obtain ⟨item, hlookup, htime⟩ := h
  refine ⟨item, ?_, htime⟩
  have hcurrent : expired now item = false := expired_eq_false_iff.2 (by omega)
  unfold lookup
  rw [buckets_cleanBucket, find_update]
  split_ifs with hbucket
  · refine find?_filter_of_pos ?_ (by rw [hcurrent]; rfl)
    rw [← hbucket]
    exact hlookup
  · exact hlookup

theorem cleanupExpired (h : Holding key since cache) {now : ℤ} (hnow : now ≤ since + 30) :
    Holding key since (cacheCleanupExpired cache now) := by
  unfold cacheCleanupExpired
  induction List.finRange 256 generalizing cache with
  | nil => exact h
  | cons bucket rest ih => exact ih (h.cleanBucket hnow bucket)

/-- A `cache_get` removes no item of the key within the thirty seconds. -/
theorem cacheGet (h : Holding key since cache) {other : CString} {now : ℤ}
    (hnow : now ≤ since + 30) (allocated : Bool) :
    Holding key since (cacheGet cache other allocated now).2 := by
  rcases cacheGet_cases cache other allocated now with ⟨⟨found, hfound, hexpired⟩, hget⟩ |
    ⟨-, hget⟩
  · rw [hget]
    apply h.delete
    rintro rfl
    obtain ⟨item, hlookup, htime⟩ := h
    obtain rfl := Option.some.inj (hfound.symm.trans hlookup)
    rw [expired_eq_false_iff.2 (by omega)] at hexpired
    cases hexpired
  · rwa [hget]

/-- Setting keeps the item of the key, or gives the key a newer one. -/
theorem cacheSet (h : Holding key since cache) (other : CString) (data : List UInt8)
    (itemAllocated dataAllocated : Bool) {now : ℤ} (hnow : since ≤ now) :
    Holding key since (cacheSet cache other data itemAllocated dataAllocated now).2 := by
  obtain ⟨item, hlookup, htime⟩ := h
  rcases cacheSet_cases cache other data itemAllocated dataAllocated now with
    ⟨hset, -⟩ | ⟨found, hfound, -, -, hset⟩ | ⟨found, hfound, -, -, hset⟩ | ⟨-, -, -, -, hset⟩
  · rw [hset]
    exact ⟨item, hlookup, htime⟩
  · unfold Holding
    simp only [hset]
    rw [lookup_modify cache other key (overwriteItem_key data now)]
    split_ifs
    · rw [hfound]
      exact ⟨_, rfl, hnow⟩
    · exact ⟨item, hlookup, htime⟩
  · unfold Holding
    simp only [hset]
    rw [lookup_modify cache other key loseData_key]
    split_ifs with hkey
    · subst hkey
      rw [hlookup]
      exact ⟨_, rfl, htime⟩
    · exact ⟨item, hlookup, htime⟩
  · unfold Holding
    rw [hset]
    change ∃ item, find hashKey CacheItem.key (Function.update cache.buckets _ _) key =
      some item ∧ _
    rw [find_update]
    split_ifs with hbucket
    · by_cases hkey : (newItem other data now).key = key
      · rw [List.find?_cons_of_pos (by simpa using hkey)]
        exact ⟨_, rfl, hnow⟩
      · rw [List.find?_cons_of_neg (by simpa using hkey), ← hbucket]
        exact ⟨item, hlookup, htime⟩
    · exact ⟨item, hlookup, htime⟩

/-- As long as the key has its item, its source is left alone and the item stays. -/
theorem step (h : Holding key since cache) {call : CachedCall} (hcall : Within key since call) :
    Holding key since (cachedStep cache call) ∧ consults key cache call = false := by
  cases call with
  | request request =>
    obtain ⟨hset, hget, hown⟩ := hcall
    have hkept := @cacheGet key since cache h request.key _ hget request.getAllocated
    constructor
    · rcases cachedOutput_cases cache request with ⟨data, size, -, heq⟩ | ⟨-, heq⟩ |
        ⟨rest, hnull, ⟨-, heq⟩ | ⟨text, -, heq⟩⟩
      · rwa [cachedStep, heq]
      · rwa [cachedStep, heq]
      · rw [cachedStep, heq]
        rwa [hnull] at hkept
      · rw [cachedStep, heq]
        rw [hnull] at hkept
        exact hkept.cacheSet _ _ _ _ hset
    · simp only [consults, decide_eq_false_iff_not, not_and]
      intro hkey
      obtain ⟨-, hallocated, -⟩ := hown hkey
      obtain ⟨item, hlookup, htime⟩ := h
      have hcurrent : expired request.getTime item = false :=
        expired_eq_false_iff.2 (by omega)
      rw [hkey, hallocated]
      cases hdata : item.data <;>
        simp [ResultCache.cacheGet, judge, hlookup, hcurrent, hdata]
  | delete other => exact ⟨h.delete hcall, rfl⟩
  | cleanupExpired now => exact ⟨h.cleanupExpired hcall, rfl⟩

theorem outputs_consults (h : Holding key since cache) {calls : List CachedCall}
    (hcalls : ∀ call ∈ calls, Within key since call) :
    outputs cachedStep (consults key) cache calls = List.replicate calls.length false := by
  induction calls generalizing cache with
  | nil => rfl
  | cons call rest ih =>
    obtain ⟨hnext, hnone⟩ := h.step (hcalls call List.mem_cons_self)
    rw [outputs, hnone, ih hnext fun other hother ↦ hcalls other (List.mem_cons_of_mem _ hother)]
    rfl

end Holding

/-- A call that reads the source of the key leaves an item of the key. -/
theorem holding_of_consults {key : CString} {since : ℤ} {cache : Cache} {call : CachedCall}
    (hkey : key.length ≤ 127) (hcall : Within key since call)
    (hconsults : consults key cache call = true) : Holding key since (cachedStep cache call) := by
  cases call with
  | delete other => simp [consults] at hconsults
  | cleanupExpired now => simp [consults] at hconsults
  | request request =>
    simp only [consults, decide_eq_true_eq] at hconsults
    obtain ⟨rfl, hnull⟩ := hconsults
    obtain ⟨hset, -, hown⟩ := hcall
    obtain ⟨houtput, -, hitem, hdata⟩ := hown rfl
    rcases cachedOutput_cases cache request with ⟨data, size, hget, -⟩ | ⟨hget, -⟩ |
      ⟨rest, -, ⟨hnone, -⟩ | ⟨text, -, heq⟩⟩
    · rw [hget] at hnull
      cases hnull
    · rw [hget] at hnull
      cases hnull
    · exact absurd hnone houtput
    · rw [cachedStep, heq]
      rcases cacheSet_cases rest request.key (stored text) request.itemAllocated
        request.dataAllocated request.setTime with ⟨-, hrefused⟩ | ⟨item, hlookup, -, -, hafter⟩ |
          ⟨-, -, -, hnot, -⟩ | ⟨-, -, -, -, hafter⟩
      · rcases hrefused with hempty | ⟨-, hnot⟩
        · simp [stored] at hempty
        · exact absurd ⟨hitem, hdata⟩ hnot
      · unfold Holding
        simp only [hafter]
        rw [lookup_modify rest request.key request.key (overwriteItem_key _ _), if_pos rfl, hlookup]
        exact ⟨_, rfl, hset⟩
      · exact absurd hdata hnot
      · unfold Holding
        rw [hafter, lookup_push rest (CString.take_eq_self hkey) request.key, if_pos rfl]
        exact ⟨_, rfl, hset⟩

/-- From every cache, however its chains are, and with calls of other keys, long ones too, in
between: while no clock reading is later than thirty seconds after `since`, at most one call reads
the file or executes the command of a key that fits into an item. -/
theorem consults_at_most_once {key : CString} {since : ℤ} {calls : List CachedCall}
    (hkey : key.length ≤ 127) (hcalls : ∀ call ∈ calls, Within key since call) (cache : Cache) :
    (outputs cachedStep (consults key) cache calls).count true ≤ 1 := by
  induction calls generalizing cache with
  | nil => simp [outputs]
  | cons call rest ih =>
    have hrest : ∀ other ∈ rest, Within key since other :=
      fun other hother ↦ hcalls other (List.mem_cons_of_mem _ hother)
    rw [outputs]
    cases hconsults : consults key cache call with
    | false =>
      rw [List.count_cons_of_ne (by decide)]
      exact ih hrest (cachedStep cache call)
    | true =>
      have hholding := holding_of_consults hkey (hcalls call List.mem_cons_self) hconsults
      rw [List.count_cons_self, hholding.outputs_consults hrest, List.count_replicate]
      simp

theorem consults_at_most_once_example :
    (outputs cachedStep (consults shortKey) cacheCreate
      [.request (exampleRequest 0), .cleanupExpired 25, .request (exampleRequest 30)]).count true ≤
      1 :=
  @consults_at_most_once shortKey 0 _ (by simp [shortKey, CString.length])
    (by simp [Within, exampleRequest]) cacheCreate

end HiFetch.Memory.CachedOutput
