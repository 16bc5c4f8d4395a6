import HiFetch.Memory.CacheInvariant
import HiFetch.Utils.CommandOutput

/-!
# Reading files and commands through the cache

`cache_file_content_optimized` and `cache_command_output` answer from the cache, and otherwise read
the file or execute the command, store the text and return a copy of it.  The two share the one
cache, and a call does not hold a lock between its `cache_get` and its `cache_set`.

The text of a file is in a buffer of the call.  The text of a command is in a buffer that
`execute_cmd` uses again for a later command, and it is found only if its address fits into an
`int`, since no header declares that function.  So only calls for files are interleaved here.

In every interleaving of such calls, a text that comes out of the cache is one that was stored at
most thirty seconds ago, under a key whose first 127 bytes are the key of the call.
-/

namespace HiFetch.Memory.CachedOutput

open ResultCache Transition Utils

/-- The bytes of a text with its NUL: `strlen(text) + 1` of them are stored and returned. -/
def stored (text : CString) : List UInt8 := text.bytes ++ [0]

/-- The `char *` that a call returns. -/
inductive Answer where
  | null
  | text (bytes : List UInt8)
  /-- `cache_get` copies from a null pointer, or a pointer to a text is cut. -/
  | fault
deriving DecidableEq

/-- A call of one of the two functions: its key, what reading the file or executing the command
gives if it comes to that, and what `time` and `malloc` give on the way. -/
structure Request where
  key : CString
  output : Option CString
  getTime : ℤ
  getAllocated : Bool
  setTime : ℤ
  itemAllocated : Bool
  dataAllocated : Bool
  copyAllocated : Bool

/-- What `strdup` returns. -/
def strdup (text : CString) (allocated : Bool) : Answer :=
  if allocated then .text (stored text) else .null

/-- The common body of the two functions. -/
def cachedOutput (cache : Cache) (request : Request) : Answer × Cache :=
  match cacheGet cache request.key request.getAllocated request.getTime with
  | (.copied data _, cache) => (.text data, cache)
  | (.fault, cache) => (.fault, cache)
  | (.null, cache) =>
      match request.output with
      | none => (.null, cache)
      | some text =>
          (strdup text request.copyAllocated,
            (cacheSet cache request.key (stored text) request.itemAllocated request.dataAllocated
              request.setTime).2)

/-- `cache_file_content_optimized`, given what `read` does with the file, what the buffer on the
stack holds, and what `time` and `malloc` give. -/
def cacheFileContentOptimized (globalCache : Option Cache) (path : CString) (buffer : List UInt8)
    (file : FileRead) (request : Request) : Answer × Option Cache :=
  match globalCache with
  | none => (.null, none)
  | some cache =>
      let (answer, cache) :=
        cachedOutput cache { request with key := path, output := readText buffer 8192 file }
      (answer, some cache)

/-- `cache_command_output`, given what `execute_cmd` returns.  A pointer to the text that is cut
leads to some other address. -/
def cacheCommandOutput (globalCache : Option Cache) (cmd : CString) (executed : Option CmdOutput)
    (request : Request) : Answer × Option Cache :=
  match globalCache with
  | none => (.null, none)
  | some cache =>
      let output := executed.filter fun output ↦ output.pointer ≠ 0
      let (result, rest) := cacheGet cache cmd request.getAllocated request.getTime
      if result = .null ∧ ∃ text ∈ output, text.pointer ≠ text.address then (.fault, some rest)
      else
        let (answer, cache) :=
          cachedOutput cache { request with key := cmd, output := output.map CmdOutput.text }
        (answer, some cache)

theorem expired_eq_false_iff {now : ℤ} {item : CacheItem} :
    expired now item = false ↔ now ≤ item.timestamp + 30 := by
  unfold expired
  rw [decide_eq_false_iff_not, not_lt, sub_le_iff_le_add']
  rfl

/-! ## Where the data of an item comes from -/

/-- A text that a call has stored. -/
structure Supply where
  key : CString
  text : CString
  time : ℤ

/-- Every item that has data has the text of a supply, under the part of its key that fits. -/
def Sourced (supplies : List Supply) (cache : Cache) : Prop :=
  ∀ item ∈ cache.contents, item.key.length ≤ 127 ∧
    ∀ data, item.data = some data → item.dataSize = data.length ∧
      ∃ supply ∈ supplies, supply.key.take 127 = item.key ∧ supply.time = item.timestamp ∧
        data = stored supply.text

theorem sourced_cacheCreate : Sourced [] cacheCreate := by
  simp [Sourced, Cache.contents, cacheCreate]

namespace Sourced

variable {supplies : List Supply} {cache : Cache}

theorem mono (h : Sourced supplies cache) (supply : Supply) :
    Sourced (supply :: supplies) cache := by
  intro item hitem
  refine ⟨(h item hitem).1, fun data hdata ↦ ?_⟩
  obtain ⟨hsize, source, hsource, hfacts⟩ := (h item hitem).2 data hdata
  exact ⟨hsize, source, List.mem_cons_of_mem _ hsource, hfacts⟩

theorem released (h : Sourced supplies cache) {after : Cache} {items : Multiset CacheItem}
    (hreleased : Released cache after items) : Sourced supplies after := by
  intro item hitem
  apply h
  rw [hreleased.contents_eq]
  exact Multiset.mem_add.2 (.inl hitem)

theorem cacheDelete (h : Sourced supplies cache) (key : CString) :
    Sourced supplies (cacheDelete cache key) := by
  obtain ⟨items, hreleased⟩ := exists_released_cacheDelete cache key
  exact h.released hreleased

/-- Setting keeps the sources when the new text is a supply under the key. -/
theorem cacheSet (h : Sourced supplies cache) {supply : Supply} (hsupply : supply ∈ supplies)
    (itemAllocated dataAllocated : Bool) :
    Sourced supplies (cacheSet cache supply.key (stored supply.text) itemAllocated dataAllocated
      supply.time).2 := by
  have hfound : ∀ item, lookup cache supply.key = some item →
      item.key = supply.key ∧ supply.key.take 127 = item.key := by
    intro item hlookup
    have hkey : item.key = supply.key := KeyedTable.keyOf_of_find hlookup
    have hlength := (h item (KeyedTable.mem_of_find hlookup)).1
    rw [hkey] at hlength ⊢
    exact ⟨rfl, CString.take_eq_self hlength⟩
  rcases cacheSet_cases cache supply.key (stored supply.text) itemAllocated dataAllocated
    supply.time with ⟨hset, -⟩ | ⟨item, hlookup, -, -, hset⟩ | ⟨item, hlookup, -, -, hset⟩ |
      ⟨-, -, -, -, hset⟩
  · rwa [hset]
  · obtain ⟨others, hbefore, hafter⟩ :=
      contents_modify hlookup (overwriteItem (stored supply.text) supply.time)
    rw [hset]
    intro other hother
    rw [hafter, Multiset.mem_cons] at hother
    rcases hother with rfl | hother
    · refine ⟨(h item (KeyedTable.mem_of_find hlookup)).1, ?_⟩
      rintro data ⟨⟩
      exact ⟨rfl, supply, hsupply, (hfound item hlookup).2, rfl, rfl⟩
    · exact h other (hbefore ▸ Multiset.mem_cons_of_mem hother)
  · obtain ⟨others, hbefore, hafter⟩ := contents_modify hlookup loseData
    rw [hset]
    intro other hother
    rw [hafter, Multiset.mem_cons] at hother
    rcases hother with rfl | hother
    · refine ⟨(h item (KeyedTable.mem_of_find hlookup)).1, ?_⟩
      rintro data ⟨⟩
    · exact h other (hbefore ▸ Multiset.mem_cons_of_mem hother)
  · rw [hset]
    intro other hother
    rw [contents_push, Multiset.mem_cons] at hother
    rcases hother with rfl | hother
    · refine ⟨CString.length_take_le _ _, ?_⟩
      rintro data ⟨⟩
      exact ⟨rfl, supply, hsupply, rfl, rfl, rfl⟩
    · exact h other hother

/-- A copy that `cache_get` makes is that of a supply which is not older than thirty seconds. -/
theorem exists_supply_of_judge (h : Sourced supplies cache) {key : CString} {allocated : Bool}
    {now : ℤ} {data : List UInt8} {size : ℕ}
    (hjudge : judge cache key allocated now = .result (.copied data size)) :
    ∃ supply ∈ supplies, supply.key.take 127 = key ∧ now ≤ supply.time + 30 ∧
      data = stored supply.text := by
  cases hlookup : lookup cache key with
  | none => simp [judge, hlookup] at hjudge
  | some item =>
    cases hexpired : expired now item with
    | true => simp [judge, hlookup, hexpired] at hjudge
    | false =>
      cases hdata : item.data with
      | none => cases allocated <;> simp [judge, hlookup, hexpired, hdata] at hjudge
      | some bytes =>
        obtain ⟨hsize, supply, hsupply, hkey, htime, hbytes⟩ :=
          (h item (KeyedTable.mem_of_find hlookup)).2 bytes hdata
        have hcopy : data = bytes := by
          cases allocated with
          | false => simp [judge, hlookup, hexpired] at hjudge
          | true =>
            simp only [judge, hlookup, hexpired, hdata] at hjudge
            have hpair : bytes.take item.dataSize = data ∧ item.dataSize = size := by
              simpa using hjudge
            rw [← hpair.1, hsize, List.take_length]
        have hcurrent := expired_eq_false_iff.1 hexpired
        refine ⟨supply, hsupply, ?_, htime ▸ hcurrent, hcopy.trans hbytes⟩
        rw [hkey]
        exact KeyedTable.keyOf_of_find hlookup

end Sourced

/-! ## Interleavings -/

/-- Where a thread is in `cache_file_content_optimized`. -/
inductive Place where
  | idle
  /-- `cache_get` has found the item of the key expired. -/
  | deleting (key : CString)
  /-- `cache_get` has returned null. -/
  | consulting (key : CString)
  /-- The file has been read. -/
  | storing (key : CString) (text : CString)

/-- The cache and the threads, with the texts that were read for each key so far and those that
were handed to `cache_set`. -/
structure Threads where
  cache : Cache
  place : ℕ → Place
  consulted : List (CString × CString)
  supplies : List Supply

/-- A thread takes the next part of a call; or another client deletes a key or cleans a bucket. -/
inductive Move where
  | lookUp (thread : ℕ) (key : CString) (allocated : Bool) (now : ℤ)
  | deleteExpired (thread : ℕ)
  | consult (thread : ℕ) (output : Option CString)
  | store (thread : ℕ) (itemAllocated dataAllocated copyAllocated : Bool) (now : ℤ)
  | delete (key : CString)
  | cleanBucket (now : ℤ) (bucket : Fin 256)

def startThreads : Threads where
  cache := cacheCreate
  place := fun _ ↦ .idle
  consulted := []
  supplies := []

def Threads.moveTo (threads : Threads) (thread : ℕ) (place : Place) : Threads :=
  { threads with place := Function.update threads.place thread place }

def threadsStep (threads : Threads) : Move → Threads
  | .lookUp thread key allocated now =>
      match threads.place thread, judge threads.cache key allocated now with
      | .idle, .expired => threads.moveTo thread (.deleting key)
      | .idle, .result .null => threads.moveTo thread (.consulting key)
      | _, _ => threads
  | .deleteExpired thread =>
      match threads.place thread with
      | .deleting key =>
          { threads.moveTo thread (.consulting key) with cache := cacheDelete threads.cache key }
      | _ => threads
  | .consult thread output =>
      match threads.place thread, output with
      | .consulting _, none => threads.moveTo thread .idle
      | .consulting key, some text =>
          { threads.moveTo thread (.storing key text) with
            consulted := (key, text) :: threads.consulted }
      | _, _ => threads
  | .store thread itemAllocated dataAllocated _ now =>
      match threads.place thread with
      | .storing key text =>
          { threads.moveTo thread .idle with
            cache := (cacheSet threads.cache key (stored text) itemAllocated dataAllocated now).2
            supplies := { key, text, time := now } :: threads.supplies }
      | _ => threads
  | .delete key => { threads with cache := cacheDelete threads.cache key }
  | .cleanBucket now bucket => { threads with cache := cleanBucket now threads.cache bucket }

/-- What a move returns to the caller, when the call ends with it. -/
def threadsAnswer (threads : Threads) : Move → Option Answer
  | .lookUp thread key allocated now =>
      match threads.place thread, judge threads.cache key allocated now with
      | .idle, .result (.copied data _) => some (.text data)
      | .idle, .result .fault => some .fault
      | _, _ => none
  | .consult thread output =>
      match threads.place thread, output with
      | .consulting _, none => some .null
      | _, _ => none
  | .store thread _ _ copyAllocated _ =>
      match threads.place thread with
      | .storing _ text => some (strdup text copyAllocated)
      | _ => none
  | _ => none

/-- The parts of one call. -/
def callMoves (thread : ℕ) (request : Request) : List Move :=
  [.lookUp thread request.key request.getAllocated request.getTime, .deleteExpired thread,
    .consult thread request.output,
    .store thread request.itemAllocated request.dataAllocated request.copyAllocated
      request.setTime]

/-- A call whose parts nothing interrupts is the function as it is written. -/
theorem callMoves_eq_cachedOutput {threads : Threads} {thread : ℕ}
    (hidle : threads.place thread = .idle) (request : Request) :
    (run threadsStep threads (callMoves thread request)).cache =
        (cachedOutput threads.cache request).2 ∧
      (run threadsStep threads (callMoves thread request)).place = threads.place ∧
      (outputs threadsStep threadsAnswer threads (callMoves thread request)).filterMap id =
        [(cachedOutput threads.cache request).1] := by
  have hback : Function.update threads.place thread .idle = threads.place := by
    rw [← hidle, Function.update_eq_self]
  unfold callMoves cachedOutput cacheGet
  cases hjudge : judge threads.cache request.key request.getAllocated request.getTime with
  | expired =>
    cases houtput : request.output <;>
      simp [run, outputs, threadsStep, threadsAnswer, Threads.moveTo, hidle, hjudge, hback]
  | result result =>
    cases result with
    | null =>
      cases houtput : request.output <;>
        simp [run, outputs, threadsStep, threadsAnswer, Threads.moveTo, hidle, hjudge, hback]
    | copied data size => simp [run, outputs, threadsStep, threadsAnswer, hidle, hjudge]
    | fault => simp [run, outputs, threadsStep, threadsAnswer, hidle, hjudge]

/-- The bytes are a text that was read for a key with these first 127 bytes and stored at most
thirty seconds ago. -/
def Fresh (threads : Threads) (key : CString) (now : ℤ) (bytes : List UInt8) : Prop :=
  ∃ supply ∈ threads.supplies, (supply.key, supply.text) ∈ threads.consulted ∧
    supply.key.take 127 = key ∧ now ≤ supply.time + 30 ∧ bytes = stored supply.text

/-- What holds between the moves. -/
structure Traced (threads : Threads) : Prop where
  sourced : Sourced threads.supplies threads.cache
  read : ∀ supply ∈ threads.supplies, (supply.key, supply.text) ∈ threads.consulted
  storing : ∀ thread key text, threads.place thread = .storing key text →
    (key, text) ∈ threads.consulted

theorem traced_startThreads : Traced startThreads :=
  ⟨sourced_cacheCreate, by simp [startThreads], by simp [startThreads]⟩

namespace Traced

variable {threads : Threads}

/-- A thread that does not go on to store a text. -/
theorem moveTo (h : Traced threads) (thread : ℕ) {place : Place}
    (hplace : ∀ key text, place ≠ .storing key text) : Traced (threads.moveTo thread place) := by
  refine ⟨h.sourced, h.read, fun other key text hother ↦ ?_⟩
  change Function.update threads.place thread place other = _ at hother
  rw [Function.update_apply] at hother
  split_ifs at hother
  · exact absurd hother (hplace key text)
  · exact h.storing other key text hother

theorem cache (h : Traced threads) {cache : Cache} (hcache : Sourced threads.supplies cache) :
    Traced { threads with cache } :=
  ⟨hcache, h.read, h.storing⟩

theorem consult (h : Traced threads) (thread : ℕ) (key text : CString) :
    Traced { threads.moveTo thread (.storing key text) with
      consulted := (key, text) :: threads.consulted } := by
  refine ⟨h.sourced, fun supply hsupply ↦ List.mem_cons_of_mem _ (h.read supply hsupply), ?_⟩
  intro other otherKey otherText hother
  change Function.update threads.place thread (.storing key text) other = _ at hother
  rw [Function.update_apply] at hother
  split_ifs at hother
  · obtain ⟨rfl, rfl⟩ := Place.storing.inj hother
    exact List.mem_cons_self
  · exact List.mem_cons_of_mem _ (h.storing other _ _ hother)

theorem store (h : Traced threads) {thread : ℕ} {key text : CString}
    (hplace : threads.place thread = .storing key text) (itemAllocated dataAllocated : Bool)
    (now : ℤ) :
    Traced { threads.moveTo thread .idle with
      cache := (cacheSet threads.cache key (stored text) itemAllocated dataAllocated now).2
      supplies := { key, text, time := now } :: threads.supplies } := by
  have hmoved : Traced (threads.moveTo thread .idle) := h.moveTo thread (by simp)
  refine ⟨?_, ?_, hmoved.storing⟩
  · exact (h.sourced.mono _).cacheSet List.mem_cons_self itemAllocated dataAllocated
  · intro supply hsupply
    rcases List.mem_cons.1 hsupply with rfl | hsupply
    · exact h.storing thread key text hplace
    · exact h.read supply hsupply

theorem step (h : Traced threads) (move : Move) : Traced (threadsStep threads move) := by
  cases move with
  | lookUp thread key allocated now =>
    simp only [threadsStep]
    split
    · exact h.moveTo thread fun _ _ ↦ Place.noConfusion
    · exact h.moveTo thread fun _ _ ↦ Place.noConfusion
    · exact h
  | deleteExpired thread =>
    simp only [threadsStep]
    split
    · exact (h.moveTo thread fun _ _ ↦ Place.noConfusion).cache (h.sourced.cacheDelete _)
    · exact h
  | consult thread output =>
    simp only [threadsStep]
    split
    · exact h.moveTo thread fun _ _ ↦ Place.noConfusion
    · exact h.consult thread _ _
    · exact h
  | store thread itemAllocated dataAllocated copyAllocated now =>
    simp only [threadsStep]
    split
    case h_1 key text hplace => exact h.store hplace itemAllocated dataAllocated now
    case h_2 => exact h
  | delete key => exact h.cache (h.sourced.cacheDelete key)
  | cleanBucket now bucket =>
    exact h.cache (h.sourced.released (cleanBucket_released now threads.cache bucket))

theorem fresh (h : Traced threads) {thread : ℕ} {key : CString} {allocated : Bool} {now : ℤ}
    {bytes : List UInt8}
    (hanswer : threadsAnswer threads (.lookUp thread key allocated now) = some (.text bytes)) :
    Fresh threads key now bytes := by
  have hjudge : ∃ size, judge threads.cache key allocated now = .result (.copied bytes size) := by
    simp only [threadsAnswer] at hanswer
    split at hanswer
    case h_1 data size _ hjudge =>
      obtain ⟨⟩ := Option.some.inj hanswer
      exact ⟨size, hjudge⟩
    case h_2 => simp at hanswer
    case h_3 => simp at hanswer
  obtain ⟨size, hjudge⟩ := hjudge
  obtain ⟨supply, hsupply, hkey, htime, hbytes⟩ := h.sourced.exists_supply_of_judge hjudge
  exact ⟨supply, hsupply, h.read supply hsupply, hkey, htime, hbytes⟩

end Traced

/-- However the parts of the calls of any number of threads interleave, with each other, with
deletions and with the cleanup of buckets, and whatever `malloc` and `time` do: a text that comes
out of the cache is one that some thread read for a key with the same first 127 bytes, and that was
stored at most thirty seconds before the clock reading of the look-up. -/
theorem answers_fresh (moves : List Move) :
    Along threadsStep (fun threads move ↦ ∀ thread key allocated now bytes,
      move = .lookUp thread key allocated now →
      threadsAnswer threads move = some (.text bytes) → Fresh threads key now bytes)
      startThreads moves := by
  have hstep : ∀ threads move, Traced threads → True → Traced (threadsStep threads move) ∧
      ∀ thread key allocated now bytes, move = .lookUp thread key allocated now →
        threadsAnswer threads move = some (.text bytes) → Fresh threads key now bytes := by
    intro threads move h _
    refine ⟨h.step move, ?_⟩
    rintro thread key allocated now bytes rfl hanswer
    exact h.fresh hanswer
  exact along_of_invariant hstep traced_startThreads (along_of_forall fun _ _ ↦ trivial)

end HiFetch.Memory.CachedOutput
