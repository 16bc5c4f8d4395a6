import HiFetch.Memory.TrackerThreads

/-!
# The table in any interleaving

Whatever the threads do between the sections of a call, the stages of the blocks stay right about
the heap and the table.  So no thread touches a block that is not live, every entry names the call
that has allocated its block, and the table misses a block of a client only after more than 1024
blocks were live at once.
-/

namespace HiFetch.Memory.Tracker

open Allocator ByteRange Transition

/-! ## One section -/

theorem leaks_record {tracker : MemoryTracker} (h : tracker.leaks.length < maxLeaks) (ptr size : ℕ)
    (site : Site) :
    (record tracker ptr size site).leaks = tracker.leaks ++ [entry ptr size site] := by
  rw [record, if_pos h]
  rfl

theorem mem_forget_iff {tracker : MemoryTracker}
    (hdistinct : (tracker.leaks.map MemoryLeak.ptr).Nodup) {ptr : ℕ} {leak : MemoryLeak} :
    leak ∈ (forget tracker ptr).leaks ↔ leak ∈ tracker.leaks ∧ leak.ptr ≠ ptr := by
  rcases forget_cases tracker ptr with ⟨hnone, hforget⟩ | ⟨first, rfl, hperm, -, -⟩
  · rw [hforget]
    exact ⟨fun hleak ↦ ⟨hleak, hnone leak hleak⟩, And.left⟩
  · constructor
    · intro hleak
      exact ⟨hperm.mem_iff.2 (List.mem_cons_of_mem _ hleak),
        ptr_ne_of_perm hdistinct hperm leak hleak⟩
    · rintro ⟨hleak, hne⟩
      refine (List.mem_cons.1 (hperm.mem_iff.1 hleak)).resolve_left ?_
      rintro rfl
      exact hne rfl

namespace Tracks

variable {tracker : MemoryTracker} {live : Live}

theorem mono (h : Tracks tracker live) {more : Live}
    (hmore : ∀ leak ∈ tracker.leaks, leak.range ∈ more.map Block.range) : Tracks tracker more :=
  ⟨h.room, h.distinct, hmore, h.total_eq⟩

/-- Recording a block that is live already. -/
theorem record_live (h : Tracks tracker live) (hvalid : Valid live) {ptr size : ℕ} {site : Site}
    (hrange : (entry ptr size site).range ∈ live.map Block.range)
    (hnew : ∀ leak ∈ tracker.leaks, leak.ptr ≠ ptr) :
    Tracks (Tracker.record tracker ptr size site) live := by
  by_cases hroom : tracker.leaks.length < maxLeaks
  · have hleaks := leaks_record hroom ptr size site
    have hlive : ∀ leak ∈ tracker.leaks ++ [entry ptr size site],
        leak.range ∈ live.map Block.range := by
      rw [List.forall_mem_append, List.forall_mem_singleton]
      exact ⟨h.live, hrange⟩
    have hdistinct : ((tracker.leaks ++ [entry ptr size site]).map MemoryLeak.ptr).Nodup := by
      rw [List.map_append, List.map_singleton, List.nodup_append]
      refine ⟨h.distinct, List.nodup_singleton _, ?_⟩
      intro address hold other hother
      obtain ⟨leak, hleak, rfl⟩ := List.mem_map.1 hold
      rw [List.mem_singleton.1 hother]
      exact hnew leak hleak
    have htotal : total ((tracker.leaks ++ [entry ptr size site]).map MemoryLeak.range) =
        tracker.totalAllocated + size := by
      rw [List.map_append, total_append, h.total_eq]
      rfl
    have hlt : tracker.totalAllocated + size < 2 ^ 64 := calc
      tracker.totalAllocated + size =
          total ((tracker.leaks ++ [entry ptr size site]).map MemoryLeak.range) := htotal.symm
      _ ≤ total (live.map Block.range) := total_le_of_subperm (subperm_of_live hdistinct hlive)
      _ < 2 ^ 64 := hvalid.total_lt
    refine ⟨?_, hleaks ▸ hdistinct, hleaks ▸ hlive, ?_⟩
    · rw [hleaks, List.length_append]
      exact hroom
    · rw [hleaks, htotal, Tracker.record, if_pos hroom]
      exact Nat.mod_eq_of_lt hlt
  · rw [Tracker.record, if_neg hroom]
    exact h

end Tracks

/-! ## What holds between the steps -/

theorem not_kept_absent (leak : MemoryLeak) : ¬Stage.absent.Kept leak := by
  simp [Stage.Kept]

theorem not_kept_leaving (leak : MemoryLeak) : ¬Stage.leaving.Kept leak := by
  simp [Stage.Kept]

theorem not_kept_fresh (leak other : MemoryLeak) : ¬(Stage.fresh leak).Kept other := by
  simp [Stage.Kept]

theorem kept_busy_iff {leak other : MemoryLeak} : (Stage.busy leak).Kept other ↔ leak = other := by
  simp [Stage.Kept]

/-- The stages are right about the heap and the table. -/
structure Staged (tracker : MemoryTracker) (live : Live) (stage : ℕ → Stage) (mostLive : ℕ) :
    Prop where
  valid : Valid live
  tracks : Tracks tracker live
  absent : ∀ address, stage address = .absent ↔ address ∉ live.map Block.address
  held : ∀ address leak, stage address = .fresh leak ∨ (stage address).Kept leak →
    leak.ptr = address ∧ leak.range ∈ live.map Block.range
  entries : ∀ leak ∈ tracker.leaks, (stage leak.ptr).Kept leak
  live_le : live.length ≤ mostLive
  complete : mostLive ≤ maxLeaks → ∀ address leak, (stage address).Kept leak →
    leak ∈ tracker.leaks

theorem mem_address_iff {live : Live} {address : ℕ} :
    address ∈ live.map Block.address ↔ ∃ range ∈ live.map Block.range, range.start = address := by
  constructor
  · intro h
    obtain ⟨block, hblock, rfl⟩ := List.mem_map.1 h
    exact ⟨block.range, List.mem_map_of_mem hblock, rfl⟩
  · rintro ⟨range, hrange, rfl⟩
    obtain ⟨block, hblock, rfl⟩ := List.mem_map.1 hrange
    exact List.mem_map_of_mem hblock

namespace Staged

variable {tracker : MemoryTracker} {live : Live} {stage : ℕ → Stage} {mostLive : ℕ}

/-- The frame: a step about one block has to be right about that block only. -/
theorem change (h : Staged tracker live stage mostLive) {nextTracker : MemoryTracker}
    {nextLive : Live} {nextMost : ℕ} (ptr : ℕ) {next : Stage} (hvalid : Valid nextLive)
    (htracks : Tracks nextTracker nextLive)
    (hranges : ∀ range : ByteRange, range.start ≠ ptr →
      (range ∈ nextLive.map Block.range ↔ range ∈ live.map Block.range))
    (hleaks : ∀ leak : MemoryLeak, leak.ptr ≠ ptr →
      (leak ∈ nextTracker.leaks ↔ leak ∈ tracker.leaks))
    (habsent : next = .absent ↔ ptr ∉ nextLive.map Block.address)
    (hheld : ∀ leak, next = .fresh leak ∨ next.Kept leak →
      leak.ptr = ptr ∧ leak.range ∈ nextLive.map Block.range)
    (hentry : ∀ leak ∈ nextTracker.leaks, leak.ptr = ptr → next.Kept leak)
    (hlive : nextLive.length ≤ nextMost) (hmost : mostLive ≤ nextMost)
    (hcomplete : nextMost ≤ maxLeaks → ∀ leak, next.Kept leak → leak ∈ nextTracker.leaks) :
    Staged nextTracker nextLive (Function.update stage ptr next) nextMost := by
  refine ⟨hvalid, htracks, fun address ↦ ?_, fun address leak hleak ↦ ?_, fun leak hleak ↦ ?_,
    hlive, fun hle address leak hleak ↦ ?_⟩
  · by_cases haddress : address = ptr
    · rw [haddress, Function.update_self]
      exact habsent
    · rw [Function.update_of_ne haddress, h.absent, mem_address_iff, mem_address_iff, not_iff_not]
      constructor
      · rintro ⟨range, hrange, rfl⟩
        exact ⟨range, (hranges range haddress).2 hrange, rfl⟩
      · rintro ⟨range, hrange, rfl⟩
        exact ⟨range, (hranges range haddress).1 hrange, rfl⟩
  · by_cases haddress : address = ptr
    · rw [haddress, Function.update_self] at hleak
      rw [haddress]
      exact hheld leak hleak
    · rw [Function.update_of_ne haddress] at hleak
      obtain ⟨rfl, hrange⟩ := h.held address leak hleak
      exact ⟨rfl, (hranges leak.range haddress).2 hrange⟩
  · by_cases hptr : leak.ptr = ptr
    · rw [hptr, Function.update_self]
      exact hentry leak hleak hptr
    · rw [Function.update_of_ne hptr]
      exact h.entries leak ((hleaks leak hptr).1 hleak)
  · by_cases haddress : address = ptr
    · rw [haddress, Function.update_self] at hleak
      exact hcomplete hle leak hleak
    · rw [Function.update_of_ne haddress] at hleak
      obtain ⟨rfl, -⟩ := h.held address leak (.inr hleak)
      exact (hleaks leak haddress).2 (h.complete (hmost.trans hle) leak.ptr leak hleak)

/-- Taking and giving a block. -/
theorem update (h : Staged tracker live stage mostLive) (ptr : ℕ) {next : Stage}
    (habsent : next = .absent ↔ stage ptr = .absent)
    (hfresh : ∀ leak, next = .fresh leak ↔ stage ptr = .fresh leak)
    (hkept : ∀ leak, next.Kept leak ↔ (stage ptr).Kept leak) :
    Staged tracker live (Function.update stage ptr next) mostLive := by
  apply h.change ptr h.valid h.tracks (fun _ _ ↦ Iff.rfl) (fun _ _ ↦ Iff.rfl)
  · exact habsent.trans (h.absent ptr)
  · exact fun leak hleak ↦ h.held ptr leak (hleak.imp (hfresh leak).1 (hkept leak).1)
  · rintro leak hleak rfl
    exact (hkept leak).2 (h.entries leak hleak)
  · exact h.live_le
  · exact le_refl mostLive
  · exact fun hmost leak hleak ↦ h.complete hmost ptr leak ((hkept leak).1 hleak)

theorem give (h : Staged tracker live stage mostLive) (ptr : ℕ) :
    Staged tracker live (Function.update stage ptr (stage ptr).give) mostLive := by
  apply h.update ptr <;> cases stage ptr <;> simp [Stage.give, Stage.Kept]

theorem takeBack (h : Staged tracker live stage mostLive) (released : Option ℕ) :
    Staged tracker live (takeBack stage released) mostLive := by
  cases released with
  | none => exact h
  | some ptr => apply h.update ptr <;> cases stage ptr <;> simp [Stage.take, Stage.Kept]

theorem write (h : Staged tracker live stage mostLive) (address : ℕ) (data : List UInt8) :
    Staged tracker (write live address data) stage mostLive := by
  have hranges := map_range_write live address data
  refine ⟨h.valid.write address data, h.tracks.write address data, fun other ↦ ?_,
    fun other leak hleak ↦ ?_, h.entries, ?_, h.complete⟩
  · rw [h.absent, mem_address_iff, mem_address_iff, hranges]
  · rw [hranges]
    exact h.held other leak hleak
  · rw [length_write]
    exact h.live_le

theorem ptr_ne (h : Staged tracker live stage mostLive) {ptr : ℕ}
    (hstage : ∀ leak, ¬(stage ptr).Kept leak) : ∀ leak ∈ tracker.leaks, leak.ptr ≠ ptr := by
  rintro leak hleak rfl
  exact hstage leak (h.entries leak hleak)

theorem mem_live (h : Staged tracker live stage mostLive) {ptr : ℕ} (hstage : stage ptr ≠ .absent) :
    ptr ∈ live.map Block.address := by
  by_contra hnot
  exact hstage ((h.absent ptr).2 hnot)

theorem absent_of_fresh (h : Staged tracker live stage mostLive) {size address : ℕ}
    (hfresh : Fresh live size address) : stage address = .absent := by
  rw [h.absent]
  intro hmem
  obtain ⟨block, hblock, haddress⟩ := List.mem_map.1 hmem
  exact (hfresh.2 block hblock).1 haddress

/-- The `malloc` of a call. -/
theorem malloc (h : Staged tracker live stage mostLive) {ptr size : ℕ} {site : Site}
    (hresult : site.result = some ptr) (hfresh : Fresh live size ptr) :
    Staged tracker (malloc live size site.contents site.result)
      (Function.update stage ptr (.fresh (entry ptr size site)))
      (max mostLive (Allocator.malloc live size site.contents site.result).length) := by
  have hranges : (Allocator.malloc live size site.contents site.result).map Block.range =
      ⟨ptr, size⟩ :: live.map Block.range := map_range_malloc size hresult
  have hne := h.ptr_ne fun leak ↦ by
    rw [h.absent_of_fresh hfresh]
    exact not_kept_absent leak
  apply h.change ptr
  · apply h.valid.malloc size site.contents
    intro address haddress
    rw [hresult] at haddress
    rwa [← Option.some.inj haddress]
  · apply h.tracks.mono
    intro leak hleak
    rw [hranges]
    exact List.mem_cons_of_mem _ (h.tracks.live leak hleak)
  · intro range hrange
    rw [hranges, List.mem_cons, or_iff_right]
    rintro rfl
    exact hrange rfl
  · exact fun _ _ ↦ Iff.rfl
  · rw [mem_address_iff, hranges]
    exact iff_of_false (by simp) fun hnot ↦ hnot ⟨_, List.mem_cons_self, rfl⟩
  · rintro leak (hleak | hleak)
    · obtain rfl := Stage.fresh.inj hleak
      rw [hranges]
      exact ⟨rfl, List.mem_cons_self⟩
    · exact absurd hleak (not_kept_fresh _ leak)
  · exact fun leak hleak hptr ↦ absurd hptr (hne leak hleak)
  · exact le_max_right _ _
  · exact le_max_left _ _
  · exact fun _ leak hleak ↦ absurd hleak (not_kept_fresh _ leak)

/-- A block that is not recorded yet has room in the table, unless too many blocks are live. -/
theorem room_of_fresh (h : Staged tracker live stage mostLive) {ptr : ℕ} {leak : MemoryLeak}
    (hstage : stage ptr = .fresh leak) (hmost : mostLive ≤ maxLeaks) :
    tracker.leaks.length < maxLeaks := by
  obtain ⟨rfl, hrange⟩ := h.held ptr leak (.inl hstage)
  have hpart : ((leak :: tracker.leaks).map MemoryLeak.range).Subperm (live.map Block.range) := by
    apply subperm_of_live
    · rw [List.map_cons, List.nodup_cons]
      refine ⟨fun hmem ↦ ?_, h.tracks.distinct⟩
      obtain ⟨other, hother, hptr⟩ := List.mem_map.1 hmem
      have hkept := h.entries other hother
      rw [hptr, hstage] at hkept
      exact not_kept_fresh leak other hkept
    · exact List.forall_mem_cons.2 ⟨hrange, h.tracks.live⟩
  have hlength := hpart.length_le
  have hlive := h.live_le
  rw [List.length_map, List.length_map, List.length_cons] at hlength
  omega

/-- The section of `tracked_malloc`. -/
theorem record (h : Staged tracker live stage mostLive) {ptr size : ℕ} {site : Site}
    (hstage : stage ptr = .fresh (entry ptr size site)) :
    Staged (record tracker ptr size site) live
      (Function.update stage ptr (.busy (entry ptr size site))) mostLive := by
  have hrange := (h.held ptr _ (.inl hstage)).2
  have hne := h.ptr_ne fun leak ↦ by
    rw [hstage]
    exact not_kept_fresh _ leak
  apply h.change ptr h.valid (h.tracks.record_live h.valid hrange hne) (fun _ _ ↦ Iff.rfl)
  · intro leak hptr
    by_cases hroom : tracker.leaks.length < maxLeaks
    · rw [leaks_record hroom, List.mem_append, List.mem_singleton, or_iff_left]
      rintro rfl
      exact hptr rfl
    · rw [Tracker.record, if_neg hroom]
  · rw [← h.absent, hstage]
    exact iff_of_false (by simp) (by simp)
  · rintro leak (hleak | hleak)
    · exact absurd hleak (by simp)
    · rw [kept_busy_iff] at hleak
      rw [← hleak]
      exact ⟨rfl, hrange⟩
  · intro leak hleak hptr
    by_cases hroom : tracker.leaks.length < maxLeaks
    · rw [leaks_record hroom, List.mem_append, List.mem_singleton] at hleak
      rw [kept_busy_iff, hleak.resolve_left fun hold ↦ hne leak hold hptr]
    · rw [Tracker.record, if_neg hroom] at hleak
      exact absurd hptr (hne leak hleak)
  · exact h.live_le
  · exact le_refl mostLive
  · intro hmost leak hleak
    rw [kept_busy_iff] at hleak
    rw [leaks_record (h.room_of_fresh hstage hmost), ← hleak]
    exact List.mem_append_right _ List.mem_cons_self

/-- The section of `tracked_free`. -/
theorem forget (h : Staged tracker live stage mostLive) {ptr : ℕ} {leak : MemoryLeak}
    (hstage : stage ptr = .busy leak) :
    Staged (forget tracker ptr) live (Function.update stage ptr .leaving) mostLive := by
  have hkept {other : MemoryLeak} : other ∈ (Tracker.forget tracker ptr).leaks ↔
      other ∈ tracker.leaks ∧ other.ptr ≠ ptr := mem_forget_iff h.tracks.distinct
  apply h.change ptr h.valid
  · exact (h.tracks.forget h.valid ptr).mono fun other hother ↦
      h.tracks.live other (hkept.1 hother).1
  · exact fun _ _ ↦ Iff.rfl
  · exact fun other hptr ↦ hkept.trans (and_iff_left hptr)
  · rw [← h.absent, hstage]
    exact iff_of_false (by simp) (by simp)
  · rintro other (hother | hother)
    · exact absurd hother (by simp)
    · exact absurd hother (not_kept_leaving other)
  · exact fun other hother hptr ↦ absurd hptr (hkept.1 hother).2
  · exact h.live_le
  · exact le_refl mostLive
  · exact fun _ other hother ↦ absurd hother (not_kept_leaving other)

theorem free (h : Staged tracker live stage mostLive) {ptr : ℕ} (hstage : stage ptr = .leaving) :
    Staged tracker (free live ptr) (Function.update stage ptr .absent) mostLive := by
  have hne := h.ptr_ne fun leak ↦ by
    rw [hstage]
    exact not_kept_leaving leak
  have hrange {range : ByteRange} : range ∈ (Allocator.free live ptr).map Block.range ↔
      range ∈ live.map Block.range ∧ range.start ≠ ptr := by
    rw [Valid.map_range_free, List.mem_filter, decide_eq_true_iff]
  apply h.change ptr (h.valid.free ptr)
  · exact h.tracks.mono fun leak hleak ↦ hrange.2 ⟨h.tracks.live leak hleak, hne leak hleak⟩
  · exact fun range hstart ↦ hrange.trans (and_iff_left hstart)
  · exact fun _ _ ↦ Iff.rfl
  · exact iff_of_true rfl (notMem_free live ptr)
  · rintro leak (hleak | hleak)
    · exact absurd hleak (by simp)
    · exact absurd hleak (not_kept_absent leak)
  · exact fun leak hleak hptr ↦ absurd hptr (hne leak hleak)
  · exact (List.length_filter_le _ _).trans h.live_le
  · exact le_refl mostLive
  · exact fun _ leak hleak ↦ absurd hleak (not_kept_absent leak)

end Staged

/-! ## Runs -/

/-- What holds between the steps. -/
structure Sound (threads : Threads) : Prop where
  staged : Staged threads.tracker threads.live threads.stage threads.mostLive
  separate : blocks.Separate threads.stage threads.rest

theorem sound_startThreads : Sound startThreads where
  staged := {
    valid := valid_nil
    tracks := ⟨Nat.zero_le _, List.nodup_nil, nofun, rfl⟩
    absent := fun _ ↦ iff_of_true rfl nofun
    held := by
      rintro address leak (h | h)
      · exact Stage.noConfusion h
      · exact absurd h (not_kept_absent leak)
    entries := nofun
    live_le := le_refl 0
    complete := fun _ _ leak h ↦ absurd h (not_kept_absent leak) }
  separate := {
    completes := fun _ ↦ completes_nil
    apart := fun _ _ _ _ ↦ nofun
    claimed := fun _ h ↦ absurd trivial h }

namespace Sound

variable {threads : Threads}

theorem start (h : Sound threads) {thread : ℕ} {call : TrackedCall}
    (hidle : threads.rest thread = []) (hallowed : MoveAllowed threads (.start thread call)) :
    Sound (threadsStep threads (.start thread call)) := by
  obtain ⟨howned, hfresh⟩ := hallowed
  have habsent : ∀ request ∈ call.request, ∀ address ∈ request.2.result,
      threads.stage address = .absent := fun request hrequest address haddress ↦
    h.staged.absent_of_fresh (hfresh request hrequest address haddress)
  have hfree : ∀ address ∈ blocks.reach call.parts, blocks.idle (threads.stage address) := by
    intro address haddress
    rcases (mem_reach_parts_iff call).1 haddress with ⟨request, hrequest, hresult⟩ | hreleased
    · rw [habsent request hrequest address hresult]
      trivial
    · obtain ⟨leak, hleak⟩ := howned address hreleased
      rw [hleak]
      trivial
  have hstep : threadsStep threads (.start thread call) =
      { threads with
        live := call.allocate threads.live
        rest := Function.update threads.rest thread call.parts
        stage := call.claim threads.stage
        mostLive := max threads.mostLive (call.allocate threads.live).length } := by
    simp only [threadsStep, hidle]
  rw [hstep]
  refine ⟨?_, h.separate.start hidle (completes_parts howned habsent) hfree fun address ↦
    claim_of_notMem call⟩
  have htaken := h.staged.takeBack call.released
  unfold TrackedCall.allocate TrackedCall.claim
  cases hrequest : call.request with
  | none =>
    dsimp only
    rw [max_eq_left h.staged.live_le]
    exact htaken
  | some request =>
    obtain ⟨size, site⟩ := request
    dsimp only
    cases hresult : site.result with
    | none =>
      have hnone : handOut (takeBack threads.stage call.released) size site =
          takeBack threads.stage call.released := by
        simp [handOut, hresult]
      rw [hnone, show malloc threads.live size site.contents none = threads.live from rfl,
        max_eq_left h.staged.live_le]
      exact htaken
    | some ptr =>
      have hsome : handOut (takeBack threads.stage call.released) size site =
          Function.update (takeBack threads.stage call.released) ptr
            (.fresh (entry ptr size site)) := by
        simp [handOut, hresult]
      rw [hsome, ← hresult]
      exact htaken.malloc hresult (hfresh _ hrequest ptr hresult)

theorem resume (h : Sound threads) {thread : ℕ} {part : Part} {later : List Part}
    (hrest : threads.rest thread = part :: later) :
    Sound (threadsStep threads (.resume thread)) := by
  have henabled : part.Enabled threads.stage := h.separate.enabled hrest
  have hstep : threadsStep threads (.resume thread) =
      { part.perform threads with
        rest := Function.update threads.rest thread later
        stage := part.advance threads.stage } := by
    simp only [threadsStep, hrest]
  rw [hstep]
  refine ⟨?_, h.separate.resume hrest⟩
  cases part with
  | record ptr size site => exact h.staged.record henabled
  | clear ptr bytes => exact h.staged.write ptr _
  | copy ptr newPtr size =>
    dsimp only [Part.perform, Part.advance]
    unfold copyTracked
    dsimp only
    split
    · exact h.staged
    · exact h.staged.write newPtr _
  | forget ptr =>
    obtain ⟨leak, hbusy⟩ := henabled
    exact h.staged.forget hbusy
  | free ptr => exact h.staged.free henabled
  | give ptr => exact h.staged.give ptr

theorem step (h : Sound threads) {move : Move} (hallowed : MoveAllowed threads move) :
    Sound (threadsStep threads move) := by
  cases move with
  | start thread call =>
    cases hrest : threads.rest thread with
    | nil => exact h.start hrest hallowed
    | cons part later =>
      have hsame : threadsStep threads (.start thread call) = threads := by
        simp only [threadsStep, hrest]
      rwa [hsame]
  | resume thread =>
    cases hrest : threads.rest thread with
    | nil =>
      have hsame : threadsStep threads (.resume thread) = threads := by
        simp only [threadsStep, hrest]
      rwa [hsame]
    | cons part later => exact h.resume hrest

end Sound

/-! ## The law -/

/-- What the table says, and what the threads may rely on. -/
structure Reports (threads : Threads) : Prop where
  tracks : Tracks threads.tracker threads.live
  /-- Each entry is the one of the call that has allocated its block. -/
  named : ∀ leak ∈ threads.tracker.leaks, (threads.stage leak.ptr).Kept leak
  /-- What a client owns is in the table. -/
  complete : threads.mostLive ≤ maxLeaks → ∀ address leak, threads.stage address = .owned leak →
    leak ∈ threads.tracker.leaks
  /-- Between the calls the table is exactly the set of live blocks. -/
  quiet : threads.mostLive ≤ maxLeaks → (∀ thread, threads.rest thread = []) →
    Complete threads.tracker threads.live
  /-- A part touches live blocks only, and no other thread has to do with them. -/
  alive : ∀ thread part later, threads.rest thread = part :: later →
    ∀ ptr ∈ part.ptrs, ptr ∈ threads.live.map Block.address ∧
      ∀ other, other ≠ thread → ptr ∉ blocks.reach (threads.rest other)

theorem Sound.reports {threads : Threads} (h : Sound threads) : Reports threads where
  tracks := h.staged.tracks
  named := h.staged.entries
  complete hmost address leak hleak := h.staged.complete hmost address leak (.inr hleak)
  quiet hmost hquiet := by
    have hstaged := h.staged
    have hlive : (threads.live.map Block.range).Nodup := hstaged.valid.distinct.of_map _
    have hleaks := ranges_nodup hstaged.tracks.distinct
    unfold Complete
    rw [List.perm_ext_iff_of_nodup hleaks hlive]
    intro range
    constructor
    · intro hrange
      obtain ⟨leak, hleak, rfl⟩ := List.mem_map.1 hrange
      exact hstaged.tracks.live leak hleak
    · intro hrange
      have hidle : blocks.idle (threads.stage range.start) := by
        by_contra hactive
        obtain ⟨thread, hthread⟩ := h.separate.claimed _ hactive
        rw [hquiet] at hthread
        exact absurd hthread nofun
      have hpresent : threads.stage range.start ≠ .absent := by
        rw [Ne, hstaged.absent, not_not]
        exact mem_address_iff.2 ⟨range, hrange, rfl⟩
      cases hstage : threads.stage range.start with
      | owned leak =>
        obtain ⟨hptr, hmem⟩ := hstaged.held _ leak (.inr (.inr hstage))
        have hsame : leak.range = range :=
          List.inj_on_of_nodup_map hstaged.valid.distinct hmem hrange hptr
        rw [← hsame]
        exact List.mem_map_of_mem (hstaged.complete hmost _ leak (.inr hstage))
      | absent => exact absurd hstage hpresent
      | fresh leak =>
        rw [hstage] at hidle
        exact hidle.elim
      | busy leak =>
        rw [hstage] at hidle
        exact hidle.elim
      | leaving =>
        rw [hstage] at hidle
        exact hidle.elim
  alive thread part later hrest ptr hptr := by
    have hreach : ptr ∈ blocks.reach (threads.rest thread) := by
      rw [hrest]
      exact Discipline.mem_reach_cons.2 (.inl hptr)
    have hactive := blocks.active (h.separate.enabled hrest) ptr hptr
    refine ⟨h.staged.mem_live ?_, fun other hother ↦ ?_⟩
    · intro habsent
      rw [habsent] at hactive
      exact hactive trivial
    · exact h.separate.apart thread other hother.symm ptr hreach

/-- However the steps of the threads come, as long as clients name blocks that they own and `malloc`
keeps its contract, every block that is touched is live and in the hands of one thread, every entry
is that of the call that has allocated its block, and unless more than 1024 blocks were live at
once, the table has all blocks of the clients and is exact whenever no call is on its way. -/
theorem throughout_reports {moves : List Move}
    (hallowed : Along threadsStep MoveAllowed startThreads moves) :
    Throughout threadsStep Reports startThreads moves := by
  have hsound : Throughout threadsStep Sound startThreads moves :=
    throughout_of_along (fun _ _ h hmove ↦ h.step hmove) sound_startThreads hallowed
  exact fun taken htaken ↦ (hsound taken htaken).reports

/-- Two threads allocate at the same time, and then one of them reallocates the block of the other,
which has been handed over to it. -/
def handOver : List Move :=
  [.start 0 (.malloc 16 (siteAt 4096)), .start 1 (.malloc 8 (siteAt 8192)), .resume 1, .resume 0,
    .resume 0, .resume 1, .start 1 (.realloc (some 4096) 32 (siteAt 12288)), .resume 1, .resume 1,
    .resume 1]

theorem throughout_reports_handOver :
    Throughout threadsStep Reports startThreads handOver := by
  refine throughout_reports ⟨⟨nofun, ?_⟩, ⟨nofun, ?_⟩, trivial, trivial, trivial, trivial, ⟨?_, ?_⟩,
    trivial, trivial, trivial, trivial⟩
  · rintro _ ⟨⟩ address ⟨⟩
    exact ⟨by decide, nofun⟩
  · rintro _ ⟨⟩ address ⟨⟩
    refine ⟨by decide, ?_⟩
    rintro block (_ | ⟨_, ⟨⟩⟩)
    exact ⟨by decide, (apart_of_le (by decide)).symm⟩
  · rintro _ ⟨⟩
    exact ⟨_, rfl⟩
  · rintro _ ⟨⟩ address ⟨⟩
    refine ⟨by decide, ?_⟩
    rintro block (_ | ⟨_, _ | ⟨_, ⟨⟩⟩⟩)
    · exact ⟨by decide, (apart_of_le (by decide)).symm⟩
    · exact ⟨by decide, (apart_of_le (by decide)).symm⟩

end HiFetch.Memory.Tracker
