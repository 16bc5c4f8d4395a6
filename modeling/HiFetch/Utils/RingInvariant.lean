import HiFetch.Utils.CommandRing
import Mathlib.Data.List.Nodup
import Mathlib.Data.List.Range
import Mathlib.Data.Nat.ModEq

/-!
# The invariant of the command ring

Before the flag is set, only the holder of the lock fills slots, in turn, and no slot is taken.
Every call in a take of its own has the buffer of its slot, and calls in different takes use one
buffer only if their takes are at least 256 takes apart.

So nothing that is taken later disturbs a result before the 256th later take.  A call that took its
slot much earlier may still be running, and it does.
-/

namespace HiFetch.Utils

open Transition

/-! ## The invariant -/

def Position.holdsLock : Position → Bool
  | .recheck _ | .fill _ _ | .store _ | .unlock _ | .take | .takeUnlock _ _ => true
  | _ => false

def Position.fills : Position → Bool
  | .fill _ _ | .store _ => true
  | _ => false

/-- The take that the call of the thread is in. -/
def Position.number : Position → Option ℕ
  | .takeUnlock number _ | .running number _ => some number
  | _ => none

/-- What the position of a thread says about the shared variables. -/
def Justified (system : System) : Position → Prop
  | .fill _ slot =>
      system.filled.length = slot ∧ slot ≤ 256 ∧ system.poolInitialized = false
  | .store _ => system.filled.length = 256 ∧ system.poolInitialized = false
  | .unlock _ | .takeLock | .take => system.poolInitialized = true
  | .takeUnlock number buffer | .running number buffer =>
      system.poolInitialized = true ∧ number < system.taken.length ∧
        buffer = system.cmdBufferPool (number % 256) ∧
        ∀ result ∈ system.results, result.number ≠ number
  | _ => True

/-- Before the flag is set only the holder of the lock fills slots, in turn, and none is taken. -/
structure Invariant (system : System) : Prop where
  filled_eq : system.filled = List.range system.filled.length
  taken_eq : system.taken = (List.range system.taken.length).map (· % 256)
  index_eq : system.poolIndex = system.taken.length % 256
  mutex : ∀ thread, system.poolMutex = some thread ↔ (system.position thread).holdsLock
  justified : ∀ thread, Justified system (system.position thread)
  set : system.poolInitialized = true → system.filled.length = 256
  unset : system.poolInitialized = false → system.taken = [] ∧
    (system.filled = [] ∨ ∃ thread, (system.position thread).fills)
  allocated : ∀ slot buffer, system.cmdBufferPool slot = some buffer → buffer < system.allocations
  separate : ∀ slot other buffer, system.cmdBufferPool slot = some buffer →
    system.cmdBufferPool other = some buffer → slot = other
  returned : ∀ result ∈ system.results, result.number < system.taken.length ∧
    result.buffer = system.cmdBufferPool (result.number % 256)
  unique : ∀ number thread other, (system.position thread).number = some number →
    (system.position other).number = some number → thread = other

theorem invariant_startSystem : Invariant startSystem where
  filled_eq := rfl
  taken_eq := rfl
  index_eq := rfl
  mutex := by simp [startSystem, Position.holdsLock]
  justified := fun _ ↦ trivial
  set := by simp [startSystem]
  unset := fun _ ↦ ⟨rfl, .inl rfl⟩
  allocated := by simp [startSystem]
  separate := by simp [startSystem]
  returned := by simp [startSystem]
  unique := by simp [startSystem, Position.number]

/-! ## Steps -/

theorem fills_holdsLock {position : Position} (h : position.fills) : position.holdsLock := by
  cases position <;> simp_all [Position.fills, Position.holdsLock]

/-- Two threads in a critical section are one. -/
theorem Invariant.exclusive {system : System} (h : Invariant system) {thread other : ℕ}
    (hthread : (system.position thread).holdsLock) (hother : (system.position other).holdsLock) :
    thread = other := by
  have hsame := (h.mutex thread).2 hthread
  rw [(h.mutex other).2 hother] at hsame
  exact (Option.some.inj hsame).symm

/-- No two calls are in one take, if a thread enters a take that nobody else is in. -/
theorem Invariant.unique_at {system : System} (h : Invariant system) {thread : ℕ} {next : Position}
    (hnew : ∀ number, next.number = some number → ∀ other, other ≠ thread →
      (system.position other).number ≠ some number) (number first second : ℕ)
    (hfirst : (Function.update system.position thread next first).number = some number)
    (hsecond : (Function.update system.position thread next second).number = some number) :
    first = second := by
  by_cases hone : first = thread
  · by_cases htwo : second = thread
    · exact hone.trans htwo.symm
    · subst hone
      rw [Function.update_self] at hfirst
      rw [Function.update_of_ne htwo] at hsecond
      exact absurd hsecond (hnew number hfirst second htwo)
  · rw [Function.update_of_ne hone] at hfirst
    by_cases htwo : second = thread
    · subst htwo
      rw [Function.update_self] at hsecond
      exact absurd hfirst (hnew number hsecond first hone)
    · rw [Function.update_of_ne htwo] at hsecond
      exact h.unique number first second hfirst hsecond

/-- A thread goes to another position without touching the lock. -/
theorem Invariant.mutex_at {system : System} (h : Invariant system) {thread : ℕ} {next : Position}
    (hlock : next.holdsLock = (system.position thread).holdsLock) (other : ℕ) :
    system.poolMutex = some other ↔
      (Function.update system.position thread next other).holdsLock := by
  apply (Function.forall_update_iff system.position
    fun other position ↦ system.poolMutex = some other ↔ position.holdsLock).2
  exact ⟨by rw [hlock]; exact h.mutex thread, fun other _ ↦ h.mutex other⟩

/-- A thread goes to another position, and may take or give back the lock. -/
theorem Invariant.goto {system : System} (h : Invariant system) {thread : ℕ} {next : Position}
    (mutex : Option ℕ)
    (hmutex : ∀ other, mutex = some other ↔
      (Function.update system.position thread next other).holdsLock)
    (hjustified : Justified system next)
    (hfills : (system.position thread).fills → next.fills)
    (hnumber : next.number = none ∨ next.number = (system.position thread).number) :
    Invariant ({ system with poolMutex := mutex }.at thread next) where
  filled_eq := h.filled_eq
  taken_eq := h.taken_eq
  index_eq := h.index_eq
  mutex := hmutex
  justified := by
    apply (Function.forall_update_iff system.position fun _ position ↦ Justified system position).2
    exact ⟨hjustified, fun other _ ↦ h.justified other⟩
  set := h.set
  unset := by
    intro hunset
    refine ⟨(h.unset hunset).1, (h.unset hunset).2.imp_right ?_⟩
    rintro ⟨other, hother⟩
    refine ⟨other, ?_⟩
    show (Function.update system.position thread next other).fills
    by_cases heq : other = thread
    · subst heq
      rw [Function.update_self]
      exact hfills hother
    · rwa [Function.update_of_ne heq]
  allocated := h.allocated
  separate := h.separate
  returned := h.returned
  unique := by
    apply h.unique_at
    intro number hnext other hne hother
    rcases hnumber with hnone | hsame
    · rw [hnone] at hnext
      cases hnext
    · rw [hsame] at hnext
      exact hne (h.unique number other thread hother hnext)

/-- What a position says stays true when slots are taken and other calls return. -/
theorem Justified.mono {system next : System} {position : Position} (h : Justified system position)
    (hflag : next.poolInitialized = system.poolInitialized)
    (hfilled : next.filled = system.filled) (hpool : next.cmdBufferPool = system.cmdBufferPool)
    (htaken : system.taken.length ≤ next.taken.length)
    (hresults : ∀ number, position.number = some number → ∀ result ∈ next.results,
      result ∈ system.results ∨ result.number ≠ number) : Justified next position := by
  have hcall : ∀ number buffer, position.number = some number →
      system.poolInitialized = true ∧ number < system.taken.length ∧
        buffer = system.cmdBufferPool (number % 256) ∧
        (∀ result ∈ system.results, result.number ≠ number) →
      next.poolInitialized = true ∧ number < next.taken.length ∧
        buffer = next.cmdBufferPool (number % 256) ∧
        ∀ result ∈ next.results, result.number ≠ number := by
    rintro number buffer hnumber ⟨hset, hlt, hbuffer, hdiffers⟩
    refine ⟨hflag.trans hset, Nat.lt_of_lt_of_le hlt htaken, by rw [hpool, hbuffer], ?_⟩
    intro result hmem
    exact (hresults number hnumber result hmem).elim (hdiffers result) id
  cases position with
  | idle | executeLoad | load | lock | recheck => trivial
  | fill caller slot =>
    unfold Justified at h ⊢
    rwa [hflag, hfilled]
  | store caller =>
    unfold Justified at h ⊢
    rwa [hflag, hfilled]
  | unlock caller => exact hflag.trans h
  | takeLock => exact hflag.trans h
  | take => exact hflag.trans h
  | takeUnlock number buffer => exact hcall number buffer rfl h
  | running number buffer => exact hcall number buffer rfl h

section Step

variable {system : System} {thread : ℕ}

/-- The take that a call is in has happened. -/
theorem Invariant.number_lt (h : Invariant system) {number : ℕ}
    (hnumber : (system.position thread).number = some number) : number < system.taken.length := by
  have hthread := h.justified thread
  cases hposition : system.position thread <;> rw [hposition] at hnumber hthread <;> cases hnumber
  · exact hthread.2.1
  · exact hthread.2.1

/-- A step that leaves the shared variables as they are. -/
theorem Invariant.move (h : Invariant system) {next : Position}
    (hlock : next.holdsLock = (system.position thread).holdsLock)
    (hjustified : Justified system next)
    (hfills : (system.position thread).fills → next.fills)
    (hnumber : next.number = none ∨ next.number = (system.position thread).number) :
    Invariant (system.at thread next) := by
  exact h.goto system.poolMutex (h.mutex_at hlock) hjustified hfills hnumber

theorem Invariant.acquire (h : Invariant system) {next : Position} (hlock : next.holdsLock)
    (hjustified : Justified system next) (hfree : (system.position thread).holdsLock = false)
    (hnumber : next.number = none) : Invariant (system.acquire thread next) := by
  unfold System.acquire
  cases hmutex : system.poolMutex with
  | some owner => exact h
  | none =>
    apply h.goto (some thread) _ hjustified _ (.inl hnumber)
    · apply (Function.forall_update_iff system.position
        fun other position ↦ some thread = some other ↔ position.holdsLock).2
      refine ⟨by simp [hlock], fun other hne ↦ ?_⟩
      rw [← h.mutex other, hmutex]
      simp [Ne.symm hne]
    · intro hfills
      rw [fills_holdsLock hfills] at hfree
      cases hfree

theorem Invariant.release (h : Invariant system) {next : Position}
    (hholds : (system.position thread).holdsLock) (hlock : next.holdsLock = false)
    (hjustified : Justified system next) (hfills : (system.position thread).fills = false)
    (hnumber : next.number = none ∨ next.number = (system.position thread).number) :
    Invariant (system.release thread next) := by
  apply h.goto none _ hjustified _ hnumber
  · apply (Function.forall_update_iff system.position
      fun other position ↦ none = some other ↔ position.holdsLock).2
    refine ⟨by simp [hlock], fun other hne ↦ ?_⟩
    have hfree : ¬(system.position other).holdsLock := fun hother ↦ hne (h.exclusive hother hholds)
    simp [hfree]
  · rw [hfills]
    exact False.elim ∘ Bool.false_ne_true

/-- While one thread fills the slots no other one relies on them. -/
theorem Invariant.justified_of_unset (h : Invariant system)
    (hholds : (system.position thread).holdsLock) (hunset : system.poolInitialized = false)
    {next : System} {other : ℕ} (hne : other ≠ thread) :
    Justified next (system.position other) := by
  have hother := h.justified other
  have hfree : ¬(system.position other).holdsLock := fun hlock ↦ hne (h.exclusive hlock hholds)
  cases hposition : system.position other <;>
    simp_all [Justified, Position.holdsLock]

/-- The buffers of the slots: a new one in the slot that is filled, and the old ones. -/
theorem cmdBufferPool_fillSlot {slot place buffer : ℕ} {allocated : Bool}
    (hplace : (system.fillSlot slot allocated).cmdBufferPool place = some buffer) :
    buffer = system.allocations ∧ place = slot ∨ system.cmdBufferPool place = some buffer := by
  by_cases heq : place = slot
  · subst heq
    simp only [System.fillSlot, Function.update_self] at hplace
    split_ifs at hplace
    exact .inl ⟨(Option.some.inj hplace).symm, rfl⟩
  · simp only [System.fillSlot, Function.update_of_ne heq] at hplace
    exact .inr hplace

theorem Invariant.allocated_fillSlot (h : Invariant system) {slot place buffer : ℕ}
    {allocated : Bool}
    (hplace : (system.fillSlot slot allocated).cmdBufferPool place = some buffer) :
    buffer < system.allocations + 1 := by
  rcases cmdBufferPool_fillSlot hplace with ⟨rfl, -⟩ | hold
  · exact Nat.lt_succ_self _
  · exact Nat.lt_succ_of_lt (h.allocated place buffer hold)

theorem Invariant.separate_fillSlot (h : Invariant system) {slot place other buffer : ℕ}
    {allocated : Bool}
    (hplace : (system.fillSlot slot allocated).cmdBufferPool place = some buffer)
    (hother : (system.fillSlot slot allocated).cmdBufferPool other = some buffer) :
    place = other := by
  rcases cmdBufferPool_fillSlot hplace with ⟨hnew, rfl⟩ | hold
  · rcases cmdBufferPool_fillSlot hother with ⟨-, hsame⟩ | hother
    · exact hsame.symm
    · exact absurd (h.allocated other buffer hother) (hnew ▸ lt_irrefl _)
  · rcases cmdBufferPool_fillSlot hother with ⟨rfl, -⟩ | hother
    · exact absurd (h.allocated place _ hold) (lt_irrefl _)
    · exact h.separate place other buffer hold hother

theorem Invariant.fillSlot (h : Invariant system) {caller : Caller} {slot : ℕ}
    (hposition : system.position thread = .fill caller slot) (hslot : slot < 256)
    (allocated : Bool) :
    Invariant ((system.fillSlot slot allocated).at thread (.fill caller (slot + 1))) := by
  have hholds : (system.position thread).holdsLock := by rw [hposition]; rfl
  have hfill := h.justified thread
  rw [hposition] at hfill
  obtain ⟨hlength, -, hunset⟩ := hfill
  exact
    { filled_eq := by
        show system.filled ++ [slot] = List.range (system.filled ++ [slot]).length
        rw [List.length_append, List.length_singleton, List.range_succ, ← h.filled_eq, hlength]
      taken_eq := h.taken_eq
      index_eq := h.index_eq
      mutex := h.mutex_at hholds.symm
      justified := by
        apply (Function.forall_update_iff system.position fun _ position ↦
          Justified (system.fillSlot slot allocated) position).2
        refine ⟨⟨?_, hslot, hunset⟩, fun other hne ↦ h.justified_of_unset hholds hunset hne⟩
        simp [System.fillSlot, hlength]
      set := by
        intro hset
        exact absurd (hset.symm.trans hunset) (by decide)
      unset := by
        intro _
        refine ⟨(h.unset hunset).1, .inr ⟨thread, ?_⟩⟩
        simp [System.at, Position.fills]
      allocated := fun _ _ hplace ↦ h.allocated_fillSlot hplace
      separate := fun _ _ _ hplace hother ↦ h.separate_fillSlot hplace hother
      returned := by
        intro result hmem
        have htaken := (h.returned result hmem).1
        rw [(h.unset hunset).1] at htaken
        exact absurd htaken (Nat.not_lt_zero _)
      unique := h.unique_at fun number hnumber ↦ by cases hnumber }

theorem Invariant.storeFlag (h : Invariant system) {caller : Caller}
    (hposition : system.position thread = .store caller) :
    Invariant ({ system with poolInitialized := true }.at thread (.unlock caller)) := by
  have hholds : (system.position thread).holdsLock := by rw [hposition]; rfl
  have hstore := h.justified thread
  rw [hposition] at hstore
  obtain ⟨hlength, hunset⟩ := hstore
  exact
    { filled_eq := h.filled_eq
      taken_eq := h.taken_eq
      index_eq := h.index_eq
      mutex := h.mutex_at hholds.symm
      justified := by
        apply (Function.forall_update_iff system.position fun _ position ↦
          Justified { system with poolInitialized := true } position).2
        exact ⟨rfl, fun other hne ↦ h.justified_of_unset hholds hunset hne⟩
      set := fun _ ↦ hlength
      unset := fun hset ↦ absurd hset (by simp [System.at])
      allocated := h.allocated
      separate := h.separate
      returned := h.returned
      unique := h.unique_at fun number hnumber ↦ by cases hnumber }

theorem Invariant.takeSlot (h : Invariant system) (hposition : system.position thread = .take) :
    Invariant (system.takeSlot.at thread (.takeUnlock system.taken.length
      (system.cmdBufferPool (system.poolIndex % 256)))) := by
  have hholds : (system.position thread).holdsLock := by rw [hposition]; rfl
  have hset : system.poolInitialized = true := by
    have htake := h.justified thread
    rwa [hposition] at htake
  have hindex : system.poolIndex % 256 = system.taken.length % 256 := by
    rw [h.index_eq, Nat.mod_mod]
  have hgrown : system.takeSlot.taken.length = system.taken.length + 1 := by
    simp [System.takeSlot]
  exact
    { filled_eq := h.filled_eq
      taken_eq := by
        show system.taken ++ [system.poolIndex % 256] =
          (List.range system.takeSlot.taken.length).map (· % 256)
        rw [hgrown, List.range_succ, List.map_append, ← h.taken_eq, hindex, List.map_singleton]
      index_eq := by
        show (system.poolIndex + 1) % 256 = system.takeSlot.taken.length % 256
        rw [hgrown, h.index_eq, Nat.mod_add_mod]
      mutex := h.mutex_at hholds.symm
      justified := by
        apply (Function.forall_update_iff system.position fun _ position ↦
          Justified system.takeSlot position).2
        constructor
        · refine ⟨hset, by rw [hgrown]; exact Nat.lt_succ_self _, by rw [hindex]; rfl, ?_⟩
          intro result hmem
          exact (h.returned result hmem).1.ne
        · intro other _
          refine (h.justified other).mono rfl rfl rfl ?_ fun _ _ _ hmem ↦ .inl hmem
          rw [hgrown]
          exact Nat.le_succ _
      set := h.set
      unset := fun hunset ↦ absurd (hset.symm.trans hunset) (by decide)
      allocated := h.allocated
      separate := h.separate
      returned := by
        intro result hmem
        obtain ⟨hlt, hbuffer⟩ := h.returned result hmem
        exact ⟨hgrown ▸ Nat.lt_succ_of_lt hlt, hbuffer⟩
      unique := by
        apply h.unique_at
        rintro _ ⟨⟩ other - hother
        exact lt_irrefl _ (h.number_lt hother) }

theorem Invariant.finish (h : Invariant system) {number : ℕ} {buffer : Option ℕ}
    (hposition : system.position thread = .running number buffer) (succeeds : Bool) :
    Invariant ({ system with
      results := if succeeds then ⟨number, buffer⟩ :: system.results else system.results }.at
        thread .idle) := by
  have hrunning := h.justified thread
  rw [hposition] at hrunning
  obtain ⟨hset, hlt, hbuffer, -⟩ := hrunning
  have hresults : ∀ result ∈ (if succeeds then ⟨number, buffer⟩ :: system.results
      else system.results), result = ⟨number, buffer⟩ ∨ result ∈ system.results := by
    intro result hmem
    split_ifs at hmem
    · exact List.mem_cons.1 hmem
    · exact .inr hmem
  exact
    { filled_eq := h.filled_eq
      taken_eq := h.taken_eq
      index_eq := h.index_eq
      mutex := h.mutex_at (by rw [hposition]; rfl)
      justified := by
        apply (Function.forall_update_iff system.position fun _ position ↦ Justified _ position).2
        refine ⟨trivial, fun other hne ↦ ?_⟩
        refine (h.justified other).mono rfl rfl rfl (Nat.le_refl _) ?_
        intro called hcalled result hmem
        rcases hresults result hmem with rfl | hold
        · refine .inr fun hsame ↦ hne (h.unique called other thread hcalled ?_)
          rw [hposition, ← hsame]
          rfl
        · exact .inl hold
      set := h.set
      unset := fun hunset ↦ absurd (hset.symm.trans hunset) (by decide)
      allocated := h.allocated
      separate := h.separate
      returned := by
        intro result hmem
        rcases hresults result hmem with rfl | hold
        · exact ⟨hlt, hbuffer⟩
        · exact h.returned result hold
      unique := h.unique_at fun number hnumber ↦ by cases hnumber }

/-- A step without the lock to a place without a call. -/
theorem Invariant.walk (h : Invariant system) {next : Position}
    (hthread : (system.position thread).holdsLock = false) (hlock : next.holdsLock = false)
    (hjustified : Justified system next) (hnumber : next.number = none) :
    Invariant (system.at thread next) := by
  apply h.move (hlock.trans hthread.symm) hjustified _ (.inl hnumber)
  intro hfills
  rw [fills_holdsLock hfills] at hthread
  cases hthread

theorem invariant_systemStep (h : Invariant system) (move : Move) :
    Invariant (systemStep system move) := by
  have hplace := h.justified move.thread
  unfold systemStep
  split
  case h_1 hposition haction => exact h.walk (by rw [hposition]; rfl) rfl trivial rfl
  case h_2 hposition haction => exact h.walk (by rw [hposition]; rfl) rfl trivial rfl
  case h_3 hposition haction =>
    split_ifs with hset
    · exact h.walk (by rw [hposition]; rfl) rfl hset rfl
    · exact h.walk (by rw [hposition]; rfl) rfl trivial rfl
  case h_4 caller _ hposition haction =>
    split_ifs with hset
    · cases caller with
      | environment => exact h.walk (by rw [hposition]; rfl) rfl trivial rfl
      | executeCmdFast => exact h.walk (by rw [hposition]; rfl) rfl hset rfl
    · exact h.walk (by rw [hposition]; rfl) rfl trivial rfl
  case h_5 hposition haction => exact h.acquire rfl trivial (by rw [hposition]; rfl) rfl
  case h_6 caller _ hposition haction =>
    split_ifs with hset
    · exact h.move (by rw [hposition]; rfl) hset (by rw [hposition]; exact id) (.inl rfl)
    · have hunset := Bool.eq_false_iff.2 hset
      apply h.move (by rw [hposition]; rfl) _ (fun _ ↦ rfl) (.inl rfl)
      -- nobody else fills, so nothing is filled yet
      rcases (h.unset hunset).2 with hnone | ⟨other, hother⟩
      · exact ⟨by rw [hnone]; rfl, Nat.zero_le _, hunset⟩
      · have hsame : other = move.thread :=
          h.exclusive (fills_holdsLock hother) (by rw [hposition]; rfl)
        rw [hsame, hposition] at hother
        cases hother
  case h_7 caller slot allocated hposition haction =>
    split_ifs with hslot
    · exact h.fillSlot hposition hslot allocated
    · rw [hposition] at hplace
      apply h.move (by rw [hposition]; rfl) _ (fun _ ↦ rfl) (.inl rfl)
      exact ⟨hplace.1.trans (Nat.le_antisymm hplace.2.1 (not_lt.1 hslot)), hplace.2.2⟩
  case h_8 hposition haction => exact h.storeFlag hposition
  case h_9 caller _ hposition haction =>
    rw [hposition] at hplace
    cases caller with
    | environment =>
      exact h.release (by rw [hposition]; rfl) rfl trivial (by rw [hposition]; rfl) (.inl rfl)
    | executeCmdFast =>
      exact h.release (by rw [hposition]; rfl) rfl hplace (by rw [hposition]; rfl) (.inl rfl)
  case h_10 hposition haction =>
    rw [hposition] at hplace
    exact h.acquire rfl hplace (by rw [hposition]; rfl) rfl
  case h_11 hposition haction => exact h.takeSlot hposition
  case h_12 hposition haction =>
    rw [hposition] at hplace
    exact h.release (by rw [hposition]; rfl) rfl hplace (by rw [hposition]; rfl)
      (.inr (by rw [hposition]; rfl))
  case h_13 hposition haction =>
    exact ⟨h.filled_eq, h.taken_eq, h.index_eq, h.mutex, h.justified, h.set, h.unset, h.allocated,
      h.separate, h.returned, h.unique⟩
  case h_14 hposition haction => exact h.finish hposition _
  case h_15 => exact h

end Step

/-! ## Runs -/

/-- Consecutive takes obtain slots that are consecutive modulo 256. -/
theorem nodup_take_drop_mod (count start : ℕ) :
    ((((List.range count).map (· % 256)).drop start).take 256).Nodup := by
  have hwindow : ∃ length ≤ 256,
      ((List.range count).drop start).take 256 = List.range' start length := by
    rw [List.range_eq_range', List.drop_range', Nat.zero_add, Nat.mul_one]
    rcases Nat.le_total (count - start) 256 with hshort | hlong
    · exact ⟨_, hshort, List.take_range'_of_length_le hshort⟩
    · exact ⟨256, le_refl 256, List.take_range'_of_length_ge hlong⟩
  obtain ⟨length, hlength, hrange⟩ := hwindow
  rw [← List.map_drop, ← List.map_take, hrange]
  apply List.Nodup.map_on _ List.nodup_range'
  intro first hfirst second hsecond heq
  rw [List.mem_range'_1] at hfirst hsecond
  omega

theorem Invariant.ringLaw {system : System} (h : Invariant system) : RingLaw system where
  filledOnce := h.filled_eq ▸ List.nodup_range
  filledBefore := by
    intro thread hposition slot hslot
    have htake := h.justified thread
    rw [hposition] at htake
    rw [h.filled_eq, h.set htake, List.mem_range]
    exact hslot
  index_lt := h.index_eq ▸ Nat.mod_lt _ (by decide)
  distinct := by
    intro start _
    rw [h.taken_eq]
    exact nodup_take_drop_mod _ start

/-- Two calls that use one buffer have takes that are a multiple of 256 apart. -/
theorem Invariant.undisturbedByLater {system : System} (h : Invariant system) (move : Move) :
    UndisturbedByLater system move := by
  rintro hallocated result hmem number ⟨hposition, -⟩
  have hrunning := h.justified move.thread
  rw [hposition] at hrunning
  obtain ⟨-, hlt, hbuffer, hdiffers⟩ := hrunning
  obtain ⟨-, hresult⟩ := h.returned result hmem
  obtain ⟨buffer, hsome⟩ :=
    Option.ne_none_iff_exists'.1 (hallocated (result.number % 256) (Nat.mod_lt _ (by decide)))
  have hslot : number % 256 = result.number % 256 :=
    h.separate _ _ buffer (by rw [← hbuffer, hresult, hsome]) hsome
  have hne : result.number ≠ number := hdiffers result hmem
  omega

/-- However the threads interleave, every slot is filled at most once, no slot is taken before all
are filled, the index stays below 256, and any 256 consecutive takes obtain different slots.  If
every slot was allocated, the buffer of a result is written to before the 256th later take only by a
call whose own take was at least 256 takes earlier. -/
theorem ringLaw_and_undisturbedByLater (moves : List Move) :
    Throughout systemStep RingLaw startSystem moves ∧
      Along systemStep UndisturbedByLater startSystem moves := by
  have hinvariant : Throughout systemStep Invariant startSystem moves :=
    throughout_of_step (fun _ move h ↦ invariant_systemStep h move) moves invariant_startSystem
  constructor
  · intro taken htaken
    exact (hinvariant taken htaken).ringLaw
  · have hstep : ∀ system move, Invariant system → (fun _ _ ↦ True) system move →
        Invariant (systemStep system move) ∧ UndisturbedByLater system move := by
      intro system move h _
      exact ⟨invariant_systemStep h move, h.undisturbedByLater move⟩
    exact along_of_invariant hstep invariant_startSystem (along_of_forall fun _ _ ↦ trivial)

/-! ## A call that is overtaken -/

theorem run_fillSlot (count : ℕ) (system : System) (thread slot : ℕ) (caller : Caller)
    (hposition : system.position thread = .fill caller slot) (hcount : slot + count ≤ 256) :
    run systemStep system (List.replicate count ⟨thread, .next true⟩) =
      { system with
        cmdBufferPool := fun place ↦
          if slot ≤ place ∧ place < slot + count then some (system.allocations + (place - slot))
          else system.cmdBufferPool place
        allocations := system.allocations + count
        filled := system.filled ++ List.range' slot count }.at thread
          (.fill caller (slot + count)) := by
  induction count generalizing system slot with
  | zero =>
    have hnone : ∀ place, ¬(slot ≤ place ∧ place < slot) := by omega
    simp [System.at, ← hposition, hnone]
  | succ count ih =>
    have hstep : systemStep system ⟨thread, .next true⟩ =
        (system.fillSlot slot true).at thread (.fill caller (slot + 1)) := by
      unfold systemStep
      simp only [hposition]
      rw [if_pos (by omega)]
    rw [List.replicate_succ, run_cons, hstep, ih _ (slot + 1) (by simp [System.at]) (by omega)]
    simp only [System.at, System.fillSlot, Function.update_idem, System.mk.injEq, true_and,
      and_true, if_true]
    refine ⟨?_, by omega, by rw [Nat.add_right_comm, Nat.add_assoc], by simp [List.range'_succ]⟩
    funext place
    rcases lt_trichotomy place slot with hbefore | rfl | hafter
    · rw [if_neg (by omega), if_neg (by omega), Function.update_of_ne hbefore.ne]
    · rw [if_neg (by omega), if_pos (by omega), Function.update_self, Nat.sub_self, Nat.add_zero]
    · by_cases hlt : place < slot + (count + 1)
      · rw [if_pos (by omega), if_pos (by omega)]
        congr 1
        omega
      · rw [if_neg (by omega), if_neg (by omega), Function.update_of_ne hafter.ne']

/-- A call of `execute_cmd_fast` by one thread, once the slots are filled. -/
def callMoves (thread : ℕ) : List Move :=
  [⟨thread, .executeCmdFast⟩, ⟨thread, .next true⟩, ⟨thread, .next true⟩, ⟨thread, .next true⟩,
    ⟨thread, .next true⟩, ⟨thread, .finish true⟩]

/-- A call that runs alone obtains the next slot. -/
theorem run_callMoves (system : System) (thread : ℕ) (hset : system.poolInitialized = true)
    (hfree : system.poolMutex = none) (hidle : system.position thread = .idle) :
    run systemStep system (callMoves thread) =
      { system.takeSlot with
        results := ⟨system.taken.length, system.cmdBufferPool (system.poolIndex % 256)⟩ ::
          system.results } := by
  have hposition : Function.update system.position thread .idle = system.position := by
    rw [← hidle, Function.update_eq_self]
  simp [callMoves, systemStep, System.at, System.acquire, System.release, System.takeSlot, hset,
    hfree, hidle, hposition]

/-- Calls that run one after the other, while all other threads stay where they are. -/
theorem run_calls (count : ℕ) (system : System) (thread : ℕ)
    (hset : system.poolInitialized = true) (hfree : system.poolMutex = none)
    (hidle : system.position thread = .idle) :
    ∃ index results, ∃ taken : List ℕ,
      run systemStep system (List.replicate count (callMoves thread)).flatten =
        { system with poolIndex := index, taken := taken, results := results } ∧
      taken.length = system.taken.length + count ∧
      ∀ done < count, ∃ result ∈ results, result.number = system.taken.length + done := by
  induction count with
  | zero => exact ⟨system.poolIndex, system.results, system.taken, rfl, rfl, by simp⟩
  | succ count ih =>
    obtain ⟨index, results, taken, hrun, hlength, hresults⟩ := ih
    rw [List.replicate_succ', List.flatten_append, List.flatten_singleton, run_append, hrun]
    have hnext := run_callMoves
      { system with poolIndex := index, taken := taken, results := results } thread hset hfree hidle
    refine ⟨_, _, _, hnext, by simp [System.takeSlot, hlength, Nat.add_assoc], fun done hdone ↦ ?_⟩
    rcases Nat.lt_succ_iff_lt_or_eq.1 hdone with hlt | rfl
    · obtain ⟨result, hmem, hnumber⟩ := hresults done hlt
      exact ⟨result, List.mem_cons_of_mem _ hmem, hnumber⟩
    · exact ⟨_, List.mem_cons_self, hlength⟩

/-- Thread 0 fills the slots, takes slot 0 and waits for its command; thread 1 makes 256 calls, the
last of which returns the buffer of slot 0. -/
def overtakingMoves : List Move :=
  ⟨0, .executeCmdFast⟩ :: List.replicate 266 ⟨0, .next true⟩ ++
    (List.replicate 256 (callMoves 1)).flatten

/-- All slots are filled, and thread 0 runs its command with the buffer of slot 0. -/
def waitingSystem : System :=
  { startSystem with
    poolInitialized := true
    cmdBufferPool := fun place ↦ if place < 256 then some place else none
    poolIndex := 1
    allocations := 256
    position := Function.update startSystem.position 0 (.running 0 (some 0))
    filled := List.range 256
    taken := [0] }

theorem run_waiting : run systemStep startSystem
    (⟨0, .executeCmdFast⟩ :: List.replicate 266 ⟨0, .next true⟩) = waitingSystem := by
  have hsplit : List.replicate 266 (⟨0, .next true⟩ : Move) =
      List.replicate 4 ⟨0, .next true⟩ ++ (List.replicate 256 ⟨0, .next true⟩ ++
        List.replicate 6 ⟨0, .next true⟩) := by
    rw [List.replicate_append_replicate, List.replicate_append_replicate]
  have hlocked : run systemStep startSystem
      (⟨0, .executeCmdFast⟩ :: List.replicate 4 ⟨0, .next true⟩) =
        { startSystem with poolMutex := some 0 }.at 0 (.fill .executeCmdFast 0) := by
    simp [startSystem, systemStep, System.at, System.acquire]
  rw [hsplit, ← List.cons_append, run_append, run_append, hlocked,
    run_fillSlot 256 _ 0 0 .executeCmdFast (by simp [System.at]) (le_refl 256)]
  simp [waitingSystem, startSystem, systemStep, System.at, System.acquire, System.release,
    Caller.after, System.takeSlot, List.range_eq_range']

/-- The output of the waiting command goes to the buffer that the last call has returned. -/
theorem not_along_undisturbed :
    ¬Along systemStep Undisturbed startSystem (overtakingMoves ++ [⟨0, .write [88]⟩]) := by
  obtain ⟨index, results, taken, hrun, hlength, hresults⟩ :=
    run_calls 256 waitingSystem 1 rfl rfl rfl
  obtain ⟨result, hmem, hnumber⟩ := hresults 255 (by decide)
  have hend : run systemStep startSystem overtakingMoves =
      { waitingSystem with poolIndex := index, taken := taken, results := results } := by
    unfold overtakingMoves
    rw [run_append, run_waiting, hrun]
  have hthroughout : Throughout systemStep Invariant startSystem overtakingMoves :=
    throughout_of_step (fun _ move h ↦ invariant_systemStep h move) _ invariant_startSystem
  have hinvariant := hthroughout.last
  rw [hend] at hinvariant
  have hbuffer : result.buffer = some 0 := by
    rw [(hinvariant.returned result hmem).2, hnumber]
    simp [waitingSystem]
  intro halong
  have hwrite := ((along_append _ _ _ _ _).1 halong).2.1
  rw [hend] at hwrite
  have hallocated : Allocated
      { waitingSystem with poolIndex := index, taken := taken, results := results } := by
    intro slot hslot
    simp [waitingSystem, hslot]
  have hlate := hwrite hallocated result hmem 0 ⟨by rw [hbuffer]; rfl, [88], rfl⟩
  rw [hnumber, hlength] at hlate
  simp [waitingSystem] at hlate

end HiFetch.Utils
