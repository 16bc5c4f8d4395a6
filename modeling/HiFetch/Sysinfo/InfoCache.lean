import HiFetch.Library.CString
import HiFetch.Library.Transition
import Mathlib.Algebra.Order.Ring.Rat
import Mathlib.Tactic.Linarith

/-!
# The cached system information

`get_system_info` keeps what it collected for one second.  The pointer `cached_info` is NULL until
`init_fast_cache` maps a zeroed page, and MAP_FAILED if that call could not map one.  The read side
of `get_system_info` tests for NULL and the write side for MAP_FAILED, so each of them follows one
kind of pointer that leads nowhere.  A third gap is the age of the page: it is judged by
`last_update`, which mapping a new page leaves as it is.

All times are exact numbers of microseconds.
-/

namespace HiFetch.Sysinfo

open Transition

/-- A `SystemInfo`: the user name, and all other fields together. -/
structure SystemInfo (Others : Type*) where
  username : CString
  others : Others

variable {Others : Type*}

/-- The `SystemInfo` in a page that has only been mapped. -/
def SystemInfo.zeroed [Zero Others] : SystemInfo Others := ⟨CString.empty, 0⟩

inductive CachedInfo (Others : Type*) where
  | null
  | mapFailed
  | mapped (page : SystemInfo Others)

structure InfoCache (Others : Type*) where
  cachedInfo : CachedInfo Others
  lastUpdate : ℚ

/-- What `get_system_info` gives its caller. -/
inductive Reply (Others : Type*) where
  | served (info : SystemInfo Others)
  | collected (info : SystemInfo Others)

def unknown : CString := CString.ofBuffer [117, 110, 107, 110, 111, 119, 110]

/-- `get_username`, for the value of `USER` in the environment. -/
def getUsername : Option CString → CString
  | some user => if 0 < user.length then user.take 255 else unknown
  | none => unknown

/-- `memcpy` out of the page; there is nothing to read at NULL and at MAP_FAILED. -/
def CachedInfo.read : CachedInfo Others → Option (SystemInfo Others)
  | .mapped page => some page
  | .null => none
  | .mapFailed => none

/-- `memcpy` into the page. -/
def CachedInfo.write (info : SystemInfo Others) : CachedInfo Others → Option (CachedInfo Others)
  | .mapped _ => some (.mapped info)
  | .null => none
  | .mapFailed => none

def CachedInfo.isNull : CachedInfo Others → Bool
  | .null => true
  | _ => false

def CachedInfo.isMapFailed : CachedInfo Others → Bool
  | .mapFailed => true
  | _ => false

/-- `init_fast_cache`; `mapped` tells whether `mmap` succeeds. -/
def initFastCache [Zero Others] (cache : InfoCache Others) (mapped : Bool) : InfoCache Others :=
  { cache with cachedInfo := if mapped then .mapped .zeroed else .mapFailed }

/-- `get_system_info` at a clock reading; `none` is an access to memory that is not there. -/
def getSystemInfo (cache : InfoCache Others) (currentTime : ℚ) (user : Option CString)
    (others : Others) : Option (InfoCache Others × Reply Others) :=
  if !cache.cachedInfo.isNull && decide (currentTime - cache.lastUpdate < 1000000) then
    cache.cachedInfo.read.map fun info ↦ (cache, .served info)
  else
    let info : SystemInfo Others := ⟨getUsername user, others⟩
    if !cache.cachedInfo.isMapFailed then
      (cache.cachedInfo.write info).map fun cachedInfo ↦
        (⟨cachedInfo, currentTime⟩, .collected info)
    else some (cache, .collected info)

theorem getUsername_ne_empty (user : Option CString) : getUsername user ≠ CString.empty := by
  have hunknown : unknown ≠ CString.empty := by decide
  cases user with
  | none => exact hunknown
  | some user =>
    show (if 0 < user.length then user.take 255 else unknown) ≠ CString.empty
    split_ifs with hlength
    · intro hempty
      have hbytes := congrArg (fun name : CString ↦ name.bytes.length) hempty
      simp only [CString.bytes_take, List.length_take, CString.empty, List.length_nil] at hbytes
      unfold CString.length at hlength
      omega
    · exact hunknown

section Pointers

variable (lastUpdate currentTime : ℚ) (user : Option CString) (others : Others)

theorem getSystemInfo_mapFailed :
    getSystemInfo ⟨.mapFailed, lastUpdate⟩ currentTime user others =
      if currentTime - lastUpdate < 1000000 then none
      else some (⟨.mapFailed, lastUpdate⟩, .collected ⟨getUsername user, others⟩) := by
  simp [getSystemInfo, CachedInfo.isNull, CachedInfo.isMapFailed, CachedInfo.read]

theorem getSystemInfo_mapped (page : SystemInfo Others) :
    getSystemInfo ⟨.mapped page, lastUpdate⟩ currentTime user others =
      if currentTime - lastUpdate < 1000000 then some (⟨.mapped page, lastUpdate⟩, .served page)
      else
        let info := ⟨getUsername user, others⟩
        some (⟨.mapped info, currentTime⟩, .collected info) := by
  simp [getSystemInfo, CachedInfo.isNull, CachedInfo.isMapFailed, CachedInfo.read,
    CachedInfo.write]

/-- A call ends the process, serves the page, or collects; what it collects is written to the page
if there is one. -/
theorem getSystemInfo_cases (cache : InfoCache Others) :
    getSystemInfo cache currentTime user others = none ∨
      (∃ page, cache.cachedInfo = .mapped page ∧
        getSystemInfo cache currentTime user others = some (cache, .served page)) ∨
      ∃ next, (next = cache ∨ next.cachedInfo = .mapped ⟨getUsername user, others⟩) ∧
        getSystemInfo cache currentTime user others =
          some (next, .collected ⟨getUsername user, others⟩) := by
  obtain ⟨pointer, lastUpdate⟩ := cache
  cases pointer with
  | null => exact .inl rfl
  | mapFailed =>
    rw [getSystemInfo_mapFailed]
    split_ifs
    · exact .inl rfl
    · exact .inr (.inr ⟨_, .inl rfl, rfl⟩)
  | mapped page =>
    rw [getSystemInfo_mapped]
    split_ifs
    · exact .inr (.inl ⟨page, rfl, rfl⟩)
    · exact .inr (.inr ⟨_, .inr rfl, rfl⟩)

end Pointers

/-! ## Runs -/

inductive Call (Others : Type*) where
  | initFastCache (mapped : Bool)
  | getSystemInfo (currentTime : ℚ) (user : Option CString) (others : Others)

/-- The process: its cache (`none` once an access has ended the process), the last clock reading,
and what the calls so far have collected, with the times at which they started. -/
structure Process (Others : Type*) where
  cache : Option (InfoCache Others)
  clock : ℚ
  collections : List (ℚ × SystemInfo Others)

def startProcess : Process Others where
  cache := some ⟨.null, 0⟩
  clock := 0
  collections := []

def processStep [Zero Others] (process : Process Others) (call : Call Others) : Process Others :=
  match process.cache, call with
  | none, _ => process
  | some cache, .initFastCache mapped =>
      { process with cache := some (initFastCache cache mapped) }
  | some cache, .getSystemInfo currentTime user others =>
      match getSystemInfo cache currentTime user others with
      | none => { process with cache := none, clock := currentTime }
      | some (next, .served _) => { process with cache := some next, clock := currentTime }
      | some (next, .collected info) =>
          { cache := some next
            clock := currentTime
            collections := (currentTime, info) :: process.collections }

/-- The clock does not go back. -/
def ClockAdvances (process : Process Others) : Call Others → Prop
  | .initFastCache _ => True
  | .getSystemInfo currentTime _ _ => process.clock ≤ currentTime

/-- The call stays in mapped memory, and what it serves has been collected less than a second
before. -/
def Safe (process : Process Others) : Call Others → Prop
  | .initFastCache _ => True
  | .getSystemInfo currentTime user others =>
      match process.cache with
      | none => True
      | some cache =>
          match getSystemInfo cache currentTime user others with
          | none => False
          | some (_, .served info) => ∃ startTime, (startTime, info) ∈ process.collections ∧
              startTime ≤ currentTime ∧ currentTime - startTime < 1000000
          | some (_, .collected _) => True

/-- The pointer is not NULL; MAP_FAILED, and a page that has not been written since it was mapped,
are only met when `last_update` is at least a second ago. -/
def Ready (process : Process Others) : Call Others → Prop
  | .initFastCache _ => True
  | .getSystemInfo currentTime _ _ =>
      match process.cache with
      | none => True
      | some cache =>
          match cache.cachedInfo with
          | .null => False
          | .mapFailed => 1000000 ≤ currentTime - cache.lastUpdate
          | .mapped page =>
              page.username = CString.empty → 1000000 ≤ currentTime - cache.lastUpdate

/-! ## Exactness -/

/-- A written page holds what a call collected that started at `last_update`.  Nothing collected
has an empty user name, so such a page has not been written. -/
structure Invariant (process : Process Others) : Prop where
  written : ∀ cache ∈ process.cache, ∀ page, cache.cachedInfo = .mapped page →
    page.username ≠ CString.empty → (cache.lastUpdate, page) ∈ process.collections
  named : ∀ collection ∈ process.collections, collection.2.username ≠ CString.empty
  past : ∀ collection ∈ process.collections, collection.1 ≤ process.clock

theorem invariant_startProcess : Invariant (startProcess : Process Others) where
  written := by
    rintro _ ⟨⟩ page hpage
    cases hpage
  named := by simp [startProcess]
  past := by simp [startProcess]

/-- A clock reading ages what has been collected. -/
theorem Invariant.advance {process : Process Others} (h : Invariant process) {currentTime : ℚ}
    (hclock : process.clock ≤ currentTime) (cache : Option (InfoCache Others))
    (hcache : cache = process.cache ∨ cache = none) :
    Invariant { process with cache := cache, clock := currentTime } where
  written := by
    rcases hcache with rfl | rfl
    · exact h.written
    · simp
  named := h.named
  past := by
    intro collection hmem
    exact (h.past collection hmem).trans hclock

/-- A collection that is written to the page, or to no page, keeps the invariant. -/
theorem Invariant.collect {process : Process Others} (h : Invariant process) {currentTime : ℚ}
    (hclock : process.clock ≤ currentTime) {info : SystemInfo Others}
    (hname : info.username ≠ CString.empty) {cache : InfoCache Others}
    (hcache : cache = ⟨.mapped info, currentTime⟩ ∨ cache.cachedInfo = .mapFailed) :
    Invariant ⟨some cache, currentTime, (currentTime, info) :: process.collections⟩ where
  written := by
    rintro _ ⟨⟩ page hpage -
    rcases hcache with rfl | hfailed
    · cases hpage
      exact List.mem_cons_self
    · rw [hfailed] at hpage
      cases hpage
  named := by
    intro collection hmem
    cases hmem with
    | head => exact hname
    | tail _ hmem => exact h.named collection hmem
  past := by
    intro collection hmem
    cases hmem with
    | head => exact le_refl currentTime
    | tail _ hmem => exact (h.past collection hmem).trans hclock

section Step

variable {process : Process Others} {call : Call Others}

theorem invariant_processStep [Zero Others] (h : Invariant process)
    (hclock : ClockAdvances process call) : Invariant (processStep process call) := by
  obtain ⟨cache, clock, collections⟩ := process
  cases cache with
  | none => exact h
  | some cache =>
    obtain ⟨pointer, lastUpdate⟩ := cache
    cases call with
    | initFastCache mapped =>
      refine ⟨?_, h.named, h.past⟩
      rintro _ ⟨⟩ page hpage hname
      cases mapped with
      | false => cases hpage
      | true =>
        cases hpage
        exact absurd rfl hname
    | getSystemInfo currentTime user others =>
      have hname := getUsername_ne_empty user
      unfold processStep
      cases pointer with
      | null => exact h.advance hclock none (.inr rfl)
      | mapFailed =>
        simp only [getSystemInfo_mapFailed]
        split_ifs with hfresh
        · exact h.advance hclock none (.inr rfl)
        · exact h.collect hclock hname (.inr rfl)
      | mapped page =>
        simp only [getSystemInfo_mapped]
        split_ifs with hfresh
        · exact h.advance hclock _ (.inl rfl)
        · exact h.collect hclock hname (.inl rfl)

/-- Under the invariant a call is safe exactly when the process is ready for it. -/
theorem safe_iff_ready (h : Invariant process) (hclock : ClockAdvances process call) :
    Safe process call ↔ Ready process call := by
  obtain ⟨cache, clock, collections⟩ := process
  cases cache with
  | none => cases call <;> exact Iff.rfl
  | some cache =>
    obtain ⟨pointer, lastUpdate⟩ := cache
    cases call with
    | initFastCache mapped => exact Iff.rfl
    | getSystemInfo currentTime user others =>
      unfold Safe Ready
      cases pointer with
      | null => exact Iff.rfl
      | mapFailed =>
        simp only [getSystemInfo_mapFailed]
        split_ifs with hfresh
        · exact iff_of_false id (not_le.2 hfresh)
        · exact iff_of_true trivial (not_lt.1 hfresh)
      | mapped page =>
        simp only [getSystemInfo_mapped]
        split_ifs with hfresh
        · constructor
          · rintro ⟨startTime, hmem, -⟩ hname
            exact absurd hname (h.named _ hmem)
          · intro hready
            have hname : page.username ≠ CString.empty := fun hempty ↦
              absurd hfresh (not_lt.2 (hready hempty))
            have hmem := h.written _ rfl page rfl hname
            exact ⟨lastUpdate, hmem, (h.past _ hmem).trans hclock, hfresh⟩
        · exact iff_of_true trivial fun _ ↦ not_lt.1 hfresh

end Step

/-- The cache is safe exactly when every call finds it ready.  In every run of `init_fast_cache` and
`get_system_info` with a clock that does not go back, all accesses are to mapped memory and
everything served has been collected less than a second before, if and only if no `get_system_info`
meets NULL, and none meets MAP_FAILED or a page that is still zeroed within a second of
`last_update`. -/
theorem along_safe_iff_ready [Zero Others] (calls : List (Call Others))
    (hclock : Along processStep ClockAdvances startProcess calls) :
    Along processStep Safe startProcess calls ↔ Along processStep Ready startProcess calls := by
  have hstep : ∀ (process : Process Others) call, Invariant process → ClockAdvances process call →
      Invariant (processStep process call) ∧ (Safe process call ↔ Ready process call) := by
    intro process call h hadvances
    exact ⟨invariant_processStep h hadvances, safe_iff_ready h hadvances⟩
  exact along_iff_of_invariant hstep invariant_startProcess hclock

/-- A page that is written two seconds after it was mapped, and served half a second later. -/
theorem along_safe_iff_ready_served :
    Along processStep Safe (startProcess : Process ℕ)
      [.initFastCache true, .getSystemInfo 2000000 none 7, .getSystemInfo 2500000 none 8] ↔
    Along processStep Ready (startProcess : Process ℕ)
      [.initFastCache true, .getSystemInfo 2000000 none 7, .getSystemInfo 2500000 none 8] :=
  along_safe_iff_ready _ (by
    simp [ClockAdvances, startProcess, processStep, initFastCache, getSystemInfo_mapped]
    norm_num)

/-- Without `init_fast_cache` the information is written to NULL; after a failed one it is read
from MAP_FAILED, and after one that succeeds a zeroed page is served. -/
theorem not_along_safe :
    ¬Along processStep Safe (startProcess : Process ℕ) [.getSystemInfo 2000000 none 7] ∧
    ¬Along processStep Safe (startProcess : Process ℕ)
      [.initFastCache false, .getSystemInfo 500000 none 7] ∧
    ¬Along processStep Safe (startProcess : Process ℕ)
      [.initFastCache true, .getSystemInfo 500000 none 7] := by
  constructor
  · intro h
    exact h.1
  constructor
  · intro h
    have hread := h.2.1
    norm_num [Safe, startProcess, processStep, initFastCache, getSystemInfo_mapFailed] at hread
  · intro h
    have hserved := h.2.1
    norm_num [Safe, startProcess, processStep, initFastCache, getSystemInfo_mapped] at hserved

end HiFetch.Sysinfo
