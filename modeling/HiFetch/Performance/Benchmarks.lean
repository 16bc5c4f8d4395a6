import HiFetch.Library.CString
import HiFetch.Library.Transition
import Mathlib.Algebra.Order.Field.Rat
import Mathlib.Data.List.Infix
import Mathlib.Data.Rat.Defs
import Mathlib.Tactic.Linarith

/-!
# Benchmarks

`start_benchmark` always adds an entry, and `end_benchmark` and the reader in
`compare_with_fastfetch` both take the first entry with the name.  So only the first start of a name
is ever ended, and each end of the name overwrites its duration.

A session keeps the starts that have not been ended beside the entries.  Times are exact numbers of
microseconds.
-/

namespace HiFetch.Performance

open CString Transition

/-- `MAX_BENCHMARKS`. -/
def maxBenchmarks : ℕ := 64

structure Benchmark where
  name : CString
  startTime : ℚ
  endTime : ℚ
  duration : ℚ
deriving DecidableEq

/-- `start_benchmark`: the next entry of the zeroed array. -/
def startBenchmark (benchmarks : List Benchmark) (name : CString) (now : ℚ) : List Benchmark :=
  if maxBenchmarks ≤ benchmarks.length then benchmarks
  else benchmarks ++ [⟨name.take 63, now, 0, 0⟩]

/-- What is assigned to the entry that `end_benchmark` finds. -/
def Benchmark.finish (entry : Benchmark) (now : ℚ) : Benchmark :=
  { entry with endTime := now, duration := now - entry.startTime }

/-- `end_benchmark`: the loop returns at the first entry with the name. -/
def endBenchmark : List Benchmark → CString → ℚ → List Benchmark
  | [], _, _ => []
  | entry :: rest, name, now =>
      if strcmp entry.name name = 0 then entry.finish now :: rest
      else entry :: endBenchmark rest name now

/-! ## The comparison -/

/-- The loop that reads a duration back. -/
def readDuration (benchmarks : List Benchmark) (name : CString) : Option ℚ :=
  (benchmarks.find? fun entry ↦ decide (strcmp entry.name name = 0)).map Benchmark.duration

/-- The loop over the runs of a program, with the times at which each run starts and ends. -/
def timeRuns (name : CString) :
    List Benchmark → List (ℚ × ℚ) → List (Option ℚ) × List Benchmark
  | benchmarks, [] => ([], benchmarks)
  | benchmarks, run :: runs =>
      let ended := endBenchmark (startBenchmark benchmarks name run.1) name run.2
      let rest := timeRuns name ended runs
      (readDuration ended name :: rest.1, rest.2)

/-- The average of five times, if all of them have been assigned. -/
def average (times : List (Option ℚ)) : Option ℚ :=
  (times.mapM id).map fun times ↦ times.sum / 5

structure Comparison where
  sysfetchTimes : List (Option ℚ)
  fastfetchTimes : List (Option ℚ)
  result : Option ℤ
  benchmarks : List Benchmark

def sysfetchTotal : CString := ofText "sysfetch_total"

def sysfetchRun : CString := ofText "sysfetch_run"

def fastfetchRun : CString := ofText "fastfetch_run"

/-- `compare_with_fastfetch`, for its readings of the clock. -/
def compareWithFastfetch (benchmarks : List Benchmark) (total : ℚ)
    (sysfetch fastfetch : Fin 5 → ℚ × ℚ) : Comparison :=
  let first := timeRuns sysfetchRun (startBenchmark benchmarks sysfetchTotal total)
    (List.ofFn sysfetch)
  let second := timeRuns fastfetchRun first.2 (List.ofFn fastfetch)
  { sysfetchTimes := first.1
    fastfetchTimes := second.1
    result := (average first.1).bind fun sysfetchAvg ↦
      (average second.1).map fun fastfetchAvg ↦ if sysfetchAvg < fastfetchAvg then 1 else 0
    benchmarks := second.2 }

/-! ## The law -/

inductive BenchmarkCall where
  | startBenchmark (name : CString) (now : ℚ)
  | endBenchmark (name : CString) (now : ℚ)
deriving DecidableEq

def BenchmarkCall.name : BenchmarkCall → CString
  | .startBenchmark name _ => name
  | .endBenchmark name _ => name

def BenchmarkCall.now : BenchmarkCall → ℚ
  | .startBenchmark _ now => now
  | .endBenchmark _ now => now

def BenchmarkCall.isStart : BenchmarkCall → Bool
  | .startBenchmark _ _ => true
  | .endBenchmark _ _ => false

/-- A start that has not been ended: its name, its time, and the place of its entry. -/
structure OpenStart where
  name : CString
  time : ℚ
  place : ℕ
deriving DecidableEq

/-- The entries, and the open starts, the latest one first. -/
structure BenchmarkSession where
  benchmarks : List Benchmark
  openStarts : List OpenStart

def benchmarkStep (session : BenchmarkSession) : BenchmarkCall → BenchmarkSession
  | .startBenchmark name now =>
      { benchmarks := startBenchmark session.benchmarks name now
        openStarts := ⟨name, now, session.benchmarks.length⟩ :: session.openStarts }
  | .endBenchmark name now =>
      { benchmarks := endBenchmark session.benchmarks name now
        openStarts := session.openStarts.eraseP fun start ↦ decide (start.name = name) }

/-- The latest open start of a name. -/
def BenchmarkSession.latest (session : BenchmarkSession) (name : CString) : Option OpenStart :=
  session.openStarts.find? fun start ↦ decide (start.name = name)

/-- An end gives the entry of the latest open start of its name the time since that start, and
changes no earlier entry of the name. -/
def EndsLatest (session : BenchmarkSession) : BenchmarkCall → Prop
  | .startBenchmark _ _ => True
  | .endBenchmark name now => ∀ start ∈ session.latest name,
      (∃ entry, (endBenchmark session.benchmarks name now)[start.place]? = some entry ∧
        entry.duration = now - start.time) ∧
      ∀ earlier < start.place, ∀ entry ∈ session.benchmarks[earlier]?, entry.name = name →
        (endBenchmark session.benchmarks name now)[earlier]? = some entry

/-- The latest open start of the name is the first entry of the name; or it was started just now,
and the first entry of the name has just been ended. -/
def LatestIsFirst (session : BenchmarkSession) : BenchmarkCall → Prop
  | .startBenchmark _ _ => True
  | .endBenchmark name now => ∀ start ∈ session.latest name,
      let first := session.benchmarks.findIdx fun entry ↦ decide (entry.name = name)
      first = start.place ∨
        start.time = now ∧ ∀ entry ∈ session.benchmarks[first]?, entry.finish now = entry

/-- The start of the first entry of a name. -/
def firstStart (benchmarks : List Benchmark) (name : CString) : Option ℚ :=
  (benchmarks.find? fun entry ↦ decide (entry.name = name)).map Benchmark.startTime

/-- All runs of a program start at the time of the first entry of its name. -/
def StartTogether (benchmarks : List Benchmark) (name : CString) (runs : Fin 5 → ℚ × ℚ) : Prop :=
  ∀ index, (runs index).1 = (firstStart benchmarks name).getD (runs 0).1

/-- The time of each run is its end minus its start. -/
def TimesExact (times : List (Option ℚ)) (runs : Fin 5 → ℚ × ℚ) : Prop :=
  times = List.ofFn fun index ↦ some ((runs index).2 - (runs index).1)

/-! ## One end -/

theorem endBenchmark_eq_modify (benchmarks : List Benchmark) (name : CString) (now : ℚ) :
    endBenchmark benchmarks name now =
      benchmarks.modify (benchmarks.findIdx fun entry ↦ decide (entry.name = name))
        fun entry ↦ entry.finish now := by
  induction benchmarks with
  | nil => rfl
  | cons entry rest ih =>
    rw [endBenchmark, List.findIdx_cons]
    by_cases hname : entry.name = name
    · rw [if_pos (strcmp_eq_zero_iff.2 hname), decide_eq_true hname]
      rfl
    · rw [if_neg (hname ∘ strcmp_eq_zero_iff.1), decide_eq_false hname, ih]
      rfl

@[simp]
theorem length_endBenchmark (benchmarks : List Benchmark) (name : CString) (now : ℚ) :
    (endBenchmark benchmarks name now).length = benchmarks.length := by
  rw [endBenchmark_eq_modify, List.length_modify]

/-- An end does not change the entries of other names. -/
theorem mem_endBenchmark {benchmarks : List Benchmark} {name : CString} {now : ℚ}
    {entry : Benchmark} (h : entry ∈ endBenchmark benchmarks name now) :
    entry ∈ benchmarks ∨ entry.name = name := by
  induction benchmarks with
  | nil => cases h
  | cons first rest ih =>
    unfold endBenchmark at h
    split_ifs at h with hname
    · rcases List.mem_cons.1 h with rfl | hrest
      · exact .inr (strcmp_eq_zero_iff.1 hname)
      · exact .inl (List.mem_cons_of_mem _ hrest)
    · rcases List.mem_cons.1 h with rfl | hrest
      · exact .inl List.mem_cons_self
      · exact (ih hrest).imp_left (List.mem_cons_of_mem _)

/-- Every open start has its entry, and an entry behind another one of its name has never been
ended. -/
structure BenchmarkInvariant (session : BenchmarkSession) : Prop where
  opened : ∀ start ∈ session.openStarts, ∃ entry, session.benchmarks[start.place]? = some entry ∧
    entry.name = start.name ∧ entry.startTime = start.time
  later : session.benchmarks.Pairwise fun first later ↦ first.name = later.name →
    later.duration = 0

theorem pairwise_endBenchmark {benchmarks : List Benchmark} (name : CString) (now : ℚ)
    (h : benchmarks.Pairwise fun first later ↦ first.name = later.name → later.duration = 0) :
    (endBenchmark benchmarks name now).Pairwise fun first later ↦ first.name = later.name →
      later.duration = 0 := by
  induction benchmarks with
  | nil => exact h
  | cons entry rest ih =>
    obtain ⟨hentry, hrest⟩ := List.pairwise_cons.1 h
    unfold endBenchmark
    split_ifs with hname
    · exact List.pairwise_cons.2 ⟨hentry, hrest⟩
    · refine List.pairwise_cons.2 ⟨fun later hlater heq ↦ ?_, ih hrest⟩
      rcases mem_endBenchmark hlater with hold | hother
      · exact hentry later hold heq
      · exact absurd (strcmp_eq_zero_iff.2 (heq.trans hother)) hname

theorem startBenchmark_of_room {benchmarks : List Benchmark} {name : CString}
    (hname : name.length < 64) (hroom : benchmarks.length < maxBenchmarks) (now : ℚ) :
    startBenchmark benchmarks name now = benchmarks ++ [⟨name, now, 0, 0⟩] := by
  rw [startBenchmark, if_neg (not_le.2 hroom), take_eq_self (Nat.le_of_lt_succ hname)]

/-- A call with a name that fits, and a start that finds room. -/
def FitsCall (session : BenchmarkSession) (call : BenchmarkCall) : Prop :=
  call.name.length < 64 ∧ (call.isStart → session.benchmarks.length < maxBenchmarks)

theorem benchmarkInvariant_step {session : BenchmarkSession} (h : BenchmarkInvariant session)
    {call : BenchmarkCall} (hfits : FitsCall session call) :
    BenchmarkInvariant (benchmarkStep session call) := by
  cases call with
  | startBenchmark name now =>
    have hstarted : startBenchmark session.benchmarks name now =
        session.benchmarks ++ [⟨name, now, 0, 0⟩] :=
      startBenchmark_of_room hfits.1 (hfits.2 rfl) now
    constructor
    · intro start hstart
      rw [benchmarkStep, hstarted]
      rcases List.mem_cons.1 hstart with rfl | hold
      · exact ⟨⟨name, now, 0, 0⟩, List.getElem?_concat_length, rfl, rfl⟩
      · obtain ⟨entry, hentry, hmatch⟩ := h.opened start hold
        have hlt := (List.getElem?_eq_some_iff.1 hentry).1
        exact ⟨entry, by rw [List.getElem?_append_left hlt, hentry], hmatch⟩
    · rw [benchmarkStep, hstarted, List.pairwise_append]
      refine ⟨h.later, List.pairwise_singleton _ _, fun first _ later hlater _ ↦ ?_⟩
      rw [List.mem_singleton.1 hlater]
  | endBenchmark name now =>
    constructor
    · intro start hstart
      obtain ⟨entry, hentry, hmatch⟩ := h.opened start (List.mem_of_mem_eraseP hstart)
      rw [benchmarkStep, endBenchmark_eq_modify, List.getElem?_modify, hentry]
      split_ifs
      · exact ⟨entry.finish now, rfl, hmatch⟩
      · exact ⟨entry, rfl, hmatch⟩
    · exact pairwise_endBenchmark name now h.later

/-- The first entry of a name, no later than any other one. -/
theorem exists_first {benchmarks : List Benchmark} {entry : Benchmark} {place : ℕ}
    (h : benchmarks[place]? = some entry) :
    ∃ found, benchmarks[benchmarks.findIdx fun other ↦ decide (other.name = entry.name)]? =
        some found ∧ found.name = entry.name ∧
      benchmarks.findIdx (fun other ↦ decide (other.name = entry.name)) ≤ place := by
  obtain ⟨hlt, hentry⟩ := List.getElem?_eq_some_iff.1 h
  have hle : benchmarks.findIdx (fun other ↦ decide (other.name = entry.name)) ≤ place := by
    by_contra hgt
    have hnot := List.not_of_lt_findIdx (not_le.1 hgt)
    simp [hentry] at hnot
  have hinside := hle.trans_lt hlt
  exact ⟨_, List.getElem?_eq_getElem hinside,
    of_decide_eq_true (List.findIdx_getElem (w := hinside)), hle⟩

/-- An entry behind another one of its name still has the duration that it started with. -/
theorem BenchmarkInvariant.duration_eq_zero {session : BenchmarkSession}
    (h : BenchmarkInvariant session) {first place : ℕ} {found entry : Benchmark}
    (hfound : session.benchmarks[first]? = some found)
    (hentry : session.benchmarks[place]? = some entry) (hlt : first < place)
    (hname : found.name = entry.name) : entry.duration = 0 := by
  obtain ⟨hfirst, hfoundAt⟩ := List.getElem?_eq_some_iff.1 hfound
  obtain ⟨hplace, hentryAt⟩ := List.getElem?_eq_some_iff.1 hentry
  have hpair := List.pairwise_iff_getElem.1 h.later first place hfirst hplace hlt
  rw [hfoundAt, hentryAt] at hpair
  exact hpair hname

/-- One end. -/
theorem endsLatest_iff {session : BenchmarkSession} (h : BenchmarkInvariant session)
    (call : BenchmarkCall) : EndsLatest session call ↔ LatestIsFirst session call := by
  cases call with
  | startBenchmark name now => exact Iff.rfl
  | endBenchmark name now =>
    refine forall₂_congr fun start hstart ↦ ?_
    have hname : start.name = name := by simpa using List.find?_some hstart
    obtain ⟨entry, hentry, hentryName, hentryTime⟩ :=
      h.opened start (List.mem_of_find?_eq_some hstart)
    obtain rfl : entry.name = name := hentryName.trans hname
    obtain ⟨found, hfound, hfoundName, hle⟩ := exists_first hentry
    dsimp only
    rw [endBenchmark_eq_modify]
    generalize session.benchmarks.findIdx (fun other ↦ decide (other.name = entry.name)) =
      first at hfound hle
    rcases Nat.eq_or_lt_of_le hle with rfl | hlt
    · -- the entry of the start is the one that is ended
      refine iff_of_true ⟨⟨entry.finish now, ?_, ?_⟩, fun earlier hearlier other hother _ ↦ ?_⟩
        (.inl rfl)
      · rw [List.getElem?_modify_eq, hentry]
        rfl
      · rw [← hentryTime]
        rfl
      · rw [List.getElem?_modify_ne _ _ hearlier.ne', hother]
    · -- an earlier entry is ended, and that of the start keeps its duration, which is zero
      have hzero : entry.duration = 0 := h.duration_eq_zero hfound hentry hlt hfoundName
      have hkept : (session.benchmarks.modify first fun entry ↦ entry.finish now)[start.place]? =
          some entry := by rw [List.getElem?_modify_ne _ _ hlt.ne, hentry]
      have hended : (session.benchmarks.modify first fun entry ↦ entry.finish now)[first]? =
          some (found.finish now) := by
        rw [List.getElem?_modify_eq, hfound]
        rfl
      constructor
      · rintro ⟨⟨ended, heq, hduration⟩, hearlier⟩
        rw [hkept] at heq
        cases heq
        refine .inr ⟨by linarith, fun other hother ↦ ?_⟩
        obtain rfl : found = other := Option.some.inj (hfound.symm.trans hother)
        exact Option.some.inj (hended.symm.trans (hearlier first hlt found hfound hfoundName))
      · rintro (hsame | ⟨hnow, hunchanged⟩)
        · exact absurd hsame hlt.ne
        refine ⟨⟨entry, hkept, by linarith⟩, fun earlier _ other hother _ ↦ ?_⟩
        by_cases heq : first = earlier
        · subst heq
          obtain rfl : found = other := Option.some.inj (hfound.symm.trans hother)
          rw [hended, hunchanged found hfound]
        · rw [List.getElem?_modify_ne _ _ heq, hother]

/-! ## Runs of calls -/

/-- With at most 64 starts in total, every start finds room. -/
theorem along_fitsCall {session : BenchmarkSession} {calls : List BenchmarkCall}
    (hnames : ∀ call ∈ calls, call.name.length < 64)
    (hstarts : session.benchmarks.length + calls.countP BenchmarkCall.isStart ≤ maxBenchmarks) :
    Along benchmarkStep FitsCall session calls := by
  induction calls generalizing session with
  | nil => trivial
  | cons call calls ih =>
    have hrest : ∀ other ∈ calls, other.name.length < 64 := fun other hmem ↦
      hnames other (List.mem_cons_of_mem _ hmem)
    rw [List.countP_cons] at hstarts
    cases call with
    | startBenchmark name now =>
      rw [if_pos (by rfl)] at hstarts
      have hroom : session.benchmarks.length < maxBenchmarks := by omega
      refine ⟨⟨hnames _ List.mem_cons_self, fun _ ↦ hroom⟩, ih hrest ?_⟩
      rw [benchmarkStep, startBenchmark, if_neg (not_le.2 hroom), List.length_append,
        List.length_singleton]
      omega
    | endBenchmark name now =>
      rw [if_neg (by simp [BenchmarkCall.isStart])] at hstarts
      refine ⟨⟨hnames _ List.mem_cons_self, fun hstart ↦ (nomatch hstart)⟩, ih hrest ?_⟩
      rw [benchmarkStep, length_endBenchmark]
      exact hstarts

/-! ## Runs of a program -/

theorem firstStart_concat (benchmarks : List Benchmark) (entry : Benchmark) (name : CString) :
    firstStart (benchmarks ++ [entry]) name =
      (firstStart benchmarks name).or
        (if entry.name = name then some entry.startTime else none) := by
  unfold firstStart
  rw [List.find?_append, List.find?_singleton]
  cases benchmarks.find? fun entry ↦ decide (entry.name = name) with
  | some found => rfl
  | none => by_cases hname : entry.name = name <;> simp [hname]

@[simp]
theorem firstStart_endBenchmark (benchmarks : List Benchmark) (ended name : CString) (now : ℚ) :
    firstStart (endBenchmark benchmarks ended now) name = firstStart benchmarks name := by
  unfold firstStart
  induction benchmarks with
  | nil => rfl
  | cons entry rest ih =>
    unfold endBenchmark
    split_ifs
    · by_cases hname : entry.name = name <;> simp [Benchmark.finish, hname]
    · by_cases hname : entry.name = name <;> simp [hname, ih]

/-- The reader finds the entry that has just been ended. -/
theorem readDuration_endBenchmark (benchmarks : List Benchmark) (name : CString) (now : ℚ) :
    readDuration (endBenchmark benchmarks name now) name =
      (firstStart benchmarks name).map fun start ↦ now - start := by
  unfold readDuration firstStart
  simp only [strcmp_eq_zero_iff]
  induction benchmarks with
  | nil => rfl
  | cons entry rest ih =>
    unfold endBenchmark
    by_cases hname : entry.name = name
    · simp [strcmp_eq_zero_iff, Benchmark.finish, hname]
    · simpa [strcmp_eq_zero_iff, hname] using ih

/-- The times that are read for the runs of a program. -/
theorem timeRuns_spec {name : CString} (hname : name.length < 64) {benchmarks : List Benchmark}
    {runs : List (ℚ × ℚ)} (hroom : benchmarks.length + runs.length ≤ maxBenchmarks) {start : ℚ}
    (hstart : ∀ run ∈ runs.head?, (firstStart benchmarks name).getD run.1 = start) :
    (timeRuns name benchmarks runs).1 = runs.map (fun run ↦ some (run.2 - start)) ∧
      (timeRuns name benchmarks runs).2.length = benchmarks.length + runs.length ∧
      ∀ other, name ≠ other →
        firstStart (timeRuns name benchmarks runs).2 other = firstStart benchmarks other := by
  induction runs generalizing benchmarks with
  | nil => exact ⟨rfl, rfl, fun _ _ ↦ rfl⟩
  | cons run runs ih =>
    rw [List.length_cons] at hroom
    have hnext : benchmarks.length < maxBenchmarks := by omega
    have hstarted := startBenchmark_of_room hname hnext run.1
    have hfirst : firstStart (benchmarks ++ [⟨name, run.1, 0, 0⟩]) name = some start := by
      have hfound := hstart run rfl
      rw [firstStart_concat, if_pos rfl]
      cases hbefore : firstStart benchmarks name with
      | none =>
        rw [hbefore] at hfound
        rw [← hfound]
        rfl
      | some found =>
        rw [hbefore] at hfound
        rw [← hfound]
        rfl
    have hlength : (endBenchmark (benchmarks ++ [⟨name, run.1, 0, 0⟩]) name run.2).length =
        benchmarks.length + 1 := by
      rw [length_endBenchmark, List.length_append, List.length_singleton]
    have hrest := ih (show (endBenchmark (benchmarks ++ [⟨name, run.1, 0, 0⟩]) name run.2).length +
      runs.length ≤ maxBenchmarks by omega) (by simp [hfirst])
    unfold timeRuns
    dsimp only
    rw [hstarted, hrest.1, readDuration_endBenchmark, hfirst, hrest.2.1]
    refine ⟨rfl, by rw [hlength, List.length_cons]; omega, fun other hother ↦ ?_⟩
    rw [hrest.2.2 other hother, firstStart_endBenchmark, firstStart_concat, if_neg hother,
      Option.or_none]

/-- The five runs of one program. -/
theorem timesExact_iff {name : CString} (hname : name.length < 64) {benchmarks : List Benchmark}
    (hroom : benchmarks.length + 5 ≤ maxBenchmarks) (runs : Fin 5 → ℚ × ℚ) :
    (TimesExact (timeRuns name benchmarks (List.ofFn runs)).1 runs ↔
        StartTogether benchmarks name runs) ∧
      (timeRuns name benchmarks (List.ofFn runs)).2.length = benchmarks.length + 5 ∧
      ∀ other, name ≠ other →
        firstStart (timeRuns name benchmarks (List.ofFn runs)).2 other =
          firstStart benchmarks other := by
  have hlength : (List.ofFn runs).length = 5 := List.length_ofFn
  have hstart : ∀ run ∈ (List.ofFn runs).head?, (firstStart benchmarks name).getD run.1 =
      (firstStart benchmarks name).getD (runs 0).1 := by
    rintro _ ⟨⟩
    rfl
  obtain ⟨htimes, hgrown, hothers⟩ := timeRuns_spec hname (hlength.symm ▸ hroom) hstart
  refine ⟨?_, by rw [hgrown, hlength], hothers⟩
  rw [TimesExact, htimes, List.map_ofFn, List.ofFn_inj, funext_iff]
  refine forall_congr' fun index ↦ ?_
  rw [Function.comp_apply, Option.some.injEq, sub_right_inj, eq_comm]

theorem startTogether_congr {benchmarks others : List Benchmark} {name : CString}
    (h : firstStart benchmarks name = firstStart others name) (runs : Fin 5 → ℚ × ℚ) :
    StartTogether benchmarks name runs ↔ StartTogether others name runs := by
  unfold StartTogether
  rw [h]

theorem length_sysfetchRun : sysfetchRun.length < 64 := by decide

theorem length_fastfetchRun : fastfetchRun.length < 64 := by decide

theorem runs_ne :
    sysfetchTotal ≠ sysfetchRun ∧ sysfetchTotal ≠ fastfetchRun ∧ sysfetchRun ≠ fastfetchRun := by
  decide

/-- The comparison: the runs of one program do not disturb those of the other. -/
theorem compareWithFastfetch_exact {benchmarks : List Benchmark}
    (hroom : benchmarks.length + 11 ≤ maxBenchmarks) (total : ℚ)
    (sysfetch fastfetch : Fin 5 → ℚ × ℚ) :
    (TimesExact (compareWithFastfetch benchmarks total sysfetch fastfetch).sysfetchTimes sysfetch ↔
      StartTogether benchmarks sysfetchRun sysfetch) ∧
    (TimesExact (compareWithFastfetch benchmarks total sysfetch fastfetch).fastfetchTimes
        fastfetch ↔
      StartTogether benchmarks fastfetchRun fastfetch) := by
  have hstarted : startBenchmark benchmarks sysfetchTotal total =
      benchmarks ++ [⟨sysfetchTotal, total, 0, 0⟩] :=
    startBenchmark_of_room (by decide) (by omega) total
  have hlength : (startBenchmark benchmarks sysfetchTotal total).length =
      benchmarks.length + 1 := by rw [hstarted, List.length_append, List.length_singleton]
  have hothers : ∀ name, sysfetchTotal ≠ name →
      firstStart (startBenchmark benchmarks sysfetchTotal total) name =
        firstStart benchmarks name := by
    intro name hname
    rw [hstarted, firstStart_concat, if_neg hname, Option.or_none]
  unfold compareWithFastfetch
  dsimp only
  generalize startBenchmark benchmarks sysfetchTotal total = started at hlength hothers
  obtain ⟨hsysfetch, hgrown, hkept⟩ := timesExact_iff length_sysfetchRun
    (show started.length + 5 ≤ maxBenchmarks by omega) sysfetch
  obtain ⟨hfastfetch, -, -⟩ := timesExact_iff length_fastfetchRun
    (by rw [hgrown]; omega) fastfetch
  rw [hsysfetch, hfastfetch]
  constructor
  · exact startTogether_congr (hothers _ runs_ne.1) sysfetch
  · exact startTogether_congr ((hkept _ runs_ne.2.2).trans (hothers _ runs_ne.2.1)) fastfetch

/-- Before any call. -/
def startBenchmarks : BenchmarkSession := ⟨[], []⟩

/-- In a run of starts and ends, every end gives the latest open start of its name its duration and
changes no earlier entry of the name, exactly when at every end that start is the first entry of the
name (or no time has passed since it and the first entry was ended just now).  The times that the
comparison averages are those of its runs exactly when all runs start at the time of the first entry
of their name. -/
theorem benchmarks_exact {calls : List BenchmarkCall}
    (hnames : ∀ call ∈ calls, call.name.length < 64)
    (hstarts : calls.countP BenchmarkCall.isStart ≤ maxBenchmarks) {benchmarks : List Benchmark}
    (hroom : benchmarks.length + 11 ≤ maxBenchmarks) (total : ℚ)
    (sysfetch fastfetch : Fin 5 → ℚ × ℚ) :
    (Along benchmarkStep EndsLatest startBenchmarks calls ↔
      Along benchmarkStep LatestIsFirst startBenchmarks calls) ∧
    (TimesExact (compareWithFastfetch benchmarks total sysfetch fastfetch).sysfetchTimes sysfetch ↔
      StartTogether benchmarks sysfetchRun sysfetch) ∧
    (TimesExact (compareWithFastfetch benchmarks total sysfetch fastfetch).fastfetchTimes
        fastfetch ↔
      StartTogether benchmarks fastfetchRun fastfetch) := by
  refine ⟨?_, compareWithFastfetch_exact hroom total sysfetch fastfetch⟩
  have hstep : ∀ session call, BenchmarkInvariant session → FitsCall session call →
      BenchmarkInvariant (benchmarkStep session call) ∧
        (EndsLatest session call ↔ LatestIsFirst session call) := fun session call h hfits ↦
    ⟨benchmarkInvariant_step h hfits, endsLatest_iff h call⟩
  have hempty : BenchmarkInvariant startBenchmarks :=
    ⟨fun _ hmem ↦ (nomatch hmem), List.Pairwise.nil⟩
  exact along_iff_of_invariant hstep hempty
    (along_fitsCall hnames (by simpa [startBenchmarks] using hstarts))

/-- A name that is started and ended twice. -/
def repeatedCalls : List BenchmarkCall :=
  [.startBenchmark sysfetchRun 0, .endBenchmark sysfetchRun 1, .startBenchmark sysfetchRun 2,
    .endBenchmark sysfetchRun 3]

/-- Runs of one microsecond, with one between them. -/
def repeatedRuns : Fin 5 → ℚ × ℚ := fun index ↦ (2 * index.val, 2 * index.val + 1)

theorem benchmarks_exact_example :
    (Along benchmarkStep EndsLatest startBenchmarks repeatedCalls ↔
      Along benchmarkStep LatestIsFirst startBenchmarks repeatedCalls) ∧
    (TimesExact (compareWithFastfetch [] 0 repeatedRuns repeatedRuns).sysfetchTimes repeatedRuns ↔
      StartTogether [] sysfetchRun repeatedRuns) ∧
    (TimesExact (compareWithFastfetch [] 0 repeatedRuns repeatedRuns).fastfetchTimes repeatedRuns ↔
      StartTogether [] fastfetchRun repeatedRuns) :=
  benchmarks_exact (by decide) (by decide) (by decide) 0 repeatedRuns repeatedRuns

/-- The second end is written to the first entry. -/
theorem repeatedCalls_not_endsLatest :
    (∀ call ∈ repeatedCalls, call.name.length < 64) ∧
      repeatedCalls.countP BenchmarkCall.isStart ≤ maxBenchmarks ∧
      (repeatedCalls.map BenchmarkCall.now).Pairwise (· ≤ ·) ∧
      ¬Along benchmarkStep EndsLatest startBenchmarks repeatedCalls ∧
      ¬TimesExact (compareWithFastfetch [] 0 repeatedRuns repeatedRuns).sysfetchTimes
        repeatedRuns := by
  refine ⟨by decide, by decide, by decide +kernel, ?_, ?_⟩
  · rintro ⟨-, -, -, hlast, -⟩
    have hopen : (benchmarkStep (benchmarkStep (benchmarkStep startBenchmarks
        (.startBenchmark sysfetchRun 0)) (.endBenchmark sysfetchRun 1))
        (.startBenchmark sysfetchRun 2)).latest sysfetchRun = some ⟨sysfetchRun, 2, 1⟩ := by
      decide +kernel
    obtain ⟨⟨entry, hentry, hduration⟩, -⟩ := hlast _ hopen
    have hkept : (endBenchmark (benchmarkStep (benchmarkStep (benchmarkStep startBenchmarks
        (.startBenchmark sysfetchRun 0)) (.endBenchmark sysfetchRun 1))
        (.startBenchmark sysfetchRun 2)).benchmarks sysfetchRun 3)[1]? =
          some ⟨sysfetchRun, 2, 0, 0⟩ := by decide +kernel
    rw [hkept] at hentry
    cases hentry
    norm_num at hduration
  · intro hexact
    have hsecond := congrArg (fun times : List (Option ℚ) ↦ times[1]?) hexact
    revert hsecond
    decide +kernel

end HiFetch.Performance
