import HiFetch.Library.BubbleSort
import HiFetch.Profiler.Profiler

/-!
# The functions of the report

`generate_profile_report` collects pointers to the function entries of all threads, at most 512 of
them, sorts them by their total time, and prints the first ten.

The array of pointers is not initialized, so the places that are not filled hold what was on the
stack.
-/

namespace HiFetch.Profiler

open BubbleSort

/-- A pointer to the entry of a function in the table of a thread. -/
@[ext]
structure FunctionPointer where
  thread : ℕ
  function : ℕ
deriving DecidableEq

/-- The entry that a pointer leads to. -/
def SystemProfiler.entry (profiler : SystemProfiler) (pointer : FunctionPointer) :
    FunctionProfile :=
  (profiler.threads pointer.thread).functions pointer.function

/-- The array of pointers and the number of those that have been stored. -/
structure Collected where
  sortedFunctions : ℕ → FunctionPointer
  funcCount : ℕ

def Collected.push (collected : Collected) (pointer : FunctionPointer) : Collected where
  sortedFunctions := Function.update collected.sortedFunctions collected.funcCount pointer
  funcCount := collected.funcCount + 1

/-- The loop over the functions of a thread, from the function `j` on. -/
def collectThread (thread functionCount j : ℕ) (collected : Collected) : Collected :=
  if j < functionCount ∧ collected.funcCount < 512 then
    collectThread thread functionCount (j + 1) (collected.push ⟨thread, j⟩)
  else collected
termination_by functionCount - j

/-- The loop over the threads; `leftover` is what the array held before. -/
def collectFunctions (profiler : SystemProfiler) (leftover : ℕ → FunctionPointer) : Collected :=
  (List.range profiler.threadCount).foldl
    (fun collected i ↦ collectThread i (profiler.threads i).functionCount 0 collected)
    ⟨leftover, 0⟩

/-- The loops that sort. -/
def sortFunctions (profiler : SystemProfiler) (collected : Collected) : Collected :=
  { collected with
    sortedFunctions := bubbleSort (fun pointer ↦ (profiler.entry pointer).totalTime)
      collected.funcCount collected.sortedFunctions }

/-- `sorted_functions[0..func_count)` -/
def Collected.pointers (collected : Collected) : List FunctionPointer :=
  (List.range collected.funcCount).map collected.sortedFunctions

/-- The functions that the last loop prints. -/
def Collected.printed (collected : Collected) : List FunctionPointer :=
  (List.range (if collected.funcCount < 10 then collected.funcCount else 10)).map
    collected.sortedFunctions

/-- All function entries, thread by thread. -/
def SystemProfiler.functionEntries (profiler : SystemProfiler) : List FunctionPointer :=
  (List.range profiler.threadCount).flatMap fun i ↦
    (List.range (profiler.threads i).functionCount).map (FunctionPointer.mk i)

/-! ## Collecting -/

theorem length_pointers (collected : Collected) :
    collected.pointers.length = collected.funcCount := by
  simp [Collected.pointers]

theorem pointers_push (collected : Collected) (pointer : FunctionPointer) :
    (collected.push pointer).pointers = collected.pointers ++ [pointer] := by
  have hbefore : (List.range collected.funcCount).map
      (Function.update collected.sortedFunctions collected.funcCount pointer) =
        collected.pointers := by
    apply List.map_congr_left
    intro place hplace
    rw [Function.update_of_ne (List.mem_range.1 hplace).ne]
  simp only [Collected.pointers, Collected.push] at hbefore ⊢
  rw [List.range_succ, List.map_append, hbefore, List.map_singleton, Function.update_self]

/-- The functions of a thread from `j` on are stored as long as there is room. -/
theorem pointers_collectThread (thread functionCount j : ℕ) {collected : Collected}
    (h : collected.funcCount ≤ 512) :
    (collectThread thread functionCount j collected).pointers =
      (collected.pointers ++
        (List.range' j (functionCount - j)).map (FunctionPointer.mk thread)).take 512 := by
  fun_induction collectThread thread functionCount j collected with
  | case1 j collected hroom ih =>
    have hrest : functionCount - j = functionCount - (j + 1) + 1 := by omega
    rw [ih hroom.2, pointers_push, hrest, List.range'_succ, List.map_cons, List.append_assoc,
      List.singleton_append]
  | case2 j collected hdone =>
    by_cases hfull : collected.funcCount = 512
    · rw [List.take_append_of_le_length (by rw [length_pointers, hfull]), List.take_of_length_le]
      rw [length_pointers, hfull]
    · rw [show functionCount - j = 0 by omega, List.range'_zero, List.map_nil, List.append_nil,
        List.take_of_length_le]
      rwa [length_pointers]

/-- What is taken twice is taken once. -/
theorem take_take_append {α : Type*} (front back : List α) (room : ℕ) :
    (front.take room ++ back).take room = (front ++ back).take room := by
  rcases Nat.lt_or_ge front.length room with hshort | hlong
  · rw [List.take_of_length_le hshort.le]
  · rw [List.take_append_of_le_length hlong, List.take_append_of_le_length (by simpa using hlong),
      List.take_take, min_self]

/-- The first 512 entries are collected. -/
theorem pointers_collectFunctions (profiler : SystemProfiler) (leftover : ℕ → FunctionPointer) :
    (collectFunctions profiler leftover).pointers = profiler.functionEntries.take 512 := by
  unfold collectFunctions SystemProfiler.functionEntries
  generalize profiler.threadCount = count
  induction count with
  | zero => rfl
  | succ count ih =>
    rw [List.range_succ, List.foldl_append, List.flatMap_append]
    have hroom := congrArg List.length ih
    rw [length_pointers, List.length_take] at hroom
    simp only [List.foldl_cons, List.foldl_nil, List.flatMap_singleton]
    rw [pointers_collectThread _ _ _ (hroom.trans_le (Nat.min_le_left _ _)), ih, take_take_append,
      Nat.sub_zero, ← List.range_eq_range']

/-! ## Sorting -/

section Sorting

variable (profiler : SystemProfiler) (collected : Collected)

theorem perm_sortFunctions :
    (sortFunctions profiler collected).pointers.Perm collected.pointers :=
  (rearranges_bubbleSort _ collected.funcCount collected.sortedFunctions).perm

/-- One pointer in front of another leads to at least as much time. -/
theorem totalTime_sortFunctions_le {first second : ℕ} (hlt : first < second)
    (hsecond : second < collected.funcCount) :
    (profiler.entry ((sortFunctions profiler collected).sortedFunctions second)).totalTime ≤
      (profiler.entry ((sortFunctions profiler collected).sortedFunctions first)).totalTime :=
  key_bubbleSort_le (fun pointer ↦ (profiler.entry pointer).totalTime) collected.funcCount
    collected.sortedFunctions hlt hsecond

theorem pairwise_sortFunctions :
    (sortFunctions profiler collected).pointers.Pairwise fun first second ↦
      (profiler.entry second).totalTime ≤ (profiler.entry first).totalTime := by
  unfold Collected.pointers
  rw [List.pairwise_map, List.pairwise_iff_getElem]
  intro first second hfirst hsecond hlt
  rw [List.getElem_range, List.getElem_range]
  rw [List.length_range] at hsecond
  exact totalTime_sortFunctions_le profiler collected hlt hsecond

end Sorting

theorem printed_eq_take (collected : Collected) :
    collected.printed = collected.pointers.take 10 := by
  unfold Collected.printed Collected.pointers
  rw [← List.map_take, List.take_range]
  split_ifs with hfew
  · rw [Nat.min_eq_right hfew.le]
  · rw [Nat.min_eq_left (not_lt.1 hfew)]

/-- What the report needs of the sorted array. -/
structure TopFunctions (profiler : SystemProfiler) (sorted : Collected) : Prop where
  perm : sorted.pointers.Perm (profiler.functionEntries.take 512)
  descending : sorted.pointers.Pairwise fun first second ↦
    (profiler.entry second).totalTime ≤ (profiler.entry first).totalTime
  /-- As long as there are at most 512 entries, the functions printed are those with the most
  time. -/
  top : profiler.functionEntries.length ≤ 512 → ∀ shown ∈ sorted.printed,
    ∀ other ∈ profiler.functionEntries, other ∉ sorted.printed →
      (profiler.entry other).totalTime ≤ (profiler.entry shown).totalTime

/-- For every profiler, and whatever was on the stack, the array holds the first 512 function
entries with their total times in non-increasing order. -/
theorem topFunctions_sortFunctions (profiler : SystemProfiler)
    (leftover : ℕ → FunctionPointer) :
    TopFunctions profiler (sortFunctions profiler (collectFunctions profiler leftover)) := by
  have hperm : (sortFunctions profiler (collectFunctions profiler leftover)).pointers.Perm
      (profiler.functionEntries.take 512) := by
    rw [← pointers_collectFunctions profiler leftover]
    exact perm_sortFunctions profiler (collectFunctions profiler leftover)
  have hsorted := pairwise_sortFunctions profiler (collectFunctions profiler leftover)
  refine ⟨hperm, hsorted, fun hfew shown hshown other hother hhidden ↦ ?_⟩
  rw [printed_eq_take] at hshown hhidden
  rw [List.take_of_length_le hfew] at hperm
  have hmem := hperm.mem_iff.2 hother
  rw [← List.take_append_drop 10 (sortFunctions profiler _).pointers] at hsorted hmem
  have hbehind := (List.mem_append.1 hmem).resolve_left hhidden
  exact (List.pairwise_append.1 hsorted).2.2 shown hshown other hbehind

end HiFetch.Profiler
