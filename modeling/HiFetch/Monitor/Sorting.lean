import HiFetch.Library.Comparator
import HiFetch.Monitor.CpuShare
import Mathlib.Data.List.Infix
import Mathlib.Order.Lex

/-!
# The order of the process list

`compare_processes` follows one of five keys: two strings by their bytes, and three numbers.  The
sign is turned round for the opposite direction, so every mode gives `qsort` a consistent
comparator, and no mode leaves the range of an `int` as long as the numbers of the processes are
positive.
-/

namespace HiFetch.Monitor

open CString Comparator

/-! ## The keys -/

/-- The bytes of a string as numbers, in dictionary order. -/
def byteValues (string : CString) : List ℕ := string.bytes.map UInt8.toNat

/-- The first process may stand before the second one in the order of the keys. -/
def SortKey.Le : SortKey → Process → Process → Prop
  | .pid, first, second => first.pid ≤ second.pid
  | .user, first, second => byteValues first.user ≤ byteValues second.user
  | .cpu, first, second => first.cpu ≤ second.cpu
  | .mem, first, second => first.mem ≤ second.mem
  | .command, first, second => byteValues first.command ≤ byteValues second.command

/-- The chosen direction. -/
def InOrder (sortBy : SortKey) (reverse : Bool) (first second : Process) : Prop :=
  if reverse then sortBy.Le second first else sortBy.Le first second

def Contains (text pattern : CString) : Prop := pattern.bytes <:+: text.bytes

instance (text pattern : CString) : Decidable (Contains text pattern) :=
  inferInstanceAs (Decidable (pattern.bytes <:+: text.bytes))

/-- A `qsort` that sorts by every consistent comparator. -/
def Qsort.Sorts (qsort : Qsort) : Prop :=
  ∀ compare, Consistent compare → ∀ rows,
    (qsort.sort compare rows).Pairwise fun first second ↦ compare first second ≤ 0

theorem sorts_insertionQsort : insertionQsort.Sorts :=
  fun _ hconsistent rows ↦ hconsistent.pairwise_insertionSort rows

/-! ## The comparator -/

/-- The loop of `strcmp` finds the first difference, if both strings end where they end. -/
theorem compare_spec (first second : List UInt8) (hfirst : 0 ∉ first) (hsecond : 0 ∉ second) :
    (strcmp.compare first second < 0 ↔ first.map UInt8.toNat < second.map UInt8.toNat) ∧
      (0 < strcmp.compare first second ↔ second.map UInt8.toNat < first.map UInt8.toNat) := by
  have hpos : ∀ (byte : UInt8) (rest : List UInt8), 0 ∉ byte :: rest → 0 < byte.toNat := by
    intro byte rest hbyte
    rw [Nat.pos_iff_ne_zero]
    exact fun hzero ↦ hbyte (List.mem_cons.2 (.inl (UInt8.toNat_inj.1 hzero.symm)))
  induction first generalizing second with
  | nil =>
    cases second with
    | nil => simp [strcmp.compare]
    | cons other others =>
      have hother := hpos other others hsecond
      simp only [strcmp.compare, List.map_nil, List.map_cons, List.nil_lt_cons, List.not_lt_nil,
        iff_true, iff_false]
      omega
  | cons byte rest ih =>
    have hbyte := hpos byte rest hfirst
    cases second with
    | nil =>
      simp only [strcmp.compare, List.map_nil, List.map_cons, List.nil_lt_cons, List.not_lt_nil,
        iff_true, iff_false]
      omega
    | cons other others =>
      unfold strcmp.compare
      rw [List.map_cons, List.map_cons, List.cons_lt_cons_iff, List.cons_lt_cons_iff]
      split_ifs with heq
      · subst heq
        have hrest := ih others (fun hmem ↦ hfirst (List.mem_cons_of_mem _ hmem))
          fun hmem ↦ hsecond (List.mem_cons_of_mem _ hmem)
        simpa using hrest
      · have hne : byte.toNat ≠ other.toNat := fun hsame ↦ heq (UInt8.toNat_inj.1 hsame)
        simp only [hne, hne.symm, false_and, or_false]
        omega

/-- `strcmp` compares bytes in dictionary order. -/
theorem strcmp_follows : Follows strcmp byteValues where
  neg_iff first second :=
    (compare_spec first.bytes second.bytes first.noNul second.noNul).1
  pos_iff first second :=
    (compare_spec first.bytes second.bytes first.noNul second.noNul).2

theorem threeWay_follows : Follows threeWay id where
  neg_iff first second := by
    unfold threeWay
    simp only [id_eq]
    split_ifs with hgt hlt
    · simp [hgt.le]
    · simpa using hlt
    · simpa using hlt
  pos_iff first second := by
    unfold threeWay
    simp only [id_eq]
    split_ifs with hgt hlt
    · simpa using hgt
    · simp [hlt.le]
    · simpa using hgt

theorem pid_follows :
    Follows (fun first second : Process ↦ first.pid - second.pid) Process.pid where
  neg_iff _ _ := sub_neg
  pos_iff _ _ := sub_pos

theorem exists_key (sortBy : SortKey) : ∃ (κ : Type) (_ : LinearOrder κ) (key : Process → κ),
    Follows (compareProcesses sortBy false) key ∧
      ∀ first second, key first ≤ key second ↔ sortBy.Le first second := by
  cases sortBy with
  | pid => exact ⟨ℤ, _, Process.pid, pid_follows, fun _ _ ↦ Iff.rfl⟩
  | user => exact ⟨List ℕ, _, _, strcmp_follows.comap Process.user, fun _ _ ↦ Iff.rfl⟩
  | cpu => exact ⟨ℚ, _, _, threeWay_follows.comap Process.cpu, fun _ _ ↦ Iff.rfl⟩
  | mem => exact ⟨ℚ, _, _, threeWay_follows.comap Process.mem, fun _ _ ↦ Iff.rfl⟩
  | command => exact ⟨List ℕ, _, _, strcmp_follows.comap Process.command, fun _ _ ↦ Iff.rfl⟩

theorem compareProcesses_reverse (sortBy : SortKey) :
    compareProcesses sortBy true =
      fun first second ↦ -compareProcesses sortBy false first second := rfl

theorem consistent_compareProcesses (sortBy : SortKey) (reverse : Bool) :
    Consistent (compareProcesses sortBy reverse) := by
  obtain ⟨κ, _, key, hfollows, -⟩ := exists_key sortBy
  cases reverse with
  | false => exact hfollows.consistent
  | true =>
    rw [compareProcesses_reverse]
    exact hfollows.neg.consistent

theorem compareProcesses_nonpos_iff (sortBy : SortKey) (reverse : Bool) (first second : Process) :
    compareProcesses sortBy reverse first second ≤ 0 ↔ InOrder sortBy reverse first second := by
  obtain ⟨κ, _, key, hfollows, hkey⟩ := exists_key sortBy
  cases reverse with
  | false => exact (hfollows.nonpos_iff first second).trans (hkey first second)
  | true =>
    rw [compareProcesses_reverse]
    exact (hfollows.neg.nonpos_iff first second).trans (hkey second first)

/-! ## No overflow -/

theorem natAbs_strcmp_le (first second : CString) : (strcmp first second).natAbs ≤ 255 := by
  have hcompare : ∀ one other : List UInt8, (strcmp.compare one other).natAbs ≤ 255 := by
    intro one
    induction one with
    | nil =>
      intro other
      cases other with
      | nil => decide
      | cons byte rest =>
        have hlt := byte.toNat_lt
        simp only [strcmp.compare]
        omega
    | cons byte rest ih =>
      intro other
      have hlt := byte.toNat_lt
      cases other with
      | nil =>
        simp only [strcmp.compare]
        omega
      | cons next others =>
        have hnext := next.toNat_lt
        unfold strcmp.compare
        split_ifs
        · exact ih others
        · omega
  exact hcompare first.bytes second.bytes

theorem natAbs_compareProcesses_lt (sortBy : SortKey) (reverse : Bool) {first second : Process}
    (hfirst : 0 < first.pid ∧ first.pid < 2 ^ 31) (hsecond : 0 < second.pid ∧ second.pid < 2 ^ 31) :
    (compareProcesses sortBy reverse first second).natAbs < 2 ^ 31 := by
  have hthree : ∀ one other : ℚ, (threeWay one other).natAbs ≤ 1 := by
    intro one other
    unfold threeWay
    split_ifs <;> decide
  have hforward : (compareProcesses sortBy false first second).natAbs < 2 ^ 31 := by
    cases sortBy with
    | pid =>
      show (first.pid - second.pid).natAbs < 2 ^ 31
      omega
    | user => exact (natAbs_strcmp_le _ _).trans_lt (by decide)
    | cpu => exact (hthree _ _).trans_lt (by decide)
    | mem => exact (hthree _ _).trans_lt (by decide)
    | command => exact (natAbs_strcmp_le _ _).trans_lt (by decide)
  cases reverse with
  | false => exact hforward
  | true =>
    rw [compareProcesses_reverse]
    dsimp only
    rwa [Int.natAbs_neg]

/-! ## The filter -/

theorem occurs_iff (text pattern : CString) :
    occurs text pattern = true ↔ Contains text pattern := occurs_iff_isInfix

/-- The rows whose command or user contains the filter: all rows if the filter is empty. -/
theorem shown_eq_filter (filter : CString) (rows : List Process) :
    shown filter rows =
      rows.filter fun row ↦ Contains row.command filter ∨ Contains row.user filter := by
  unfold shown
  split_ifs with hfilter
  · apply List.filter_congr
    intro row _
    rw [Bool.eq_iff_iff, matchesFilter, Bool.or_eq_true, occurs_iff, occurs_iff, decide_eq_true_iff]
  · symm
    have hempty : filter.bytes = [] := List.eq_nil_of_length_eq_zero (by
      unfold CString.length at hfilter
      omega)
    rw [List.filter_eq_self]
    intro row _
    rw [decide_eq_true_iff]
    left
    unfold Contains
    rw [hempty]
    exact List.nil_infix

/-! ## The scan -/

/-- With a `qsort` that sorts by consistent comparators, a scan leaves the rows that match the
filter, each as often as it was scanned, in the order of the chosen key and direction. -/
theorem getProcesses_sorted {qsort : Qsort} (hsorts : qsort.Sorts) {snapshot : Snapshot}
    (plist : ProcessList) (statics : Statics) (hentries : snapshot.entries ≠ none)
    (hpids : ∀ row ∈ scanRows snapshot statics, 0 < row.pid ∧ row.pid < 2 ^ 31) :
    Consistent (compareProcesses plist.sortBy plist.reverse) ∧
      (∀ first ∈ scanRows snapshot statics, ∀ second ∈ scanRows snapshot statics,
        (compareProcesses plist.sortBy plist.reverse first second).natAbs < 2 ^ 31) ∧
      (getProcesses qsort snapshot plist statics).1.listed.Perm
        ((scanRows snapshot statics).filter fun row ↦
          Contains row.command plist.filter ∨ Contains row.user plist.filter) ∧
      (getProcesses qsort snapshot plist statics).1.listed.Pairwise
        (InOrder plist.sortBy plist.reverse) := by
  have hconsistent := consistent_compareProcesses plist.sortBy plist.reverse
  refine ⟨hconsistent, ?_, ?_, ?_⟩
  · intro first hfirst second hsecond
    exact natAbs_compareProcesses_lt _ _ (hpids first hfirst) (hpids second hsecond)
  · rw [listed_getProcesses qsort plist statics hentries, ← shown_eq_filter]
    exact qsort.perm _ _
  · rw [listed_getProcesses qsort plist statics hentries]
    apply (hsorts _ hconsistent _).imp
    intro first second hle
    exact (compareProcesses_nonpos_iff _ _ first second).1 hle

/-- Two processes that a scan finds, sorted by their numbers. -/
theorem getProcesses_sorted_example :
    (getProcesses insertionQsort (snapshotAt 1000 [entryAt 3 100, entryAt 2 100])
      { initialList with sortBy := .pid, reverse := false } initialStatics).1.listed.Pairwise
        (InOrder .pid false) :=
  (getProcesses_sorted sorts_insertionQsort { initialList with sortBy := .pid, reverse := false }
    initialStatics (Option.some_ne_none _) (by decide +kernel)).2.2.2

end HiFetch.Monitor
