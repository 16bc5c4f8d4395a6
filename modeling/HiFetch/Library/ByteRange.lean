import Mathlib.Order.Interval.Finset.Nat
import Mathlib.Tactic.Ring

/-!
# Byte ranges of an address space

A block of memory is a start address and a length.  Two ranges are apart when they share no byte,
so an empty range is apart from every range.  Ranges that are pairwise apart and lie in one region
have lengths that add up to at most the size of the region.
-/

namespace HiFetch

structure ByteRange where
  start : ℕ
  length : ℕ
deriving DecidableEq, Repr

namespace ByteRange

def bytes (range : ByteRange) : Finset ℕ :=
  Finset.Ico range.start (range.start + range.length)

@[simp]
theorem mem_bytes {range : ByteRange} {address : ℕ} :
    address ∈ range.bytes ↔ range.start ≤ address ∧ address < range.start + range.length :=
  Finset.mem_Ico

@[simp]
theorem card_bytes (range : ByteRange) : range.bytes.card = range.length := by
  simp [bytes]

/-- The two ranges have no byte in common. -/
def Apart (first second : ByteRange) : Prop :=
  Disjoint first.bytes second.bytes

theorem apart_iff {first second : ByteRange} :
    Apart first second ↔ ∀ address, address ∈ first.bytes → address ∉ second.bytes := by
  simp only [Apart, Finset.disjoint_left]

theorem Apart.symm {first second : ByteRange} (h : Apart first second) : Apart second first :=
  Disjoint.symm h

/-- A range that ends before another one starts is apart from it. -/
theorem apart_of_le {first second : ByteRange}
    (h : first.start + first.length ≤ second.start) : Apart first second := by
  apply apart_iff.2
  intro address hfirst hsecond
  rw [mem_bytes] at hfirst hsecond
  omega

/-- Parts of ranges that are apart are apart. -/
theorem Apart.mono {first second first' second' : ByteRange} (h : Apart first second)
    (hfirst : first'.bytes ⊆ first.bytes) (hsecond : second'.bytes ⊆ second.bytes) :
    Apart first' second' :=
  Disjoint.mono hfirst hsecond h

/-- The range lies inside `[low, high)`. -/
def Within (low high : ℕ) (range : ByteRange) : Prop :=
  low ≤ range.start ∧ range.start + range.length ≤ high

instance (low high : ℕ) (range : ByteRange) : Decidable (range.Within low high) :=
  inferInstanceAs (Decidable (_ ∧ _))

/-- The first `length` bytes of a range. -/
def takeBytes (range : ByteRange) (length : ℕ) : ByteRange := ⟨range.start, length⟩

/-- The range without its first `length` bytes. -/
def dropBytes (range : ByteRange) (length : ℕ) : ByteRange :=
  ⟨range.start + length, range.length - length⟩

theorem takeBytes_subset {range : ByteRange} {length : ℕ} (h : length ≤ range.length) :
    (range.takeBytes length).bytes ⊆ range.bytes := by
  intro address hmem
  simp only [takeBytes, mem_bytes] at hmem ⊢
  omega

theorem dropBytes_subset {range : ByteRange} {length : ℕ} (h : length ≤ range.length) :
    (range.dropBytes length).bytes ⊆ range.bytes := by
  intro address hmem
  simp only [dropBytes, mem_bytes] at hmem ⊢
  omega

theorem takeBytes_apart_dropBytes (range : ByteRange) (length : ℕ) :
    Apart (range.takeBytes length) (range.dropBytes length) :=
  apart_of_le le_rfl

/-! ## Lists of ranges -/

/-- The number of bytes of all ranges together. -/
def total (ranges : List ByteRange) : ℕ := (ranges.map length).sum

@[simp]
theorem total_nil : total [] = 0 := rfl

@[simp]
theorem total_cons (range : ByteRange) (rest : List ByteRange) :
    total (range :: rest) = range.length + total rest := rfl

@[simp]
theorem total_append (first second : List ByteRange) :
    total (first ++ second) = total first + total second := by
  simp [total]

theorem total_perm {first second : List ByteRange} (h : first.Perm second) :
    total first = total second :=
  (h.map length).sum_eq

theorem total_le_of_subperm {first second : List ByteRange} (h : first.Subperm second) :
    total first ≤ total second := by
  obtain ⟨middle, hperm, hsublist⟩ := h
  obtain ⟨rest, hrest⟩ := hsublist.exists_perm_append
  rw [← total_perm hperm, total_perm hrest, total_append]
  exact Nat.le_add_right _ _

/-- The bytes of ranges that are pairwise apart can be counted one by one. -/
theorem exists_bytes {ranges : List ByteRange} (hapart : ranges.Pairwise Apart) :
    ∃ covered : Finset ℕ, covered.card = total ranges ∧
      ∀ address, address ∈ covered ↔ ∃ range ∈ ranges, address ∈ range.bytes := by
  induction ranges with
  | nil => exact ⟨∅, by simp⟩
  | cons range rest ih =>
    obtain ⟨hhead, hrest⟩ := List.pairwise_cons.1 hapart
    obtain ⟨covered, hcard, hmem⟩ := ih hrest
    have hdisjoint : Disjoint range.bytes covered := by
      apply Finset.disjoint_left.2
      intro address hrange hcovered
      obtain ⟨other, hother, hin⟩ := (hmem address).1 hcovered
      exact apart_iff.1 (hhead other hother) address hrange hin
    refine ⟨range.bytes ∪ covered, ?_, fun address ↦ ?_⟩
    · rw [Finset.card_union_of_disjoint hdisjoint, hcard, card_bytes, total_cons]
    · simp only [Finset.mem_union, hmem, List.mem_cons, exists_eq_or_imp]

/-- Ranges that are pairwise apart fit into the region that holds them. -/
theorem total_le {ranges : List ByteRange} {low high : ℕ} (hapart : ranges.Pairwise Apart)
    (hwithin : ∀ range ∈ ranges, Within low high range) : total ranges ≤ high - low := by
  obtain ⟨covered, hcard, hmem⟩ := exists_bytes hapart
  have hsubset : covered ⊆ Finset.Ico low high := by
    intro address haddress
    obtain ⟨range, hrange, hin⟩ := (hmem address).1 haddress
    obtain ⟨hlow, hhigh⟩ := hwithin range hrange
    rw [mem_bytes] at hin
    exact Finset.mem_Ico.2 ⟨hlow.trans hin.1, hin.2.trans_le hhigh⟩
  calc
    total ranges = covered.card := hcard.symm
    _ ≤ (Finset.Ico low high).card := Finset.card_le_card hsubset
    _ = high - low := Nat.card_Ico low high

section Update

variable {ranges : List ByteRange} {index : ℕ} {range : ByteRange}

theorem total_set (hrange : ranges[index]? = some range) (new : ByteRange) :
    total (ranges.set index new) + range.length = total ranges + new.length := by
  induction ranges generalizing index with
  | nil => simp at hrange
  | cons head rest ih =>
    cases index with
    | zero =>
      obtain rfl : head = range := by simpa using hrange
      simp only [List.set_cons_zero, total_cons]
      omega
    | succ index =>
      have htail := @ih index (by simpa using hrange)
      simp only [List.set_cons_succ, total_cons]
      omega

/-- Cutting a range down keeps the list apart. -/
theorem pairwise_set (hapart : ranges.Pairwise Apart) (hrange : ranges[index]? = some range)
    {part : ByteRange} (hpart : part.bytes ⊆ range.bytes) :
    (ranges.set index part).Pairwise Apart := by
  induction ranges generalizing index with
  | nil => simp at hrange
  | cons head rest ih =>
    obtain ⟨hhead, hrest⟩ := List.pairwise_cons.1 hapart
    cases index with
    | zero =>
      obtain rfl : head = range := by simpa using hrange
      exact List.pairwise_cons.2
        ⟨fun other hother ↦ (hhead other hother).mono hpart subset_rfl, hrest⟩
    | succ index =>
      have hmem : range ∈ rest := List.mem_of_getElem? (by simpa using hrange)
      refine List.pairwise_cons.2 ⟨fun other hother ↦ ?_, ih hrest (by simpa using hrange)⟩
      rcases List.mem_or_eq_of_mem_set hother with hold | rfl
      · exact hhead other hold
      · exact (hhead range hmem).mono subset_rfl hpart

/-- Splitting a range in two parts, the second at the end of the list, keeps the list apart. -/
theorem pairwise_split (hapart : ranges.Pairwise Apart) (hrange : ranges[index]? = some range)
    {part rest : ByteRange} (hpart : part.bytes ⊆ range.bytes) (hrest : rest.bytes ⊆ range.bytes)
    (hparts : Apart part rest) : (ranges.set index part ++ [rest]).Pairwise Apart := by
  apply List.pairwise_append.2
  refine ⟨pairwise_set hapart hrange hpart, List.pairwise_singleton _ _, ?_⟩
  intro other hother last hlast
  obtain rfl := List.mem_singleton.1 hlast
  obtain ⟨position, hposition, rfl⟩ := List.getElem_of_mem hother
  rw [List.getElem_set]
  by_cases hindex : index = position
  · rw [if_pos hindex]
    exact hparts
  · rw [if_neg hindex]
    obtain ⟨hlt, rfl⟩ := List.getElem?_eq_some_iff.1 hrange
    have hpairwise := List.pairwise_iff_getElem.1 hapart
    have hposition' : position < ranges.length := by simpa using hposition
    rcases Nat.lt_or_gt_of_ne hindex with hbefore | hafter
    · exact (hpairwise index position hlt hposition' hbefore).symm.mono subset_rfl hrest
    · exact (hpairwise position index hposition' hlt hafter).mono subset_rfl hrest

end Update

/-! ## Cutting one range of a list -/

/-- The range at an index is cut down to its first bytes; the rest of it is a new last range, or
lost. -/
structure CutAt (before : List ByteRange) (index size : ℕ) (range : ByteRange)
    (after : List ByteRange) : Prop where
  range_eq : before[index]? = some range
  fits : size ≤ range.length
  after_eq : after = before.set index (range.takeBytes size) ∨
    after = before.set index (range.takeBytes size) ++ [range.dropBytes size]

namespace CutAt

variable {before after : List ByteRange} {index size : ℕ} {range : ByteRange}

theorem mem_cases (h : CutAt before index size range after) :
    ∀ other ∈ after, other ∈ before ∨ other = range.takeBytes size ∨
      other = range.dropBytes size := by
  have hset : ∀ other ∈ before.set index (range.takeBytes size), other ∈ before ∨
      other = range.takeBytes size ∨ other = range.dropBytes size := by
    intro other hother
    rcases List.mem_or_eq_of_mem_set hother with hold | hnew
    · exact .inl hold
    · exact .inr (.inl hnew)
  intro other hother
  rcases h.after_eq with rfl | rfl
  · exact hset other hother
  · rcases List.mem_append.1 hother with hother | hlast
    · exact hset other hother
    · exact .inr (.inr (List.mem_singleton.1 hlast))

/-- The parts are apart, and apart from the other ranges. -/
theorem pairwise (h : CutAt before index size range after) (hapart : before.Pairwise Apart) :
    after.Pairwise Apart := by
  have htake := takeBytes_subset h.fits
  rcases h.after_eq with rfl | rfl
  · exact pairwise_set hapart h.range_eq htake
  · exact pairwise_split hapart h.range_eq htake (dropBytes_subset h.fits)
      (takeBytes_apart_dropBytes _ _)

theorem within (h : CutAt before index size range after) {low high : ℕ}
    (hwithin : ∀ other ∈ before, other.Within low high) :
    ∀ other ∈ after, other.Within low high := by
  have hrange := hwithin range (List.mem_of_getElem? h.range_eq)
  have hfits := h.fits
  intro other hother
  unfold Within at hrange
  rcases h.mem_cases other hother with hold | rfl | rfl
  · exact hwithin other hold
  · simp only [Within, takeBytes]
    omega
  · simp only [Within, dropBytes]
    omega

/-- Cutting at a multiple of the alignment keeps the ranges aligned. -/
theorem aligned (h : CutAt before index size range after) {alignment low high : ℕ}
    (hsize : alignment ∣ size) (hwithin : ∀ other ∈ before, other.Within low high)
    (haligned : ∀ other ∈ before, alignment ∣ other.start - low) :
    ∀ other ∈ after, alignment ∣ other.start - low := by
  have hmem := List.mem_of_getElem? h.range_eq
  have hrange := hwithin range hmem
  intro other hother
  unfold Within at hrange
  rcases h.mem_cases other hother with hold | rfl | rfl
  · exact haligned other hold
  · exact haligned range hmem
  · have hsum : (range.dropBytes size).start - low = (range.start - low) + size := by
      simp only [dropBytes]
      omega
    rw [hsum]
    exact Nat.dvd_add (haligned range hmem) hsize

theorem getElem?_self (h : CutAt before index size range after) :
    after[index]? = some (range.takeBytes size) := by
  have hlt := (List.getElem?_eq_some_iff.1 h.range_eq).1
  rcases h.after_eq with rfl | rfl
  · exact List.getElem?_set_self hlt
  · rw [List.getElem?_append_left (by rwa [List.length_set]), List.getElem?_set_self hlt]

theorem getElem?_of_ne (h : CutAt before index size range after) {other : ℕ} (hne : index ≠ other)
    (hlt : other < before.length) : after[other]? = before[other]? := by
  rcases h.after_eq with rfl | rfl
  · exact List.getElem?_set_ne hne
  · rw [List.getElem?_append_left (by rwa [List.length_set]), List.getElem?_set_ne hne]

end CutAt

end ByteRange

end HiFetch
