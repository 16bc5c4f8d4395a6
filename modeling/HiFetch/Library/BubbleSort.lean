import Mathlib.Algebra.Group.End
import Mathlib.Data.List.Nodup
import Mathlib.Data.List.Perm.Basic
import Mathlib.Order.Defs.LinearOrder

/-!
# Bubble sort

Neighbours whose keys increase change places, in passes that each leave out one more element at the
end of the array.  The array is a function on its places; the sort moves only the first `count`.

A pass carries one of the smallest keys to its end, so the places that later passes leave out hold
the smallest keys in non-increasing order.
-/

namespace HiFetch.BubbleSort

variable {α κ : Type*} [LinearOrder κ] (key : α → κ)

/-- The body of the inner loop. -/
def compareAndSwap (entries : ℕ → α) (j : ℕ) : ℕ → α :=
  if key (entries j) < key (entries (j + 1)) then entries ∘ Equiv.swap j (j + 1) else entries

/-- The inner loop. -/
def pass (entries : ℕ → α) (bound : ℕ) : ℕ → α :=
  (List.range bound).foldl (compareAndSwap key) entries

/-- The first passes of the outer loop. -/
def passes (count : ℕ) (entries : ℕ → α) (number : ℕ) : ℕ → α :=
  (List.range number).foldl (fun entries i ↦ pass key entries (count - i - 1)) entries

/-- The outer loop, over the first `count` places. -/
def bubbleSort (count : ℕ) (entries : ℕ → α) : ℕ → α := passes key count entries (count - 1)

theorem pass_succ (entries : ℕ → α) (bound : ℕ) :
    pass key entries (bound + 1) = compareAndSwap key (pass key entries bound) bound := by
  simp [pass, List.range_succ]

theorem passes_succ (count : ℕ) (entries : ℕ → α) (number : ℕ) :
    passes key count entries (number + 1) =
      pass key (passes key count entries number) (count - number - 1) := by
  simp [passes, List.range_succ]

/-! ## Permutation -/

/-- The entries at the first `count` places have changed places. -/
def Rearranges (count : ℕ) (before after : ℕ → α) : Prop :=
  ∃ places : Equiv.Perm ℕ, (∀ place, count ≤ place → places place = place) ∧
    after = before ∘ places

theorem Rearranges.refl (count : ℕ) (entries : ℕ → α) : Rearranges count entries entries :=
  ⟨1, fun _ _ ↦ rfl, rfl⟩

theorem Rearranges.trans {count : ℕ} {first second third : ℕ → α}
    (h : Rearranges count first second) (hnext : Rearranges count second third) :
    Rearranges count first third := by
  obtain ⟨places, hplaces, rfl⟩ := h
  obtain ⟨others, hothers, rfl⟩ := hnext
  refine ⟨places * others, fun place hplace ↦ ?_, rfl⟩
  rw [Equiv.Perm.mul_apply, hothers place hplace, hplaces place hplace]

/-- Where all places from `count` on stay, the places below it stay among themselves. -/
theorem lt_iff_of_fixed {count : ℕ} {places : Equiv.Perm ℕ}
    (h : ∀ place, count ≤ place → places place = place) (place : ℕ) :
    places place < count ↔ place < count := by
  constructor
  · intro hlt
    by_contra hge
    rw [h place (not_lt.1 hge)] at hlt
    exact hge hlt
  · intro hlt
    by_contra hge
    have hsame : places place = place := places.injective (h _ (not_lt.1 hge))
    omega

/-- Entries behind the first `count` stay, and the others come from the first `count`. -/
theorem Rearranges.spec {count : ℕ} {before after : ℕ → α} (h : Rearranges count before after) :
    (∀ place, count ≤ place → after place = before place) ∧
      ∀ place < count, ∃ source < count, after place = before source := by
  obtain ⟨places, hplaces, rfl⟩ := h
  refine ⟨fun place hplace ↦ congrArg before (hplaces place hplace), fun place hplace ↦ ?_⟩
  exact ⟨places place, (lt_iff_of_fixed hplaces place).2 hplace, rfl⟩

theorem Rearranges.perm {count : ℕ} {before after : ℕ → α} (h : Rearranges count before after) :
    ((List.range count).map after).Perm ((List.range count).map before) := by
  obtain ⟨places, hplaces, rfl⟩ := h
  have hrange : ((List.range count).map places).Perm (List.range count) := by
    rw [List.perm_ext_iff_of_nodup (List.nodup_range.map places.injective) List.nodup_range]
    intro place
    rw [List.mem_map, List.mem_range]
    constructor
    · rintro ⟨source, hsource, rfl⟩
      exact (lt_iff_of_fixed hplaces source).2 (List.mem_range.1 hsource)
    · intro hlt
      refine ⟨places.symm place, List.mem_range.2 ?_, places.apply_symm_apply place⟩
      rwa [← lt_iff_of_fixed hplaces, places.apply_symm_apply]
  rw [← List.map_map]
  exact hrange.map before

theorem rearranges_compareAndSwap (entries : ℕ → α) {j count : ℕ} (h : j + 1 < count) :
    Rearranges count entries (compareAndSwap key entries j) := by
  unfold compareAndSwap
  split_ifs
  · refine ⟨Equiv.swap j (j + 1), fun place hplace ↦ ?_, rfl⟩
    apply Equiv.swap_apply_of_ne_of_ne <;> omega
  · exact Rearranges.refl count entries

theorem rearranges_pass (entries : ℕ → α) {bound count : ℕ} (h : bound < count) :
    Rearranges count entries (pass key entries bound) := by
  induction bound with
  | zero => exact Rearranges.refl count entries
  | succ bound ih =>
    rw [pass_succ]
    exact (ih (by omega)).trans (rearranges_compareAndSwap key _ h)

theorem rearranges_passes {count : ℕ} (entries : ℕ → α) {number : ℕ} (h : number < count) :
    Rearranges count entries (passes key count entries number) := by
  induction number with
  | zero => exact Rearranges.refl count entries
  | succ number ih =>
    rw [passes_succ]
    exact (ih (by omega)).trans (rearranges_pass key _ (by omega))

/-- The sort moves the first `count` entries among themselves. -/
theorem rearranges_bubbleSort (count : ℕ) (entries : ℕ → α) :
    Rearranges count entries (bubbleSort key count entries) := by
  unfold bubbleSort
  cases count with
  | zero => exact Rearranges.refl 0 entries
  | succ count => exact rearranges_passes key entries (by omega)

/-! ## Order -/

/-- A pass ends at one of the smallest keys. -/
theorem key_pass_le (entries : ℕ → α) (bound : ℕ) :
    ∀ place ≤ bound, key (pass key entries bound bound) ≤ key (pass key entries bound place) := by
  induction bound with
  | zero =>
    intro place hplace
    rw [Nat.le_zero.1 hplace]
  | succ bound ih =>
    intro place hplace
    rw [pass_succ]
    unfold compareAndSwap
    split_ifs with hless
    · simp only [Function.comp_apply, Equiv.swap_apply_right]
      rcases Nat.lt_or_ge place bound with hlt | hge
      · rw [Equiv.swap_apply_of_ne_of_ne (by omega) (by omega)]
        exact ih place hlt.le
      · rcases Nat.eq_or_lt_of_le hge with rfl | hlast
        · rw [Equiv.swap_apply_left]
          exact hless.le
        · rw [show place = bound + 1 by omega, Equiv.swap_apply_right]
    · rcases Nat.lt_or_ge bound place with hlast | hle
      · rw [show place = bound + 1 by omega]
      · exact (not_lt.1 hless).trans (ih place hle)

/-- From the place `start` on, no key is larger than one in front of it. -/
def Settled (count start : ℕ) (entries : ℕ → α) : Prop :=
  ∀ first second, first < second → start ≤ second → second < count →
    key (entries second) ≤ key (entries first)

/-- A pass settles one more place. -/
theorem Settled.pass {count bound : ℕ} {entries : ℕ → α}
    (h : Settled key count (bound + 1) entries) :
    Settled key count bound (pass key entries bound) := by
  obtain ⟨hbehind, hinside⟩ := (rearranges_pass key entries (Nat.lt_succ_self bound)).spec
  intro first second hlt hstart hsecond
  rcases Nat.eq_or_lt_of_le hstart with rfl | hsettled
  · exact key_pass_le key entries bound first hlt.le
  · rw [hbehind second hsettled]
    rcases Nat.lt_or_ge first (bound + 1) with hmoved | hkept
    · obtain ⟨source, hsource, heq⟩ := hinside first hmoved
      rw [heq]
      exact h source second (by omega) hsettled hsecond
    · rw [hbehind first hkept]
      exact h first second hlt hsettled hsecond

theorem settled_passes (count : ℕ) (entries : ℕ → α) {number : ℕ} (h : number ≤ count) :
    Settled key count (count - number) (passes key count entries number) := by
  induction number with
  | zero =>
    intro first second _ hstart hsecond
    omega
  | succ number ih =>
    have hbefore := ih (by omega)
    rw [passes_succ]
    rw [show count - number = count - number - 1 + 1 by omega] at hbefore
    exact hbefore.pass

/-- The keys of the first `count` entries do not increase. -/
theorem key_bubbleSort_le (count : ℕ) (entries : ℕ → α) {first second : ℕ} (hlt : first < second)
    (hsecond : second < count) :
    key (bubbleSort key count entries second) ≤ key (bubbleSort key count entries first) :=
  settled_passes key count entries (Nat.sub_le count 1) first second hlt (by omega) hsecond

end HiFetch.BubbleSort
