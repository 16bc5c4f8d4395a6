import HiFetch.Library.Allocator
import HiFetch.Library.CString
import HiFetch.Library.Transition
import Mathlib.Logic.Function.Basic

/-!
# Records of character arrays

A C structure with arrays of one size is one block of bytes, with other bytes behind it.  What is
written to the start of an array goes on behind its end when it is too long, and a string that has
no NUL in its array is read on in the next one.

The arrays apart from each other are the abstract record.  As long as everything that is written
fits, the block holds the arrays.  The block stays whole, with a NUL in every array and the bytes
behind it as they were, only then: where a text has been too long its array has no NUL, and later
writes to arrays behind it do not bring one back.
-/

namespace HiFetch

open Allocator CString Transition

/-- The places of the fields of a structure. -/
structure Layout (Field : Type*) where
  offset : Field → ℕ
  size : ℕ
  total : ℕ
  size_pos : 0 < size
  inside : ∀ field, offset field + size ≤ total
  disjoint : ∀ first second, first ≠ second →
    offset first + size ≤ offset second ∨ offset second + size ≤ offset first

/-- The bytes that go to the start of a field.  They may depend on the strings in the fields. -/
structure Write (Field : Type*) where
  field : Field
  bytes : (Field → CString) → List UInt8

namespace Layout

variable {Field : Type*} (layout : Layout Field)

/-- The arrays in a block. -/
def arrays (memory : List UInt8) (field : Field) : List UInt8 :=
  (memory.drop (layout.offset field)).take layout.size

/-- The string that starts at a field, which may go on behind it. -/
def stringAt (memory : List UInt8) (field : Field) : CString :=
  ofBuffer (memory.drop (layout.offset field))

/-- A write to the block. -/
def perform (memory : List UInt8) (write : Write Field) : List UInt8 :=
  memory.take (layout.offset write.field) ++
    overwrite (memory.drop (layout.offset write.field)) (write.bytes (layout.stringAt memory))

/-- The strings in the arrays of a record. -/
def strings (record : Field → List UInt8) (field : Field) : CString := ofBuffer (record field)

/-- A write to the arrays apart from each other. -/
def assign [DecidableEq Field] (record : Field → List UInt8) (write : Write Field) :
    Field → List UInt8 :=
  Function.update record write.field
    (overwrite (record write.field) (write.bytes (strings record)))

/-! ## The law -/

/-- The write stays in its array. -/
def Fits (record : Field → List UInt8) (write : Write Field) : Prop :=
  (write.bytes (strings record)).length ≤ layout.size

/-- Every array has a NUL, and the bytes behind the block are those from before. -/
structure Whole (before after : List UInt8) : Prop where
  terminated : ∀ field, 0 ∈ layout.arrays after field
  behind : after.drop layout.total = before.drop layout.total

/-- Every array has its size and ends with a NUL. -/
def Closed (record : Field → List UInt8) : Prop :=
  ∀ field, (record field).length = layout.size ∧ (record field)[layout.size - 1]? = some 0

/-- What reaches the last byte of an array writes a NUL there, and what is too long has none before
the end of the array. -/
structure Regular (bytes : List UInt8) : Prop where
  last : bytes.length = layout.size → bytes[layout.size - 1]? = some 0
  overlong : layout.size < bytes.length → 0 ∉ bytes.take layout.size

/-! ## One write -/

theorem getElem?_overwrite (bytes data : List UInt8) (place : ℕ) :
    (overwrite bytes data)[place]? =
      if place < data.length ∧ place < bytes.length then data[place]? else bytes[place]? := by
  unfold overwrite
  by_cases hfront : place < (data.take bytes.length).length
  · rw [List.getElem?_append_left hfront]
    rw [List.length_take] at hfront
    rw [List.getElem?_take, if_pos (by omega), if_pos (by omega)]
  · rw [List.getElem?_append_right (not_lt.1 hfront), List.getElem?_drop]
    rw [List.length_take] at hfront ⊢
    by_cases hlong : bytes.length ≤ place
    · rw [List.getElem?_eq_none (by omega), if_neg (by omega), List.getElem?_eq_none hlong]
    · rw [if_neg (by omega)]
      congr 1
      omega

theorem length_perform (memory : List UInt8) (write : Write Field) :
    (layout.perform memory write).length = memory.length := by
  unfold perform
  rw [List.length_append, length_overwrite, ← List.length_append, List.take_append_drop]

/-- The bytes of a block after a write. -/
theorem getElem?_perform (memory : List UInt8) (write : Write Field) (place : ℕ) :
    (layout.perform memory write)[place]? =
      if layout.offset write.field ≤ place ∧
          place - layout.offset write.field < (write.bytes (layout.stringAt memory)).length ∧
          place < memory.length then
        (write.bytes (layout.stringAt memory))[place - layout.offset write.field]?
      else memory[place]? := by
  unfold perform
  generalize write.bytes (layout.stringAt memory) = bytes
  generalize layout.offset write.field = offset
  by_cases hfront : place < (memory.take offset).length
  · rw [List.getElem?_append_left hfront]
    rw [List.length_take] at hfront
    rw [List.getElem?_take, if_pos (by omega), if_neg (by omega)]
  · rw [List.getElem?_append_right (not_lt.1 hfront), getElem?_overwrite, List.getElem?_drop,
      List.length_drop, List.length_take]
    rw [List.length_take] at hfront
    by_cases hlong : memory.length ≤ place
    · rw [if_neg (by omega), if_neg (by omega), List.getElem?_eq_none (by omega),
        List.getElem?_eq_none hlong]
    · rw [Nat.min_eq_left (by omega), show offset + (place - offset) = place by omega]
      by_cases hinside : place - offset < bytes.length
      · rw [if_pos (by omega), if_pos (by omega)]
      · rw [if_neg (by omega), if_neg (by omega)]

theorem getElem?_arrays (memory : List UInt8) (field : Field) (place : ℕ) :
    (layout.arrays memory field)[place]? =
      if place < layout.size then memory[layout.offset field + place]? else none := by
  unfold arrays
  rw [List.getElem?_take]
  split_ifs
  · rw [List.getElem?_drop]
  · rfl

/-- A string that ends in its array is the one that the record has. -/
theorem stringAt_eq {memory : List UInt8} {field : Field} (h : 0 ∈ layout.arrays memory field) :
    layout.stringAt memory field = strings (layout.arrays memory) field := by
  unfold stringAt strings
  obtain ⟨front, back, hsplit⟩ := List.append_of_mem h
  rw [hsplit, ofBuffer_append_nul, ← List.take_append_drop layout.size (memory.drop _)]
  rw [arrays] at hsplit
  rw [hsplit, List.append_assoc, List.cons_append, ofBuffer_append_nul]

theorem Closed.terminated {record : Field → List UInt8} (h : layout.Closed record)
    (field : Field) : 0 ∈ record field :=
  List.mem_of_getElem? (h field).2

theorem Closed.stringAt_eq {memory : List UInt8} (h : layout.Closed (layout.arrays memory)) :
    layout.stringAt memory = strings (layout.arrays memory) :=
  funext fun field ↦ layout.stringAt_eq (h.terminated layout field)

section Write

variable {memory : List UInt8} {write : Write Field}

/-- A write that fits changes its array, and nothing else. -/
theorem arrays_perform [DecidableEq Field] (hlength : layout.total ≤ memory.length)
    (hclosed : layout.Closed (layout.arrays memory))
    (hfits : layout.Fits (layout.arrays memory) write) :
    layout.arrays (layout.perform memory write) = assign (layout.arrays memory) write := by
  unfold Fits at hfits
  funext field
  apply List.ext_getElem?
  intro place
  rw [getElem?_arrays, getElem?_perform, hclosed.stringAt_eq]
  unfold assign
  by_cases hfield : field = write.field
  · have hinside := layout.inside write.field
    rw [hfield, Function.update_self, getElem?_overwrite, (hclosed write.field).1,
      getElem?_arrays, Nat.add_sub_cancel_left]
    by_cases hplace : place < layout.size
    · rw [if_pos hplace, if_pos hplace]
      simp only [Nat.le_add_right, hplace, and_true, true_and,
        show layout.offset write.field + place < memory.length by omega]
    · rw [if_neg hplace, if_neg hplace, if_neg fun h ↦ hplace h.2]
  · rw [Function.update_of_ne hfield, getElem?_arrays]
    by_cases hplace : place < layout.size
    · have hapart := layout.disjoint _ _ hfield
      rw [if_pos hplace, if_pos hplace, if_neg (by omega)]
    · rw [if_neg hplace, if_neg hplace]

/-- A write that fits leaves the bytes behind the block as they are. -/
theorem drop_perform (hclosed : layout.Closed (layout.arrays memory))
    (hfits : layout.Fits (layout.arrays memory) write) :
    (layout.perform memory write).drop layout.total = memory.drop layout.total := by
  unfold Fits at hfits
  have hinside := layout.inside write.field
  apply List.ext_getElem?
  intro place
  rw [List.getElem?_drop, List.getElem?_drop, getElem?_perform, hclosed.stringAt_eq,
    if_neg (by omega)]

theorem Closed.assign [DecidableEq Field] {record : Field → List UInt8} (h : layout.Closed record)
    (hregular : layout.Regular (write.bytes (strings record)))
    (hfits : layout.Fits record write) : layout.Closed (Layout.assign record write) := by
  intro field
  unfold Layout.assign
  by_cases hfield : field = write.field
  · have hsize := layout.size_pos
    rw [hfield, Function.update_self, length_overwrite, getElem?_overwrite]
    refine ⟨(h write.field).1, ?_⟩
    split_ifs with hreached
    · exact hregular.last (by unfold Fits at hfits; omega)
    · exact (h write.field).2
  · rw [Function.update_of_ne hfield]
    exact h field

/-- A write to a later field leaves an array as it is. -/
theorem arrays_perform_of_later {field : Field}
    (h : layout.offset field + layout.size ≤ layout.offset write.field) :
    layout.arrays (layout.perform memory write) field = layout.arrays memory field := by
  apply List.ext_getElem?
  intro place
  rw [getElem?_arrays, getElem?_arrays, getElem?_perform]
  by_cases hplace : place < layout.size
  · rw [if_pos hplace, if_pos hplace, if_neg (by omega)]
  · rw [if_neg hplace, if_neg hplace]

/-- What is too long leaves no NUL in its array. -/
theorem notMem_arrays_perform (hlength : layout.total ≤ memory.length)
    (hclosed : layout.Closed (layout.arrays memory))
    (hregular : layout.Regular (write.bytes (strings (layout.arrays memory))))
    (hfits : ¬layout.Fits (layout.arrays memory) write) :
    0 ∉ layout.arrays (layout.perform memory write) write.field := by
  unfold Fits at hfits
  have hinside := layout.inside write.field
  have harray : layout.arrays (layout.perform memory write) write.field =
      (write.bytes (strings (layout.arrays memory))).take layout.size := by
    apply List.ext_getElem?
    intro place
    rw [getElem?_arrays, getElem?_perform, hclosed.stringAt_eq, List.getElem?_take,
      Nat.add_sub_cancel_left]
    by_cases hplace : place < layout.size
    · rw [if_pos hplace, if_pos hplace, if_pos (by omega)]
    · rw [if_neg hplace, if_neg hplace]
  rw [harray]
  exact hregular.overlong (not_le.1 hfits)

end Write

/-! ## All writes -/

theorem Closed.length_strings_lt {record : Field → List UInt8} (h : layout.Closed record)
    (field : Field) : (strings record field).length < layout.size := by
  rw [← (h field).1]
  exact length_ofBuffer_lt_iff.2 (h.terminated layout field)

/-- What is written is regular, whatever the strings in the arrays are. -/
def RegularWrite (write : Write Field) : Prop :=
  ∀ texts : Field → CString, (∀ field, (texts field).length < layout.size) →
    layout.Regular (write.bytes texts)

/-- What is written is never too long. -/
def Bounded (write : Write Field) : Prop :=
  ∀ texts : Field → CString, (∀ field, (texts field).length < layout.size) →
    (write.bytes texts).length ≤ layout.size

/-- Writes to later fields leave an array as it is. -/
theorem arrays_run_of_later {memory : List UInt8} {writes : List (Write Field)} {field : Field}
    (h : ∀ write ∈ writes, layout.offset field + layout.size ≤ layout.offset write.field) :
    layout.arrays (run layout.perform memory writes) field = layout.arrays memory field := by
  induction writes generalizing memory with
  | nil => rfl
  | cons write rest ih =>
    rw [run_cons, ih fun other hother ↦ h other (List.mem_cons_of_mem _ hother)]
    exact layout.arrays_perform_of_later (h write List.mem_cons_self)

section Run

variable [DecidableEq Field] {memory : List UInt8} {writes : List (Write Field)}

/-- The block refines the record.  As long as everything fits, it holds the arrays. -/
theorem run_of_fits (hlength : layout.total ≤ memory.length)
    (hclosed : layout.Closed (layout.arrays memory))
    (hregular : ∀ write ∈ writes, layout.RegularWrite write)
    (hfits : Along assign layout.Fits (layout.arrays memory) writes) :
    layout.arrays (run layout.perform memory writes) =
        run assign (layout.arrays memory) writes ∧
      layout.Whole memory (run layout.perform memory writes) := by
  induction writes generalizing memory with
  | nil => exact ⟨rfl, hclosed.terminated layout, rfl⟩
  | cons write rest ih =>
    obtain ⟨hfirst, hrest⟩ := hfits
    have harrays := layout.arrays_perform hlength hclosed hfirst
    have hnext := hclosed.assign layout
      (hregular write List.mem_cons_self _ (hclosed.length_strings_lt layout)) hfirst
    rw [← harrays] at hrest hnext
    obtain ⟨hholds, hwhole⟩ := ih (by rw [length_perform]; exact hlength) hnext
      (fun other hother ↦ hregular other (List.mem_cons_of_mem _ hother)) hrest
    refine ⟨?_, hwhole.terminated, hwhole.behind.trans (layout.drop_perform hclosed hfirst)⟩
    rw [run_cons, run_cons, hholds, harrays]

/-- Only then the block stays whole.  What may be too long is followed by writes to arrays behind it
only. -/
theorem whole_run_iff (hlength : layout.total ≤ memory.length)
    (hclosed : layout.Closed (layout.arrays memory))
    (hregular : ∀ write ∈ writes, layout.RegularWrite write)
    (horder : writes.Pairwise fun earlier later ↦ layout.Bounded earlier ∨
      layout.offset earlier.field + layout.size ≤ layout.offset later.field) :
    layout.Whole memory (run layout.perform memory writes) ↔
      Along assign layout.Fits (layout.arrays memory) writes := by
  refine ⟨fun hwhole ↦ ?_, fun hfits ↦ (layout.run_of_fits hlength hclosed hregular hfits).2⟩
  replace hwhole := hwhole.terminated
  induction writes generalizing memory with
  | nil => trivial
  | cons write rest ih =>
    obtain ⟨hlater, horder⟩ := List.pairwise_cons.1 horder
    have hshort := hclosed.length_strings_lt layout
    have hfirst := hregular write List.mem_cons_self _ hshort
    by_cases hfits : layout.Fits (layout.arrays memory) write
    · refine ⟨hfits, ?_⟩
      have harrays := layout.arrays_perform hlength hclosed hfits
      rw [← harrays]
      refine ih (by rw [length_perform]; exact hlength) ?_
        (fun other hother ↦ hregular other (List.mem_cons_of_mem _ hother)) horder hwhole
      rw [harrays]
      exact hclosed.assign layout hfirst hfits
    · -- The array without a NUL is still there at the end.
      have hbehind : ∀ other ∈ rest,
          layout.offset write.field + layout.size ≤ layout.offset other.field :=
        fun other hother ↦ (hlater other hother).resolve_left fun hbounded ↦
          hfits (hbounded _ hshort)
      have hend := hwhole write.field
      rw [run_cons, layout.arrays_run_of_later hbehind] at hend
      exact absurd hend (layout.notMem_arrays_perform hlength hclosed hfirst hfits)

/-- What is never too long fits along every run. -/
theorem along_fits_of_bounded {record : Field → List UInt8} (hclosed : layout.Closed record)
    (hregular : ∀ write ∈ writes, layout.RegularWrite write)
    (hbounded : ∀ write ∈ writes, layout.Bounded write) :
    Along assign layout.Fits record writes := by
  induction writes generalizing record with
  | nil => trivial
  | cons write rest ih =>
    have hshort := hclosed.length_strings_lt layout
    have hfits : layout.Fits record write := hbounded write List.mem_cons_self _ hshort
    refine ⟨hfits, ih (hclosed.assign layout (hregular write List.mem_cons_self _ hshort) hfits)
      (fun other hother ↦ hregular other (List.mem_cons_of_mem _ hother))
      (fun other hother ↦ hbounded other (List.mem_cons_of_mem _ hother))⟩

theorem run_of_bounded (hlength : layout.total ≤ memory.length)
    (hclosed : layout.Closed (layout.arrays memory))
    (hregular : ∀ write ∈ writes, layout.RegularWrite write)
    (hbounded : ∀ write ∈ writes, layout.Bounded write) :
    layout.arrays (run layout.perform memory writes) =
      run assign (layout.arrays memory) writes :=
  (layout.run_of_fits hlength hclosed hregular
    (layout.along_fits_of_bounded hclosed hregular hbounded)).1

/-- Where it does not depend on the strings whether a write fits, what fits along a run is never too
long. -/
theorem bounded_of_along_fits {record : Field → List UInt8} (hclosed : layout.Closed record)
    (hregular : ∀ write ∈ writes, layout.RegularWrite write)
    (hstable : ∀ write ∈ writes, ∀ record, layout.Closed record → layout.Fits record write →
      layout.Bounded write)
    (hfits : Along assign layout.Fits record writes) : ∀ write ∈ writes, layout.Bounded write := by
  induction writes generalizing record with
  | nil => exact nofun
  | cons write rest ih =>
    have hfirst := hregular write List.mem_cons_self _ (hclosed.length_strings_lt layout)
    rw [List.forall_mem_cons]
    exact ⟨hstable write List.mem_cons_self record hclosed hfits.1,
      ih (hclosed.assign layout hfirst hfits.1)
        (fun other hother ↦ hregular other (List.mem_cons_of_mem _ hother))
        (fun other hother ↦ hstable other (List.mem_cons_of_mem _ hother)) hfits.2⟩

/-- The block stays whole exactly when no write is ever too long, where it does not depend on the
strings whether a write fits. -/
theorem whole_run_iff_bounded (hlength : layout.total ≤ memory.length)
    (hclosed : layout.Closed (layout.arrays memory))
    (hregular : ∀ write ∈ writes, layout.RegularWrite write)
    (hstable : ∀ write ∈ writes, ∀ record, layout.Closed record → layout.Fits record write →
      layout.Bounded write)
    (horder : writes.Pairwise fun earlier later ↦ layout.Bounded earlier ∨
      layout.offset earlier.field + layout.size ≤ layout.offset later.field) :
    layout.Whole memory (run layout.perform memory writes) ↔
      ∀ write ∈ writes, layout.Bounded write := by
  rw [layout.whole_run_iff hlength hclosed hregular horder]
  exact ⟨layout.bounded_of_along_fits hclosed hregular hstable,
    layout.along_fits_of_bounded hclosed hregular⟩

end Run

end Layout

end HiFetch
