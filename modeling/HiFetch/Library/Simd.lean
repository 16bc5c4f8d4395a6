import HiFetch.Library.Flow
import Mathlib.Algebra.Ring.Nat
import Mathlib.Data.List.OfFn

/-!
# Registers of bytes

A register has as many lanes as it has bytes.  A comparison sets a lane to all ones or to zero, and
a mask collects the highest bits of the lanes in a number.  A length is rounded down to a multiple
of the number of lanes by clearing its low bits.
-/

namespace HiFetch.Simd

/-! ## Lengths -/

/-- Clearing the low bits rounds down. -/
theorem toNat_and_not {width : ℕ} (number : BitVec width) (bits : ℕ) :
    (number &&& ~~~BitVec.ofNat width (2 ^ bits - 1)).toNat =
      number.toNat / 2 ^ bits * 2 ^ bits := by
  apply Nat.eq_of_testBit_eq
  intro i
  rw [BitVec.testBit_toNat, BitVec.getLsbD_and, BitVec.getLsbD_not, BitVec.getLsbD_ofNat,
    Nat.testBit_two_pow_sub_one, Nat.testBit_mul_two_pow, Nat.testBit_div_two_pow,
    BitVec.testBit_toNat]
  rcases Nat.lt_or_ge i width with hinside | houtside
  · rcases Nat.lt_or_ge i bits with hlow | hhigh
    · simp [hinside, hlow, Nat.not_le.2 hlow]
    · rw [Nat.sub_add_cancel hhigh]
      simp [hinside, hhigh, Nat.not_lt.2 hhigh]
  · have hzero : number.getLsbD i = false := BitVec.getLsbD_of_ge _ _ houtside
    rcases Nat.lt_or_ge i bits with hlow | hhigh
    · simp [hzero, Nat.not_le.2 hlow]
    · rw [Nat.sub_add_cancel hhigh]
      simp [hzero]

theorem toNat_and_not_size (number : UInt64) (bits : ℕ) :
    (number &&& ~~~UInt64.ofNat (2 ^ bits - 1)).toNat = number.toNat / 2 ^ bits * 2 ^ bits :=
  toNat_and_not number.toBitVec bits

theorem toNatClampNeg_eq {number : Int32} (h : number.toBitVec.toNat < 2 ^ 31) :
    number.toNatClampNeg = number.toBitVec.toNat := by
  have hvalue : number.toInt = number.toBitVec.toNat :=
    BitVec.toInt_eq_toNat_of_lt (by omega)
  rw [← Int32.toNat_toInt, hvalue, Int.toNat_natCast]

/-- The same for a signed number that is not negative. -/
theorem toNatClampNeg_and_not {number : Int32} (h : 0 ≤ number.toInt) (bits : ℕ) :
    (number &&& ~~~Int32.ofNat (2 ^ bits - 1)).toNatClampNeg =
      number.toNatClampNeg / 2 ^ bits * 2 ^ bits := by
  have hrounded : (number &&& ~~~Int32.ofNat (2 ^ bits - 1)).toBitVec.toNat =
      number.toBitVec.toNat / 2 ^ bits * 2 ^ bits := toNat_and_not number.toBitVec bits
  have hle := Nat.div_mul_le_self number.toBitVec.toNat (2 ^ bits)
  have hlt : number.toBitVec.toNat < 2 ^ 31 := by
    rw [← Int32.toInt_toBitVec, BitVec.toInt_eq_toNat_cond] at h
    split_ifs at h with hsmall <;> omega
  rw [toNatClampNeg_eq hlt, toNatClampNeg_eq (by omega), hrounded]

/-! ## Registers -/

abbrev Register (lanes : ℕ) := Fin lanes → UInt8

variable {ρ : Type} {lanes : ℕ}

/-- A load into the lanes, without alignment. -/
def loadu (lanes : ℕ) (buffer : List UInt8) (i : ℕ) : Flow ρ (Register lanes) :=
  if h : i + lanes ≤ buffer.length then
    .next fun lane ↦ buffer.get ⟨i + lane, Nat.lt_of_lt_of_le (Nat.add_lt_add_left lane.isLt i) h⟩
  else .undefined

def storeu (buffer : List UInt8) (i : ℕ) (data : Register lanes) : Flow ρ (List UInt8) :=
  Flow.storeBytes buffer i (List.ofFn data)

/-- The same byte in all lanes. -/
def set1 (byte : UInt8) : Register lanes := fun _ ↦ byte

/-- All ones in the lanes where both registers agree. -/
def cmpeq (first second : Register lanes) : Register lanes :=
  fun lane ↦ if first lane = second lane then 0xff else 0

def orLanes (first second : Register lanes) : Register lanes :=
  fun lane ↦ first lane ||| second lane

/-- The highest bits of the lanes, the lowest lane first. -/
def movemask (data : Register lanes) : Int32 :=
  Int32.ofBitVec
    ((BitVec.ofBoolListLE (List.ofFn fun lane ↦ (data lane).toBitVec.msb)).setWidth 32)

/-- A register with the bytes at a place of a buffer. -/
def Holds (data : Register lanes) (buffer : List UInt8) (i : ℕ) : Prop :=
  ∀ lane : Fin lanes, buffer[i + lane]? = some (data lane)

theorem exists_loadu {buffer : List UInt8} {i : ℕ} (h : i + lanes ≤ buffer.length) :
    ∃ data, (loadu lanes buffer i : Flow ρ (Register lanes)) = .next data ∧
      Holds data buffer i :=
  ⟨_, dif_pos h, fun _ ↦ List.getElem?_eq_getElem _⟩

theorem Holds.ofFn_eq {data : Register lanes} {buffer : List UInt8} {i : ℕ}
    (h : Holds data buffer i) : List.ofFn data = (buffer.drop i).take lanes := by
  apply List.ext_getElem?
  intro index
  rw [List.getElem?_ofFn, List.getElem?_take, List.getElem?_drop]
  split_ifs with hindex
  · exact (h ⟨index, hindex⟩).symm
  · rfl

/-- Two registers with the same lanes hold the same bytes. -/
theorem Holds.eq_iff {first second : Register lanes} {left right : List UInt8} {i : ℕ}
    (hfirst : Holds first left i) (hsecond : Holds second right i) :
    first = second ↔ (left.drop i).take lanes = (right.drop i).take lanes := by
  rw [← hfirst.ofFn_eq, ← hsecond.ofFn_eq, List.ofFn_inj]

/-! ## Masks -/

theorem getLsbD_movemask (data : Register lanes) {lane : Fin lanes} (h : lanes ≤ 32) :
    (movemask data).toBitVec.getLsbD lane = (data lane).toBitVec.msb := by
  have hlane : (lane : ℕ) < 32 := Nat.lt_of_lt_of_le lane.isLt h
  rw [movemask, Int32.toBitVec_ofBitVec, BitVec.getLsbD_setWidth, BitVec.getLsbD_ofBoolListLE,
    List.getD_eq_getElem?_getD, List.getElem?_ofFn]
  simp [hlane]

theorem msb_cmpeq (first second : Register lanes) (lane : Fin lanes) :
    (cmpeq first second lane).toBitVec.msb = decide (first lane = second lane) := by
  unfold cmpeq
  split_ifs with h
  · rw [decide_eq_true h]
    rfl
  · rw [decide_eq_false h]
    rfl

theorem msb_orLanes (first second : Register lanes) (lane : Fin lanes) :
    (orLanes first second lane).toBitVec.msb =
      ((first lane).toBitVec.msb || (second lane).toBitVec.msb) := by
  rw [orLanes, UInt8.toBitVec_or, BitVec.msb_or]

/-- With a bit for each of 32 lanes, the mask is all ones where the registers agree. -/
theorem movemask_cmpeq_eq_neg_one_iff {first second : Register 32} :
    movemask (cmpeq first second) = -1 ↔ first = second := by
  have hbit : ∀ lane : Fin 32, (movemask (cmpeq first second)).toBitVec.getLsbD lane =
      decide (first lane = second lane) := fun lane ↦ by
    rw [getLsbD_movemask _ (Nat.le_refl 32), msb_cmpeq]
  have hones : ∀ lane : Fin 32, (-1 : Int32).toBitVec.getLsbD lane = true := by decide
  constructor
  · intro h
    funext lane
    have hlane := hbit lane
    rw [h, hones lane] at hlane
    exact of_decide_eq_true hlane.symm
  · rintro rfl
    apply Int32.toBitVec_inj.1
    apply BitVec.eq_of_getLsbD_eq
    intro i hi
    have hlane := hbit ⟨i, hi⟩
    rw [decide_eq_true rfl] at hlane
    exact hlane.trans (hones ⟨i, hi⟩).symm

/-- A test of one bit of a mask. -/
theorem and_shiftLeft_ne_zero_iff {mask : Int32} (j : Fin 16) :
    mask &&& (1 <<< Int32.ofNat j) ≠ 0 ↔ mask.toBitVec.getLsbD j = true := by
  have hpower : ∀ j : Fin 16, ((1 : Int32) <<< Int32.ofNat j).toBitVec = BitVec.twoPow 32 j := by
    decide
  have hnonzero : ∀ j : Fin 16, BitVec.twoPow 32 j ≠ 0#32 := by decide
  rw [ne_eq, ← Int32.toBitVec_inj, Int32.toBitVec_and, hpower, BitVec.and_twoPow]
  cases mask.toBitVec.getLsbD j with
  | false => simp
  | true => simpa using hnonzero j

end HiFetch.Simd
