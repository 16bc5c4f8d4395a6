import HiFetch.Ascii.InfoLines
import HiFetch.Library.Simd

/-!
# The bytes of the separator

`fast_memset_dashes` sets the start of a buffer to dashes: the short ones one by one, and the others
in words of eight bytes with a tail.  Both ways leave the same bytes.
-/

namespace HiFetch.Ascii.Separator

open CString HiFetch.Flow Simd Sysinfo

/-- The bytes of a word in memory, the lowest one first. -/
def wordBytes (word : UInt64) : List UInt8 :=
  (List.range 8).map fun index ↦ (word >>> UInt64.ofNat (8 * index)).toUInt8

def dashPattern : UInt64 := 0x2d2d2d2d2d2d2d2d

/-- The branch of `fast_memset_dashes` with words. -/
def dashWords (separator : List UInt8) (len : Int32) : Option (List UInt8) := Flow.run do
  let simdLen := len &&& ~~~7
  let separator ← loop 0 simdLen.toNatClampNeg 8 separator fun i separator ↦
    storeBytes separator i (wordBytes dashPattern)
  loop simdLen.toNatClampNeg len.toNatClampNeg 1 separator fun i separator ↦
    store separator i 45

/-- The branch with single bytes. -/
def dashBytes (separator : List UInt8) (len : Int32) : Option (List UInt8) := Flow.run do
  loop 0 len.toNatClampNeg 1 separator fun i separator ↦ store separator i 45

/-- `fast_memset_dashes`: the bytes of the separator, or nothing where it leaves them. -/
def fastMemsetDashes (separator : List UInt8) (len : Int32) : Option (List UInt8) :=
  if 8 ≤ len then dashWords separator len else dashBytes separator len

/-- The first bytes are dashes, and the others are as they were. -/
def dashed (separator : List UInt8) (count : ℕ) : List UInt8 :=
  List.replicate count 45 ++ separator.drop count

theorem wordBytes_dashPattern : wordBytes dashPattern = List.replicate 8 45 := by decide

/-- A round that stores dashes stores a part of the dashes. -/
theorem take_drop_dashes {i width count : ℕ} (h : i + width ≤ count) :
    ((List.replicate count (45 : UInt8)).drop i).take width = List.replicate width 45 := by
  rw [List.drop_replicate, List.take_replicate, Nat.min_eq_left (by omega)]

/-- Loops of dashes, one behind the other. -/
theorem loop_dashes {separator bytes : List UInt8} {start limit width : ℕ}
    (hbytes : bytes = List.replicate width 45) (hwidth : 0 < width) (hle : start ≤ limit)
    (hdvd : width ∣ limit - start) (hroom : limit ≤ separator.length) :
    loop start limit width (dashed separator start) (fun i separator ↦
        storeBytes separator i bytes) =
      (.next (dashed separator limit) : Flow (List UInt8) (List UInt8)) := by
  have htake : ∀ count ≤ limit, (List.replicate limit (45 : UInt8)).take count =
      List.replicate count 45 := fun count hcount ↦ by
    rw [List.take_replicate, Nat.min_eq_left hcount]
  have hfill := @loop_fill (List UInt8) (List.replicate limit 45) separator start limit width
    (fun i separator ↦ storeBytes separator i bytes) hwidth hle hdvd
    (by rw [List.length_replicate]) hroom
    (fun i dest hi ↦ by rw [take_drop_dashes hi, hbytes])
  rwa [htake start hle, htake limit (Nat.le_refl _)] at hfill

/-- The branch with single bytes sets the dashes. -/
theorem dashBytes_eq {separator : List UInt8} {len : Int32}
    (hroom : len.toNatClampNeg ≤ separator.length) :
    dashBytes separator len = some (dashed separator len.toNatClampNeg) := by
  have hloop := @loop_dashes separator [45] 0 len.toNatClampNeg 1 rfl Nat.one_pos (Nat.zero_le _)
    (Nat.one_dvd _) hroom
  exact congrArg run hloop

/-- The branch with words sets the dashes: the words up to a multiple of eight, and the tail behind
them. -/
theorem dashWords_eq {separator : List UInt8} {len : Int32} (hlen : 0 ≤ len.toInt)
    (hroom : len.toNatClampNeg ≤ separator.length) :
    dashWords separator len = some (dashed separator len.toNatClampNeg) := by
  have hsimd : (len &&& ~~~7).toNatClampNeg = len.toNatClampNeg / 8 * 8 :=
    toNatClampNeg_and_not hlen 3
  have hle : len.toNatClampNeg / 8 * 8 ≤ len.toNatClampNeg := Nat.div_mul_le_self _ _
  have hwords := @loop_dashes separator (wordBytes dashPattern) 0 (len.toNatClampNeg / 8 * 8) 8
    wordBytes_dashPattern (by omega) (Nat.zero_le _) (Nat.dvd_mul_left 8 _) (by omega)
  have htail := @loop_dashes separator [45] (len.toNatClampNeg / 8 * 8) len.toNatClampNeg 1 rfl
    Nat.one_pos hle (Nat.one_dvd _) hroom
  have hstart : dashed separator 0 = separator := rfl
  rw [hstart] at hwords
  unfold dashWords
  simp only [hsimd]
  calc
    run (loop 0 (len.toNatClampNeg / 8 * 8) 8 separator (fun i separator ↦
          storeBytes separator i (wordBytes dashPattern)) >>= fun separator ↦
        loop (len.toNatClampNeg / 8 * 8) len.toNatClampNeg 1 separator fun i separator ↦
          store separator i 45)
      = run (loop (len.toNatClampNeg / 8 * 8) len.toNatClampNeg 1
          (dashed separator (len.toNatClampNeg / 8 * 8)) fun i separator ↦
            store separator i 45) := by rw [hwords]; rfl
    _ = some (dashed separator len.toNatClampNeg) := congrArg run htail

theorem fastMemsetDashes_eq {separator : List UInt8} {len : Int32} (hlen : 0 ≤ len.toInt)
    (hroom : len.toNatClampNeg ≤ separator.length) :
    fastMemsetDashes separator len = some (dashed separator len.toNatClampNeg) := by
  unfold fastMemsetDashes
  split_ifs
  · exact dashWords_eq hlen hroom
  · exact dashBytes_eq hroom

/-- For a length that is not negative and a buffer with that many bytes, `fast_memset_dashes` sets
the bytes before the length to dashes and leaves the others, and so do both of its branches. -/
theorem fastMemsetDashes_dashed (separator : List UInt8) (len : Int32) (hlen : 0 ≤ len.toInt)
    (hroom : len.toNatClampNeg ≤ separator.length) :
    fastMemsetDashes separator len = some (dashed separator len.toNatClampNeg) ∧
      dashWords separator len = some (dashed separator len.toNatClampNeg) ∧
      dashBytes separator len = some (dashed separator len.toNatClampNeg) :=
  ⟨fastMemsetDashes_eq hlen hroom, dashWords_eq hlen hroom, dashBytes_eq hroom⟩

/-- Eleven dashes in thirteen bytes: one word and three single bytes. -/
theorem fastMemsetDashes_dashed_eleven :
    fastMemsetDashes (List.replicate 13 7) 11 =
      some (List.replicate 11 45 ++ List.replicate 2 7) :=
  (fastMemsetDashes_dashed (List.replicate 13 7) 11 (by decide) (by decide)).1

/-! ## The separator of `display_system_info` -/

end HiFetch.Ascii.Separator
