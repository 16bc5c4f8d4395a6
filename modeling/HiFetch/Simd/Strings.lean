import HiFetch.Library.Simd

/-!
# The vectorised string routines

`fast_string_copy_simd` and `fast_string_compare_simd` have a branch for each instruction set that
they are compiled for, which goes over blocks as long as a register and over the bytes behind them,
and a call of the C library where the processor has none of them.  All branches do the same.
-/

namespace HiFetch.Simd

open HiFetch.Flow

/-! ## The processor -/

/-- A build and the processor that runs it: the instruction sets that the compiler may use, and what
`cpuid` leaves in `ecx` for leaf 1 and in `ebx` for leaf 7. -/
structure Machine where
  sse42Compiled : Bool
  avx2Compiled : Bool
  getCpuid : Option UInt32
  getCpuidCount : Option UInt32

/-- The static variables of the file. -/
structure CpuFeatures where
  cpuFeaturesDetected : Bool
  hasAvx2 : Bool
  hasSse42 : Bool
deriving DecidableEq

def bitSse42 : UInt32 := 0x100000

def bitAvx2 : UInt32 := 0x20

/-- A flag after a question that is asked only where it is compiled, and may have no answer. -/
def detectFlag (compiled : Bool) (answer : Option UInt32) (bit : UInt32) (flag : Bool) : Bool :=
  match compiled, answer with
  | true, some register => register &&& bit != 0
  | _, _ => flag

def detectCpuFeatures (machine : Machine) (features : CpuFeatures) : CpuFeatures :=
  if features.cpuFeaturesDetected then features
  else
    { cpuFeaturesDetected := true
      hasSse42 := detectFlag machine.sse42Compiled machine.getCpuid bitSse42 features.hasSse42
      hasAvx2 := detectFlag machine.avx2Compiled machine.getCpuidCount bitAvx2 features.hasAvx2 }

/-! ## The routines -/

def memcpy (dest src : List UInt8) (len : ℕ) : Flow (List UInt8) (List UInt8) := do
  let bytes ← loadBytes src 0 len
  storeBytes dest 0 bytes

/-- The difference of the first bytes that differ. -/
def memcmp : List UInt8 → List UInt8 → ℤ
  | byte :: first, other :: second =>
      if byte = other then memcmp first second else byte.toNat - other.toNat
  | _, _ => 0

/-- The blocks of a copy, and the bytes behind them. -/
def copyBlocks (lanes : ℕ) (simdLen len : UInt64) (dest src : List UInt8) :
    Flow (List UInt8) (List UInt8) := do
  let dest ← loop 0 simdLen.toNat lanes dest fun i dest ↦ do
    let data ← loadu lanes src i
    storeu dest i data
  loop simdLen.toNat len.toNat 1 dest fun i dest ↦ do
    let byte ← load src i
    store dest i byte

/-- The branches of `fast_string_copy_simd`. -/
def copyBranches (machine : Machine) (features : CpuFeatures) (dest src : List UInt8)
    (len : UInt64) : Flow (List UInt8) (List UInt8) :=
  if machine.avx2Compiled && features.hasAvx2 && 32 ≤ len then
    copyBlocks 32 (len &&& ~~~31) len dest src
  else if machine.sse42Compiled && features.hasSse42 && 16 ≤ len then
    copyBlocks 16 (len &&& ~~~15) len dest src
  else memcpy dest src len.toNat

/-- `fast_string_copy_simd`: the bytes of `dest`, or nothing where a buffer is too short. -/
def fastStringCopySimd (machine : Machine) (features : CpuFeatures) (dest src : List UInt8)
    (len : UInt64) : CpuFeatures × Option (List UInt8) :=
  let features := detectCpuFeatures machine features
  (features, run do
    let dest ← copyBranches machine features dest src len
    store dest len.toNat 0)

/-- A round of `fast_string_compare_simd` with registers. -/
def compareRegisters (str1 str2 : List UInt8) (i : ℕ) : Flow ℤ Unit := do
  let a ← loadu 32 str1 i
  let b ← loadu 32 str2 i
  let mask := movemask (cmpeq a b)
  if mask ≠ -1 then .exit 0 else .next ()

/-- A round of its tail. -/
def compareTail (str1 str2 : List UInt8) (i : ℕ) : Flow ℤ Unit := do
  let first ← load str1 i
  let second ← load str2 i
  if first ≠ second then .exit 0 else .next ()

/-- Its branch with registers. -/
def compareBlocks (str1 str2 : List UInt8) (len : UInt64) : Flow ℤ ℤ := do
  let simdLen := len &&& ~~~31
  loop 0 simdLen.toNat 32 () fun i _ ↦ compareRegisters str1 str2 i
  loop simdLen.toNat len.toNat 1 () fun i _ ↦ compareTail str1 str2 i
  return 1

/-- The branch with `memcmp`. -/
def compareBytes (str1 str2 : List UInt8) (len : UInt64) : Flow ℤ ℤ := do
  let first ← loadBytes str1 0 len.toNat
  let second ← loadBytes str2 0 len.toNat
  return if memcmp first second = 0 then 1 else 0

/-- `fast_string_compare_simd` -/
def fastStringCompareSimd (machine : Machine) (features : CpuFeatures) (str1 str2 : List UInt8)
    (len : UInt64) : CpuFeatures × Option ℤ :=
  let features := detectCpuFeatures machine features
  (features, run
    (if machine.avx2Compiled && features.hasAvx2 && 32 ≤ len then compareBlocks str1 str2 len
    else compareBytes str1 str2 len))

/-! ## Copies -/

section Copies

variable {dest src : List UInt8} {len : UInt64}

/-- A register carries a part of a buffer over. -/
theorem loadu_bind_storeu {ρ : Type} {lanes i : ℕ} (h : i + lanes ≤ src.length) :
    (loadu lanes src i >>= fun data ↦ (storeu dest i data : Flow ρ (List UInt8))) =
      storeBytes dest i ((src.drop i).take lanes) := by
  obtain ⟨data, hload, hdata⟩ := @exists_loadu ρ lanes src i h
  rw [hload, ← hdata.ofFn_eq]
  rfl

theorem load_bind_store {ρ : Type} {i : ℕ} (h : i < src.length) :
    (load src i >>= fun byte ↦ (store dest i byte : Flow ρ (List UInt8))) =
      storeBytes dest i ((src.drop i).take 1) := by
  rw [load_eq h, ← List.getElem_cons_drop h]
  rfl

/-- All the branches leave the bytes of the source before those that `dest` has had. -/
theorem copyBlocks_eq {lanes : ℕ} {simdLen : UInt64} (hlanes : 0 < lanes)
    (hsimd : simdLen.toNat = len.toNat / lanes * lanes) (hsrc : len.toNat ≤ src.length)
    (hdest : len.toNat ≤ dest.length) :
    copyBlocks lanes simdLen len dest src =
      .next (src.take len.toNat ++ dest.drop len.toNat) := by
  have hle : simdLen.toNat ≤ len.toNat := by
    rw [hsimd]
    exact Nat.div_mul_le_self _ _
  have hdvd : lanes ∣ simdLen.toNat - 0 := by
    rw [hsimd, Nat.sub_zero]
    exact Nat.dvd_mul_left _ _
  have hblocks := @loop_fill (List UInt8) src dest 0 simdLen.toNat lanes
    (fun i dest ↦ loadu lanes src i >>= fun data ↦ storeu dest i data) hlanes (Nat.zero_le _) hdvd
    (by omega) (by omega) (fun i dest hi ↦ loadu_bind_storeu (by omega))
  have hbytes := @loop_fill (List UInt8) src dest simdLen.toNat len.toNat 1
    (fun i dest ↦ load src i >>= fun byte ↦ store dest i byte) Nat.one_pos hle (Nat.one_dvd _) hsrc
    hdest (fun i dest hi ↦ load_bind_store (by omega))
  unfold copyBlocks
  rw [List.take_zero, List.nil_append, List.drop_zero] at hblocks
  rw [hblocks]
  exact hbytes

theorem memcpy_eq (hsrc : len.toNat ≤ src.length) (hdest : len.toNat ≤ dest.length) :
    memcpy dest src len.toNat = .next (src.take len.toNat ++ dest.drop len.toNat) := by
  have hlength : (src.take len.toNat).length = len.toNat := List.length_take_of_le hsrc
  have hstore := @storeBytes_append (List UInt8) [] dest (src.take len.toNat) (by omega)
  rw [hlength] at hstore
  unfold memcpy
  rw [loadBytes_eq (by omega)]
  exact hstore

theorem copyBranches_eq (machine : Machine) (features : CpuFeatures)
    (hsrc : len.toNat ≤ src.length) (hdest : len.toNat ≤ dest.length) :
    copyBranches machine features dest src len =
      .next (src.take len.toNat ++ dest.drop len.toNat) := by
  unfold copyBranches
  split_ifs
  · exact copyBlocks_eq (by omega) (toNat_and_not_size len 5) hsrc hdest
  · exact copyBlocks_eq (by omega) (toNat_and_not_size len 4) hsrc hdest
  · exact memcpy_eq hsrc hdest

theorem fastStringCopySimd_eq (machine : Machine) (features : CpuFeatures)
    (hsrc : len.toNat ≤ src.length) (hdest : len.toNat < dest.length) :
    (fastStringCopySimd machine features dest src len).2 =
      some (src.take len.toNat ++ 0 :: dest.drop (len.toNat + 1)) := by
  have hlength : (src.take len.toNat).length = len.toNat := List.length_take_of_le hsrc
  have hstore := @storeBytes_append (List UInt8) (src.take len.toNat) (dest.drop len.toNat) [0] (by
    rw [List.length_drop, List.length_singleton]
    omega)
  rw [hlength, List.drop_drop] at hstore
  unfold fastStringCopySimd
  dsimp only
  rw [copyBranches_eq machine (detectCpuFeatures machine features) hsrc (Nat.le_of_lt hdest)]
  exact congrArg run hstore

end Copies

/-! ## Comparisons -/

section Comparisons

variable {str1 str2 : List UInt8} {len : UInt64}

theorem memcmp_eq_zero_iff {first second : List UInt8} (h : first.length = second.length) :
    memcmp first second = 0 ↔ first = second := by
  induction first generalizing second with
  | nil => simp [memcmp, List.eq_nil_of_length_eq_zero h.symm]
  | cons byte first ih =>
    cases second with
    | nil => cases h
    | cons other second =>
      have hlength : first.length = second.length := Nat.succ.inj h
      unfold memcmp
      split_ifs with hbyte
      · rw [ih hlength, hbyte, List.cons.injEq]
        simp
      · have hvalue : byte.toNat ≠ other.toNat := fun heq ↦ hbyte (UInt8.toNat_inj.1 heq)
        refine iff_of_false (by omega) fun heq ↦ hbyte (List.cons.inj heq).1

/-- Two texts agree a part further where they agree so far and in the part. -/
theorem take_add_eq_iff {first second : List UInt8} {i width : ℕ}
    (h : first.take i = second.take i) :
    first.take (i + width) = second.take (i + width) ↔
      (first.drop i).take width = (second.drop i).take width := by
  rw [List.take_add, List.take_add, h, List.append_cancel_left_eq]

/-- A loop whose rounds compare parts of two texts goes on behind parts that agree, and it returns 0
where the texts differ. -/
theorem loop_compare {count start limit width : ℕ} {round : ℕ → Unit → Flow ℤ Unit}
    (hwidth : 0 < width) (hle : start ≤ limit) (hdvd : width ∣ limit - start)
    (hlimit : limit ≤ count)
    (hround : ∀ i, i + width ≤ limit → round i () =
      if (str1.drop i).take width = (str2.drop i).take width then .next () else .exit 0)
    (hstart : str1.take start = str2.take start) :
    (loop start limit width () round).Ensures (fun _ ↦ str1.take limit = str2.take limit)
      fun result ↦ result = 0 ∧ str1.take count ≠ str2.take count := by
  refine loop_ensures (fun i _ ↦ str1.take i = str2.take i) hwidth hle hdvd ?_ hstart
  rintro i ⟨⟩ - hi hequal
  rw [hround i hi]
  split_ifs with hpart
  · exact (take_add_eq_iff hequal).2 hpart
  · refine ⟨rfl, fun hall ↦ hpart ((take_add_eq_iff hequal).1 ?_)⟩
    have hprefix := congrArg (List.take (i + width)) hall
    rwa [List.take_take, List.take_take, Nat.min_eq_left (by omega)] at hprefix

theorem compareRegisters_eq {i : ℕ} (hfirst : i + 32 ≤ str1.length)
    (hsecond : i + 32 ≤ str2.length) :
    compareRegisters str1 str2 i =
      if (str1.drop i).take 32 = (str2.drop i).take 32 then .next () else .exit 0 := by
  obtain ⟨a, hload, ha⟩ := @exists_loadu ℤ 32 str1 i hfirst
  obtain ⟨b, hload', hb⟩ := @exists_loadu ℤ 32 str2 i hsecond
  unfold compareRegisters
  rw [hload, hload']
  change (if movemask (cmpeq a b) ≠ -1 then Flow.exit 0 else Flow.next ()) = _
  simp only [ne_eq, ite_not, movemask_cmpeq_eq_neg_one_iff, ha.eq_iff hb]

theorem compareTail_eq {i : ℕ} (hfirst : i + 1 ≤ str1.length) (hsecond : i + 1 ≤ str2.length) :
    compareTail str1 str2 i =
      if (str1.drop i).take 1 = (str2.drop i).take 1 then .next () else .exit 0 := by
  unfold compareTail
  rw [load_eq hfirst, load_eq hsecond, ← List.getElem_cons_drop hfirst,
    ← List.getElem_cons_drop hsecond]
  change (if str1[i] ≠ str2[i] then Flow.exit 0 else Flow.next ()) =
    if [str1[i]] = [str2[i]] then Flow.next () else Flow.exit 0
  simp only [ne_eq, ite_not, List.singleton_inj]

/-- The blocks and the tail compare as much as `memcmp`. -/
theorem compareBlocks_eq (hfirst : len.toNat ≤ str1.length) (hsecond : len.toNat ≤ str2.length) :
    run (compareBlocks str1 str2 len) =
      some (if str1.take len.toNat = str2.take len.toNat then 1 else 0) := by
  have hsimd : (len &&& ~~~31).toNat = len.toNat / 32 * 32 := toNat_and_not_size len 5
  have hle : len.toNat / 32 * 32 ≤ len.toNat := Nat.div_mul_le_self _ _
  have hreturn : ∀ result : ℤ, result = 0 ∧ str1.take len.toNat ≠ str2.take len.toNat →
      result = if str1.take len.toNat = str2.take len.toNat then 1 else 0 := by
    rintro result ⟨rfl, hdiffer⟩
    rw [if_neg hdiffer]
  apply Ensures.run_eq
  unfold compareBlocks
  dsimp only
  rw [hsimd]
  refine Ensures.mono ?_ (fun _ ↦ id) hreturn
  have hblocks := @loop_compare str1 str2 len.toNat 0 (len.toNat / 32 * 32) 32
    (fun i _ ↦ compareRegisters str1 str2 i) (by omega) (Nat.zero_le _) (Nat.dvd_mul_left _ _) hle
    (fun i hi ↦ compareRegisters_eq (by omega) (by omega)) rfl
  refine hblocks.bind fun _ hequal ↦ ?_
  have htail := @loop_compare str1 str2 len.toNat (len.toNat / 32 * 32) len.toNat 1
    (fun i _ ↦ compareTail str1 str2 i) Nat.one_pos hle (Nat.one_dvd _) (Nat.le_refl _)
    (fun i hi ↦ compareTail_eq (by omega) (by omega)) hequal
  refine htail.bind fun _ hequal ↦ ?_
  exact (if_pos hequal).symm

theorem compareBytes_eq (hfirst : len.toNat ≤ str1.length) (hsecond : len.toNat ≤ str2.length) :
    run (compareBytes str1 str2 len) =
      some (if str1.take len.toNat = str2.take len.toNat then 1 else 0) := by
  have hlength : (str1.take len.toNat).length = (str2.take len.toNat).length := by
    rw [List.length_take_of_le hfirst, List.length_take_of_le hsecond]
  unfold compareBytes
  rw [loadBytes_eq (by omega), loadBytes_eq (by omega), List.drop_zero, List.drop_zero]
  change some (if memcmp _ _ = 0 then (1 : ℤ) else 0) = _
  simp only [memcmp_eq_zero_iff hlength]

theorem fastStringCompareSimd_eq (machine : Machine) (features : CpuFeatures)
    (hfirst : len.toNat ≤ str1.length) (hsecond : len.toNat ≤ str2.length) :
    (fastStringCompareSimd machine features str1 str2 len).2 =
      some (if str1.take len.toNat = str2.take len.toNat then 1 else 0) := by
  unfold fastStringCompareSimd
  dsimp only
  rw [apply_ite run, compareBlocks_eq hfirst hsecond, compareBytes_eq hfirst hsecond, ite_self]

end Comparisons

/-! ## Agreement -/

/-- For every build, every processor and every state of the static variables, the copy leaves the
bytes of the source and a NUL before the other bytes of its destination, and the comparison gives 1
where the bytes agree and 0 elsewhere. -/
theorem fastString_agree (machine : Machine) (features : CpuFeatures)
    (dest src str1 str2 : List UInt8) (len : UInt64) (hsrc : len.toNat ≤ src.length)
    (hdest : len.toNat < dest.length) (hfirst : len.toNat ≤ str1.length)
    (hsecond : len.toNat ≤ str2.length) :
    (fastStringCopySimd machine features dest src len).2 =
        some (src.take len.toNat ++ 0 :: dest.drop (len.toNat + 1)) ∧
      (fastStringCompareSimd machine features str1 str2 len).2 =
        some (if str1.take len.toNat = str2.take len.toNat then 1 else 0) :=
  ⟨fastStringCopySimd_eq machine features hsrc hdest,
    fastStringCompareSimd_eq machine features hfirst hsecond⟩

/-- A processor with AVX2, one block and one byte behind it, and strings that differ in the byte. -/
theorem fastString_agree_block :
    (fastStringCopySimd ⟨true, true, some 0x100000, some 0x20⟩ ⟨false, false, false⟩
        (List.replicate 35 7) (List.replicate 33 97) 33).2 =
        some (List.replicate 33 97 ++ [0, 7]) ∧
      (fastStringCompareSimd ⟨true, true, some 0x100000, some 0x20⟩ ⟨false, false, false⟩
        (List.replicate 33 97) (List.replicate 32 97 ++ [98]) 33).2 = some 0 :=
  fastString_agree ⟨true, true, some 0x100000, some 0x20⟩ ⟨false, false, false⟩
    (List.replicate 35 7) (List.replicate 33 97) (List.replicate 33 97)
    (List.replicate 32 97 ++ [98]) 33 (by decide) (by decide) (by decide) (by decide)

end HiFetch.Simd
