import HiFetch.Simd.Strings

/-!
# Cutting at a newline

`parallel_string_processing` looks for a newline in blocks of 16 bytes and puts a NUL in its place.
Unlike the copy and the comparison it has no loop for the bytes behind the last block, and it does
nothing where it is compiled without SSE4.2 or runs without it.
-/

namespace HiFetch.Simd

open HiFetch.Flow

/-- The lanes of a mask, one after the other: a newline at a marked lane is replaced. -/
def scanMask (mask : Int32) (buffer : List UInt8) (i : ℕ) : Flow (List UInt8) (List UInt8) :=
  loop 0 16 1 buffer fun j buffer ↦
    if mask &&& (1 <<< Int32.ofNat j) ≠ 0 then do
      let byte ← load buffer (i + j)
      if byte = 10 then do
        let buffer ← store buffer (i + j) 0
        .exit buffer
      else .next buffer
    else .next buffer

/-- The newlines, spaces and tabs of a register. -/
def whitespace (data : Register 16) : Register 16 :=
  let nlMask := cmpeq data (set1 10)
  let spMask := cmpeq data (set1 32)
  let tbMask := cmpeq data (set1 9)
  orLanes (orLanes nlMask spMask) tbMask

/-- A block of `parallel_string_processing`. -/
def scanBlock (buffer : List UInt8) (i : ℕ) : Flow (List UInt8) (List UInt8) := do
  let data ← loadu 16 buffer i
  let mask := movemask (whitespace data)
  if mask ≠ 0 then scanMask mask buffer i else .next buffer

/-- `parallel_string_processing`: the bytes of the buffer. -/
def parallelStringProcessing (machine : Machine) (features : CpuFeatures) (buffer : List UInt8)
    (size : UInt64) : CpuFeatures × Option (List UInt8) :=
  let features := detectCpuFeatures machine features
  (features,
    if machine.sse42Compiled && features.hasSse42 then
      run (loop 0 (size &&& ~~~15).toNat 16 buffer fun i buffer ↦ scanBlock buffer i)
    else some buffer)

/-- The first newline before `size` is replaced with a NUL. -/
def cutNewline (buffer : List UInt8) (size : ℕ) : List UInt8 :=
  if 10 ∈ buffer.take size then buffer.set (buffer.idxOf 10) 0 else buffer

/-! ## One block -/

variable {buffer : List UInt8}

theorem store_eq_set {ρ : Type} {i : ℕ} {byte : UInt8} (h : i < buffer.length) :
    (store buffer i byte : Flow ρ (List UInt8)) = .next (buffer.set i byte) := by
  rw [List.set_eq_take_append_cons_drop, if_pos h]
  exact if_pos h

theorem notMem_take_succ_iff {i : ℕ} (h : i < buffer.length) (hbefore : 10 ∉ buffer.take i) :
    10 ∉ buffer.take (i + 1) ↔ buffer[i] ≠ 10 := by
  rw [← List.take_append_getElem h, List.mem_append, List.mem_singleton]
  exact ⟨fun hnone heq ↦ hnone (Or.inr heq.symm), fun hne hmem ↦
    hmem.elim hbefore fun heq ↦ hne heq.symm⟩

/-- A newline with none before it is the first one. -/
theorem idxOf_eq {i : ℕ} (h : i < buffer.length) (hbefore : 10 ∉ buffer.take i)
    (hbyte : buffer[i] = 10) : buffer.idxOf 10 = i := by
  have hsplit : buffer = buffer.take i ++ 10 :: buffer.drop (i + 1) := by
    rw [← hbyte, List.getElem_cons_drop, List.take_append_drop]
  rw [hsplit, List.idxOf_append_of_notMem hbefore, List.idxOf_cons_self,
    List.length_take_of_le (Nat.le_of_lt h), Nat.add_zero]

/-- A marked lane is one with a newline, a space or a tab. -/
theorem marked_iff {data : Register 16} {i : ℕ} (h : Holds data buffer i) (j : Fin 16) :
    (movemask (whitespace data)).toBitVec.getLsbD j = true ↔
      buffer[i + j]? = some 10 ∨ buffer[i + j]? = some 32 ∨ buffer[i + j]? = some 9 := by
  rw [getLsbD_movemask _ (by omega), whitespace, msb_orLanes, msb_orLanes, msb_cmpeq, msb_cmpeq,
    msb_cmpeq, h j]
  simp only [Bool.or_eq_true, decide_eq_true_eq, Option.some.injEq, or_assoc]
  exact Iff.rfl

/-- A lane that is not marked has no newline, and one that is marked may have one: then the scan
returns. -/
theorem scanMask_ensures {mask : Int32} {i limit : ℕ} (hblock : i + 16 ≤ limit)
    (hlimit : limit ≤ buffer.length)
    (hmask : ∀ j : Fin 16, buffer[i + j]? = some 10 → mask.toBitVec.getLsbD j = true)
    (hbefore : 10 ∉ buffer.take i) :
    (scanMask mask buffer i).Ensures (fun state ↦ state = buffer ∧ 10 ∉ buffer.take (i + 16))
      (· = cutNewline buffer limit) := by
  -- as long as the scan goes on, nothing has changed and no newline has been passed
  refine loop_ensures (fun j state ↦ state = buffer ∧ 10 ∉ buffer.take (i + j)) Nat.one_pos
    (Nat.zero_le _) (Nat.one_dvd _) ?_ ⟨rfl, hbefore⟩
  rintro j state - hj ⟨rfl, hnone⟩
  have hplace : i + j < state.length := by omega
  have hbit := @and_shiftLeft_ne_zero_iff mask ⟨j, hj⟩
  have hnext := notMem_take_succ_iff hplace hnone
  split_ifs with hmarked
  · rw [load_eq hplace]
    change Ensures (if state[i + j] = 10 then _ else _) _ _
    split_ifs with hbyte
    · have hmem : 10 ∈ state.take limit := by
        rw [← hbyte]
        exact List.mem_take_iff_getElem.2 ⟨i + j, by omega, rfl⟩
      rw [store_eq_set hplace]
      change _ = _
      rw [cutNewline, if_pos hmem, idxOf_eq hplace hnone hbyte]
    · exact ⟨rfl, hnext.2 hbyte⟩
  · refine ⟨rfl, hnext.2 fun hbyte ↦ hmarked (hbit.2 (hmask ⟨j, hj⟩ ?_))⟩
    rw [← hbyte]
    exact List.getElem?_eq_getElem hplace

theorem scanBlock_ensures {i limit : ℕ} (hblock : i + 16 ≤ limit) (hlimit : limit ≤ buffer.length)
    (hbefore : 10 ∉ buffer.take i) :
    (scanBlock buffer i).Ensures (fun state ↦ state = buffer ∧ 10 ∉ buffer.take (i + 16))
      (· = cutNewline buffer limit) := by
  obtain ⟨data, hload, hdata⟩ := @exists_loadu (List UInt8) 16 buffer i (by omega)
  have hmask : ∀ j : Fin 16, buffer[i + j]? = some 10 →
      (movemask (whitespace data)).toBitVec.getLsbD j = true :=
    fun j hbyte ↦ (marked_iff hdata j).2 (Or.inl hbyte)
  have hscan := scanMask_ensures hblock hlimit hmask hbefore
  unfold scanBlock
  rw [hload]
  change Ensures (if movemask (whitespace data) ≠ 0 then _ else _) _ _
  split_ifs with hany
  · exact hscan
  · refine ⟨rfl, fun hmem ↦ ?_⟩
    obtain ⟨place, hplace, hbyte⟩ := List.mem_take_iff_getElem.1 hmem
    have hlow : i ≤ place := Nat.not_lt.1 fun hlt ↦
      hbefore (List.mem_take_iff_getElem.2 ⟨place, by omega, hbyte⟩)
    have hmarked := hmask ⟨place - i, by omega⟩ (by
      rw [Nat.add_sub_cancel' hlow, List.getElem?_eq_getElem (by omega), hbyte])
    rw [not_ne_iff.1 hany] at hmarked
    exact Bool.false_ne_true (BitVec.getLsbD_zero.symm.trans hmarked)

/-! ## The whole buffer -/

section Buffers

variable {machine : Machine} {features : CpuFeatures} {size : UInt64}

/-- The instructions are compiled, and they are detected. -/
def UsesSse42 (machine : Machine) (features : CpuFeatures) : Prop :=
  machine.sse42Compiled = true ∧ (detectCpuFeatures machine features).hasSse42 = true

/-- Only the blocks are searched, and only where there are instructions for it. -/
theorem parallelStringProcessing_of_usesSse42 (hsize : size.toNat ≤ buffer.length)
    (h : UsesSse42 machine features) :
    (parallelStringProcessing machine features buffer size).2 =
      some (cutNewline buffer (size.toNat / 16 * 16)) := by
  have hsimd : (size &&& ~~~15).toNat = size.toNat / 16 * 16 := toNat_and_not_size size 4
  have hle : size.toNat / 16 * 16 ≤ size.toNat := Nat.div_mul_le_self _ _
  have hloop := @loop_ensures (List UInt8) (List UInt8)
    (· = cutNewline buffer (size.toNat / 16 * 16)) 0 (size.toNat / 16 * 16) 16 buffer
    (fun i buffer ↦ scanBlock buffer i) (fun i state ↦ state = buffer ∧ 10 ∉ buffer.take i)
    (by omega) (Nat.zero_le _) (Nat.dvd_mul_left _ _)
    (by
      rintro i state - hi ⟨rfl, hnone⟩
      exact scanBlock_ensures hi (by omega) hnone)
    ⟨rfl, List.not_mem_nil⟩
  have hlast : ∀ state, state = buffer ∧ 10 ∉ buffer.take (size.toNat / 16 * 16) →
      state = cutNewline buffer (size.toNat / 16 * 16) := by
    rintro state ⟨rfl, hnone⟩
    exact (if_neg hnone).symm
  unfold parallelStringProcessing
  dsimp only
  rw [if_pos (by rw [h.1, h.2]; rfl), hsimd]
  exact (hloop.mono hlast fun _ ↦ id).run_eq

theorem parallelStringProcessing_of_not_usesSse42 (h : ¬UsesSse42 machine features) :
    (parallelStringProcessing machine features buffer size).2 = some buffer := by
  unfold parallelStringProcessing
  dsimp only
  rw [if_neg fun hboth ↦ h (Bool.and_eq_true_iff.1 hboth)]

/-- A newline is gone when it is replaced. -/
theorem set_idxOf_ne (h : 10 ∈ buffer) : buffer.set (buffer.idxOf 10) 0 ≠ buffer := by
  intro heq
  have hplace : buffer.idxOf 10 < buffer.length := List.idxOf_lt_length_iff.2 h
  have hbyte : (buffer.set (buffer.idxOf 10) 0)[buffer.idxOf 10]? = some 0 := by
    rw [List.getElem?_set_self hplace]
  rw [heq, List.getElem?_eq_getElem hplace, List.getElem_idxOf] at hbyte
  exact absurd hbyte (by decide)

theorem cutNewline_eq_iff {short long : ℕ} (hle : short ≤ long) :
    cutNewline buffer short = cutNewline buffer long ↔
      (10 ∈ buffer.take long → 10 ∈ buffer.take short) := by
  unfold cutNewline
  by_cases hlong : 10 ∈ buffer.take long
  · by_cases hshort : 10 ∈ buffer.take short
    · rw [if_pos hshort, if_pos hlong]
      exact iff_of_true rfl fun _ ↦ hshort
    · rw [if_neg hshort, if_pos hlong]
      exact iff_of_false (set_idxOf_ne (List.mem_of_mem_take hlong)).symm fun himp ↦
        hshort (himp hlong)
  · have hshort : 10 ∉ buffer.take short := fun hmem ↦
      hlong (List.take_subset_take_left buffer hle hmem)
    rw [if_neg hshort, if_neg hlong]
    exact iff_of_true rfl fun hmem ↦ absurd hmem hlong

/-- The first newline before `size` is replaced, and nothing else, exactly when there is none, or
the instructions are compiled and detected and a newline stands in a whole block of 16 bytes. -/
theorem parallelStringProcessing_cuts_iff (machine : Machine) (features : CpuFeatures)
    (buffer : List UInt8) (size : UInt64) (hsize : size.toNat ≤ buffer.length) :
    (parallelStringProcessing machine features buffer size).2 =
        some (cutNewline buffer size.toNat) ↔
      (10 ∈ buffer.take size.toNat →
        UsesSse42 machine features ∧ 10 ∈ buffer.take (size.toNat / 16 * 16)) := by
  by_cases hsse42 : UsesSse42 machine features
  · rw [parallelStringProcessing_of_usesSse42 hsize hsse42, Option.some_inj,
      cutNewline_eq_iff (Nat.div_mul_le_self _ _)]
    simp only [hsse42, true_and]
  · have hnothing : cutNewline buffer 0 = buffer := if_neg List.not_mem_nil
    have hsame := @cutNewline_eq_iff buffer 0 size.toNat (Nat.zero_le _)
    rw [hnothing] at hsame
    rw [parallelStringProcessing_of_not_usesSse42 hsse42, Option.some_inj, hsame]
    exact ⟨fun h hmem ↦ absurd (h hmem) List.not_mem_nil, fun h hmem ↦ absurd (h hmem).1 hsse42⟩

/-- A newline in the one block of 17 bytes. -/
theorem parallelStringProcessing_cuts_block :
    (parallelStringProcessing ⟨true, false, some 0x100000, none⟩ ⟨false, false, false⟩
        (List.replicate 3 97 ++ 10 :: List.replicate 13 98) 17).2 =
        some (cutNewline (List.replicate 3 97 ++ 10 :: List.replicate 13 98) 17) :=
  (parallelStringProcessing_cuts_iff ⟨true, false, some 0x100000, none⟩ ⟨false, false, false⟩
    (List.replicate 3 97 ++ 10 :: List.replicate 13 98) 17 (by decide)).2 fun _ ↦
    ⟨⟨rfl, rfl⟩, by decide⟩

/-- A text that ends with a newline, and is too short for a block, keeps it. -/
theorem parallelStringProcessing_keeps_newline :
    ¬∀ (machine : Machine) (features : CpuFeatures) (buffer : List UInt8) (size : UInt64),
      size.toNat ≤ buffer.length →
        (parallelStringProcessing machine features buffer size).2 =
          some (cutNewline buffer size.toNat) := by
  intro h
  have hcut := h ⟨true, true, some 0x100000, some 0x20⟩ ⟨false, false, false⟩ [97, 98, 10] 3
    (by decide)
  exact absurd hcut (by decide)

end Buffers

end HiFetch.Simd
