import HiFetch.Library.Strtok
import HiFetch.Utils.TrimString

/-!
# The list of graphics cards

`get_all_gpus` takes the output of `lspci` apart with `strtok`, trims every line in its place in the
buffer, and stores each line that is neither empty nor too long, with a word about its kind behind
it.  There are eight slots of 256 bytes.

The branch for a text that does not fit in its slot is recorded in a field of its own.
-/

namespace HiFetch.Sysinfo

open Allocator CString Strtok Utils

/-- `MAX_GPUS`. -/
def maxGpus : ℕ := 8

/-- The slots, the number of those in use, and whether the text for a line that is too long was
stored. -/
structure GpuList where
  gpu : List (List UInt8)
  gpuCount : ℕ
  tooLong : Bool

/-- `strncpy` into a slot, and a NUL as its last byte. -/
def strncpySlot (slot : List UInt8) (text : CString) : List UInt8 :=
  (overwrite slot ((text.bytes ++ List.replicate 255 0).take 255)).set 255 0

/-- `snprintf` into a slot: its result and the slot. -/
def snprintfSlot (slot : List UInt8) (text : CString) : ℤ × List UInt8 :=
  (text.length, overwrite slot ((text.take 255).bytes ++ [0]))

/-- The four branches for a line. -/
def describeGpu (slot : List UInt8) (line : CString) : ℤ × List UInt8 :=
  if occurs line (ofText "Intel") then snprintfSlot slot (line ++ ofText " [Integrated]")
  else if occurs line (ofText "NVIDIA") || occurs line (ofText "GeForce") then
    snprintfSlot slot (line ++ ofText " [Discrete]")
  else if occurs line (ofText "AMD") || occurs line (ofText "ATI") ||
      occurs line (ofText "Radeon") then
    snprintfSlot slot (line ++ ofText " [Discrete]")
  else (0, strncpySlot slot line)

/-- The next slot gets a line. -/
def GpuList.add (list : GpuList) (line : CString) : GpuList :=
  let (result, slot) := describeGpu (list.gpu.getD list.gpuCount []) line
  if result < 0 ∨ 256 ≤ result then
    { gpu := list.gpu.set list.gpuCount (strncpySlot slot (ofText "GPU Info Too Long"))
      gpuCount := list.gpuCount + 1
      tooLong := true }
  else
    { list with
      gpu := list.gpu.set list.gpuCount slot
      gpuCount := list.gpuCount + 1 }

/-- `trim_string` at a place in a buffer. -/
def trimAt (buffer : List UInt8) (place : ℕ) : List UInt8 :=
  buffer.take place ++ trimString (buffer.drop place)

/-- The loop over the tokens, before the call of `strtok` that goes on at `start`. -/
def gpuLoop (buffer : List UInt8) (start : ℕ) (list : GpuList) : GpuList :=
  match _h : (strtok buffer start 10).token with
  | none => list
  | some place =>
      if list.gpuCount < maxGpus then
        let trimmed := trimAt (strtok buffer start 10).buffer place
        let line := ofBuffer (trimmed.drop place)
        gpuLoop trimmed (strtok buffer start 10).next
          (if 0 < line.length ∧ line.length < 256 - 20 then list.add line else list)
      else list
termination_by buffer.length - start
decreasing_by
  obtain ⟨hnext, hstart, hlength⟩ := lt_next_of_token _h
  have htrimmed : (trimAt (strtok buffer start 10).buffer place).length = buffer.length := by
    rw [trimAt, List.length_append, length_trimString, ← List.length_append,
      List.take_append_drop, hlength]
  omega

/-- The first slot says that no card is known. -/
def GpuList.unknown (list : GpuList) : GpuList :=
  { list with
    gpu := list.gpu.set 0 (strncpySlot (list.gpu.getD 0 []) (ofText "Unknown GPU"))
    gpuCount := 1 }

/-- `get_all_gpus`, for the output of `lspci`. -/
def getAllGpus (list : GpuList) (allGpus : Option CString) : GpuList :=
  let cleared : GpuList := { list with gpuCount := 0, tooLong := false }
  match allGpus with
  | none => cleared.unknown
  | some text =>
      if text.length = 0 then cleared.unknown
      else
        let tempBuffer := (text.bytes ++ List.replicate 8191 0).take 8191 ++ [0]
        let listed := gpuLoop tempBuffer 0 cleared
        if listed.gpuCount = 0 then listed.unknown else listed

/-! ## What is stored -/

/-- The lines that get a slot, in order. -/
def gpuLines (text : CString) : List CString :=
  ((tokens text 10).map strip).filter fun line ↦ 0 < line.length ∧ line.length ≤ 235

/-- The word behind a line. -/
def gpuKind (line : CString) : CString :=
  if occurs line (ofText "Intel") then ofText " [Integrated]"
  else if [ofText "NVIDIA", ofText "GeForce", ofText "AMD", ofText "ATI", ofText "Radeon"].any
      (occurs line) then ofText " [Discrete]"
  else empty

/-- The strings in the slots that are in use. -/
def GpuList.stored (list : GpuList) : List CString := (list.gpu.take list.gpuCount).map ofBuffer

/-- Every slot has its size, and those in use end with a NUL. -/
structure GpuList.Valid (list : GpuList) : Prop where
  length_eq : list.gpu.length = maxGpus
  length_slot : ∀ slot ∈ list.gpu, slot.length = 256
  ended : ∀ slot ∈ list.gpu.take list.gpuCount, 0 ∈ slot

/-! ## One slot -/

/-- A slot that holds a string. -/
structure Holds (slot : List UInt8) (text : CString) : Prop where
  length_eq : slot.length = 256
  ended : 0 ∈ slot
  ofBuffer_eq : ofBuffer slot = text

theorem holds_append {slot : List UInt8} {text : CString} (back : List UInt8)
    (hslot : slot = text.bytes ++ 0 :: back) (hlength : slot.length = 256) : Holds slot text :=
  ⟨hlength, by simp [hslot], by rw [hslot, ofBuffer_append_nul, ofBuffer_bytes]⟩

theorem holds_strncpySlot {slot : List UInt8} (hslot : slot.length = 256) {text : CString}
    (htext : text.length ≤ 255) : Holds (strncpySlot slot text) text := by
  have hpadded : (text.bytes ++ List.replicate 255 0).take 255 =
      text.bytes ++ List.replicate (255 - text.length) 0 := by
    rw [List.take_append, List.take_of_length_le htext, List.take_replicate,
      Nat.min_eq_left (Nat.sub_le _ _)]
    rfl
  have hlength : (text.bytes ++ List.replicate (255 - text.length) (0 : UInt8)).length = 255 := by
    rw [List.length_append, List.length_replicate]
    exact Nat.add_sub_cancel' htext
  obtain ⟨last, hlast⟩ : ∃ last, slot.drop 255 = [last] :=
    List.length_eq_one_iff.1 (by rw [List.length_drop, hslot])
  have hcopied : strncpySlot slot text =
      text.bytes ++ (List.replicate (255 - text.length) 0 ++ [0]) := by
    unfold strncpySlot overwrite
    rw [hpadded, hlength, List.take_of_length_le (by omega), hlast,
      List.set_append_right _ _ (by omega), hlength, ← List.append_assoc]
    rfl
  rw [← List.replicate_succ', List.replicate_succ] at hcopied
  refine holds_append _ hcopied ?_
  unfold strncpySlot
  rw [List.length_set, length_overwrite, hslot]

theorem holds_snprintfSlot {slot : List UInt8} (hslot : slot.length = 256) {text : CString}
    (htext : text.length ≤ 255) :
    (0 ≤ (snprintfSlot slot text).1 ∧ (snprintfSlot slot text).1 < 256) ∧
      Holds (snprintfSlot slot text).2 text := by
  unfold snprintfSlot
  refine ⟨by dsimp only; omega, holds_append (slot.drop (text.length + 1)) ?_ ?_⟩
  · dsimp only
    rw [take_eq_self htext, overwrite, List.take_of_length_le, List.append_assoc,
      List.length_append]
    · rfl
    · rw [List.length_append, hslot]
      exact Nat.succ_le_succ htext
  · rw [length_overwrite, hslot]

/-- No line that gets a slot is too long with the word behind it. -/
theorem describeGpu_spec {slot : List UInt8} (hslot : slot.length = 256) {line : CString}
    (hline : line.length ≤ 235) :
    (0 ≤ (describeGpu slot line).1 ∧ (describeGpu slot line).1 < 256) ∧
      Holds (describeGpu slot line).2 (line ++ gpuKind line) := by
  have hintegrated : (line ++ ofText " [Integrated]").length ≤ 255 := by
    rw [length_append, show (ofText " [Integrated]").length = 13 by decide]
    omega
  have hdiscrete : (line ++ ofText " [Discrete]").length ≤ 255 := by
    rw [length_append, show (ofText " [Discrete]").length = 11 by decide]
    omega
  have hnames : [ofText "NVIDIA", ofText "GeForce", ofText "AMD", ofText "ATI", ofText "Radeon"].any
      (occurs line) = ((occurs line (ofText "NVIDIA") || occurs line (ofText "GeForce")) ||
        (occurs line (ofText "AMD") || occurs line (ofText "ATI") ||
          occurs line (ofText "Radeon"))) := by
    simp only [List.any_cons, List.any_nil, Bool.or_false, Bool.or_assoc]
  unfold describeGpu gpuKind
  rw [hnames]
  by_cases hintel : occurs line (ofText "Intel") = true
  · rw [if_pos hintel, if_pos hintel]
    exact holds_snprintfSlot hslot hintegrated
  rw [if_neg hintel, if_neg hintel]
  by_cases hnvidia : (occurs line (ofText "NVIDIA") || occurs line (ofText "GeForce")) = true
  · rw [if_pos hnvidia, if_pos (by rw [hnvidia, Bool.true_or])]
    exact holds_snprintfSlot hslot hdiscrete
  rw [if_neg hnvidia, Bool.eq_false_of_not_eq_true hnvidia, Bool.false_or]
  by_cases hamd : (occurs line (ofText "AMD") || occurs line (ofText "ATI") ||
      occurs line (ofText "Radeon")) = true
  · rw [if_pos hamd, if_pos hamd]
    exact holds_snprintfSlot hslot hdiscrete
  · rw [if_neg hamd, if_neg hamd]
    have hplain : line ++ empty = line := CString.ext (List.append_nil _)
    rw [hplain]
    exact ⟨by simp, holds_strncpySlot hslot (by omega)⟩

/-! ## The slots one after the other -/

/-- One line goes to the next slot, and the branch for a text that is too long is not taken. -/
theorem GpuList.Valid.add {list : GpuList} (h : list.Valid) (hroom : list.gpuCount < maxGpus)
    {line : CString} (hline : line.length ≤ 235) :
    (list.add line).Valid ∧ (list.add line).gpuCount = list.gpuCount + 1 ∧
      (list.add line).tooLong = list.tooLong ∧
      (list.add line).stored = list.stored ++ [line ++ gpuKind line] := by
  have hindex : list.gpuCount < list.gpu.length := by rwa [h.length_eq]
  have hslot : (list.gpu.getD list.gpuCount []).length = 256 := by
    rw [List.getD_eq_getElem _ _ hindex]
    exact h.length_slot _ (List.getElem_mem hindex)
  obtain ⟨⟨hnonneg, hlt⟩, hholds⟩ := describeGpu_spec hslot hline
  have hadd : list.add line =
      { list with
        gpu := list.gpu.set list.gpuCount
          (describeGpu (list.gpu.getD list.gpuCount []) line).2
        gpuCount := list.gpuCount + 1 } := by
    unfold GpuList.add
    dsimp only
    rw [if_neg (by omega)]
  generalize (describeGpu (list.gpu.getD list.gpuCount []) line).2 = slot at hholds hadd
  have htake : (list.gpu.set list.gpuCount slot).take (list.gpuCount + 1) =
      list.gpu.take list.gpuCount ++ [slot] := by
    rw [List.take_succ_eq_append_getElem (by rw [List.length_set]; exact hindex),
      List.getElem_set_self, List.take_set_of_le le_rfl]
  rw [hadd]
  refine ⟨⟨?_, ?_, ?_⟩, rfl, rfl, ?_⟩
  · exact (List.length_set).trans h.length_eq
  · intro other hmem
    rcases List.mem_or_eq_of_mem_set hmem with hmem | rfl
    · exact h.length_slot other hmem
    · exact hholds.length_eq
  · intro other hmem
    dsimp only at hmem
    rw [htake, List.mem_append, List.mem_singleton] at hmem
    rcases hmem with hmem | rfl
    · exact h.ended other hmem
    · exact hholds.ended
  · unfold GpuList.stored
    dsimp only
    rw [htake, List.map_append, List.map_singleton, hholds.ofBuffer_eq]

/-- Several lines, as long as there are slots for them. -/
theorem GpuList.Valid.foldl_add {list : GpuList} (h : list.Valid) {lines : List CString}
    (hroom : list.gpuCount + lines.length ≤ maxGpus) (hlines : ∀ line ∈ lines, line.length ≤ 235) :
    (lines.foldl GpuList.add list).Valid ∧
      (lines.foldl GpuList.add list).gpuCount = list.gpuCount + lines.length ∧
      (lines.foldl GpuList.add list).tooLong = list.tooLong ∧
      (lines.foldl GpuList.add list).stored =
        list.stored ++ lines.map fun line ↦ line ++ gpuKind line := by
  induction lines generalizing list with
  | nil => exact ⟨h, rfl, rfl, (List.append_nil _).symm⟩
  | cons line lines ih =>
    rw [List.length_cons] at hroom
    obtain ⟨hvalid, hcount, hlong, hstored⟩ := h.add (by omega) (hlines line List.mem_cons_self)
    obtain ⟨hvalid', hcount', hlong', hstored'⟩ := ih hvalid (by omega)
      fun other hmem ↦ hlines other (List.mem_cons_of_mem _ hmem)
    rw [List.foldl_cons]
    refine ⟨hvalid', ?_, hlong'.trans hlong, ?_⟩
    · rw [hcount', hcount, List.length_cons]
      omega
    · rw [hstored', hstored, List.map_cons, List.append_assoc, List.singleton_append]

/-! ## The loop -/

/-- A line gets a slot. -/
def keepsLine (line : CString) : Bool := decide (0 < line.length ∧ line.length ≤ 235)

/-- The lines of the text between newlines that get a slot. -/
def keptLines (text : List UInt8) : List CString :=
  ((pieces 10 text).map fun piece ↦ strip (ofBuffer piece)).filter keepsLine

/-- The first line is kept or dropped. -/
theorem keptLines_of_pieces {text piece rest : List UInt8}
    (h : pieces 10 text = piece :: pieces 10 rest) :
    keptLines text =
      (if keepsLine (strip (ofBuffer piece)) then [strip (ofBuffer piece)] else []) ++
        keptLines rest := by
  unfold keptLines
  rw [h, List.map_cons, List.filter_cons]
  split_ifs <;> rfl

theorem gpuCount_add (list : GpuList) (line : CString) :
    (list.add line).gpuCount = list.gpuCount + 1 := by
  unfold GpuList.add
  dsimp only
  split_ifs <;> rfl

theorem gpuLines_eq (text : CString) : gpuLines text = keptLines text.bytes := by
  unfold gpuLines keptLines
  rw [tokens_eq, List.map_map]
  rfl

theorem gpuLoop_of_none {buffer : List UInt8} {start : ℕ}
    (h : (strtok buffer start 10).token = none) (list : GpuList) :
    gpuLoop buffer start list = list := by
  rw [gpuLoop]
  split
  case h_1 => rfl
  case h_2 place hplace => exact absurd (h.symm.trans hplace) (Option.some_ne_none _).symm

theorem gpuLoop_of_some {buffer : List UInt8} {start place : ℕ}
    (h : (strtok buffer start 10).token = some place) (list : GpuList) :
    gpuLoop buffer start list =
      if list.gpuCount < maxGpus then
        let trimmed := trimAt (strtok buffer start 10).buffer place
        let line := ofBuffer (trimmed.drop place)
        gpuLoop trimmed (strtok buffer start 10).next
          (if 0 < line.length ∧ line.length < 256 - 20 then list.add line else list)
      else list := by
  rw [gpuLoop]
  split
  case h_1 hnone => exact absurd (h.symm.trans hnone) (Option.some_ne_none _)
  case h_2 place' hplace =>
    obtain rfl := Option.some_injective _ (h.symm.trans hplace)
    rfl

/-- Trimming a token leaves the rest of the text for the next call. -/
theorem trimAt_spec {text back piece rest : List UInt8} {call : Outcome}
    (h : Finds 10 text back call piece rest) :
    ofBuffer ((trimAt call.buffer h.before.length).drop h.before.length) =
        strip (ofBuffer piece) ∧
      ∃ front : List UInt8, trimAt call.buffer h.before.length = front ++ (rest ++ 0 :: back) ∧
        call.next = front.length := by
  have hbuffer : call.buffer = h.before ++ (piece ++ 0 :: h.behind) :=
    congrArg Outcome.buffer h.call_eq
  have htrimmed : trimAt call.buffer h.before.length =
      h.before ++ trimString (piece ++ 0 :: h.behind) := by
    unfold trimAt
    rw [hbuffer, List.take_left, List.drop_left]
  rw [htrimmed, List.drop_left]
  constructor
  · rw [ofBuffer_trimString (by simp), ofBuffer_append_nul]
  · obtain ⟨trimmed, hlength, heq⟩ := trimString_append_nul h.noNul h.behind
    rw [heq]
    exact h.next hlength

/-- The loop stores the lines that are kept, as long as there are slots. -/
theorem gpuLoop_eq (front back : List UInt8) {text : List UInt8} (hnul : 0 ∉ text)
    (list : GpuList) :
    gpuLoop (front ++ (text ++ 0 :: back)) front.length list =
      ((keptLines text).take (maxGpus - list.gpuCount)).foldl GpuList.add list := by
  induction hcount : (pieces 10 text).length generalizing front text list with
  | zero =>
    have hnone : pieces 10 text = [] := List.length_eq_zero_iff.1 hcount
    rcases strtok_spec (by decide : (10 : UInt8) ≠ 0) front back hnul with
      ⟨-, htoken⟩ | ⟨piece, rest, ⟨hfinds⟩⟩
    · unfold keptLines
      rw [gpuLoop_of_none htoken, hnone, List.map_nil, List.filter_nil, List.take_nil]
      rfl
    · rw [hfinds.pieces_eq] at hnone
      exact absurd hnone (List.cons_ne_nil _ _)
  | succ count ih =>
    rcases strtok_spec (by decide : (10 : UInt8) ≠ 0) front back hnul with
      ⟨hnone, -⟩ | ⟨piece, rest, ⟨hfinds⟩⟩
    · rw [hnone] at hcount
      exact absurd hcount (Nat.succ_ne_zero count).symm
    have htoken := congrArg Outcome.token hfinds.call_eq
    obtain ⟨hline, front', hbuffer, hnext⟩ := trimAt_spec hfinds
    have hrest : (pieces 10 rest).length = count := by
      rw [hfinds.pieces_eq, List.length_cons] at hcount
      exact Nat.succ_injective hcount
    have hlines := keptLines_of_pieces hfinds.pieces_eq
    rw [gpuLoop_of_some htoken]
    dsimp only
    rw [hline, hbuffer, hnext]
    split_ifs with hroom hkeep
    · rw [ih front' hfinds.noNul_rest _ hrest]
      have hkept : keepsLine (strip (ofBuffer piece)) = true :=
        decide_eq_true ⟨hkeep.1, by omega⟩
      obtain ⟨room, hroom⟩ : ∃ room, maxGpus - list.gpuCount = room + 1 :=
        ⟨maxGpus - list.gpuCount - 1, by omega⟩
      rw [hlines, if_pos hkept, List.singleton_append, hroom, List.take_succ_cons, List.foldl_cons,
        gpuCount_add, show maxGpus - (list.gpuCount + 1) = room by omega]
    · rw [ih front' hfinds.noNul_rest _ hrest]
      have hdropped : keepsLine (strip (ofBuffer piece)) = false :=
        decide_eq_false fun h ↦ hkeep ⟨h.1, by omega⟩
      rw [hlines, hdropped]
      rfl
    · rw [show maxGpus - list.gpuCount = 0 by omega, List.take_zero, List.foldl_nil]

/-! ## The list -/

/-- The buffer that the loop starts with. -/
theorem tempBuffer_eq {text : CString} (h : text.length ≤ 4095) :
    ∃ back, (text.bytes ++ List.replicate 8191 0).take 8191 ++ [0] = text.bytes ++ 0 :: back := by
  have hroom : 8191 - text.bytes.length ≤ 8191 := Nat.sub_le _ _
  have hle : text.bytes.length ≤ 8191 := h.trans (by decide)
  refine ⟨List.replicate (8191 - text.bytes.length) 0, ?_⟩
  rw [List.take_append, List.take_of_length_le hle, List.take_replicate, Nat.min_eq_left hroom,
    List.append_assoc, ← List.replicate_succ', List.replicate_succ]

theorem GpuList.Valid.unknown {list : GpuList} (h : list.Valid) :
    list.unknown.Valid ∧ list.unknown.stored = [ofText "Unknown GPU"] := by
  have hindex : 0 < list.gpu.length := by
    rw [h.length_eq]
    decide
  have hslot : (list.gpu.getD 0 []).length = 256 := by
    rw [List.getD_eq_getElem _ _ hindex]
    exact h.length_slot _ (List.getElem_mem hindex)
  have hholds : Holds (strncpySlot (list.gpu.getD 0 []) (ofText "Unknown GPU"))
      (ofText "Unknown GPU") := holds_strncpySlot hslot (by decide)
  have htake : list.unknown.gpu.take 1 =
      [strncpySlot (list.gpu.getD 0 []) (ofText "Unknown GPU")] := by
    obtain ⟨first, rest, hgpu⟩ := List.exists_cons_of_length_pos hindex
    unfold GpuList.unknown
    rw [hgpu]
    rfl
  refine ⟨⟨(List.length_set).trans h.length_eq, fun slot hmem ↦ ?_, fun slot hmem ↦ ?_⟩, ?_⟩
  · rcases List.mem_or_eq_of_mem_set hmem with hmem | rfl
    · exact h.length_slot slot hmem
    · exact hholds.length_eq
  · have hmem' : slot ∈ list.unknown.gpu.take 1 := hmem
    rw [htake, List.mem_singleton] at hmem'
    rw [hmem']
    exact hholds.ended
  · have hstored : list.unknown.stored = (list.unknown.gpu.take 1).map ofBuffer := rfl
    rw [hstored, htake, List.map_singleton, hholds.ofBuffer_eq]

/-- Every line that is kept is short. -/
theorem length_le_of_mem_gpuLines {text line : CString} (h : line ∈ gpuLines text) :
    line.length ≤ 235 :=
  (of_decide_eq_true (List.mem_filter.1 h).2).2

/-- The slots get the lines of the output that are neither empty nor too long, the first eight in
order, each with the word for its kind; without such a line the first slot says that no card is
known.  Every slot ends with a NUL, and no text is too long. -/
theorem getAllGpus_spec {list : GpuList} (hlength : list.gpu.length = maxGpus)
    (hslots : ∀ slot ∈ list.gpu, slot.length = 256) {text : CString} (htext : text.length ≤ 4095) :
    (getAllGpus list (some text)).Valid ∧ (getAllGpus list (some text)).tooLong = false ∧
      if gpuLines text = [] then
        (getAllGpus list (some text)).gpuCount = 1 ∧
          (getAllGpus list (some text)).stored = [ofText "Unknown GPU"]
      else
        (getAllGpus list (some text)).gpuCount = min maxGpus (gpuLines text).length ∧
          (getAllGpus list (some text)).stored =
            ((gpuLines text).take maxGpus).map fun line ↦ line ++ gpuKind line := by
  have hcleared : { list with gpuCount := 0, tooLong := false : GpuList }.Valid :=
    ⟨hlength, hslots, by simp⟩
  by_cases hempty : text.length = 0
  · have hnone : gpuLines text = [] := by
      have htext : text = empty := length_eq_zero_iff.1 hempty
      rw [htext]
      rfl
    obtain ⟨hvalid, hstored⟩ := hcleared.unknown
    have hresult : getAllGpus list (some text) =
        { list with gpuCount := 0, tooLong := false : GpuList }.unknown := if_pos hempty
    rw [hresult, if_pos hnone]
    exact ⟨hvalid, rfl, rfl, hstored⟩
  obtain ⟨back, hbuffer⟩ := tempBuffer_eq htext
  have hloop := gpuLoop_eq [] back text.noNul { list with gpuCount := 0, tooLong := false }
  rw [List.nil_append, List.length_nil, ← hbuffer, ← gpuLines_eq] at hloop
  dsimp only at hloop
  rw [Nat.sub_zero] at hloop
  have hroom : 0 + ((gpuLines text).take maxGpus).length ≤ maxGpus := by
    rw [Nat.zero_add, List.length_take]
    exact Nat.min_le_left _ _
  obtain ⟨hvalid, hcount, hlong, hstored⟩ := hcleared.foldl_add hroom
    fun line hmem ↦ length_le_of_mem_gpuLines (List.mem_of_mem_take hmem)
  rw [← hloop] at hvalid hcount hlong hstored
  rw [Nat.zero_add, List.length_take] at hcount
  have hresult : getAllGpus list (some text) =
      let listed := gpuLoop ((text.bytes ++ List.replicate 8191 0).take 8191 ++ [0]) 0
        { list with gpuCount := 0, tooLong := false }
      if listed.gpuCount = 0 then listed.unknown else listed := if_neg hempty
  generalize gpuLoop ((text.bytes ++ List.replicate 8191 0).take 8191 ++ [0]) 0
    { list with gpuCount := 0, tooLong := false } = listed at hvalid hcount hlong hstored hresult
  have hzero : listed.gpuCount = 0 ↔ gpuLines text = [] := by
    rw [hcount, ← List.length_eq_zero_iff, maxGpus]
    omega
  rw [hresult]
  dsimp only
  split_ifs with hcounted hnone hnone
  · exact ⟨hvalid.unknown.1, hlong, rfl, hvalid.unknown.2⟩
  · exact absurd (hzero.1 hcounted) hnone
  · exact absurd (hzero.2 hnone) hcounted
  · exact ⟨hvalid, hlong, hcount, hstored⟩

/-- Eight slots without content. -/
def zeroGpus : GpuList := ⟨List.replicate 8 (List.replicate 256 0), 0, false⟩

theorem getAllGpus_spec_example :
    (getAllGpus zeroGpus (some (ofText "Intel UHD \n\n Matrox"))).Valid ∧
      (getAllGpus zeroGpus (some (ofText "Intel UHD \n\n Matrox"))).tooLong = false ∧
      if gpuLines (ofText "Intel UHD \n\n Matrox") = [] then
        (getAllGpus zeroGpus (some (ofText "Intel UHD \n\n Matrox"))).gpuCount = 1 ∧
          (getAllGpus zeroGpus (some (ofText "Intel UHD \n\n Matrox"))).stored =
            [ofText "Unknown GPU"]
      else
        (getAllGpus zeroGpus (some (ofText "Intel UHD \n\n Matrox"))).gpuCount =
            min maxGpus (gpuLines (ofText "Intel UHD \n\n Matrox")).length ∧
          (getAllGpus zeroGpus (some (ofText "Intel UHD \n\n Matrox"))).stored =
            ((gpuLines (ofText "Intel UHD \n\n Matrox")).take maxGpus).map
              fun line ↦ line ++ gpuKind line :=
  getAllGpus_spec rfl
    (fun slot hmem ↦ by rw [List.eq_of_mem_replicate hmem, List.length_replicate]) (by decide)

end HiFetch.Sysinfo
