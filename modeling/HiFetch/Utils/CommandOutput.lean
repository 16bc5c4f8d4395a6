import HiFetch.Utils.ReadFile

/-!
# The output of a command

`execute_cmd_fast` collects the output of a command in a recycled buffer.  Each `fread` delivers
some of the bytes that it is asked for, so the loop asks again until the output ends or the buffer
is full, and the text in the buffer is trimmed in place.

How many bytes each `fread` delivers is an argument.  A write outside the buffer gives nothing.

No header declares `execute_cmd`, so its callers in other files take the pointer that it returns for
an `int`.
-/

namespace HiFetch.Utils

open Allocator CString

def bufSize : ℕ := 4096

/-- `fread`: at least one byte as long as there are any, and never more than it is asked for. -/
def fread (output : List UInt8) (request choice : ℕ) : List UInt8 :=
  output.take (min request (choice + 1))

/-- The loop that reads the output: the buffer and `total_read`. -/
def readOutput (choice : ℕ → ℕ) (call : ℕ) (buffer : List UInt8) (totalRead : ℕ)
    (output : List UInt8) : Option (List UInt8 × ℕ) :=
  if totalRead < bufSize - 1 then
    let chunk := fread output (bufSize - 1 - totalRead) (choice call)
    if 0 < chunk.length then
      match writeBytes buffer totalRead chunk with
      | none => none
      | some buffer =>
          if bufSize - 1 ≤ totalRead + chunk.length then some (buffer, totalRead + chunk.length)
          else readOutput choice (call + 1) buffer (totalRead + chunk.length)
            (output.drop chunk.length)
    else some (buffer, totalRead)
  else some (buffer, totalRead)
termination_by bufSize - totalRead
decreasing_by
  have hchunk : 0 < (fread output (bufSize - 1 - totalRead) (choice call)).length := ‹_›
  omega

/-- `execute_cmd_fast`: its result and the buffer.  The slot of the pool is empty if it could not be
allocated, and `popen` gives nothing if it fails. -/
def executeCmdFast (cmd : Option CString) (slot : Option (List UInt8))
    (popen : Option (List UInt8)) (choice : ℕ → ℕ) : Option (Option CString × List UInt8) :=
  let buffer := slot.getD (List.replicate bufSize 0)
  match cmd with
  | none => some (none, buffer)
  | some cmd =>
      if cmd.length = 0 ∨ 2048 < cmd.length then some (none, buffer)
      else match popen with
        | none => some (none, buffer)
        | some output => do
            let (buffer, totalRead) ← readOutput choice 0 buffer 0 output
            let buffer ← writeBytes buffer totalRead [0]
            let buffer ← checkedTrimString buffer
            pure (if buffer.getD 0 0 ≠ 0 then some (ofBuffer buffer) else none, buffer)

/-- The output that `execute_cmd` returns a pointer to. -/
structure CmdOutput where
  address : UInt64
  text : CString
  address_ne_zero : address ≠ 0
deriving DecidableEq

/-- What a caller without a declaration of `execute_cmd` takes for the pointer: its low 32 bits as
an `int`, with the sign extended. -/
def CmdOutput.pointer (output : CmdOutput) : UInt64 :=
  .ofInt ((output.address.toNat : ℤ).bmod (2 ^ 32))

/-! ## The loop -/

theorem length_fread (output : List UInt8) (request choice : ℕ) :
    (fread output request choice).length = min (min request (choice + 1)) output.length :=
  List.length_take

/-- The buffer starts with a part of the output, and the rest of the output is still to come. -/
structure Collected (whole buffer : List UInt8) (totalRead : ℕ) (output : List UInt8) : Prop where
  length_eq : buffer.length = bufSize
  le : totalRead ≤ bufSize - 1
  le_length : totalRead ≤ whole.length
  take_eq : buffer.take totalRead = whole.take totalRead
  rest : output = whole.drop totalRead

theorem Collected.step {whole buffer output : List UInt8} {totalRead : ℕ}
    (h : Collected whole buffer totalRead output) (choice : ℕ) :
    let chunk := fread output (bufSize - 1 - totalRead) choice
    ∃ filled, writeBytes buffer totalRead chunk = some filled ∧
      Collected whole filled (totalRead + chunk.length) (output.drop chunk.length) := by
  intro chunk
  obtain rfl := h.rest
  have hchunk : chunk = (whole.drop totalRead).take chunk.length := by
    rw [length_fread, ← List.take_eq_take_min]
    rfl
  have hlength : chunk.length =
      min (min (bufSize - 1 - totalRead) (choice + 1)) (whole.length - totalRead) := by
    rw [length_fread, List.length_drop]
  have hroom : totalRead + chunk.length ≤ bufSize - 1 ∧
      totalRead + chunk.length ≤ whole.length := by
    have hle := h.le
    have hwhole := h.le_length
    omega
  have hfits : totalRead + chunk.length ≤ buffer.length := by
    rw [h.length_eq]
    exact hroom.1.trans (Nat.sub_le _ _)
  have hfront : (buffer.take totalRead ++ chunk).length = totalRead + chunk.length := by
    rw [List.length_append, List.length_take]
    omega
  refine ⟨buffer.take totalRead ++ chunk ++ buffer.drop (totalRead + chunk.length),
    if_pos hfits, ?_, hroom.1, hroom.2, ?_, ?_⟩
  · rw [List.length_append, hfront, List.length_drop, h.length_eq]
    rw [h.length_eq] at hfits
    omega
  · calc
      (buffer.take totalRead ++ chunk ++ buffer.drop (totalRead + chunk.length)).take
          (totalRead + chunk.length) = buffer.take totalRead ++ chunk := List.take_left' hfront
      _ = whole.take totalRead ++ (whole.drop totalRead).take chunk.length := by
        rw [h.take_eq, ← hchunk]
      _ = whole.take (totalRead + chunk.length) := List.take_add.symm
  · rw [List.drop_drop]

/-- The whole loop: it collects the output up to the size of the buffer. -/
theorem readOutput_spec (choice : ℕ → ℕ) (call : ℕ) {whole buffer output : List UInt8}
    {totalRead : ℕ} (h : Collected whole buffer totalRead output) :
    ∃ filled, readOutput choice call buffer totalRead output =
        some (filled, min (bufSize - 1) whole.length) ∧
      filled.length = bufSize ∧
      filled.take (min (bufSize - 1) whole.length) = whole.take (bufSize - 1) := by
  have hdone : ∀ {buffer : List UInt8} {totalRead : ℕ} {output : List UInt8},
      Collected whole buffer totalRead output →
      (totalRead = bufSize - 1 ∨ totalRead = whole.length) →
      totalRead = min (bufSize - 1) whole.length ∧ buffer.length = bufSize ∧
        buffer.take (min (bufSize - 1) whole.length) = whole.take (bufSize - 1) := by
    intro buffer totalRead output h hend
    have htotal : totalRead = min (bufSize - 1) whole.length := by
      have hle := h.le
      have hwhole := h.le_length
      omega
    refine ⟨htotal, h.length_eq, ?_⟩
    rw [← htotal, h.take_eq, htotal, ← List.take_eq_take_min]
  fun_induction readOutput choice call buffer totalRead output with
  | case1 call buffer totalRead output hlt chunk hpos hnone =>
    obtain ⟨filled, hfilled, -⟩ := h.step (choice call)
    exact absurd (hnone.symm.trans hfilled) (Option.some_ne_none _).symm
  | case2 call buffer totalRead output hlt chunk hpos filled hfilled hfull =>
    obtain ⟨filled', hfilled', hcollected⟩ := h.step (choice call)
    obtain rfl := Option.some_injective _ (hfilled.symm.trans hfilled')
    have hle : totalRead + chunk.length ≤ bufSize - 1 := hcollected.le
    obtain ⟨htotal, hrest⟩ := hdone hcollected (.inl (le_antisymm hle hfull))
    exact ⟨filled, by rw [htotal], hrest⟩
  | case3 call buffer totalRead output hlt chunk hpos filled hfilled hfull ih =>
    obtain ⟨filled', hfilled', hcollected⟩ := h.step (choice call)
    obtain rfl := Option.some_injective _ (hfilled.symm.trans hfilled')
    exact ih hcollected
  | case4 call buffer totalRead output hlt chunk hpos =>
    -- nothing is delivered only at the end of the output
    have hlength : chunk.length = _ := length_fread _ _ _
    have houtput := congrArg List.length h.rest
    rw [List.length_drop] at houtput
    have hwhole := h.le_length
    obtain ⟨htotal, hrest⟩ := hdone h (.inr (by omega))
    exact ⟨buffer, by rw [← htotal], hrest⟩
  | case5 call buffer totalRead output hlt =>
    have hle := h.le
    obtain ⟨htotal, hrest⟩ := hdone h (.inl (by omega))
    exact ⟨buffer, by rw [← htotal], hrest⟩

/-! ## The result -/

/-- The NUL behind the output ends the text. -/
theorem ofBuffer_set {filled front : List UInt8} {totalRead : ℕ} (hlt : totalRead < filled.length)
    (hfront : filled.take totalRead = front) :
    0 ∈ filled.set totalRead 0 ∧ ofBuffer (filled.set totalRead 0) = ofBuffer front := by
  rw [List.set_eq_take_append_cons_drop, if_pos hlt, hfront]
  exact ⟨by simp, ofBuffer_append_nul _ _⟩

/-- Whatever the buffer held and whatever each `fread` delivers, the result is the stripped text of
the first 4095 bytes of the output, or NULL if it is empty; and no write is outside the buffer. -/
theorem executeCmdFast_eq {cmd : CString} (hcmd : cmd ≠ empty) (hlength : cmd.length ≤ 2048)
    {slot : Option (List UInt8)} (hslot : ∀ buffer ∈ slot, buffer.length = bufSize)
    (output : List UInt8) (choice : ℕ → ℕ) :
    ∃ buffer, buffer.length = bufSize ∧
      executeCmdFast (some cmd) slot (some output) choice =
        some (found (strip (ofBuffer (output.take 4095))), buffer) := by
  have hvalid : ¬(cmd.length = 0 ∨ 2048 < cmd.length) := by
    rw [not_or]
    exact ⟨fun hzero ↦ hcmd (length_eq_zero_iff.1 hzero), by omega⟩
  have hbuffer : (slot.getD (List.replicate bufSize 0)).length = bufSize := by
    cases slot with
    | none => exact List.length_replicate
    | some buffer => exact hslot buffer rfl
  have hstart : Collected output (slot.getD (List.replicate bufSize 0)) 0 output :=
    ⟨hbuffer, Nat.zero_le _, Nat.zero_le _, by simp, by simp⟩
  obtain ⟨filled, hread, hfilled, htake⟩ := readOutput_spec choice 0 hstart
  have hlt : min (bufSize - 1) output.length < filled.length := by
    rw [hfilled]
    exact (Nat.min_le_left _ _).trans_lt (by decide)
  obtain ⟨hended, htext⟩ := ofBuffer_set hlt htake
  have htrimmed := ofBuffer_trimString hended
  rw [htext] at htrimmed
  refine ⟨trimString (filled.set (min (bufSize - 1) output.length) 0), by simp [hfilled], ?_⟩
  unfold executeCmdFast
  simp only [if_neg hvalid, hread, Option.bind_eq_bind, Option.bind_some, writeBytes_singleton hlt,
    checkedTrimString_eq hended, getD_zero_ne_iff, htrimmed, found, ite_not, Option.pure_def]
  rfl

theorem executeCmdFast_eq_example :
    ∃ buffer, buffer.length = bufSize ∧
      executeCmdFast (some (ofText "uname")) none (some [76, 105, 110, 117, 120, 10]) id =
        some (found (strip (ofBuffer ([76, 105, 110, 117, 120, 10].take 4095))), buffer) :=
  executeCmdFast_eq (by decide) (by decide) (by simp) _ _

end HiFetch.Utils
