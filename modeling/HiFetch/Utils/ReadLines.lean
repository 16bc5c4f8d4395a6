import HiFetch.Library.Strtok
import HiFetch.Utils.ReadFile

/-!
# Lines of a file in a buffer

A file of lines that `read_file_fast` reads into a buffer is taken apart with `strtok`.  Where the
file is larger than the buffer, the line at the end of the buffer is cut.
-/

namespace HiFetch.Utils

open CString Strtok

/-- A line that is not empty and contains neither a newline nor a NUL. -/
def CleanLine (line : List UInt8) : Prop := line ≠ [] ∧ 10 ∉ line ∧ 0 ∉ line

theorem zero_notMem_terminated {lines : List (List UInt8)} (h : ∀ line ∈ lines, CleanLine line) :
    0 ∉ terminated 10 lines := by
  intro hmem
  obtain ⟨line, hline, hzero⟩ := List.mem_flatMap.1 hmem
  rcases List.mem_append.1 hzero with hinside | hend
  · exact (h line hline).2.2 hinside
  · exact absurd (List.mem_singleton.1 hend) (by decide)

/-- The lines in the buffer are those of the bytes that `read` delivers. -/
theorem tokens_readText {buffer : List UInt8} {size count : ℕ} (hsize : size ≤ intMax)
    (hbuffer : size ≤ buffer.length) {lines : List (List UInt8)}
    (h : ∀ line ∈ lines, CleanLine line) (hpos : 0 < count) (hlt : count < size)
    (hcount : count ≤ (terminated 10 lines).length) :
    ∃ text, readText buffer size (.delivered (terminated 10 lines) count) = some text ∧
      tokens text 10 = (cut count lines).map ofBuffer := by
  refine ⟨_, readText_of_pos hsize hbuffer hpos hlt hcount, ?_⟩
  have hnoNul : 0 ∉ (terminated 10 lines).take count := fun hmem ↦
    zero_notMem_terminated h (List.mem_of_mem_take hmem)
  rw [tokens_eq, bytes_ofBuffer_of_notMem hnoNul,
    pieces_take_terminated fun line hline ↦ ⟨(h line hline).1, (h line hline).2.1⟩]

/-- The lines of a whole read are cut where the buffer ends. -/
theorem tokens_wholeRead {buffer : List UInt8} {size : ℕ} (hsize : size ≤ intMax)
    (hbuffer : size ≤ buffer.length) {lines : List (List UInt8)}
    (h : ∀ line ∈ lines, CleanLine line) (hne : lines ≠ []) (hroom : 1 < size) :
    ∃ text, readText buffer size (wholeRead size (terminated 10 lines)) = some text ∧
      tokens text 10 = (cut (size - 1) lines).map ofBuffer := by
  obtain ⟨line, rest, rfl⟩ := List.exists_cons_of_ne_nil hne
  have hpos : 0 < min (terminated 10 (line :: rest)).length (size - 1) := by
    rw [length_terminated_cons]
    omega
  obtain ⟨text, htext, htokens⟩ :=
    tokens_readText hsize hbuffer h hpos (by omega) (Nat.min_le_left _ _)
  refine ⟨text, htext, ?_⟩
  rw [htokens, cut_min fun other hmem ↦ ⟨(h other hmem).1, (h other hmem).2.1⟩]

/-- The first lines are whole if the buffer has room for them. -/
theorem tokens_readText_of_fits {buffer : List UInt8} {size first : ℕ} (hsize : size ≤ intMax)
    (hbuffer : size ≤ buffer.length) {lines : List (List UInt8)}
    (h : ∀ line ∈ lines, CleanLine line) (hne : lines ≠ [])
    (hfits : (terminated 10 (lines.take first)).length < size) (hroom : 1 < size) :
    ∃ text others, readText buffer size (wholeRead size (terminated 10 lines)) = some text ∧
      tokens text 10 = (lines.take first).map ofBuffer ++ others ∧
      (lines.length ≤ first → others = []) := by
  obtain ⟨text, htext, htokens⟩ := tokens_wholeRead hsize hbuffer h hne hroom
  obtain ⟨others, hothers, hnone⟩ := cut_of_le (Nat.le_sub_one_of_lt hfits)
  refine ⟨text, others.map ofBuffer, htext, ?_, fun hle ↦ ?_⟩
  · rw [htokens, hothers, List.map_append]
  · rw [hnone hle, List.map_nil]

end HiFetch.Utils
