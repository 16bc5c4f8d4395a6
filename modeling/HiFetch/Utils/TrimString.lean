import HiFetch.Library.Allocator
import HiFetch.Library.CString
import Mathlib.Data.List.DropRight
import Mathlib.Data.List.GetD

/-!
# Trimming a string in place

`trim_string` overwrites the trailing blanks of the string in a buffer with NULs and then moves the
rest of the string to the start of the buffer.  The string that it leaves is the old one without
its leading and trailing blanks.
-/

namespace HiFetch.Utils

open Allocator CString

/-- The four characters that `trim_string` takes for blanks. -/
def isBlank (byte : UInt8) : Bool := byte == 32 || byte == 9 || byte == 10 || byte == 13

def strlen (buffer : List UInt8) : ℕ := (ofBuffer buffer).length

/-- The loop from the end: `end` points to the byte before the given length. -/
def trimEnd (buffer : List UInt8) : ℕ → List UInt8
  | 0 => buffer
  | last + 1 =>
      if isBlank (buffer.getD last 0) then trimEnd (buffer.set last 0) last else buffer

/-- The loop from the start: the number of leading blanks. -/
def trimStart (buffer : List UInt8) : ℕ := (buffer.takeWhile isBlank).length

def trimString (buffer : List UInt8) : List UInt8 :=
  if strlen buffer = 0 then buffer
  else
    let trimmed := trimEnd buffer (strlen buffer)
    let start := trimStart trimmed
    if start = 0 then trimmed
    else
      let newLen := strlen (trimmed.drop start)
      if 0 < newLen then overwrite trimmed ((trimmed.drop start).take (newLen + 1))
      else trimmed.set 0 0

/-- A string without its leading and trailing blanks. -/
def strip (string : CString) : CString where
  bytes := (string.bytes.rdropWhile isBlank).dropWhile isBlank
  noNul hmem := string.noNul
    ((List.rdropWhile_prefix _ _).subset ((List.dropWhile_suffix _).subset hmem))

theorem strip_empty : strip empty = empty := rfl

theorem rdropWhile_strip (string : CString) :
    (strip string).bytes.rdropWhile isBlank = (strip string).bytes := by
  rw [List.rdropWhile_eq_self_iff]
  intro hne
  have hsuffix : (strip string).bytes <:+ string.bytes.rdropWhile isBlank :=
    List.dropWhile_suffix _
  have hwhole : string.bytes.rdropWhile isBlank ≠ [] := fun hnil ↦ by
    rw [hnil, List.suffix_nil] at hsuffix
    exact hne hsuffix
  rw [hsuffix.getLast hne]
  exact List.rdropWhile_last_not _ _ hwhole

theorem dropWhile_strip (string : CString) :
    (strip string).bytes.dropWhile isBlank = (strip string).bytes :=
  List.dropWhile_idempotent isBlank (string.bytes.rdropWhile isBlank)

theorem strip_strip (string : CString) : strip (strip string) = strip string := by
  ext1
  calc
    (strip (strip string)).bytes =
        ((strip string).bytes.rdropWhile isBlank).dropWhile isBlank := rfl
    _ = (strip string).bytes.dropWhile isBlank := by rw [rdropWhile_strip]
    _ = (strip string).bytes := dropWhile_strip string

theorem length_strip_le (string : CString) : (strip string).length ≤ string.length :=
  calc
    (strip string).length ≤ (string.bytes.rdropWhile isBlank).length :=
      (List.dropWhile_suffix _).length_le
    _ ≤ string.length := (List.rdropWhile_prefix _ _).length_le

/-- A text without blanks, with a newline behind it. -/
theorem strip_line {string : CString} (h : ∀ byte ∈ string.bytes, isBlank byte = false) :
    strip (ofBuffer (string.bytes ++ [10])) = string := by
  have hnoNul : 0 ∉ string.bytes ++ [10] := by simpa using string.noNul
  have hend : string.bytes.rdropWhile isBlank = string.bytes := by
    rw [List.rdropWhile_eq_self_iff]
    exact fun hne ↦ by simp [h _ (List.getLast_mem hne)]
  have hstart : string.bytes.dropWhile isBlank = string.bytes := by
    rw [List.dropWhile_eq_self_iff]
    exact fun hpos ↦ by simp [h _ (List.getElem_mem hpos)]
  ext1
  calc
    (strip (ofBuffer (string.bytes ++ [10]))).bytes =
        ((ofBuffer (string.bytes ++ [10])).bytes.rdropWhile isBlank).dropWhile isBlank := rfl
    _ = ((string.bytes ++ [10]).rdropWhile isBlank).dropWhile isBlank := by
      rw [bytes_ofBuffer_of_notMem hnoNul]
    _ = string.bytes := by rw [List.rdropWhile_concat_pos _ _ _ rfl, hend, hstart]

@[simp]
theorem length_trimEnd (buffer : List UInt8) (length : ℕ) :
    (trimEnd buffer length).length = buffer.length := by
  induction length generalizing buffer with
  | zero => rfl
  | succ last ih =>
    unfold trimEnd
    split_ifs
    · rw [ih, List.length_set]
    · rfl

@[simp]
theorem length_trimString (buffer : List UInt8) : (trimString buffer).length = buffer.length := by
  simp only [trimString]
  split_ifs <;> simp

/-- Trimming the end writes NULs over the trailing blanks and leaves what follows the string. -/
theorem trimEnd_append (text back : List UInt8) :
    ∃ count, trimEnd (text ++ back) text.length =
      text.rdropWhile isBlank ++ (List.replicate count 0 ++ back) := by
  induction text using List.reverseRecOn generalizing back with
  | nil => exact ⟨0, rfl⟩
  | append_singleton front last ih =>
    rw [List.length_append, List.length_singleton, List.append_assoc, trimEnd]
    have hlast : (front ++ ([last] ++ back)).getD front.length 0 = last := by simp
    rw [hlast]
    by_cases hblank : isBlank last
    · obtain ⟨count, hcount⟩ := ih (0 :: back)
      refine ⟨count + 1, ?_⟩
      have hset : (front ++ ([last] ++ back)).set front.length 0 = front ++ 0 :: back := by simp
      rw [if_pos hblank, hset, hcount, List.rdropWhile_concat_pos _ _ _ hblank]
      rw [List.replicate_succ', List.append_assoc, List.singleton_append]
    · refine ⟨0, ?_⟩
      rw [if_neg hblank, List.rdropWhile_concat_neg _ _ _ hblank, List.append_assoc]
      rfl

/-- The second half of `trim_string`: the string from its first character that is no blank is moved
to the start of the buffer. -/
theorem ofBuffer_moved (string : CString) (back : List UInt8) :
    let buffer := string.bytes ++ 0 :: back
    let start := trimStart buffer
    let newLen := strlen (buffer.drop start)
    (ofBuffer (if start = 0 then buffer
      else if 0 < newLen then overwrite buffer ((buffer.drop start).take (newLen + 1))
      else buffer.set 0 0)).bytes = string.bytes.dropWhile isBlank := by
  intro buffer start newLen
  generalize hlead : string.bytes.takeWhile isBlank = lead
  generalize htail : string.bytes.dropWhile isBlank = tail
  have hsplit : string.bytes = lead ++ tail := by
    rw [← hlead, ← htail, List.takeWhile_append_dropWhile]
  have hbuffer : buffer = lead ++ (tail ++ 0 :: back) := by
    rw [← List.append_assoc, ← hsplit]
  have hstart : start = lead.length := by
    rw [← hlead, ← takeWhile_append_cons (by decide : ¬isBlank 0) string.bytes back]
    rfl
  have hnoNul : 0 ∉ tail := by
    intro hmem
    apply string.noNul
    rw [hsplit]
    exact List.mem_append_right _ hmem
  have hdrop : buffer.drop start = tail ++ 0 :: back := by
    rw [hbuffer, hstart, List.drop_left]
  have hnewLen : newLen = tail.length := by
    have htext : strlen (tail ++ 0 :: back) = tail.length := by
      unfold strlen
      rw [ofBuffer_append_nul, ofBuffer_bytes ⟨tail, hnoNul⟩, CString.length]
    rw [← htext, ← hdrop]
  split_ifs with hzero hpos
  · have hlead' : lead = [] := List.length_eq_zero_iff.1 (hstart ▸ hzero)
    rw [hbuffer, hlead', List.nil_append, ofBuffer_append_nul, ofBuffer_bytes ⟨tail, hnoNul⟩]
  · have htake : (buffer.drop start).take (newLen + 1) = tail ++ [0] := by
      rw [hdrop, hnewLen, List.take_append, List.take_of_length_le (Nat.le_succ _)]
      simp
    have hfits : (tail ++ [0]).length ≤ buffer.length := by
      rw [hbuffer]
      simp only [List.length_append, List.length_cons, List.length_nil]
      omega
    rw [htake, overwrite, List.take_of_length_le hfits, List.append_assoc, List.singleton_append,
      ofBuffer_append_nul, ofBuffer_bytes ⟨tail, hnoNul⟩]
  · obtain rfl : tail = [] := List.length_eq_zero_iff.1 (by omega)
    have hhead : ofBuffer (buffer.set 0 0) = empty := by
      rw [ofBuffer_eq_empty_iff, hbuffer]
      cases lead <;> simp
    rw [hhead]
    rfl

/-- In a buffer that contains a NUL, `trim_string` leaves the stripped string. -/
theorem ofBuffer_trimString {buffer : List UInt8} (h : 0 ∈ buffer) :
    ofBuffer (trimString buffer) = strip (ofBuffer buffer) := by
  obtain ⟨back, hbuffer⟩ := exists_eq_append_nul h
  generalize ofBuffer buffer = string at hbuffer
  subst hbuffer
  have hlength : strlen (string.bytes ++ 0 :: back) = string.bytes.length := by
    unfold strlen
    rw [ofBuffer_append_nul, ofBuffer_bytes, CString.length]
  by_cases hempty : strlen (string.bytes ++ 0 :: back) = 0
  · have hstring : string = empty := length_eq_zero_iff.1 (hlength.symm.trans hempty)
    unfold trimString
    rw [if_pos hempty, ofBuffer_append_nul, ofBuffer_bytes, hstring, strip_empty]
  obtain ⟨count, htrimmed⟩ := trimEnd_append string.bytes (0 :: back)
  obtain ⟨rest, hrest⟩ : ∃ rest, List.replicate count 0 ++ 0 :: back = 0 :: rest := by
    cases count with
    | zero => exact ⟨back, rfl⟩
    | succ count => exact ⟨List.replicate count 0 ++ 0 :: back, rfl⟩
  have hnoNul : 0 ∉ string.bytes.rdropWhile isBlank := fun hmem ↦
    string.noNul ((List.rdropWhile_prefix _ _).subset hmem)
  ext1
  unfold trimString
  rw [if_neg hempty, hlength, htrimmed, hrest]
  exact ofBuffer_moved ⟨string.bytes.rdropWhile isBlank, hnoNul⟩ rest

/-- The trimmed string still ends inside the buffer. -/
theorem mem_trimString {buffer : List UInt8} (h : 0 ∈ buffer) : 0 ∈ trimString buffer := by
  rw [← length_ofBuffer_lt_iff, ofBuffer_trimString h, length_trimString]
  calc
    (strip (ofBuffer buffer)).length ≤ (ofBuffer buffer).length := length_strip_le _
    _ < buffer.length := length_ofBuffer_lt_iff.2 h

theorem trimEnd_append_right {front : List UInt8} {length : ℕ} (h : length ≤ front.length)
    (back : List UInt8) : trimEnd (front ++ back) length = trimEnd front length ++ back := by
  induction length generalizing front with
  | zero => rfl
  | succ last ih =>
    unfold trimEnd
    rw [List.getD_append _ _ _ _ h, List.set_append_left _ _ h]
    split_ifs
    · exact ih (by rw [List.length_set]; omega)
    · rfl

/-- Trimming leaves the NUL that ends the string, and what follows it, in their places. -/
theorem trimString_append_nul {text : List UInt8} (hnul : 0 ∉ text) (back : List UInt8) :
    ∃ trimmed : List UInt8, trimmed.length = text.length ∧
      trimString (text ++ 0 :: back) = trimmed ++ 0 :: back := by
  have hlength : strlen (text ++ 0 :: back) = text.length := by
    unfold strlen
    rw [ofBuffer_append_nul, ofBuffer_bytes ⟨text, hnul⟩, CString.length]
  unfold trimString
  rw [hlength, trimEnd_append_right le_rfl]
  dsimp only
  have hkept := length_trimEnd text text.length
  generalize trimEnd text text.length = kept at hkept
  have hblanks : trimStart (kept ++ 0 :: back) ≤ kept.length := by
    unfold trimStart
    rw [takeWhile_append_cons (by decide)]
    exact (List.takeWhile_prefix _).length_le
  generalize trimStart (kept ++ 0 :: back) = start at hblanks
  have hdrop : (kept ++ 0 :: back).drop start = kept.drop start ++ 0 :: back :=
    List.drop_append_of_le_length hblanks
  split_ifs with hempty hstart hpos
  · exact ⟨text, rfl, rfl⟩
  · exact ⟨kept, hkept, rfl⟩
  · -- fewer bytes are moved than stand before the NUL
    generalize hmoved : ((kept ++ 0 :: back).drop start).take
      (strlen ((kept ++ 0 :: back).drop start) + 1) = moved
    have hshort : moved.length ≤ kept.length := by
      have hstring : strlen ((kept ++ 0 :: back).drop start) ≤ (kept.drop start).length := by
        unfold strlen
        rw [hdrop, ofBuffer_append_nul]
        exact (List.takeWhile_prefix _).length_le
      rw [List.length_drop] at hstring
      rw [← hmoved, List.length_take]
      omega
    refine ⟨moved ++ kept.drop moved.length, ?_, ?_⟩
    · rw [List.length_append, List.length_drop]
      omega
    · unfold overwrite
      rw [List.take_of_length_le (by rw [List.length_append]; omega),
        List.drop_append_of_le_length hshort, List.append_assoc]
  · refine ⟨kept.set 0 0, by rw [List.length_set, hkept], ?_⟩
    exact List.set_append_left _ _ (by omega)

/-! ## Writes inside the buffer -/

/-- The bytes of a buffer from `start` on are replaced, or nothing where they do not fit. -/
def writeBytes (buffer : List UInt8) (start : ℕ) (bytes : List UInt8) : Option (List UInt8) :=
  if start + bytes.length ≤ buffer.length then
    some (buffer.take start ++ bytes ++ buffer.drop (start + bytes.length))
  else none

def memmove (buffer : List UInt8) (dest source count : ℕ) : Option (List UInt8) :=
  if source + count ≤ buffer.length then writeBytes buffer dest ((buffer.drop source).take count)
  else none

/-- `trimEnd`, with nothing where it leaves the buffer. -/
def checkedTrimEnd (buffer : List UInt8) : ℕ → Option (List UInt8)
  | 0 => some buffer
  | last + 1 =>
      if isBlank (buffer.getD last 0) then
        (writeBytes buffer last [0]).bind fun buffer ↦ checkedTrimEnd buffer last
      else some buffer

/-- `trim_string`, with nothing where it leaves the buffer. -/
def checkedTrimString (buffer : List UInt8) : Option (List UInt8) :=
  if strlen buffer = 0 then some buffer
  else (checkedTrimEnd buffer (strlen buffer)).bind fun trimmed ↦
    let start := trimStart trimmed
    if start = 0 then some trimmed
    else
      let newLen := strlen (trimmed.drop start)
      if 0 < newLen then memmove trimmed 0 start (newLen + 1)
      else writeBytes trimmed 0 [0]

theorem writeBytes_singleton {buffer : List UInt8} {index : ℕ} (h : index < buffer.length)
    (byte : UInt8) : writeBytes buffer index [byte] = some (buffer.set index byte) := by
  unfold writeBytes
  rw [if_pos (by rw [List.length_singleton]; omega), List.set_eq_take_append_cons_drop, if_pos h,
    List.append_assoc]
  rfl

theorem checkedTrimEnd_eq {buffer : List UInt8} {length : ℕ} (h : length ≤ buffer.length) :
    checkedTrimEnd buffer length = some (trimEnd buffer length) := by
  induction length generalizing buffer with
  | zero => rfl
  | succ last ih =>
    unfold checkedTrimEnd trimEnd
    split_ifs
    · rw [writeBytes_singleton h, Option.bind_some]
      exact ih (by rw [List.length_set]; omega)
    · rfl

theorem memmove_zero {buffer : List UInt8} {source count : ℕ}
    (h : source + count ≤ buffer.length) :
    memmove buffer 0 source count = some (overwrite buffer ((buffer.drop source).take count)) := by
  have hlength : ((buffer.drop source).take count).length = count := by
    rw [List.length_take, List.length_drop]
    omega
  unfold memmove writeBytes overwrite
  rw [if_pos h, hlength, if_pos (by omega), List.take_of_length_le (by omega : _ ≤ buffer.length)]
  simp

theorem mem_trimEnd {buffer : List UInt8} {length : ℕ} (h : 0 ∈ buffer)
    (hlength : length ≤ buffer.length) : 0 ∈ trimEnd buffer length := by
  induction length generalizing buffer with
  | zero => exact h
  | succ last ih =>
    unfold trimEnd
    split_ifs
    · exact ih (List.mem_set hlength 0) (by rw [List.length_set]; omega)
    · exact h

theorem mem_drop_trimStart {buffer : List UInt8} (h : 0 ∈ buffer) :
    0 ∈ buffer.drop (trimStart buffer) := by
  have hsplit : buffer.takeWhile isBlank ++ buffer.dropWhile isBlank = buffer :=
    List.takeWhile_append_dropWhile
  have hdrop : buffer.drop (trimStart buffer) = buffer.dropWhile isBlank :=
    calc
      buffer.drop (trimStart buffer) =
          (buffer.takeWhile isBlank ++ buffer.dropWhile isBlank).drop (trimStart buffer) := by
        rw [hsplit]
      _ = buffer.dropWhile isBlank := List.drop_left
  rw [hdrop]
  rw [← hsplit, List.mem_append] at h
  refine h.resolve_left fun hmem ↦ ?_
  exact absurd (List.mem_takeWhile_imp hmem) (by decide)

/-- `trim_string` stays inside a buffer that contains a NUL. -/
theorem checkedTrimString_eq {buffer : List UInt8} (h : 0 ∈ buffer) :
    checkedTrimString buffer = some (trimString buffer) := by
  have hlt : strlen buffer < buffer.length := length_ofBuffer_lt_iff.2 h
  unfold checkedTrimString trimString
  rw [checkedTrimEnd_eq hlt.le, Option.bind_some]
  have hended := mem_drop_trimStart (mem_trimEnd h hlt.le)
  generalize trimEnd buffer (strlen buffer) = trimmed at hended
  have hinside : strlen (trimmed.drop (trimStart trimmed)) <
      (trimmed.drop (trimStart trimmed)).length := length_ofBuffer_lt_iff.2 hended
  rw [List.length_drop] at hinside
  dsimp only
  split_ifs
  · rfl
  · rfl
  · rw [memmove_zero (by omega)]
  · rw [writeBytes_singleton (by omega)]

/-! ## Two-sided stripping -/

/-- What is left of a string without the blanks at its ends. -/
structure Stripped (string text : CString) : Prop where
  split : ∃ lead trail, string.bytes = lead ++ (text.bytes ++ trail) ∧
    (∀ byte ∈ lead, isBlank byte) ∧ ∀ byte ∈ trail, isBlank byte
  head : ∀ byte ∈ text.bytes.head?, ¬isBlank byte
  last : ∀ byte ∈ text.bytes.getLast?, ¬isBlank byte

theorem dropWhile_isBlank_iff {bytes : List UInt8} :
    bytes.dropWhile isBlank = bytes ↔ ∀ byte ∈ bytes.head?, ¬isBlank byte := by
  rw [List.dropWhile_eq_self_iff]
  cases bytes <;> simp

theorem rdropWhile_isBlank_iff {bytes : List UInt8} :
    bytes.rdropWhile isBlank = bytes ↔ ∀ byte ∈ bytes.getLast?, ¬isBlank byte := by
  rw [List.rdropWhile_eq_self_iff]
  cases bytes using List.reverseRecOn <;> simp

/-- The runs of blanks that are removed are the longest ones. -/
theorem stripped_iff {string text : CString} : Stripped string text ↔ text = strip string := by
  constructor
  · rintro ⟨⟨lead, trail, hsplit, hlead, htrail⟩, hhead, hlast⟩
    have hend : string.bytes.rdropWhile isBlank = (lead ++ text.bytes).rdropWhile isBlank := by
      rw [hsplit, ← List.append_assoc, List.rdropWhile, List.reverse_append,
        List.dropWhile_append_of_pos fun byte hmem ↦ htrail byte (List.mem_reverse.1 hmem)]
      rfl
    ext1
    show text.bytes = (string.bytes.rdropWhile isBlank).dropWhile isBlank
    rw [hend]
    cases htext : text.bytes using List.reverseRecOn with
    | nil =>
      rw [List.append_nil, List.rdropWhile_eq_nil_iff.2 hlead]
      rfl
    | append_singleton front final =>
      have hfinal : ¬isBlank final := hlast final (by rw [htext, List.getLast?_concat]; rfl)
      have hfirst : text.bytes.dropWhile isBlank = text.bytes := dropWhile_isBlank_iff.2 hhead
      rw [← List.append_assoc, List.rdropWhile_concat_neg _ _ _ hfinal, List.append_assoc,
        List.dropWhile_append_of_pos hlead, ← htext, hfirst]
  · rintro rfl
    have hfront : (string.bytes.rdropWhile isBlank).takeWhile isBlank ++ (strip string).bytes =
        string.bytes.rdropWhile isBlank := List.takeWhile_append_dropWhile
    refine ⟨⟨(string.bytes.rdropWhile isBlank).takeWhile isBlank,
      string.bytes.rtakeWhile isBlank, ?_, fun byte hmem ↦ List.mem_takeWhile_imp hmem,
      fun byte hmem ↦ List.mem_rtakeWhile_imp hmem⟩, ?_, ?_⟩
    · rw [← List.append_assoc, hfront, List.rdropWhile_append_rtakeWhile]
    · exact dropWhile_isBlank_iff.1 (dropWhile_strip string)
    · exact rdropWhile_isBlank_iff.1 (rdropWhile_strip string)

/-- A string without blanks at its ends is not written to. -/
theorem trimString_of_strip {buffer : List UInt8} (h : 0 ∈ buffer)
    (hstrip : strip (ofBuffer buffer) = ofBuffer buffer) : trimString buffer = buffer := by
  obtain ⟨back, hbuffer⟩ := exists_eq_append_nul h
  have hlast : (ofBuffer buffer).bytes.rdropWhile isBlank = (ofBuffer buffer).bytes := by
    rw [← hstrip, rdropWhile_strip]
  have hfirst : (ofBuffer buffer).bytes.dropWhile isBlank = (ofBuffer buffer).bytes := by
    rw [← hstrip, dropWhile_strip]
  clear hstrip
  generalize ofBuffer buffer = string at hbuffer hlast hfirst
  subst hbuffer
  have hlength : strlen (string.bytes ++ 0 :: back) = string.bytes.length := by
    unfold strlen
    rw [ofBuffer_append_nul, ofBuffer_bytes, CString.length]
  have hend : trimEnd (string.bytes ++ 0 :: back) string.bytes.length =
      string.bytes ++ 0 :: back := by
    obtain ⟨count, hcount⟩ := trimEnd_append string.bytes (0 :: back)
    have hnone := congrArg List.length hcount
    rw [length_trimEnd, hlast] at hnone
    obtain rfl : count = 0 := by
      simp only [List.length_append, List.length_replicate] at hnone
      omega
    rw [hcount, hlast, List.replicate_zero, List.nil_append]
  have hstart : trimStart (string.bytes ++ 0 :: back) = 0 := by
    have hsplit : string.bytes.takeWhile isBlank ++ string.bytes.dropWhile isBlank =
        string.bytes := List.takeWhile_append_dropWhile
    rw [hfirst, List.append_left_eq_self] at hsplit
    unfold trimStart
    rw [takeWhile_append_cons (by decide), hsplit, List.length_nil]
  unfold trimString
  rw [hlength, hend]
  dsimp only
  rw [if_pos hstart, ite_self]

/-- `trim_string` leaves the string without the blanks at its ends, and the bytes from its old NUL
on as they were; called again, it writes nothing else. -/
theorem checkedTrimString_strips (string : CString) (back : List UInt8) :
    ∃ after : List UInt8, after.length = string.length ∧
      checkedTrimString (string.bytes ++ 0 :: back) = some (after ++ 0 :: back) ∧
      Stripped string (ofBuffer (after ++ 0 :: back)) ∧
      checkedTrimString (after ++ 0 :: back) = some (after ++ 0 :: back) := by
  have hended (front : List UInt8) : 0 ∈ front ++ 0 :: back := by simp
  have htext : ofBuffer (string.bytes ++ 0 :: back) = string := by
    rw [ofBuffer_append_nul, ofBuffer_bytes]
  obtain ⟨after, hlength, hafter⟩ := trimString_append_nul string.noNul back
  have hstrip : ofBuffer (after ++ 0 :: back) = strip string := by
    rw [← hafter, ofBuffer_trimString (hended _), htext]
  refine ⟨after, hlength, ?_, stripped_iff.2 hstrip, ?_⟩
  · rw [checkedTrimString_eq (hended _), hafter]
  · have hagain : strip (ofBuffer (after ++ 0 :: back)) = ofBuffer (after ++ 0 :: back) := by
      rw [hstrip, strip_strip]
    rw [checkedTrimString_eq (hended _), trimString_of_strip (hended _) hagain]

end HiFetch.Utils
