import HiFetch.Library.Decimal
import HiFetch.Library.Transition
import HiFetch.Utils.TrimString

/-!
# Reading small files

`read_file_fast` reads a file into a buffer of the caller, and `read_sysfs_string` uses it with a
static buffer, so the buffer that one call leaves is the one that the next call starts with.  Where
`read` delivers no byte, `read_file_fast` sets only the last byte of the buffer to NUL.

The contents of the file and how many bytes `read` delivers are arguments.
-/

namespace HiFetch.Utils

open Allocator CString Transition

def intMax : ℕ := 2 ^ 31 - 1

/-- What `open` and `read` do with a file. -/
inductive FileRead where
  | openFails
  | readFails
  /-- `read` delivers the first `count` bytes of the file. -/
  | delivered (content : List UInt8) (count : ℕ)
deriving DecidableEq

/-- What is documented for `read` with a limit: it delivers bytes of the file up to the limit, and
none only at the end of the file or when it is asked for none. -/
def FileRead.Documented (file : FileRead) (limit : ℕ) : Prop :=
  match file with
  | .delivered content count =>
      count ≤ content.length ∧ count ≤ limit ∧ (count = 0 → content = [] ∨ limit = 0)
  | _ => True

/-- What `read` delivers when it delivers all it is asked for. -/
def wholeRead (size : ℕ) (content : List UInt8) : FileRead :=
  .delivered content (min content.length (size - 1))

theorem documented_wholeRead {size : ℕ} (hroom : 1 < size) (content : List UInt8) :
    (wholeRead size content).Documented (size - 1) := by
  refine ⟨Nat.min_le_left _ _, Nat.min_le_right _ _, fun hzero ↦ .inl ?_⟩
  exact List.eq_nil_of_length_eq_zero (by omega)

/-- `read_file_fast`: its result and the buffer. -/
def readFileFast (buffer : List UInt8) (size : ℕ) (file : FileRead) : ℤ × List UInt8 :=
  if size = 0 ∨ intMax < size then (0, buffer)
  else match file with
    | .openFails => (0, buffer)
    | .readFails => (0, buffer)
    | .delivered content count =>
        let filled := overwrite buffer (content.take count)
        if 0 < count ∧ count < size then (1, filled.set count 0)
        else (1, filled.set (size - 1) 0)

/-- `read_sysfs_string`, with the static buffer as an argument and as a result. -/
def readSysfsString (buffer : List UInt8) (file : FileRead) : Option CString × List UInt8 :=
  match readFileFast buffer 1024 file with
  | (1, filled) =>
      let trimmed := trimString filled
      (if trimmed.getD 0 0 ≠ 0 then some (ofBuffer trimmed) else none, trimmed)
  | (_, filled) => (none, filled)

def readSysfsInt (buffer : List UInt8) (file : FileRead) : ℤ × List UInt8 :=
  match readSysfsString buffer file with
  | (some string, buffer) => (atoi string, buffer)
  | (none, buffer) => (0, buffer)

/-- `read_sysfs_float`, with an exact number. -/
def readSysfsFloat (buffer : List UInt8) (file : FileRead) : ℚ × List UInt8 :=
  match readSysfsString buffer file with
  | (some string, buffer) => (atof string, buffer)
  | (none, buffer) => (0, buffer)

/-- The string that a successful `read_file_fast` leaves. -/
def readText (buffer : List UInt8) (size : ℕ) (file : FileRead) : Option CString :=
  match readFileFast buffer size file with
  | (1, filled) => some (ofBuffer filled)
  | _ => none

/-! ## One read -/

/-- The first `limit` bytes of the file, cut at the first NUL. -/
def FileRead.text (file : FileRead) (limit : ℕ) : CString :=
  match file with
  | .delivered content _ => ofBuffer (content.take (min content.length limit))
  | _ => empty

/-- A successful `read_file_fast` leaves the text of the file. -/
def ReadsText (buffer : List UInt8) (size : ℕ) (file : FileRead) : Prop :=
  (readFileFast buffer size file).1 = 1 →
    ofBuffer (readFileFast buffer size file).2 = file.text (size - 1)

/-- There is room for one byte only, or the file is empty and so is the string in the buffer, or
`read` delivers all it is asked for, or at least a NUL or all bytes before one. -/
def DeliversText (buffer : List UInt8) (size : ℕ) : FileRead → Prop
  | .delivered content count =>
      size = 1 ∨
        if content = [] then ofBuffer buffer = empty
        else count = min content.length (size - 1) ∨ 0 ∈ content.take (count + 1)
  | _ => True

/-- The bytes that `read` delivers and the NUL behind them. -/
theorem readFileFast_of_pos {buffer content : List UInt8} {size count : ℕ} (hsize : size ≤ intMax)
    (hbuffer : size ≤ buffer.length) (hcount : 0 < count) (hlt : count < size)
    (hcontent : count ≤ content.length) :
    readFileFast buffer size (.delivered content count) =
      (1, content.take count ++ 0 :: buffer.drop (count + 1)) := by
  have hlength : (content.take count).length = count := List.length_take_of_le hcontent
  have hfilled : overwrite buffer (content.take count) =
      content.take count ++ buffer.drop count := by
    unfold overwrite
    rw [hlength, List.take_of_length_le (by omega)]
  unfold readFileFast
  rw [if_neg (by omega)]
  dsimp only
  rw [if_pos ⟨hcount, hlt⟩, hfilled, List.set_append_right _ _ hlength.le, hlength, Nat.sub_self]
  rw [List.drop_eq_getElem_cons (by omega), List.set_cons_zero]

/-- The text of the bytes that `read` delivers. -/
theorem readText_of_pos {buffer content : List UInt8} {size count : ℕ} (hsize : size ≤ intMax)
    (hbuffer : size ≤ buffer.length) (hcount : 0 < count) (hlt : count < size)
    (hcontent : count ≤ content.length) :
    readText buffer size (.delivered content count) = some (ofBuffer (content.take count)) := by
  rw [readText, readFileFast_of_pos hsize hbuffer hcount hlt hcontent]
  exact congrArg some (ofBuffer_append_nul _ _)

/-- Without any byte of the file, the buffer keeps what it held. -/
theorem readFileFast_zero {buffer content : List UInt8} {size : ℕ} (hpos : 0 < size)
    (hsize : size ≤ intMax) :
    readFileFast buffer size (.delivered content 0) = (1, buffer.set (size - 1) 0) := by
  unfold readFileFast
  rw [if_neg (by omega)]
  simp [overwrite]

theorem readFileFast_openFails {buffer : List UInt8} :
    readFileFast buffer 1024 .openFails = (0, buffer) := by
  rw [readFileFast, if_neg (by decide)]

theorem readFileFast_readFails {buffer : List UInt8} :
    readFileFast buffer 1024 .readFails = (0, buffer) := by
  rw [readFileFast, if_neg (by decide)]

theorem length_readFileFast (buffer : List UInt8) (size : ℕ) (file : FileRead) :
    (readFileFast buffer size file).2.length = buffer.length := by
  unfold readFileFast
  split_ifs with hsize
  · rfl
  · cases file with
    | openFails => rfl
    | readFails => rfl
    | delivered content count =>
      dsimp only
      split_ifs <;> rw [List.length_set, length_overwrite]

/-- A successful `read_file_fast` leaves the text of the file exactly when `read` delivers the text,
or the buffer held no text before. -/
theorem readsText_iff {buffer : List UInt8} {size : ℕ} {file : FileRead} (hpos : 0 < size)
    (hsize : size ≤ intMax) (hbuffer : size ≤ buffer.length)
    (hread : file.Documented (size - 1)) :
    ReadsText buffer size file ↔ DeliversText buffer size file := by
  cases file with
  | openFails => simp [ReadsText, DeliversText, readFileFast]
  | readFails => simp [ReadsText, DeliversText, readFileFast]
  | delivered content count =>
    obtain ⟨hcontent, hlimit, hzero⟩ := hread
    rw [DeliversText]
    rcases Nat.eq_zero_or_pos count with rfl | hcount
    · have hresult : ReadsText buffer size (.delivered content 0) ↔
          ofBuffer (buffer.set (size - 1) 0) =
            ofBuffer (content.take (min content.length (size - 1))) := by
        unfold ReadsText
        rw [readFileFast_zero hpos hsize, FileRead.text]
        exact ⟨fun h ↦ h rfl, fun h _ ↦ h⟩
      have htext : content.take (min content.length (size - 1)) = [] := by
        rcases hzero rfl with hempty | hlimit
        · rw [hempty, List.take_nil]
        · rw [hlimit, Nat.min_zero, List.take_zero]
      rw [hresult, htext, ofBuffer_nil, ofBuffer_eq_empty_iff]
      rcases Nat.eq_or_lt_of_le (Nat.succ_le_of_lt hpos) with hone | hmore
      · refine iff_of_true ?_ (.inl hone.symm)
        obtain rfl : size = 1 := hone.symm
        cases buffer <;> simp
      · have hempty : content = [] := (hzero rfl).resolve_right (by omega)
        have hhead : (buffer.set (size - 1) 0).head? = buffer.head? := by
          rw [List.head?_eq_getElem?, List.head?_eq_getElem?, List.getElem?_set_ne (by omega)]
        rw [hhead, if_pos hempty, ← ofBuffer_eq_empty_iff]
        exact ⟨.inr, fun h ↦ h.resolve_left (by omega)⟩
    · have hne : content ≠ [] := List.ne_nil_of_length_pos (by omega)
      have hresult : ReadsText buffer size (.delivered content count) ↔
          ofBuffer (content.take count) =
            ofBuffer (content.take (min content.length (size - 1))) := by
        rw [ReadsText, readFileFast_of_pos hsize hbuffer hcount (by omega) hcontent, FileRead.text,
          ofBuffer_append_nul]
        exact ⟨fun h ↦ h rfl, fun h _ ↦ h⟩
      rw [hresult, ofBuffer_take_eq_iff (Nat.le_min.2 ⟨hcontent, hlimit⟩) (Nat.min_le_left _ _),
        if_neg hne]
      exact ⟨.inr, fun h ↦ h.resolve_left (by omega)⟩

/-! ## Runs through the static buffer -/

inductive SysfsCall where
  | string (file : FileRead)
  | int (file : FileRead)
deriving DecidableEq

def SysfsCall.file : SysfsCall → FileRead
  | .string file => file
  | .int file => file

inductive SysfsResult where
  | string (result : Option CString)
  | int (result : ℤ)
deriving DecidableEq

/-- The static buffer after a call. -/
def sysfsStep (buffer : List UInt8) : SysfsCall → List UInt8
  | .string file => (readSysfsString buffer file).2
  | .int file => (readSysfsInt buffer file).2

def sysfsResult (buffer : List UInt8) : SysfsCall → SysfsResult
  | .string file => .string (readSysfsString buffer file).1
  | .int file => .int (readSysfsInt buffer file).1

/-- The static buffer before the first call. -/
def zeroBuffer : List UInt8 := List.replicate 1024 0

/-- The result of a call that no other call came before. -/
def firstResult (call : SysfsCall) : SysfsResult := sysfsResult zeroBuffer call

/-- A call that reads an empty file finds no text in the buffer, or, for a number, a text that is
not read as another number than zero. -/
def FindsNoText (buffer : List UInt8) : SysfsCall → Prop
  | .string (.delivered content _) => content = [] → ofBuffer buffer = empty
  | .int (.delivered content _) => content = [] → atoi (ofBuffer buffer) = 0
  | _ => True

/-- The buffer holds a trimmed text. -/
structure Trimmed (buffer : List UInt8) : Prop where
  length_eq : buffer.length = 1024
  ended : 0 ∈ buffer
  strip_eq : strip (ofBuffer buffer) = ofBuffer buffer

theorem trimmed_zeroBuffer : Trimmed zeroBuffer := by
  have hempty : ofBuffer zeroBuffer = empty := ofBuffer_eq_empty_iff.2 (by simp [zeroBuffer])
  exact ⟨List.length_replicate, List.mem_replicate.2 ⟨by decide, rfl⟩, by rw [hempty, strip_empty]⟩

/-- What `read_sysfs_string` makes of a text. -/
def found (string : CString) : Option CString := if string = empty then none else some string

/-- The text in the static buffer after a file has been read into it. -/
def textAfter (buffer : List UInt8) : FileRead → CString
  | .delivered content count =>
      if content = [] then ofBuffer buffer else strip (ofBuffer (content.take count))
  | _ => empty

/-- The text in the static buffer, where it held another one before. -/
def textHeld (held : CString) : FileRead → CString
  | .delivered content count =>
      if content = [] then held else strip (ofBuffer (content.take count))
  | _ => held

/-- A successful read is followed by trimming. -/
theorem readSysfsString_of_filled {buffer filled : List UInt8} {file : FileRead}
    (hread : readFileFast buffer 1024 file = (1, filled)) (hended : 0 ∈ filled) :
    readSysfsString buffer file = (found (strip (ofBuffer filled)), trimString filled) := by
  have htext := ofBuffer_trimString hended
  have hhead : (trimString filled).getD 0 0 ≠ 0 ↔ strip (ofBuffer filled) ≠ empty := by
    rw [← htext]
    exact getD_zero_ne_iff
  unfold readSysfsString
  rw [hread]
  simp only [hhead, htext, found, ite_not]

theorem readSysfsString_fails {buffer : List UInt8} {file : FileRead}
    (hread : readFileFast buffer 1024 file = (0, buffer)) :
    readSysfsString buffer file = (none, buffer) := by
  rw [readSysfsString, hread]
  rfl

theorem length_readSysfsString (buffer : List UInt8) (file : FileRead) :
    (readSysfsString buffer file).2.length = buffer.length := by
  have hlength := length_readFileFast buffer 1024 file
  unfold readSysfsString
  split <;> rename_i hread <;> rw [hread] at hlength
  · exact (length_trimString _).trans hlength
  · exact hlength

theorem trimmed_trimString {filled : List UInt8} (hlength : filled.length = 1024)
    (hended : 0 ∈ filled) : Trimmed (trimString filled) :=
  ⟨by rw [length_trimString, hlength], mem_trimString hended,
    by rw [ofBuffer_trimString hended, strip_strip]⟩

theorem ofBuffer_set_last {buffer : List UInt8} (hended : 0 ∈ buffer) :
    ofBuffer (buffer.set (buffer.length - 1) 0) = ofBuffer buffer := by
  obtain ⟨back, hback⟩ := exists_eq_append_nul hended
  generalize ofBuffer buffer = string at hback ⊢
  subst hback
  cases back using List.reverseRecOn with
  | nil => simp
  | append_singleton back last _ =>
    have hset : (string.bytes ++ 0 :: (back ++ [last])).set
        ((string.bytes ++ 0 :: (back ++ [last])).length - 1) 0 =
          string.bytes ++ 0 :: (back ++ [0]) := by
      rw [List.set_append_right _ _ (by simp)]
      simp
    rw [hset, ofBuffer_append_nul, ofBuffer_bytes]

/-- Where `read` delivers a byte, what the buffer held before does not matter. -/
theorem readSysfsString_of_pos {buffer content : List UInt8} {count : ℕ}
    (hlength : buffer.length = 1024) (hcount : 0 < count) (hlimit : count ≤ 1023)
    (hcontent : count ≤ content.length) :
    ∃ after, readSysfsString buffer (.delivered content count) =
        (found (strip (ofBuffer (content.take count))), after) ∧
      Trimmed after ∧ ofBuffer after = strip (ofBuffer (content.take count)) := by
  have hfilled := readFileFast_of_pos (by decide) hlength.ge hcount (Nat.lt_succ_of_le hlimit)
    hcontent
  have hended : 0 ∈ content.take count ++ 0 :: buffer.drop (count + 1) := by simp
  have htext := ofBuffer_append_nul (content.take count) (buffer.drop (count + 1))
  refine ⟨trimString (content.take count ++ 0 :: buffer.drop (count + 1)), ?_, ?_, ?_⟩
  · rw [readSysfsString_of_filled hfilled hended, htext]
  · refine trimmed_trimString ?_ hended
    simp only [List.length_append, List.length_cons, List.length_take, List.length_drop]
    omega
  · rw [ofBuffer_trimString hended, htext]

def FileRead.DeliversByte : FileRead → Prop
  | .delivered content count => 0 < count ∧ count ≤ 1023 ∧ count ≤ content.length
  | _ => True

/-- The stripped text of a file, if it is not empty. -/
def FileRead.string : FileRead → Option CString
  | .delivered content count => found (strip (ofBuffer (content.take count)))
  | _ => none

theorem FileRead.deliversByte_of_string {file : FileRead} {text : CString}
    (hfile : file.Documented 1023) (htext : file.string = some text) : file.DeliversByte := by
  cases file with
  | openFails => trivial
  | readFails => trivial
  | delivered content count =>
    obtain ⟨hcontent, hlimit, -⟩ := hfile
    refine ⟨Nat.pos_of_ne_zero ?_, hlimit, hcontent⟩
    rintro rfl
    rw [FileRead.string, List.take_zero, ofBuffer_nil, strip_empty] at htext
    cases htext

/-- The text that is found stands in the static buffer. -/
theorem readSysfsString_some {buffer : List UInt8} {file : FileRead} {text : CString}
    (hlength : buffer.length = 1024) (hfile : file.DeliversByte) (htext : file.string = some text) :
    ∃ after, readSysfsString buffer file = (some text, after) ∧ after.length = 1024 ∧
      ofBuffer after = text := by
  cases file with
  | openFails => cases htext
  | readFails => cases htext
  | delivered content count =>
    obtain ⟨hcount, hlimit, hcontent⟩ := hfile
    obtain ⟨after, hresult, htrimmed, hafter⟩ :=
      readSysfsString_of_pos hlength hcount hlimit hcontent
    have hfound : found (strip (ofBuffer (content.take count))) = some text := htext
    have hstrip : strip (ofBuffer (content.take count)) = text := by
      unfold found at hfound
      split_ifs at hfound
      exact Option.some.inj hfound
    exact ⟨after, by rw [hresult, hfound], htrimmed.length_eq, by rw [hafter, hstrip]⟩

theorem readSysfsInt_snd (buffer : List UInt8) (file : FileRead) :
    (readSysfsInt buffer file).2 = (readSysfsString buffer file).2 := by
  unfold readSysfsInt
  split <;> rename_i hstring <;> rw [hstring]

theorem readSysfsFloat_eq (buffer : List UInt8) (file : FileRead) :
    readSysfsFloat buffer file =
      (((readSysfsString buffer file).1.map atof).getD 0, (readSysfsString buffer file).2) := by
  unfold readSysfsFloat
  split <;> rename_i hstring <;> rw [hstring] <;> rfl

theorem length_readSysfsInt (buffer : List UInt8) (file : FileRead) :
    (readSysfsInt buffer file).2.length = buffer.length := by
  rw [readSysfsInt_snd, length_readSysfsString]

/-- The files, links and directories under `/sys`.  A file that can be read has a byte. -/
structure Sysfs where
  file : CString → FileRead
  readlink : CString → Option CString
  stat : CString → Bool
  deliversByte : ∀ path, (file path).DeliversByte

/-- What stands behind the last slash of a link, of which 255 bytes are read. -/
def driverName (link : CString) : Option CString :=
  let bytes := (link.take 255).bytes
  if 47 ∈ bytes then some (ofBuffer (bytes.rtakeWhile fun byte ↦ byte ≠ 47)) else none

theorem readSysfsString_spec {buffer : List UInt8} (h : Trimmed buffer) {file : FileRead}
    (hread : file.Documented 1023) :
    (readSysfsString buffer file).1 = found (textAfter buffer file) ∧
      Trimmed (readSysfsString buffer file).2 ∧
      ofBuffer (readSysfsString buffer file).2 = textHeld (ofBuffer buffer) file := by
  have hroom : 1024 ≤ intMax := by decide
  have hfails : ∀ failed : FileRead, readFileFast buffer 1024 failed = (0, buffer) →
      textAfter buffer failed = empty → textHeld (ofBuffer buffer) failed = ofBuffer buffer →
      (readSysfsString buffer failed).1 = found (textAfter buffer failed) ∧
        Trimmed (readSysfsString buffer failed).2 ∧
        ofBuffer (readSysfsString buffer failed).2 = textHeld (ofBuffer buffer) failed := by
    intro failed hfailed htext hheld
    rw [readSysfsString_fails hfailed, htext, hheld]
    exact ⟨rfl, h, rfl⟩
  cases file with
  | openFails => exact hfails _ readFileFast_openFails rfl rfl
  | readFails => exact hfails _ readFileFast_readFails rfl rfl
  | delivered content count =>
    obtain ⟨hcontent, hlimit, hzero⟩ := hread
    rcases Nat.eq_zero_or_pos count with rfl | hcount
    · have hempty : content = [] := (hzero rfl).resolve_right (by decide)
      have hfilled : readFileFast buffer 1024 (.delivered content 0) =
          (1, buffer.set (buffer.length - 1) 0) := by
        rw [readFileFast_zero (by decide) hroom, h.length_eq]
      have hended : 0 ∈ buffer.set (buffer.length - 1) 0 :=
        List.mem_set (by rw [h.length_eq]; decide) 0
      have htext : strip (ofBuffer (buffer.set (buffer.length - 1) 0)) = ofBuffer buffer := by
        rw [ofBuffer_set_last h.ended, h.strip_eq]
      rw [readSysfsString_of_filled hfilled hended, htext, textAfter, textHeld, if_pos hempty]
      exact ⟨rfl, trimmed_trimString (by rw [List.length_set, h.length_eq]) hended,
        (ofBuffer_trimString hended).trans htext⟩
    · have hne : content ≠ [] := List.ne_nil_of_length_pos (by omega)
      obtain ⟨after, hresult, htrimmed, htext⟩ :=
        readSysfsString_of_pos h.length_eq hcount hlimit hcontent
      rw [hresult, textAfter, textHeld, if_neg hne]
      exact ⟨rfl, htrimmed, htext⟩

theorem readSysfsInt_spec {buffer : List UInt8} (h : Trimmed buffer) {file : FileRead}
    (hread : file.Documented 1023) :
    (readSysfsInt buffer file).1 = atoi (textAfter buffer file) ∧
      (readSysfsInt buffer file).2 = (readSysfsString buffer file).2 := by
  have hstring := (readSysfsString_spec h hread).1
  cases hresult : readSysfsString buffer file with
  | mk result after =>
    rw [hresult] at hstring
    unfold readSysfsInt
    rw [hresult]
    by_cases hempty : textAfter buffer file = empty
    · obtain rfl : result = none := by simpa [found, hempty] using hstring
      exact ⟨by rw [hempty, atoi_empty], rfl⟩
    · obtain rfl : result = some (textAfter buffer file) := by simpa [found, hempty] using hstring
      exact ⟨rfl, rfl⟩

theorem found_eq_found_empty_iff {string : CString} :
    found string = found empty ↔ string = empty := by
  by_cases hempty : string = empty <;> simp [found, hempty]

/-- One call: the buffer stays trimmed, and the result is that of a first call exactly when the call
finds no text of an earlier one. -/
theorem sysfs_step {buffer : List UInt8} (h : Trimmed buffer) {call : SysfsCall}
    (hread : call.file.Documented 1023) :
    Trimmed (sysfsStep buffer call) ∧
      (sysfsResult buffer call = firstResult call ↔ FindsNoText buffer call) := by
  have hzero : ofBuffer zeroBuffer = empty := ofBuffer_eq_empty_iff.2 (by simp [zeroBuffer])
  cases call with
  | string file =>
    replace hread : file.Documented 1023 := hread
    obtain ⟨hresult, htrimmed, -⟩ := readSysfsString_spec h hread
    refine ⟨htrimmed, ?_⟩
    rw [firstResult, sysfsResult, sysfsResult, hresult,
      (readSysfsString_spec trimmed_zeroBuffer hread).1, SysfsResult.string.injEq]
    cases file with
    | openFails | readFails => exact iff_of_true rfl trivial
    | delivered content count =>
      by_cases hempty : content = []
      · simp only [textAfter, FindsNoText, hempty, if_true, hzero, found_eq_found_empty_iff,
          forall_const]
      · simp only [textAfter, FindsNoText, hempty, if_false, false_imp_iff]
  | int file =>
    replace hread : file.Documented 1023 := hread
    obtain ⟨hresult, hafter⟩ := readSysfsInt_spec h hread
    constructor
    · rw [sysfsStep, hafter]
      exact (readSysfsString_spec h hread).2.1
    rw [firstResult, sysfsResult, sysfsResult, hresult,
      (readSysfsInt_spec trimmed_zeroBuffer hread).1, SysfsResult.int.injEq]
    cases file with
    | openFails | readFails => exact iff_of_true rfl trivial
    | delivered content count =>
      by_cases hempty : content = []
      · simp only [textAfter, FindsNoText, hempty, if_true, hzero, atoi_empty, forall_const]
      · simp only [textAfter, FindsNoText, hempty, if_false, false_imp_iff]

/-- A read leaves the text of the file exactly when `read` delivers it or the buffer held no text;
and the calls of a run have the results of first calls exactly when no call for an empty file finds
a text of an earlier call in the buffer. -/
theorem sysfs_reads_exact {buffer : List UInt8} {size : ℕ} {file : FileRead} (hpos : 0 < size)
    (hsize : size ≤ intMax) (hbuffer : size ≤ buffer.length) (hread : file.Documented (size - 1))
    {calls : List SysfsCall} (hcalls : ∀ call ∈ calls, call.file.Documented 1023) :
    (ReadsText buffer size file ↔ DeliversText buffer size file) ∧
      (outputs sysfsStep sysfsResult zeroBuffer calls = calls.map firstResult ↔
        Along sysfsStep FindsNoText zeroBuffer calls) := by
  constructor
  · exact readsText_iff hpos hsize hbuffer hread
  · have hallowed : Along sysfsStep (fun _ call ↦ call.file.Documented 1023) zeroBuffer calls :=
      along_of_forall hcalls
    have hstep : ∀ buffer call, Trimmed buffer → call.file.Documented 1023 →
        Trimmed (sysfsStep buffer call) ∧
          (sysfsResult buffer call = firstResult call ↔ FindsNoText buffer call) :=
      fun _ _ h hcall ↦ sysfs_step h hcall
    rw [outputs_eq_map_iff]
    exact along_iff_of_invariant hstep trimmed_zeroBuffer hallowed

def digitFile : FileRead := .delivered [53, 10] 2

def emptyFile : FileRead := .delivered [] 0

theorem sysfs_reads_exact_example :
    (ReadsText [0, 0, 0] 3 digitFile ↔ DeliversText [0, 0, 0] 3 digitFile) ∧
      (outputs sysfsStep sysfsResult zeroBuffer [.string digitFile, .int digitFile] =
          [.string digitFile, .int digitFile].map firstResult ↔
        Along sysfsStep FindsNoText zeroBuffer [.string digitFile, .int digitFile]) :=
  sysfs_reads_exact (by decide) (by decide) (by decide) (by simp [digitFile, FileRead.Documented])
    (by simp [digitFile, FileRead.Documented, SysfsCall.file])

/-- An empty file is read as the digit that was in the buffer, and as the text that the call before
it has read. -/
theorem sysfs_reads_leak :
    ¬ReadsText [53, 0] 2 emptyFile ∧
      outputs sysfsStep sysfsResult zeroBuffer [.string digitFile, .string emptyFile] ≠
        [.string digitFile, .string emptyFile].map firstResult := by
  refine ⟨fun h ↦ absurd (h (by decide)) (by decide), by decide +kernel⟩

end HiFetch.Utils
