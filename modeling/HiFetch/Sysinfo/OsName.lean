import HiFetch.Utils.ReadFile
import HiFetch.Utils.StringBetween

/-!
# The name of the system

`get_os_info` searches the whole text of `/etc/os-release` for the key and its first quote.  The
key may also stand in a comment, at the end of a longer name or at the end of a value, and where it
does so in a line before the assignment, the text behind that place is taken for the name.
-/

namespace HiFetch.Sysinfo

open CString Search Utils

/-- `PRETTY_NAME=` and a quote. -/
def prettyNameKey : CString := ofText "PRETTY_NAME=\""

def quote : CString := ofText "\""

def linuxName : CString := ofText "Linux"

/-- `get_os_info`: the field `os_name`.  The buffer is not initialized before the file is read. -/
def getOsInfo (buffer : List UInt8) (file : FileRead) : CString :=
  match readFileFast buffer 2048 file with
  | (1, filled) =>
      let temp := getStringBetween (ofBuffer filled) prettyNameKey quote
      if temp ≠ empty ∧ 0 < temp.length then temp.take 255 else linuxName
  | _ => linuxName

/-! ## The file -/

/-- A letter, a digit or an underscore. -/
def isNameByte (byte : UInt8) : Bool :=
  (65 ≤ byte && byte ≤ 90) || (97 ≤ byte && byte ≤ 122) || (48 ≤ byte && byte ≤ 57) || byte == 95

/-- A line of the file: a comment, or a name and a value in quotes. -/
inductive OsLine where
  | comment (text : List UInt8) (h : ∀ byte ∈ text, byte ≠ 0 ∧ byte ≠ 10)
  | assignment (name value : List UInt8) (hname : ∀ byte ∈ name, isNameByte byte)
      (hvalue : ∀ byte ∈ value, byte ≠ 0 ∧ byte ≠ 10 ∧ byte ≠ 34)

/-- The bytes of a line, without a newline. -/
def OsLine.bytes : OsLine → List UInt8
  | .comment text _ => 35 :: text
  | .assignment name value _ _ => name ++ 61 :: 34 :: (value ++ [34])

/-- The text of the file; the last line may have a newline or not. -/
def osText (ended : Bool) : List OsLine → List UInt8
  | [] => []
  | [line] => line.bytes ++ if ended then [10] else []
  | line :: rest => line.bytes ++ 10 :: osText ended rest

/-- `PRETTY_NAME` -/
def prettyName : List UInt8 := (ofText "PRETTY_NAME").bytes

def OsLine.IsPrettyName : OsLine → Prop
  | .comment _ _ => False
  | .assignment name _ _ _ => name = prettyName

/-- What a value says: it is cut to 255 bytes, and an empty one stands for `Linux`. -/
def nameOfValue (value : List UInt8) : List UInt8 :=
  if value = [] then linuxName.bytes else value.take 255

/-- The value of the first line with the name `PRETTY_NAME`, or `Linux`. -/
def expectedName : List OsLine → List UInt8
  | [] => linuxName.bytes
  | .comment _ _ :: rest => expectedName rest
  | .assignment name value _ _ :: rest =>
      if name = prettyName then nameOfValue value else expectedName rest

/-! ## When the search is right -/

/-- The text behind a misleading key says the right name by chance: there is a quote in the line,
and what stands before it says the same; or there is none, and then no line behind has one either or
the line is so long that it says the same without its end. -/
def SaysSame (name rest : List UInt8) (behindLines : List OsLine) : Prop :=
  if 34 ∈ rest then nameOfValue (rest.takeWhile fun byte ↦ decide (byte ≠ 34)) = name
  else (∀ line ∈ behindLines, 34 ∉ line.bytes) ∨ 255 ≤ rest.length ∧ rest.take 255 = name

/-- The first line that contains the key is the one with the name `PRETTY_NAME`, or says the right
name by chance. -/
def KeyNotMisleading (name : List UInt8) : List OsLine → Prop
  | [] => True
  | line :: behindLines =>
      match behind prettyNameKey.bytes line.bytes with
      | none => KeyNotMisleading name behindLines
      | some rest => line.IsPrettyName ∨ SaysSame name rest behindLines

/-- An empty file leaves the buffer as it was, so the key may be there. -/
def LeftoverHarmless (buffer : List UInt8) : Prop :=
  ∀ rest, behind prettyNameKey.bytes (ofBuffer (buffer.set 2047 0)).bytes = some rest →
    34 ∈ rest → nameOfValue (rest.takeWhile fun byte ↦ decide (byte ≠ 34)) = linuxName.bytes

/-! ## What is found -/

/-- What `get_os_info` takes from a text. -/
def searchedName (text : List UInt8) : List UInt8 :=
  match behind prettyNameKey.bytes text with
  | none => linuxName.bytes
  | some rest =>
      if 34 ∈ rest then nameOfValue (rest.takeWhile fun byte ↦ decide (byte ≠ 34))
      else linuxName.bytes

theorem nameOfValue_take (value : List UInt8) :
    nameOfValue (value.take 255) = nameOfValue value := by
  unfold nameOfValue
  cases value <;> simp

theorem bytes_getOsInfo {buffer filled : List UInt8} {file : FileRead}
    (hread : readFileFast buffer 2048 file = (1, filled)) :
    (getOsInfo buffer file).bytes = searchedName (ofBuffer filled).bytes := by
  have hcut : ∀ temp : CString,
      (if temp ≠ empty ∧ 0 < temp.length then temp.take 255 else linuxName).bytes =
        nameOfValue temp.bytes := by
    intro temp
    have hempty : (temp ≠ empty ∧ 0 < temp.length) ↔ temp.bytes ≠ [] := by
      rw [ne_eq, CString.ext_iff, ← ne_eq]
      exact and_iff_left_of_imp List.length_pos_of_ne_nil
    rw [if_congr hempty rfl rfl, ite_not, apply_ite CString.bytes, bytes_take, nameOfValue]
  have hos : getOsInfo buffer file =
      let temp := getStringBetween (ofBuffer filled) prettyNameKey quote
      if temp ≠ empty ∧ 0 < temp.length then temp.take 255 else linuxName := by
    simp only [getOsInfo, hread]
  rw [hos, hcut, bytes_getStringBetween _ _ (show quote.bytes = [34] from rfl)]
  unfold searchedName
  cases behind prettyNameKey.bytes (ofBuffer filled).bytes with
  | none => rfl
  | some rest =>
    dsimp only
    by_cases hquote : 34 ∈ rest
    · rw [if_pos hquote, if_pos hquote, nameOfValue_take]
    · rw [if_neg hquote, if_neg hquote]
      rfl

/-! ## Lines -/

theorem OsLine.noNul (line : OsLine) : 0 ∉ line.bytes := by
  cases line with
  | comment text h =>
    rw [OsLine.bytes, List.mem_cons, not_or]
    exact ⟨by decide, fun hmem ↦ (h 0 hmem).1 rfl⟩
  | assignment name value hname hvalue =>
    simp only [OsLine.bytes, List.mem_append, List.mem_cons, List.not_mem_nil, or_false, not_or]
    exact ⟨fun hmem ↦ absurd (hname 0 hmem) (by decide), by decide, by decide,
      fun hmem ↦ (hvalue 0 hmem).1 rfl, by decide⟩

/-- The text behind a line. -/
def textBehind (ended : Bool) : List OsLine → List UInt8
  | [] => if ended then [10] else []
  | line :: rest => 10 :: osText ended (line :: rest)

theorem osText_cons (ended : Bool) (line : OsLine) (rest : List OsLine) :
    osText ended (line :: rest) = line.bytes ++ textBehind ended rest := by
  cases rest <;> rfl

theorem noNul_osText (ended : Bool) (lines : List OsLine) : 0 ∉ osText ended lines := by
  induction lines with
  | nil => simp [osText]
  | cons line rest ih =>
    rw [osText_cons, List.mem_append, not_or]
    refine ⟨line.noNul, ?_⟩
    cases rest with
    | nil => cases ended <;> simp [textBehind]
    | cons next rest => simpa [textBehind] using ih

/-- The quotes of the text are in its lines. -/
theorem quote_mem_textBehind_iff (ended : Bool) (rest : List OsLine) :
    34 ∈ textBehind ended rest ↔ ∃ line ∈ rest, 34 ∈ line.bytes := by
  induction rest with
  | nil => cases ended <;> simp [textBehind]
  | cons line rest ih =>
    rw [textBehind, osText_cons, List.mem_cons, List.mem_append, ih]
    simp

/-- The text behind a line is the rest of the text behind a newline, or nothing. -/
theorem textBehind_eq (ended : Bool) (rest : List OsLine) :
    textBehind ended rest = 10 :: osText ended rest ∨ textBehind ended rest = [] ∧ rest = [] := by
  cases rest with
  | nil => cases ended <;> simp [textBehind, osText]
  | cons line rest => exact .inl rfl

/-- The first line with the name `PRETTY_NAME` starts with the key. -/
theorem OsLine.IsPrettyName.behind_eq {line : OsLine} (h : line.IsPrettyName) :
    ∃ value, behind prettyNameKey.bytes line.bytes = some (value ++ [34]) ∧ 34 ∉ value ∧
      ∀ rest, expectedName (line :: rest) = nameOfValue value := by
  cases line with
  | comment => exact h.elim
  | assignment name value hname hvalue =>
    obtain rfl : name = prettyName := h
    refine ⟨value, ?_, fun hmem ↦ (hvalue 34 hmem).2.2 rfl, fun rest ↦ if_pos rfl⟩
    have hline : (OsLine.assignment prettyName value hname hvalue).bytes =
        prettyNameKey.bytes ++ (value ++ [34]) := rfl
    have hkey : behind prettyNameKey.bytes prettyNameKey.bytes = some [] := by decide +kernel
    rw [hline, behind_append_of_some hkey, List.nil_append]

/-- A line without the key does not change what is expected. -/
theorem expectedName_cons_of_not {line : OsLine} (h : ¬line.IsPrettyName) (rest : List OsLine) :
    expectedName (line :: rest) = expectedName rest := by
  cases line with
  | comment => rfl
  | assignment name value hname hvalue => exact if_neg h

/-- Without a quote there is no name. -/
theorem expectedName_of_noQuote {lines : List OsLine} (h : ∀ line ∈ lines, 34 ∉ line.bytes) :
    expectedName lines = linuxName.bytes := by
  induction lines with
  | nil => rfl
  | cons line rest ih =>
    have hrest := ih fun other hmem ↦ h other (List.mem_cons_of_mem _ hmem)
    cases line with
    | comment => exact hrest
    | assignment name value hname hvalue =>
      exact absurd (by simp [OsLine.bytes]) (h _ List.mem_cons_self)

theorem noNewline_expectedName (lines : List OsLine) : 10 ∉ expectedName lines := by
  induction lines with
  | nil => decide
  | cons line rest ih =>
    cases line with
    | comment => exact ih
    | assignment name value hname hvalue =>
      unfold expectedName nameOfValue
      split_ifs
      · decide
      · exact fun hmem ↦ (hvalue 10 (List.mem_of_mem_take hmem)).2.1 rfl
      · exact ih

/-! ## The search -/

/-- The search goes on behind a line without the key. -/
theorem behind_osText_of_none {line : OsLine} (h : behind prettyNameKey.bytes line.bytes = none)
    (ended : Bool) (rest : List OsLine) :
    behind prettyNameKey.bytes (osText ended (line :: rest)) =
      behind prettyNameKey.bytes (osText ended rest) := by
  rw [osText_cons]
  rcases textBehind_eq ended rest with htext | ⟨htext, rfl⟩
  · rw [htext, behind_append_cons_of_none h (by decide)]
  · rw [htext, List.append_nil, h]
    rfl

/-- A quote in a part of a list ends what stands before the first quote. -/
theorem takeWhile_append_of_mem {rest : List UInt8} (h : 34 ∈ rest) (back : List UInt8) :
    ((rest ++ back).takeWhile fun byte ↦ decide (byte ≠ 34)) =
      rest.takeWhile fun byte ↦ decide (byte ≠ 34) := by
  obtain ⟨front, others, rfl⟩ := List.append_of_mem h
  rw [List.append_assoc, List.cons_append, takeWhile_append_cons (by decide),
    takeWhile_append_cons (by decide)]

/-- The text behind a misleading key, and what the lines behind it add. -/
theorem saysSame_iff {name : List UInt8} (ended : Bool) (rest : List UInt8)
    {behindLines : List OsLine} (hname : name = expectedName behindLines) :
    (if 34 ∈ rest ++ textBehind ended behindLines then
        nameOfValue ((rest ++ textBehind ended behindLines).takeWhile fun byte ↦ decide (byte ≠ 34))
      else linuxName.bytes) = name ↔ SaysSame name rest behindLines := by
  unfold SaysSame
  by_cases hrest : 34 ∈ rest
  · rw [if_pos hrest, if_pos (List.mem_append_left _ hrest), takeWhile_append_of_mem hrest]
  rw [if_neg hrest]
  have hlines := quote_mem_textBehind_iff ended behindLines
  by_cases hbehind : 34 ∈ textBehind ended behindLines
  · obtain ⟨text, htext⟩ : ∃ text, textBehind ended behindLines = 10 :: text := by
      rcases textBehind_eq ended behindLines with htext | ⟨htext, -⟩
      · exact ⟨_, htext⟩
      · rw [htext] at hbehind
        exact absurd hbehind (List.not_mem_nil)
    have hfront : ((rest ++ 10 :: text).takeWhile fun byte ↦ decide (byte ≠ 34)) =
        rest ++ 10 :: text.takeWhile fun byte ↦ decide (byte ≠ 34) := by
      rw [List.takeWhile_append_of_pos, List.takeWhile_cons_of_pos (by decide)]
      exact fun byte hmem ↦ decide_eq_true fun heq ↦ hrest (heq ▸ hmem)
    have hsome : ¬∀ line ∈ behindLines, 34 ∉ line.bytes := by
      intro hnone
      obtain ⟨line, hline, hquote⟩ := hlines.1 hbehind
      exact hnone line hline hquote
    rw [if_pos (List.mem_append_right _ hbehind), htext, hfront, or_iff_right hsome, nameOfValue,
      if_neg (by simp), List.take_append]
    constructor
    · intro hcut
      have hlong : 255 ≤ rest.length := by
        by_contra hshort
        obtain ⟨room, hroom⟩ : ∃ room, 255 - rest.length = room + 1 :=
          ⟨254 - rest.length, by omega⟩
        rw [hroom, List.take_succ_cons] at hcut
        have hnewline := noNewline_expectedName behindLines
        rw [← hname, ← hcut] at hnewline
        exact hnewline (by simp)
      refine ⟨hlong, ?_⟩
      rwa [Nat.sub_eq_zero_of_le hlong, List.take_zero, List.append_nil] at hcut
    · rintro ⟨hlong, hcut⟩
      rw [Nat.sub_eq_zero_of_le hlong, List.take_zero, List.append_nil, hcut]
  · have hnone : ∀ line ∈ behindLines, 34 ∉ line.bytes :=
      fun line hline hquote ↦ hbehind (hlines.2 ⟨line, hline, hquote⟩)
    rw [if_neg (by rw [List.mem_append, not_or]; exact ⟨hrest, hbehind⟩), hname,
      expectedName_of_noQuote hnone]
    exact iff_of_true rfl (.inl hnone)

/-- The search finds the right name exactly when the key does not mislead it. -/
theorem searchedName_osText_iff (ended : Bool) (lines : List OsLine) :
    searchedName (osText ended lines) = expectedName lines ↔
      KeyNotMisleading (expectedName lines) lines := by
  induction lines with
  | nil => exact iff_of_true rfl trivial
  | cons line rest ih =>
    unfold KeyNotMisleading
    cases hkey : behind prettyNameKey.bytes line.bytes with
    | none =>
      have hother : ¬line.IsPrettyName := by
        intro hpretty
        obtain ⟨value, hvalue, -⟩ := hpretty.behind_eq
        rw [hkey] at hvalue
        exact absurd hvalue.symm (Option.some_ne_none _)
      dsimp only
      rw [expectedName_cons_of_not hother, ← ih, searchedName, behind_osText_of_none hkey,
        ← searchedName]
    | some found =>
      have hbehind : behind prettyNameKey.bytes (osText ended (line :: rest)) =
          some (found ++ textBehind ended rest) := by
        rw [osText_cons, behind_append_of_some hkey]
      unfold searchedName
      rw [hbehind]
      dsimp only
      by_cases hpretty : line.IsPrettyName
      · obtain ⟨value, hvalue, hquote, hexpected⟩ := hpretty.behind_eq
        obtain rfl : found = value ++ [34] := Option.some_injective _ (hkey.symm.trans hvalue)
        refine iff_of_true ?_ (.inl hpretty)
        rw [if_pos (by simp), takeWhile_append_of_mem (by simp), hexpected,
          takeWhile_append_cons (by decide), List.takeWhile_eq_self_iff.2]
        exact fun byte hmem ↦ decide_eq_true fun heq ↦ hquote (heq ▸ hmem)
      · rw [saysSame_iff ended found (expectedName_cons_of_not hpretty rest),
          or_iff_right hpretty]

/-- `get_os_info` finds the value of the first line with the name `PRETTY_NAME` exactly when the
first line that contains the key at all is that line or says the same by chance; for an empty file,
when the buffer holds no other name. -/
theorem getOsInfo_iff {buffer : List UInt8} (hbuffer : buffer.length = 2048) (ended : Bool)
    (lines : List OsLine) (hlength : (osText ended lines).length ≤ 2047) :
    (getOsInfo buffer (.delivered (osText ended lines) (osText ended lines).length)).bytes =
        expectedName lines ↔
      if lines = [] then LeftoverHarmless buffer
      else KeyNotMisleading (expectedName lines) lines := by
  have hroom : 2048 ≤ intMax := by decide
  cases lines with
  | nil =>
    rw [if_pos rfl]
    have hread : readFileFast buffer 2048 (.delivered (osText ended []) (osText ended []).length) =
        (1, buffer.set 2047 0) := readFileFast_zero (by decide) hroom
    rw [bytes_getOsInfo hread]
    unfold searchedName LeftoverHarmless
    cases behind prettyNameKey.bytes (ofBuffer (buffer.set 2047 0)).bytes with
    | none => simp [expectedName]
    | some rest =>
      dsimp only
      split_ifs with hquote
      · simp [expectedName, hquote]
      · simp [expectedName, hquote]
  | cons line rest =>
    rw [if_neg (List.cons_ne_nil _ _), ← searchedName_osText_iff ended]
    have hpos : 0 < (osText ended (line :: rest)).length := by
      rw [osText_cons, List.length_append]
      cases line <;> simp [OsLine.bytes]
    rw [bytes_getOsInfo (readFileFast_of_pos hroom hbuffer.ge hpos (by omega) le_rfl),
      List.take_length, ofBuffer_append_nul, bytes_ofBuffer_of_notMem (noNul_osText _ _)]

theorem isNameByte_prettyName : ∀ byte ∈ prettyName, isNameByte byte := by decide +kernel

theorem isNameByte_oldPrettyName :
    ∀ byte ∈ (ofText "OLD_PRETTY_NAME").bytes, isNameByte byte := by decide +kernel

theorem quoteFree_letter {letter : UInt8} (h : 65 ≤ letter) :
    ∀ byte ∈ [letter], byte ≠ 0 ∧ byte ≠ 10 ∧ byte ≠ 34 := by
  intro byte hbyte
  rw [List.mem_singleton.1 hbyte]
  refine ⟨?_, ?_, ?_⟩
  all_goals
    rintro rfl
    exact absurd h (by decide)

/-- `PRETTY_NAME="B"` -/
def prettyLine : OsLine :=
  .assignment prettyName [66] isNameByte_prettyName (quoteFree_letter (by decide))

/-- `OLD_PRETTY_NAME="A"` -/
def oldPrettyLine : OsLine :=
  .assignment (ofText "OLD_PRETTY_NAME").bytes [65] isNameByte_oldPrettyName
    (quoteFree_letter (le_refl 65))

theorem getOsInfo_iff_example :
    (getOsInfo (List.replicate 2048 0)
        (.delivered (osText true [prettyLine]) (osText true [prettyLine]).length)).bytes =
      expectedName [prettyLine] ↔
      if [prettyLine] = [] then LeftoverHarmless (List.replicate 2048 0)
      else KeyNotMisleading (expectedName [prettyLine]) [prettyLine] :=
  getOsInfo_iff List.length_replicate true [prettyLine] (by decide)

/-- A longer name that ends in `PRETTY_NAME` is taken for it. -/
theorem getOsInfo_misled :
    (getOsInfo (List.replicate 2048 0)
        (.delivered (osText true [oldPrettyLine, prettyLine])
          (osText true [oldPrettyLine, prettyLine]).length)).bytes ≠
      expectedName [oldPrettyLine, prettyLine] := by
  decide +kernel

end HiFetch.Sysinfo
