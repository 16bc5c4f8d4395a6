import HiFetch.Library.Hex

/-!
# Formats in segments

A text is made of segments, and each segment is read by some directives of a format.  Where the text
is cut inside a segment, the directives of the later segments assign nothing.
-/

namespace HiFetch.Scanf

open CString

/-- A part of a text, the directives that read it, the values that they assign, and the bytes that
may follow it. -/
structure Segment where
  directives : List Directive
  text : List UInt8
  values : List Value
  ends : UInt8 → Prop

/-- The directives read the whole segment, and of a part of it they assign no more values. -/
structure Segment.Reads (segment : Segment) : Prop where
  whole : ∀ (format : List Directive) (rest : List UInt8),
    (∀ byte ∈ rest.head?, segment.ends byte) →
      sscanf (segment.directives ++ format) (segment.text ++ rest) =
        segment.values ++ sscanf format rest
  part : ∀ (format : List Directive) (count : ℕ), count < segment.text.length →
    (sscanf (segment.directives ++ format) (segment.text.take count)).length ≤
      segment.values.length

def segmentsText (segments : List Segment) : List UInt8 := segments.flatMap Segment.text

def segmentsFormat (segments : List Segment) : List Directive :=
  segments.flatMap Segment.directives

def segmentsValues (segments : List Segment) : List Value := segments.flatMap Segment.values

/-- Every segment is read, and may be followed by what follows it. -/
def Readable : List Segment → List UInt8 → Prop
  | [], _ => True
  | segment :: rest, tail =>
      segment.Reads ∧ (∀ byte ∈ (segmentsText rest ++ tail).head?, segment.ends byte) ∧
        Readable rest tail

/-- From an empty input nothing is assigned. -/
theorem sscanf_nil (format : List Directive) : sscanf format [] = [] := by
  induction format with
  | nil => rfl
  | cons directive format ih =>
    cases directive with
    | blank => rwa [sscanf_blank]
    | literal byte => rfl
    | convert kind assigned =>
      have hnone : scan kind [] = none := by
        cases kind <;> simp [scan, scanText, scanBounded, scanInteger, scanHex, scanSign]
      rw [sscanf, hnone]

/-- A text of segments is read. -/
theorem sscanf_segments {segments : List Segment} {tail : List UInt8} (h : Readable segments tail)
    (format : List Directive) :
    sscanf (segmentsFormat segments ++ format) (segmentsText segments ++ tail) =
      segmentsValues segments ++ sscanf format tail := by
  induction segments with
  | nil => rfl
  | cons segment rest ih =>
    obtain ⟨hsegment, hnext, hrest⟩ := h
    rw [segmentsFormat, segmentsText, segmentsValues, List.flatMap_cons, List.flatMap_cons,
      List.flatMap_cons, List.append_assoc, List.append_assoc, List.append_assoc]
    exact (hsegment.whole _ _ hnext).trans (congrArg (segment.values ++ ·) (ih hrest))

/-- A text of segments that is cut. -/
theorem length_sscanf_take {segments : List Segment} {tail : List UInt8}
    (h : Readable segments tail) (format : List Directive) {count : ℕ}
    (hcount : count < (segmentsText segments).length) :
    (sscanf (segmentsFormat segments ++ format) ((segmentsText segments).take count)).length ≤
      (segmentsValues segments).length := by
  induction segments generalizing count with
  | nil => exact absurd hcount (Nat.not_lt_zero _)
  | cons segment rest ih =>
    obtain ⟨hsegment, hnext, hrest⟩ := h
    have htext : segmentsText (segment :: rest) = segment.text ++ segmentsText rest :=
      List.flatMap_cons
    have hformat : segmentsFormat (segment :: rest) = segment.directives ++ segmentsFormat rest :=
      List.flatMap_cons
    have hvalues : segmentsValues (segment :: rest) = segment.values ++ segmentsValues rest :=
      List.flatMap_cons
    rw [htext, List.length_append] at hcount
    rw [htext, hformat, hvalues, List.append_assoc, List.length_append]
    rcases Nat.lt_or_ge count segment.text.length with hinside | hbehind
    · rw [List.take_append_of_le_length hinside.le]
      exact (hsegment.part _ count hinside).trans (Nat.le_add_right _ _)
    · obtain ⟨left, rfl⟩ := Nat.exists_eq_add_of_le hbehind
      rw [List.take_length_add_append, hsegment.whole, List.length_append]
      · exact Nat.add_le_add_left (ih hrest (by omega)) _
      · intro byte hbyte
        apply hnext byte
        cases hempty : segmentsText rest with
        | nil =>
          rw [hempty, List.take_nil] at hbyte
          cases hbyte
        | cons first others =>
          rw [hempty] at hbyte
          have hfirst : byte ∈ (first :: others).head? := mem_head?_take hbyte
          exact hfirst

/-! ## Kinds of segments -/

/-- Behind a conversion that takes all of the input, nothing is assigned. -/
theorem length_sscanf_convert_le {kind : Kind} {input : List UInt8}
    (h : ∀ value rest, scan kind input = some (value, rest) → rest = [])
    (format : List Directive) : (sscanf (.convert kind true :: format) input).length ≤ 1 := by
  cases hscan : scan kind input with
  | none =>
    rw [sscanf, hscan]
    exact Nat.zero_le _
  | some result =>
    obtain ⟨value, rest⟩ := result
    rw [sscanf_assigned hscan, h value rest hscan, sscanf_nil]
    exact le_rfl

def literalSegment (byte : UInt8) : Segment := ⟨[.literal byte], [byte], [], fun _ ↦ True⟩

theorem literalSegment_reads (byte : UInt8) : (literalSegment byte).Reads where
  whole := fun format rest _ ↦ if_pos rfl
  part := by
    intro format count hcount
    obtain rfl : count = 0 := Nat.lt_one_iff.1 hcount
    exact (congrArg List.length (sscanf_nil _)).le

/-- A part of a printed hexadecimal number is read to its end. -/
theorem eq_nil_of_scan_hex_take {width number count : ℕ} {value : Value} {rest : List UInt8}
    (h : scan (.hex 32) ((printedHex width number).take count) = some (value, rest)) :
    rest = [] := by
  have hdigits : ∀ byte ∈ (printedHex width number).take count, inRanges upperHex byte :=
    fun byte hmem ↦ upperHex_of_mem_printedHex (List.mem_of_mem_take hmem)
  replace h : (scanHex ((printedHex width number).take count)).map (fun result ↦
      (Value.integer ((Kind.hex 32).convert result.1), result.2)) = some (value, rest) := h
  by_cases hnil : (printedHex width number).take count = []
  · rw [hnil] at h
    cases h
  · have hend : ∀ byte ∈ ([] : List UInt8).head?, HexEnds byte := by
      rintro _ ⟨⟩
    rw [← List.append_nil ((printedHex width number).take count),
      scanHex_append hdigits hnil hend] at h
    cases h
    rfl

/-- A part of a printed number is read to its end. -/
theorem eq_nil_of_scan_take {kind : Kind} (hkind : kind.numeric) {number : ℤ} {count : ℕ}
    {value : Value} {rest : List UInt8}
    (h : scan kind ((ofInt number).bytes.take count) = some (value, rest)) : rest = [] := by
  have hsplit : ∃ sign body : List UInt8, (ofInt number).bytes.take count = sign ++ body ∧
      (sign = [] ∨ sign = [45]) ∧ ∀ byte ∈ body, isDigit byte := by
    rw [bytes_ofInt]
    by_cases hnegative : number < 0
    · rw [if_pos hnegative]
      cases count with
      | zero => exact ⟨[], [], rfl, .inl rfl, fun byte hmem ↦ absurd hmem List.not_mem_nil⟩
      | succ count =>
        exact ⟨[45], (magnitude number).take count, rfl, .inr rfl,
          fun byte hmem ↦ isDigit_of_mem_magnitude (List.mem_of_mem_take hmem)⟩
    · rw [if_neg hnegative]
      exact ⟨[], (magnitude number).take count, rfl, .inl rfl,
        fun byte hmem ↦ isDigit_of_mem_magnitude (List.mem_of_mem_take hmem)⟩
  obtain ⟨sign, body, htext, hsign, hbody⟩ := hsplit
  have hread : ∃ factor, scanSign ((sign ++ body).dropWhile isSpace) = (factor, body) := by
    rcases hsign with rfl | rfl
    · refine ⟨1, ?_⟩
      rw [List.nil_append, dropWhile_of_head fun byte hmem ↦
        (notSpace_of_isDigit (hbody byte (List.mem_of_mem_head? hmem))).1]
      exact scanSign_of_ne fun byte hmem ↦
        (notSpace_of_isDigit (hbody byte (List.mem_of_mem_head? hmem))).2
    · exact ⟨-1, rfl⟩
  obtain ⟨factor, hread⟩ := hread
  rw [scan_of_numeric hkind, htext, scanInteger, hread] at h
  dsimp only at h
  rw [List.dropWhile_eq_nil_iff.2 hbody] at h
  split_ifs at h
  · cases h
  · cases h
    rfl

/-- `%X` -/
def hexSegment (width number : ℕ) : Segment :=
  ⟨[.convert (.hex 32) true], printedHex width number, [.integer number], HexEnds⟩

theorem hexSegment_reads {width number : ℕ} (hwidth : 0 < width) (hnumber : number < 2 ^ 32) :
    (hexSegment width number).Reads where
  whole := fun format _ hrest ↦ sscanf_assigned (scan_hex hwidth hnumber hrest) format
  part := by
    intro format count _
    apply length_sscanf_convert_le
    exact fun value rest hscan ↦ eq_nil_of_scan_hex_take hscan

/-- White space, and a row of digits that the scan set `[0-9A-F]` finds. -/
def digitsSegment (width number : ℕ) : Segment :=
  ⟨[.blank, .convert (.ranges width upperHex) true], 32 :: printedHex width number,
    [.text (ofBuffer (printedHex width number))], fun _ ↦ True⟩

theorem dropWhile_blank_digits {digits : List UInt8}
    (hdigits : ∀ byte ∈ digits, inRanges upperHex byte) (hne : digits ≠ []) (rest : List UInt8) :
    (32 :: (digits ++ rest)).dropWhile isSpace = digits ++ rest := by
  rw [List.dropWhile_cons_of_pos (by decide)]
  apply dropWhile_of_head
  intro byte hbyte
  rw [List.head?_append_of_ne_nil _ hne] at hbyte
  exact (isHexDigit_of_upperHex (hdigits byte (List.mem_of_mem_head? hbyte))).2.1

theorem digitsSegment_reads {width number : ℕ} (hwidth : 0 < width)
    (hnumber : number < 16 ^ width) : (digitsSegment width number).Reads where
  whole := by
    intro format rest _
    have hne := printedHex_ne_nil hwidth number
    have hlength := length_printedHex hnumber
    have hdigits : ∀ byte ∈ printedHex width number, inRanges upperHex byte := fun _ ↦
      upperHex_of_mem_printedHex
    show sscanf (.blank :: .convert (.ranges width upperHex) true :: format)
      (32 :: (printedHex width number ++ rest)) = _
    rw [sscanf_blank, dropWhile_blank_digits hdigits hne]
    exact sscanf_assigned (scan_ranges hdigits hne hlength.le (.inl hlength)) format
  part := by
    intro format count _
    show (sscanf (.blank :: .convert (.ranges width upperHex) true :: format)
      ((32 :: printedHex width number).take count)).length ≤ 1
    rw [sscanf_blank]
    cases count with
    | zero =>
      rw [List.take_zero, List.dropWhile_nil, sscanf_nil]
      exact Nat.zero_le _
    | succ count =>
      have hdigits : ∀ byte ∈ (printedHex width number).take count, inRanges upperHex byte :=
        fun byte hmem ↦ upperHex_of_mem_printedHex (List.mem_of_mem_take hmem)
      rw [List.take_succ_cons]
      by_cases hnil : (printedHex width number).take count = []
      · rw [hnil, List.dropWhile_cons_of_pos (by decide), List.dropWhile_nil, sscanf_nil]
        exact Nat.zero_le _
      · have hlength : ((printedHex width number).take count).length ≤ width := by
          rw [List.length_take, length_printedHex hnumber]
          exact Nat.min_le_right _ _
        have hend : ∀ byte ∈ ([] : List UInt8).head?, ¬inRanges upperHex byte := by
          rintro _ ⟨⟩
        have hread := scan_ranges hdigits hnil hlength (.inr hend)
        rw [← List.append_nil ((printedHex width number).take count),
          dropWhile_blank_digits hdigits hnil]
        apply length_sscanf_convert_le
        intro value rest hscan
        cases hread.symm.trans hscan
        rfl

/-- A word with a width. -/
def wordSegment (width : ℕ) (word : List UInt8) : Segment :=
  ⟨[.convert (.word width) true], word, [.text (ofBuffer word)], fun byte ↦ isSpace byte⟩

theorem wordSegment_reads {width : ℕ} {word : List UInt8} (hword : ∀ byte ∈ word, ¬isSpace byte)
    (hne : word ≠ []) (hwidth : word.length ≤ width) : (wordSegment width word).Reads where
  whole := by
    intro format rest hrest
    have hclean : ∀ byte ∈ word, !isSpace byte := by simpa using hword
    have hhead : ∀ byte ∈ (word ++ rest).head?, ¬isSpace byte := by
      intro byte hbyte
      rw [List.head?_append_of_ne_nil _ hne] at hbyte
      exact hword byte (List.mem_of_mem_head? hbyte)
    have hstop : ∀ byte ∈ rest.head?, ¬(!isSpace byte) := by simpa [wordSegment] using hrest
    have hread : scan (.word width) (word ++ rest) = some (.text (ofBuffer word), rest) := by
      rw [scan, dropWhile_of_head hhead, scanBounded_append hclean hne hwidth (.inr hstop),
        Option.map_some]
    exact sscanf_assigned hread format
  part := by
    intro format count _
    have hclean : ∀ byte ∈ word.take count, !isSpace byte := fun byte hmem ↦ by
      simpa using hword byte (List.mem_of_mem_take hmem)
    have hhead : ∀ byte ∈ (word.take count).head?, ¬isSpace byte := fun byte hmem ↦
      hword byte (List.mem_of_mem_take (List.mem_of_mem_head? hmem))
    show (sscanf (.convert (.word width) true :: format) (word.take count)).length ≤ 1
    apply length_sscanf_convert_le
    intro value rest hscan
    rw [scan, dropWhile_of_head hhead] at hscan
    by_cases hnil : word.take count = []
    · rw [hnil] at hscan
      simp [scanBounded] at hscan
    · have hshort : (word.take count).length ≤ width :=
        le_trans (by rw [List.length_take]; exact Nat.min_le_right _ _) hwidth
      rw [← List.append_nil (word.take count), scanBounded_append hclean hnil hshort
        (.inr (by simp))] at hscan
      cases hscan
      rfl

/-- A field with its white space. -/
def fieldSegment (ends : UInt8 → Prop) (field : Field) : Segment :=
  ⟨[.blank, .convert field.kind field.assigned], field.blanks ++ field.text,
    if field.assigned then [field.value] else [], ends⟩

/-- A part of the text must be read to its end. -/
theorem fieldSegment_reads {ends : UInt8 → Prop} {field : Field} (h : field.Reads ends)
    (hpart : ∀ count value rest,
      scan field.kind (field.text.take count) = some (value, rest) → rest = []) :
    (fieldSegment ends field).Reads where
  whole := by
    intro format rest hrest
    show sscanf (.blank :: .convert field.kind field.assigned :: format)
      (field.blanks ++ field.text ++ rest) = _
    rw [sscanf, List.append_assoc, dropWhile_append_of_head h.blanks (h.head_append _), sscanf,
      h.scan_eq _ hrest]
    unfold fieldSegment
    cases field.assigned <;> rfl
  part := by
    intro format count _
    have htrim : ∃ left, ((field.blanks ++ field.text).take count).dropWhile isSpace =
        field.text.take left := by
      refine ⟨count - field.blanks.length, ?_⟩
      rw [List.take_append]
      apply dropWhile_append_of_head
      · exact fun byte hmem ↦ h.blanks byte (List.mem_of_mem_take hmem)
      · exact fun byte hmem ↦ h.head byte (mem_head?_take hmem)
    obtain ⟨left, htrim⟩ := htrim
    show (sscanf (.blank :: .convert field.kind field.assigned :: format)
      ((field.blanks ++ field.text).take count)).length ≤ _
    rw [sscanf, htrim]
    unfold fieldSegment
    cases hscan : scan field.kind (field.text.take left) with
    | none =>
      rw [sscanf, hscan]
      exact Nat.zero_le _
    | some result =>
      obtain ⟨value, rest⟩ := result
      rw [sscanf, hscan, hpart left value rest hscan]
      dsimp only
      rw [sscanf_nil]
      cases field.assigned <;> exact le_rfl

/-- `%d`, and blanks in front of it. -/
def numberSegment (blanks : List UInt8) (number : ℕ) : Segment :=
  ⟨[.convert (.signed 32) true], blanks ++ (ofInt number).bytes,
    [.integer ((Kind.signed 32).convert number)], fun byte ↦ ¬isDigit byte⟩

theorem numberSegment_reads {blanks : List UInt8} (hblanks : ∀ byte ∈ blanks, isSpace byte)
    (number : ℕ) : (numberSegment blanks number).Reads where
  whole := by
    intro format rest hrest
    have hread : scan (.signed 32) (blanks ++ ((ofInt number).bytes ++ rest)) =
        some (.integer ((Kind.signed 32).convert number), rest) := by
      rw [scan_of_numeric rfl, scanInteger_blanks hblanks, scanInteger_printed number hrest]
      rfl
    rw [← List.append_assoc] at hread
    exact sscanf_assigned hread format
  part := by
    intro format count _
    show (sscanf (.convert (.signed 32) true :: format)
      ((blanks ++ (ofInt number).bytes).take count)).length ≤ 1
    apply length_sscanf_convert_le
    intro value rest hscan
    have hfront : ∀ byte ∈ blanks.take count, isSpace byte := fun byte hmem ↦
      hblanks byte (List.mem_of_mem_take hmem)
    have hdigits : ∀ byte ∈ (ofInt number).bytes.take (count - blanks.length), isDigit byte := by
      intro byte hmem
      have hprinted := List.mem_of_mem_take hmem
      rw [bytes_ofInt, if_neg (by omega), List.nil_append] at hprinted
      exact isDigit_of_mem_magnitude hprinted
    rw [List.take_append, scan_of_numeric rfl, scanInteger_blanks hfront] at hscan
    by_cases hnil : (ofInt number).bytes.take (count - blanks.length) = []
    · rw [hnil] at hscan
      cases hscan
    · have hend : ∀ byte ∈ ([] : List UInt8).head?, ¬isDigit byte := by
        rintro _ ⟨⟩
      rw [← List.append_nil ((ofInt number).bytes.take _),
        scanInteger_digits hdigits hnil hend] at hscan
      cases hscan
      rfl

end HiFetch.Scanf
