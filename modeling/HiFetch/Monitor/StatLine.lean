import HiFetch.Library.Scanf
import HiFetch.Monitor.Processes

/-!
# Reading `/proc/<pid>/stat`

The kernel prints one line for a process: its number, its name in parentheses, its state and 49
numbers.  `get_processes` reads the first 24 fields of the line with one `sscanf`, which takes the
name with `%s`.  That conversion ends at white space and not at the closing parenthesis, so a name
with white space shifts all fields behind it.
-/

namespace HiFetch.Monitor

open CString Scanf

/-- What the kernel knows of a process, in the order of the line. -/
structure StatRecord where
  pid : Int32
  comm : CString
  state : UInt8
  ppid : Int32
  pgrp : Int32
  session : Int32
  ttyNr : Int32
  tpgid : Int32
  flags : UInt32
  minflt : UInt64
  cminflt : UInt64
  majflt : UInt64
  cmajflt : UInt64
  utime : UInt64
  stime : UInt64
  cutime : Int64
  cstime : Int64
  priority : Int64
  nice : Int64
  numThreads : Int64
  itrealvalue : Int64
  starttime : UInt64
  vsize : UInt64
  rss : Int64
  /-- Fields 25 to 52. -/
  others : List ℤ
  comm_length : 1 ≤ comm.length ∧ comm.length ≤ 15
  /-- The kernel escapes newlines and backslashes. -/
  comm_clean : 10 ∉ comm.bytes ∧ 92 ∉ comm.bytes
  state_letter : 65 ≤ state ∧ state ≤ 90 ∨ 97 ≤ state ∧ state ≤ 122
  others_length : others.length = 28

/-- The numbers from `ppid` to `rss`. -/
def StatRecord.numericFields (record : StatRecord) : List ℤ :=
  [record.ppid.toInt, record.pgrp.toInt, record.session.toInt, record.ttyNr.toInt,
    record.tpgid.toInt, record.flags.toNat, record.minflt.toNat, record.cminflt.toNat,
    record.majflt.toNat, record.cmajflt.toNat, record.utime.toNat, record.stime.toNat,
    record.cutime.toInt, record.cstime.toInt, record.priority.toInt, record.nice.toInt,
    record.numThreads.toInt, record.itrealvalue.toInt, record.starttime.toNat, record.vsize.toNat,
    record.rss.toInt]

/-- The line that the kernel prints. -/
def StatRecord.line (record : StatRecord) : List UInt8 :=
  (ofInt record.pid.toInt).bytes ++ [32, 40] ++ record.comm.bytes ++ [41, 32, record.state] ++
    printed (record.numericFields ++ record.others) ++ [10]

/-- `fgets` with room for `room` bytes and the NUL. -/
def fgets : ℕ → List UInt8 → List UInt8
  | 0, _ => []
  | _, [] => []
  | room + 1, byte :: rest => if byte = 10 then [byte] else byte :: fgets room rest

/-- The numeric part of the format, from the fourth conversion on. -/
def statNumbers : List (Kind × Bool) :=
  [(.signed 32, true), (.signed 32, false), (.signed 32, false), (.signed 32, false),
    (.signed 32, false), (.unsigned 32, false), (.unsigned 32, false), (.unsigned 32, false),
    (.unsigned 32, false), (.unsigned 32, false), (.unsigned 64, true), (.unsigned 64, true),
    (.signed 32, false), (.signed 32, false), (.signed 32, false), (.signed 32, false),
    (.signed 32, false), (.signed 32, false), (.unsigned 32, false), (.unsigned 64, true),
    (.signed 64, true)]

/-- `%d %s %c %d %*d %*d %*d %*d %*u %*u %*u %*u %*u %lu %lu %*d %*d %*d %*d %*d %*d %*u %lu %ld` -/
def statFormat : List Directive :=
  [.convert (.signed 32) true, .blank, .convert .text true, .blank, .convert .byte true] ++
    numbers statNumbers

/-- The targets of the `sscanf`, when all eight are assigned. -/
def statFields : List Value → Option StatFields
  | [.integer pid, .text comm, .byte state, .integer ppid, .integer utime, .integer stime,
      .integer vsize, .integer rss] =>
      some ⟨pid, comm, state, ppid, utime.toNat, stime.toNat, vsize.toNat, rss⟩
  | _ => none

/-- The fields of a line that assigns all eight targets.  `get_processes` does not ask for that, see
`readTargets`. -/
def readStat (file : List UInt8) : Option StatFields :=
  statFields (sscanf statFormat (fgets 511 file))

/-- The integer that is assigned to a target, or what the target held before. -/
def integerOr (values : List Value) (target : ℕ) (left : ℤ) : ℤ :=
  match values[target]? with
  | some (.integer value) => value
  | _ => left

def textOr (values : List Value) (target : ℕ) (left : CString) : CString :=
  match values[target]? with
  | some (.text value) => value
  | _ => left

def byteOr (values : List Value) (target : ℕ) (left : UInt8) : UInt8 :=
  match values[target]? with
  | some (.byte value) => value
  | _ => left

/-- The targets of the `sscanf` behind it, if it assigns the values in order. -/
def StatFields.assign (left : StatFields) (values : List Value) : StatFields where
  pid := integerOr values 0 left.pid
  comm := textOr values 1 left.comm
  state := byteOr values 2 left.state
  ppid := integerOr values 3 left.ppid
  utime := (integerOr values 4 left.utime).toNat
  stime := (integerOr values 5 left.stime).toNat
  vsize := (integerOr values 6 left.vsize).toNat
  rss := integerOr values 7 left.rss

/-- What `get_processes` takes a row from.  The result of the `sscanf` is not looked at, so targets
that are not assigned keep what they held: the number is a field of the row in the array, the other
targets are variables of the loop body without initial values, where in practice the round before
has left its own. -/
def readTargets (left : StatFields) (file : List UInt8) : StatFields :=
  left.assign (sscanf statFormat (fgets 511 file))

/-- All eight targets are assigned, and they are the values of the record. -/
def Decoded (record : StatRecord) : Prop :=
  ∃ fields, readStat record.line = some fields ∧ fields.pid = record.pid.toInt ∧
    fields.state = record.state ∧ fields.ppid = record.ppid.toInt ∧
    fields.utime = record.utime.toNat ∧ fields.stime = record.stime.toNat ∧
    fields.vsize = record.vsize.toNat ∧ fields.rss = record.rss.toInt

/-- The name has no white space in it. -/
def StatRecord.Solid (record : StatRecord) : Prop := ∀ byte ∈ record.comm.bytes, ¬isSpace byte

/-! ## The line in the buffer -/

theorem fgets_append {front : List UInt8} (hfront : 10 ∉ front) {room : ℕ}
    (hroom : front.length ≤ room) (back : List UInt8) :
    fgets room (front ++ back) = front ++ fgets (room - front.length) back := by
  induction front generalizing room with
  | nil => rfl
  | cons byte front ih =>
    rw [List.mem_cons, not_or] at hfront
    obtain ⟨room, rfl⟩ : ∃ smaller, room = smaller + 1 :=
      Nat.exists_eq_succ_of_ne_zero (by rw [List.length_cons] at hroom; omega)
    rw [List.cons_append, fgets, if_neg (Ne.symm hfront.1), ih hfront.2 (by simpa using hroom)]
    simp

theorem head_fgets {room : ℕ} (hroom : 0 < room) (input : List UInt8) :
    (fgets room input).head? = input.head? := by
  obtain ⟨room, rfl⟩ := Nat.exists_eq_succ_of_ne_zero hroom.ne'
  cases input with
  | nil => rfl
  | cons byte rest =>
    unfold fgets
    split_ifs <;> rfl

theorem natAbs_numericFields_lt (record : StatRecord) :
    ∀ value ∈ record.numericFields, value.natAbs < 10 ^ 20 := by
  have hint : ∀ value : Int32, value.toInt.natAbs < 10 ^ 20 := fun value ↦ by
    have hlow := value.le_toInt
    have hhigh := value.toInt_lt
    omega
  have hlong : ∀ value : Int64, value.toInt.natAbs < 10 ^ 20 := fun value ↦ by
    have hlow := value.le_toInt
    have hhigh := value.toInt_lt
    omega
  have hunsigned : ∀ value : UInt32, (value.toNat : ℤ).natAbs < 10 ^ 20 := fun value ↦ by
    have hhigh := value.toNat_lt
    omega
  have hunsignedLong : ∀ value : UInt64, (value.toNat : ℤ).natAbs < 10 ^ 20 := fun value ↦ by
    have hhigh := value.toNat_lt
    omega
  simp only [StatRecord.numericFields, List.forall_mem_cons, hint, hlong, hunsigned, hunsignedLong,
    List.not_mem_nil, true_and, false_implies, implies_true]

/-- The first 24 fields of the line. -/
def StatRecord.front (record : StatRecord) : List UInt8 :=
  (ofInt record.pid.toInt).bytes ++ 32 :: 40 :: record.comm.bytes ++
    41 :: 32 :: record.state :: printed record.numericFields

theorem line_eq (record : StatRecord) :
    record.line = record.front ++ (printed record.others ++ [10]) := by
  simp [StatRecord.line, StatRecord.front, printed]

/-- A state letter is no white space and belongs to no number. -/
theorem stops_state (record : StatRecord) : Stops record.state := by
  apply stops_of_lt
  rcases record.state_letter with ⟨hlow, -⟩ | ⟨hlow, -⟩
  · exact lt_of_lt_of_le (by decide) (UInt8.le_iff_toNat_le.1 hlow)
  · exact lt_of_lt_of_le (by decide) (UInt8.le_iff_toNat_le.1 hlow)

theorem newline_notMem_front (record : StatRecord) : 10 ∉ record.front := by
  have hnumber : ∀ number, 10 ∉ (ofInt number).bytes := by
    intro number hmem
    rcases mem_bytes_ofInt hmem with hsign | hdigit
    · exact absurd hsign (by decide)
    · exact absurd hdigit (by decide)
  have hstate : record.state ≠ 10 := by
    intro hstate
    exact (stops_state record).1 (hstate ▸ by decide)
  intro hmem
  simp only [StatRecord.front, List.mem_append, List.mem_cons] at hmem
  rcases hmem with (hpid | hblank | hopen | hcomm) | hclose | hblank | hletter | hfields
  · exact hnumber _ hpid
  · exact absurd hblank (by decide)
  · exact absurd hopen (by decide)
  · exact record.comm_clean.1 hcomm
  · exact absurd hclose (by decide)
  · exact absurd hblank (by decide)
  · exact hstate hletter.symm
  · rcases mem_printed hfields with hblank | hsign | hdigit
    · exact absurd hblank (by decide)
    · exact absurd hsign (by decide)
    · exact absurd hdigit (by decide)

theorem length_front_lt (record : StatRecord) : record.front.length < 511 := by
  have hpid : (ofInt record.pid.toInt).bytes.length ≤ 21 := by
    apply length_bytes_ofInt_le (by decide)
    have hlow := record.pid.le_toInt
    have hhigh := record.pid.toInt_lt
    omega
  have hfields : (printed record.numericFields).length ≤ 22 * 21 :=
    length_printed_le (by decide) (natAbs_numericFields_lt record)
  have hcomm : record.comm.bytes.length ≤ 15 := record.comm_length.2
  simp only [StatRecord.front, List.length_append, List.length_cons]
  omega

/-- The buffer holds the first 24 fields in full, and behind them nothing that goes on with the
last number. -/
theorem exists_fgets_line (record : StatRecord) :
    ∃ tail, (∀ byte ∈ tail.head?, ¬isDigit byte) ∧
      fgets 511 record.line = record.front ++ tail := by
  have hroom := length_front_lt record
  refine ⟨_, ?_, by rw [line_eq, fgets_append (newline_notMem_front record) hroom.le]⟩
  rw [head_fgets (Nat.sub_pos_of_lt hroom)]
  cases hothers : record.others with
  | nil =>
    rintro _ ⟨⟩
    decide
  | cons first others =>
    rintro _ ⟨⟩
    decide

/-- The first three conversions: the number, a word and the next byte that is not white space. -/
theorem sscanf_statFormat (pid : Int32) {word blanks : List UInt8} {letter : UInt8}
    (hword : ∀ byte ∈ word, ¬isSpace byte) (hne : word ≠ [])
    (hblanks : ∀ byte ∈ blanks, isSpace byte) (hgap : blanks ≠ []) (hletter : ¬isSpace letter)
    (rest : List UInt8) :
    sscanf statFormat ((ofInt pid.toInt).bytes ++ 32 :: word ++ blanks ++ letter :: rest) =
      .integer pid.toInt :: .text (ofBuffer word) :: .byte letter ::
        sscanf (numbers statNumbers) rest := by
  have hstart : ∀ byte ∈ (word ++ blanks ++ letter :: rest).head?, ¬isSpace byte := by
    intro first hfirst
    rw [List.append_assoc, List.head?_append_of_ne_nil _ hne] at hfirst
    exact hword first (List.mem_of_mem_head? hfirst)
  have hend : ∀ first ∈ (blanks ++ letter :: rest).head?, isSpace first := by
    intro first hfirst
    rw [List.head?_append_of_ne_nil _ hgap] at hfirst
    exact hblanks first (List.mem_of_mem_head? hfirst)
  have hnext : ∀ first ∈ (letter :: rest).head?, ¬isSpace first := by
    rintro _ ⟨⟩
    exact hletter
  have hpid : scan (.signed 32)
      ((ofInt pid.toInt).bytes ++ 32 :: (word ++ blanks ++ letter :: rest)) =
        some (.integer pid.toInt, 32 :: (word ++ blanks ++ letter :: rest)) := by
    rw [scan_of_numeric rfl, scanInteger_printed _ (by rintro _ ⟨⟩; decide), Option.map_some,
      convert_signed (by decide) (by decide) pid.le_toInt pid.toInt_lt]
  have htext : scan .text (word ++ blanks ++ letter :: rest) =
      some (.text (ofBuffer word), blanks ++ letter :: rest) := by
    rw [List.append_assoc]
    show (scanText _).map _ = _
    rw [scanText_word hword hne hend]
    rfl
  calc
    sscanf statFormat ((ofInt pid.toInt).bytes ++ 32 :: word ++ blanks ++ letter :: rest) =
        .integer pid.toInt ::
          sscanf (.blank :: .convert .text true :: .blank :: .convert .byte true ::
            numbers statNumbers) (32 :: (word ++ blanks ++ letter :: rest)) := by
      rw [← sscanf_assigned hpid]
      simp [statFormat]
    _ = .integer pid.toInt :: .text (ofBuffer word) :: sscanf (.blank :: .convert .byte true ::
          numbers statNumbers) (blanks ++ letter :: rest) := by
      rw [sscanf_blank, List.dropWhile_cons_of_pos (by decide), dropWhile_of_head hstart,
        sscanf_assigned htext]
    _ = .integer pid.toInt :: .text (ofBuffer word) :: .byte letter ::
          sscanf (numbers statNumbers) rest := by
      rw [sscanf_blank, dropWhile_append_of_head hblanks hnext]
      rfl

/-! ## Names with and without white space -/

/-- The values of the row are those of the record. -/
theorem assignedValues_numericFields (record : StatRecord) :
    assignedValues (statNumbers.zip record.numericFields) =
      [.integer record.ppid.toInt, .integer record.utime.toNat, .integer record.stime.toNat,
        .integer record.vsize.toNat, .integer record.rss.toInt] := by
  have hint : ∀ value : Int32, (Kind.signed 32).convert value.toInt = value.toInt := fun value ↦
    convert_signed (by decide) (by decide) value.le_toInt value.toInt_lt
  have hlong : ∀ value : Int64, (Kind.signed 64).convert value.toInt = value.toInt := fun value ↦
    convert_signed (by decide) (by decide) value.le_toInt value.toInt_lt
  have hunsigned : ∀ value : UInt64, (Kind.unsigned 64).convert value.toNat = value.toNat :=
    fun value ↦ convert_unsigned (by decide) (Int.natCast_nonneg _) (by
      have hhigh := value.toNat_lt
      omega)
  simp [assignedValues, statNumbers, StatRecord.numericFields, hint, hlong, hunsigned]

theorem decoded_of_solid {record : StatRecord} (h : record.Solid) : Decoded record := by
  obtain ⟨tail, htail, hbuffer⟩ := exists_fgets_line record
  have hword : ∀ byte ∈ 40 :: record.comm.bytes ++ [41], ¬isSpace byte := by
    intro byte hmem
    simp only [List.mem_append, List.mem_cons, List.not_mem_nil, or_false] at hmem
    rcases hmem with (rfl | hcomm) | rfl
    · decide
    · exact h byte hcomm
    · decide
  have hsplit : record.front ++ tail = (ofInt record.pid.toInt).bytes ++
      32 :: (40 :: record.comm.bytes ++ [41]) ++ [32] ++
        record.state :: (printed record.numericFields ++ tail) := by
    simp [StatRecord.front]
  have hrow : sscanf (numbers statNumbers) (printed record.numericFields ++ tail) =
      assignedValues (statNumbers.zip record.numericFields) :=
    sscanf_numbers_printed (statNumbers.zip record.numericFields)
      (by simp [statNumbers, StatRecord.numericFields, Kind.numeric]) htail
  unfold Decoded readStat
  rw [hbuffer, hsplit, sscanf_statFormat record.pid hword (by simp) (by decide +kernel) (by simp)
    (stops_state record).1, hrow, assignedValues_numericFields]
  exact ⟨_, rfl, rfl, rfl, rfl, rfl, rfl, rfl, rfl⟩

/-- A name with white space, taken apart at the first one. -/
theorem exists_eq_of_not_solid {record : StatRecord} (h : ¬record.Solid) :
    ∃ front blank back, record.comm.bytes = front ++ blank :: back ∧
      (∀ byte ∈ front, ¬isSpace byte) ∧ isSpace blank ∧ back.length ≤ 14 := by
  have hblank : ¬∀ byte ∈ record.comm.bytes, !isSpace byte := by simpa [StatRecord.Solid] using h
  obtain ⟨front, blank, back, hcomm, hfront, hblank⟩ := exists_eq_append_cons hblank
  have hlength := record.comm_length.2
  unfold CString.length at hlength
  rw [hcomm, List.length_append, List.length_cons] at hlength
  exact ⟨front, blank, back, hcomm, by simpa using hfront, by simpa using hblank, by omega⟩

/-- Behind the third conversion a byte that is no number comes before the user time. -/
theorem exists_sscanf_stopped (pid : Int32) {word blanks middle : List UInt8} {letter stop : UInt8}
    (hword : ∀ byte ∈ word, ¬isSpace byte) (hne : word ≠ [])
    (hblanks : ∀ byte ∈ blanks, isSpace byte) (hgap : blanks ≠ []) (hletter : ¬isSpace letter)
    (hstop : Stops stop) (hmiddle : middle.length < 20) (behind : List UInt8) :
    ∃ comm state rest, rest.length < 2 ∧
      sscanf statFormat ((ofInt pid.toInt).bytes ++ 32 :: word ++ blanks ++
        letter :: (middle ++ stop :: behind)) =
          .integer pid.toInt :: .text comm :: .byte state :: rest := by
  have hsplit : numbers statNumbers =
      numbers (statNumbers.take 11) ++ numbers (statNumbers.drop 11) := rfl
  have hnumeric : ∀ field ∈ statNumbers.take 11, field.1.numeric := by decide
  have hlast : ∀ field ∈ (statNumbers.take 11).getLast?, field.2 := by decide
  have hcount : (statNumbers.take 11).countP Prod.snd = 2 := by decide
  have hlength : (statNumbers.take 11).length = 11 := rfl
  have hread := length_sscanf_interrupted hstop hnumeric hlast middle (.inl (by omega)) behind
    (numbers (statNumbers.drop 11))
  rw [hcount, ← hsplit] at hread
  exact ⟨_, _, _, hread, sscanf_statFormat pid hword hne hblanks hgap hletter _⟩

/-- White space in the name leaves the times and what is behind them unassigned: the numbers are
looked for in the rest of the name, which is too short for them, and then at a letter or a
parenthesis. -/
theorem exists_sscanf_of_not_solid {record : StatRecord} (h : ¬record.Solid) :
    ∃ comm state rest, rest.length < 2 ∧
      sscanf statFormat (fgets 511 record.line) =
        .integer record.pid.toInt :: .text comm :: .byte state :: rest := by
  obtain ⟨tail, -, hbuffer⟩ := exists_fgets_line record
  obtain ⟨front, blank, back, hcomm, hfront, hblank, hshort⟩ := exists_eq_of_not_solid h
  have hword : ∀ byte ∈ 40 :: front, ¬isSpace byte := by
    intro byte hmem
    rcases List.mem_cons.1 hmem with rfl | hmem
    · decide
    · exact hfront byte hmem
  have hblanks : ∀ byte ∈ blank :: back.takeWhile isSpace, isSpace byte := by
    intro byte hmem
    rcases List.mem_cons.1 hmem with rfl | hmem
    · exact hblank
    · exact List.mem_takeWhile_imp hmem
  have hback : back = back.takeWhile isSpace ++ back.dropWhile isSpace :=
    List.takeWhile_append_dropWhile.symm
  rw [hbuffer]
  cases hrest : back.dropWhile isSpace with
  | nil =>
    -- the state is the parenthesis, and the first number is looked for at the state letter
    have hsplit : record.front ++ tail = (ofInt record.pid.toInt).bytes ++
        32 :: (40 :: front) ++ (blank :: back.takeWhile isSpace) ++ 41 :: ([32] ++
          record.state :: (printed record.numericFields ++ tail)) := by
      rw [hrest, List.append_nil] at hback
      conv_lhs => rw [StatRecord.front, hcomm, hback]
      simp
    rw [hsplit]
    exact exists_sscanf_stopped record.pid hword (by simp) hblanks (by simp) (by decide)
      (stops_state record) (by decide) _
  | cons letter rest =>
    -- the state is a letter of the name, and the numbers are looked for in front of the parenthesis
    have hletter : ¬isSpace letter := by
      have hhead := List.head?_dropWhile_not isSpace back
      rw [hrest] at hhead
      simpa using hhead
    have hsplit : record.front ++ tail = (ofInt record.pid.toInt).bytes ++
        32 :: (40 :: front) ++ (blank :: back.takeWhile isSpace) ++ letter :: (rest ++
          41 :: (32 :: record.state :: (printed record.numericFields ++ tail))) := by
      rw [hrest] at hback
      conv_lhs => rw [StatRecord.front, hcomm, hback]
      simp
    have hlength : rest.length < 20 := by
      have htrim := (List.dropWhile_sublist isSpace (l := back)).length_le
      rw [hrest, List.length_cons] at htrim
      omega
    have hclose : Stops 41 := by
      unfold Stops
      decide
    rw [hsplit]
    exact exists_sscanf_stopped record.pid hword (by simp) hblanks (by simp) hletter hclose
      hlength _

theorem statFields_of_length_lt {values : List Value} (h : values.length < 8) :
    statFields values = none := by
  unfold statFields
  split
  · exact absurd h (by simp)
  · rfl

/-- The line of a process is decoded exactly when the name has no white space. -/
theorem decoded_iff_solid (record : StatRecord) : Decoded record ↔ record.Solid := by
  constructor
  · rintro ⟨fields, hread, -⟩
    by_contra hsolid
    obtain ⟨comm, state, rest, hrest, hvalues⟩ := exists_sscanf_of_not_solid hsolid
    have hshort : (sscanf statFormat (fgets 511 record.line)).length < 8 := by
      rw [hvalues]
      simp only [List.length_cons]
      omega
    unfold readStat at hread
    rw [statFields_of_length_lt hshort] at hread
    cases hread
  · exact decoded_of_solid

/-! ## What the targets hold -/

/-- `utime + stime` of the kernel. -/
def StatRecord.time (record : StatRecord) : ℕ := (record.utime.toNat + record.stime.toNat) % 2 ^ 64

theorem readTargets_of_readStat {file : List UInt8} {fields : StatFields}
    (h : readStat file = some fields) (left : StatFields) : readTargets left file = fields := by
  unfold readStat at h
  unfold readTargets
  generalize sscanf statFormat (fgets 511 file) = values at h ⊢
  unfold statFields at h
  split at h
  · cases h
    simp [StatFields.assign, integerOr, textOr, byteOr]
  · cases h

theorem time_readTargets_of_solid {record : StatRecord} (h : record.Solid) (left : StatFields) :
    (readTargets left record.line).time = record.time := by
  obtain ⟨fields, hread, -, -, -, hutime, hstime, -⟩ := decoded_of_solid h
  rw [readTargets_of_readStat hread left, StatFields.time, hutime, hstime, StatRecord.time]

/-- A name with white space leaves both times as they were. -/
theorem time_readTargets_of_not_solid {record : StatRecord} (h : ¬record.Solid)
    (left : StatFields) : (readTargets left record.line).time = left.time := by
  obtain ⟨comm, state, rest, hrest, hvalues⟩ := exists_sscanf_of_not_solid h
  have hnone : ∀ target, rest[target + 1]? = none := fun target ↦
    List.getElem?_eq_none (by omega)
  unfold readTargets
  rw [hvalues]
  simp [StatFields.assign, StatFields.time, integerOr, hnone]

theorem pid_readTargets (record : StatRecord) (left : StatFields) :
    (readTargets left record.line).pid = record.pid.toInt := by
  by_cases h : record.Solid
  · obtain ⟨fields, hread, hpid, -⟩ := decoded_of_solid h
    rw [readTargets_of_readStat hread left, hpid]
  · obtain ⟨comm, state, rest, -, hvalues⟩ := exists_sscanf_of_not_solid h
    unfold readTargets
    rw [hvalues]
    rfl

/-- A terminal multiplexer names its server `tmux: server`. -/
def tmuxRecord : StatRecord where
  pid := 1200
  comm := ⟨[116, 109, 117, 120, 58, 32, 115, 101, 114, 118, 101, 114], by decide⟩
  state := 83
  ppid := 1
  pgrp := 1200
  session := 1200
  ttyNr := 0
  tpgid := -1
  flags := 4194304
  minflt := 900
  cminflt := 0
  majflt := 0
  cmajflt := 0
  utime := 150
  stime := 70
  cutime := 0
  cstime := 0
  priority := 20
  nice := 0
  numThreads := 1
  itrealvalue := 0
  starttime := 8000
  vsize := 11000000
  rss := 1300
  others := List.replicate 28 0
  comm_length := by decide
  comm_clean := by decide
  state_letter := by decide
  others_length := rfl

/-- Only the number, the first word of the name and a wrong state are assigned. -/
theorem not_decoded_tmux : ¬Decoded tmuxRecord := by
  rintro ⟨fields, hread, -⟩
  have hnone : readStat tmuxRecord.line = none := by decide +kernel
  rw [hnone] at hread
  cases hread

end HiFetch.Monitor
