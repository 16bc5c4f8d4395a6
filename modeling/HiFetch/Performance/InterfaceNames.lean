import HiFetch.Performance.Rates
import HiFetch.Utils.ReadLines
import Mathlib.Algebra.Order.BigOperators.Group.List

/-!
# Names of network interfaces

The kernel aligns the names in `/proc/net/dev` to the right in six columns.  The scan set in
`get_network_performance` keeps the blanks in front of a name, and the name is then cut at its first
blank, so a name of less than six bytes is recorded as the empty string.

The one read is taken to deliver the whole file, or as much of it as the buffer has room for.  The
kernel does so as long as the file is not longer than a page.
-/

namespace HiFetch.Performance

open CString Scanf Strtok Utils

/-! ## The file -/

/-- An interface: its name, and its eight counters of each direction, of which the first four are
bytes, packets, errors and drops.  It has received or sent something. -/
structure DevLine where
  name : CString
  rx : Fin 8 → UInt64
  tx : Fin 8 → UInt64
  length_pos : 0 < name.length
  length_le : name.length ≤ 15
  clean : ∀ byte ∈ name.bytes, ¬isSpace byte ∧ byte ≠ 58
  active : 0 < rx 0 ∨ 0 < tx 0

/-- A counter as the kernel prints it: a blank, and the number in its column. -/
def columnBytes (width : ℕ) (counter : UInt64) : List UInt8 :=
  32 :: (List.replicate (width - (ofInt counter.toNat).length) 32 ++ (ofInt counter.toNat).bytes)

/-- The widths of the columns. -/
def devWidths : List ℕ := [7, 7, 4, 4, 4, 5, 10, 9, 8, 7, 4, 4, 4, 5, 7, 10]

/-- The name in its six columns. -/
def DevLine.column (line : DevLine) : List UInt8 :=
  List.replicate (6 - line.name.length) 32 ++ line.name.bytes

def DevLine.bytes (line : DevLine) : List UInt8 :=
  line.column ++ 58 :: (devWidths.zip (List.ofFn line.rx ++ List.ofFn line.tx)).flatMap
    fun column ↦ columnBytes column.1 column.2

/-- The two lines of the header. -/
def devHeader : List CString :=
  [ofText "Inter-|   Receive                                                |  Transmit",
    ofText (" face |bytes    packets errs drop fifo frame compressed multicast|" ++
      "bytes    packets errs drop fifo colls carrier compressed")]

/-- `/proc/net/dev` -/
def devFile (lines : List DevLine) : List UInt8 :=
  terminated 10 (devHeader.map CString.bytes ++ lines.map DevLine.bytes)

/-- What `get_network_performance` reads: the text that `read_file_fast` leaves of the file, if one
read delivers all that it asks for, and the clock. -/
def devInput (buffer : List UInt8) (lines : List DevLine) (clock : ℕ → ℚ) : CallInput where
  file := readText buffer 8192 (wholeRead 8192 (devFile lines))
  clock := clock

/-! ## The law -/

/-- Each of the first 16 lines is recorded with its name and its sums of errors and drops. -/
def RecordsLines (lines : List DevLine) (rows : List (Output NetworkGauges)) : Prop :=
  rows.map (fun row ↦ (row.shown, row.gauges.errorsPerSec.toNat,
      row.gauges.dropsPerSec.map UInt64.toNat)) =
    (lines.take 16).map fun line ↦ (line.name, (line.rx 2).toNat + (line.tx 2).toNat,
      some ((line.rx 3).toNat + (line.tx 3).toNat))

/-- The name fills its columns, and the sums do not overflow. -/
def DevLine.Fits (line : DevLine) : Prop :=
  6 ≤ line.name.length ∧ (line.rx 2).toNat + (line.tx 2).toNat < 2 ^ 64 ∧
    (line.rx 3).toNat + (line.tx 3).toNat < 2 ^ 64

/-! ## One line -/

/-- The field that a conversion reads from a column. -/
def counterField (assigned : Bool) (width : ℕ) (counter : UInt64) : Field :=
  numberField (.unsigned 64) assigned
    (32 :: List.replicate (width - (ofInt counter.toNat).length) 32) counter.toNat

theorem counterField_reads (assigned : Bool) (width : ℕ) (counter : UInt64) :
    (counterField assigned width counter).Reads fun byte ↦ ¬isDigit byte := by
  apply numberField_reads rfl
  · intro byte hbyte
    rcases List.mem_cons.1 hbyte with rfl | hpad
    · decide
    · rw [List.eq_of_mem_replicate hpad]
      decide
  · exact List.cons_ne_nil _ _

theorem convert_counter (counter : UInt64) :
    (Kind.unsigned 64).convert counter.toNat = counter.toNat :=
  convert_unsigned (by decide) (by omega) (by exact_mod_cast counter.toNat_lt)

/-- The name that is recorded. -/
def DevLine.shown (line : DevLine) : CString :=
  if 6 ≤ line.name.length then line.name else empty

theorem DevLine.shown_eq_iff (line : DevLine) : line.shown = line.name ↔ 6 ≤ line.name.length := by
  unfold shown
  split_ifs with hwide
  · exact iff_of_true rfl hwide
  · refine iff_of_false (fun hempty ↦ ?_) hwide
    have hpos := line.length_pos
    rw [← hempty] at hpos
    exact absurd hpos (by decide)

theorem DevLine.mem_column {line : DevLine} {byte : UInt8} (h : byte ∈ line.column) :
    byte = 32 ∨ byte ∈ line.name.bytes :=
  (List.mem_append.1 h).imp_left List.eq_of_mem_replicate

theorem DevLine.bytes_ofBuffer_column (line : DevLine) :
    (ofBuffer line.column).bytes = line.column := by
  apply bytes_ofBuffer_of_notMem
  intro hmem
  rcases DevLine.mem_column hmem with hblank | hname
  · exact absurd hblank (by decide)
  · exact line.name.noNul hname

/-- A name with a blank in front of it is cut to nothing. -/
theorem DevLine.takeWhile_column (line : DevLine) :
    ofBuffer ((ofBuffer line.column).bytes.takeWhile fun byte ↦ byte != 32) = line.shown := by
  rw [line.bytes_ofBuffer_column, shown, column]
  by_cases hwide : 6 ≤ line.name.length
  · have hname : ∀ byte ∈ line.name.bytes, byte != 32 := by
      intro byte hbyte
      rw [bne_iff_ne]
      rintro rfl
      exact (line.clean 32 hbyte).1 (by decide)
    rw [if_pos hwide, Nat.sub_eq_zero_of_le hwide, List.replicate_zero, List.nil_append,
      List.takeWhile_eq_self_iff.2 hname, ofBuffer_bytes]
  · obtain ⟨pad, hpad⟩ := Nat.exists_eq_succ_of_ne_zero (Nat.sub_pos_of_lt (not_le.1 hwide)).ne'
    rw [if_neg hwide, hpad, List.replicate_succ, List.cons_append,
      List.takeWhile_cons_of_neg (by decide), ofBuffer_nil]

/-- The fields of a line that the format has conversions for. -/
def DevLine.row (line : DevLine) : List Field :=
  [counterField true 7 (line.rx 0), counterField true 7 (line.rx 1),
    counterField true 4 (line.rx 2), counterField true 4 (line.rx 3),
    counterField false 4 (line.rx 4), counterField false 5 (line.rx 5),
    counterField false 10 (line.rx 6), counterField false 9 (line.rx 7),
    counterField true 8 (line.tx 0), counterField true 7 (line.tx 1),
    counterField true 4 (line.tx 2), counterField true 4 (line.tx 3)]

/-- The columns behind them. -/
def DevLine.others (line : DevLine) : List UInt8 :=
  columnBytes 4 (line.tx 4) ++ (columnBytes 5 (line.tx 5) ++
    (columnBytes 7 (line.tx 6) ++ columnBytes 10 (line.tx 7)))

theorem DevLine.bytes_eq (line : DevLine) :
    line.bytes = line.column ++ 58 :: (rowBytes line.row ++ line.others) := by
  simp [DevLine.bytes, devWidths, List.ofFn_succ, columnBytes, rowBytes, DevLine.row,
    DevLine.others, counterField, numberField]

theorem DevLine.scan_column (line : DevLine) (tail : List UInt8) :
    scan (.span 31 58) (line.column ++ 58 :: tail) =
      some (.text (ofBuffer line.column), 58 :: tail) := by
  have hcolumn : ∀ byte ∈ line.column, byte != 58 := by
    intro byte hbyte
    rw [bne_iff_ne]
    rcases DevLine.mem_column hbyte with rfl | hname
    · decide
    · exact (line.clean byte hname).2
  have hlength : line.column.length = 6 - line.name.length + line.name.length := by
    rw [column, List.length_append, List.length_replicate]
    rfl
  have hle := line.length_le
  have hpos := line.length_pos
  have hne : line.column ≠ [] := List.ne_nil_of_length_pos (by omega)
  have hstop : ∀ byte ∈ (58 :: tail).head?, ¬(byte != 58) := by
    rintro _ ⟨⟩
    decide
  rw [scan, scanBounded_append hcolumn hne (by omega) (.inr hstop), Option.map_some]

theorem DevLine.sscanf_bytes (line : DevLine) :
    sscanf networkFormat line.bytes =
      [.text (ofBuffer line.column), .integer (line.rx 0).toNat, .integer (line.rx 1).toNat,
        .integer (line.rx 2).toNat, .integer (line.rx 3).toNat, .integer (line.tx 0).toNat,
        .integer (line.tx 1).toNat, .integer (line.tx 2).toNat, .integer (line.tx 3).toNat] := by
  have hrow : ∀ field ∈ line.row, field.Reads fun byte ↦ ¬isDigit byte := by
    simp only [row, List.forall_mem_cons, counterField_reads, List.not_mem_nil, false_imp_iff,
      implies_true, and_self]
  have hothers : ∀ byte ∈ line.others.head?, ¬isDigit byte := by
    rintro _ ⟨⟩
    decide
  have hnumbers := sscanf_row not_isDigit_of_isSpace hrow hothers
  have hformat : networkFormat = .convert (.span 31 58) true :: .literal 58 ::
      numbers (line.row.map fun field ↦ (field.kind, field.assigned)) := rfl
  rw [line.bytes_eq]
  calc
    sscanf networkFormat (line.column ++ 58 :: (rowBytes line.row ++ line.others)) =
        .text (ofBuffer line.column) :: sscanf (numbers (line.row.map fun field ↦
          (field.kind, field.assigned))) (rowBytes line.row ++ line.others) := by
      rw [hformat, sscanf_assigned (line.scan_column _), sscanf_literal, List.head?_cons,
        if_pos rfl, List.tail_cons]
    _ = .text (ofBuffer line.column) :: rowValues line.row := by rw [hnumbers]
    _ = _ := by simp [row, rowValues, convert_counter, counterField, numberField]

/-- A line is listed with the name as it is cut, and its sums. -/
theorem DevLine.networkEntry_bytes (line : DevLine) :
    ∃ entry, networkEntry (sscanf networkFormat line.bytes) = some entry ∧
      entry.shown = line.shown ∧
      entry.gauges = ⟨line.rx 2 + line.tx 2, some (line.rx 3 + line.tx 3)⟩ := by
  rw [line.sscanf_bytes, networkEntry]
  simp only [Int.toNat_natCast, UInt64.ofNat_toNat, if_pos line.active]
  exact ⟨_, rfl, line.takeWhile_column, rfl⟩

/-! ## The file -/

theorem length_columnBytes_le {width : ℕ} (hwidth : width ≤ 10) (counter : UInt64) :
    (columnBytes width counter).length ≤ 22 := by
  have hnumber : (ofInt counter.toNat).bytes.length ≤ 20 + 1 := by
    apply length_bytes_ofInt_le (by decide)
    have hlt := counter.toNat_lt
    rw [Int.natAbs_natCast]
    omega
  have hlength : (columnBytes width counter).length =
      width - (ofInt counter.toNat).length + (ofInt counter.toNat).bytes.length + 1 := by
    rw [columnBytes, List.length_cons, List.length_append, List.length_replicate]
  rw [hlength, CString.length]
  omega

theorem DevLine.length_bytes_le (line : DevLine) : line.bytes.length ≤ 368 := by
  have hcolumns : ∀ column ∈ devWidths.zip (List.ofFn line.rx ++ List.ofFn line.tx),
      (columnBytes column.1 column.2).length ≤ 22 := by
    intro column hmem
    refine length_columnBytes_le ?_ _
    have hwidths : ∀ width ∈ devWidths, width ≤ 10 := by decide
    exact hwidths _ (List.of_mem_zip hmem).1
  have hrow : ((devWidths.zip (List.ofFn line.rx ++ List.ofFn line.tx)).flatMap fun column ↦
      columnBytes column.1 column.2).length ≤ 16 * 22 := by
    rw [List.length_flatMap]
    refine (List.sum_le_card_nsmul _ 22 (List.forall_mem_map.2 hcolumns)).trans ?_
    simp [devWidths]
  have hpos := line.length_pos
  have hle := line.length_le
  rw [bytes, List.length_append, List.length_cons, column, List.length_append,
    List.length_replicate]
  unfold CString.length at hpos hle ⊢
  omega

theorem DevLine.bytes_clean (line : DevLine) :
    ∀ byte ∈ line.bytes, byte ≠ 10 ∧ byte ≠ 0 := by
  intro byte hbyte
  have hdigit : ∀ byte, byte = 32 ∨ byte = 45 ∨ isDigit byte → byte ≠ 10 ∧ byte ≠ 0 := by
    rintro byte (rfl | rfl | hdigit)
    · decide
    · decide
    · constructor <;> rintro rfl <;> exact absurd hdigit (by decide)
  rcases List.mem_append.1 hbyte with hcolumn | hrest
  · rcases DevLine.mem_column hcolumn with rfl | hname
    · decide
    · constructor
      · rintro rfl
        exact (line.clean 10 hname).1 (by decide)
      · rintro rfl
        exact line.name.noNul hname
  · rcases List.mem_cons.1 hrest with rfl | hcolumns
    · decide
    · obtain ⟨column, -, hmem⟩ := List.mem_flatMap.1 hcolumns
      apply hdigit
      rcases List.mem_cons.1 hmem with hblank | hmem
      · exact .inl hblank
      · rcases List.mem_append.1 hmem with hpad | hnumber
        · exact .inl (List.eq_of_mem_replicate hpad)
        · exact .inr (mem_bytes_ofInt hnumber)

theorem devHeader_clean :
    ∀ line ∈ devHeader.map CString.bytes, line ≠ [] ∧ 10 ∉ line ∧ 0 ∉ line := by
  decide +kernel

theorem length_devHeader : (terminated 10 (devHeader.map CString.bytes)).length = 200 := by
  decide +kernel

/-- The lines of the file. -/
theorem devLines_clean (lines : List DevLine) :
    ∀ line ∈ devHeader.map CString.bytes ++ lines.map DevLine.bytes, CleanLine line := by
  intro line hline
  rcases List.mem_append.1 hline with hheader | hline
  · exact devHeader_clean line hheader
  · obtain ⟨line, -, rfl⟩ := List.mem_map.1 hline
    refine ⟨?_, fun hmem ↦ (line.bytes_clean 10 hmem).1 rfl, fun hmem ↦
      (line.bytes_clean 0 hmem).2 rfl⟩
    rw [DevLine.bytes]
    exact List.append_ne_nil_of_right_ne_nil _ (List.cons_ne_nil _ _)

/-- The header and the first 16 lines fit in the buffer. -/
theorem length_first_lt (lines : List DevLine) :
    (terminated 10 (devHeader.map CString.bytes ++
      (lines.take 16).map DevLine.bytes)).length < 8192 := by
  have hline : ∀ length ∈ (lines.take 16).map fun line ↦ (line.bytes ++ [10]).length,
      length ≤ 369 := by
    intro length hmem
    obtain ⟨line, -, rfl⟩ := List.mem_map.1 hmem
    rw [List.length_append, List.length_singleton]
    exact Nat.succ_le_succ line.length_bytes_le
  have hlines : (terminated 10 ((lines.take 16).map DevLine.bytes)).length ≤ 16 * 369 := by
    rw [terminated, List.flatMap_map, List.length_flatMap]
    calc
      ((lines.take 16).map fun line ↦ (line.bytes ++ [10]).length).sum ≤
          ((lines.take 16).map fun line ↦ (line.bytes ++ [10]).length).length * 369 :=
        List.sum_le_card_nsmul _ _ hline
      _ = (lines.take 16).length * 369 := by rw [List.length_map]
      _ ≤ 16 * 369 := Nat.mul_le_mul_right _ (List.length_take_le _ _)
  rw [terminated_append, List.length_append, length_devHeader]
  omega

/-- The tokens of the text: the header, the first 16 lines, and what follows them. -/
theorem tokens_devInput {buffer : List UInt8} (hbuffer : 8192 ≤ buffer.length)
    (lines : List DevLine) (clock : ℕ → ℚ) :
    ∃ text others, (devInput buffer lines clock).file = some text ∧
      (tokens text 10).drop 2 = (lines.take 16).map (fun line ↦ ofBuffer line.bytes) ++ others ∧
      (lines.length ≤ 16 → others = []) := by
  have htake : (devHeader.map CString.bytes ++ lines.map DevLine.bytes).take (2 + 16) =
      devHeader.map CString.bytes ++ (lines.take 16).map DevLine.bytes := by
    rw [List.map_take]
    rfl
  have hfits : (terminated 10 ((devHeader.map CString.bytes ++ lines.map DevLine.bytes).take
      (2 + 16))).length < 8192 := by
    rw [htake]
    exact length_first_lt lines
  obtain ⟨text, others, htext, htokens, hnone⟩ := tokens_readText_of_fits (by decide) hbuffer
    (devLines_clean lines) (List.cons_ne_nil _ _) hfits (by decide)
  have hheader : (devHeader.map CString.bytes).map ofBuffer = devHeader := by
    simp only [List.map_map, Function.comp_def, ofBuffer_bytes, List.map_id']
  have hlength : devHeader.length = 2 := rfl
  refine ⟨text, others, ?_, ?_, fun hfew ↦ hnone ?_⟩
  · simp only [devInput, devFile, htext]
  · rw [htokens, htake, List.map_append, hheader, List.append_assoc, ← hlength, List.drop_left,
      List.map_map]
    rfl
  · rw [List.length_append, List.length_map, List.length_map]
    exact Nat.add_le_add_left hfew 2

/-! ## The rows -/

/-- What is shown of the lines that are listed. -/
theorem shown_account {Gauges : Type} (scale : Counters) (clock : ℕ → ℚ) (count : ℕ)
    (statics : Statics) (entries : List (Entry Gauges)) :
    (account scale clock count statics entries).2.map (fun row ↦ (row.shown, row.gauges)) =
      (entries.take (16 - count)).map fun entry ↦ (entry.shown, entry.gauges) := by
  induction entries generalizing count statics with
  | nil => rw [account, List.take_nil, List.map_nil, List.map_nil]
  | cons entry rest ih =>
    by_cases hroom : count < 16
    · obtain ⟨left, hleft⟩ : ∃ left, 16 - count = left + 1 := ⟨15 - count, by omega⟩
      have hnext : 16 - (count + 1) = left := by omega
      rw [account_cons scale clock hroom, hleft, List.take_succ_cons, List.map_cons, List.map_cons,
        ih, hnext]
      rfl
    · rw [account_full scale clock hroom, Nat.sub_eq_zero_of_le (not_lt.1 hroom)]
      rfl

/-- The rows show the first 16 lines. -/
theorem shown_getNetworkPerformance {buffer : List UInt8} (hbuffer : 8192 ≤ buffer.length)
    (lines : List DevLine) (clock : ℕ → ℚ) (statics : Statics) :
    (getNetworkPerformance statics (devInput buffer lines clock)).2.map
        (fun row ↦ (row.shown, row.gauges)) =
      (lines.take 16).map fun line ↦
        (line.shown, ⟨line.rx 2 + line.tx 2, some (line.rx 3 + line.tx 3)⟩) := by
  obtain ⟨text, others, htext, htokens, hnone⟩ := tokens_devInput hbuffer lines clock
  choose entry hentry hshown hgauges using DevLine.networkEntry_bytes
  have hlisted : ((lines.take 16).map fun line ↦ ofBuffer line.bytes).filterMap
      (fun line ↦ networkEntry (sscanf networkFormat line.bytes)) = (lines.take 16).map entry := by
    rw [List.filterMap_map, ← List.filterMap_eq_map]
    refine List.filterMap_congr fun line _ ↦ ?_
    rw [Function.comp_apply, bytes_ofBuffer_of_notMem fun hmem ↦ (line.bytes_clean 0 hmem).2 rfl,
      hentry, Function.comp_apply]
  have hentries : netDev.entries text = (lines.take 16).map entry ++
      others.filterMap fun line ↦ networkEntry (sscanf networkFormat line.bytes) := by
    rw [← hlisted, ← List.filterMap_append, ← htokens]
    rfl
  have hfirst : (netDev.entries text).take 16 = (lines.take 16).map entry := by
    rw [hentries]
    rcases Nat.lt_or_ge lines.length 16 with hfew | hmany
    · rw [hnone hfew.le, List.filterMap_nil, List.append_nil, List.take_of_length_le]
      rw [List.length_map]
      exact List.length_take_le _ _
    · rw [List.take_append_of_le_length, List.take_of_length_le]
      · rw [List.length_map]
        exact List.length_take_le _ _
      · rw [List.length_map, List.length_take, Nat.min_eq_left hmany]
  have hmeasure : (getNetworkPerformance statics (devInput buffer lines clock)).2 =
      (account netDev.scale clock 0 statics (netDev.entries text)).2 := by
    rw [getNetworkPerformance, measure, htext]
    rfl
  rw [hmeasure, shown_account, Nat.sub_zero, hfirst, List.map_map]
  refine List.map_congr_left fun line _ ↦ ?_
  rw [Function.comp_apply, hshown, hgauges]

/-- The first 16 lines of `/proc/net/dev` are recorded with their names and sums exactly when all of
these names fill their columns and no sum overflows. -/
theorem recordsLines_iff {buffer : List UInt8} (hbuffer : 8192 ≤ buffer.length)
    (lines : List DevLine) (clock : ℕ → ℚ) (statics : Statics) :
    RecordsLines lines (getNetworkPerformance statics (devInput buffer lines clock)).2 ↔
      ∀ line ∈ lines.take 16, line.Fits := by
  have hrows := shown_getNetworkPerformance hbuffer lines clock statics
  have hmap := congrArg (List.map fun row : CString × NetworkGauges ↦
    (row.1, row.2.errorsPerSec.toNat, row.2.dropsPerSec.map UInt64.toNat)) hrows
  rw [List.map_map, List.map_map] at hmap
  rw [RecordsLines]
  have hleft : ((getNetworkPerformance statics (devInput buffer lines clock)).2.map fun row ↦
      (row.shown, row.gauges.errorsPerSec.toNat, row.gauges.dropsPerSec.map UInt64.toNat)) = _ :=
    hmap
  rw [hleft, List.map_inj_left]
  refine forall₂_congr fun line _ ↦ ?_
  simp only [Function.comp_apply, Prod.mk.injEq, Option.map_some, Option.some.injEq,
    UInt64.toNat_add]
  rw [line.shown_eq_iff, DevLine.Fits, Nat.mod_eq_iff_lt (by decide), Nat.mod_eq_iff_lt (by decide)]

/-- The loopback interface. -/
def loopback : DevLine where
  name := ofText "lo"
  rx := fun _ ↦ 1
  tx := fun _ ↦ 1
  length_pos := by decide
  length_le := by decide
  clean := by decide +kernel
  active := by decide

theorem recordsLines_loopback :
    RecordsLines [loopback] (getNetworkPerformance initialStatics
        (devInput (List.replicate 8192 0) [loopback] fun _ ↦ 1)).2 ↔
      ∀ line ∈ [loopback].take 16, line.Fits :=
  recordsLines_iff (by rw [List.length_replicate]) [loopback] (fun _ ↦ 1) initialStatics

/-- Its name is recorded as the empty string. -/
theorem loopback_not_recordsLines :
    ¬RecordsLines [loopback] (getNetworkPerformance initialStatics
      (devInput (List.replicate 8192 0) [loopback] fun _ ↦ 1)).2 := by
  intro hrecords
  have hbuffer : 8192 ≤ (List.replicate 8192 (0 : UInt8)).length := by rw [List.length_replicate]
  have hrows := shown_getNetworkPerformance hbuffer [loopback] (fun _ ↦ 1) initialStatics
  have hshown := congrArg (List.map Prod.fst) hrows
  have hnames := congrArg (List.map Prod.fst) hrecords
  rw [List.map_map, List.map_map] at hshown hnames
  have hsame := hshown.symm.trans hnames
  revert hsame
  decide +kernel

end HiFetch.Performance
