import HiFetch.Library.Decimal
import HiFetch.Library.Words
import HiFetch.Monitor.ProcFile
import HiFetch.Network.Commands

/-!
# Hops of a route

`run_traceroute` takes the lines of `traceroute -n` apart with `strtok`.  The number of a probe and
its unit are two tokens, but the loop over the probes takes one token for each of them, and looks
for the number in the token with the unit.  So it is right about the probes that got no reply only.
-/

namespace HiFetch.Network

open CString Monitor Scanf Words

def maxTracerouteHops : ℕ := 30

/-- The fields that are assigned; `rtt_ms` is a list. -/
structure TracerouteHop where
  hop : ℕ
  address : CString
  rttMs : List ℚ
  status : ℤ
deriving DecidableEq

/-- The delimiters of `strtok`. -/
def isDelimiter (byte : UInt8) : Bool := byte == 32 || byte == 9

/-- The tokens that one `strtok` after the other finds. -/
def lineTokens (line : CString) : List CString := (words isDelimiter line.bytes).map ofBuffer

/-- The time of a probe, in the token that is taken for it. -/
def rttOf : Option CString → ℚ
  | some token => if occurs token (ofText "ms") then token.atof else -1
  | none => -1

def hopOf (hop : ℕ) (line : CString) : Option TracerouteHop :=
  match lineTokens line with
  | token :: address :: rest =>
      if 0 < token.atoi then
        some
          { hop := hop + 1
            address := address
            rttMs := (List.range 3).map fun i ↦ rttOf rest[i]?
            status := 1 }
      else none
  | _ => none

def traceLoop : List TracerouteHop → List CString → List TracerouteHop
  | hops, [] => hops
  | hops, line :: rest =>
      if hops.length < maxTracerouteHops then
        if occurs line (ofText "traceroute to") then traceLoop hops rest
        else traceLoop (hops ++ (hopOf hops.length line).toList) rest
      else hops

/-- `run_traceroute`, for what `popen` gives for a command. -/
def runTraceroute (popen : CString → Option (List UInt8)) (destination : CString) :
    List TracerouteHop :=
  let cmd := snprintf 512 (ofText "traceroute -n -m 15 ") destination (ofText " 2>/dev/null")
  match popen cmd with
  | some output => traceLoop [] (readLines 511 output)
  | none => []

/-! ## The output -/

/-- A probe: no reply, or a time. -/
inductive Probe where
  | lost
  | reply (time : Decimal) (nonnegative : time.negative = false)

def Probe.bytes : Probe → List UInt8
  | .lost => (ofText "  *").bytes
  | .reply time _ => (ofText "  ").bytes ++ (time.bytes ++ (ofText " ms").bytes)

/-- The time of a probe, or -1. -/
def Probe.time : Probe → ℚ
  | .lost => -1
  | .reply time _ => time.value

/-- A hop with three probes.  Its number fits into an `int` and its address into its array. -/
structure HopLine where
  hop : ℕ
  hop_pos : 0 < hop
  hop_lt : hop < 2 ^ 31
  address : CString
  address_pos : 0 < address.length
  address_le : address.length ≤ 45
  address_clean : 9 ∉ address.bytes ∧ 10 ∉ address.bytes ∧ 32 ∉ address.bytes
  probes : List Probe
  length_probes : probes.length = 3

/-- What stands in front of the address. -/
def HopLine.front (line : HopLine) : List UInt8 := 32 :: ((ofInt line.hop).bytes ++ [32, 32])

/-- ` <h>  <address>  r1 ms  r2 ms  r3 ms` -/
def HopLine.bytes (line : HopLine) : List UInt8 :=
  line.front ++ (line.address.bytes ++ line.probes.flatMap Probe.bytes)

structure TraceHeader where
  text : CString
  clean : 10 ∉ text.bytes
  length_lt : text.length < 511
  names : occurs text (ofText "traceroute to")

/-- What `traceroute -n` prints. -/
def traceOutput (header : TraceHeader) (lines : List HopLine) : List UInt8 :=
  textOf (header.text.bytes :: lines.map HopLine.bytes)

/-! ## The law -/

/-- Each line leads to a hop with its address and the times of its probes, as long as there is
room. -/
def RecordsProbes (lines : List HopLine) (hops : List TracerouteHop) : Prop :=
  hops.map (fun hop ↦ (hop.address, hop.rttMs)) =
    (lines.take maxTracerouteHops).map fun line ↦ (line.address, line.probes.map Probe.time)

/-- No probe got a reply. -/
def HopLine.Lost (line : HopLine) : Prop := ∀ probe ∈ line.probes, probe = .lost

/-! ## One line -/

theorem isDelimiter_blanks : ∀ byte ∈ [(32 : UInt8), 32], isDelimiter byte :=
  List.forall_mem_cons.2 ⟨rfl, List.forall_mem_singleton.2 rfl⟩

section Line

variable (line : HopLine) {rest : List UInt8}

theorem HopLine.zero_notMem_front : 0 ∉ line.front := by
  simp [HopLine.front, (ofInt line.hop).noNul]

/-- There is no `e` in front of the address. -/
theorem HopLine.letter_notMem_front : 101 ∉ line.front := by
  intro hmem
  simp only [HopLine.front, List.mem_cons, List.mem_append, List.not_mem_nil, or_false] at hmem
  rcases hmem with hblank | hdigit | hblank | hblank
  · exact absurd hblank (by decide)
  · rcases mem_bytes_ofInt hdigit with hsign | hdigit
    · exact absurd hsign (by decide)
    · exact absurd hdigit (by decide)
  · exact absurd hblank (by decide)
  · exact absurd hblank (by decide)

theorem HopLine.atoi_hop : 0 < (ofInt line.hop).atoi := by
  have hpos := line.hop_pos
  have hlt := line.hop_lt
  rw [atoi, strtol_ofInt, Int.bmod_def]
  split_ifs <;> omega

/-- The number, the address and the words of the rest. -/
theorem HopLine.lineTokens_eq (hnul : 0 ∉ rest) (hrest : ∀ next ∈ rest.head?, isDelimiter next) :
    lineTokens (ofBuffer (line.front ++ (line.address.bytes ++ rest))) =
      ofInt line.hop :: line.address :: (words isDelimiter rest).map ofBuffer := by
  have hclean : 0 ∉ line.front ++ (line.address.bytes ++ rest) := by
    simp only [List.mem_append, not_or]
    exact ⟨line.zero_notMem_front, line.address.noNul, hnul⟩
  have hdigits : ∀ byte ∈ (ofInt line.hop).bytes, isDelimiter byte = false := by
    intro byte hmem
    have hle := le_of_mem_bytes_ofInt hmem
    by_contra hbyte
    simp only [isDelimiter, Bool.not_eq_false, Bool.or_eq_true, beq_iff_eq] at hbyte
    rcases hbyte with rfl | rfl <;> exact absurd hle (by decide)
  have haddress : ∀ byte ∈ line.address.bytes, isDelimiter byte = false := by
    intro byte hmem
    obtain ⟨htab, -, hblank⟩ := line.address_clean
    simp only [isDelimiter, Bool.or_eq_false_iff, beq_eq_false_iff_ne]
    exact ⟨fun h ↦ hblank (h ▸ hmem), fun h ↦ htab (h ▸ hmem)⟩
  have hone : ∀ byte ∈ [(32 : UInt8)], isDelimiter byte := List.forall_mem_singleton.2 rfl
  have hnext : ∀ next ∈ ([32, 32] ++ (line.address.bytes ++ rest)).head?, isDelimiter next := by
    rintro _ ⟨⟩
    decide
  have hhop : (ofInt line.hop).bytes ≠ [] := by
    rw [bytes_ofInt, if_neg (by omega)]
    exact magnitude_ne_nil _
  have hwords : words isDelimiter (line.front ++ (line.address.bytes ++ rest)) =
      (ofInt line.hop).bytes :: line.address.bytes :: words isDelimiter rest := by
    calc
      words isDelimiter (line.front ++ (line.address.bytes ++ rest)) =
          words isDelimiter ([32] ++ ((ofInt line.hop).bytes ++
            ([32, 32] ++ (line.address.bytes ++ rest)))) := by
        simp only [HopLine.front, List.cons_append, List.append_assoc, List.nil_append]
      _ = (ofInt line.hop).bytes :: words isDelimiter (line.address.bytes ++ rest) := by
        rw [words_separators hone, words_append hhop hdigits hnext,
          words_separators isDelimiter_blanks]
      _ = _ := by
        rw [words_append (List.ne_nil_of_length_pos line.address_pos) haddress hrest]
  rw [lineTokens, bytes_ofBuffer_of_notMem hclean, hwords, List.map_cons, List.map_cons,
    ofBuffer_bytes, ofBuffer_bytes]

/-- The hop in a line. -/
theorem HopLine.hopOf_eq (hop : ℕ) (hnul : 0 ∉ rest)
    (hrest : ∀ next ∈ rest.head?, isDelimiter next) :
    hopOf hop (ofBuffer (line.front ++ (line.address.bytes ++ rest))) =
      some
        { hop := hop + 1
          address := line.address
          rttMs := (List.range 3).map fun i ↦ rttOf ((words isDelimiter rest).map ofBuffer)[i]?
          status := 1 } := by
  unfold hopOf
  rw [line.lineTokens_eq hnul hrest]
  dsimp only
  rw [if_pos line.atoi_hop]

/-- The line is not taken for the header: of the header's text, an `e` would stand in the address or
behind it, a `t` in the address or in front of it, and a blank between them. -/
theorem HopLine.not_occurs (hnul : 0 ∉ rest) (hrest : 116 ∉ rest) :
    ¬occurs (ofBuffer (line.front ++ (line.address.bytes ++ rest))) (ofText "traceroute to") := by
  have hclean : 0 ∉ line.front ++ (line.address.bytes ++ rest) := by
    simp only [List.mem_append, not_or]
    exact ⟨line.zero_notMem_front, line.address.noNul, hnul⟩
  rw [occurs_iff_isInfix, bytes_ofBuffer_of_notMem hclean]
  rintro ⟨before, after, heq⟩
  have hat : ∀ i < 13, (line.front ++ (line.address.bytes ++ rest))[before.length + i]? =
      (ofText "traceroute to").bytes[i]? := by
    intro i hi
    rw [← heq, List.append_assoc, List.getElem?_append_right (Nat.le_add_right _ _),
      Nat.add_sub_cancel_left, List.getElem?_append_left hi]
  have hletter := hat 9 (by decide)
  have hblank := hat 10 (by decide)
  have hlast := hat 11 (by decide)
  have hfront : line.front.length ≤ before.length + 9 := by
    by_contra hinside
    rw [List.getElem?_append_left (by omega)] at hletter
    exact line.letter_notMem_front (List.mem_of_getElem? hletter)
  have haddress : before.length + 11 - line.front.length < line.address.bytes.length := by
    by_contra hinside
    rw [List.getElem?_append_right (by omega), List.getElem?_append_right (by omega)] at hlast
    exact hrest (List.mem_of_getElem? hlast)
  rw [List.getElem?_append_right (by omega), List.getElem?_append_left (by omega)] at hblank
  exact line.address_clean.2.2 (List.mem_of_getElem? hblank)

end Line

/-! ## The probes -/

/-- The bytes of a probe: blanks, a star, a number or a unit. -/
theorem Probe.mem_bytes {probe : Probe} {byte : UInt8} (h : byte ∈ probe.bytes) :
    byte ≠ 0 ∧ byte ≠ 10 ∧ byte ≠ 116 := by
  have hfixed : ∀ byte ∈ (ofText "  * ms").bytes, byte ≠ 0 ∧ byte ≠ 10 ∧ byte ≠ 116 := by
    decide +kernel
  cases probe with
  | lost => exact hfixed byte (List.mem_of_mem_take (i := 3) h)
  | reply time hnonnegative =>
    rcases List.mem_append.1 h with hblank | htime
    · exact hfixed byte (List.mem_of_mem_take (i := 2) hblank)
    · rcases List.mem_append.1 htime with hnumber | hunit
      · have hrange := time.range_of_mem_bytes hnumber
        refine ⟨?_, ?_, ?_⟩ <;> (rintro rfl; exact absurd hrange (by decide))
      · exact hfixed byte (List.mem_of_mem_drop (i := 3) hunit)

/-- A probe without a reply. -/
theorem exists_reply {probes : List Probe} (h : ¬∀ probe ∈ probes, probe = .lost) :
    ∃ count time hnonnegative others,
      probes = List.replicate count .lost ++ .reply time hnonnegative :: others := by
  induction probes with
  | nil => exact absurd (fun _ hmem ↦ nomatch hmem) h
  | cons probe probes ih =>
    cases probe with
    | reply time hnonnegative => exact ⟨0, time, hnonnegative, probes, rfl⟩
    | lost =>
      have hprobes : ¬∀ probe ∈ probes, probe = .lost := fun hall ↦
        h (List.forall_mem_cons.2 ⟨rfl, hall⟩)
      obtain ⟨count, time, hnonnegative, others, rfl⟩ := ih hprobes
      exact ⟨count + 1, time, hnonnegative, others, rfl⟩

theorem words_lost (count : ℕ) {rest : List UInt8} (hrest : ∀ next ∈ rest.head?, isDelimiter next) :
    words isDelimiter ((List.replicate count Probe.lost).flatMap Probe.bytes ++ rest) =
      List.replicate count [42] ++ words isDelimiter rest := by
  have hstar : ∀ byte ∈ [(42 : UInt8)], isDelimiter byte = false := List.forall_mem_singleton.2 rfl
  induction count with
  | zero => rfl
  | succ count ih =>
    have hnext : ∀ next ∈ ((List.replicate count Probe.lost).flatMap Probe.bytes ++ rest).head?,
        isDelimiter next := by
      cases count with
      | zero => exact hrest
      | succ count =>
        rintro _ ⟨⟩
        decide
    have hfirst := words_separators isDelimiter_blanks
      ([42] ++ ((List.replicate count Probe.lost).flatMap Probe.bytes ++ rest))
    rw [words_append (List.cons_ne_nil _ _) hstar hnext, ih] at hfirst
    rw [List.replicate_succ, List.replicate_succ, List.flatMap_cons, List.append_assoc]
    exact hfirst

/-- What is delivered of a time and of what follows it: a part of the time, and nothing or a
blank. -/
theorem exists_fgets_time {room : ℕ} (hroom : 0 < room) (time : Decimal) (tail : List UInt8) :
    ∃ word rest, fgets room (time.bytes ++ 32 :: tail) = word ++ rest ∧ word ≠ [] ∧
      word <+: time.bytes ∧ ∀ next ∈ rest.head?, isDelimiter next := by
  have hnewline : 10 ∉ time.bytes := fun hmem ↦
    absurd (time.range_of_mem_bytes hmem) (by decide)
  rcases Nat.lt_or_ge room time.bytes.length with hcut | hwhole
  · have hpart : 10 ∉ time.bytes.take room := fun hmem ↦ hnewline (List.mem_of_mem_take hmem)
    have hlength : (time.bytes.take room).length = room := List.length_take_of_le hcut.le
    have hdelivered := fgets_append hpart hlength.le (time.bytes.drop room ++ 32 :: tail)
    rw [← List.append_assoc, List.take_append_drop, hlength, Nat.sub_self] at hdelivered
    refine ⟨time.bytes.take room, [], hdelivered, ?_, List.take_prefix _ _, ?_⟩
    · exact List.ne_nil_of_length_pos (hroom.trans_eq hlength.symm)
    · exact fun next hnext ↦ nomatch hnext
  · have hdelivered := fgets_append hnewline hwhole (32 :: tail)
    refine ⟨time.bytes, _, hdelivered, time.bytes_ne_nil, List.prefix_refl _, ?_⟩
    intro next hnext
    cases hleft : room - time.bytes.length with
    | zero =>
      rw [hleft, fgets] at hnext
      cases hnext
    | succ left =>
      rw [hleft, head_fgets (Nat.succ_pos left)] at hnext
      obtain rfl : 32 = next := Option.some.inj hnext
      decide

/-- No time is found in a part of a time. -/
theorem rttOf_word {time : Decimal} {word : List UInt8} (h : word <+: time.bytes) :
    rttOf (some (ofBuffer word)) = -1 := by
  have hunit : ¬occurs (ofBuffer word) (ofText "ms") := by
    rw [occurs_iff_isInfix]
    intro hinside
    have hletter : 109 ∈ word := (List.takeWhile_prefix _).subset
      (hinside.subset (by decide : 109 ∈ (ofText "ms").bytes))
    exact absurd (time.range_of_mem_bytes (h.subset hletter)) (by decide)
  exact if_neg hunit

/-! ## Lines that are right and lines that are wrong -/

namespace HopLine

variable {line : HopLine}

theorem newline_notMem (line : HopLine) : 10 ∉ line.bytes := by
  intro hmem
  rcases List.mem_append.1 hmem with hfront | hback
  · simp only [front, List.mem_cons, List.mem_append, List.not_mem_nil, or_false] at hfront
    rcases hfront with hblank | hdigit | hblank | hblank
    · exact absurd hblank (by decide)
    · exact absurd (le_of_mem_bytes_ofInt hdigit) (by decide)
    · exact absurd hblank (by decide)
    · exact absurd hblank (by decide)
  · rcases List.mem_append.1 hback with haddress | hprobes
    · exact line.address_clean.2.1 haddress
    · obtain ⟨probe, -, hprobe⟩ := List.mem_flatMap.1 hprobes
      exact (Probe.mem_bytes hprobe).2.1 rfl

theorem length_front_le (line : HopLine) : line.front.length ≤ 14 := by
  have hlt := line.hop_lt
  have hdigits : (ofInt line.hop).bytes.length ≤ 11 :=
    length_bytes_ofInt_le (by decide) (by omega)
  simp only [front, List.length_cons, List.length_append, List.length_nil]
  omega

theorem probes_eq (h : line.Lost) : line.probes = List.replicate 3 .lost :=
  List.eq_replicate_iff.2 ⟨line.length_probes, h⟩

/-- A line without replies fits into the buffer. -/
theorem length_lt (h : line.Lost) : line.bytes.length < 511 := by
  have hfront := line.length_front_le
  have haddress : line.address.bytes.length ≤ 45 := line.address_le
  have hprobes : (line.probes.flatMap Probe.bytes).length = 9 := by
    rw [probes_eq h]
    rfl
  rw [bytes, List.length_append, List.length_append, hprobes]
  omega

theorem hopOf_lost (h : line.Lost) (hop : ℕ) :
    hopOf hop (ofBuffer (line.bytes ++ [10])) =
      some ⟨hop + 1, line.address, line.probes.map Probe.time, 1⟩ := by
  have hsplit : line.bytes ++ [10] = line.front ++ (line.address.bytes ++
      ((List.replicate 3 Probe.lost).flatMap Probe.bytes ++ [10])) := by
    rw [bytes, probes_eq h, List.append_assoc, List.append_assoc]
  rw [hsplit, line.hopOf_eq hop (by decide) (by rintro _ ⟨⟩; decide), probes_eq h]
  rfl

/-- What is delivered of a line is all in front of the probes, and something of these. -/
theorem exists_delivered (line : HopLine) (rest : List UInt8) :
    ∃ room, 452 ≤ room ∧ fgets 511 (line.bytes ++ 10 :: rest) = line.front ++
      (line.address.bytes ++ fgets room (line.probes.flatMap Probe.bytes ++ 10 :: rest)) := by
  have hfront := line.length_front_le
  have haddress : line.address.bytes.length ≤ 45 := line.address_le
  have hlength : (line.front ++ line.address.bytes).length ≤ 59 := by
    rw [List.length_append]
    omega
  have hnewline : 10 ∉ line.front ++ line.address.bytes := fun hmem ↦
    line.newline_notMem (by
      rw [bytes, ← List.append_assoc]
      exact List.mem_append_left _ hmem)
  refine ⟨511 - (line.front ++ line.address.bytes).length, by omega, ?_⟩
  calc
    fgets 511 (line.bytes ++ 10 :: rest) =
        fgets 511 ((line.front ++ line.address.bytes) ++
          (line.probes.flatMap Probe.bytes ++ 10 :: rest)) := by
      simp only [bytes, List.append_assoc]
    _ = _ := by
      rw [fgets_append hnewline (by omega), List.append_assoc]

theorem delivered_clean (line : HopLine) (room : ℕ) (rest : List UInt8) :
    0 ∉ fgets room (line.probes.flatMap Probe.bytes ++ 10 :: rest) ∧
      116 ∉ fgets room (line.probes.flatMap Probe.bytes ++ 10 :: rest) := by
  have hbytes : ∀ byte ∈ fgets room (line.probes.flatMap Probe.bytes ++ 10 :: rest),
      byte ≠ 0 ∧ byte ≠ 116 := by
    intro byte hmem
    rcases mem_fgets hmem with hprobes | rfl
    · obtain ⟨probe, -, hprobe⟩ := List.mem_flatMap.1 hprobes
      exact ⟨(Probe.mem_bytes hprobe).1, (Probe.mem_bytes hprobe).2.2⟩
    · decide
  exact ⟨fun hmem ↦ (hbytes 0 hmem).1 rfl, fun hmem ↦ (hbytes 116 hmem).2 rfl⟩

theorem not_occurs_delivered (line : HopLine) (rest : List UInt8) :
    ¬occurs (ofBuffer (fgets 511 (line.bytes ++ 10 :: rest))) (ofText "traceroute to") := by
  obtain ⟨room, -, hline⟩ := line.exists_delivered rest
  obtain ⟨hnul, hletter⟩ := line.delivered_clean room rest
  rw [hline]
  exact line.not_occurs hnul hletter

/-- The first probe has a blank in front of it. -/
theorem delivered_head (line : HopLine) {room : ℕ} (hroom : 0 < room) (rest : List UInt8) :
    ∀ next ∈ (fgets room (line.probes.flatMap Probe.bytes ++ 10 :: rest)).head?,
      isDelimiter next := by
  rw [head_fgets hroom]
  have hlength := line.length_probes
  cases hprobes : line.probes with
  | nil =>
    rw [hprobes] at hlength
    cases hlength
  | cons probe probes => cases probe <;> (rintro _ ⟨⟩; decide)

/-- The words up to the first time. -/
theorem words_delivered {count room : ℕ} (hcount : count < 3) (hroom : 9 ≤ room) (time : Decimal)
    (hnonnegative : time.negative = false) (others : List Probe) (rest : List UInt8) :
    ∃ word more, words isDelimiter (fgets room ((List.replicate count Probe.lost ++
          .reply time hnonnegative :: others).flatMap Probe.bytes ++ 10 :: rest)) =
        List.replicate count [42] ++ word :: more ∧ word <+: time.bytes := by
  have hstars : ((List.replicate count Probe.lost).flatMap Probe.bytes ++ [32, 32]).length =
      3 * count + 2 := by
    rw [List.length_append, List.length_flatMap, List.map_replicate, List.sum_replicate]
    exact congrArg (· + 2) (Nat.mul_comm count 3)
  have hnewline : 10 ∉ (List.replicate count Probe.lost).flatMap Probe.bytes ++ [32, 32] := by
    intro hmem
    rcases List.mem_append.1 hmem with hstar | hblank
    · obtain ⟨probe, -, hprobe⟩ := List.mem_flatMap.1 hstar
      exact (Probe.mem_bytes hprobe).2.1 rfl
    · exact absurd hblank (by decide)
  have hleft : 0 < room - (3 * count + 2) := by omega
  obtain ⟨word, more, hdelivered, hne, hword, hmore⟩ := exists_fgets_time hleft time
    (109 :: 115 :: (others.flatMap Probe.bytes ++ 10 :: rest))
  have hletters : ∀ byte ∈ word, isDelimiter byte = false := by
    intro byte hmem
    have hrange := time.range_of_mem_bytes (hword.subset hmem)
    by_contra hbyte
    simp only [isDelimiter, Bool.not_eq_false, Bool.or_eq_true, beq_iff_eq] at hbyte
    rcases hbyte with rfl | rfl <;> exact absurd hrange (by decide)
  refine ⟨word, words isDelimiter more, ?_, hword⟩
  calc
    _ = words isDelimiter (fgets room (((List.replicate count Probe.lost).flatMap Probe.bytes ++
          [32, 32]) ++ (time.bytes ++ 32 :: 109 :: 115 ::
            (others.flatMap Probe.bytes ++ 10 :: rest)))) := by
      rw [List.flatMap_append, List.flatMap_cons]
      simp only [List.append_assoc]
      congr 3
      show _ ++ (_ ++ _) ++ _ = _
      simp only [List.append_assoc]
      rfl
    _ = words isDelimiter ((List.replicate count Probe.lost).flatMap Probe.bytes ++
          ([32, 32] ++ (word ++ more))) := by
      rw [fgets_append hnewline (by omega), hstars, hdelivered, List.append_assoc]
    _ = List.replicate count [42] ++ words isDelimiter ([32, 32] ++ (word ++ more)) :=
      words_lost count (by rintro _ ⟨⟩; decide)
    _ = _ := by rw [words_separators isDelimiter_blanks, words_append hne hletters hmore]

/-- A line with a reply is wrong. -/
theorem exists_wrong (h : ¬line.Lost) (hop : ℕ) (rest : List UInt8) :
    ∃ wrong, hopOf hop (ofBuffer (fgets 511 (line.bytes ++ 10 :: rest))) = some wrong ∧
      wrong.rttMs ≠ line.probes.map Probe.time := by
  obtain ⟨count, time, hnonnegative, others, hprobes⟩ := exists_reply h
  have hcount : count < 3 := by
    have hlength := line.length_probes
    rw [hprobes, List.length_append, List.length_replicate, List.length_cons] at hlength
    omega
  obtain ⟨room, hroom, hline⟩ := line.exists_delivered rest
  obtain ⟨hnul, -⟩ := line.delivered_clean room rest
  obtain ⟨word, more, hwords, hword⟩ :=
    words_delivered hcount (by omega : 9 ≤ room) time hnonnegative others rest
  rw [← hprobes] at hwords
  refine ⟨_, by rw [hline, line.hopOf_eq hop hnul (line.delivered_head (by omega) rest)], ?_⟩
  intro heq
  -- the time of the first probe with a reply is -1
  have hplace := congrArg (·[count]?) heq
  have htoken : ((List.replicate count [42] ++ word :: more).map ofBuffer)[count]? =
      some (ofBuffer word) := by
    have hlength : (List.replicate count [(42 : UInt8)]).length ≤ count :=
      List.length_replicate.le
    rw [List.getElem?_map, List.getElem?_append_right hlength, List.length_replicate, Nat.sub_self]
    rfl
  dsimp only at hplace
  rw [hwords, List.getElem?_map, List.getElem?_range hcount, Option.map_some, htoken,
    rttOf_word hword, hprobes] at hplace
  have htime : (((List.replicate count Probe.lost) ++ .reply time hnonnegative :: others).map
      Probe.time)[count]? = some time.value := by
    have hlength : (List.replicate count Probe.lost).length ≤ count := List.length_replicate.le
    rw [List.getElem?_map, List.getElem?_append_right hlength, List.length_replicate, Nat.sub_self]
    rfl
  have hvalue := Option.some.inj (hplace.trans htime)
  have hnonneg := Decimal.value_nonneg hnonnegative
  rw [← hvalue] at hnonneg
  exact absurd hnonneg (by decide)

end HopLine

/-! ## The loop -/

/-- What is there stays there. -/
theorem exists_traceLoop (hops : List TracerouteHop) (lines : List CString) :
    ∃ more, traceLoop hops lines = hops ++ more := by
  induction lines generalizing hops with
  | nil => exact ⟨[], by rw [traceLoop, List.append_nil]⟩
  | cons line rest ih =>
    unfold traceLoop
    split_ifs
    · exact ih hops
    · obtain ⟨more, hmore⟩ := ih (hops ++ (hopOf hops.length line).toList)
      exact ⟨_, by rw [hmore, List.append_assoc]⟩
    · exact ⟨[], (List.append_nil hops).symm⟩

theorem traceLoop_full {hops : List TracerouteHop} (h : hops.length = maxTracerouteHops)
    (lines : List CString) : traceLoop hops lines = hops := by
  cases lines with
  | nil => rfl
  | cons line rest => rw [traceLoop, if_neg (by omega)]

theorem traceLoop_cons {hops : List TracerouteHop} (h : hops.length < maxTracerouteHops)
    {line : CString} {hop : TracerouteHop} (hheader : ¬occurs line (ofText "traceroute to"))
    (hhop : hopOf hops.length line = some hop) (rest : List CString) :
    traceLoop hops (line :: rest) = traceLoop (hops ++ [hop]) rest := by
  rw [traceLoop, if_pos h, if_neg hheader, hhop, Option.toList_some]

/-- What the law is about. -/
def TracerouteHop.summary (hop : TracerouteHop) : CString × List ℚ := (hop.address, hop.rttMs)

def HopLine.expected (line : HopLine) : CString × List ℚ :=
  (line.address, line.probes.map Probe.time)

/-- A line without a reply gives the hop that is expected. -/
theorem traceLoop_lost {hops : List TracerouteHop} (hfree : hops.length < maxTracerouteHops)
    {line : HopLine} (hlost : line.Lost) (rest : List HopLine) :
    traceLoop hops (readLines 511 (textOf ((line :: rest).map HopLine.bytes))) =
      traceLoop (hops ++ [⟨hops.length + 1, line.address, line.probes.map Probe.time, 1⟩])
        (readLines 511 (textOf (rest.map HopLine.bytes))) := by
  have hline := fgets_line line.newline_notMem (HopLine.length_lt hlost)
    (textOf (rest.map HopLine.bytes))
  have hheader := line.not_occurs_delivered (textOf (rest.map HopLine.bytes))
  rw [hline] at hheader
  rw [List.map_cons, textOf_cons, readLines_line line.newline_notMem (HopLine.length_lt hlost),
    traceLoop_cons hfree hheader (HopLine.hopOf_lost hlost hops.length)]

/-- A line with a reply gives a wrong hop, and what follows does not change it. -/
theorem exists_traceLoop_wrong {hops : List TracerouteHop}
    (hfree : hops.length < maxTracerouteHops) {line : HopLine} (hlost : ¬line.Lost)
    (rest : List HopLine) :
    ∃ wrong more, wrong.rttMs ≠ line.probes.map Probe.time ∧
      traceLoop hops (readLines 511 (textOf ((line :: rest).map HopLine.bytes))) =
        hops ++ wrong :: more := by
  have hne : line.bytes ++ 10 :: textOf (rest.map HopLine.bytes) ≠ [] :=
    List.append_ne_nil_of_right_ne_nil _ (List.cons_ne_nil _ _)
  obtain ⟨wrong, hhop, hwrong⟩ := HopLine.exists_wrong hlost hops.length
    (textOf (rest.map HopLine.bytes))
  have hheader := line.not_occurs_delivered (textOf (rest.map HopLine.bytes))
  rw [List.map_cons, textOf_cons, readLines_eq_cons (by decide) hne,
    traceLoop_cons hfree hheader hhop]
  obtain ⟨more, hmore⟩ := exists_traceLoop (hops ++ [wrong]) _
  exact ⟨wrong, more, hwrong, by rw [hmore, ← List.append_cons]⟩

/-- The loop is right about the lines for which there is room exactly if none of them has a reply: a
wrong hop stays in its place, whatever follows. -/
theorem traceLoop_iff {hops : List TracerouteHop} (hroom : hops.length ≤ maxTracerouteHops)
    (lines : List HopLine) :
    (traceLoop hops (readLines 511 (textOf (lines.map HopLine.bytes)))).map
          TracerouteHop.summary =
        hops.map TracerouteHop.summary ++
          (lines.take (maxTracerouteHops - hops.length)).map HopLine.expected ↔
      ∀ line ∈ lines.take (maxTracerouteHops - hops.length), line.Lost := by
  induction lines generalizing hops with
  | nil =>
    rw [List.take_nil, List.map_nil, List.map_nil, List.append_nil]
    exact iff_of_true rfl fun line hmem ↦ nomatch hmem
  | cons line rest ih =>
    rcases Nat.eq_or_lt_of_le hroom with hfull | hfree
    · rw [traceLoop_full hfull, hfull, Nat.sub_self, List.take_zero, List.map_nil, List.append_nil]
      exact iff_of_true rfl fun line hmem ↦ nomatch hmem
    obtain ⟨room, hleft⟩ := Nat.exists_eq_add_one_of_ne_zero (Nat.sub_ne_zero_of_lt hfree)
    rw [hleft, List.take_succ_cons, List.forall_mem_cons, @List.map_cons _ _ HopLine.expected]
    by_cases hlost : line.Lost
    · have hlength (hop : TracerouteHop) : (hops ++ [hop]).length = hops.length + 1 := by
        rw [List.length_append, List.length_singleton]
      rw [traceLoop_lost hfree hlost]
      generalize hright : TracerouteHop.mk (hops.length + 1) line.address
        (line.probes.map Probe.time) 1 = right
      have hsummary : right.summary = line.expected := by
        rw [← hright]
        rfl
      have hnext : (hops ++ [right]).length ≤ maxTracerouteHops := by
        rw [hlength]
        exact hfree
      have hroomNext : maxTracerouteHops - (hops ++ [right]).length = room := by
        rw [hlength]
        omega
      have hrest := ih hnext
      rw [hroomNext, List.map_append, List.map_singleton, hsummary, List.append_assoc,
        List.singleton_append] at hrest
      rw [hrest]
      exact (and_iff_right hlost).symm
    · refine iff_of_false (fun heq ↦ ?_) fun h ↦ hlost h.1
      obtain ⟨wrong, more, hwrong, hmore⟩ := exists_traceLoop_wrong hfree hlost rest
      rw [hmore, List.map_append, List.map_cons, List.append_cancel_left_eq] at heq
      exact hwrong (congrArg Prod.snd (List.cons.inj heq).1)

/-- The header is skipped. -/
theorem runTraceroute_traceOutput {popen : CString → Option (List UInt8)} {destination : CString}
    {header : TraceHeader} {lines : List HopLine}
    (hrun : popen (snprintf 512 (ofText "traceroute -n -m 15 ") destination
      (ofText " 2>/dev/null")) = some (traceOutput header lines)) :
    runTraceroute popen destination =
      traceLoop [] (readLines 511 (textOf (lines.map HopLine.bytes))) := by
  have hnames : occurs (ofBuffer (header.text.bytes ++ [10])) (ofText "traceroute to") := by
    have hnul : 0 ∉ header.text.bytes ++ [10] := by simpa using header.text.noNul
    rw [occurs_iff_isInfix, bytes_ofBuffer_of_notMem hnul]
    exact (occurs_iff_isInfix.1 header.names).trans (List.prefix_append _ _).isInfix
  have hroom : ([] : List TracerouteHop).length < maxTracerouteHops := by decide
  unfold runTraceroute
  dsimp only
  rw [hrun]
  dsimp only
  rw [traceOutput, textOf_cons, readLines_line header.clean header.length_lt, traceLoop,
    if_pos hroom, if_pos hnames]

/-- The addresses and the times are recorded exactly if no probe of the lines for which there is
room has got a reply. -/
theorem recordsProbes_iff {popen : CString → Option (List UInt8)} {destination : CString}
    {header : TraceHeader} {lines : List HopLine}
    (hrun : popen (snprintf 512 (ofText "traceroute -n -m 15 ") destination
      (ofText " 2>/dev/null")) = some (traceOutput header lines)) :
    RecordsProbes lines (runTraceroute popen destination) ↔
      ∀ line ∈ lines.take maxTracerouteHops, line.Lost := by
  have hempty : ([] : List TracerouteHop).length ≤ maxTracerouteHops := Nat.zero_le _
  rw [runTraceroute_traceOutput hrun]
  exact traceLoop_iff hempty lines

/-- The header for 8.8.8.8. -/
def dnsHeader : TraceHeader where
  text := ofText "traceroute to 8.8.8.8 (8.8.8.8), 15 hops max, 60 byte packets"
  clean := by decide +kernel
  length_lt := by decide +kernel
  names := by decide +kernel

/-- `1.5 ms` -/
def quickProbe : Probe :=
  .reply ⟨false, [49], [53], by decide, by decide +kernel, by decide +kernel⟩ rfl

/-- A router that has answered all probes. -/
def routerLine : HopLine where
  hop := 1
  hop_pos := by decide
  hop_lt := by decide
  address := ofText "192.168.1.1"
  address_pos := by decide
  address_le := by decide
  address_clean := by decide +kernel
  probes := [quickProbe, quickProbe, quickProbe]
  length_probes := rfl

theorem recordsProbes_router :
    RecordsProbes [routerLine] (runTraceroute (fun _ ↦ some (traceOutput dnsHeader [routerLine]))
        (ofText "8.8.8.8")) ↔
      ∀ line ∈ [routerLine].take maxTracerouteHops, line.Lost :=
  recordsProbes_iff rfl

/-- The times of the router are not recorded. -/
theorem router_not_recordsProbes :
    ¬RecordsProbes [routerLine] (runTraceroute
      (fun _ ↦ some (traceOutput dnsHeader [routerLine])) (ofText "8.8.8.8")) := by
  intro h
  have hrun : (fun _ : CString ↦ some (traceOutput dnsHeader [routerLine]))
      (snprintf 512 (ofText "traceroute -n -m 15 ") (ofText "8.8.8.8")
        (ofText " 2>/dev/null")) = some (traceOutput dnsHeader [routerLine]) := rfl
  have hempty : ([] : List TracerouteHop).length ≤ maxTracerouteHops := Nat.zero_le _
  rw [runTraceroute_traceOutput hrun] at h
  have hlost := (traceLoop_iff hempty [routerLine]).1 h routerLine List.mem_cons_self quickProbe
    List.mem_cons_self
  exact absurd hlost (by unfold quickProbe; simp)

end HiFetch.Network
