import HiFetch.Library.Inet
import HiFetch.Library.Segments
import HiFetch.Utils.ReadLines

/-!
# TCP connections

`scan_active_connections` reads `/proc/net/tcp` with one `read` into a buffer of 8192 bytes,
although it has places for 1024 connections.  A line of the kernel is 150 bytes long, so there is
room for 54 sockets at most, and one `read` of such a file delivers a page of whole lines, which has
26.  The sockets behind the end of what is delivered are lost, and one whose state is cut is
recorded with a wrong state.
-/

namespace HiFetch.Network

open CString Inet Scanf Strtok Utils

def maxConnections : ℕ := 1024

/-- The fields that are assigned. -/
structure Connection where
  localAddr : CString
  localPort : ℤ
  remoteAddr : CString
  remotePort : ℤ
  protocol : CString
  state : CString
deriving DecidableEq

/-- `%d: %8[0-9A-F]:%X %8[0-9A-F]:%X %X` -/
def connectionFormat : List Directive :=
  [.convert (.signed 32) true, .literal 58, .blank, .convert (.ranges 8 upperHex) true,
    .literal 58, .convert (.hex 32) true, .blank, .convert (.ranges 8 upperHex) true, .literal 58,
    .convert (.hex 32) true, .blank, .convert (.hex 32) true]

/-- The address in the digits that the scan set has found, of which there is at least one. -/
def scanAddress (digits : CString) : UInt32 :=
  match sscanf [.convert (.hex 32) true] digits.bytes with
  | [.integer addrInt] => .ofNat addrInt.toNat
  | _ => 0

/-- The `switch` over the state. -/
def stateName : ℤ → CString
  | 0x01 => ofText "ESTABLISHED"
  | 0x02 => ofText "SYN_SENT"
  | 0x03 => ofText "SYN_RECV"
  | 0x04 => ofText "FIN_WAIT1"
  | 0x05 => ofText "FIN_WAIT2"
  | 0x06 => ofText "TIME_WAIT"
  | 0x07 => ofText "CLOSE"
  | 0x08 => ofText "CLOSE_WAIT"
  | 0x09 => ofText "LAST_ACK"
  | 0x0A => ofText "LISTEN"
  | 0x0B => ofText "CLOSING"
  | _ => ofText "UNKNOWN"

/-- All six targets must be assigned; `%X` fills an `int`. -/
def connectionOf : List Value → Option Connection
  | [.integer _, .text localAddr, .integer localPort, .text remoteAddr, .integer remotePort,
      .integer state] =>
      some
        { localAddr := inetNtop (scanAddress localAddr)
          localPort := localPort.bmod (2 ^ 32)
          remoteAddr := inetNtop (scanAddress remoteAddr)
          remotePort := remotePort.bmod (2 ^ 32)
          protocol := ofText "TCP"
          state := stateName (state.bmod (2 ^ 32)) }
  | _ => none

def connectionLoop : List Connection → List CString → List Connection
  | connections, [] => connections
  | connections, line :: rest =>
      if connections.length < maxConnections then
        connectionLoop
          (connections ++ (connectionOf (sscanf connectionFormat line.bytes)).toList) rest
      else connections

/-- `scan_active_connections`, for what the buffer held and what `/proc/net/tcp` gives. -/
def scanActiveConnections (buffer : List UInt8) (file : FileRead) : List Connection :=
  match readText buffer 8192 file with
  | some text => connectionLoop [] ((tokens text 10).drop 1)
  | none => []

/-! ## The file -/

inductive TcpState where
  | established | synSent | synRecv | finWait1 | finWait2 | timeWait | close | closeWait | lastAck
  | listen | closing
deriving DecidableEq

def TcpState.code : TcpState → ℕ
  | .established => 1
  | .synSent => 2
  | .synRecv => 3
  | .finWait1 => 4
  | .finWait2 => 5
  | .timeWait => 6
  | .close => 7
  | .closeWait => 8
  | .lastAck => 9
  | .listen => 10
  | .closing => 11

def TcpState.name : TcpState → CString
  | .established => ofText "ESTABLISHED"
  | .synSent => ofText "SYN_SENT"
  | .synRecv => ofText "SYN_RECV"
  | .finWait1 => ofText "FIN_WAIT1"
  | .finWait2 => ofText "FIN_WAIT2"
  | .timeWait => ofText "TIME_WAIT"
  | .close => ofText "CLOSE"
  | .closeWait => ofText "CLOSE_WAIT"
  | .lastAck => ofText "LAST_ACK"
  | .listen => ofText "LISTEN"
  | .closing => ofText "CLOSING"

/-- A socket of the kernel, and what stands behind its state in its line. -/
structure Socket where
  localAddress : UInt32
  localPort : UInt16
  remoteAddress : UInt32
  remotePort : UInt16
  state : TcpState
  others : List UInt8
  others_head : ∀ byte ∈ others.head?, byte = 32
  others_clean : 10 ∉ others ∧ 0 ∉ others

/-- `%4d: %08X:%04X %08X:%04X %02X`, the part of a line up to the state. -/
def Socket.front (socket : Socket) (index : ℕ) : List UInt8 :=
  List.replicate (4 - (ofInt index).length) 32 ++ (ofInt index).bytes ++ [58] ++
    (32 :: printedHex 8 socket.localAddress.toNat) ++ [58] ++
    printedHex 4 socket.localPort.toNat ++
    (32 :: printedHex 8 socket.remoteAddress.toNat) ++ [58] ++
    printedHex 4 socket.remotePort.toNat ++ (32 :: printedHex 2 socket.state.code)

def Socket.bytes (socket : Socket) (index : ℕ) : List UInt8 := socket.front index ++ socket.others

/-- The lines, which are numbered. -/
def socketLines : ℕ → List Socket → List (List UInt8)
  | _, [] => []
  | index, socket :: rest => socket.bytes index :: socketLines (index + 1) rest

/-- The header has blanks up to column 149. -/
def tcpHeader : List UInt8 :=
  let text := ofText ("  sl  local_address rem_address   st tx_queue rx_queue tr tm->when " ++
    "retrnsmt   uid  timeout inode")
  text.bytes ++ List.replicate (149 - text.length) 32

/-- `/proc/net/tcp` -/
def tcpFile (sockets : List Socket) : List UInt8 :=
  terminated 10 (tcpHeader :: socketLines 0 sockets)

/-! ## The law -/

/-- What is recorded of a socket. -/
def Socket.recorded (socket : Socket) : Connection where
  localAddr := inetNtop socket.localAddress
  localPort := socket.localPort.toNat
  remoteAddr := inetNtop socket.remoteAddress
  remotePort := socket.remotePort.toNat
  protocol := ofText "TCP"
  state := socket.state.name

/-- The first `MAX_CONNECTIONS` sockets are recorded. -/
def RecordsSockets (sockets : List Socket) (connections : List Connection) : Prop :=
  connections = (sockets.take maxConnections).map Socket.recorded

/-- The line of each of the first `MAX_CONNECTIONS` sockets lies within the first `count` bytes of
the file up to its state. -/
def StatesInside (count : ℕ) (sockets : List Socket) : Prop :=
  ∀ place < maxConnections, ∀ socket ∈ sockets[place]?,
    (terminated 10 (tcpHeader :: (socketLines 0 sockets).take place)).length +
      (socket.front place).length ≤ count

/-! ## One line -/

/-- The segments of a line before the state. -/
def Socket.segments (socket : Socket) (index : ℕ) : List Segment :=
  [numberSegment (List.replicate (4 - (ofInt index).length) 32) index, literalSegment 58,
    digitsSegment 8 socket.localAddress.toNat, literalSegment 58,
    hexSegment 4 socket.localPort.toNat, digitsSegment 8 socket.remoteAddress.toNat,
    literalSegment 58, hexSegment 4 socket.remotePort.toNat]

def stateFormat : List Directive := [.blank, .convert (.hex 32) true]

theorem Socket.front_eq (socket : Socket) (index : ℕ) :
    socket.front index =
      segmentsText (socket.segments index) ++ (32 :: printedHex 2 socket.state.code) := by
  simp [front, segments, segmentsText, numberSegment, literalSegment, digitsSegment, hexSegment]

theorem connectionFormat_eq (socket : Socket) (index : ℕ) :
    connectionFormat = segmentsFormat (socket.segments index) ++ stateFormat := rfl

theorem Socket.readable_segments (socket : Socket) (index : ℕ) {tail : List UInt8}
    (htail : ∀ byte ∈ tail.head?, byte = 32) : Readable (socket.segments index) tail := by
  have hblank : HexEnds 32 := by
    unfold HexEnds
    decide
  have hport : ∀ port : UInt16, (hexSegment 4 port.toNat).Reads := fun port ↦
    hexSegment_reads (by decide) (port.toNat_lt.trans (by decide))
  have haddress : ∀ address : UInt32, (digitsSegment 8 address.toNat).Reads := fun address ↦
    digitsSegment_reads (by decide) address.toNat_lt
  have hblanks : ∀ byte ∈ List.replicate (4 - (ofInt index).length) 32, isSpace byte := by
    intro byte hmem
    rw [List.eq_of_mem_replicate hmem]
    decide
  have hnumber := numberSegment_reads hblanks index
  refine ⟨hnumber, ?_, literalSegment_reads 58, fun _ _ ↦ trivial, haddress _, fun _ _ ↦ trivial,
    literalSegment_reads 58, fun _ _ ↦ trivial, hport _, ?_, haddress _, fun _ _ ↦ trivial,
    literalSegment_reads 58, fun _ _ ↦ trivial, hport _, ?_, trivial⟩
  · rintro _ ⟨⟩
    show ¬isDigit 58
    decide
  · rintro _ ⟨⟩
    exact hblank
  · intro byte hbyte
    rw [htail byte hbyte]
    exact hblank

theorem scanAddress_printedHex (address : UInt32) :
    scanAddress (ofBuffer (printedHex 8 address.toNat)) = address := by
  have hnoNul : 0 ∉ printedHex 8 address.toNat := fun hmem ↦
    absurd (range_of_upperHex (upperHex_of_mem_printedHex hmem)).1 (by decide)
  have hread : scan (.hex 32) (printedHex 8 address.toNat ++ []) =
      some (.integer address.toNat, []) :=
    scan_hex (by decide) address.toNat_lt fun byte hmem ↦ nomatch hmem
  rw [scanAddress, bytes_ofBuffer_of_notMem hnoNul, ← List.append_nil (printedHex _ _),
    sscanf_assigned hread]
  simp [sscanf]

theorem bmod_port (port : UInt16) : (port.toNat : ℤ).bmod (2 ^ 32) = port.toNat := by
  have hlt := port.toNat_lt
  apply Int.bmod_eq_of_le_mul_two <;> push_cast <;> omega

/-- The values before the state, and one for it. -/
theorem Socket.connectionOf_values (socket : Socket) (index : ℕ) (state : ℤ) :
    connectionOf (segmentsValues (socket.segments index) ++ [.integer state]) =
      some { socket.recorded with state := stateName (state.bmod (2 ^ 32)) } := by
  simp [segmentsValues, segments, numberSegment, literalSegment, digitsSegment, hexSegment,
    connectionOf, scanAddress_printedHex, recorded]
  exact ⟨bmod_port socket.localPort, bmod_port socket.remotePort⟩

/-- A line that is there up to its state is recorded. -/
theorem Socket.connectionOf_front (socket : Socket) (index : ℕ) {rest : List UInt8}
    (hrest : ∀ byte ∈ rest.head?, byte = 32) :
    connectionOf (sscanf connectionFormat (socket.front index ++ rest)) =
      some socket.recorded := by
  have hcode : socket.state.code < 2 ^ 32 := by cases socket.state <;> decide
  have hstate : stateName ((socket.state.code : ℤ).bmod (2 ^ 32)) = socket.state.name := by
    cases socket.state <;> rfl
  have hends : ∀ byte ∈ rest.head?, HexEnds byte := by
    intro byte hbyte
    rw [hrest byte hbyte]
    exact hexEnds_of_isSpace 32 (by decide)
  have hread : sscanf stateFormat (32 :: (printedHex 2 socket.state.code ++ rest)) =
      [.integer socket.state.code] := by
    have hdigits : ∀ byte ∈ printedHex 2 socket.state.code, inRanges upperHex byte := fun _ ↦
      upperHex_of_mem_printedHex
    rw [stateFormat, sscanf_blank,
      dropWhile_blank_digits hdigits (printedHex_ne_nil (by decide) _),
      sscanf_assigned (scan_hex (by decide) hcode hends)]
    rfl
  have hhead : ∀ byte ∈ (32 :: (printedHex 2 socket.state.code ++ rest)).head?, byte = 32 := by
    rintro _ ⟨⟩
    rfl
  rw [socket.front_eq, connectionFormat_eq socket index, List.append_assoc, List.cons_append,
    sscanf_segments (socket.readable_segments index hhead), hread, socket.connectionOf_values,
    hstate]
  rfl

theorem length_front (socket : Socket) (index : ℕ) :
    (socket.front index).length = (segmentsText (socket.segments index)).length + 3 := by
  have hcode : socket.state.code < 16 ^ 2 := by cases socket.state <;> decide
  rw [socket.front_eq, List.length_append, List.length_cons, length_printedHex hcode]

/-- A line that is cut before the end of its state is not recorded, or recorded with an unknown
state. -/
theorem Socket.connectionOf_take (socket : Socket) {index count : ℕ}
    (h : count < (socket.front index).length) :
    connectionOf (sscanf connectionFormat ((socket.front index).take count)) = none ∨
      connectionOf (sscanf connectionFormat ((socket.front index).take count)) =
        some { socket.recorded with state := ofText "UNKNOWN" } := by
  have hfew : ∀ values : List Value, values.length ≤ 5 → connectionOf values = none := by
    intro values hvalues
    unfold connectionOf
    split
    · simp at hvalues
    · rfl
  rw [length_front] at h
  rw [socket.front_eq, connectionFormat_eq socket index]
  rcases Nat.lt_or_ge count (segmentsText (socket.segments index)).length with hbefore | hbehind
  · left
    have hnone : ∀ byte ∈ ([] : List UInt8).head?, byte = 32 := fun byte hmem ↦ nomatch hmem
    have hshort := length_sscanf_take (socket.readable_segments index hnone) stateFormat hbefore
    rw [List.take_append_of_le_length hbefore.le]
    exact hfew _ (hshort.trans (Nat.le_refl 5))
  · obtain ⟨left, rfl⟩ := Nat.exists_eq_add_of_le hbehind
    have hhead : ∀ byte ∈ ((32 :: printedHex 2 socket.state.code).take left).head?, byte = 32 := by
      intro byte hbyte
      cases mem_head?_take hbyte
      rfl
    rw [List.take_length_add_append, sscanf_segments (socket.readable_segments index hhead)]
    have hcut : ∀ left < 3,
        sscanf stateFormat ((32 :: printedHex 2 socket.state.code).take left) = [] ∨
          sscanf stateFormat ((32 :: printedHex 2 socket.state.code).take left) =
            [.integer 0] := by cases socket.state <;> decide +kernel
    rcases hcut left (by omega) with hnone | hzero
    · rw [hnone, List.append_nil]
      exact .inl (hfew _ (Nat.le_refl 5))
    · rw [hzero, socket.connectionOf_values]
      exact .inr rfl

/-! ## The table -/

/-- The lines up to the limit hold the first sockets up to their states. -/
def StatesBefore (limit room index : ℕ) (sockets : List Socket) : Prop :=
  ∀ place < room, ∀ socket ∈ sockets[place]?,
    (terminated 10 ((socketLines index sockets).take place)).length +
      (socket.front (index + place)).length ≤ limit

theorem statesBefore_zero (limit index : ℕ) (sockets : List Socket) :
    StatesBefore limit 0 index sockets := fun _ hlt ↦ absurd hlt (Nat.not_lt_zero _)

theorem statesBefore_cons (limit room index : ℕ) (socket : Socket) (rest : List Socket) :
    StatesBefore limit (room + 1) index (socket :: rest) ↔
      (socket.front index).length ≤ limit ∧
        ∀ place < room, ∀ other ∈ rest[place]?,
          (socket.bytes index).length + 1 +
            (terminated 10 ((socketLines (index + 1) rest).take place)).length +
              (other.front (index + 1 + place)).length ≤ limit := by
  constructor
  · intro h
    refine ⟨?_, fun place hlt other hother ↦ ?_⟩
    · have hfirst := h 0 (Nat.succ_pos room) socket rfl
      simpa [terminated] using hfirst
    · have hnext := h (place + 1) (Nat.succ_lt_succ hlt) other hother
      rw [socketLines, List.take_succ_cons, length_terminated_cons] at hnext
      rw [Nat.add_assoc index 1 place, Nat.add_comm 1 place]
      exact hnext
  · rintro ⟨hfirst, hothers⟩ place hlt other hother
    cases place with
    | zero =>
      obtain rfl : socket = other := Option.some.inj hother
      simpa [terminated] using hfirst
    | succ place =>
      have hnext := hothers place (Nat.lt_of_succ_lt_succ hlt) other hother
      rw [socketLines, List.take_succ_cons, length_terminated_cons]
      rw [Nat.add_assoc index 1 place, Nat.add_comm 1 place] at hnext
      exact hnext

theorem TcpState.name_ne (state : TcpState) : state.name ≠ ofText "UNKNOWN" := by
  cases state <;> decide

theorem Socket.clean (socket : Socket) (index : ℕ) : CleanLine (socket.bytes index) := by
  have hhex : ∀ width number, ∀ byte ∈ printedHex width number, byte ≠ 10 ∧ byte ≠ 0 := by
    intro width number byte hmem
    have hle := (range_of_upperHex (upperHex_of_mem_printedHex hmem)).1
    constructor <;> (rintro rfl; exact absurd hle (by decide))
  have hindex : ∀ byte ∈ (ofInt index).bytes, byte ≠ 10 ∧ byte ≠ 0 := by
    intro byte hmem
    have hle := le_of_mem_bytes_ofInt hmem
    constructor <;> (rintro rfl; exact absurd hle (by decide))
  have hblanks : ∀ byte ∈ List.replicate (4 - (ofInt index).length) (32 : UInt8),
      byte ≠ 10 ∧ byte ≠ 0 := by
    intro byte hmem
    rw [List.eq_of_mem_replicate hmem]
    decide
  have hothers : ∀ byte ∈ socket.others, byte ≠ 10 ∧ byte ≠ 0 := fun byte hmem ↦
    ⟨fun h ↦ socket.others_clean.1 (h ▸ hmem), fun h ↦ socket.others_clean.2 (h ▸ hmem)⟩
  have hall : ∀ byte ∈ socket.bytes index, byte ≠ 10 ∧ byte ≠ 0 := by
    have hcolon : ((58 : UInt8) ≠ 10 ∧ (58 : UInt8) ≠ 0) ∧
        ∀ byte ∈ ([] : List UInt8), byte ≠ 10 ∧ byte ≠ 0 := by decide +kernel
    have hspace : (32 : UInt8) ≠ 10 ∧ (32 : UInt8) ≠ 0 := by decide
    simp only [bytes, front, List.forall_mem_append, List.forall_mem_cons]
    exact ⟨⟨⟨⟨⟨⟨⟨⟨⟨⟨hblanks, hindex⟩, hcolon⟩, hspace, hhex 8 _⟩, hcolon⟩, hhex 4 _⟩, hspace,
      hhex 8 _⟩, hcolon⟩, hhex 4 _⟩, hspace, hhex 2 _⟩, hothers⟩
  refine ⟨?_, fun hmem ↦ (hall 10 hmem).1 rfl, fun hmem ↦ (hall 0 hmem).2 rfl⟩
  rw [bytes, socket.front_eq]
  simp

theorem connectionLoop_nil (connections : List Connection) :
    connectionLoop connections [] = connections := by
  unfold connectionLoop
  rfl

theorem connectionLoop_cons {connections : List Connection} {line : List UInt8}
    (hline : 0 ∉ line) (rest : List CString) (hroom : connections.length < maxConnections) :
    connectionLoop connections (ofBuffer line :: rest) =
      connectionLoop (connections ++ (connectionOf (sscanf connectionFormat line)).toList)
        rest := by
  rw [connectionLoop, if_pos hroom, bytes_ofBuffer_of_notMem hline]

theorem connectionLoop_full {connections : List Connection} (lines : List CString)
    (hroom : connections.length = maxConnections) :
    connectionLoop connections lines = connections := by
  cases lines with
  | nil => exact connectionLoop_nil connections
  | cons line rest => rw [connectionLoop, if_neg (by omega)]

/-- The line in which the table is cut is the last one. -/
theorem recorded_cut_iff {limit room index : ℕ} {socket : Socket} {rest : List Socket}
    (hlimit : limit ≤ (socket.bytes index).length) :
    (connectionOf (sscanf connectionFormat ((socket.bytes index).take limit))).toList =
        ((socket :: rest).take (room + 1)).map Socket.recorded ↔
      StatesBefore limit (room + 1) index (socket :: rest) := by
  rw [statesBefore_cons, List.take_succ_cons, List.map_cons]
  rcases Nat.lt_or_ge limit (socket.front index).length with hcut | hwhole
  · refine iff_of_false (fun heq ↦ ?_) fun h ↦ absurd h.1 (by omega)
    rw [Socket.bytes, List.take_append_of_le_length hcut.le] at heq
    rcases socket.connectionOf_take hcut with hnone | hunknown
    · rw [hnone] at heq
      cases heq
    · rw [hunknown] at heq
      have hhead := (List.cons.inj heq).1
      exact socket.state.name_ne (congrArg Connection.state hhead).symm
  · obtain ⟨left, rfl⟩ := Nat.exists_eq_add_of_le hwhole
    have hothers : ∀ byte ∈ (socket.others.take left).head?, byte = 32 := fun byte hbyte ↦
      socket.others_head byte (mem_head?_take hbyte)
    have hnone : (rest.take room).map Socket.recorded = [] ↔
        ∀ place < room, ∀ other, rest[place]? ≠ some other := by
      rw [List.map_eq_nil_iff]
      constructor
      · intro hnil place hlt other hother
        rw [← List.getElem?_take_of_lt hlt, hnil] at hother
        cases hother
      · intro h
        cases room with
        | zero => rfl
        | succ room =>
          cases rest with
          | nil => rfl
          | cons other rest => exact absurd rfl (h 0 (Nat.succ_pos room) other)
    have hrecorded : connectionOf (sscanf connectionFormat
        ((socket.bytes index).take ((socket.front index).length + left))) =
          some socket.recorded := by
      rw [Socket.bytes, List.take_length_add_append, socket.connectionOf_front index hothers]
    rw [hrecorded, Option.toList_some, List.cons_inj_right, eq_comm, hnone]
    constructor
    · exact fun h ↦ ⟨hwhole, fun place hlt other hother ↦ absurd hother (h place hlt other)⟩
    · exact fun h place hlt other hother ↦ absurd (h.2 place hlt other hother) (by omega)

theorem connectionLoop_whole {connections : List Connection} (socket : Socket) (index last : ℕ)
    (lines : List (List UInt8)) (hfree : connections.length < maxConnections) :
    connectionLoop connections
        ((cut ((socket.bytes index).length + last + 1) (socket.bytes index :: lines)).map
          ofBuffer) =
      connectionLoop (connections ++ [socket.recorded]) ((cut last lines).map ofBuffer) := by
  have hcut : cut ((socket.bytes index).length + last + 1) (socket.bytes index :: lines) =
      socket.bytes index :: cut last lines := by
    rw [cut, if_neg (by omega), Nat.add_sub_cancel_left]
  have hline : connectionOf (sscanf connectionFormat (socket.bytes index)) =
      some socket.recorded := socket.connectionOf_front index socket.others_head
  rw [hcut, List.map_cons, connectionLoop_cons (socket.clean index).2.2 _ hfree, hline,
    Option.toList_some]

/-- The line in which the table is cut: nothing comes after it. -/
theorem connectionLoop_last {limit index : ℕ} {connections : List Connection} {socket : Socket}
    (hlimit : limit ≤ (socket.bytes index).length) (lines : List (List UInt8))
    (hfree : connections.length < maxConnections) :
    connectionLoop connections ((cut limit (socket.bytes index :: lines)).map ofBuffer) =
      connections ++ (connectionOf
        (sscanf connectionFormat ((socket.bytes index).take limit))).toList := by
  have hnoNul : 0 ∉ (socket.bytes index).take limit := fun hmem ↦
    (socket.clean index).2.2 (List.mem_of_mem_take hmem)
  cases limit with
  | zero =>
    have hnone : connectionOf (sscanf connectionFormat []) = none := by decide
    rw [cut_zero, List.map_nil, connectionLoop_nil, List.take_zero, hnone, Option.toList_none,
      List.append_nil]
  | succ last =>
    rw [cut, if_pos (Nat.lt_of_succ_le hlimit), List.map_singleton,
      connectionLoop_cons hnoNul _ hfree, connectionLoop_nil]

/-- Behind a whole line, the others have the room that it leaves. -/
theorem statesBefore_whole (room index last : ℕ) (socket : Socket) (rest : List Socket) :
    StatesBefore ((socket.bytes index).length + last + 1) (room + 1) index (socket :: rest) ↔
      StatesBefore last room (index + 1) rest := by
  have hfront : (socket.front index).length ≤ (socket.bytes index).length := by
    rw [Socket.bytes, List.length_append]
    exact Nat.le_add_right _ _
  rw [statesBefore_cons]
  constructor
  · intro h place hlt other hother
    have hplace := h.2 place hlt other hother
    omega
  · refine fun h ↦ ⟨by omega, fun place hlt other hother ↦ ?_⟩
    have hplace := h place hlt other hother
    omega

/-- The loop over the lines of a table that is cut. -/
theorem connectionLoop_cut_iff {limit index : ℕ} {sockets : List Socket}
    {connections : List Connection} (hroom : connections.length ≤ maxConnections) :
    connectionLoop connections ((cut limit (socketLines index sockets)).map ofBuffer) =
        connections ++ (sockets.take (maxConnections - connections.length)).map Socket.recorded ↔
      StatesBefore limit (maxConnections - connections.length) index sockets := by
  induction sockets generalizing limit index connections with
  | nil =>
    rw [socketLines, cut_nil, List.take_nil, List.map_nil, List.map_nil, List.append_nil]
    exact iff_of_true rfl fun place _ socket hsocket ↦ (nomatch hsocket)
  | cons socket rest ih =>
    rcases Nat.eq_or_lt_of_le hroom with hfull | hfree
    · rw [connectionLoop_full _ hfull, hfull, Nat.sub_self]
      exact iff_of_true (List.append_nil _).symm (statesBefore_zero _ _ _)
    obtain ⟨room, hleft⟩ := Nat.exists_eq_add_one_of_ne_zero (Nat.sub_ne_zero_of_lt hfree)
    rw [socketLines, hleft]
    rcases Nat.lt_or_ge (socket.bytes index).length limit with hwhole | hcut
    · obtain ⟨last, rfl⟩ := Nat.exists_eq_add_of_lt hwhole
      have hlength : (connections ++ [socket.recorded]).length = connections.length + 1 := by
        rw [List.length_append, List.length_singleton]
      have hnext : (connections ++ [socket.recorded]).length ≤ maxConnections := by omega
      have hroomNext : maxConnections - (connections ++ [socket.recorded]).length = room := by
        omega
      have hrest : connectionLoop (connections ++ [socket.recorded])
          ((cut last (socketLines (index + 1) rest)).map ofBuffer) =
            connections ++ [socket.recorded] ++ (rest.take room).map Socket.recorded ↔
              StatesBefore last room (index + 1) rest := by
        rw [← hroomNext]
        exact ih hnext
      rw [connectionLoop_whole socket index last _ hfree, List.take_succ_cons, List.map_cons,
        List.append_cons connections socket.recorded (List.map _ _), hrest, statesBefore_whole]
    · rw [connectionLoop_last hcut _ hfree, List.append_cancel_left_eq, recorded_cut_iff hcut]

theorem length_tcpHeader : tcpHeader.length = 149 := by decide +kernel

theorem tcpLines_clean (sockets : List Socket) :
    ∀ line ∈ tcpHeader :: socketLines 0 sockets, CleanLine line := by
  have hheader : tcpHeader ≠ [] ∧ 10 ∉ tcpHeader ∧ 0 ∉ tcpHeader := by decide +kernel
  have hlines : ∀ index, ∀ line ∈ socketLines index sockets, CleanLine line := by
    induction sockets with
    | nil => exact fun _ _ hmem ↦ (nomatch hmem)
    | cons socket rest ih =>
      intro index
      rw [socketLines, List.forall_mem_cons]
      exact ⟨socket.clean index, ih (index + 1)⟩
  rw [List.forall_mem_cons]
  exact ⟨hheader, hlines 0⟩

theorem statesInside_iff (count : ℕ) (sockets : List Socket) :
    StatesInside count sockets ↔ StatesBefore (count - 150) maxConnections 0 sockets := by
  refine forall₂_congr fun place _ ↦ forall₂_congr fun socket _ ↦ ?_
  have hfront := length_front socket place
  rw [length_terminated_cons, length_tcpHeader, Nat.zero_add]
  omega

/-- The scan goes over the lines that are left of the table in what `read` delivers. -/
theorem scanActiveConnections_tcpFile {buffer : List UInt8} (hbuffer : 8192 ≤ buffer.length)
    {sockets : List Socket} {count : ℕ}
    (hread : (FileRead.delivered (tcpFile sockets) count).Documented 8191) :
    scanActiveConnections buffer (.delivered (tcpFile sockets) count) =
      connectionLoop [] ((cut (count - 150) (socketLines 0 sockets)).map ofBuffer) := by
  obtain ⟨hcontent, hlimit, hzero⟩ := hread
  have hpos : 0 < count := by
    refine Nat.pos_of_ne_zero fun hnone ↦ ?_
    have hempty := (hzero hnone).resolve_right (by decide)
    rw [tcpFile, terminated_cons] at hempty
    exact absurd hempty (by simp)
  obtain ⟨text, htext, htokens⟩ := tokens_readText (by decide) hbuffer (tcpLines_clean sockets)
    hpos (Nat.lt_succ_of_le hlimit) hcontent
  have hlines : (tokens text 10).drop 1 =
      (cut (count - 150) (socketLines 0 sockets)).map ofBuffer := by
    obtain ⟨last, rfl⟩ := Nat.exists_eq_add_one_of_ne_zero hpos.ne'
    rw [htokens, cut, length_tcpHeader]
    split_ifs with hcut
    · rw [show last + 1 - 150 = 0 by omega, cut_zero]
      rfl
    · rw [show last + 1 - 150 = last - 149 by omega]
      rfl
  rw [scanActiveConnections, tcpFile, htext, ← hlines]

/-- The loop over the lines that have been delivered. -/
theorem connectionLoop_delivered_iff (count : ℕ) (sockets : List Socket) :
    RecordsSockets sockets
        (connectionLoop [] ((cut (count - 150) (socketLines 0 sockets)).map ofBuffer)) ↔
      StatesInside count sockets := by
  have hloop : connectionLoop [] ((cut (count - 150) (socketLines 0 sockets)).map ofBuffer) =
      [] ++ (sockets.take (maxConnections - 0)).map Socket.recorded ↔ _ :=
    connectionLoop_cut_iff (Nat.zero_le maxConnections)
  rw [statesInside_iff]
  exact hloop

/-- Whatever part of the table `read` delivers, the scan records the first `MAX_CONNECTIONS`
sockets, each with its addresses, its ports and its state, exactly if their lines lie within this
part up to the state. -/
theorem recordsSockets_iff {buffer : List UInt8} (hbuffer : 8192 ≤ buffer.length)
    {sockets : List Socket} {count : ℕ}
    (hread : (FileRead.delivered (tcpFile sockets) count).Documented 8191) :
    RecordsSockets sockets (scanActiveConnections buffer (.delivered (tcpFile sockets) count)) ↔
      StatesInside count sockets := by
  rw [scanActiveConnections_tcpFile hbuffer hread]
  exact connectionLoop_delivered_iff count sockets

/-- A server that listens on port 22, in a line of 149 bytes. -/
def sshSocket : Socket where
  localAddress := 0
  localPort := 22
  remoteAddress := 0
  remotePort := 0
  state := .listen
  others := (ofText " 00000000:00000000 00:00000000 00000000     0        0 18354 1 ").bytes ++
    List.replicate 50 32
  others_head := by decide +kernel
  others_clean := by decide +kernel

/-- The kernel delivers the header and the line of the socket. -/
theorem recordsSockets_one :
    RecordsSockets [sshSocket]
      (scanActiveConnections (List.replicate 8192 0) (.delivered (tcpFile [sshSocket]) 300)) := by
  have hbuffer : 8192 ≤ (List.replicate 8192 (0 : UInt8)).length := by
    rw [List.length_replicate]
  have hread : (FileRead.delivered (tcpFile [sshSocket]) 300).Documented 8191 :=
    ⟨by decide +kernel, by decide, by simp⟩
  refine (recordsSockets_iff hbuffer hread).2 fun place _ socket hsocket ↦ ?_
  cases place with
  | zero =>
    cases hsocket
    decide +kernel
  | succ place => cases hsocket

/-- Of 27 sockets, the kernel delivers a page of whole lines, and the last socket is lost. -/
theorem many_not_recordsSockets :
    ¬RecordsSockets (List.replicate 27 sshSocket)
      (scanActiveConnections (List.replicate 8192 0)
        (.delivered (tcpFile (List.replicate 27 sshSocket)) 4050)) := by
  have hbuffer : 8192 ≤ (List.replicate 8192 (0 : UInt8)).length := by
    rw [List.length_replicate]
  have hread : (FileRead.delivered (tcpFile (List.replicate 27 sshSocket)) 4050).Documented 8191 :=
    ⟨by decide +kernel, by decide, by simp⟩
  have hlong : 4050 ≤ (terminated 10
      (tcpHeader :: (socketLines 0 (List.replicate 27 sshSocket)).take 26)).length := by
    decide +kernel
  have hfront := length_front sshSocket 26
  rw [scanActiveConnections_tcpFile hbuffer hread, connectionLoop_delivered_iff]
  intro hinside
  have hlast := hinside 26 (by decide) sshSocket rfl
  omega

end HiFetch.Network
