import HiFetch.Library.Inet
import HiFetch.Library.Segments
import HiFetch.Utils.ReadLines

/-!
# The routing table

`scan_routing_table` marks every route with destination 0 as a default route, whatever its mask, and
the last of these leaves its gateway as the default gateway.  The metric is recorded and does not
matter.  Where no route has destination 0, the default gateway of an earlier scan stays.

The file is read with one `read`, which need not deliver all of it.
-/

namespace HiFetch.Network

open CString Inet Scanf Strtok Utils

def maxRoutes : ℕ := 256

structure Route where
  destination : CString
  gateway : CString
  netmask : CString
  interface : CString
  metric : ℤ
  isDefault : Bool
deriving DecidableEq

/-- The routes in use and the default gateway. -/
structure RouteInfo where
  routes : List Route
  defaultGateway : CString
deriving DecidableEq

/-- `%15s %X %X %X %*d %*d %d %X` -/
def routeFormat : List Directive :=
  .convert (.word 15) true ::
    numbers [(.hex 32, true), (.hex 32, true), (.hex 32, true), (.signed 32, false),
      (.signed 32, false), (.signed 32, true), (.hex 32, true)]

/-- All six targets must be assigned. -/
def RouteInfo.add (netInfo : RouteInfo) : List Value → RouteInfo
  | [.text iface, .integer dest, .integer gateway, .integer _, .integer metric, .integer mask] =>
      let route : Route :=
        { destination := inetNtop (.ofNat dest.toNat)
          gateway := inetNtop (.ofNat gateway.toNat)
          netmask := inetNtop (.ofNat mask.toNat)
          interface := iface
          metric := metric
          isDefault := decide (dest = 0) }
      { routes := netInfo.routes ++ [route]
        defaultGateway := if route.isDefault then route.gateway else netInfo.defaultGateway }
  | _ => netInfo

def routeLoop : RouteInfo → List CString → RouteInfo
  | netInfo, [] => netInfo
  | netInfo, line :: rest =>
      if netInfo.routes.length < maxRoutes then
        routeLoop (netInfo.add (sscanf routeFormat line.bytes)) rest
      else netInfo

/-- `scan_routing_table`, for what the buffer held and what `/proc/net/route` gives. -/
def scanRoutingTable (netInfo : RouteInfo) (buffer : List UInt8) (file : FileRead) : RouteInfo :=
  match readText buffer 8192 file with
  | some text => routeLoop { netInfo with routes := [] } ((tokens text 10).drop 1)
  | none => { netInfo with routes := [] }

/-! ## The file -/

/-- A route of the kernel.  Addresses are numbers whose lowest byte stands first in memory. -/
structure KernelRoute where
  interface : CString
  destination : UInt32
  gateway : UInt32
  flags : UInt32
  refcnt : UInt32
  use : UInt32
  metric : UInt32
  mask : UInt32
  mtu : UInt32
  window : UInt32
  irtt : UInt32
  length_pos : 0 < interface.length
  length_le : interface.length ≤ 15
  clean : ∀ byte ∈ interface.bytes, ¬isSpace byte

/-- What stands behind the name: `%08X %08X %04X %d %u %d %08X %d %u %u`, with tabs. -/
def KernelRoute.columns (route : KernelRoute) : List (List UInt8) :=
  [printedHex 8 route.destination.toNat, printedHex 8 route.gateway.toNat,
    printedHex 4 route.flags.toNat, (ofInt route.refcnt.toInt32.toInt).bytes,
    (ofInt route.use.toNat).bytes, (ofInt route.metric.toInt32.toInt).bytes,
    printedHex 8 route.mask.toNat, (ofInt route.mtu.toInt32.toInt).bytes,
    (ofInt route.window.toNat).bytes, (ofInt route.irtt.toNat).bytes]

/-- Blanks up to column 127. -/
def fillLine (text : List UInt8) : List UInt8 := text ++ List.replicate (127 - text.length) 32

def KernelRoute.bytes (route : KernelRoute) : List UInt8 :=
  fillLine (route.interface.bytes ++ route.columns.flatMap (9 :: ·))

def routeHeader : List UInt8 :=
  fillLine (ofText ("Iface\tDestination\tGateway \tFlags\tRefCnt\tUse\tMetric\tMask\t\t" ++
    "MTU\tWindow\tIRTT")).bytes

/-- `/proc/net/route` -/
def routeFile (routes : List KernelRoute) : List UInt8 :=
  terminated 10 (routeHeader :: routes.map KernelRoute.bytes)

/-! ## The law -/

/-- The destination and the mask are 0. -/
def KernelRoute.IsDefault (route : KernelRoute) : Prop := route.destination = 0 ∧ route.mask = 0

instance (route : KernelRoute) : Decidable route.IsDefault :=
  inferInstanceAs (Decidable (route.destination = 0 ∧ route.mask = 0))

/-- A default route, and no default route has a smaller metric. -/
def BestDefault (routes : List KernelRoute) (route : KernelRoute) : Prop :=
  route ∈ routes ∧ route.IsDefault ∧ ∀ other ∈ routes, other.IsDefault → route.metric ≤ other.metric

/-- What a scan of a table leaves. -/
structure SelectsGateway (routes : List KernelRoute) (netInfo : RouteInfo) : Prop where
  marked : netInfo.routes.map Route.isDefault = routes.map fun route ↦ decide route.IsDefault
  selected : (∃ route ∈ routes, route.IsDefault) →
    ∃ route, BestDefault routes route ∧ netInfo.defaultGateway = inetNtop route.gateway
  none : (∀ route ∈ routes, ¬route.IsDefault) → netInfo.defaultGateway = empty

/-- A line up to the first digit of the mask. -/
def KernelRoute.front (route : KernelRoute) : List UInt8 :=
  route.interface.bytes ++ (route.columns.take 6).flatMap (9 :: ·) ++ [9]

/-- The first `count` bytes of the file hold a digit of the mask of every route. -/
def MasksInside (count : ℕ) (routes : List KernelRoute) : Prop :=
  ∀ place, ∀ route ∈ routes[place]?,
    (routeFile (routes.take place)).length + route.front.length < count

/-- Destination 0 has mask 0; the last default route has the gateway of one with the least metric;
and without a default route, no default gateway is left from before. -/
structure LastIsBest (netInfo : RouteInfo) (routes : List KernelRoute) : Prop where
  mask : ∀ route ∈ routes, route.destination = 0 → route.mask = 0
  last : ∀ last ∈ (routes.filter fun route ↦ decide route.IsDefault).getLast?,
    ∃ route, BestDefault routes route ∧ route.gateway = last.gateway
  cleared : (∀ route ∈ routes, ¬route.IsDefault) → netInfo.defaultGateway = empty

/-! ## One line -/

/-- The fields in front of the mask. -/
def KernelRoute.row (route : KernelRoute) : List Field :=
  [hexField [9] 8 route.destination.toNat, hexField [9] 8 route.gateway.toNat,
    hexField [9] 4 route.flags.toNat,
    numberField (.signed 32) false [9] route.refcnt.toInt32.toInt,
    numberField (.signed 32) false [9] route.use.toNat,
    numberField (.signed 32) true [9] route.metric.toInt32.toInt]

def KernelRoute.segments (route : KernelRoute) : List Segment :=
  wordSegment 15 route.interface.bytes ::
    route.row.map (fieldSegment fun byte ↦ isSpace byte)

def maskFormat : List Directive := [.blank, .convert (.hex 32) true]

/-- What follows the mask. -/
def KernelRoute.others (route : KernelRoute) : List UInt8 :=
  let behind := [(ofInt route.mtu.toInt32.toInt).bytes, (ofInt route.window.toNat).bytes,
    (ofInt route.irtt.toNat).bytes].flatMap (9 :: ·)
  behind ++ List.replicate
    (127 - (route.interface.bytes ++ route.columns.flatMap (9 :: ·)).length) 32

theorem routeFormat_eq (route : KernelRoute) :
    routeFormat = segmentsFormat route.segments ++ maskFormat := rfl

theorem KernelRoute.front_eq (route : KernelRoute) :
    route.front = segmentsText route.segments ++ [9] := by
  simp [front, columns, segments, row, segmentsText, wordSegment, fieldSegment, hexField,
    numberField]

theorem KernelRoute.bytes_eq (route : KernelRoute) :
    route.bytes = route.front ++ (printedHex 8 route.mask.toNat ++ route.others) := by
  simp [bytes, fillLine, columns, others, front]

theorem KernelRoute.readable_segments (route : KernelRoute) {tail : List UInt8}
    (htail : ∀ byte ∈ tail.head?, isSpace byte) : Readable route.segments tail := by
  have htab : ∀ byte ∈ [(9 : UInt8)], isSpace byte := List.forall_mem_singleton.2 rfl
  have hword : (wordSegment 15 route.interface.bytes).Reads :=
    wordSegment_reads route.clean (List.ne_nil_of_length_pos route.length_pos) route.length_le
  have hhex : ∀ width, 0 < width → ∀ number : UInt32,
      (fieldSegment (fun byte ↦ isSpace byte) (hexField [9] width number.toNat)).Reads := by
    intro width hwidth number
    refine fieldSegment_reads ?_ fun _ _ _ hscan ↦ eq_nil_of_scan_hex_take hscan
    exact (hexField_reads htab (by decide) hwidth number.toNat_lt).mono hexEnds_of_isSpace
  have hnumber : ∀ assigned number, (fieldSegment (fun byte ↦ isSpace byte)
      (numberField (.signed 32) assigned [9] number)).Reads := by
    intro assigned number
    refine fieldSegment_reads ?_ fun _ _ _ hscan ↦ eq_nil_of_scan_take rfl hscan
    exact (numberField_reads rfl assigned htab (by decide) number).mono not_isDigit_of_isSpace
  have hspace : isSpace 9 := rfl
  exact ⟨hword, by rintro _ ⟨⟩; exact hspace, hhex 8 (by decide) _, by rintro _ ⟨⟩; exact hspace,
    hhex 8 (by decide) _, by rintro _ ⟨⟩; exact hspace, hhex 4 (by decide) _,
    by rintro _ ⟨⟩; exact hspace, hnumber _ _, by rintro _ ⟨⟩; exact hspace, hnumber _ _,
    by rintro _ ⟨⟩; exact hspace, hnumber _ _, htail, trivial⟩

theorem convert_int (number : UInt32) :
    (Kind.signed 32).convert number.toInt32.toInt = number.toInt32.toInt :=
  convert_signed (by decide) (by decide) number.toInt32.le_toInt number.toInt32.toInt_lt

theorem KernelRoute.segmentsValues_eq (route : KernelRoute) :
    segmentsValues route.segments =
      [.text route.interface, .integer route.destination.toNat, .integer route.gateway.toNat,
        .integer route.flags.toNat, .integer route.metric.toInt32.toInt] := by
  simp [segmentsValues, segments, row, wordSegment, fieldSegment, hexField, numberField,
    convert_int, ofBuffer_bytes]

/-- What is recorded of a route, with the mask that has been read. -/
def KernelRoute.recorded (route : KernelRoute) (netmask : CString) : Route where
  destination := inetNtop route.destination
  gateway := inetNtop route.gateway
  netmask := netmask
  interface := route.interface
  metric := route.metric.toInt32.toInt
  isDefault := decide (route.destination = 0)

def RouteInfo.record (netInfo : RouteInfo) (route : KernelRoute) (netmask : CString) :
    RouteInfo where
  routes := netInfo.routes ++ [route.recorded netmask]
  defaultGateway :=
    if route.destination = 0 then inetNtop route.gateway else netInfo.defaultGateway

theorem RouteInfo.add_values (netInfo : RouteInfo) (route : KernelRoute) (mask : ℤ) :
    netInfo.add (segmentsValues route.segments ++ [.integer mask]) =
      netInfo.record route (inetNtop (.ofNat mask.toNat)) := by
  have hzero : (route.destination.toNat : ℤ) = 0 ↔ route.destination = 0 := by
    rw [Int.natCast_eq_zero, ← UInt32.toNat_inj]
    rfl
  rw [route.segmentsValues_eq, List.cons_append, List.cons_append, List.cons_append,
    List.cons_append, List.cons_append, List.nil_append, add, record, KernelRoute.recorded]
  simp only [Int.toNat_natCast, UInt32.ofNat_toNat, hzero, decide_eq_true_eq]

/-- Fewer than six values record nothing. -/
theorem RouteInfo.add_of_length_lt {netInfo : RouteInfo} {values : List Value}
    (h : values.length < 6) : netInfo.add values = netInfo := by
  unfold add
  split
  · exact absurd h (by simp)
  · rfl

/-- A line that is cut in front of its mask. -/
theorem RouteInfo.add_take_of_le {netInfo : RouteInfo} {route : KernelRoute} {limit : ℕ}
    (h : limit ≤ route.front.length) :
    netInfo.add (sscanf routeFormat (route.bytes.take limit)) = netInfo := by
  apply add_of_length_lt
  have hcount : (segmentsValues route.segments).length = 5 := by rw [route.segmentsValues_eq]; rfl
  have htab : ∀ byte ∈ ([9] : List UInt8).head?, isSpace byte := by
    rintro _ ⟨⟩
    rfl
  rw [route.bytes_eq, List.take_append_of_le_length h]
  rw [route.front_eq, List.length_append, List.length_singleton] at h
  rw [route.front_eq, routeFormat_eq route]
  rcases Nat.lt_or_ge limit (segmentsText route.segments).length with hbefore | hbehind
  · have hshort := length_sscanf_take (route.readable_segments htab) maskFormat hbefore
    rw [List.take_append_of_le_length hbefore.le]
    omega
  · obtain ⟨left, rfl⟩ := Nat.exists_eq_add_of_le hbehind
    have hend : ∀ byte ∈ (([9] : List UInt8).take left).head?, isSpace byte := fun byte hmem ↦
      htab byte (mem_head?_take hmem)
    have hnone : ∀ left, sscanf maskFormat (([9] : List UInt8).take left) = [] := by
      intro left
      cases left <;> simp [maskFormat, sscanf, scan, scanHex, scanSign, isSpace]
    rw [List.take_length_add_append, sscanf_segments (route.readable_segments hend), hnone,
      List.append_nil]
    omega

/-- A line with a digit of its mask at least. -/
theorem RouteInfo.exists_add_take {route : KernelRoute} {limit : ℕ}
    (h : route.front.length < limit) (netInfo : RouteInfo) :
    ∃ netmask, netInfo.add (sscanf routeFormat (route.bytes.take limit)) =
      netInfo.record route netmask := by
  obtain ⟨left, rfl⟩ := Nat.exists_eq_add_of_lt h
  have hne : (printedHex 8 route.mask.toNat).take (left + 1) ≠ [] := by
    rw [Ne, List.take_eq_nil_iff, not_or]
    exact ⟨Nat.succ_ne_zero left, printedHex_ne_nil (by decide) _⟩
  have hdigits : ∀ byte ∈ (printedHex 8 route.mask.toNat).take (left + 1), inRanges upperHex byte :=
    fun byte hmem ↦ upperHex_of_mem_printedHex (List.mem_of_mem_take hmem)
  generalize hrest : route.others.take (left + 1 - (printedHex 8 route.mask.toNat).length) = rest
  have hothers : ∀ byte ∈ rest.head?, HexEnds byte := by
    intro byte hbyte
    rw [← hrest] at hbyte
    cases mem_head?_take hbyte
    exact hexEnds_of_isSpace 9 (by decide)
  have hmask : ∃ mask, sscanf maskFormat
      (9 :: ((printedHex 8 route.mask.toNat).take (left + 1) ++ rest)) = [.integer mask] := by
    have hhead : ∀ byte ∈ ((printedHex 8 route.mask.toNat).take (left + 1) ++ rest).head?,
        ¬isSpace byte := by
      intro byte hbyte
      rw [List.head?_append_of_ne_nil _ hne] at hbyte
      exact (isHexDigit_of_upperHex (hdigits byte (List.mem_of_mem_head? hbyte))).2.1
    refine ⟨(Kind.hex 32).convert (hexValue ((printedHex 8 route.mask.toNat).take (left + 1))), ?_⟩
    rw [maskFormat, sscanf_blank, List.dropWhile_cons_of_pos (by decide), dropWhile_of_head hhead,
      sscanf, scan, scanHex_append hdigits hne hothers]
    rfl
  have hend : ∀ byte ∈ (9 :: ((printedHex 8 route.mask.toNat).take (left + 1) ++ rest)).head?,
      isSpace byte := by
    rintro _ ⟨⟩
    rfl
  obtain ⟨mask, hmask⟩ := hmask
  refine ⟨inetNtop (.ofNat mask.toNat), ?_⟩
  rw [route.bytes_eq, Nat.add_assoc, List.take_length_add_append, List.take_append, hrest,
    route.front_eq, List.append_assoc, List.singleton_append, routeFormat_eq route,
    sscanf_segments (route.readable_segments hend), hmask, netInfo.add_values]

theorem KernelRoute.le_of_mem_columns {route : KernelRoute} {column : List UInt8} {byte : UInt8}
    (hcolumn : column ∈ route.columns) (h : byte ∈ column) : 45 ≤ byte.toNat := by
  have hhex : ∀ width number, byte ∈ printedHex width number → 45 ≤ byte.toNat :=
    fun width number hmem ↦
      le_trans (by decide) (range_of_upperHex (upperHex_of_mem_printedHex hmem)).1
  simp only [columns, List.mem_cons, List.not_mem_nil, or_false] at hcolumn
  rcases hcolumn with rfl | rfl | rfl | rfl | rfl | rfl | rfl | rfl | rfl | rfl
  all_goals first | exact hhex _ _ h | exact le_of_mem_bytes_ofInt h

theorem KernelRoute.bytes_clean (route : KernelRoute) :
    ∀ byte ∈ route.bytes, byte ≠ 10 ∧ byte ≠ 0 := by
  intro byte hbyte
  have hlow : ∀ other : UInt8, other.toNat < 45 → 45 ≤ byte.toNat → byte ≠ other := by
    rintro other hother hle rfl
    omega
  rcases List.mem_append.1 hbyte with htext | hfill
  · rcases List.mem_append.1 htext with hname | hcolumns
    · constructor
      · rintro rfl
        exact route.clean 10 hname (by decide)
      · rintro rfl
        exact route.interface.noNul hname
    · obtain ⟨column, hcolumn, hmem⟩ := List.mem_flatMap.1 hcolumns
      rcases List.mem_cons.1 hmem with rfl | hinside
      · decide
      · have hle := le_of_mem_columns hcolumn hinside
        exact ⟨hlow 10 (by decide) hle, hlow 0 (by decide) hle⟩
  · rw [List.eq_of_mem_replicate hfill]
    decide

/-! ## The table -/

/-- The gateway that the last route with destination 0 leaves. -/
def lastGateway (routes : List KernelRoute) (before : CString) : CString :=
  ((routes.filter fun route ↦ decide (route.destination = 0)).getLast?.map fun route ↦
    inetNtop route.gateway).getD before

theorem lastGateway_cons (route : KernelRoute) (rest : List KernelRoute) (before : CString) :
    lastGateway (route :: rest) before =
      lastGateway rest
        (if route.destination = 0 then inetNtop route.gateway else before) := by
  unfold lastGateway
  rw [List.filter_cons]
  by_cases hzero : route.destination = 0
  · rw [if_pos hzero, if_pos (decide_eq_true hzero), List.getLast?_cons]
    cases (rest.filter fun route ↦ decide (route.destination = 0)).getLast? <;> rfl
  · rw [if_neg hzero, if_neg (by simpa using hzero)]

/-- Some routes have been recorded, and the marks and the default gateway are those that they
leave. -/
structure Records (before : RouteInfo) (routes : List KernelRoute) (after : RouteInfo) : Prop where
  marks : after.routes.map Route.isDefault = before.routes.map Route.isDefault ++
    routes.map fun route ↦ decide (route.destination = 0)
  gateway : after.defaultGateway = lastGateway routes before.defaultGateway

theorem records_nil (netInfo : RouteInfo) : Records netInfo [] netInfo :=
  ⟨(List.append_nil _).symm, rfl⟩

theorem Records.cons {before after : RouteInfo} {route : KernelRoute} {netmask : CString}
    {rest : List KernelRoute} (h : Records (before.record route netmask) rest after) :
    Records before (route :: rest) after where
  marks := by
    rw [h.marks, RouteInfo.record, List.map_append, List.append_assoc]
    rfl
  gateway := by
    rw [h.gateway, lastGateway_cons]
    rfl

/-- The lines up to the limit hold a digit of the mask of every route. -/
def MasksBefore (limit : ℕ) (routes : List KernelRoute) : Prop :=
  ∀ place, ∀ route ∈ routes[place]?,
    (terminated 10 ((routes.take place).map KernelRoute.bytes)).length + route.front.length < limit

theorem masksBefore_nil (limit : ℕ) : MasksBefore limit [] := by
  intro place route hroute
  simp at hroute

theorem length_front_lt (route : KernelRoute) : route.front.length < route.bytes.length := by
  have hne : printedHex 8 route.mask.toNat ≠ [] := printedHex_ne_nil (by decide) _
  have hpos := List.length_pos_of_ne_nil hne
  rw [route.bytes_eq, List.length_append, List.length_append]
  omega

/-- Behind a whole line, the others have the room that it leaves. -/
theorem masksBefore_whole (route : KernelRoute) (rest : List KernelRoute) (left : ℕ) :
    MasksBefore (route.bytes.length + 1 + left) (route :: rest) ↔ MasksBefore left rest := by
  constructor
  · intro h place other hother
    have hplace := h (place + 1) other hother
    rw [List.take_succ_cons, List.map_cons, length_terminated_cons] at hplace
    omega
  · intro h place other hother
    cases place with
    | zero =>
      obtain rfl : route = other := Option.some.inj hother
      have hlt := length_front_lt route
      show 0 + _ < _
      omega
    | succ place =>
      have hplace := h place other hother
      rw [List.take_succ_cons, List.map_cons, length_terminated_cons]
      omega

/-- The line in which the table is cut is the last one. -/
theorem masksBefore_cut {limit : ℕ} {route : KernelRoute} (hlimit : limit ≤ route.bytes.length)
    (rest : List KernelRoute) :
    MasksBefore limit (route :: rest) ↔ route.front.length < limit ∧ rest = [] := by
  constructor
  · intro h
    have hfirst := h 0 route rfl
    refine ⟨by simpa [terminated] using hfirst, ?_⟩
    cases rest with
    | nil => rfl
    | cons other rest =>
      have hsecond := h 1 other rfl
      rw [List.take_succ_cons, List.map_cons, length_terminated_cons] at hsecond
      omega
  · rintro ⟨hfront, rfl⟩ place other hother
    cases place with
    | zero =>
      obtain rfl : route = other := Option.some.inj hother
      simpa [terminated] using hfront
    | succ place => simp at hother

theorem routeLoop_nil (netInfo : RouteInfo) : routeLoop netInfo [] = netInfo := by
  unfold routeLoop
  rfl

/-- A line of the table, or a part of it. -/
theorem routeLoop_cons {netInfo : RouteInfo} (hroom : netInfo.routes.length < maxRoutes)
    (route : KernelRoute) (limit : ℕ) (rest : List CString) :
    routeLoop netInfo (ofBuffer (route.bytes.take limit) :: rest) =
      routeLoop (netInfo.add (sscanf routeFormat (route.bytes.take limit))) rest := by
  have hnoNul : 0 ∉ route.bytes.take limit := fun hmem ↦
    (route.bytes_clean 0 (List.mem_of_mem_take hmem)).2 rfl
  rw [routeLoop, if_pos hroom, bytes_ofBuffer_of_notMem hnoNul]

/-- Nothing comes behind the line in which the table is cut. -/
theorem routeLoop_cut {netInfo : RouteInfo} (hroom : netInfo.routes.length < maxRoutes)
    {route : KernelRoute} {limit : ℕ} (hcut : limit ≤ route.bytes.length)
    (others : List (List UInt8)) :
    routeLoop netInfo ((cut limit (route.bytes :: others)).map ofBuffer) =
      netInfo.add (sscanf routeFormat (route.bytes.take limit)) := by
  cases limit with
  | zero => rw [cut_zero, List.map_nil, routeLoop_nil, RouteInfo.add_take_of_le (Nat.zero_le _)]
  | succ last =>
    rw [cut, if_pos (Nat.lt_of_succ_le hcut), List.map_singleton, routeLoop_cons hroom,
      routeLoop_nil]

/-- The loop records the first routes of a table that is cut, and all of them exactly if the limit
leaves a digit of every mask. -/
theorem exists_records_routeLoop {netInfo : RouteInfo} {routes : List KernelRoute}
    (h : netInfo.routes.length + routes.length ≤ maxRoutes) (limit : ℕ) :
    ∃ count ≤ routes.length, (count = routes.length ↔ MasksBefore limit routes) ∧
      Records netInfo (routes.take count)
        (routeLoop netInfo ((cut limit (routes.map KernelRoute.bytes)).map ofBuffer)) := by
  induction routes generalizing netInfo limit with
  | nil =>
    refine ⟨0, le_rfl, iff_of_true rfl (masksBefore_nil limit), ?_⟩
    rw [List.map_nil, cut_nil]
    exact records_nil netInfo
  | cons route rest ih =>
    rw [List.length_cons] at h
    have hroom : netInfo.routes.length < maxRoutes := by omega
    rw [List.map_cons]
    rcases Nat.lt_or_ge route.bytes.length limit with hwhole | hcut
    · obtain ⟨left, rfl⟩ := Nat.exists_eq_add_of_lt hwhole
      obtain ⟨netmask, hadd⟩ := netInfo.exists_add_take (length_front_lt route)
      have hnext : (netInfo.record route netmask).routes.length + rest.length ≤ maxRoutes := by
        rw [RouteInfo.record, List.length_append, List.length_singleton]
        omega
      obtain ⟨count, hcount, hiff, hrecords⟩ := ih hnext left
      have hlines : cut (route.bytes.length + left + 1)
          (route.bytes :: rest.map KernelRoute.bytes) =
            route.bytes :: cut left (rest.map KernelRoute.bytes) := by
        rw [cut, if_neg (by omega), Nat.add_sub_cancel_left]
      have hfirst := routeLoop_cons hroom route route.bytes.length
      rw [hadd, List.take_length] at hfirst
      refine ⟨count + 1, Nat.succ_le_succ hcount, ?_, ?_⟩
      · rw [Nat.add_right_comm, masksBefore_whole, ← hiff, List.length_cons, Nat.succ_inj]
      · rw [hlines, List.map_cons, hfirst, List.take_succ_cons]
        exact hrecords.cons
    · rw [routeLoop_cut hroom hcut, masksBefore_cut hcut]
      rcases Nat.lt_or_ge route.front.length limit with hmask | hmask
      · obtain ⟨netmask, hadd⟩ := netInfo.exists_add_take hmask
        refine ⟨1, by simp, ?_, ?_⟩
        · rw [List.length_cons, eq_comm, Nat.succ_inj, List.length_eq_zero_iff]
          exact ⟨fun hnil ↦ ⟨hmask, hnil⟩, And.right⟩
        · rw [hadd]
          exact (records_nil _).cons
      · refine ⟨0, Nat.zero_le _, iff_of_false (by simp) fun hinside ↦ ?_, ?_⟩
        · exact absurd hinside.1 (Nat.not_lt.2 hmask)
        · rw [RouteInfo.add_take_of_le hmask]
          exact records_nil netInfo

theorem routeLines_clean (routes : List KernelRoute) :
    ∀ line ∈ routeHeader :: routes.map KernelRoute.bytes, CleanLine line := by
  rw [List.forall_mem_cons]
  constructor
  · have hheader : routeHeader ≠ [] ∧ 10 ∉ routeHeader ∧ 0 ∉ routeHeader := by decide +kernel
    exact hheader
  · rw [List.forall_mem_map]
    intro route _
    refine ⟨?_, fun hmem ↦ (route.bytes_clean 10 hmem).1 rfl,
      fun hmem ↦ (route.bytes_clean 0 hmem).2 rfl⟩
    rw [route.bytes_eq]
    exact List.append_ne_nil_of_right_ne_nil _
      (List.append_ne_nil_of_left_ne_nil (printedHex_ne_nil (by decide) _) _)

theorem length_routeHeader : routeHeader.length = 127 := by decide +kernel

theorem masksInside_iff {count : ℕ} (routes : List KernelRoute) :
    MasksInside count routes ↔ MasksBefore (count - 128) routes := by
  refine forall_congr' fun place ↦ forall₂_congr fun route _ ↦ ?_
  rw [routeFile, length_terminated_cons, length_routeHeader]
  omega

/-- A scan records the first routes of a table, and all of them exactly if what `read` delivers has
a digit of every mask. -/
theorem exists_records_scanRoutingTable {buffer : List UInt8} (hbuffer : 8192 ≤ buffer.length)
    {routes : List KernelRoute} (hroutes : routes.length ≤ maxRoutes) {count : ℕ}
    (hread : (FileRead.delivered (routeFile routes) count).Documented 8191) (netInfo : RouteInfo) :
    ∃ first ≤ routes.length, (first = routes.length ↔ MasksInside count routes) ∧
      Records { netInfo with routes := [] } (routes.take first)
        (scanRoutingTable netInfo buffer (.delivered (routeFile routes) count)) := by
  obtain ⟨hcontent, hlimit, hzero⟩ := hread
  have hpos : 0 < count := by
    refine Nat.pos_of_ne_zero fun hnone ↦ ?_
    have hempty := (hzero hnone).resolve_right (by decide)
    rw [routeFile, terminated_cons] at hempty
    exact absurd hempty (by simp)
  obtain ⟨text, htext, htokens⟩ := tokens_readText (by decide) hbuffer
    (routeLines_clean routes) hpos (Nat.lt_succ_of_le hlimit) hcontent
  have hlines : (tokens text 10).drop 1 =
      (cut (count - 128) (routes.map KernelRoute.bytes)).map ofBuffer := by
    obtain ⟨last, rfl⟩ := Nat.exists_eq_add_one_of_ne_zero hpos.ne'
    rw [htokens, cut, length_routeHeader]
    split_ifs with hcut
    · rw [show last + 1 - 128 = 0 by omega, cut_zero]
      rfl
    · rw [show last + 1 - 128 = last - 127 by omega]
      rfl
  have hscan : scanRoutingTable netInfo buffer (.delivered (routeFile routes) count) =
      routeLoop { netInfo with routes := [] }
        ((cut (count - 128) (routes.map KernelRoute.bytes)).map ofBuffer) := by
    rw [← hlines, scanRoutingTable, routeFile, htext]
  rw [hscan, masksInside_iff]
  exact exists_records_routeLoop (by simpa using hroutes) (count - 128)

theorem marked_iff (routes : List KernelRoute) :
    (routes.map fun route ↦ decide (route.destination = 0)) =
        routes.map (fun route ↦ decide route.IsDefault) ↔
      ∀ route ∈ routes, route.destination = 0 → route.mask = 0 := by
  rw [List.map_inj_left]
  refine forall₂_congr fun route _ ↦ ?_
  rw [decide_eq_decide, KernelRoute.IsDefault]
  tauto

/-- All routes have been recorded. -/
theorem selectsGateway_iff_of_records {netInfo after : RouteInfo} {routes : List KernelRoute}
    (h : Records { netInfo with routes := [] } routes after) :
    SelectsGateway routes after ↔ LastIsBest netInfo routes := by
  have hsame : (∀ route ∈ routes, route.destination = 0 → route.mask = 0) →
      (routes.filter fun route ↦ decide (route.destination = 0)) =
        routes.filter fun route ↦ decide route.IsDefault := by
    intro hmask
    refine List.filter_congr fun route hmem ↦ ?_
    rw [decide_eq_decide]
    exact ⟨fun hzero ↦ ⟨hzero, hmask route hmem hzero⟩, And.left⟩
  have hempty : (∀ route ∈ routes, ¬route.IsDefault) →
      (routes.filter fun route ↦ decide route.IsDefault) = [] := fun habsent ↦
    List.filter_eq_nil_iff.2 fun route hmem ↦ by simpa using habsent route hmem
  have hgateway := h.gateway
  have hmarks : after.routes.map Route.isDefault =
      routes.map fun route ↦ decide (route.destination = 0) := h.marks
  unfold lastGateway at hgateway
  constructor
  · rintro ⟨hmarked, hselected, hnone⟩
    rw [hmarks] at hmarked
    have hmask := (marked_iff routes).1 hmarked
    rw [hgateway, hsame hmask] at hselected hnone
    refine ⟨hmask, fun last hlast ↦ ?_, fun habsent ↦ ?_⟩
    · rw [hlast] at hselected
      have hmem := List.mem_filter.1 (List.mem_of_getLast? hlast)
      obtain ⟨route, hbest, hgateway⟩ := hselected ⟨last, hmem.1, of_decide_eq_true hmem.2⟩
      exact ⟨route, hbest, (inetNtop_injective hgateway).symm⟩
    · rw [hempty habsent] at hnone
      exact hnone habsent
  · rintro ⟨hmask, hlast, hcleared⟩
    refine ⟨hmarks.trans ((marked_iff routes).2 hmask), ?_, ?_⟩
    · rintro ⟨some, hmem, hdefault⟩
      have hne : (routes.filter fun route ↦ decide route.IsDefault) ≠ [] :=
        List.ne_nil_of_mem (List.mem_filter.2 ⟨hmem, decide_eq_true hdefault⟩)
      have hend := List.getLast?_eq_some_getLast hne
      obtain ⟨route, hbest, hsameGateway⟩ := hlast _ hend
      refine ⟨route, hbest, ?_⟩
      rw [hgateway, hsame hmask, hend, hsameGateway]
      rfl
    · intro habsent
      rw [hgateway, hsame hmask, hempty habsent]
      exact hcleared habsent

/-- A scan selects the gateway of a default route with the least metric and marks the default
routes exactly when what `read` delivers has a digit of every mask, every route with destination 0
has mask 0, the last default route has such a gateway, and without a default route there was no
default gateway before. -/
theorem selectsGateway_iff {buffer : List UInt8} (hbuffer : 8192 ≤ buffer.length)
    {routes : List KernelRoute} (hroutes : routes.length ≤ maxRoutes) {count : ℕ}
    (hread : (FileRead.delivered (routeFile routes) count).Documented 8191) (netInfo : RouteInfo) :
    SelectsGateway routes
        (scanRoutingTable netInfo buffer (.delivered (routeFile routes) count)) ↔
      MasksInside count routes ∧ LastIsBest netInfo routes := by
  obtain ⟨first, hfirst, hall, hrecords⟩ :=
    exists_records_scanRoutingTable hbuffer hroutes hread netInfo
  rw [← hall]
  rcases Nat.eq_or_lt_of_le hfirst with rfl | hfew
  · rw [List.take_length] at hrecords
    rw [selectsGateway_iff_of_records hrecords]
    exact ⟨fun h ↦ ⟨rfl, h⟩, And.right⟩
  · refine iff_of_false (fun h ↦ ?_) fun h ↦ absurd h.1 hfew.ne
    have hlengths := congrArg List.length (hrecords.marks.symm.trans h.marked)
    simp at hlengths
    omega

def defaultVia (interface : CString) (gateway metric : UInt32) (hpos : 0 < interface.length)
    (hle : interface.length ≤ 15) (hclean : ∀ byte ∈ interface.bytes, ¬isSpace byte) :
    KernelRoute where
  interface := interface
  destination := 0
  gateway := gateway
  flags := 3
  refcnt := 0
  use := 0
  metric := metric
  mask := 0
  mtu := 0
  window := 0
  irtt := 0
  length_pos := hpos
  length_le := hle
  clean := hclean

/-- A default route over 192.168.1.1, with metric 100. -/
def wiredDefault : KernelRoute :=
  defaultVia (ofText "eno1") 16885952 100 (by decide) (by decide) (by decide +kernel)

/-- A default route over 192.168.2.1, with metric 600. -/
def wirelessDefault : KernelRoute :=
  defaultVia (ofText "wlan0") 16951488 600 (by decide) (by decide) (by decide +kernel)

theorem documented_routeFile_two :
    (FileRead.delivered (routeFile [wiredDefault, wirelessDefault]) 384).Documented 8191 :=
  ⟨by decide +kernel, by decide, by simp⟩

/-- The kernel delivers the header and both routes. -/
theorem selectsGateway_two :
    SelectsGateway [wiredDefault, wirelessDefault] (scanRoutingTable ⟨[], empty⟩
        (List.replicate 8192 0) (.delivered (routeFile [wiredDefault, wirelessDefault]) 384)) ↔
      MasksInside 384 [wiredDefault, wirelessDefault] ∧
        LastIsBest ⟨[], empty⟩ [wiredDefault, wirelessDefault] :=
  selectsGateway_iff (by rw [List.length_replicate]) (by decide) documented_routeFile_two
    ⟨[], empty⟩

/-- The last default route is taken, although the first one has the smaller metric. -/
theorem two_not_selectsGateway :
    ¬SelectsGateway [wiredDefault, wirelessDefault] (scanRoutingTable ⟨[], empty⟩
      (List.replicate 8192 0) (.delivered (routeFile [wiredDefault, wirelessDefault]) 384)) := by
  have hbuffer : 8192 ≤ (List.replicate 8192 (0 : UInt8)).length := by rw [List.length_replicate]
  obtain ⟨first, -, hall, hrecords⟩ := exists_records_scanRoutingTable hbuffer
    (by decide : [wiredDefault, wirelessDefault].length ≤ maxRoutes) documented_routeFile_two
    ⟨[], empty⟩
  have hinside : MasksInside 384 [wiredDefault, wirelessDefault] := by
    rintro (_ | _ | place) route hroute
    · cases hroute
      decide +kernel
    · cases hroute
      decide +kernel
    · cases hroute
  rw [hall.2 hinside] at hrecords
  rintro ⟨-, hselected, -⟩
  obtain ⟨route, ⟨hmem, -, hleast⟩, hgateway⟩ :=
    hselected ⟨wiredDefault, List.mem_cons_self, by decide⟩
  have hmetric : route.metric ≤ 100 := hleast wiredDefault List.mem_cons_self (by decide)
  have htaken : inetNtop 16951488 = inetNtop route.gateway := hrecords.gateway.symm.trans hgateway
  rcases List.mem_cons.1 hmem with rfl | hmem
  · exact absurd (inetNtop_injective htaken) (by decide)
  · rw [List.mem_singleton.1 hmem] at hmetric
    exact absurd hmetric (by decide)

end HiFetch.Network
