import HiFetch.Network.Counters
import HiFetch.Utils.StringBetween

/-!
# Wireless fields

`get_wireless_info` looks for three fields in the text that `iwconfig` prints.  It ends the name of
the network with a NUL, in the text itself, and looks for the other fields after that, so it finds
them only in front of the end of the name.

The pointer to the text is the result of `execute_cmd`, which is not declared, so the text is found
only if its address fits into an `int`.
-/

namespace HiFetch.Network

open CString Scanf Search Utils

namespace NetworkInterface

/-- The name of the network is copied after a NUL has replaced the quote behind it. -/
def storeEssid (iface : NetworkInterface) (output : CString) : NetworkInterface × CString :=
  match strstr output (ofText "ESSID:") with
  | none => (iface, output)
  | some place =>
      let essidStart := place + 6
      if output.bytes.getD essidStart 0 = 34 then
        let essidStart := essidStart + 1
        match find [34] (output.bytes.drop essidStart) with
        | none => (iface, output)
        | some len =>
            let output := output.take (essidStart + len)
            ({ iface with wirelessEssid := output.drop essidStart }, output)
      else (iface, output)

def storeSignal (iface : NetworkInterface) (output : CString) : NetworkInterface :=
  match strstr output (ofText "Signal level=") with
  | none => iface
  | some place => { iface with wirelessSignal := (output.drop (place + 13)).atoi }

def storeFrequency (iface : NetworkInterface) (output : CString) : NetworkInterface :=
  match strstr output (ofText "Frequency:") with
  | none => iface
  | some place => { iface with wirelessFrequency := (output.drop (place + 10)).atof }

/-- The three fields, from the text that `iwconfig` prints. -/
def storeFields (iface : NetworkInterface) (output : CString) : NetworkInterface :=
  let (iface, output) := iface.storeEssid output
  (iface.storeSignal output).storeFrequency output

/-- `get_wireless_info`, for an interface that is wireless if `stat` finds its directory.  `run`
gives what `execute_cmd` returns.  An access through a pointer that has lost its upper half gives
nothing. -/
def getWirelessInfo (iface : NetworkInterface) (isWireless : Bool)
    (run : CString → Option CmdOutput) : Option NetworkInterface :=
  let iface := { iface with isWireless := isWireless }
  match (Network.getWirelessInfo isWireless iface.name).bind run with
  | none => some iface
  | some output =>
      if output.pointer = 0 then some iface
      else if output.pointer = output.address then some (iface.storeFields output.text)
      else none

end NetworkInterface

/-! ## The law -/

/-- A text with the three fields, the marker of each of them once. -/
structure IwconfigOutput where
  text : CString
  essid : CString
  essidFront : List UInt8
  essidBack : List UInt8
  essid_once : Once (ofText "ESSID:").bytes text.bytes essidFront
    (34 :: (essid.bytes ++ 34 :: essidBack))
  essid_noQuote : 34 ∉ essid.bytes
  essid_length : essid.length ≤ 63
  signal : ℤ
  signalFront : List UInt8
  signalBack : List UInt8
  signal_once : Once (ofText "Signal level=").bytes text.bytes signalFront
    ((ofInt signal).bytes ++ signalBack)
  signal_ends : ∀ byte ∈ signalBack.head?, ¬isDigit byte
  frequency : Decimal
  frequencyFront : List UInt8
  frequencyBack : List UInt8
  frequency_once : Once (ofText "Frequency:").bytes text.bytes frequencyFront
    (frequency.bytes ++ frequencyBack)
  frequency_ends : Decimal.Ends frequencyBack

/-- The place of the quote behind the name. -/
def IwconfigOutput.quote (output : IwconfigOutput) : ℕ :=
  output.essidFront.length + (7 + output.essid.length)

/-- The three fields are stored, each as if it was the only one that is extracted. -/
structure ExtractsFields (output : IwconfigOutput) (before after : NetworkInterface) : Prop where
  essid : after.wirelessEssid = output.essid
  essid_alone : after.wirelessEssid = (before.storeEssid output.text).1.wirelessEssid
  signal : after.wirelessSignal = output.signal
  signal_alone : after.wirelessSignal = (before.storeSignal output.text).wirelessSignal
  frequency : after.wirelessFrequency = output.frequency.value
  frequency_alone :
    after.wirelessFrequency = (before.storeFrequency output.text).wirelessFrequency

/-- The signal level fits into an `int`, and it and the frequency stand in front of the quote behind
the name, unless the interface has them already. -/
structure FieldsInFront (output : IwconfigOutput) (before : NetworkInterface) : Prop where
  signal_fits : -2 ^ 31 ≤ output.signal ∧ output.signal < 2 ^ 31
  signal : output.signalFront.length < output.quote ∨ before.wirelessSignal = output.signal
  frequency : output.frequencyFront.length < output.quote ∨
    before.wirelessFrequency = output.frequency.value

/-- The interface has all three fields already. -/
structure FieldsStored (output : IwconfigOutput) (before : NetworkInterface) : Prop where
  essid : before.wirelessEssid = output.essid
  signal_fits : -2 ^ 31 ≤ output.signal ∧ output.signal < 2 ^ 31
  signal : before.wirelessSignal = output.signal
  frequency : before.wirelessFrequency = output.frequency.value

/-- The pointer to the text is whole, and the fields stand in front of the end of the name; or it
is cut to NULL, and nothing is left to store. -/
def FieldsFound (result : CmdOutput) (output : IwconfigOutput) (before : NetworkInterface) : Prop :=
  result.pointer = result.address ∧ FieldsInFront output before ∨
    result.pointer = 0 ∧ FieldsStored output before

/-! ## One field -/

namespace IwconfigOutput

variable (output : IwconfigOutput)

def beforeEssid : List UInt8 := output.essidFront ++ ((ofText "ESSID:").bytes ++ [34])

theorem length_beforeEssid : output.beforeEssid.length = output.essidFront.length + 6 + 1 := by
  rw [beforeEssid, List.length_append]
  rfl

theorem bytes_text : output.text.bytes =
    output.beforeEssid ++ (output.essid.bytes ++ 34 :: output.essidBack) := by
  rw [output.essid_once.list_eq, beforeEssid]
  simp only [List.append_assoc, List.singleton_append]

theorem quote_eq : output.quote = output.beforeEssid.length + output.essid.bytes.length := by
  rw [quote, length_beforeEssid, CString.length]
  omega

theorem getElem?_quote : output.text.bytes[output.quote]? = some 34 := by
  rw [output.bytes_text, output.quote_eq, ← List.append_assoc, ← List.length_append,
    List.getElem?_append_right le_rfl, Nat.sub_self]
  rfl

/-- The name, and the text in front of the quote behind it. -/
theorem storeEssid_eq (iface : NetworkInterface) :
    iface.storeEssid output.text =
      ({ iface with wirelessEssid := output.essid }, output.text.take output.quote) := by
  have hfind : strstr output.text (ofText "ESSID:") = some output.essidFront.length :=
    output.essid_once.find_eq
  have hopen : output.text.bytes.getD (output.essidFront.length + 6) 0 = 34 := by
    have hkey : output.essidFront.length + 6 =
        (output.essidFront ++ (ofText "ESSID:").bytes).length := by
      rw [List.length_append]
      rfl
    rw [output.essid_once.list_eq, hkey, ← List.append_assoc, List.getD_eq_getElem?_getD,
      List.getElem?_append_right le_rfl, Nat.sub_self]
    rfl
  have hdrop : output.text.bytes.drop (output.essidFront.length + 6 + 1) =
      output.essid.bytes ++ 34 :: output.essidBack := by
    rw [output.bytes_text, ← output.length_beforeEssid, List.drop_left]
  have hclose : find [34] (output.essid.bytes ++ 34 :: output.essidBack) =
      some output.essid.bytes.length := by
    have hmem : 34 ∈ output.essid.bytes ++ 34 :: output.essidBack := by simp
    have hname : output.essid.bytes.takeWhile (fun byte ↦ decide (byte ≠ 34)) =
        output.essid.bytes := by
      rw [List.takeWhile_eq_self_iff]
      exact fun byte hbyte ↦ decide_eq_true fun heq ↦ output.essid_noQuote (heq ▸ hbyte)
    rw [find_singleton_of_mem hmem, takeWhile_append_cons (by decide), hname]
  have hquote : output.essidFront.length + 6 + 1 + output.essid.bytes.length = output.quote := by
    rw [output.quote_eq, length_beforeEssid]
  have hessid : (output.text.take output.quote).drop (output.essidFront.length + 6 + 1) =
      output.essid := by
    ext1
    show (output.text.bytes.take output.quote).drop (output.essidFront.length + 6 + 1) =
      output.essid.bytes
    rw [output.bytes_text, output.quote_eq, List.take_length_add_append,
      List.take_left, ← output.length_beforeEssid, List.drop_left]
  unfold NetworkInterface.storeEssid
  rw [hfind]
  dsimp only
  rw [if_pos hopen, hdrop, hclose]
  dsimp only
  rw [hquote, hessid]

end IwconfigOutput

theorem storeSignal_once (iface : NetworkInterface) {text : CString} {signal : ℤ}
    {front back : List UInt8}
    (h : Once (ofText "Signal level=").bytes text.bytes front ((ofInt signal).bytes ++ back))
    (hends : ∀ byte ∈ back.head?, ¬isDigit byte) :
    (iface.storeSignal text).wirelessSignal =
      (max (-2 ^ 63) (min (2 ^ 63 - 1) signal)).bmod (2 ^ 32) := by
  have hfind : strstr text (ofText "Signal level=") = some front.length := h.find_eq
  have hdrop : (text.drop (front.length + 13)).bytes = (ofInt signal).bytes ++ back := h.drop_eq
  have hscan := scanInteger_printed signal hends
  rw [← hdrop] at hscan
  unfold NetworkInterface.storeSignal
  rw [hfind]
  dsimp only
  rw [atoi, strtol_of_scanInteger hscan]

theorem storeFrequency_once (iface : NetworkInterface) {text : CString} {frequency : Decimal}
    {front back : List UInt8}
    (h : Once (ofText "Frequency:").bytes text.bytes front (frequency.bytes ++ back))
    (hends : Decimal.Ends back) :
    (iface.storeFrequency text).wirelessFrequency = frequency.value := by
  have hfind : strstr text (ofText "Frequency:") = some front.length := h.find_eq
  have hdrop : (text.drop (front.length + 10)).bytes = [] ++ (frequency.bytes ++ back) := h.drop_eq
  have hblanks : ∀ byte ∈ ([] : List UInt8), isSpace byte := fun _ hmem ↦ nomatch hmem
  unfold NetworkInterface.storeFrequency
  rw [hfind]
  dsimp only
  rw [frequency.atof_bytes hblanks hends hdrop]

theorem storeSignal_none (iface : NetworkInterface) {text : CString}
    (h : strstr text (ofText "Signal level=") = none) : iface.storeSignal text = iface := by
  unfold NetworkInterface.storeSignal
  rw [h]

theorem storeFrequency_none (iface : NetworkInterface) {text : CString}
    (h : strstr text (ofText "Frequency:") = none) : iface.storeFrequency text = iface := by
  unfold NetworkInterface.storeFrequency
  rw [h]

/-! ## The fields behind the name -/

/-- A field is read from the text that is left if its marker is there, and else it is kept. -/
theorem kept_or_read_iff {α : Type*} {inFront : Prop} {old left whole value : α}
    (hfront : inFront → left = whole) (hbehind : ¬inFront → left = old) :
    left = value ∧ left = whole ↔ whole = value ∧ (inFront ∨ old = value) := by
  by_cases hplace : inFront
  · rw [hfront hplace, and_iff_left rfl]
    exact (and_iff_left (.inl hplace)).symm
  · rw [hbehind hplace, or_iff_right hplace]
    constructor
    · rintro ⟨rfl, rfl⟩
      exact ⟨rfl, rfl⟩
    · rintro ⟨rfl, rfl⟩
      exact ⟨rfl, rfl⟩

theorem bmod_long_iff (signal : ℤ) :
    (max (-2 ^ 63) (min (2 ^ 63 - 1) signal)).bmod (2 ^ 32) = signal ↔
      -2 ^ 31 ≤ signal ∧ signal < 2 ^ 31 := by
  rw [Int.bmod_def]
  split_ifs <;> omega

namespace IwconfigOutput

variable (output : IwconfigOutput)

theorem signal_iff {iface before : NetworkInterface}
    (hsame : iface.wirelessSignal = before.wirelessSignal) :
    (iface.storeSignal (output.text.take output.quote)).wirelessSignal = output.signal ∧
        (iface.storeSignal (output.text.take output.quote)).wirelessSignal =
          (before.storeSignal output.text).wirelessSignal ↔
      (-2 ^ 31 ≤ output.signal ∧ output.signal < 2 ^ 31) ∧
        (output.signalFront.length < output.quote ∨ before.wirelessSignal = output.signal) := by
  have hwhole := storeSignal_once before output.signal_once output.signal_ends
  have hkey : 34 ∉ (ofText "Signal level=").bytes := by decide
  have hnumber : 34 ∉ (ofInt output.signal).bytes := fun hmem ↦
    absurd (le_of_mem_bytes_ofInt hmem) (by decide)
  rw [← bmod_long_iff, ← hwhole]
  apply kept_or_read_iff
  · intro hfront
    obtain ⟨count, hcut⟩ :=
      output.signal_once.take_of_notMem output.getElem?_quote hkey hnumber hfront.le
    have hends : ∀ byte ∈ (output.signalBack.take count).head?, ¬isDigit byte := fun byte hbyte ↦
      output.signal_ends byte (mem_head?_take hbyte)
    rw [storeSignal_once iface hcut hends, hwhole]
  · intro hbehind
    have hnone : strstr (output.text.take output.quote) (ofText "Signal level=") = none := by
      apply output.signal_once.find_take
      have hpos : 0 < (ofText "Signal level=").bytes.length := by decide
      omega
    rw [storeSignal_none iface hnone, hsame]

theorem frequency_iff {iface before : NetworkInterface}
    (hsame : iface.wirelessFrequency = before.wirelessFrequency) :
    (iface.storeFrequency (output.text.take output.quote)).wirelessFrequency =
          output.frequency.value ∧
        (iface.storeFrequency (output.text.take output.quote)).wirelessFrequency =
          (before.storeFrequency output.text).wirelessFrequency ↔
      output.frequencyFront.length < output.quote ∨
        before.wirelessFrequency = output.frequency.value := by
  have hwhole := storeFrequency_once before output.frequency_once output.frequency_ends
  have hkey : 34 ∉ (ofText "Frequency:").bytes := by decide
  have hnumber : 34 ∉ output.frequency.bytes := fun hmem ↦
    absurd (output.frequency.range_of_mem_bytes hmem).1 (by decide)
  refine Iff.trans (kept_or_read_iff ?_ ?_) (and_iff_right hwhole)
  · intro hfront
    obtain ⟨count, hcut⟩ := output.frequency_once.take_of_notMem output.getElem?_quote hkey hnumber
      hfront.le
    have hends : Decimal.Ends (output.frequencyBack.take count) := fun byte hbyte ↦
      output.frequency_ends byte (mem_head?_take hbyte)
    rw [storeFrequency_once iface hcut hends, hwhole]
  · intro hbehind
    have hnone : strstr (output.text.take output.quote) (ofText "Frequency:") = none := by
      apply output.frequency_once.find_take
      have hpos : 0 < (ofText "Frequency:").bytes.length := by decide
      omega
    rw [storeFrequency_none iface hnone, hsame]

end IwconfigOutput

theorem storeSignal_frame (iface : NetworkInterface) (text : CString) :
    (iface.storeSignal text).wirelessEssid = iface.wirelessEssid ∧
      (iface.storeSignal text).wirelessFrequency = iface.wirelessFrequency := by
  unfold NetworkInterface.storeSignal
  split <;> exact ⟨rfl, rfl⟩

theorem storeFrequency_frame (iface : NetworkInterface) (text : CString) :
    (iface.storeFrequency text).wirelessEssid = iface.wirelessEssid ∧
      (iface.storeFrequency text).wirelessSignal = iface.wirelessSignal := by
  unfold NetworkInterface.storeFrequency
  split <;> exact ⟨rfl, rfl⟩

/-- The text is found. -/
theorem extractsFields_text_iff (iface : NetworkInterface) (output : IwconfigOutput) :
    ExtractsFields output iface
        (({ iface with isWireless := true } : NetworkInterface).storeFields output.text) ↔
      FieldsInFront output iface := by
  rw [NetworkInterface.storeFields, output.storeEssid_eq]
  let named : NetworkInterface :=
    { iface with isWireless := true, wirelessEssid := output.essid }
  let text := output.text.take output.quote
  show ExtractsFields output iface ((named.storeSignal text).storeFrequency text) ↔ _
  generalize hafter : (named.storeSignal text).storeFrequency text = after
  have hessid : after.wirelessEssid = output.essid := by
    rw [← hafter, (storeFrequency_frame _ _).1, (storeSignal_frame _ _).1]
  have hsignal : after.wirelessSignal = (named.storeSignal text).wirelessSignal := by
    rw [← hafter, (storeFrequency_frame _ _).2]
  have hessidAlone : (iface.storeEssid output.text).1.wirelessEssid = output.essid := by
    rw [output.storeEssid_eq]
  have hsameSignal : named.wirelessSignal = iface.wirelessSignal := rfl
  have hsameFrequency : (named.storeSignal text).wirelessFrequency = iface.wirelessFrequency :=
    (storeSignal_frame named text).2
  have hsignalIff := output.signal_iff hsameSignal
  have hfrequencyIff := output.frequency_iff hsameFrequency
  rw [← hsignal] at hsignalIff
  rw [hafter] at hfrequencyIff
  constructor
  · intro h
    obtain ⟨hfits, hplace⟩ := hsignalIff.1 ⟨h.signal, h.signal_alone⟩
    exact ⟨hfits, hplace, hfrequencyIff.1 ⟨h.frequency, h.frequency_alone⟩⟩
  · intro h
    obtain ⟨hread, halone⟩ := hsignalIff.2 ⟨h.signal_fits, h.signal⟩
    obtain ⟨hreadFrequency, haloneFrequency⟩ := hfrequencyIff.2 h.frequency
    exact ⟨hessid, hessid.trans hessidAlone.symm, hread, halone, hreadFrequency, haloneFrequency⟩

/-- The text is not looked for. -/
theorem extractsFields_kept_iff (iface : NetworkInterface) (output : IwconfigOutput) :
    ExtractsFields output iface { iface with isWireless := true } ↔ FieldsStored output iface := by
  have hsignal := storeSignal_once iface output.signal_once output.signal_ends
  have hfrequency := storeFrequency_once iface output.frequency_once output.frequency_ends
  have hessid : (iface.storeEssid output.text).1.wirelessEssid = output.essid := by
    rw [output.storeEssid_eq]
  constructor
  · intro h
    have hfits := h.signal_alone.symm.trans h.signal
    rw [hsignal, bmod_long_iff] at hfits
    exact ⟨h.essid, hfits, h.signal, h.frequency⟩
  · intro h
    have hfits := (bmod_long_iff output.signal).2 h.signal_fits
    exact ⟨h.essid, h.essid.trans hessid.symm, h.signal, h.signal.trans (hsignal.trans hfits).symm,
      h.frequency, h.frequency.trans hfrequency.symm⟩

/-- The three fields are extracted independently exactly if the pointer to the text fits into an
`int`, the signal level and the frequency stand in front of the end of the name, and the level fits
into an `int`, or if they are there already. -/
theorem extractsFields_iff {iface : NetworkInterface} {run : CString → Option CmdOutput}
    {result : CmdOutput} {output : IwconfigOutput}
    (hrun : (getWirelessInfo true iface.name).bind run = some result)
    (htext : result.text = output.text) :
    (∃ after, iface.getWirelessInfo true run = some after ∧ ExtractsFields output iface after) ↔
      FieldsFound result output iface := by
  unfold NetworkInterface.getWirelessInfo FieldsFound
  dsimp only
  rw [hrun]
  dsimp only
  have hne := result.address_ne_zero
  split_ifs with hnull hwhole
  · simp only [Option.some.injEq, exists_eq_left', extractsFields_kept_iff]
    have hcut : ¬result.pointer = result.address := fun heq ↦ hne (heq.symm.trans hnull)
    rw [or_iff_right fun h ↦ hcut h.1, and_iff_right hnull]
  · simp only [Option.some.injEq, exists_eq_left', htext, extractsFields_text_iff]
    rw [or_iff_left fun h ↦ hnull h.1, and_iff_right hwhole]
  · refine iff_of_false (fun h ↦ ?_) fun h ↦ ?_
    · obtain ⟨after, hafter, -⟩ := h
      cases hafter
    · rcases h with h | h
      · exact hwhole h.1
      · exact hnull h.1

/-- The network `home`, whose name stands in front of the other fields. -/
def homeOutput : IwconfigOutput where
  text := ofText "wlan0  ESSID:\"home\"  Frequency:2.437 GHz  Signal level=-50 dBm"
  essid := ofText "home"
  essidFront := (ofText "wlan0  ").bytes
  essidBack := (ofText "  Frequency:2.437 GHz  Signal level=-50 dBm").bytes
  essid_once := .of_places (by decide +kernel) (by decide +kernel)
  essid_noQuote := by decide
  essid_length := by decide
  signal := -50
  signalFront := (ofText "wlan0  ESSID:\"home\"  Frequency:2.437 GHz  ").bytes
  signalBack := (ofText " dBm").bytes
  signal_once := .of_places (by decide +kernel) (by decide +kernel)
  signal_ends := by decide +kernel
  frequency := ⟨false, [50], [52, 51, 55], by decide, by decide +kernel, by decide +kernel⟩
  frequencyFront := (ofText "wlan0  ESSID:\"home\"  ").bytes
  frequencyBack := (ofText " GHz  Signal level=-50 dBm").bytes
  frequency_once := .of_places (by decide +kernel) (by decide +kernel)
  frequency_ends := by unfold Decimal.Ends; decide +kernel

/-- The text at an address that fits into an `int`. -/
def homeResult : CmdOutput := ⟨65536, homeOutput.text, by decide⟩

theorem extractsFields_home :
    (∃ after, (NetworkInterface.named (ofText "wlan0")).getWirelessInfo true
        (fun _ ↦ some homeResult) = some after ∧
          ExtractsFields homeOutput (.named (ofText "wlan0")) after) ↔
      FieldsFound homeResult homeOutput (.named (ofText "wlan0")) :=
  extractsFields_iff (by decide +kernel) rfl

/-- The signal level of `home` is not found. -/
theorem home_not_extractsFields :
    ¬∃ after, (NetworkInterface.named (ofText "wlan0")).getWirelessInfo true
      (fun _ ↦ some homeResult) = some after ∧
        ExtractsFields homeOutput (.named (ofText "wlan0")) after := by
  rintro ⟨after, hafter, h⟩
  have hlost : ((NetworkInterface.named (ofText "wlan0")).getWirelessInfo true
      fun _ ↦ some homeResult).map NetworkInterface.wirelessSignal = some 0 := by decide +kernel
  rw [hafter, Option.map_some, Option.some.injEq] at hlost
  exact absurd (hlost.symm.trans h.signal) (by decide)

end HiFetch.Network
