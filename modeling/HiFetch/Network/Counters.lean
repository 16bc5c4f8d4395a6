import HiFetch.Library.Scanf
import HiFetch.Network.Commands

/-!
# Traffic counters

`get_network_statistics` reads six counters of 64 bits, each from a file of its own, and stores them
in fields of type `size_t`.  On the way a counter is an `int`: `read_sysfs_int` cuts it to 32 bits,
and the field gets it with its sign.  So a counter from `2 ^ 31` on is changed, with one exception:
what does not fit into a `long` becomes the greatest `long`, and that one becomes -1, which is the
greatest `size_t`.
-/

namespace HiFetch.Network

open CString Scanf Utils

structure NetworkInterface where
  name : CString
  ipAddress : CString
  netmask : CString
  broadcast : CString
  macAddress : CString
  isUp : Bool
  isWireless : Bool
  wirelessEssid : CString
  wirelessSignal : ℤ
  wirelessFrequency : ℚ
  rxBytes : UInt64
  txBytes : UInt64
  rxPackets : UInt64
  txPackets : UInt64
  rxErrors : UInt64
  txErrors : UInt64
  speedMbps : ℤ
  mtu : ℤ
  driver : CString
deriving DecidableEq

def netPath (name file : CString) : CString := snprintf 256 (ofText "/sys/class/net/") name file

/-- `get_network_statistics`, with the files and the static buffer of `read_sysfs_string`. -/
def NetworkInterface.getNetworkStatistics (iface : NetworkInterface) (sysfs : CString → FileRead)
    (buffer : List UInt8) : NetworkInterface × List UInt8 :=
  let (rxBytes, buffer) :=
    readSysfsInt buffer (sysfs (netPath iface.name (ofText "/statistics/rx_bytes")))
  let (txBytes, buffer) :=
    readSysfsInt buffer (sysfs (netPath iface.name (ofText "/statistics/tx_bytes")))
  let (rxPackets, buffer) :=
    readSysfsInt buffer (sysfs (netPath iface.name (ofText "/statistics/rx_packets")))
  let (txPackets, buffer) :=
    readSysfsInt buffer (sysfs (netPath iface.name (ofText "/statistics/tx_packets")))
  let (rxErrors, buffer) :=
    readSysfsInt buffer (sysfs (netPath iface.name (ofText "/statistics/rx_errors")))
  let (txErrors, buffer) :=
    readSysfsInt buffer (sysfs (netPath iface.name (ofText "/statistics/tx_errors")))
  ({ iface with
      rxBytes := .ofInt rxBytes
      txBytes := .ofInt txBytes
      rxPackets := .ofInt rxPackets
      txPackets := .ofInt txPackets
      rxErrors := .ofInt rxErrors
      txErrors := .ofInt txErrors }, buffer)

/-! ## The law -/

inductive Counter where
  | rxBytes | txBytes | rxPackets | txPackets | rxErrors | txErrors
deriving DecidableEq

def Counter.file : Counter → CString
  | .rxBytes => ofText "/statistics/rx_bytes"
  | .txBytes => ofText "/statistics/tx_bytes"
  | .rxPackets => ofText "/statistics/rx_packets"
  | .txPackets => ofText "/statistics/tx_packets"
  | .rxErrors => ofText "/statistics/rx_errors"
  | .txErrors => ofText "/statistics/tx_errors"

def NetworkInterface.counter (iface : NetworkInterface) : Counter → UInt64
  | .rxBytes => iface.rxBytes
  | .txBytes => iface.txBytes
  | .rxPackets => iface.rxPackets
  | .txPackets => iface.txPackets
  | .rxErrors => iface.rxErrors
  | .txErrors => iface.txErrors

/-- A counter, printed with a newline behind it. -/
def counterFile (number : UInt64) : FileRead :=
  let content := (ofInt number.toNat).bytes ++ [10]
  .delivered content content.length

/-- Each field holds the number in the file of its counter. -/
def StoresCounters (values : Counter → UInt64) (iface : NetworkInterface) : Prop :=
  ∀ counter, iface.counter counter = values counter

/-- The number fits into an `int`, or it is the greatest one. -/
def Survives (number : UInt64) : Prop := number.toNat < 2 ^ 31 ∨ number.toNat = 2 ^ 64 - 1

/-! ## One counter -/

theorem toNat_ofInt (value : ℤ) : (UInt64.ofInt value).toNat = (value % 2 ^ 64).toNat := by
  have hlt : (value % 2 ^ 64).toNat < 2 ^ 64 := by omega
  exact UInt64.toNat_ofNat_of_lt' hlt

/-- A counter becomes a `long`, an `int` and then a `size_t`. -/
theorem ofInt_atoi_iff (number : UInt64) :
    UInt64.ofInt (ofInt number.toNat).atoi = number ↔ Survives number := by
  have hlt := number.toNat_lt
  unfold Survives atoi
  rw [strtol_ofInt, ← UInt64.toNat_inj, toNat_ofInt, Int.bmod_def]
  split_ifs <;> omega

theorem readSysfsInt_counterFile {buffer : List UInt8} (hbuffer : buffer.length = 1024)
    (number : UInt64) :
    ∃ after, readSysfsInt buffer (counterFile number) = ((ofInt number.toNat).atoi, after) ∧
      after.length = 1024 := by
  have hblank : ∀ byte ∈ (ofInt number.toNat).bytes, isBlank byte = false := by
    intro byte hmem
    have hle := le_of_mem_bytes_ofInt hmem
    by_contra hbyte
    unfold isBlank at hbyte
    simp only [Bool.not_eq_false, Bool.or_eq_true, beq_iff_eq] at hbyte
    rcases hbyte with ((rfl | rfl) | rfl) | rfl <;> exact absurd hle (by decide)
  have hne : ofInt number.toNat ≠ empty := fun hempty ↦ by
    have hbytes := congrArg CString.bytes hempty
    rw [bytes_ofInt, if_neg (by omega)] at hbytes
    exact magnitude_ne_nil _ hbytes
  have hlimit : ((ofInt number.toNat).bytes ++ [10]).length ≤ 1023 := by
    have hprinted : (ofInt number.toNat).bytes.length ≤ 21 := by
      have hlt := number.toNat_lt
      exact length_bytes_ofInt_le (by decide) (by omega)
    rw [List.length_append, List.length_singleton]
    omega
  have hpos : 0 < ((ofInt number.toNat).bytes ++ [10]).length := by simp
  obtain ⟨after, hresult, htrimmed, -⟩ := readSysfsString_of_pos hbuffer hpos hlimit le_rfl
  refine ⟨after, ?_, htrimmed.length_eq⟩
  rw [List.take_length, strip_line hblank, found, if_neg hne] at hresult
  unfold readSysfsInt counterFile
  dsimp only
  rw [hresult]

/-- The field of a counter after the six files have been read. -/
theorem counter_getNetworkStatistics {iface : NetworkInterface} {sysfs : CString → FileRead}
    {buffer : List UInt8} (hbuffer : buffer.length = 1024) {values : Counter → UInt64}
    (hfiles : ∀ counter, sysfs (netPath iface.name counter.file) = counterFile (values counter))
    (counter : Counter) :
    (iface.getNetworkStatistics sysfs buffer).1.counter counter =
      .ofInt (ofInt (values counter).toNat).atoi := by
  obtain ⟨_, hrxBytes, hbuffer⟩ := readSysfsInt_counterFile hbuffer (values .rxBytes)
  obtain ⟨_, htxBytes, hbuffer⟩ := readSysfsInt_counterFile hbuffer (values .txBytes)
  obtain ⟨_, hrxPackets, hbuffer⟩ := readSysfsInt_counterFile hbuffer (values .rxPackets)
  obtain ⟨_, htxPackets, hbuffer⟩ := readSysfsInt_counterFile hbuffer (values .txPackets)
  obtain ⟨_, hrxErrors, hbuffer⟩ := readSysfsInt_counterFile hbuffer (values .rxErrors)
  obtain ⟨_, htxErrors, hbuffer⟩ := readSysfsInt_counterFile hbuffer (values .txErrors)
  rw [← hfiles] at hrxBytes htxBytes hrxPackets htxPackets hrxErrors htxErrors
  simp only [Counter.file] at hrxBytes htxBytes hrxPackets htxPackets hrxErrors htxErrors
  unfold NetworkInterface.getNetworkStatistics
  simp only [hrxBytes, htxBytes, hrxPackets, htxPackets, hrxErrors, htxErrors]
  cases counter <;> rfl

/-- The counters are stored exactly if each of them fits into an `int` or is the greatest one. -/
theorem storesCounters_iff {iface : NetworkInterface} {sysfs : CString → FileRead}
    {buffer : List UInt8} (hbuffer : buffer.length = 1024) {values : Counter → UInt64}
    (hfiles : ∀ counter, sysfs (netPath iface.name counter.file) = counterFile (values counter)) :
    StoresCounters values (iface.getNetworkStatistics sysfs buffer).1 ↔
      ∀ counter, Survives (values counter) := by
  apply forall_congr'
  intro counter
  rw [counter_getNetworkStatistics hbuffer hfiles, ofInt_atoi_iff]

/-- An interface in a zeroed `NetworkInfo`, with a name. -/
def NetworkInterface.named (name : CString) : NetworkInterface where
  name := name
  ipAddress := empty
  netmask := empty
  broadcast := empty
  macAddress := empty
  isUp := false
  isWireless := false
  wirelessEssid := empty
  wirelessSignal := 0
  wirelessFrequency := 0
  rxBytes := 0
  txBytes := 0
  rxPackets := 0
  txPackets := 0
  rxErrors := 0
  txErrors := 0
  speedMbps := 0
  mtu := 0
  driver := empty

theorem storesCounters_seven :
    StoresCounters (fun _ ↦ 7) ((NetworkInterface.named (ofText "eth0")).getNetworkStatistics
        (fun _ ↦ counterFile 7) zeroBuffer).1 ↔
      ∀ _ : Counter, Survives 7 :=
  storesCounters_iff trimmed_zeroBuffer.length_eq fun _ ↦ rfl

/-- A system in which every counter has reached two gigabytes. -/
def twoGigabytes (_ : CString) : FileRead := counterFile 2147483648

/-- The counters are out of range for an `int`. -/
theorem twoGigabytes_not_storesCounters :
    ¬StoresCounters (fun _ ↦ 2147483648)
      ((NetworkInterface.named (ofText "eth0")).getNetworkStatistics
        twoGigabytes zeroBuffer).1 := by
  intro h
  have hfiles : ∀ counter : Counter,
      twoGigabytes (netPath (NetworkInterface.named (ofText "eth0")).name counter.file) =
        counterFile 2147483648 := fun _ ↦ rfl
  have hstored := counter_getNetworkStatistics trimmed_zeroBuffer.length_eq hfiles .rxBytes
  have hsurvives := (ofInt_atoi_iff 2147483648).1 (hstored.symm.trans (h .rxBytes))
  exact absurd hsurvives (by unfold Survives; decide)

end HiFetch.Network
