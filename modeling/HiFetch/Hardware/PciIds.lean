import HiFetch.Library.Slots
import HiFetch.Network.Commands
import HiFetch.Utils.StringBetween

/-!
# Vendors and models of PCI devices

`get_gpu_hardware` and `get_network_hardware` read the files of a device with `read_sysfs_string`,
which returns its static buffer.  So after the second file has been read, the pointer to the text of
the first one points to the text of the second one: a vendor is looked up in the text of the device,
and a card with a subsystem gets the text of the subsystem twice.

A copy that does not fit into its array is not defined.
-/

namespace HiFetch.Hardware

open CString Slots Utils

/-- The fields that are assigned. -/
structure HardwareDevice where
  name : CString
  vendor : CString
  model : CString
  driver : CString
  speed : ℤ
deriving DecidableEq

/-- The devices that are assigned, in arrays of eight. -/
structure HardwareInfo where
  gpu : List HardwareDevice
  network : List HardwareDevice
  length_gpu : gpu.length = 8
  length_network : network.length = 8

/-- The files, links and directories under `/sys`.  The drivers fit into their arrays. -/
structure DeviceFiles where
  file : CString → FileRead
  readlink : CString → Option CString
  stat : CString → Bool
  documented : ∀ path, (file path).Documented 1023
  length_driver_le : ∀ path, ∀ text ∈ (readlink path).bind driverName, text.length ≤ 63

/-! ## Cards -/

def gpuVendor (vendorId : CString) : CString :=
  if occurs vendorId (ofText "0x10de") then ofText "NVIDIA"
  else if occurs vendorId (ofText "0x1002") then ofText "AMD"
  else if occurs vendorId (ofText "0x8086") then ofText "Intel"
  else ofText "Unknown"

/-- The part of a path in front of `/device`. -/
def cardPath (path : CString) : CString :=
  match strstr path (ofText "/device") with
  | some place => path.take place
  | none => path

def cardFile (path file : CString) : CString := Network.snprintf 512 empty (cardPath path) file

/-- A round of the loop over the paths.  `vendor_id` and `device_id` are the static buffer. -/
def gpuRound (files : DeviceFiles) (gpu : HardwareDevice) (buffer : List UInt8) (path : CString) :
    Round HardwareDevice (List UInt8) :=
  let (vendorId, buffer) :=
    readSysfsString buffer (files.file (cardFile path (ofText "/device/vendor")))
  let (deviceId, buffer) :=
    readSysfsString buffer (files.file (cardFile path (ofText "/device/device")))
  if vendorId.isSome ∧ deviceId.isSome then
    let gpu := { gpu with name := ofText "GPU", vendor := gpuVendor (ofBuffer buffer) }
    let (subsys, buffer) :=
      readSysfsString buffer (files.file (cardFile path (ofText "/device/subsystem_device")))
    let model :=
      if subsys.isSome then some ((ofBuffer buffer ++ ofText ":" ++ ofBuffer buffer).take 127)
      else Network.strcpy 128 (ofBuffer buffer)
    let link := files.readlink (cardFile path (ofText "/device/driver"))
    match model with
    | some model =>
        .filled { gpu with model := model, driver := (link.bind driverName).getD gpu.driver } buffer
    | none => .undefined
  else .skipped buffer

/-- `get_gpu_hardware`, for the paths that `glob` finds: the devices that it lists. -/
def getGpuHardware (files : DeviceFiles) (hw : HardwareInfo) (buffer : List UInt8)
    (glob : Option (List CString)) : Option (List HardwareDevice) :=
  match glob with
  | some paths => fillSlots 8 (gpuRound files) hw.gpu 0 buffer paths
  | none => some []

/-! ## Network adapters -/

def networkVendor (vendorId : CString) : CString :=
  if occurs vendorId (ofText "0x8086") then ofText "Intel"
  else if occurs vendorId (ofText "0x14e4") then ofText "Broadcom"
  else if occurs vendorId (ofText "0x10ec") then ofText "Realtek"
  else ofText "Unknown"

def adapterFile (name file : CString) : CString :=
  Network.snprintf 512 (ofText "/sys/class/net/") name file

/-- A round of the loop over the directory. -/
def networkRound (files : DeviceFiles) (net : HardwareDevice) (buffer : List UInt8)
    (entry : Network.InterfaceName) : Round HardwareDevice (List UInt8) :=
  if entry.name.bytes.head? = some 46 then .skipped buffer
  else if files.stat (adapterFile entry.name (ofText "/device")) then
    let net := { net with name := entry.name }
    let (vendorId, buffer) :=
      readSysfsString buffer (files.file (adapterFile entry.name (ofText "/device/vendor")))
    let (deviceId, buffer) :=
      readSysfsString buffer (files.file (adapterFile entry.name (ofText "/device/device")))
    let ids :=
      if vendorId.isSome ∧ deviceId.isSome then
        (Network.strcpy 128 (ofBuffer buffer)).map fun model ↦
          { net with vendor := networkVendor (ofBuffer buffer), model := model }
      else some net
    let link := files.readlink (adapterFile entry.name (ofText "/device/driver"))
    match ids with
    | some net =>
        let net := { net with driver := (link.bind driverName).getD net.driver }
        let (speed, buffer) :=
          readSysfsInt buffer (files.file (adapterFile entry.name (ofText "/speed")))
        .filled { net with speed := speed } buffer
    | none => .undefined
  else .skipped buffer

/-- `get_network_hardware`, for the entries of the directory: the devices that it lists. -/
def getNetworkHardware (files : DeviceFiles) (hw : HardwareInfo) (buffer : List UInt8)
    (opendir : Option (List Network.InterfaceName)) : Option (List HardwareDevice) :=
  match opendir with
  | some entries => fillSlots 8 (networkRound files) hw.network 0 buffer entries
  | none => some []

/-! ## The law -/

/-- A card whose files are not blank; the file of the subsystem can be missing. -/
structure Card (files : DeviceFiles) where
  path : CString
  vendor : CString
  device : CString
  subsystem : Option CString
  vendor_file : (files.file (cardFile path (ofText "/device/vendor"))).string = some vendor
  device_file : (files.file (cardFile path (ofText "/device/device"))).string = some device
  subsystem_file :
    match subsystem with
    | some text =>
        (files.file (cardFile path (ofText "/device/subsystem_device"))).string = some text
    | none => files.file (cardFile path (ofText "/device/subsystem_device")) = .openFails

/-- `device:subsystem`, or `device` -/
def Card.model {files : DeviceFiles} (card : Card files) : CString :=
  match card.subsystem with
  | some text => card.device ++ ofText ":" ++ text
  | none => card.device

/-- The first eight cards are listed with the vendors of their own and their models. -/
def RecordsCards {files : DeviceFiles} (cards : List (Card files))
    (result : Option (List HardwareDevice)) : Prop :=
  ∃ gpus, result = some gpus ∧ gpus.map (fun gpu ↦ (gpu.vendor, gpu.model)) =
    (cards.take 8).map fun card ↦ (gpuVendor card.vendor, card.model)

/-- An adapter whose files are not blank. -/
structure Adapter (files : DeviceFiles) where
  entry : Network.InterfaceName
  noDot : entry.name.bytes.head? ≠ some 46
  isDevice : files.stat (adapterFile entry.name (ofText "/device"))
  vendor : CString
  device : CString
  vendor_file :
    (files.file (adapterFile entry.name (ofText "/device/vendor"))).string = some vendor
  device_file :
    (files.file (adapterFile entry.name (ofText "/device/device"))).string = some device

/-- An entry of the directory: an adapter, or an entry that is none. -/
inductive NetEntry (files : DeviceFiles) where
  | adapter (found : Adapter files)
  | other (entry : Network.InterfaceName)
      (noAdapter : entry.name.bytes.head? = some 46 ∨
        ¬files.stat (adapterFile entry.name (ofText "/device")))

namespace NetEntry

variable {files : DeviceFiles}

def entry : NetEntry files → Network.InterfaceName
  | .adapter found => found.entry
  | .other entry _ => entry

def adapter? : NetEntry files → Option (Adapter files)
  | .adapter found => some found
  | .other _ _ => none

end NetEntry

/-- The first eight adapters are listed with the vendors of their own. -/
def ClassifiesAdapters {files : DeviceFiles} (entries : List (NetEntry files))
    (result : Option (List HardwareDevice)) : Prop :=
  ∃ nets, result = some nets ∧ nets.map HardwareDevice.vendor =
    ((entries.filterMap NetEntry.adapter?).take 8).map fun adapter ↦ networkVendor adapter.vendor

/-- The cards and the adapters are listed by files of their own, whatever the static buffer holds
before the cards and before the adapters. -/
def ListsByOwnFiles {files : DeviceFiles} (hw : HardwareInfo) (gpuBuffer netBuffer : List UInt8)
    (cards : List (Card files)) (entries : List (NetEntry files)) : Prop :=
  RecordsCards cards (getGpuHardware files hw gpuBuffer (some (cards.map Card.path))) ∧
    ClassifiesAdapters entries
      (getNetworkHardware files hw netBuffer (some (entries.map NetEntry.entry)))

/-- Two texts with a colon between them are the same either way, and there is room for them. -/
def Swappable (device subsystem : CString) : Prop :=
  device = subsystem ∧ subsystem.length ≤ 63 ∨
    device.length + subsystem.length = 126 ∧ 64 ≤ subsystem.length ∧
      device ++ ofText ":" ++ subsystem = subsystem ++ ofText ":" ++ device

/-- The text of the device stands for that of the vendor, and that of the subsystem for that of the
device. -/
def Card.Agrees {files : DeviceFiles} (card : Card files) : Prop :=
  gpuVendor card.device = gpuVendor card.vendor ∧
    match card.subsystem with
    | some text => Swappable card.device text
    | none => card.device.length < 128

def Adapter.Agrees {files : DeviceFiles} (adapter : Adapter files) : Prop :=
  networkVendor adapter.device = networkVendor adapter.vendor ∧ adapter.device.length < 128

/-! ## The model of a card -/

/-- A long text that is cut behind its start over again. -/
theorem take_append_self {device subsystem colon : List UInt8}
    (hlength : device.length ≤ subsystem.length) :
    (subsystem ++ colon ++ subsystem).take (subsystem.length + colon.length + device.length) =
        device ++ colon ++ subsystem ↔
      device ++ colon ++ subsystem = subsystem ++ colon ++ device := by
  have htake : (subsystem ++ colon ++ subsystem).take
      (subsystem.length + colon.length + device.length) =
        subsystem ++ colon ++ subsystem.take device.length := by
    rw [← List.length_append, List.take_length_add_append]
  rw [htake]
  constructor
  · intro heq
    have hdevice := congrArg (List.take device.length) heq
    rw [List.append_assoc, List.append_assoc, List.take_left, List.take_append_of_le_length hlength]
      at hdevice
    rw [← heq, hdevice]
  · intro heq
    have hdevice := congrArg (List.take device.length) heq
    rw [List.append_assoc, List.append_assoc, List.take_left, List.take_append_of_le_length hlength]
      at hdevice
    rw [← hdevice, heq]

/-- The text of the subsystem, twice and cut, is the model exactly if the texts can be swapped. -/
theorem take_twice_iff (device subsystem : CString) :
    (subsystem ++ ofText ":" ++ subsystem).take 127 = device ++ ofText ":" ++ subsystem ↔
      Swappable device subsystem := by
  have hcolon : (ofText ":").bytes.length = 1 := rfl
  unfold Swappable CString.length
  simp only [CString.ext_iff, bytes_take, bytes_append]
  rcases Nat.lt_or_ge subsystem.bytes.length 64 with hshort | hlong
  · have hwhole : (subsystem.bytes ++ (ofText ":").bytes ++ subsystem.bytes).length ≤ 127 := by
      rw [List.length_append, List.length_append, hcolon]
      omega
    rw [List.take_of_length_le hwhole, List.append_assoc, List.append_assoc,
      List.append_cancel_right_eq]
    constructor
    · exact fun heq ↦ .inl ⟨heq.symm, by omega⟩
    · rintro (⟨heq, -⟩ | ⟨-, hlong, -⟩)
      · exact heq.symm
      · exact absurd hlong (by omega)
  · have hboth : device.bytes.length + subsystem.bytes.length = 126 →
        ((subsystem.bytes ++ (ofText ":").bytes ++ subsystem.bytes).take 127 =
            device.bytes ++ (ofText ":").bytes ++ subsystem.bytes ↔
          device.bytes ++ (ofText ":").bytes ++ subsystem.bytes =
            subsystem.bytes ++ (ofText ":").bytes ++ device.bytes) := by
      intro hsum
      have hcut : 127 = subsystem.bytes.length + (ofText ":").bytes.length +
          device.bytes.length := by omega
      rw [hcut]
      exact take_append_self (by omega)
    constructor
    · intro heq
      have hsum := congrArg List.length heq
      simp only [List.length_take, List.length_append, hcolon] at hsum
      have hlengths : device.bytes.length + subsystem.bytes.length = 126 := by omega
      exact .inr ⟨hlengths, hlong, (hboth hlengths).1 heq⟩
    · rintro (⟨-, hshort⟩ | ⟨hlengths, -, hswap⟩)
      · exact absurd hshort (by omega)
      · exact (hboth hlengths).2 hswap

/-! ## One round -/

/-- What a card leads to. -/
def Card.outcome {files : DeviceFiles} (card : Card files) : Option (CString × CString) :=
  match card.subsystem with
  | some text => some (gpuVendor card.device, (text ++ ofText ":" ++ text).take 127)
  | none => (Network.strcpy 128 card.device).map fun model ↦ (gpuVendor card.device, model)

theorem Card.outcome_iff {files : DeviceFiles} (card : Card files) :
    card.outcome = some (gpuVendor card.vendor, card.model) ↔ card.Agrees := by
  unfold outcome model Agrees
  cases card.subsystem with
  | some text =>
    dsimp only
    rw [Option.some.injEq, Prod.mk.injEq, take_twice_iff]
  | none =>
    dsimp only
    unfold Network.strcpy
    split_ifs with hfits
    · simp [hfits]
    · simp [hfits]

def Adapter.outcome {files : DeviceFiles} (adapter : Adapter files) : Option CString :=
  (Network.strcpy 128 adapter.device).map fun _ ↦ networkVendor adapter.device

theorem Adapter.outcome_iff {files : DeviceFiles} (adapter : Adapter files) :
    adapter.outcome = some (networkVendor adapter.vendor) ↔ adapter.Agrees := by
  unfold outcome Agrees Network.strcpy
  split_ifs with hfits
  · simp [hfits]
  · simp [hfits]

/-- The text of a file stands in the static buffer. -/
theorem DeviceFiles.readSysfsString_text (files : DeviceFiles) {buffer : List UInt8}
    (hbuffer : buffer.length = 1024) {path text : CString}
    (htext : (files.file path).string = some text) :
    ∃ after, readSysfsString buffer (files.file path) = (some text, after) ∧ after.length = 1024 ∧
      ofBuffer after = text :=
  readSysfsString_some hbuffer (FileRead.deliversByte_of_string (files.documented path) htext) htext

theorem gpuRound_card {files : DeviceFiles} (card : Card files) (gpu : HardwareDevice)
    {buffer : List UInt8} (hbuffer : buffer.length = 1024) :
    ∃ next, next.length = 1024 ∧ gpuRound files gpu buffer card.path =
      match card.outcome with
      | some value =>
          let link := files.readlink (cardFile card.path (ofText "/device/driver"))
          .filled ⟨ofText "GPU", value.1, value.2, (link.bind driverName).getD gpu.driver,
            gpu.speed⟩ next
      | none => .undefined := by
  obtain ⟨vendorBuffer, hvendor, hvendorBuffer, -⟩ :=
    files.readSysfsString_text hbuffer card.vendor_file
  obtain ⟨deviceBuffer, hdevice, hdeviceBuffer, htext⟩ :=
    files.readSysfsString_text hvendorBuffer card.device_file
  have hfile := card.subsystem_file
  unfold gpuRound Card.outcome
  rw [hvendor]
  dsimp only
  rw [hdevice]
  dsimp only
  rw [if_pos ⟨rfl, rfl⟩, htext]
  cases hsubsystem : card.subsystem with
  | some text =>
    rw [hsubsystem] at hfile
    obtain ⟨subsysBuffer, hsubsys, hsubsysBuffer, hsubsysText⟩ :=
      files.readSysfsString_text hdeviceBuffer hfile
    refine ⟨subsysBuffer, hsubsysBuffer, ?_⟩
    rw [hsubsys]
    dsimp only
    rw [if_pos (show (some text).isSome = true from rfl), hsubsysText]
  | none =>
    rw [hsubsystem] at hfile
    dsimp only at hfile
    refine ⟨deviceBuffer, hdeviceBuffer, ?_⟩
    rw [hfile, readSysfsString_fails readFileFast_openFails]
    dsimp only
    rw [if_neg (by decide), htext]
    cases Network.strcpy 128 card.device <;> rfl

/-- The vendor of a card is that in the text of the device, and its model has the text of the
subsystem twice. -/
theorem follows_gpuRound (files : DeviceFiles) :
    Follows (fun gpu buffer (card : Card files) ↦ gpuRound files gpu buffer card.path)
      (fun buffer ↦ buffer.length = 1024) some Card.outcome
      (fun gpu : HardwareDevice ↦ (gpu.vendor, gpu.model)) where
  skipped gpu buffer card hbuffer hpick := nomatch hpick
  undefined gpu buffer card picked hbuffer hpick houtcome := by
    obtain rfl := Option.some.inj hpick
    obtain ⟨next, -, hround⟩ := gpuRound_card card gpu hbuffer
    rw [hround, houtcome]
  filled gpu buffer card picked value hbuffer hpick houtcome := by
    obtain rfl := Option.some.inj hpick
    obtain ⟨next, hnext, hround⟩ := gpuRound_card card gpu hbuffer
    exact ⟨_, next, by rw [hround, houtcome], rfl, hnext⟩

theorem networkRound_adapter {files : DeviceFiles} (adapter : Adapter files) (net : HardwareDevice)
    {buffer : List UInt8} (hbuffer : buffer.length = 1024) :
    ∃ next driver speed, next.length = 1024 ∧ networkRound files net buffer adapter.entry =
      match adapter.outcome with
      | some vendor => .filled ⟨adapter.entry.name, vendor, adapter.device, driver, speed⟩ next
      | none => .undefined := by
  obtain ⟨vendorBuffer, hvendor, hvendorBuffer, -⟩ :=
    files.readSysfsString_text hbuffer adapter.vendor_file
  obtain ⟨deviceBuffer, hdevice, hdeviceBuffer, htext⟩ :=
    files.readSysfsString_text hvendorBuffer adapter.device_file
  have hspeed : (readSysfsInt deviceBuffer
      (files.file (adapterFile adapter.entry.name (ofText "/speed")))).2.length = 1024 := by
    rw [length_readSysfsInt, hdeviceBuffer]
  refine ⟨_, ((files.readlink (adapterFile adapter.entry.name (ofText "/device/driver"))).bind
    driverName).getD net.driver, (readSysfsInt deviceBuffer
      (files.file (adapterFile adapter.entry.name (ofText "/speed")))).1, hspeed, ?_⟩
  unfold networkRound Adapter.outcome Network.strcpy
  rw [if_neg adapter.noDot, if_pos adapter.isDevice, hvendor]
  dsimp only
  rw [hdevice]
  dsimp only
  rw [if_pos ⟨rfl, rfl⟩, htext]
  split_ifs <;> rfl

/-- The vendor of an adapter is that in the text of the device. -/
theorem follows_networkRound (files : DeviceFiles) :
    Follows (fun net buffer (entry : NetEntry files) ↦ networkRound files net buffer entry.entry)
      (fun buffer ↦ buffer.length = 1024) NetEntry.adapter? Adapter.outcome
      HardwareDevice.vendor where
  skipped net buffer entry hbuffer hpick := by
    cases entry with
    | adapter found => cases hpick
    | other entry noAdapter =>
      refine ⟨buffer, ?_, hbuffer⟩
      show networkRound files net buffer entry = .skipped buffer
      unfold networkRound
      rcases noAdapter with hdot | hnone
      · rw [if_pos hdot]
      · rw [if_neg hnone, ite_self]
  undefined net buffer entry picked hbuffer hpick houtcome := by
    cases entry with
    | adapter found =>
      obtain rfl := Option.some.inj hpick
      obtain ⟨next, driver, speed, -, hround⟩ := networkRound_adapter found net hbuffer
      rw [houtcome] at hround
      exact hround
    | other entry noAdapter => cases hpick
  filled net buffer entry picked value hbuffer hpick houtcome := by
    cases entry with
    | adapter found =>
      obtain rfl := Option.some.inj hpick
      obtain ⟨next, driver, speed, hnext, hround⟩ := networkRound_adapter found net hbuffer
      rw [houtcome] at hround
      exact ⟨_, next, hround, rfl, hnext⟩
    | other entry noAdapter => cases hpick

/-! ## All devices -/

theorem recordsCards_iff {files : DeviceFiles} (hw : HardwareInfo) {buffer : List UInt8}
    (hbuffer : buffer.length = 1024) (cards : List (Card files)) :
    RecordsCards cards (getGpuHardware files hw buffer (some (cards.map Card.path))) ↔
      ∀ card ∈ cards.take 8, card.Agrees := by
  have hloop := fillSlots_iff (follows_gpuRound files) hw.length_gpu hbuffer cards
    fun card ↦ (gpuVendor card.vendor, card.model)
  rw [← fillSlots_map, List.filterMap_some] at hloop
  exact hloop.trans (forall₂_congr fun card _ ↦ card.outcome_iff)

theorem classifiesAdapters_iff {files : DeviceFiles} (hw : HardwareInfo) {buffer : List UInt8}
    (hbuffer : buffer.length = 1024) (entries : List (NetEntry files)) :
    ClassifiesAdapters entries
        (getNetworkHardware files hw buffer (some (entries.map NetEntry.entry))) ↔
      ∀ adapter ∈ (entries.filterMap NetEntry.adapter?).take 8, adapter.Agrees := by
  have hloop := fillSlots_iff (follows_networkRound files) hw.length_network hbuffer entries
    fun adapter ↦ networkVendor adapter.vendor
  rw [← fillSlots_map] at hloop
  exact hloop.trans (forall₂_congr fun adapter _ ↦ adapter.outcome_iff)

/-- All devices are listed by files of their own exactly if, for each of them that is listed, what
is read last stands for what is read before. -/
theorem listsByOwnFiles_iff {files : DeviceFiles} (hw : HardwareInfo)
    {gpuBuffer netBuffer : List UInt8} (hgpuBuffer : gpuBuffer.length = 1024)
    (hnetBuffer : netBuffer.length = 1024) (cards : List (Card files))
    (entries : List (NetEntry files)) :
    ListsByOwnFiles hw gpuBuffer netBuffer cards entries ↔
      (∀ card ∈ cards.take 8, card.Agrees) ∧
        ∀ adapter ∈ (entries.filterMap NetEntry.adapter?).take 8, adapter.Agrees :=
  and_congr (recordsCards_iff hw hgpuBuffer cards) (classifiesAdapters_iff hw hnetBuffer entries)

/-- A system whose devices all have these files. -/
def uniformFiles (vendor device subsystem : CString) : DeviceFiles where
  file path :=
    if (ofText "/device/vendor").bytes <:+ path.bytes then wholeRead 1024 vendor.bytes
    else if (ofText "/device/device").bytes <:+ path.bytes then wholeRead 1024 device.bytes
    else if (ofText "/device/subsystem_device").bytes <:+ path.bytes then
      wholeRead 1024 subsystem.bytes
    else .openFails
  readlink _ := none
  stat _ := true
  documented path := by
    split_ifs
    · exact documented_wholeRead (by decide) vendor.bytes
    · exact documented_wholeRead (by decide) device.bytes
    · exact documented_wholeRead (by decide) subsystem.bytes
    · trivial
  length_driver_le _ _ htext := nomatch htext

/-- A system with devices of an unknown vendor, whose cards have the number of their subsystem. -/
def unknownFiles : DeviceFiles :=
  uniformFiles (ofText "0x1234") (ofText "0x1111") (ofText "0x1111")

def unknownCard : Card unknownFiles where
  path := ofText "/c/device/vendor"
  vendor := ofText "0x1234"
  device := ofText "0x1111"
  subsystem := some (ofText "0x1111")
  vendor_file := by decide +kernel
  device_file := by decide +kernel
  subsystem_file := by decide +kernel

def unknownAdapter : Adapter unknownFiles where
  entry := ⟨ofText "enp3s0", by decide, by decide, by decide, by decide +kernel⟩
  noDot := by decide
  isDevice := rfl
  vendor := ofText "0x1234"
  device := ofText "0x1111"
  vendor_file := by decide +kernel
  device_file := by decide +kernel

def nvidiaCard : Card (uniformFiles (ofText "0x10de") (ofText "0x2484") (ofText "0x146b")) where
  path := ofText "/c/device/vendor"
  vendor := ofText "0x10de"
  device := ofText "0x2484"
  subsystem := some (ofText "0x146b")
  vendor_file := by decide +kernel
  device_file := by decide +kernel
  subsystem_file := by decide +kernel

def zeroedHardware : HardwareInfo where
  gpu := List.replicate 8 ⟨empty, empty, empty, empty, 0⟩
  network := List.replicate 8 ⟨empty, empty, empty, empty, 0⟩
  length_gpu := rfl
  length_network := rfl

theorem listsByOwnFiles_unknown :
    ListsByOwnFiles zeroedHardware zeroBuffer zeroBuffer [unknownCard]
      [.adapter unknownAdapter] := by
  refine (listsByOwnFiles_iff zeroedHardware trimmed_zeroBuffer.length_eq
    trimmed_zeroBuffer.length_eq [unknownCard] [.adapter unknownAdapter]).2 ⟨?_, ?_⟩
  · intro card hcard
    rw [List.mem_singleton.1 hcard]
    exact ⟨by decide +kernel, .inl ⟨rfl, by decide +kernel⟩⟩
  · intro adapter hadapter
    rw [List.mem_singleton.1 hadapter]
    exact ⟨by decide +kernel, by decide +kernel⟩

/-- The card is listed as `Unknown`, and not as `NVIDIA`. -/
theorem nvidiaCard_not_listsByOwnFiles :
    ¬ListsByOwnFiles zeroedHardware zeroBuffer zeroBuffer [nvidiaCard] [] := by
  rintro ⟨hcards, -⟩
  have hagrees := (recordsCards_iff zeroedHardware trimmed_zeroBuffer.length_eq [nvidiaCard]).1
    hcards nvidiaCard (List.mem_singleton_self _)
  exact absurd hagrees.1 (by decide +kernel)

end HiFetch.Hardware
