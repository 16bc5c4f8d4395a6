import HiFetch.Library.FixedPoint
import HiFetch.Library.FlatRecord
import HiFetch.Sysinfo.GpuList
import HiFetch.Sysinfo.InfoCache
import HiFetch.Sysinfo.MemInfo
import HiFetch.Sysinfo.OsName
import Mathlib.Tactic.DeriveFintype

/-!
# Collecting the system information

`get_system_info` calls one function after the other, and each of them writes texts to fields of a
`SystemInfo`, which are arrays of 256 bytes.  Most texts are cut to the size of their field.  The
values of environment variables are copied with `strcpy`.

A function is the list of what it writes.  Three of these writes look at the record: the window
manager is named by the desktop, and the model of the CPU is completed in its place.  The three
numbers of the structure have their places in it, but are left out, and so are the bytes behind the
NUL of the name of a graphics card.

Doubles are rounded to 53 binary digits, without a bound on their exponents.
-/

namespace HiFetch.Sysinfo.Collect

open CString Monitor Strtok Utils

/-- The arrays of a `SystemInfo`. -/
inductive Field where
  | hostname
  | username
  | osName
  | kernel
  | uptime
  | shell
  | cpuModel
  | memory
  | swap
  | disk
  | gpu (slot : Fin 8)
  | packages
  | de
  | deVersion
  | wm
  | wmTheme
  | gtkTheme
  | qtTheme
  | iconTheme
  | cursorTheme
  | font
  | terminal
  | terminalFont
  | localIp
  | battery
  | locale
  | display
  | resolution
  | refreshRate
deriving DecidableEq, Fintype

/-- The offsets: `cpu_cores` and `cpu_freq` are in front of `memory`, and `gpu_count` in front of
`packages`. -/
def Field.offset : Field → ℕ
  | .hostname => 0
  | .username => 256
  | .osName => 512
  | .kernel => 768
  | .uptime => 1024
  | .shell => 1280
  | .cpuModel => 1536
  | .memory => 1808
  | .swap => 2064
  | .disk => 2320
  | .gpu slot => 2576 + 256 * slot
  | .packages => 4628
  | .de => 4884
  | .deVersion => 5140
  | .wm => 5396
  | .wmTheme => 5652
  | .gtkTheme => 5908
  | .qtTheme => 6164
  | .iconTheme => 6420
  | .cursorTheme => 6676
  | .font => 6932
  | .terminal => 7188
  | .terminalFont => 7444
  | .localIp => 7700
  | .battery => 7956
  | .locale => 8212
  | .display => 8468
  | .resolution => 8724
  | .refreshRate => 8980

/-- `sizeof(SystemInfo)` is 9240. -/
def layout : Layout Field where
  offset := Field.offset
  size := 256
  total := 9240
  size_pos := by decide
  inside := by decide +kernel
  disjoint := by decide +kernel

/-! ## Kinds of writes -/

/-- `strcpy`, and `memcpy` of a text with its NUL. -/
def copied (text : CString) : List UInt8 := text.bytes ++ [0]

/-- `snprintf` with the size of the field. -/
def printed (text : CString) : List UInt8 := (text.take 255).bytes ++ [0]

/-- `strncpy` with one byte less than the size of the field, and a NUL as the last byte. -/
def padded (text : CString) : List UInt8 := (text.bytes ++ List.replicate 255 0).take 255 ++ [0]

/-- A write that does not look at the record. -/
def put (field : Field) (bytes : List UInt8) : Write Field := ⟨field, fun _ ↦ bytes⟩

def unknownText : CString := ofText "Unknown"

/-! ## Names and times -/

/-- `get_hostname`, for what `gethostname` gives. -/
def getHostname : Option CString → List (Write Field)
  | some name => [put .hostname (printed name)]
  | none => [put .hostname (padded (ofText "unknown"))]

/-- `get_username`, for the value of `USER`. -/
def getUsername (user : Option CString) : List (Write Field) :=
  [put .username (padded (Sysinfo.getUsername user))]

/-- `get_os_info`. -/
def getOsInfo (buffer : List UInt8) (file : FileRead) : List (Write Field) :=
  [put .osName (padded (Sysinfo.getOsInfo buffer file))]

/-- `get_kernel`, for the names of the system and of its release. -/
def getKernel : Option (CString × CString) → List (Write Field)
  | some (sysname, release) =>
      let text := sysname ++ ofText " " ++ release
      put .kernel (printed text) ::
        if 256 ≤ text.length then [put .kernel (padded unknownText)] else []
  | none => [put .kernel (padded unknownText)]

/-- A number and a word, which gets an `s` unless the number is one. -/
def counted (number : ℤ) (word : CString) : CString :=
  ofInt number ++ ofText " " ++ word ++ if number ≠ 1 then ofText "s" else empty

/-- The text for a number of seconds. -/
def uptimeText (seconds : ℤ) : CString :=
  let days := seconds.tdiv 86400
  let hours := (seconds.tmod 86400).tdiv 3600
  let minutes := (seconds.tmod 3600).tdiv 60
  if 0 < days then
    counted days (ofText "day") ++ ofText ", " ++ counted hours (ofText "hour") ++ ofText ", " ++
      counted minutes (ofText "min")
  else ofInt hours ++ ofText "h " ++ ofInt minutes ++ ofText "m"

/-- `get_uptime`. -/
def getUptime : Option ℤ → List (Write Field)
  | some seconds => [put .uptime (printed (uptimeText seconds))]
  | none => [put .uptime (copied unknownText)]

/-- The text behind the last slash, or all of it. -/
def baseName (path : CString) : CString where
  bytes := (path.bytes.reverse.takeWhile (· ≠ 47)).reverse
  noNul hmem := path.noNul (List.mem_reverse.1
    ((List.takeWhile_prefix _).subset (List.mem_reverse.1 hmem)))

/-- `get_shell`, for the value of `SHELL`. -/
def getShell : Option CString → List (Write Field)
  | some shell => [put .shell (copied (baseName shell))]
  | none => [put .shell (copied (ofText "unknown"))]

/-! ## The CPU -/

/-- `get_cpu_frequency`, with the static buffer of `read_sysfs_string`. -/
def getCpuFrequency (sysfs : List UInt8) (scalingFile maxFile : FileRead) : ℚ :=
  match readSysfsString sysfs scalingFile with
  | (some freq, _) => toDouble (toDouble freq.atof / 1000000)
  | (none, buffer) =>
      match (readSysfsString buffer maxFile).1 with
      | some maxFreq => toDouble (toDouble maxFreq.atof / 1000000)
      | none => 0

/-- The loop over the lines, before the call of `strtok` that goes on at `start`: the text two bytes
behind the first colon of a line with a model name. -/
def modelLoop (buffer : List UInt8) (start : ℕ) : Option CString :=
  match _h : (strtok buffer start 10).token with
  | none => none
  | some place =>
      let line := ofBuffer ((strtok buffer start 10).buffer.drop place)
      match if occurs line (ofText "model name") then line.bytes.findIdx? (· = 58) else none with
      | some colon =>
          some (ofBuffer ((strtok buffer start 10).buffer.drop (place + colon + 2)))
      | none => modelLoop (strtok buffer start 10).buffer (strtok buffer start 10).next
termination_by buffer.length - start
decreasing_by
  obtain ⟨hnext, hstart, hlength⟩ := lt_next_of_token _h
  omega

/-- The number of the cores and the frequency. -/
def coresText (cores : ℤ) (freq : ℚ) : CString :=
  if 0 < freq then
    (ofText " (" ++ ofInt cores ++ ofText ") @ " ++ ofBuffer (fixed 2 freq).bytes ++
      ofText " GHz").take 47
  else (ofText " (" ++ ofInt cores ++ ofText ")").take 47

/-- `strncat` with the room that the subtraction of a `size_t` leaves. -/
def appended (front back : CString) : List UInt8 :=
  front.bytes ++ (back.take ((256 - front.length - 1 : ℤ) % 2 ^ 64).toNat).bytes ++ [0]

/-- `strncpy` of the model. -/
def copyModel (buffer : List UInt8) (file : FileRead) : List (Write Field) :=
  match readFileFast buffer 4096 file with
  | (1, filled) =>
      match modelLoop filled 0 with
      | some model => [put .cpuModel ((model.bytes ++ List.replicate 224 0).take 224)]
      | none => []
  | _ => []

/-- `get_cpu_info`. -/
def getCpuInfo (buffer : List UInt8) (file : FileRead) (cores : ℤ) (freq : ℚ) :
    List (Write Field) :=
  copyModel buffer file ++
  [⟨.cpuModel, fun texts ↦
      if texts .cpuModel = empty then copied (ofText "Unknown CPU") else []⟩,
    ⟨.cpuModel, fun texts ↦ appended (texts .cpuModel) (coresText cores freq)⟩]

/-! ## Memory, disk and graphics cards -/

/-- `%.2f` -/
def hundredths (value : ℚ) : CString := ofBuffer (fixed 2 value).bytes

/-- The two amounts and the percentage of a line, with the unit of the first one. -/
def usageText (unit : CString) (line : UsageLine) : CString :=
  hundredths line.used ++ unit ++ ofText " / " ++ hundredths line.total ++ ofText " GiB (" ++
    ofInt line.percent ++ ofText "%)"

/-- `get_swap_info`. -/
def getSwapInfo (buffer : List UInt8) (file : FileRead) : List (Write Field) :=
  match swapAmounts buffer file with
  | some amounts =>
      match swapLine amounts with
      | some line => [put .swap (printed (usageText (ofText " MiB") line))]
      | none => [put .swap (copied (ofText "No swap"))]
  | none => []

/-- `get_memory_info`. -/
def getMemoryInfo (buffer : List UInt8) (file : FileRead) : List (Write Field) :=
  match (memoryAmounts buffer file).bind memoryLine with
  | some line => [put .memory (printed (usageText (ofText " GiB") line))]
  | none => [put .memory (copied unknownText)]

/-- The numbers of a file system. -/
structure FileSystem where
  blocks : UInt64
  available : UInt64
  blockSize : UInt64

/-- The text for the root file system. -/
def diskText (fileSystem : FileSystem) : CString :=
  let total := fileSystem.blocks * fileSystem.blockSize / (1024 * 1024 * 1024)
  let free := fileSystem.available * fileSystem.blockSize / (1024 * 1024 * 1024)
  let used := total - free
  let percent := if 0 < total then percentage used total else 0
  ofText "Disk (/): " ++ ofInt used.toNat ++ ofText "G/" ++ ofInt total.toNat ++ ofText "G (" ++
    ofInt percent ++ ofText "%)"

/-- `get_disk_info`. -/
def getDiskInfo : Option FileSystem → List (Write Field)
  | some fileSystem => [put .disk (printed (diskText fileSystem))]
  | none => [put .disk (copied unknownText)]

/-- `get_all_gpus`: the names in the slots that are in use. -/
def getAllGpus (allGpus : Option CString) : List (Write Field) :=
  (List.finRange 8).filterMap fun slot ↦
    ((Sysinfo.getAllGpus zeroGpus allGpus).stored[slot.val]?).map fun text ↦
      put (.gpu slot) (printed text)

/-! ## Packages -/

/-- `count_directory_entries`, for the names in a directory that can be opened. -/
def countDirectoryEntries : Option (List CString) → ℤ
  | some names => (names.filter fun name ↦ name ≠ ofText "." ∧ name ≠ ofText "..").length
  | none => 0

/-- `snprintf` behind the text that is there, with the room that is left. -/
def addCount (result : CString) (count : ℤ) (manager : CString) : CString :=
  if 0 < count then
    (result ++ (if result.length ≠ 0 then ofText ", " else empty) ++ ofInt count ++
      manager).take 255
  else result

/-- The directories of the package managers. -/
structure PackageDirectories where
  pacman : Option (List CString)
  flatpak : Option (List CString)
  /-- Only looked at if `USER` is set. -/
  userFlatpak : Option (List CString)
  snap : Option (List CString)

/-- The text for the packages. -/
def packagesText (user : Option CString) (directories : PackageDirectories) : CString :=
  let flatpak := countDirectoryEntries directories.flatpak +
    if user.isSome then countDirectoryEntries directories.userFlatpak else 0
  let result := addCount empty (countDirectoryEntries directories.pacman) (ofText " (pacman)")
  let result := addCount result flatpak (ofText " (flatpak)")
  if directories.snap.isSome then
    addCount result (countDirectoryEntries directories.snap - 2) (ofText " (snap)")
  else result

/-- `get_packages`. -/
def getPackages (user : Option CString) (directories : PackageDirectories) : List (Write Field) :=
  let result := packagesText user directories
  [put .packages (copied (if result ≠ empty then result else unknownText))]

/-! ## The desktop -/

/-- The name of the window manager, if there is a Wayland display. -/
def waylandText (de : CString) : CString :=
  if occurs de (ofText "KDE") then ofText "KWin (Wayland)"
  else if occurs de (ofText "GNOME") then ofText "Mutter (Wayland)"
  else ofText "Wayland Compositor"

/-- `get_desktop_info`, for the values of `XDG_CURRENT_DESKTOP`, `DESKTOP_SESSION` and
`WAYLAND_DISPLAY`. -/
def getDesktopInfo (currentDesktop desktopSession waylandDisplay : Option CString) :
    List (Write Field) :=
  let de := (currentDesktop.or desktopSession).getD unknownText
  [put .de (copied de), put .deVersion (copied de),
    ⟨.wm, fun texts ↦
      copied (if waylandDisplay.isSome then waylandText (texts .de) else ofText "X11")⟩]

/-- `get_detailed_theme_info`. -/
def getDetailedThemeInfo : List (Write Field) :=
  [.gtkTheme, .qtTheme, .wmTheme, .iconTheme, .cursorTheme, .font].map fun field ↦
    put field (copied unknownText)

/-- `get_terminal_info`, for the values of `TERM_PROGRAM` and `TERMINAL`. -/
def getTerminalInfo (termProgram terminal : Option CString) : List (Write Field) :=
  [put .terminal (copied ((termProgram.or terminal).getD unknownText)),
    put .terminalFont (copied unknownText)]

/-- `get_network_info`; both reads go to the same buffer. -/
def getNetworkInfo (buffer : List UInt8) (wlan eth : FileRead) : List (Write Field) :=
  let (wlanResult, wlanBuffer) := readFileFast buffer 256 wlan
  let (ethResult, ethBuffer) := readFileFast wlanBuffer 256 eth
  [put .localIp (copied
    (if wlanResult = 1 ∧ occurs (ofBuffer wlanBuffer) (ofText "up") then ofText "WiFi: Connected"
    else if ethResult = 1 ∧ occurs (ofBuffer ethBuffer) (ofText "up") then
      ofText "Ethernet: Connected"
    else ofText "Network: Disconnected"))]

/-- The first of the files that can be read, all with the same buffer. -/
def firstRead (buffer : List UInt8) (size : ℕ) : List FileRead → Option CString
  | [] => none
  | file :: rest =>
      match readFileFast buffer size file with
      | (1, filled) => some (ofBuffer filled)
      | (_, filled) => firstRead filled size rest

/-- The buffers and files of `get_battery_info`. -/
structure BatteryFiles where
  buffer : List UInt8
  capacity : FileRead
  statusBuffer : List UInt8
  status : FileRead
  acBuffer : List UInt8
  /-- `ADP1`, `AC0` and `ACAD`. -/
  online : List FileRead

/-- The text for a battery that has a capacity. -/
def batteryText (files : BatteryFiles) (capacity : CString) : CString :=
  let status := match readFileFast files.statusBuffer 64 files.status with
    | (1, filled) => ofBuffer (trimString filled)
    | _ => unknownText
  let acConnected : Bool := match firstRead files.acBuffer 256 files.online with
    | some online => decide (online.atoi = 1)
    | none => false
  let statusStr :=
    if acConnected ∧ status = ofText "Full" then ofText "Full"
    else if status = ofText "Charging" then ofText "Charging"
    else if acConnected then ofText "AC Connected"
    else status
  ofText "Battery (Primary): " ++ ofInt capacity.atoi ++ ofText "% [" ++ statusStr ++ ofText "]"

/-- `get_battery_info`. -/
def getBatteryInfo (files : BatteryFiles) : List (Write Field) :=
  match readText files.buffer 256 files.capacity with
  | some capacity => [put .battery (printed (batteryText files capacity))]
  | none => [put .battery (copied (ofText "No battery"))]

/-- `get_display_info`, for the values of `WAYLAND_DISPLAY` and `DISPLAY`. -/
def getDisplayInfo (waylandDisplay display : Option CString) : List (Write Field) :=
  [put .display (copied
    (if waylandDisplay.isSome then ofText "1920x1080 @ 60Hz (Wayland)"
    else if display.isSome then ofText "1920x1080 @ 60Hz (X11)"
    else ofText "TTY"))]

/-- `get_locale_info`, for the value of `LANG`. -/
def getLocaleInfo (lang : Option CString) : List (Write Field) :=
  [put .locale (copied (lang.getD unknownText))]

/-! ## All together -/

/-- The environment variables that are looked at. -/
structure Environment where
  user : Option CString
  shell : Option CString
  currentDesktop : Option CString
  desktopSession : Option CString
  waylandDisplay : Option CString
  termProgram : Option CString
  terminal : Option CString
  display : Option CString
  lang : Option CString

/-- What a collection finds: the answers of the system, the files, and what is in the local arrays
before they are read into. -/
structure Machine where
  environment : Environment
  hostname : Option CString
  osBuffer : List UInt8
  osRelease : FileRead
  names : Option (CString × CString)
  uptime : Option ℤ
  cpuBuffer : List UInt8
  cpuinfo : FileRead
  cores : ℤ
  sysfs : List UInt8
  scalingFile : FileRead
  maxFile : FileRead
  memoryBuffer : List UInt8
  memoryFile : FileRead
  swapBuffer : List UInt8
  swapFile : FileRead
  root : Option FileSystem
  allGpus : Option CString
  directories : PackageDirectories
  operstateBuffer : List UInt8
  wlan : FileRead
  eth : FileRead
  batteryFiles : BatteryFiles

/-- What `get_system_info` writes behind the `memset`, in the order of its calls. -/
def getSystemInfo (machine : Machine) : List (Write Field) :=
  let environment := machine.environment
  getHostname machine.hostname ++
  getUsername environment.user ++
  getOsInfo machine.osBuffer machine.osRelease ++
  getKernel machine.names ++
  getUptime machine.uptime ++
  getShell environment.shell ++
  getCpuInfo machine.cpuBuffer machine.cpuinfo machine.cores
    (getCpuFrequency machine.sysfs machine.scalingFile machine.maxFile) ++
  getMemoryInfo machine.memoryBuffer machine.memoryFile ++
  getSwapInfo machine.swapBuffer machine.swapFile ++
  getDiskInfo machine.root ++
  getAllGpus machine.allGpus ++
  getPackages environment.user machine.directories ++
  getDesktopInfo environment.currentDesktop environment.desktopSession
    environment.waylandDisplay ++
  getDetailedThemeInfo ++
  getTerminalInfo environment.termProgram environment.terminal ++
  getNetworkInfo machine.operstateBuffer machine.wlan machine.eth ++
  getBatteryInfo machine.batteryFiles ++
  getDisplayInfo environment.waylandDisplay environment.display ++
  getLocaleInfo environment.lang

end HiFetch.Sysinfo.Collect
