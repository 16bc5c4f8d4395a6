import HiFetch.Ascii.InfoLines
import HiFetch.Sysinfo.Record

/-!
# What hifetch shows

`display_system_info` formats its lines from the strings at the fields of the block.  Every field is
written by one of the functions of `get_system_info` only, so what it holds at the end can be said
field by field.  The lines are then those of the table of information lines, whose texts are taken
to fit there.

The number of graphics cards is left out of the block, and is an argument here.
-/

namespace HiFetch.Sysinfo.Collect

open Allocator CString Layout Transition Utils

/-! ## The texts -/

def kernelText : Option (CString × CString) → CString
  | some (sysname, release) =>
      let text := sysname ++ ofText " " ++ release
      if 256 ≤ text.length then unknownText else text
  | none => unknownText

/-- The model of the CPU, as much of it as is copied. -/
def copiedModel (buffer : List UInt8) (file : FileRead) : CString :=
  match readFileFast buffer 4096 file with
  | (1, filled) => ((modelLoop filled 0).getD empty).take 224
  | _ => empty

def modelText (buffer : List UInt8) (file : FileRead) : CString :=
  if copiedModel buffer file = empty then ofText "Unknown CPU" else copiedModel buffer file

def cpuText (machine : Machine) : CString :=
  let model := modelText machine.cpuBuffer machine.cpuinfo
  model ++ (coresText machine.cores
    (getCpuFrequency machine.sysfs machine.scalingFile machine.maxFile)).take (255 - model.length)

def memoryText (buffer : List UInt8) (file : FileRead) : CString :=
  match (memoryAmounts buffer file).bind memoryLine with
  | some line => (usageText (ofText " GiB") line).take 255
  | none => unknownText

def swapText (buffer : List UInt8) (file : FileRead) : CString :=
  match swapAmounts buffer file with
  | some amounts =>
      match swapLine amounts with
      | some line => (usageText (ofText " MiB") line).take 255
      | none => ofText "No swap"
  | none => empty

def packagesLine (machine : Machine) : CString :=
  let result := packagesText machine.environment.user machine.directories
  if result ≠ empty then result else unknownText

def deText (environment : Environment) : CString :=
  (environment.currentDesktop.or environment.desktopSession).getD unknownText

def wmText (environment : Environment) : CString :=
  if environment.waylandDisplay.isSome then waylandText (deText environment) else ofText "X11"

def networkText (buffer : List UInt8) (wlan eth : FileRead) : CString :=
  let (wlanResult, wlanBuffer) := readFileFast buffer 256 wlan
  let (ethResult, ethBuffer) := readFileFast wlanBuffer 256 eth
  if wlanResult = 1 ∧ occurs (ofBuffer wlanBuffer) (ofText "up") then ofText "WiFi: Connected"
  else if ethResult = 1 ∧ occurs (ofBuffer ethBuffer) (ofText "up") then
    ofText "Ethernet: Connected"
  else ofText "Network: Disconnected"

def batteryLine (files : BatteryFiles) : CString :=
  match readText files.buffer 256 files.capacity with
  | some capacity => (batteryText files capacity).take 255
  | none => ofText "No battery"

def displayText (environment : Environment) : CString :=
  if environment.waylandDisplay.isSome then ofText "1920x1080 @ 60Hz (Wayland)"
  else if environment.display.isSome then ofText "1920x1080 @ 60Hz (X11)"
  else ofText "TTY"

/-- The text of every field after a collection. -/
def fieldText (machine : Machine) : Field → CString
  | .hostname => Ascii.getHostname machine.hostname
  | .username => Sysinfo.getUsername machine.environment.user
  | .osName => Sysinfo.getOsInfo machine.osBuffer machine.osRelease
  | .kernel => kernelText machine.names
  | .uptime => (machine.uptime.map fun seconds ↦ (uptimeText seconds).take 255).getD unknownText
  | .shell => (machine.environment.shell.map baseName).getD (ofText "unknown")
  | .cpuModel => cpuText machine
  | .memory => memoryText machine.memoryBuffer machine.memoryFile
  | .swap => swapText machine.swapBuffer machine.swapFile
  | .disk => (machine.root.map fun root ↦ (diskText root).take 255).getD unknownText
  | .gpu slot => ((Sysinfo.getAllGpus zeroGpus machine.allGpus).stored[slot.val]?).getD empty
  | .packages => packagesLine machine
  | .de | .deVersion => deText machine.environment
  | .wm => wmText machine.environment
  | .wmTheme | .gtkTheme | .qtTheme | .iconTheme | .cursorTheme | .font => unknownText
  | .terminal => (machine.environment.termProgram.or machine.environment.terminal).getD unknownText
  | .terminalFont => unknownText
  | .localIp => networkText machine.operstateBuffer machine.wlan machine.eth
  | .battery => batteryLine machine.batteryFiles
  | .locale => machine.environment.lang.getD unknownText
  | .display => displayText machine.environment
  | .resolution | .refreshRate => empty

/-! ## Who writes a field -/

/-- The number of the function that writes a field; nothing writes the last two. -/
def Field.owner : Field → ℕ
  | .hostname => 0
  | .username => 1
  | .osName => 2
  | .kernel => 3
  | .uptime => 4
  | .shell => 5
  | .cpuModel => 6
  | .memory => 7
  | .swap => 8
  | .disk => 9
  | .gpu _ => 10
  | .packages => 11
  | .de | .deVersion | .wm => 12
  | .wmTheme | .gtkTheme | .qtTheme | .iconTheme | .cursorTheme | .font => 13
  | .terminal | .terminalFont => 14
  | .localIp => 15
  | .battery => 16
  | .display => 17
  | .locale => 18
  | .resolution | .refreshRate => 19

section Groups

variable (machine : Machine)

end Groups

/-! ## What a function leaves -/

section Kinds

variable {before : Field → List UInt8} (hsize : ∀ field, (before field).length = 256)

include hsize

end Kinds

section Functions

variable {before : Field → List UInt8} (hsize : ∀ field, (before field).length = 256)

include hsize

end Functions

/-! ## All functions -/

section Collection

variable (machine : Machine)

end Collection

/-! ## The lines -/

/-- The fields that are displayed, with their texts. -/
def fields (text : Field → CString) (gpus : GpuList) : Ascii.InfoFields where
  hostname := text .hostname
  osName := text .osName
  kernel := text .kernel
  uptime := text .uptime
  shell := text .shell
  cpuModel := text .cpuModel
  memory := text .memory
  swap := text .swap
  disk := text .disk
  gpus := gpus
  packages := text .packages
  deVersion := text .deVersion
  wm := text .wm
  wmTheme := text .wmTheme
  gtkTheme := text .gtkTheme
  qtTheme := text .qtTheme
  iconTheme := text .iconTheme
  cursorTheme := text .cursorTheme
  font := text .font
  terminal := text .terminal
  localIp := text .localIp
  battery := text .battery
  locale := text .locale
  display := text .display

/-- What is collected for the table of information lines. -/
def sources (machine : Machine) : Ascii.Sources where
  hostname := machine.hostname
  allGpus := machine.allGpus
  texts := fields (fieldText machine) zeroGpus

section Shown

variable (machine : Machine) (behind : List UInt8) (h : machine.environment.Fits)
  (hostInfo : CString) (colors editor : Option CString)

include h

end Shown

end HiFetch.Sysinfo.Collect
