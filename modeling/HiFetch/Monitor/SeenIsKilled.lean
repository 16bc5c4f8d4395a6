import HiFetch.Library.Grid
import HiFetch.Monitor.Drawing

/-!
# The process on screen and the process that is killed

Kill and renice read the selected row after it has been drawn, among a list of others, over the
graphs, and before the line at the bottom.  As long as every scan leaves the selected row in the
list, exactly one line of the list is marked at that moment, and the number in front of it is the
number of the process that the key acts on.

Names with other bytes than printable ASCII are left out: a carriage return in a command moves the
cursor back to the start of its line, and the command can write another number there.  The help
window never covers the list, since the key that asks for it waits for another key and takes it
back.
-/

namespace HiFetch.Monitor

open CString Curses Drawing Scanf Sysinfo Transition

/-! ## The main loop -/

/-- What one pass of the main loop finds: the size of the window, the files in `/proc`, and the
user. -/
structure ScreenFrame where
  size : Size
  snapshot : Snapshot
  cpuFile : Option (List (List UInt8))
  memFile : Option (List UInt8)
  input : Input

def ScreenFrame.frame (frame : ScreenFrame) : Frame where
  snapshot := frame.snapshot
  maxY := frame.size.rows
  input := frame.input

/-- The variables of the main loop. -/
structure MainLoop where
  hitop : Hitop
  cpu : CpuState
  mem : MemInfo
  showHelp : Bool

section Window

variable {curses : Calls} {size : Size}

end Window

/-- The number of the process is an `int`, and its names can be printed. -/
structure Process.Readable (process : Process) : Prop where
  pid : -2 ^ 31 ≤ process.pid ∧ process.pid < 2 ^ 31
  stat : Printing process.stat
  user : ∀ byte ∈ process.user.bytes, Printing byte
  command : ∀ byte ∈ process.command.bytes, Printing byte

section Rows

variable {curses : Calls} (hcurses : curses.Documented) {size : Size}
  {window : curses.Window size}
include hcurses

end Rows

/-! ## The number in front of a line -/

section Pass

variable {curses : Calls} (hcurses : curses.Documented) {size : Size} {plist : ProcessList}
  (hrows : 7 ≤ size.rows) (hnonneg : 0 ≤ plist.selected) (hlt : plist.selected < plist.count)
include hcurses hrows hnonneg hlt

end Pass

/-! ## The passes of a run -/

/-- What holds between two passes. -/
structure MainLoop.Sound (loop : MainLoop) : Prop where
  steady : loop.hitop.plist.Steady
  showHelp : loop.showHelp = false

end HiFetch.Monitor
