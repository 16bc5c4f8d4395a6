import HiFetch.Library.Curses
import HiFetch.Library.FixedPoint
import HiFetch.Monitor.Display
import HiFetch.Monitor.Graphs

/-!
# What hitop draws

One pass of the main loop clears the window, draws the header, the two graphs, the rows of the
process list and the line at the bottom, and then waits for a key.  The rows start in line five, so
they are drawn over the lower part of the graphs.  A row that is longer than a line goes on in the
next one, under the row that is drawn there afterwards.

Colour pair seven, which marks the selected row, is that of the swap bar and of a memory graph above
80 percent, and not the pair `COLOR_SELECTED`.  Percentages are exact fractions here.
-/

namespace HiFetch.Monitor.Drawing

open CString Curses Sysinfo

def colorDefault : ℕ := 1

/-- `COLOR_CPU_LOW`, `COLOR_CPU_MED` and `COLOR_CPU_HIGH`. -/
def cpuPair : GraphColor → ℕ
  | .low => 2
  | .med => 3
  | .high => 4

/-- `COLOR_MEM_LOW`, `COLOR_MEM_MED` and `COLOR_MEM_HIGH`. -/
def memPair : GraphColor → ℕ
  | .low => 5
  | .med => 6
  | .high => 7

def colorBorder : ℕ := 10

/-! ## Boxes, bars and graphs -/

variable (curses : Calls) {size : Size}

/-- The same symbol at several places. -/
def repeated (window : curses.Window size) (glyph : Glyph) (places : List (ℤ × ℤ)) :
    curses.Window size :=
  places.foldl (fun window place ↦ curses.mvaddch window place.1 place.2 glyph) window

/-- `draw_box`, with the title in the middle of the upper edge. -/
def drawBox (window : curses.Window size) (y x height width : ℤ) (title : CString) :
    curses.Window size :=
  let window := curses.attron window colorBorder
  let window := curses.mvaddch window y x .upperLeft
  let window := curses.mvaddch window y (x + width - 1) .upperRight
  let window := curses.mvaddch window (y + height - 1) x .lowerLeft
  let window := curses.mvaddch window (y + height - 1) (x + width - 1) .lowerRight
  let window := repeated curses window .horizontal
    ((List.range (width - 2).toNat).flatMap fun (i : ℕ) ↦
      [(y, x + (i + 1)), (y + height - 1, x + (i + 1))])
  let window := repeated curses window .vertical
    ((List.range (height - 2).toNat).flatMap fun (i : ℕ) ↦
      [(y + (i + 1), x), (y + (i + 1), x + width - 1)])
  let window := curses.mvprintw window y (x + (width - title.length).tdiv 2) title.bytes
  curses.attroff window colorBorder

def drawProgressBar (window : curses.Window size) (y x width : ℤ) (percent : ℚ) (color : ℕ) :
    curses.Window size :=
  let filled := truncate (percent / 100 * width)
  let window := repeated curses (curses.attron window color) .block
    ((List.range (min filled width).toNat).map fun (i : ℕ) ↦ (y, x + i))
  let window := curses.attron (curses.attroff window color) colorDefault
  let window := repeated curses window .board
    ((List.range (width - filled).toNat).map fun (i : ℕ) ↦ (y, x + (filled + i)))
  curses.attroff window colorDefault

/-- The blocks of a graph, each in the pair of its colour. -/
def drawBlocks (window : curses.Window size) (pair : GraphColor → ℕ) (blocks : List Block) :
    curses.Window size :=
  blocks.foldl (fun window block ↦
    let window := curses.attron window (pair block.color)
    let window := curses.mvaddch window block.row block.column .block
    curses.attroff window (pair block.color)) window

/-- `%.1f` -/
def tenths (value : ℚ) : CString :=
  ofBuffer (fixed 1 value).bytes

def drawCpuGraph (window : curses.Window size) (cpu : CpuState) (y x : ℤ) : curses.Window size :=
  let window := drawBox curses window y x (8 + 2) (50 + 2) (ofText "CPU Usage")
  let window := drawBlocks curses window cpuPair (Monitor.drawCpuGraph cpu y x)
  let window := curses.attron window colorDefault
  let window := curses.mvprintw window (y + 8 + 2) (x + 2)
    (ofText "Total: " ++ tenths cpu.totalUsage ++ ofText "%").bytes
  let window := curses.mvprintw window (y + 8 + 3) (x + 2)
    (ofText "Cores: " ++ ofInt cpu.cores).bytes
  curses.attroff window colorDefault

/-- `%.1f/%.1f GB (%.1f%%)`, of an amount in kilobytes. -/
def usage (used total : UInt64) (percent : ℚ) : CString :=
  tenths (used.toNat / 1048576) ++ ofText "/" ++ tenths (total.toNat / 1048576) ++
    ofText " GB (" ++ tenths percent ++ ofText "%)"

def drawMemGraph (window : curses.Window size) (mem : MemInfo) (y x : ℤ) : curses.Window size :=
  let window := drawBox curses window y x (8 + 4) (50 + 2) (ofText "Memory Usage")
  let window :=
    drawProgressBar curses window (y + 1) (x + 2) (50 - 2) mem.usagePercent (memPair .med)
  let window :=
    drawProgressBar curses window (y + 2) (x + 2) (50 - 2) mem.swapPercent (memPair .high)
  let window := drawBlocks curses window memPair (Monitor.drawMemGraph mem y x)
  let window := curses.attron window colorDefault
  let window := curses.mvprintw window (y + 8 + 2) (x + 2)
    (ofText "RAM: " ++ usage mem.used mem.total mem.usagePercent).bytes
  let window := curses.mvprintw window (y + 8 + 3) (x + 2)
    (ofText "Swap: " ++ usage mem.swapUsed mem.swapTotal mem.swapPercent).bytes
  curses.attroff window colorDefault

/-! ## The rows -/

/-- A text on the right of a column of at least this width. -/
def padLeft (width : ℕ) (text : CString) : List UInt8 :=
  List.replicate (width - text.length) 32 ++ text.bytes

/-- A text on the left of a column of at least this width. -/
def padRight (width : ℕ) (text : CString) : List UInt8 :=
  text.bytes ++ List.replicate (width - text.length) 32

/-- The columns `%5d %-8s %5.1f %5.1f %6d %6d %-8s %4s %5s %7s %.40s` behind the first one.  The two
sizes are of type `long`, and `%d` prints their lower half. -/
def otherColumns (process : Process) : List (List UInt8) :=
  [padRight 8 process.user, padLeft 5 (tenths process.cpu), padLeft 5 (tenths process.mem),
    padLeft 6 (ofInt ((process.vsz : ℤ).bmod (2 ^ 32))),
    padLeft 6 (ofInt ((process.rss : ℤ).bmod (2 ^ 32))), padRight 8 (ofText "?"),
    padLeft 4 (ofBuffer [process.stat]), padLeft 5 (ofText "00:00"), padLeft 7 (ofText "00:00"),
    process.command.bytes.take 40]

/-- The line that `display_processes` prints for a process. -/
def rowText (process : Process) : List UInt8 :=
  padLeft 5 (ofInt process.pid) ++ (otherColumns process).flatMap (32 :: ·)

/-- One round of the loop of `display_processes`.  A row outside the array is left out. -/
def drawRow (window : curses.Window size) (row : DrawnRow) : curses.Window size :=
  match row.process with
  | none => window
  | some process =>
      if row.highlighted then
        curses.attroff (curses.mvprintw (curses.attron window 7) row.y 0 (rowText process)) 7
      else curses.mvprintw window row.y 0 (rowText process)

/-- What `display_processes` prints into the last line. -/
def keyLine (plist : ProcessList) : CString :=
  if 0 < plist.filter.length then
    ofText "Filter: '" ++ plist.filter ++
      ofText "' | x:kill f:filter c:clear +/-:nice q:quit"
  else ofText "x:kill f:filter s:sort r:reverse +/-:nice h:help q:quit"

def displayProcesses (window : curses.Window size) (plist : ProcessList) : curses.Window size :=
  let window := curses.attron ((drawProcesses size.rows plist).foldl (drawRow curses) window) 6
  curses.attroff (curses.mvprintw window ((size.rows : ℤ) - 1) 0 (keyLine plist).bytes) 6

/-! ## Dialogs -/

/-- `%*s` with an empty string: blanks, as many as the width, also of a negative one. -/
def blanks (width : ℤ) : List UInt8 := List.replicate width.natAbs 32

end HiFetch.Monitor.Drawing
