import HiFetch.Library.HistoryRing
import HiFetch.Sysinfo.MemInfo

/-!
# The history graphs

`update_history` keeps the last 60 values of a quantity in a ring, and the two graphs of hitop read
their columns from it.  Both start 50 values before the newest one.  That is right for the CPU
graph with its 50 columns, but the memory graph draws 48 columns, so its two newest values are never
drawn.
-/

namespace HiFetch.Monitor

open HistoryRing Sysinfo

/-- `update_history` for the memory. -/
def updateMemHistory (mem : MemInfo) (value : ℚ) : MemInfo :=
  { mem with
    history := Function.update mem.history mem.historyPos value
    historyPos := (mem.historyPos + 1).tmod 60 }

/-- The usage of the memory is what `get_mem_info` pushes. -/
theorem getMemInfo_some (mem : MemInfo) (text : List UInt8) :
    getMemInfo mem (some text) =
      let read := lineLoop memInfoRound mem (readLines 255 text)
      let used := read.total - read.available
      updateMemHistory
        { read with
          used := used
          usagePercent := percentOf used read.total
          swapPercent := percentOf read.swapUsed read.swapTotal } (percentOf used read.total) := rfl

/-- The CPU after a sequence of `update_history` from a zeroed ring. -/
def CpuState.afterSamples (cpu : CpuState) (samples : List ℚ) : CpuState :=
  samples.foldl updateHistory { cpu with history := fun _ ↦ 0, historyPos := 0 }

/-- The memory after a sequence of `update_history` from a zeroed ring. -/
def memAfterSamples (mem : MemInfo) (samples : List ℚ) : MemInfo :=
  samples.foldl updateMemHistory { mem with history := fun _ ↦ 0, historyPos := 0 }

def memGraphColor (value : ℚ) : GraphColor :=
  if 80 < value then .high else if 50 < value then .med else .low

/-- The blocks of the history that `draw_mem_graph` draws. -/
def drawMemGraph (mem : MemInfo) (y x : ℤ) : List Block :=
  (List.range 6).flatMap fun (i : ℕ) ↦
    let histPos := (mem.historyPos - 50 + 60).tmod 60
    (List.range 48).filterMap fun (j : ℕ) ↦
      let value := mem.history ((histPos + j).tmod 60)
      let barHeight := truncate (value / 100 * 6)
      if 6 - barHeight ≤ i then
        some ⟨y + 3 + 6 - i, x + 2 + j, memGraphColor value⟩
      else none

/-! ## Bars -/

/-- What the bar of a value has in a row, counted from the bottom. -/
def barCell (height : ℕ) (color : ℚ → GraphColor) (value : ℚ) (row : ℕ) : Option GraphColor :=
  if (height : ℤ) - truncate (value / 100 * height) ≤ row then some (color value) else none

/-- The bars of the values, side by side, with the lowest left block at the given place. -/
def drawBars (height width : ℕ) (color : ℚ → GraphColor) (bottom left : ℤ) (values : ℕ → ℚ) :
    List Block :=
  (List.range height).flatMap fun (row : ℕ) ↦
    (List.range width).filterMap fun (column : ℕ) ↦
      (barCell height color (values column) row).map fun color ↦
        ⟨bottom - row, left + column, color⟩

theorem mem_drawBars_iff {height width : ℕ} {color : ℚ → GraphColor} {bottom left : ℤ}
    {values : ℕ → ℚ} {row column : ℕ} (hrow : row < height) (hcolumn : column < width)
    (shade : GraphColor) :
    (⟨bottom - row, left + column, shade⟩ : Block) ∈
        drawBars height width color bottom left values ↔
      barCell height color (values column) row = some shade := by
  unfold drawBars
  constructor
  · intro hmem
    obtain ⟨row', -, hmem⟩ := List.mem_flatMap.1 hmem
    obtain ⟨column', -, hmem⟩ := List.mem_filterMap.1 hmem
    obtain ⟨shade', hcell, hblock⟩ := Option.map_eq_some_iff.1 hmem
    simp only [Block.mk.injEq, sub_right_inj, add_right_inj, Nat.cast_inj] at hblock
    obtain ⟨rfl, rfl, rfl⟩ := hblock
    exact hcell
  · intro hcell
    refine List.mem_flatMap.2 ⟨row, List.mem_range.2 hrow, ?_⟩
    refine List.mem_filterMap.2 ⟨column, List.mem_range.2 hcolumn, ?_⟩
    rw [hcell, Option.map_some]

/-- Two graphs are the same exactly when all their bars look the same. -/
theorem drawBars_eq_iff {height width : ℕ} {color : ℚ → GraphColor} {bottom left : ℤ}
    {values others : ℕ → ℚ} :
    drawBars height width color bottom left values =
        drawBars height width color bottom left others ↔
      ∀ column < width, ∀ row < height,
        barCell height color (values column) row = barCell height color (others column) row := by
  constructor
  · intro heq column hcolumn row hrow
    apply Option.ext
    intro shade
    rw [← mem_drawBars_iff hrow hcolumn, ← mem_drawBars_iff hrow hcolumn, heq]
  · intro hcells
    unfold drawBars
    apply List.flatMap_congr
    intro row hrow
    apply List.filterMap_congr
    intro column hcolumn
    rw [hcells column (List.mem_range.1 hcolumn) row (List.mem_range.1 hrow)]

/-! ## The columns -/

/-- The ring that a sequence of `update_history` leaves. -/
def pushed (samples : List ℚ) : History ℚ := samples.foldl (History.push 60) (blankHistory 0)

theorem CpuState.afterSamples_eq (cpu : CpuState) (samples : List ℚ) :
    cpu.afterSamples samples =
      { cpu with history := (pushed samples).cells, historyPos := (pushed samples).position } := by
  unfold CpuState.afterSamples pushed
  induction samples using List.reverseRecOn with
  | nil => rfl
  | append_singleton samples sample ih =>
    rw [List.foldl_append, List.foldl_append, ih]
    rfl

theorem memAfterSamples_eq (mem : MemInfo) (samples : List ℚ) :
    memAfterSamples mem samples =
      { mem with history := (pushed samples).cells, historyPos := (pushed samples).position } := by
  unfold memAfterSamples pushed
  induction samples using List.reverseRecOn with
  | nil => rfl
  | append_singleton samples sample ih =>
    rw [List.foldl_append, List.foldl_append, ih]
    rfl

/-- A column of a graph that starts 50 values before the newest one. -/
theorem read_pushed (samples : List ℚ) {column : ℕ} (h : column < 50) :
    (pushed samples).cells ((((pushed samples).position - 50 + 60).tmod 60 + column).tmod 60) =
      recent 0 samples 50 column := by
  have hholds : Holds 60 0 samples (pushed samples) :=
    holds_foldl_push (by decide) 0 samples
  have hnonneg := hholds.nonneg
  have hcell : (((pushed samples).position - 50 + 60).tmod 60 + column).tmod 60 =
      ((pushed samples).position + (10 + column : ℕ)).tmod 60 := by
    rw [Int.tmod_eq_emod_of_nonneg (by omega : 0 ≤ (pushed samples).position - 50 + 60),
      Int.tmod_eq_emod_of_nonneg (by omega), Int.tmod_eq_emod_of_nonneg (by omega)]
    omega
  calc
    _ = (pushed samples).read 60 (10 + column) := congrArg (pushed samples).cells hcell
    _ = recent 0 samples 60 (10 + column) := hholds.read _ (by omega)
    _ = recent 0 samples 50 column := (recent_of_le 0 samples (by decide : 50 ≤ 60) column).symm

/-- The CPU graph shows the 50 newest samples. -/
def CpuGraphShows (cpu : CpuState) (samples : List ℚ) : Prop :=
  ∀ y x, drawCpuGraph (cpu.afterSamples samples) y x =
    drawBars 8 50 graphColor (y + 8) (x + 1) (recent 0 samples 50)

/-- The memory graph shows the 48 newest samples. -/
def MemGraphShows (mem : MemInfo) (samples : List ℚ) : Prop :=
  ∀ y x, drawMemGraph (memAfterSamples mem samples) y x =
    drawBars 6 48 memGraphColor (y + 9) (x + 2) (recent 0 samples 48)

theorem cpuGraphShows (cpu : CpuState) (samples : List ℚ) : CpuGraphShows cpu samples := by
  intro y x
  rw [cpu.afterSamples_eq]
  apply List.flatMap_congr
  intro i _
  apply List.filterMap_congr
  intro j hj
  rw [List.mem_range] at hj
  dsimp only
  rw [read_pushed samples hj]
  simp only [barCell, Nat.cast_ofNat]
  split_ifs <;> rfl

/-- What the memory graph draws: the first 48 of the 50 newest samples. -/
theorem drawMemGraph_eq (mem : MemInfo) (samples : List ℚ) (y x : ℤ) :
    drawMemGraph (memAfterSamples mem samples) y x =
      drawBars 6 48 memGraphColor (y + 9) (x + 2) (recent 0 samples 50) := by
  rw [memAfterSamples_eq]
  apply List.flatMap_congr
  intro i _
  apply List.filterMap_congr
  intro j hj
  rw [List.mem_range] at hj
  dsimp only
  rw [read_pushed samples (by omega), show y + 3 + 6 - (i : ℤ) = y + 9 - i by ring]
  simp only [barCell, Nat.cast_ofNat]
  split_ifs <;> rfl

/-- Both graphs end at the newest sample exactly when, as far as the memory graph can show it, the
50 newest samples repeat every second one. -/
theorem graphsShow_iff (cpu : CpuState) (mem : MemInfo) (samples : List ℚ) :
    CpuGraphShows cpu samples ∧ MemGraphShows mem samples ↔
      ∀ column < 48, ∀ row < 6,
        barCell 6 memGraphColor (recent 0 samples 50 column) row =
          barCell 6 memGraphColor (recent 0 samples 50 (column + 2)) row := by
  have hshift : ∀ column, recent 0 samples 48 column = recent 0 samples 50 (column + 2) := by
    intro column
    rw [recent_of_le 0 samples (by decide : 48 ≤ 50) column, Nat.add_comm]
  have hmem : MemGraphShows mem samples ↔
      ∀ column < 48, ∀ row < 6,
        barCell 6 memGraphColor (recent 0 samples 50 column) row =
          barCell 6 memGraphColor (recent 0 samples 48 column) row := by
    unfold MemGraphShows
    constructor
    · intro hshows
      exact drawBars_eq_iff.1 ((drawMemGraph_eq mem samples 0 0).symm.trans (hshows 0 0))
    · intro hcells y x
      rw [drawMemGraph_eq]
      exact drawBars_eq_iff.2 hcells
  rw [and_iff_right (cpuGraphShows cpu samples), hmem]
  simp only [hshift]

/-- `init_hitop` clears the structure with `memset`. -/
def startMemInfo : MemInfo where
  total := 0
  used := 0
  available := 0
  buffers := 0
  cached := 0
  swapTotal := 0
  swapUsed := 0
  usagePercent := 0
  swapPercent := 0
  history := fun _ ↦ 0
  historyPos := 0

/-- A single sample of 100 percent is not drawn at all. -/
theorem not_graphsShow :
    ¬(CpuGraphShows startCpuState [100] ∧ MemGraphShows startMemInfo [100]) := by
  rintro ⟨-, hmem⟩
  have heq := (drawMemGraph_eq startMemInfo [100] 0 0).symm.trans (hmem 0 0)
  exact absurd (drawBars_eq_iff.1 heq 47 (by decide) 0 (by decide)) (by decide +kernel)

end HiFetch.Monitor
