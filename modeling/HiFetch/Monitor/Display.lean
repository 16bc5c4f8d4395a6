import HiFetch.Monitor.Selection

/-!
# The rows on screen

`display_processes` moves the offset so that the selected row is on screen, and draws the rows from
the offset on.  The two corrections move the offset to the selected row or to a page that ends with
it, and leave an offset below zero where it is if the selected row is on the page that starts there.
An offset below zero is what the keys to the last row leave behind on an empty list.

The text of a row is left out, but not the process that it is printed from.
-/

namespace HiFetch.Monitor

open CString Transition

def ProcessList.rowAt (plist : ProcessList) (index : ℤ) : Option Process :=
  if 0 ≤ index then plist.processes[index.toNat]? else none

/-- A row on screen: its line, the index that it shows, and the process there if the index is inside
the array. -/
structure DrawnRow where
  y : ℤ
  index : ℤ
  process : Option Process
  highlighted : Bool

def displayCount (maxY : ℤ) (plist : ProcessList) : ℤ :=
  if (plist.count : ℤ) < maxY - 6 then plist.count else maxY - 6

/-- The loop of `display_processes`, from round `i` on. -/
def drawLoop (plist : ProcessList) : ℕ → ℤ → List DrawnRow
  | 0, _ => []
  | remaining + 1, i =>
      let index := plist.offset + i
      if (plist.count : ℤ) ≤ index then []
      else
        { y := 5 + i
          index := index
          process := plist.rowAt index
          highlighted := index = plist.selected } :: drawLoop plist remaining (i + 1)

/-- The rows that `display_processes` draws. -/
def drawProcesses (maxY : ℤ) (plist : ProcessList) : List DrawnRow :=
  drawLoop (displayProcesses maxY plist) (displayCount maxY plist).toNat 0

/-! ## The law -/

/-- The rows on screen are a page of the list with the selected row on it. -/
structure ShowsSelected (maxY : ℤ) (plist : ProcessList) : Prop where
  consecutive : ∃ first : ℤ, (drawProcesses maxY plist).map (fun row ↦ (row.y, row.index)) =
    (List.range (drawProcesses maxY plist).length).map fun (i : ℕ) ↦ (5 + (i : ℤ), first + i)
  inside : ∀ row ∈ drawProcesses maxY plist, 0 ≤ row.index ∧ row.index < plist.count
  onScreen : ∀ row ∈ drawProcesses maxY plist, 5 ≤ row.y ∧ row.y ≤ maxY - 2
  highlighted : ((drawProcesses maxY plist).filter (·.highlighted)).map (·.index) = [plist.selected]
  length_le : ((drawProcesses maxY plist).length : ℤ) ≤ min (maxY - 6) plist.count
  stable : (displayProcesses maxY (displayProcesses maxY plist)).offset =
    (displayProcesses maxY plist).offset

/-! ## The loop -/

/-- The number of rows up to the end of the list or of the screen. -/
def pageLength (plist : ProcessList) (remaining : ℕ) (i : ℤ) : ℕ :=
  min remaining (plist.count - (plist.offset + i)).toNat

/-- The loop draws one row after the other, until the page or the list ends. -/
theorem drawLoop_eq (plist : ProcessList) (remaining : ℕ) (i : ℤ) :
    drawLoop plist remaining i =
      (List.range (pageLength plist remaining i)).map fun (j : ℕ) ↦
        { y := 5 + (i + j)
          index := plist.offset + (i + j)
          process := plist.rowAt (plist.offset + (i + j))
          highlighted := plist.offset + (i + j) = plist.selected } := by
  induction remaining generalizing i with
  | zero =>
    have hnone : pageLength plist 0 i = 0 := Nat.zero_min _
    rw [hnone]
    rfl
  | succ remaining ih =>
    unfold drawLoop
    dsimp only
    split_ifs with hend
    · have hnone : pageLength plist (remaining + 1) i = 0 := by
        unfold pageLength
        omega
      rw [hnone]
      rfl
    · have hmore : pageLength plist (remaining + 1) i =
          pageLength plist remaining (i + 1) + 1 := by
        unfold pageLength
        omega
      have hshift : ∀ j : ℕ, i + 1 + (j : ℤ) = i + ((j + 1 : ℕ) : ℤ) := by
        intro j
        push_cast
        ring
      rw [hmore, List.range_succ_eq_map, List.map_cons, List.map_map, ih]
      simp only [hshift, Function.comp_def, Nat.cast_zero, add_zero, Nat.succ_eq_add_one]

/-! ## The offset -/

/-- The two corrections, one after the other. -/
theorem displayProcesses_offset (maxY : ℤ) (plist : ProcessList) :
    (displayProcesses maxY plist).offset =
      if plist.selected <
          (if plist.offset + displayCount maxY plist ≤ plist.selected then
            plist.selected - displayCount maxY plist + 1 else plist.offset) then plist.selected
      else if plist.offset + displayCount maxY plist ≤ plist.selected then
        plist.selected - displayCount maxY plist + 1 else plist.offset := rfl

/-- What the two corrections leave: the selected row is on the page that starts at the offset. -/
theorem offset_displayProcesses {maxY : ℤ} {plist : ProcessList} (hmax : 7 ≤ maxY)
    (hnonneg : 0 ≤ plist.selected) (hlt : plist.selected < plist.count) :
    (displayProcesses maxY plist).offset ≤ plist.selected ∧
      plist.selected < (displayProcesses maxY plist).offset + displayCount maxY plist ∧
      (0 ≤ (displayProcesses maxY plist).offset ↔
        0 ≤ plist.offset ∨ displayCount maxY plist ≤ plist.selected + 1) := by
  have hcount : 1 ≤ displayCount maxY plist := by
    unfold displayCount
    split_ifs <;> omega
  rw [displayProcesses_offset]
  split_ifs <;> omega

/-- A page with the selected row on it stays where it is. -/
theorem displayProcesses_of_shown {maxY : ℤ} {plist : ProcessList}
    (hle : plist.offset ≤ plist.selected)
    (hlt : plist.selected < plist.offset + displayCount maxY plist) :
    (displayProcesses maxY plist).offset = plist.offset := by
  rw [displayProcesses_offset, if_neg (not_le.2 hlt), if_neg (not_lt.2 hle)]

/-- One number of a range is the number looked for. -/
theorem filter_range_add {length place : ℕ} (h : place < length) (first : ℤ) :
    ((List.range length).filter fun (j : ℕ) ↦ first + j = first + place) = [place] := by
  have hsame : (fun j : ℕ ↦ decide (first + (j : ℤ) = first + place)) =
      fun j ↦ decide (j = place) := by
    funext j
    rw [decide_eq_decide, add_right_inj, Nat.cast_inj]
  rw [hsame, List.filter_eq, List.count_eq_one_of_mem List.nodup_range (List.mem_range.2 h),
    List.replicate_one]

/-! ## One frame -/

section Frame

variable {maxY : ℤ} {plist : ProcessList} (hmax : 7 ≤ maxY) (hnonneg : 0 ≤ plist.selected)
  (hlt : plist.selected < plist.count)
include hmax hnonneg hlt

/-- The rows that one frame draws, by their place on the page. -/
theorem drawProcesses_eq : ∃ length place : ℕ, place < length ∧
    (length : ℤ) ≤ displayCount maxY plist ∧
    (displayProcesses maxY plist).offset + length ≤ plist.count ∧
    (displayProcesses maxY plist).offset + place = plist.selected ∧
    drawProcesses maxY plist = (List.range length).map fun (j : ℕ) ↦
      { y := 5 + (j : ℤ)
        index := (displayProcesses maxY plist).offset + j
        process := plist.rowAt ((displayProcesses maxY plist).offset + j)
        highlighted := (displayProcesses maxY plist).offset + j = plist.selected } := by
  obtain ⟨hle, hshown, -⟩ := offset_displayProcesses hmax hnonneg hlt
  have hpage := drawLoop_eq (displayProcesses maxY plist) (displayCount maxY plist).toNat 0
  have hlength : pageLength (displayProcesses maxY plist) (displayCount maxY plist).toNat 0 =
      min (displayCount maxY plist).toNat
        ((plist.count : ℤ) - ((displayProcesses maxY plist).offset + 0)).toNat := rfl
  simp only [zero_add] at hpage
  refine ⟨_, (plist.selected - (displayProcesses maxY plist).offset).toNat, ?_, ?_, ?_, ?_, hpage⟩
  · omega
  · omega
  · omega
  · omega

/-- A page that starts inside the list shows the selected row. -/
theorem showsSelected_of_nonneg (h : 0 ≤ (displayProcesses maxY plist).offset) :
    ShowsSelected maxY plist := by
  obtain ⟨hle, hshown, -⟩ := offset_displayProcesses hmax hnonneg hlt
  obtain ⟨length, place, hplace, hlength, hend, hselected, hrows⟩ :=
    drawProcesses_eq hmax hnonneg hlt
  have hbound : displayCount maxY plist ≤ min (maxY - 6) plist.count := by
    unfold displayCount
    split_ifs <;> omega
  have hmem : ∀ row ∈ drawProcesses maxY plist, ∃ j : ℕ, j < length ∧ row.y = 5 + (j : ℤ) ∧
      row.index = (displayProcesses maxY plist).offset + j := by
    intro row hrow
    rw [hrows] at hrow
    obtain ⟨j, hj, rfl⟩ := List.mem_map.1 hrow
    exact ⟨j, List.mem_range.1 hj, rfl, rfl⟩
  constructor
  · refine ⟨(displayProcesses maxY plist).offset, ?_⟩
    rw [hrows, List.map_map, List.length_map, List.length_range]
    rfl
  · intro row hrow
    obtain ⟨j, hj, -, hindex⟩ := hmem row hrow
    omega
  · intro row hrow
    obtain ⟨j, hj, hy, -⟩ := hmem row hrow
    omega
  · rw [hrows, List.filter_map, List.map_map]
    simp only [Function.comp_def, ← hselected]
    rw [filter_range_add hplace]
    rfl
  · rw [hrows, List.length_map, List.length_range]
    omega
  · exact displayProcesses_of_shown hle hshown

/-- A page that starts before the list shows the row before the first one. -/
theorem nonneg_of_showsSelected (h : ShowsSelected maxY plist) :
    0 ≤ (displayProcesses maxY plist).offset := by
  obtain ⟨length, place, hplace, -, -, -, hrows⟩ := drawProcesses_eq hmax hnonneg hlt
  have hpos : 0 < length := by omega
  have hfirst := h.inside _ (hrows ▸ List.mem_map_of_mem (List.mem_range.2 hpos))
  simpa using hfirst.1

end Frame

/-! ## The frames of a run -/

/-- The list that `display_processes` gets in a frame. -/
def scannedList (qsort : Qsort) (hitop : Hitop) (frame : Frame) : ProcessList :=
  (getProcesses qsort frame.snapshot hitop.plist hitop.statics).1

/-- A frame with the selected row in the list and room for a row shows the selected row. -/
def ShowsSelection (qsort : Qsort) (hitop : Hitop) (frame : Frame) : Prop :=
  hitop.running → 7 ≤ frame.maxY → 0 ≤ (scannedList qsort hitop frame).selected →
    (scannedList qsort hitop frame).selected < (scannedList qsort hitop frame).count →
      ShowsSelected frame.maxY (scannedList qsort hitop frame)

/-- The keys that go to the last row are not pressed on an empty list. -/
def LeavesEmptyList (hitop : Hitop) (frame : Frame) : Prop :=
  hitop.running → rowCount hitop.plist frame.snapshot = 0 →
    command frame.input.key ≠ .last ∧ command frame.input.key ≠ .pageDown

/-- A scan and a key leave the offset where it is. -/
theorem getProcesses_offset (qsort : Qsort) (snapshot : Snapshot) (plist : ProcessList)
    (statics : Statics) :
    (getProcesses qsort snapshot plist statics).1.offset = plist.offset := by
  cases hentries : snapshot.entries <;> simp only [getProcesses, hentries]

theorem handleInput_offset (plist : ProcessList) (input : Input) :
    (handleInput plist input).1.offset = plist.offset := by
  unfold handleInput
  cases command input.key <;> rfl

/-- No screen moves the offset of a list with a selected row below zero. -/
theorem offset_displayProcesses_nonneg (maxY : ℤ) {plist : ProcessList}
    (hoffset : 0 ≤ plist.offset) (hnonneg : 0 ≤ plist.selected) :
    0 ≤ (displayProcesses maxY plist).offset := by
  rw [displayProcesses_offset]
  split_ifs <;> omega

/-- What holds of the list between two frames. -/
structure ProcessList.Steady (plist : ProcessList) : Prop where
  sound : plist.Sound
  nonneg : 0 ≤ plist.offset

theorem steady_frameStep (qsort : Qsort) {hitop : Hitop} (h : hitop.plist.Steady) {frame : Frame}
    (hleaves : LeavesEmptyList hitop frame) : (frameStep qsort hitop frame).plist.Steady := by
  unfold frameStep
  split_ifs with hrunning
  · obtain ⟨hvalid, hcount, hselected, hfilter⟩ := onScreen_spec qsort h.sound.valid frame
    have hsound : (onScreen qsort hitop frame).Sound :=
      ⟨hvalid, hselected ▸ h.sound.nonneg, hfilter ▸ h.sound.filter_le⟩
    have hlast := hleaves hrunning
    rw [← hcount] at hlast
    constructor
    · exact handleInput_sound hsound hlast
    · show 0 ≤ (handleInput (onScreen qsort hitop frame) frame.input).1.offset
      rw [handleInput_offset]
      apply offset_displayProcesses_nonneg
      · rw [getProcesses_offset]
        exact h.nonneg
      · rw [(getProcesses_selected qsort frame.snapshot hitop.plist hitop.statics).1]
        exact h.sound.nonneg
  · exact h

/-- A frame shows the selected row if and only if the offset that it finds is not below zero, or the
page that ends with the selected row starts inside the list.  In a run in which the keys to the last
row are not pressed on an empty list, every frame shows it. -/
theorem showsSelected_iff_and_along_showsSelection (qsort : Qsort) :
    (∀ (maxY : ℤ) (plist : ProcessList), 7 ≤ maxY → 0 ≤ plist.selected →
      plist.selected < plist.count →
      (ShowsSelected maxY plist ↔
        0 ≤ plist.offset ∨ displayCount maxY plist ≤ plist.selected + 1)) ∧
    ∀ frames, Along (frameStep qsort) LeavesEmptyList initialHitop frames →
      Along (frameStep qsort) (ShowsSelection qsort) initialHitop frames := by
  constructor
  · intro maxY plist hmax hnonneg hlt
    rw [← (offset_displayProcesses hmax hnonneg hlt).2.2]
    exact ⟨nonneg_of_showsSelected hmax hnonneg hlt, showsSelected_of_nonneg hmax hnonneg hlt⟩
  · intro frames hleaves
    have hstep : ∀ hitop frame, hitop.plist.Steady → LeavesEmptyList hitop frame →
        (frameStep qsort hitop frame).plist.Steady ∧ ShowsSelection qsort hitop frame := by
      intro hitop frame h hframe
      refine ⟨steady_frameStep qsort h hframe, fun _ hmax hnonneg hlt ↦ ?_⟩
      apply showsSelected_of_nonneg hmax hnonneg hlt
      apply offset_displayProcesses_nonneg frame.maxY _ hnonneg
      unfold scannedList
      rw [getProcesses_offset]
      exact h.nonneg
    exact along_of_invariant hstep ⟨sound_initialList, le_rfl⟩ hleaves

/-- A frame with five processes, a key and a filter that the user types. -/
def framePressing (key : Char) (filterText : List UInt8) : Frame :=
  { frameAt 5 key.toNat with
    input := { key := key.toNat, answer := 0, filterText := ofBuffer filterText } }

theorem showsSelected_iff_and_along_showsSelection_example :
    (ShowsSelected 10 { initialList with count := 5, selected := 4, offset := 0 } ↔
      (0 : ℤ) ≤ 0 ∨ (4 : ℤ) ≤ 4 + 1) ∧
    Along (frameStep insertionQsort) (ShowsSelection insertionQsort) initialHitop
      [framePressing 'k' []] :=
  ⟨(showsSelected_iff_and_along_showsSelection insertionQsort).1 10
      { initialList with count := 5, selected := 4, offset := 0 } (by decide) (by decide)
      (by decide),
    (showsSelected_iff_and_along_showsSelection insertionQsort).2 [framePressing 'k' []]
      ⟨fun _ ↦ by decide +kernel, trivial⟩⟩

/-- A filter that no process matches, the key to the last row, the filter cleared, and one row down:
the first row is selected, and the row before it is drawn. -/
def lostPage : List Frame :=
  [framePressing 'f' [122, 122], frameAt 5 360, framePressing 'c' [], framePressing 'k' []]

/-- The list that the next frame displays. -/
def lostList : ProcessList :=
  scannedList insertionQsort (run (frameStep insertionQsort) initialHitop lostPage)
    (framePressing 'k' [])

theorem not_along_showsSelection :
    ¬Along (frameStep insertionQsort) (ShowsSelection insertionQsort) initialHitop
      (lostPage ++ [framePressing 'k' []]) := by
  rw [along_append]
  rintro ⟨-, hshows, -⟩
  have hselected : lostList.selected = 0 := by decide +kernel
  have hcount : lostList.count = 5 := by decide +kernel
  have hlisted : lostList.selected < lostList.count := by
    rw [hselected, hcount]
    decide
  have hlost : (displayProcesses 40 lostList).offset = -1 := by decide +kernel
  have hnonneg := nonneg_of_showsSelected (by decide) hselected.ge hlisted
    (hshows (by decide +kernel) (by decide) hselected.ge hlisted)
  exact absurd (hnonneg.trans_eq hlost) (by decide)

end HiFetch.Monitor
