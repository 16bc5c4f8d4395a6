import HiFetch.Monitor.CpuShare

/-!
# The main loop of hitop

One frame of the main loop scans the processes, displays them and handles one key.  Keys move
`selected`, scans change `count`, and the two are compared only where a key moves `selected`
downwards by one line or one page.  So a list that gets shorter leaves `selected` behind its end,
and the keys that go to the last row set it to minus one when the list is empty.

As long as every scan leaves the selected row in the list and these two keys are not pressed on an
empty list, kill and renice act on a row that is on display.
-/

namespace HiFetch.Monitor

open CString Transition

/-- What `handle_input` does with a key. -/
inductive Command where
  | quit
  | up
  | down
  | pageUp
  | pageDown
  | home
  | last
  | sort
  | kill
  | reverse
  | help
  | filter
  | clear
  | renice (delta : ℤ)
  | nothing
deriving DecidableEq

def keyF (number : ℤ) : ℤ := 264 + number

/-- The cases of the switch over the key; the numbers are those of the curses keys. -/
def command (key : ℤ) : Command :=
  if key = 'q'.toNat ∨ key = 'Q'.toNat then .quit
  else if key = 259 ∨ key = 'j'.toNat then .up
  else if key = 258 ∨ key = 'k'.toNat then .down
  else if key = 339 then .pageUp
  else if key = 338 then .pageDown
  else if key = 262 then .home
  else if key = 360 then .last
  else if key = keyF 5 ∨ key = 'F'.toNat then .nothing
  else if key = keyF 6 ∨ key = 's'.toNat ∨ key = 'S'.toNat then .sort
  else if key = 'x'.toNat ∨ key = 'X'.toNat ∨ key = 330 then .kill
  else if key = 'r'.toNat ∨ key = 'R'.toNat then .reverse
  else if key = 'h'.toNat ∨ key = 'H'.toNat ∨ key = keyF 1 then .help
  else if key = 'f'.toNat then .filter
  else if key = 'c'.toNat ∨ key = 'C'.toNat then .clear
  else if key = '+'.toNat ∨ key = '='.toNat then .renice (-1)
  else if key = '-'.toNat ∨ key = '_'.toNat then .renice 1
  else .nothing

/-- What a key does to a process. -/
inductive Effect where
  | none
  | killed (pid : ℤ)
  | reniced (pid delta : ℤ)
  /-- The row that was read is outside the array. -/
  | outside
deriving DecidableEq

/-- The effect is on this process, if there is one. -/
def Effect.On (pid : ℤ) : Effect → Prop
  | .none => True
  | .killed target => target = pid
  | .reniced target _ => target = pid
  | .outside => False

def ProcessList.selectedRow (plist : ProcessList) : Option Process :=
  if 0 ≤ plist.selected then plist.processes[plist.selected.toNat]? else none

/-- What the user does in one frame: the key, the answer to the kill dialog, and the text typed
into the filter dialog. -/
structure Input where
  key : ℤ
  answer : ℤ
  filterText : CString

/-- `show_kill_dialog` and `kill_process`. -/
def killDialog (pid answer : ℤ) : Effect :=
  if answer = 'y'.toNat ∨ answer = 'Y'.toNat then if 0 < pid then .killed pid else .none
  else .none

/-- The effect of a key on the selected process. -/
def keyEffect (plist : ProcessList) (input : Input) : Effect :=
  match command input.key with
  | .kill =>
      if 0 < plist.count then
        match plist.selectedRow with
        | some process => killDialog process.pid input.answer
        | none => .outside
      else .none
  | .renice delta =>
      if 0 < plist.count then
        match plist.selectedRow with
        | some process => .reniced process.pid delta
        | none => .outside
      else .none
  | _ => .none

/-- `handle_input`: the list and whether the main loop goes on. -/
def handleInput (plist : ProcessList) (input : Input) : ProcessList × Bool :=
  match command input.key with
  | .quit => (plist, false)
  | .up =>
      ({ plist with
        selected := if 0 < plist.selected then plist.selected - 1 else plist.selected }, true)
  | .down =>
      ({ plist with
        selected := if plist.selected < (plist.count : ℤ) - 1 then plist.selected + 1
          else plist.selected }, true)
  | .pageUp =>
      ({ plist with selected := if 10 < plist.selected then plist.selected - 10 else 0 }, true)
  | .pageDown =>
      ({ plist with
        selected := if plist.selected + 10 < plist.count then plist.selected + 10
          else (plist.count : ℤ) - 1 }, true)
  | .home => ({ plist with selected := 0 }, true)
  | .last => ({ plist with selected := (plist.count : ℤ) - 1 }, true)
  | .sort => ({ plist with sortBy := plist.sortBy.next }, true)
  | .reverse => ({ plist with reverse := !plist.reverse }, true)
  | .filter => ({ plist with filter := input.filterText.take 63 }, true)
  | .clear => ({ plist with filter := empty }, true)
  | .kill => (plist, true)
  | .help => (plist, true)
  | .renice _ => (plist, true)
  | .nothing => (plist, true)

structure Hitop where
  plist : ProcessList
  statics : Statics
  running : Bool

def initialHitop : Hitop where
  plist := initialList
  statics := initialStatics
  running := true

/-- One pass of the main loop: what the scan finds, the height of the screen, and the user. -/
structure Frame where
  snapshot : Snapshot
  maxY : ℤ
  input : Input

/-- The list when the key is handled. -/
def onScreen (qsort : Qsort) (hitop : Hitop) (frame : Frame) : ProcessList :=
  displayProcesses frame.maxY (getProcesses qsort frame.snapshot hitop.plist hitop.statics).1

def frameStep (qsort : Qsort) (hitop : Hitop) (frame : Frame) : Hitop :=
  if hitop.running then
    let (plist, running) := handleInput (onScreen qsort hitop frame) frame.input
    { plist, statics := (getProcesses qsort frame.snapshot hitop.plist hitop.statics).2, running }
  else hitop

/-! ## The law -/

/-- The key makes `handle_input` read the selected row. -/
def ReadsSelected (key : ℤ) : Prop := command key = .kill ∨ ∃ delta, command key = .renice delta

/-- If the key reads the selected row of a list with rows, then this row is on display, and the
effect of the key is on its process. -/
def ActsOnListed (qsort : Qsort) (hitop : Hitop) (frame : Frame) : Prop :=
  hitop.running → ReadsSelected frame.input.key → 0 < (onScreen qsort hitop frame).count →
    0 ≤ (onScreen qsort hitop frame).selected ∧
      (onScreen qsort hitop frame).selected < (onScreen qsort hitop frame).count ∧
      ∃ process ∈ (onScreen qsort hitop frame).listed,
        (onScreen qsort hitop frame).selectedRow = some process ∧
          (keyEffect (onScreen qsort hitop frame) frame.input).On process.pid

/-- The number of rows that a scan leaves in the list: those of the processes that the filter lets
through, or the rows from before if the directory cannot be read. -/
def rowCount (plist : ProcessList) (snapshot : Snapshot) : ℕ :=
  match snapshot.entries with
  | none => plist.count
  | some _ => shownCount plist.filter snapshot

/-- The scan leaves no row, or more rows than the selected index, and the keys that go to the last
row are not pressed on an empty list. -/
def KeepsSelection (hitop : Hitop) (frame : Frame) : Prop :=
  hitop.running →
    (rowCount hitop.plist frame.snapshot = 0 ∨
      hitop.plist.selected < rowCount hitop.plist frame.snapshot) ∧
    (rowCount hitop.plist frame.snapshot = 0 →
      command frame.input.key ≠ .last ∧ command frame.input.key ≠ .pageDown)

instance (hitop : Hitop) (frame : Frame) : Decidable (KeepsSelection hitop frame) :=
  inferInstanceAs (Decidable (_ → _))

/-- What holds of the list between two frames. -/
structure ProcessList.Sound (plist : ProcessList) : Prop where
  valid : plist.Valid
  nonneg : 0 ≤ plist.selected
  filter_le : plist.filter.length ≤ 63

theorem sound_initialList : initialList.Sound := ⟨valid_initialList, le_rfl, Nat.zero_le _⟩

/-- A scan moves neither the selection nor the filter. -/
theorem getProcesses_selected (qsort : Qsort) (snapshot : Snapshot) (plist : ProcessList)
    (statics : Statics) :
    (getProcesses qsort snapshot plist statics).1.selected = plist.selected ∧
      (getProcesses qsort snapshot plist statics).1.filter = plist.filter := by
  cases hentries : snapshot.entries <;> simp only [getProcesses, hentries, and_self]

theorem onScreen_spec (qsort : Qsort) {hitop : Hitop} (h : hitop.plist.Valid) (frame : Frame) :
    (onScreen qsort hitop frame).Valid ∧
      (onScreen qsort hitop frame).count = rowCount hitop.plist frame.snapshot ∧
      (onScreen qsort hitop frame).selected = hitop.plist.selected ∧
      (onScreen qsort hitop frame).filter = hitop.plist.filter := by
  obtain ⟨hselected, hfilter⟩ :=
    getProcesses_selected qsort frame.snapshot hitop.plist hitop.statics
  have hscan : (getProcesses qsort frame.snapshot hitop.plist hitop.statics).1.Valid ∧
      (getProcesses qsort frame.snapshot hitop.plist hitop.statics).1.count =
        rowCount hitop.plist frame.snapshot := by
    unfold rowCount
    cases hentries : frame.snapshot.entries with
    | none =>
      rw [getProcesses_of_none qsort hitop.plist hitop.statics hentries]
      exact ⟨h, rfl⟩
    | some entries =>
      have hne : frame.snapshot.entries ≠ none := by simp [hentries]
      obtain ⟨hvalid, hcount, -⟩ := getProcesses_spec qsort h hitop.statics hne
      exact ⟨hvalid, hcount⟩
  obtain ⟨hvalid, hcount⟩ := hscan
  exact ⟨⟨hvalid.length_eq, hvalid.count_le⟩, hcount, hselected, hfilter⟩

theorem selectedRow_listed {plist : ProcessList} (h : plist.Sound)
    (hlt : plist.selected < plist.count) :
    ∃ process ∈ plist.listed, plist.selectedRow = some process := by
  have hnonneg := h.nonneg
  have hcount := h.valid.count_le
  have hindex : plist.selected.toNat < plist.processes.length := by
    rw [h.valid.length_eq]
    omega
  refine ⟨plist.processes[plist.selected.toNat], ?_, ?_⟩
  · unfold ProcessList.listed
    rw [List.mem_take_iff_getElem]
    exact ⟨plist.selected.toNat, by omega, rfl⟩
  · unfold ProcessList.selectedRow
    rw [if_pos hnonneg, List.getElem?_eq_getElem hindex]

theorem keyEffect_on {plist : ProcessList} {process : Process}
    (hrow : plist.selectedRow = some process) (input : Input) :
    (keyEffect plist input).On process.pid := by
  unfold keyEffect
  cases command input.key with
  | kill =>
    simp only [hrow, killDialog]
    split_ifs <;> trivial
  | renice delta =>
    simp only [hrow]
    split_ifs <;> trivial
  | _ => trivial

/-- Keys keep the index from becoming negative, unless they go to the last row of an empty list. -/
theorem handleInput_sound {plist : ProcessList} (h : plist.Sound) {input : Input}
    (hlast : plist.count = 0 → command input.key ≠ .last ∧ command input.key ≠ .pageDown) :
    (handleInput plist input).1.Sound := by
  obtain ⟨⟨hlength, hcount⟩, hnonneg, hfilter⟩ := h
  unfold handleInput
  cases hcommand : command input.key with
  | up | down | pageUp =>
    refine ⟨⟨hlength, hcount⟩, ?_, hfilter⟩
    dsimp only
    split_ifs <;> omega
  | pageDown =>
    refine ⟨⟨hlength, hcount⟩, ?_, hfilter⟩
    have hne : plist.count ≠ 0 := fun hzero ↦ (hlast hzero).2 hcommand
    dsimp only
    split_ifs <;> omega
  | last =>
    refine ⟨⟨hlength, hcount⟩, ?_, hfilter⟩
    have hne : plist.count ≠ 0 := fun hzero ↦ (hlast hzero).1 hcommand
    dsimp only
    omega
  | home => exact ⟨⟨hlength, hcount⟩, le_rfl, hfilter⟩
  | filter => exact ⟨⟨hlength, hcount⟩, hnonneg, length_take_le _ _⟩
  | clear => exact ⟨⟨hlength, hcount⟩, hnonneg, Nat.zero_le _⟩
  | quit | sort | kill | reverse | help | renice | nothing =>
    exact ⟨⟨hlength, hcount⟩, hnonneg, hfilter⟩

/-- One frame that keeps the selection acts on a listed row and keeps the index from becoming
negative. -/
theorem sound_frameStep (qsort : Qsort) {hitop : Hitop} (h : hitop.plist.Sound) {frame : Frame}
    (hkeeps : KeepsSelection hitop frame) :
    (frameStep qsort hitop frame).plist.Sound ∧ ActsOnListed qsort hitop frame := by
  cases hrunning : hitop.running with
  | false =>
    constructor
    · unfold frameStep
      rw [hrunning, if_neg Bool.false_ne_true]
      exact h
    · intro hrun
      exact absurd (hrunning.symm.trans hrun) Bool.false_ne_true
  | true =>
    obtain ⟨hselected, hlast⟩ := hkeeps hrunning
    obtain ⟨hvalid, hcount, hsame, hfilter⟩ := onScreen_spec qsort h.valid frame
    have hsound : (onScreen qsort hitop frame).Sound :=
      ⟨hvalid, hsame ▸ h.nonneg, hfilter ▸ h.filter_le⟩
    rw [← hcount] at hselected hlast
    rw [← hsame] at hselected
    constructor
    · unfold frameStep
      rw [hrunning, if_pos rfl]
      exact handleInput_sound hsound hlast
    · intro _ _ hrows
      have hlt : (onScreen qsort hitop frame).selected < (onScreen qsort hitop frame).count :=
        hselected.resolve_left (by omega)
      obtain ⟨process, hlisted, hrow⟩ := selectedRow_listed hsound hlt
      exact ⟨hsound.nonneg, hlt, process, hlisted, hrow, keyEffect_on hrow frame.input⟩

/-- The list stays sound along every run that keeps the selection. -/
theorem sound_run (qsort : Qsort) {frames : List Frame}
    (hkeeps : Along (frameStep qsort) KeepsSelection initialHitop frames) :
    (run (frameStep qsort) initialHitop frames).plist.Sound := by
  have hstep : ∀ hitop frame, hitop.plist.Sound → KeepsSelection hitop frame →
      (frameStep qsort hitop frame).plist.Sound :=
    fun _ _ h hframe ↦ (sound_frameStep qsort h hframe).1
  exact (throughout_of_along hstep sound_initialList hkeeps).last

/-- In every run of the main loop in which each scan leaves the selected row in the list and the
keys to the last row are not pressed on an empty list, kill and renice act on a row on display. -/
theorem acts_on_listed (qsort : Qsort) {frames : List Frame}
    (hkeeps : Along (frameStep qsort) KeepsSelection initialHitop frames) :
    Along (frameStep qsort) (ActsOnListed qsort) initialHitop frames := by
  have hstep : ∀ hitop frame, hitop.plist.Sound → KeepsSelection hitop frame →
      (frameStep qsort hitop frame).plist.Sound ∧ ActsOnListed qsort hitop frame :=
    fun _ _ h hframe ↦ sound_frameStep qsort h hframe
  exact along_of_invariant hstep sound_initialList hkeeps

def frameAt (processes key : ℕ) : Frame where
  snapshot := snapshotAt 1000 ((List.range processes).map fun index ↦ entryAt (index + 1) 100)
  maxY := 40
  input := { key, answer := 'y'.toNat, filterText := empty }

theorem acts_on_listed_example :
    Along (frameStep insertionQsort) (ActsOnListed insertionQsort) initialHitop
      [frameAt 5 360, frameAt 6 'x'.toNat] :=
  acts_on_listed insertionQsort ⟨by decide +kernel, by decide +kernel, trivial⟩

/-- With the last of five rows selected, three processes end, and the kill key reads the row at
index four of two. -/
theorem acts_outside :
    ¬Along (frameStep insertionQsort) (ActsOnListed insertionQsort) initialHitop
      [frameAt 5 360, frameAt 2 'x'.toNat] := by
  rintro ⟨-, hacts, -⟩
  have hlisted := hacts (by decide +kernel) (.inl (by decide)) (by decide +kernel)
  exact absurd hlisted.2.1 (by decide +kernel)

/-! ## Every lost selection can be acted on -/

/-- A scan that finds one process, with a name that contains the filter. -/
def matchingScan (filter : CString) : Snapshot where
  counters := none
  entries := some [{ entryAt 1 0 with stat := some { fieldsAt 1 0 with comm := filter } }]
  memTotal := none

theorem occurs_self (string : CString) : occurs string string = true :=
  occurs_iff_isInfix.2 List.infix_rfl

theorem rowCount_matchingScan {plist : ProcessList} (h : plist.filter.length ≤ 63) :
    rowCount plist (matchingScan plist.filter) = 1 := by
  have hrecorded : (matchingScan plist.filter).recorded =
      [({ entryAt 1 0 with stat := some { fieldsAt 1 0 with comm := plist.filter } },
        { fieldsAt 1 0 with comm := plist.filter })] := rfl
  have hcommand : plist.filter.take 255 = plist.filter := take_eq_self (h.trans (by decide))
  unfold rowCount matchingScan
  dsimp only
  unfold shownCount
  rw [← matchingScan, hrecorded]
  split_ifs
  · rw [List.filter_cons_of_pos]
    · rfl
    · unfold recordMatches ProcEntry.command
      simp [entryAt, hcommand, occurs_self]
  · rfl

def killInput : Input where
  key := 'x'.toNat
  answer := 'y'.toNat
  filterText := empty

theorem command_killInput : command killInput.key = .kill := by decide

/-- The kill key on a list with rows and an index outside of them. -/
theorem not_actsOnListed {qsort : Qsort} {hitop : Hitop} {frame : Frame}
    (hrunning : hitop.running = true) (h : hitop.plist.Valid)
    (hkey : command frame.input.key = .kill) (hrows : 0 < rowCount hitop.plist frame.snapshot)
    (houtside : hitop.plist.selected < 0 ∨
      rowCount hitop.plist frame.snapshot ≤ hitop.plist.selected) :
    ¬ActsOnListed qsort hitop frame := by
  obtain ⟨-, hcount, hselected, -⟩ := onScreen_spec qsort h frame
  intro hacts
  obtain ⟨hnonneg, hlt, -⟩ := hacts hrunning (.inl hkey) (hcount ▸ hrows)
  rw [hselected] at hnonneg hlt
  rw [hcount] at hlt
  omega

/-- Wherever a frame loses the selection for the first time, the kill key acts outside the list: in
this frame, or in a next one that keeps the selection. -/
theorem acts_outside_of_lost (qsort : Qsort) {frames : List Frame} {frame : Frame}
    (hkeeps : Along (frameStep qsort) KeepsSelection initialHitop frames)
    (hlost : ¬KeepsSelection (run (frameStep qsort) initialHitop frames) frame) :
    (∃ input, ¬ActsOnListed qsort (run (frameStep qsort) initialHitop frames)
      { frame with input }) ∨
    ∃ next, KeepsSelection (run (frameStep qsort) initialHitop (frames ++ [frame])) next ∧
      ¬ActsOnListed qsort (run (frameStep qsort) initialHitop (frames ++ [frame])) next := by
  have hsound := sound_run qsort hkeeps
  rw [run_append, run_cons, run_nil]
  generalize run (frameStep qsort) initialHitop frames = hitop at hlost hsound ⊢
  simp only [KeepsSelection, Classical.not_imp, Classical.not_and_iff_not_or_not, not_or] at hlost
  obtain ⟨hrunning, ⟨hrows, hbehind⟩ | ⟨hnone, hkey⟩⟩ := hlost
  · exact .inl ⟨killInput, not_actsOnListed hrunning hsound.valid command_killInput
      (Nat.pos_of_ne_zero hrows) (.inr (not_lt.1 hbehind))⟩
  · obtain ⟨hvalid, hcount, hselected, hfilter⟩ := onScreen_spec qsort hsound.valid frame
    have hnonneg := hsound.nonneg
    rw [hnone] at hcount
    -- Both keys go to the row before the first one.
    have hafter : (frameStep qsort hitop frame).running = true ∧
        (frameStep qsort hitop frame).plist.Valid ∧
        (frameStep qsort hitop frame).plist.selected = -1 ∧
        (frameStep qsort hitop frame).plist.filter.length ≤ 63 := by
      unfold frameStep
      rw [hrunning, if_pos rfl, handleInput]
      rcases hkey with hkey | hkey
      · rw [not_not.1 hkey]
        refine ⟨rfl, ⟨hvalid.length_eq, hvalid.count_le⟩, ?_, hfilter ▸ hsound.filter_le⟩
        dsimp only
        omega
      · rw [not_not.1 hkey]
        refine ⟨rfl, ⟨hvalid.length_eq, hvalid.count_le⟩, ?_, hfilter ▸ hsound.filter_le⟩
        dsimp only
        split_ifs <;> omega
    obtain ⟨hgoes, hnext, hminus, hshort⟩ := hafter
    have hone := rowCount_matchingScan hshort
    refine .inr ⟨⟨matchingScan (frameStep qsort hitop frame).plist.filter, 40, killInput⟩, ?_, ?_⟩
    · intro _
      dsimp only
      rw [hone, hminus]
      exact ⟨.inr (by decide), fun hzero ↦ absurd hzero (by decide)⟩
    · exact not_actsOnListed hgoes hnext command_killInput (hone ▸ Nat.one_pos)
        (.inl (hminus ▸ by decide))

end HiFetch.Monitor
