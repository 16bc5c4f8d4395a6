import HiFetch.Monitor.Sorting

/-!
# The command column

The file `/proc/<pid>/cmdline` holds the arguments of a process with a NUL between them.  The loop
in `get_processes` is to turn these NULs into blanks, but its condition takes the first of them for
the end of the text, so the column shows the first argument only.
-/

namespace HiFetch.Monitor

open CString

/-- The text of `/proc/<pid>/cmdline`, with or without a NUL behind the last argument. -/
def cmdlineImage (arguments : List CString) (ended : Bool) : List UInt8 :=
  [0].intercalate (arguments.map CString.bytes) ++ if ended then [0] else []

/-- The arguments with single blanks between them. -/
def joined (arguments : List CString) : List UInt8 :=
  [32].intercalate (arguments.map CString.bytes)

/-- An argument that ends within the first 255 bytes of the command line. -/
def EndsInColumn (arguments : List CString) (argument : CString) : Prop :=
  ∃ before after, arguments = before ++ argument :: after ∧
    (joined (before ++ [argument])).length ≤ 255

/-- The row at a position shows the command line, and every argument that ends within the column is
a filter that keeps the row. -/
def ShowsCommandLine (qsort : Qsort) (snapshot : Snapshot) (plist : ProcessList)
    (statics : Statics) (position : ℕ) (arguments : List CString) : Prop :=
  ∃ row, (scanRows snapshot statics)[position]? = some row ∧
    row.command.bytes = (joined arguments).take 255 ∧
    ∀ argument, EndsInColumn arguments argument →
      row ∈ (getProcesses qsort snapshot { plist with filter := argument } statics).1.listed

/-! ## The loop -/

/-- The loop changes nothing. -/
theorem joinArguments_eq (bytes : List UInt8) : joinArguments bytes = bytes := by
  induction bytes with
  | nil => rfl
  | cons byte rest ih =>
    unfold joinArguments
    split_ifs with hzero hseparator
    · rfl
    · exact absurd hseparator.1 hzero
    · rw [ih]

theorem joined_singleton (argument : CString) : joined [argument] = argument.bytes :=
  List.intercalate_singleton

theorem joined_cons (first : CString) {rest : List CString} (h : rest ≠ []) :
    joined (first :: rest) = first.bytes ++ 32 :: joined rest := by
  unfold joined
  rw [List.map_cons, List.intercalate_cons_of_ne_nil (by simpa using h), List.append_assoc,
    List.singleton_append]

/-- The string at the start of the image is the first argument. -/
theorem ofBuffer_cmdlineImage (first : CString) (rest : List CString) (ended : Bool) :
    ofBuffer (cmdlineImage (first :: rest) ended) = first := by
  unfold cmdlineImage
  rw [List.map_cons]
  cases rest with
  | nil =>
    rw [List.map_nil, List.intercalate_singleton]
    cases ended <;> simp
  | cons second others =>
    rw [List.intercalate_cons_of_ne_nil (by simp), List.append_assoc, List.append_assoc,
      List.singleton_append, ofBuffer_append_nul, ofBuffer_bytes]

/-- The command column is cut from the first argument. -/
theorem command_cmdlineImage {entry : ProcEntry} (fields : StatFields) {first : CString}
    {rest : List CString} {ended : Bool} (hfirst : first ≠ empty)
    (hlength : (cmdlineImage (first :: rest) ended).length ≤ 511)
    (hcmdline : entry.cmdline = some (cmdlineImage (first :: rest) ended)) :
    entry.command fields = first.take 255 := by
  have hpos : 0 < first.length := by
    rw [Nat.pos_iff_ne_zero]
    exact fun hzero ↦ hfirst (length_eq_zero_iff.1 hzero)
  unfold ProcEntry.command
  rw [hcmdline]
  dsimp only
  rw [List.take_of_length_le hlength, joinArguments_eq, ofBuffer_cmdlineImage, if_pos hpos]

/-- The first argument is all of the column exactly when it is the only one or fills the column. -/
theorem take_first_eq_iff (first : CString) (rest : List CString) :
    first.bytes.take 255 = (joined (first :: rest)).take 255 ↔ rest = [] ∨ 255 ≤ first.length := by
  rcases eq_or_ne rest [] with rfl | hrest
  · exact iff_of_true (by rw [joined_singleton]) (.inl rfl)
  rw [joined_cons first hrest, List.take_append]
  constructor
  · intro heq
    right
    by_contra hshort
    have hlength := congrArg List.length heq
    unfold CString.length at hshort
    obtain ⟨room, hroom⟩ : ∃ room, 255 - first.bytes.length = room + 1 :=
      ⟨254 - first.bytes.length, by omega⟩
    rw [hroom, List.take_succ_cons, List.length_append, List.length_cons] at hlength
    omega
  · rintro (hnil | hlong)
    · exact absurd hnil hrest
    · have hnone : 255 - first.bytes.length = 0 := Nat.sub_eq_zero_of_le hlong
      rw [hnone, List.take_zero, List.append_nil]

/-! ## The filter -/

theorem EndsInColumn.isInfix {arguments : List CString} {argument : CString}
    (h : EndsInColumn arguments argument) : argument.bytes <:+: (joined arguments).take 255 := by
  obtain ⟨before, after, rfl, hlength⟩ := h
  have hstarts : joined (before ++ [argument]) <+: joined (before ++ argument :: after) := by
    clear hlength
    induction before with
    | nil =>
      rcases eq_or_ne after [] with rfl | hafter
      · exact List.prefix_rfl
      · rw [List.nil_append, List.nil_append, joined_singleton, joined_cons argument hafter]
        exact List.prefix_append _ _
    | cons first before ih =>
      rw [List.cons_append, List.cons_append, joined_cons first (by simp),
        joined_cons first (by simp), List.prefix_append_right_inj, List.cons_prefix_cons]
      exact ⟨rfl, ih⟩
  have hsuffix : argument.bytes <:+ joined (before ++ [argument]) := by
    clear hlength hstarts
    induction before with
    | nil =>
      rw [List.nil_append, joined_singleton]
    | cons first before ih =>
      rw [List.cons_append, joined_cons first (by simp)]
      exact ih.trans ((List.suffix_cons _ _).trans (List.suffix_append _ _))
  exact hsuffix.isInfix.trans (List.prefix_take_iff.2 ⟨hstarts, hlength⟩).isInfix

theorem mem_listed_of_contains (qsort : Qsort) {snapshot : Snapshot} (plist : ProcessList)
    (statics : Statics) (hentries : snapshot.entries ≠ none) {row : Process}
    (hrow : row ∈ scanRows snapshot statics) (hcontains : Contains row.command plist.filter) :
    row ∈ (getProcesses qsort snapshot plist statics).1.listed := by
  rw [listed_getProcesses qsort plist statics hentries, (qsort.perm _ _).mem_iff, shown_eq_filter,
    List.mem_filter]
  exact ⟨hrow, decide_eq_true (.inl hcontains)⟩

/-- The row of a process shows its command line exactly when there is only one argument or the first
one fills the column. -/
theorem showsCommandLine_iff (qsort : Qsort) {snapshot : Snapshot} (plist : ProcessList)
    (statics : Statics) {position : ℕ} {entry : ProcEntry} {fields : StatFields}
    {arguments : List CString} {ended : Bool}
    (hrecord : snapshot.recorded[position]? = some (entry, fields))
    (harguments : arguments ≠ []) (hnonempty : ∀ argument ∈ arguments, argument ≠ empty)
    (hlength : (cmdlineImage arguments ended).length ≤ 511)
    (hcmdline : entry.cmdline = some (cmdlineImage arguments ended)) :
    ShowsCommandLine qsort snapshot plist statics position arguments ↔
      arguments.length = 1 ∨ ∀ first ∈ arguments.head?, 255 ≤ first.length := by
  obtain ⟨first, rest, rfl⟩ := List.exists_cons_of_ne_nil harguments
  have hentries : snapshot.entries ≠ none := by
    intro hnone
    unfold Snapshot.recorded at hrecord
    rw [hnone] at hrecord
    simp at hrecord
  obtain ⟨memTotal, hrow⟩ := (scanLoop_scanned snapshot statics.prevTotalJiffies
    (snapshot.entries.getD []) 0 statics.slots statics.memTotal).row position _ hrecord
  have hcommand := command_cmdlineImage fields (hnonempty first List.mem_cons_self) hlength hcmdline
  have hexact := take_first_eq_iff first rest
  rw [← bytes_take, ← hcommand] at hexact
  have hcondition : (first :: rest).length = 1 ∨
      (∀ first' ∈ (first :: rest).head?, 255 ≤ first'.length) ↔
        rest = [] ∨ 255 ≤ first.length := by simp
  rw [hcondition, ← hexact]
  constructor
  · rintro ⟨row, hfound, htext, -⟩
    obtain rfl := Option.some_injective _ (hfound.symm.trans hrow)
    exact htext
  · intro htext
    refine ⟨_, hrow, htext, fun argument hends ↦ ?_⟩
    refine mem_listed_of_contains qsort { plist with filter := argument } statics hentries
      (List.mem_of_getElem? hrow) ?_
    have hinfix := hends.isInfix
    rw [← htext] at hinfix
    exact hinfix

def commandEntry (arguments : List CString) : ProcEntry :=
  { entryAt 1 0 with cmdline := some (cmdlineImage arguments true) }

/-- An argument that fills the column, and another one behind it. -/
def longArguments : List CString :=
  [⟨List.replicate 255 97, fun hmem ↦ absurd (List.eq_of_mem_replicate hmem) (by decide)⟩,
    ⟨[98], by decide⟩]

theorem showsCommandLine_iff_example :
    ShowsCommandLine insertionQsort (snapshotAt 0 [commandEntry longArguments]) initialList
        initialStatics 0 longArguments ↔
      longArguments.length = 1 ∨ ∀ first ∈ longArguments.head?, 255 ≤ first.length :=
  showsCommandLine_iff insertionQsort initialList initialStatics rfl (by decide +kernel)
    (by decide +kernel) (by decide +kernel) rfl

/-- Of the arguments `a` and `b`, the column shows only the first one. -/
theorem not_showsCommandLine :
    ¬ShowsCommandLine insertionQsort
      (snapshotAt 0 [commandEntry [⟨[97], by decide⟩, ⟨[98], by decide⟩]]) initialList
      initialStatics 0 [⟨[97], by decide⟩, ⟨[98], by decide⟩] := by
  rintro ⟨row, hrow, htext, -⟩
  obtain rfl := Option.some_injective _ (hrow.symm.trans rfl)
  exact absurd htext (by decide)

end HiFetch.Monitor
