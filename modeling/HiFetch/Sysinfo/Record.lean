import HiFetch.Sysinfo.Collectors

/-!
# The record that hifetch collects

The texts of `get_system_info` go to one block of bytes on the stack of `main`.  All of them fit in
their fields, except that four values of the environment are copied as long as they are: the name
of the shell, the desktop, the terminal and the locale.  The block stays whole exactly when these
are at most 255 bytes long, and it then holds what the functions would leave in arrays of their own.
-/

namespace HiFetch.Sysinfo.Collect

open CString Transition Utils

/-! ## The law -/

/-- The values that are copied with `strcpy` fit in their fields. -/
structure Environment.Fits (environment : Environment) : Prop where
  shell : ∀ shell ∈ environment.shell, (baseName shell).length ≤ 255
  desktop : ∀ de ∈ environment.currentDesktop.or environment.desktopSession, de.length ≤ 255
  terminal : ∀ terminal ∈ environment.termProgram.or environment.terminal, terminal.length ≤ 255
  locale : ∀ lang ∈ environment.lang, lang.length ≤ 255

/-- The record after the `memset`, with other bytes behind it. -/
def cleared (behind : List UInt8) : List UInt8 := List.replicate 9240 0 ++ behind

/-- The arrays after the `memset`. -/
def zeroArrays (_ : Field) : List UInt8 := List.replicate 256 0

/-- The record after all functions have run. -/
def collected (machine : Machine) (behind : List UInt8) : List UInt8 :=
  run layout.perform (cleared behind) (getSystemInfo machine)

/-! ## What is written -/

/-- A write that stays in its field and may reach its end with a NUL only. -/
def Safe (write : Write Field) : Prop := layout.RegularWrite write ∧ layout.Bounded write

/-- A write that starts no further in front than at a place. -/
def From (low : ℕ) (writes : List (Write Field)) : Prop :=
  ∀ write ∈ writes, low ≤ write.field.offset

theorem regular_copied (text : CString) : layout.Regular (copied text) := by
  unfold copied
  constructor
  · intro hlength
    have htext : text.bytes.length = 255 := by
      rw [List.length_append, List.length_singleton] at hlength
      exact Nat.succ_injective hlength
    rw [show layout.size - 1 = text.bytes.length from htext.symm]
    exact List.getElem?_concat_length
  · intro hlong
    rw [List.length_append, List.length_singleton] at hlong
    rw [List.take_append_of_le_length (Nat.le_of_lt_succ hlong)]
    exact fun hmem ↦ text.noNul (List.mem_of_mem_take hmem)

theorem length_copied (text : CString) : (copied text).length = text.length + 1 :=
  List.length_append

theorem bounded_copied_iff (field : Field) (text : CString) :
    layout.Bounded (put field (copied text)) ↔ text.length ≤ 255 := by
  constructor
  · intro h
    have hlength := h (fun _ ↦ empty) fun _ ↦ layout.size_pos
    exact Nat.le_of_succ_le_succ ((length_copied text).ge.trans hlength)
  · intro h texts _
    exact (length_copied text).le.trans (Nat.succ_le_succ h)

theorem safe_copied (field : Field) {text : CString} (h : text.length ≤ 255) :
    Safe (put field (copied text)) :=
  ⟨fun _ _ ↦ regular_copied text, (bounded_copied_iff field text).2 h⟩

theorem safe_printed (field : Field) (text : CString) : Safe (put field (printed text)) :=
  safe_copied field (length_take_le text 255)

theorem safe_padded (field : Field) (text : CString) : Safe (put field (padded text)) := by
  have hlength : ((text.bytes ++ List.replicate 255 0).take 255).length = 255 := by
    rw [List.length_take, List.length_append, List.length_replicate]
    omega
  have hpadded : (padded text).length = 256 := by
    unfold padded
    rw [List.length_append, hlength, List.length_singleton]
  refine ⟨fun _ _ ↦ ⟨fun _ ↦ ?_, fun hlong ↦ ?_⟩, fun _ _ ↦ hpadded.le⟩
  · show (padded text)[255]? = some 0
    unfold padded
    rw [List.getElem?_append_right hlength.le, hlength]
    rfl
  · exact absurd hpadded.le (not_le.2 hlong)

/-- Three writes look at the strings in the record. -/
theorem safe_of_copied {write : Write Field}
    (h : ∀ texts, (∀ field, (texts field).length < layout.size) →
      ∃ text : CString, write.bytes texts = copied text ∧ text.length ≤ 255) : Safe write := by
  constructor
  · intro texts hshort
    obtain ⟨text, hbytes, -⟩ := h texts hshort
    rw [hbytes]
    exact regular_copied text
  · intro texts hshort
    obtain ⟨text, hbytes, htext⟩ := h texts hshort
    rw [hbytes, length_copied]
    exact Nat.succ_le_succ htext

theorem safe_of_length_lt {write : Write Field} (h : ∀ texts, (write.bytes texts).length < 256) :
    Safe write := by
  refine ⟨fun texts _ ↦ ⟨fun hlength ↦ ?_, fun hlong ↦ ?_⟩, fun texts _ ↦ (h texts).le⟩
  · exact absurd hlength (h texts).ne
  · exact absurd hlong (h texts).not_gt

/-! ## The functions that stay in their fields -/

theorem safe_getHostname (hostname : Option CString) :
    ∀ write ∈ getHostname hostname, Safe write := by
  cases hostname <;> simp [getHostname, safe_printed, safe_padded]

theorem safe_getUsername (user : Option CString) : ∀ write ∈ getUsername user, Safe write := by
  simp [getUsername, safe_padded]

theorem safe_getOsInfo (buffer : List UInt8) (file : FileRead) :
    ∀ write ∈ getOsInfo buffer file, Safe write := by
  simp [getOsInfo, safe_padded]

theorem safe_getKernel (names : Option (CString × CString)) :
    ∀ write ∈ getKernel names, Safe write := by
  cases names with
  | none => simp [getKernel, safe_padded]
  | some names =>
    unfold getKernel
    dsimp only
    split_ifs <;> simp [safe_printed, safe_padded]

theorem safe_getUptime (uptime : Option ℤ) : ∀ write ∈ getUptime uptime, Safe write := by
  have hunknown : unknownText.length ≤ 255 := by decide
  cases uptime <;> simp [getUptime, safe_printed, safe_copied _ hunknown]

/-- The text that `strncat` leaves in a field that has a NUL. -/
theorem appended_eq {front : CString} (h : front.length < 256) (back : CString) :
    appended front back = copied (front ++ back.take (255 - front.length)) := by
  have hroom : ((256 - front.length - 1 : ℤ) % 2 ^ 64).toNat = 255 - front.length := by omega
  unfold appended copied
  rw [hroom, bytes_append]

theorem safe_getCpuInfo (buffer : List UInt8) (file : FileRead) (cores : ℤ) (freq : ℚ) :
    ∀ write ∈ getCpuInfo buffer file cores freq, Safe write := by
  have hmodel (model : CString) :
      Safe (put .cpuModel ((model.bytes ++ List.replicate 224 0).take 224)) := by
    apply safe_of_length_lt
    intro texts
    show ((model.bytes ++ List.replicate 224 0).take 224).length < 256
    rw [List.length_take]
    omega
  have hcores : ∀ write ∈ [(⟨.cpuModel, fun texts ↦
        if texts .cpuModel = empty then copied (ofText "Unknown CPU") else []⟩ : Write Field),
      ⟨.cpuModel, fun texts ↦ appended (texts .cpuModel) (coresText cores freq)⟩],
      Safe write := by
    rw [List.forall_mem_cons, List.forall_mem_singleton]
    constructor
    · apply safe_of_length_lt
      intro texts
      dsimp only
      split_ifs <;> decide
    · apply safe_of_copied
      intro texts hshort
      refine ⟨_, appended_eq (hshort .cpuModel) _, ?_⟩
      have hlt : (texts .cpuModel).length < 256 := hshort .cpuModel
      have hcut := length_take_le (coresText cores freq) (255 - (texts .cpuModel).length)
      rw [length_append]
      omega
  unfold getCpuInfo copyModel
  rw [List.forall_mem_append]
  refine ⟨?_, hcores⟩
  split
  · split
    · rw [List.forall_mem_singleton]
      exact hmodel _
    · exact nofun
  · exact nofun

theorem safe_getMemoryInfo (buffer : List UInt8) (file : FileRead) :
    ∀ write ∈ getMemoryInfo buffer file, Safe write := by
  have hunknown : unknownText.length ≤ 255 := by decide
  unfold getMemoryInfo
  split <;> simp [safe_printed, safe_copied _ hunknown]

theorem safe_getSwapInfo (buffer : List UInt8) (file : FileRead) :
    ∀ write ∈ getSwapInfo buffer file, Safe write := by
  have hnone : (ofText "No swap").length ≤ 255 := by decide
  unfold getSwapInfo
  split
  · split <;> simp [safe_printed, safe_copied _ hnone]
  · exact nofun

theorem safe_getDiskInfo (root : Option FileSystem) : ∀ write ∈ getDiskInfo root, Safe write := by
  have hunknown : unknownText.length ≤ 255 := by decide
  cases root <;> simp [getDiskInfo, safe_printed, safe_copied _ hunknown]

theorem safe_getAllGpus (allGpus : Option CString) : ∀ write ∈ getAllGpus allGpus, Safe write := by
  intro write hwrite
  obtain ⟨slot, -, hslot⟩ := List.mem_filterMap.1 hwrite
  obtain ⟨text, -, rfl⟩ := Option.map_eq_some_iff.1 hslot
  exact safe_printed _ text

/-- Each text for the packages is cut to the room that there is. -/
theorem length_addCount_le {result : CString} (h : result.length ≤ 255) (count : ℤ)
    (manager : CString) : (addCount result count manager).length ≤ 255 := by
  unfold addCount
  split_ifs
  · exact length_take_le _ _
  · exact length_take_le _ _
  · exact h

theorem safe_getPackages (user : Option CString) (directories : PackageDirectories) :
    ∀ write ∈ getPackages user directories, Safe write := by
  have hresult : (packagesText user directories).length ≤ 255 := by
    have hnone : empty.length ≤ 255 := Nat.zero_le _
    have hfirst := length_addCount_le hnone (countDirectoryEntries directories.pacman)
      (ofText " (pacman)")
    have hsecond := length_addCount_le hfirst (countDirectoryEntries directories.flatpak +
      if user.isSome then countDirectoryEntries directories.userFlatpak else 0)
      (ofText " (flatpak)")
    have hthird := length_addCount_le hsecond (countDirectoryEntries directories.snap - 2)
      (ofText " (snap)")
    unfold packagesText
    by_cases hsnap : directories.snap.isSome
    · rw [if_pos hsnap]
      exact hthird
    · rw [if_neg hsnap]
      exact hsecond
  unfold getPackages
  rw [List.forall_mem_singleton]
  apply safe_copied
  split_ifs
  · exact hresult
  · decide

theorem safe_getDetailedThemeInfo : ∀ write ∈ getDetailedThemeInfo, Safe write := by
  have hunknown : unknownText.length ≤ 255 := by decide
  simp [getDetailedThemeInfo, safe_copied _ hunknown]

theorem safe_getNetworkInfo (buffer : List UInt8) (wlan eth : FileRead) :
    ∀ write ∈ getNetworkInfo buffer wlan eth, Safe write := by
  unfold getNetworkInfo
  rw [List.forall_mem_singleton]
  apply safe_copied
  split_ifs <;> decide

theorem safe_getBatteryInfo (files : BatteryFiles) :
    ∀ write ∈ getBatteryInfo files, Safe write := by
  have hnone : (ofText "No battery").length ≤ 255 := by decide
  unfold getBatteryInfo
  split <;> simp [safe_printed, safe_copied _ hnone]

theorem safe_getDisplayInfo (waylandDisplay display : Option CString) :
    ∀ write ∈ getDisplayInfo waylandDisplay display, Safe write := by
  unfold getDisplayInfo
  rw [List.forall_mem_singleton]
  apply safe_copied
  split_ifs <;> decide

/-! ## The four values of the environment -/

theorem bounded_put_of_fits {record : Field → List UInt8} {field : Field} {bytes : List UInt8}
    (h : layout.Fits record (put field bytes)) : layout.Bounded (put field bytes) := fun _ _ ↦ h

theorem safe_waylandText (waylandDisplay : Option CString) :
    Safe ⟨.wm, fun texts ↦
      copied (if waylandDisplay.isSome then waylandText (texts .de) else ofText "X11")⟩ := by
  apply safe_of_copied
  intro texts _
  refine ⟨_, rfl, ?_⟩
  unfold waylandText
  split_ifs <;> decide

theorem safe_terminalFont : Safe (put .terminalFont (copied unknownText)) :=
  safe_copied _ (by decide)

theorem bounded_getShell_iff (shell : Option CString) :
    (∀ write ∈ getShell shell, layout.Bounded write) ↔
      ∀ path ∈ shell, (baseName path).length ≤ 255 := by
  have hunknown : (ofText "unknown").length ≤ 255 := by decide
  cases shell with
  | none => simp [getShell, bounded_copied_iff, hunknown]
  | some shell => simp [getShell, bounded_copied_iff]

theorem length_getD_le_iff (value : Option CString) :
    (value.getD unknownText).length ≤ 255 ↔ ∀ text ∈ value, text.length ≤ 255 := by
  have hunknown : unknownText.length ≤ 255 := by decide
  cases value <;> simp [hunknown]

theorem bounded_getDesktopInfo_iff (currentDesktop desktopSession waylandDisplay : Option CString) :
    (∀ write ∈ getDesktopInfo currentDesktop desktopSession waylandDisplay,
        layout.Bounded write) ↔
      ∀ de ∈ currentDesktop.or desktopSession, de.length ≤ 255 := by
  unfold getDesktopInfo
  rw [List.forall_mem_cons, List.forall_mem_cons, List.forall_mem_singleton, bounded_copied_iff,
    bounded_copied_iff, length_getD_le_iff, and_self_left,
    and_iff_left (safe_waylandText waylandDisplay).2]

theorem bounded_getTerminalInfo_iff (termProgram terminal : Option CString) :
    (∀ write ∈ getTerminalInfo termProgram terminal, layout.Bounded write) ↔
      ∀ text ∈ termProgram.or terminal, text.length ≤ 255 := by
  unfold getTerminalInfo
  rw [List.forall_mem_cons, List.forall_mem_singleton, bounded_copied_iff, length_getD_le_iff,
    and_iff_left safe_terminalFont.2]

theorem bounded_getLocaleInfo_iff (lang : Option CString) :
    (∀ write ∈ getLocaleInfo lang, layout.Bounded write) ↔ ∀ text ∈ lang, text.length ≤ 255 := by
  unfold getLocaleInfo
  rw [List.forall_mem_singleton, bounded_copied_iff, length_getD_le_iff]

/-! ## The whole collection -/

section Collection

variable (machine : Machine)

/-- What is written in front of the shell. -/
def early : List (Write Field) :=
  getHostname machine.hostname ++ (getUsername machine.environment.user ++
    (getOsInfo machine.osBuffer machine.osRelease ++
      (getKernel machine.names ++ getUptime machine.uptime)))

/-- What is written between the shell and the desktop. -/
def middle : List (Write Field) :=
  getCpuInfo machine.cpuBuffer machine.cpuinfo machine.cores
      (getCpuFrequency machine.sysfs machine.scalingFile machine.maxFile) ++
    (getMemoryInfo machine.memoryBuffer machine.memoryFile ++
      (getSwapInfo machine.swapBuffer machine.swapFile ++ (getDiskInfo machine.root ++
        (getAllGpus machine.allGpus ++
          getPackages machine.environment.user machine.directories))))

/-- What is written between the terminal and the locale. -/
def late : List (Write Field) :=
  getNetworkInfo machine.operstateBuffer machine.wlan machine.eth ++
    (getBatteryInfo machine.batteryFiles ++
      getDisplayInfo machine.environment.waylandDisplay machine.environment.display)

/-- What is written behind the terminal. -/
def afterTerminal : List (Write Field) := late machine ++ getLocaleInfo machine.environment.lang

/-- What is written behind the desktop. -/
def afterDesktop : List (Write Field) :=
  getDetailedThemeInfo ++
    (getTerminalInfo machine.environment.termProgram machine.environment.terminal ++
      afterTerminal machine)

/-- What is written behind the shell. -/
def afterShell : List (Write Field) :=
  middle machine ++
    (getDesktopInfo machine.environment.currentDesktop machine.environment.desktopSession
      machine.environment.waylandDisplay ++ afterDesktop machine)

theorem getSystemInfo_eq : getSystemInfo machine =
    early machine ++ (getShell machine.environment.shell ++ afterShell machine) := by
  unfold getSystemInfo afterShell afterDesktop afterTerminal early middle late
  simp only [List.append_assoc]

theorem safe_early : ∀ write ∈ early machine, Safe write := by
  unfold early
  simp only [List.forall_mem_append]
  exact ⟨safe_getHostname _, safe_getUsername _, safe_getOsInfo _ _, safe_getKernel _,
    safe_getUptime _⟩

theorem safe_middle : ∀ write ∈ middle machine, Safe write := by
  unfold middle
  simp only [List.forall_mem_append]
  exact ⟨safe_getCpuInfo _ _ _ _, safe_getMemoryInfo _ _, safe_getSwapInfo _ _, safe_getDiskInfo _,
    safe_getAllGpus _, safe_getPackages _ _⟩

theorem safe_late : ∀ write ∈ late machine, Safe write := by
  unfold late
  simp only [List.forall_mem_append]
  exact ⟨safe_getNetworkInfo _ _ _, safe_getBatteryInfo _, safe_getDisplayInfo _ _⟩

/-- Every write is safe, or copies a text without looking at the record. -/
theorem safe_or_copied : ∀ write ∈ getSystemInfo machine,
    Safe write ∨ ∃ field text, write = put field (copied text) := by
  rw [getSystemInfo_eq, afterShell, afterDesktop, afterTerminal]
  simp only [List.forall_mem_append]
  refine ⟨fun write h ↦ .inl (safe_early machine write h), ?_,
    fun write h ↦ .inl (safe_middle machine write h), ?_,
    fun write h ↦ .inl (safe_getDetailedThemeInfo write h), ?_,
    fun write h ↦ .inl (safe_late machine write h), ?_⟩
  · unfold getShell
    split <;> exact List.forall_mem_singleton.2 (.inr ⟨_, _, rfl⟩)
  · unfold getDesktopInfo
    simp only [List.forall_mem_cons]
    exact ⟨.inr ⟨_, _, rfl⟩, .inr ⟨_, _, rfl⟩, .inl (safe_waylandText _), nofun⟩
  · unfold getTerminalInfo
    simp only [List.forall_mem_cons]
    exact ⟨.inr ⟨_, _, rfl⟩, .inl safe_terminalFont, nofun⟩
  · exact List.forall_mem_singleton.2 (.inr ⟨_, _, rfl⟩)

/-- No write is ever too long exactly when the four values fit. -/
theorem bounded_getSystemInfo_iff :
    (∀ write ∈ getSystemInfo machine, layout.Bounded write) ↔ machine.environment.Fits := by
  rw [getSystemInfo_eq, afterShell, afterDesktop, afterTerminal]
  simp only [List.forall_mem_append, bounded_getShell_iff, bounded_getDesktopInfo_iff,
    bounded_getTerminalInfo_iff, bounded_getLocaleInfo_iff]
  constructor
  · rintro ⟨-, hshell, -, hdesktop, -, hterminal, -, hlocale⟩
    exact ⟨hshell, hdesktop, hterminal, hlocale⟩
  · intro h
    exact ⟨fun write hwrite ↦ (safe_early machine write hwrite).2, h.shell,
      fun write hwrite ↦ (safe_middle machine write hwrite).2, h.desktop,
      fun write hwrite ↦ (safe_getDetailedThemeInfo write hwrite).2, h.terminal,
      fun write hwrite ↦ (safe_late machine write hwrite).2, h.locale⟩

/-! ## The order of the fields -/

theorem from_middle : From 1536 (middle machine) := by
  have hput {low : ℕ} {field : Field} (h : low ≤ field.offset) (bytes : List UInt8) :
      From low [put field bytes] := List.forall_mem_singleton.2 h
  unfold middle From
  simp only [List.forall_mem_append]
  refine ⟨?_, ?_, ?_, ?_, ?_, hput (by decide) _⟩
  · unfold getCpuInfo copyModel
    rw [List.forall_mem_append, List.forall_mem_cons, List.forall_mem_singleton]
    refine ⟨?_, le_refl 1536, le_refl 1536⟩
    split
    · split
      · exact hput (by decide) _
      · exact nofun
    · exact nofun
  · unfold getMemoryInfo
    split <;> exact hput (by decide) _
  · unfold getSwapInfo
    split
    · split <;> exact hput (by decide) _
    · exact nofun
  · unfold getDiskInfo
    split <;> exact hput (by decide) _
  · intro write hwrite
    obtain ⟨slot, -, hslot⟩ := List.mem_filterMap.1 hwrite
    obtain ⟨text, -, rfl⟩ := Option.map_eq_some_iff.1 hslot
    show 1536 ≤ 2576 + 256 * slot.val
    omega

theorem from_late : From 7700 (late machine) := by
  have hput {low : ℕ} {field : Field} (h : low ≤ field.offset) (bytes : List UInt8) :
      From low [put field bytes] := List.forall_mem_singleton.2 h
  unfold late From
  simp only [List.forall_mem_append]
  refine ⟨hput (by decide) _, ?_, hput (by decide) _⟩
  unfold getBatteryInfo
  split <;> exact hput (by decide) _

theorem from_getDetailedThemeInfo : From 5652 getDetailedThemeInfo := by
  unfold From getDetailedThemeInfo
  rw [List.forall_mem_map]
  decide

theorem From.mono {low high : ℕ} (hle : low ≤ high) {writes : List (Write Field)}
    (h : From high writes) : From low writes := fun write hwrite ↦ hle.trans (h write hwrite)

theorem from_append {low : ℕ} {front back : List (Write Field)} (hfront : From low front)
    (hback : From low back) : From low (front ++ back) := List.forall_mem_append.2 ⟨hfront, hback⟩

theorem from_cons {low : ℕ} {write : Write Field} {rest : List (Write Field)}
    (hwrite : low ≤ write.field.offset) (hrest : From low rest) : From low (write :: rest) :=
  List.forall_mem_cons.2 ⟨hwrite, hrest⟩

theorem from_afterTerminal : From 7700 (afterTerminal machine) :=
  from_append (from_late machine) (List.forall_mem_singleton.2 (show 7700 ≤ 8212 by decide))

theorem from_afterDesktop : From 5652 (afterDesktop machine) :=
  from_append from_getDetailedThemeInfo (from_cons (show 5652 ≤ 7188 by decide)
    (from_cons (show 5652 ≤ 7444 by decide) ((from_afterTerminal machine).mono (by decide))))

theorem from_afterShell : From 1536 (afterShell machine) :=
  from_append (from_middle machine) (from_cons (show 1536 ≤ 4884 by decide)
    (from_cons (show 1536 ≤ 5140 by decide) (from_cons (show 1536 ≤ 5396 by decide)
      ((from_afterDesktop machine).mono (by decide)))))

/-- Behind a write that may be too long, only later fields are written. -/
def Ordered (earlier later : Write Field) : Prop :=
  layout.Bounded earlier ∨ layout.offset earlier.field + layout.size ≤ layout.offset later.field

theorem ordered_append_of_safe {front back : List (Write Field)}
    (hfront : ∀ write ∈ front, Safe write) (hback : back.Pairwise Ordered) :
    (front ++ back).Pairwise Ordered :=
  List.pairwise_append.2 ⟨List.pairwise_of_forall_mem_list fun write hwrite _ _ ↦
    .inl (hfront write hwrite).2, hback, fun write hwrite _ _ ↦ .inl (hfront write hwrite).2⟩

theorem ordered_cons_of_from {write : Write Field} {back : List (Write Field)}
    (hfrom : From (write.field.offset + 256) back) (hback : back.Pairwise Ordered) :
    (write :: back).Pairwise Ordered :=
  List.pairwise_cons.2 ⟨fun other hother ↦ .inr (hfrom other hother), hback⟩

theorem ordered_afterTerminal : (afterTerminal machine).Pairwise Ordered :=
  ordered_append_of_safe (safe_late machine) (List.pairwise_singleton _ _)

theorem ordered_afterDesktop : (afterDesktop machine).Pairwise Ordered := by
  apply ordered_append_of_safe safe_getDetailedThemeInfo
  apply ordered_cons_of_from
  · exact from_cons (le_refl 7444) ((from_afterTerminal machine).mono (show 7444 ≤ 7700 by decide))
  · exact ordered_append_of_safe (List.forall_mem_singleton.2 safe_terminalFont)
      (ordered_afterTerminal machine)

theorem ordered_afterShell : (afterShell machine).Pairwise Ordered := by
  have hwm := (from_afterDesktop machine).mono (show 5396 ≤ 5652 by decide)
  apply ordered_append_of_safe (safe_middle machine)
  apply ordered_cons_of_from
  · exact from_cons (le_refl 5140) (from_cons (show 5140 ≤ 5396 by decide)
      (hwm.mono (show 5140 ≤ 5396 by decide)))
  apply ordered_cons_of_from
  · exact from_cons (le_refl 5396) hwm
  · exact ordered_append_of_safe (List.forall_mem_singleton.2 (safe_waylandText _))
      (ordered_afterDesktop machine)

theorem ordered_getSystemInfo : (getSystemInfo machine).Pairwise Ordered := by
  rw [getSystemInfo_eq]
  apply ordered_append_of_safe (safe_early machine)
  unfold getShell
  split <;> exact ordered_cons_of_from (from_afterShell machine) (ordered_afterShell machine)

/-! ## The block -/

theorem regular_getSystemInfo : ∀ write ∈ getSystemInfo machine, layout.RegularWrite write := by
  intro write hwrite
  rcases safe_or_copied machine write hwrite with hsafe | ⟨field, text, rfl⟩
  · exact hsafe.1
  · exact fun _ _ ↦ regular_copied text

theorem stable_getSystemInfo : ∀ write ∈ getSystemInfo machine, ∀ record, layout.Closed record →
    layout.Fits record write → layout.Bounded write := by
  intro write hwrite record _ hfits
  rcases safe_or_copied machine write hwrite with hsafe | ⟨field, text, rfl⟩
  · exact hsafe.2
  · exact bounded_put_of_fits hfits

theorem arrays_cleared (behind : List UInt8) :
    layout.arrays (cleared behind) = zeroArrays := by
  funext field
  have hinside : layout.offset field + 256 ≤ 9240 := layout.inside field
  have hroom : 256 ≤ (List.replicate (9240 - layout.offset field) (0 : UInt8)).length := by
    rw [List.length_replicate]
    omega
  have hinner : layout.offset field ≤ (List.replicate 9240 (0 : UInt8)).length := by
    rw [List.length_replicate]
    omega
  show ((List.replicate 9240 0 ++ behind).drop (layout.offset field)).take 256 = _
  rw [List.drop_append_of_le_length hinner, List.drop_replicate,
    List.take_append_of_le_length hroom, List.take_replicate, Nat.min_eq_left (by omega),
    zeroArrays]

theorem closed_cleared (behind : List UInt8) : layout.Closed (layout.arrays (cleared behind)) := by
  rw [arrays_cleared]
  exact fun _ ↦ ⟨List.length_replicate, rfl⟩

theorem length_cleared (behind : List UInt8) : layout.total ≤ (cleared behind).length := by
  unfold cleared
  rw [List.length_append, List.length_replicate]
  exact Nat.le_add_right _ _

/-- The block stays whole exactly when the four values fit. -/
theorem whole_collected_iff (behind : List UInt8) :
    layout.Whole (cleared behind) (collected machine behind) ↔ machine.environment.Fits := by
  unfold collected
  rw [layout.whole_run_iff_bounded (length_cleared behind) (closed_cleared behind)
    (regular_getSystemInfo machine) (stable_getSystemInfo machine) (ordered_getSystemInfo machine),
    bounded_getSystemInfo_iff]

theorem arrays_collected (behind : List UInt8) (h : machine.environment.Fits) :
    layout.arrays (collected machine behind) =
      run Layout.assign zeroArrays (getSystemInfo machine) := by
  unfold collected
  rw [← arrays_cleared behind]
  exact layout.run_of_bounded (length_cleared behind) (closed_cleared behind)
    (regular_getSystemInfo machine) ((bounded_getSystemInfo_iff machine).2 h)

/-- The functions of `get_system_info` stay in the fields of the record, and leave a NUL in each,
exactly when the name of the shell, the desktop, the terminal and the locale have at most 255 bytes.
The record then holds what the functions would leave in arrays of their own. -/
theorem whole_iff_fits (behind : List UInt8) :
    (layout.Whole (cleared behind) (collected machine behind) ↔ machine.environment.Fits) ∧
      (machine.environment.Fits → layout.arrays (collected machine behind) =
        run Layout.assign zeroArrays (getSystemInfo machine)) :=
  ⟨whole_collected_iff machine behind, arrays_collected machine behind⟩

end Collection

end HiFetch.Sysinfo.Collect
