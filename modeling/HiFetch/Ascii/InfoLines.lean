import HiFetch.Sysinfo.GpuList
import HiFetch.Sysinfo.InfoCache

/-!
# The table of information lines

`display_system_info` formats its lines into a table of 32 rows, and the dashes below the title into
an array of 128 bytes.  How many lines there are depends on the graphics cards and on six texts, so
that the table is large enough is a matter of what `get_system_info` can give: as long as it sets
the texts for the themes to `Unknown` and finds at most eight cards, or serves a page of zeros.

Texts that are copied without a check of their length are taken to fit in their fields.
-/

namespace HiFetch.Ascii

open CString Sysinfo Transition

/-- The fields of a `SystemInfo` that are displayed, without the user name. -/
structure InfoFields where
  hostname : CString
  osName : CString
  kernel : CString
  uptime : CString
  shell : CString
  cpuModel : CString
  memory : CString
  swap : CString
  disk : CString
  gpus : GpuList
  packages : CString
  deVersion : CString
  wm : CString
  wmTheme : CString
  gtkTheme : CString
  qtTheme : CString
  iconTheme : CString
  cursorTheme : CString
  font : CString
  terminal : CString
  localIp : CString
  battery : CString
  locale : CString
  display : CString

/-- All bytes are zero. -/
instance : Zero InfoFields where
  zero := ⟨empty, empty, empty, empty, empty, empty, empty, empty, empty, zeroGpus, empty, empty,
    empty, empty, empty, empty, empty, empty, empty, empty, empty, empty, empty, empty⟩

/-! ## What is collected -/

def unknownText : CString := ofText "Unknown"

/-- `get_hostname`, for what `gethostname` gives. -/
def getHostname : Option CString → CString
  | some name => name.take 255
  | none => ofText "unknown"

/-- `get_detailed_theme_info` -/
def getDetailedThemeInfo (info : InfoFields) : InfoFields :=
  { info with
    gtkTheme := unknownText
    qtTheme := unknownText
    wmTheme := unknownText
    iconTheme := unknownText
    cursorTheme := unknownText
    font := unknownText }

/-- What a collection finds: the name of the host, the output of `lspci`, and the texts that the
other functions write. -/
structure Sources where
  hostname : Option CString
  allGpus : Option CString
  texts : InfoFields

/-- The fields after all the functions that `get_system_info` calls, which start from zeros. -/
def collectFields (sources : Sources) : InfoFields :=
  getDetailedThemeInfo
    { sources.texts with
      hostname := getHostname sources.hostname
      gpus := getAllGpus zeroGpus sources.allGpus }

/-- A call of the process, with the fields that it collects. -/
def collectCall : Call Sources → Call InfoFields
  | .initFastCache mapped => .initFastCache mapped
  | .getSystemInfo currentTime user sources =>
      .getSystemInfo currentTime user (collectFields sources)

/-! ## What is displayed -/

/-- The `name_len` dashes below the title, at most 127. -/
def dashCount (info : SystemInfo InfoFields) : ℤ :=
  let nameLen := ((info.username.length + info.others.hostname.length + 1 : ℕ) : ℤ).bmod (2 ^ 32)
  if nameLen < 127 then nameLen else 127

/-- `fast_memset_dashes`: the places that it writes, eight at a time as long as that is possible. -/
def fastMemsetDashes (len : ℤ) : List ℤ :=
  if 8 ≤ len then
    let simdLen := len - len % 8
    ((List.range (simdLen / 8).toNat).flatMap fun (i : ℕ) ↦
        (List.range 8).map fun (byte : ℕ) ↦ (8 * i + byte : ℤ)) ++
      (List.range (len - simdLen).toNat).map fun (i : ℕ) ↦ simdLen + i
  else (List.range len.toNat).map fun (i : ℕ) ↦ (i : ℤ)

/-- The places of `separator` that are written, the NUL at the end included. -/
def separatorWrites (info : SystemInfo InfoFields) : List ℤ :=
  fastMemsetDashes (dashCount info) ++ [dashCount info]

/-- A text in bold blue. -/
def highlighted (text : CString) : CString := ofText "\x1b[1;34m" ++ text ++ ofText "\x1b[0m"

/-- A line with a name and a text, which `snprintf` cuts to 511 bytes. -/
def labelled (name text : CString) : CString := (highlighted name ++ ofText " " ++ text).take 511

/-- A line that is left out where the text is as given. -/
def lineUnless (text known line : CString) : List CString :=
  if strcmp text known ≠ 0 then [line] else []

/-- The line for the GTK and Qt themes. -/
def themeLine (info : InfoFields) : List CString :=
  if strcmp info.gtkTheme unknownText ≠ 0 ∧ strcmp info.qtTheme unknownText ≠ 0 then
    [labelled (ofText "Theme:") (info.qtTheme ++ ofText " [Qt], " ++ info.gtkTheme ++
      ofText " [GTK2], " ++ info.gtkTheme ++ ofText " [GTK3]")]
  else if strcmp info.gtkTheme unknownText ≠ 0 then
    [labelled (ofText "Theme:") (info.gtkTheme ++ ofText " [GTK2/3/4]")]
  else []

/-- A line for a text that Qt and GTK share. -/
def sharedLine (name text : CString) : CString :=
  labelled name (text ++ ofText " [Qt], " ++ text ++ ofText " [GTK2/3/4]")

def gpuLine (gpus : GpuList) (i : ℕ) : CString :=
  labelled (ofText "GPU " ++ ofInt (i + 1) ++ ofText ":") (ofBuffer (gpus.gpu.getD i []))

/-- The lines that `display_system_info` formats, in the order of their rows. -/
def infoLines (info : SystemInfo InfoFields) (hostInfo : CString) (colors editor : Option CString) :
    List CString :=
  let fields := info.others
  [empty,
    (highlighted info.username ++ ofText "@" ++ highlighted fields.hostname).take 511,
    (highlighted (ofBuffer (List.replicate (dashCount info).toNat 45))).take 511,
    labelled (ofText "OS:") fields.osName,
    labelled (ofText "Host:") hostInfo,
    labelled (ofText "Kernel:") fields.kernel,
    labelled (ofText "Uptime:") fields.uptime,
    labelled (ofText "Packages:") fields.packages,
    labelled (ofText "Shell:") fields.shell,
    labelled (ofText "Display:") fields.display,
    labelled (ofText "DE:") fields.deVersion,
    labelled (ofText "WM:") fields.wm] ++
  lineUnless fields.wmTheme unknownText (labelled (ofText "WM Theme:") fields.wmTheme) ++
  themeLine fields ++
  lineUnless fields.iconTheme unknownText (sharedLine (ofText "Icons:") fields.iconTheme) ++
  lineUnless fields.font unknownText (sharedLine (ofText "Font:") fields.font) ++
  lineUnless fields.cursorTheme unknownText (labelled (ofText "Cursor:") fields.cursorTheme) ++
  [labelled (ofText "Terminal:") fields.terminal, labelled (ofText "CPU:") fields.cpuModel] ++
  (List.range fields.gpus.gpuCount).map (gpuLine fields.gpus) ++
  [labelled (ofText "Memory:") fields.memory] ++
  lineUnless fields.swap (ofText "No swap") (labelled (ofText "Swap:") fields.swap) ++
  [labelled (ofText "Disk:") fields.disk,
    labelled (ofText "Local IP:") fields.localIp,
    labelled (ofText "Battery:") fields.battery,
    labelled (ofText "Locale:") fields.locale,
    labelled (ofText "Colors:") (colors.getD (ofText "256")),
    labelled (ofText "Editor:") (editor.getD (ofText "vim")),
    empty, empty]

/-- The writes to `formatted_info`: every line goes to the row with the number of the lines before
it. -/
def formattedInfo (info : SystemInfo InfoFields) (hostInfo : CString)
    (colors editor : Option CString) : List (CString × ℕ) :=
  (infoLines info hostInfo colors editor).zipIdx

/-- All writes are inside the arrays. -/
structure FitsTable (info : SystemInfo InfoFields) (hostInfo : CString)
    (colors editor : Option CString) : Prop where
  row : ∀ write ∈ formattedInfo info hostInfo colors editor, write.2 < 32
  separator : ∀ place ∈ separatorWrites info, 0 ≤ place ∧ place < 128

/-! ## The separator -/

/-- `fast_memset_dashes` writes inside its length. -/
theorem mem_fastMemsetDashes {len place : ℤ} (h : place ∈ fastMemsetDashes len) :
    0 ≤ place ∧ place < len := by
  unfold fastMemsetDashes at h
  split_ifs at h with hlong
  · rw [List.mem_append, List.mem_flatMap] at h
    rcases h with ⟨i, hi, hbyte⟩ | hrest
    · obtain ⟨byte, hlast, rfl⟩ := List.mem_map.1 hbyte
      rw [List.mem_range] at hi hlast
      omega
    · obtain ⟨i, hi, rfl⟩ := List.mem_map.1 hrest
      rw [List.mem_range] at hi
      omega
  · obtain ⟨i, hi, rfl⟩ := List.mem_map.1 h
    rw [List.mem_range] at hi
    omega

theorem dashCount_mem {info : SystemInfo InfoFields} (huser : info.username.length ≤ 255)
    (hhost : info.others.hostname.length ≤ 255) : 0 ≤ dashCount info ∧ dashCount info ≤ 127 := by
  unfold dashCount
  rw [Int.bmod_eq_of_le (by omega) (by omega)]
  dsimp only
  split_ifs <;> omega

/-! ## The rows -/

theorem length_lineUnless_le (text known line : CString) :
    (lineUnless text known line).length ≤ 1 := by
  unfold lineUnless
  split_ifs <;> simp

theorem lineUnless_unknownText (line : CString) :
    lineUnless unknownText unknownText line = [] := if_neg (by decide)

theorem length_themeLine_le (info : InfoFields) : (themeLine info).length ≤ 1 := by
  unfold themeLine
  split_ifs <;> simp

/-- All lines, when each line that may be left out is there. -/
theorem length_infoLines_le (info : SystemInfo InfoFields) (hostInfo : CString)
    (colors editor : Option CString) :
    (infoLines info hostInfo colors editor).length ≤ 29 + info.others.gpus.gpuCount := by
  have hwm := length_lineUnless_le info.others.wmTheme unknownText
    (labelled (ofText "WM Theme:") info.others.wmTheme)
  have htheme := length_themeLine_le info.others
  have hicons := length_lineUnless_le info.others.iconTheme unknownText
    (sharedLine (ofText "Icons:") info.others.iconTheme)
  have hfont := length_lineUnless_le info.others.font unknownText
    (sharedLine (ofText "Font:") info.others.font)
  have hcursor := length_lineUnless_le info.others.cursorTheme unknownText
    (labelled (ofText "Cursor:") info.others.cursorTheme)
  have hswap := length_lineUnless_le info.others.swap (ofText "No swap")
    (labelled (ofText "Swap:") info.others.swap)
  simp only [infoLines, List.length_append, List.length_cons, List.length_nil, List.length_map,
    List.length_range]
  omega

theorem themeLine_of_gtkTheme {info : InfoFields} (h : info.gtkTheme = unknownText) :
    themeLine info = [] := by
  have hequal : ¬strcmp info.gtkTheme unknownText ≠ 0 := by
    rw [h]
    decide
  unfold themeLine
  rw [if_neg fun hboth ↦ hequal hboth.1, if_neg hequal]

/-- The five lines for the themes are left out where `get_detailed_theme_info` has set them. -/
theorem length_infoLines_theme_le (username : CString) (fields : InfoFields) (hostInfo : CString)
    (colors editor : Option CString) :
    (infoLines ⟨username, getDetailedThemeInfo fields⟩ hostInfo colors editor).length ≤
      24 + fields.gpus.gpuCount := by
  have htheme : themeLine (getDetailedThemeInfo fields) = [] := themeLine_of_gtkTheme rfl
  have hswap := length_lineUnless_le fields.swap (ofText "No swap")
    (labelled (ofText "Swap:") fields.swap)
  simp only [infoLines, htheme, List.length_append]
  simp only [getDetailedThemeInfo, lineUnless_unknownText, List.length_cons, List.length_nil,
    List.length_map, List.length_range]
  omega

/-- There are at most eight cards. -/
theorem gpuCount_gpuLoop_le {list : GpuList} (h : list.gpuCount ≤ maxGpus) (buffer : List UInt8)
    (start : ℕ) : (gpuLoop buffer start list).gpuCount ≤ maxGpus := by
  fun_induction gpuLoop buffer start list with
  | case1 => exact h
  | case2 buffer start list place hplace hroom trimmed line ih =>
    apply ih
    split_ifs
    · unfold GpuList.add
      dsimp only
      split_ifs <;> exact hroom
    · exact h
  | case3 => exact h

theorem gpuCount_getAllGpus_le (list : GpuList) (allGpus : Option CString) :
    (getAllGpus list allGpus).gpuCount ≤ maxGpus := by
  have hone : ∀ list : GpuList, list.unknown.gpuCount ≤ maxGpus := fun _ ↦
    (by decide : 1 ≤ maxGpus)
  unfold getAllGpus
  cases allGpus with
  | none => exact hone _
  | some text =>
    dsimp only
    split_ifs
    · exact hone _
    · exact hone _
    · exact gpuCount_gpuLoop_le (Nat.zero_le _) _ _

/-- There are 32 rows and 128 bytes. -/
theorem fitsTable_of_le {info : SystemInfo InfoFields} {hostInfo : CString}
    {colors editor : Option CString}
    (hlines : (infoLines info hostInfo colors editor).length ≤ 32)
    (huser : info.username.length ≤ 255) (hhost : info.others.hostname.length ≤ 255) :
    FitsTable info hostInfo colors editor where
  row := by
    intro write hwrite
    exact (List.snd_lt_of_mem_zipIdx hwrite).trans_le hlines
  separator := by
    obtain ⟨hlow, hhigh⟩ := dashCount_mem huser hhost
    intro place hplace
    rcases List.mem_append.1 hplace with hdash | hend
    · have hinside := mem_fastMemsetDashes hdash
      omega
    · rw [List.mem_singleton.1 hend]
      omega

/-! ## What can be displayed -/

/-- What the cache page holds, and what `get_system_info` gives: zeros, or what it has collected. -/
inductive Provided : SystemInfo InfoFields → Prop where
  | zeroed : Provided .zeroed
  | collected (user : Option CString) (sources : Sources) :
      Provided ⟨getUsername user, collectFields sources⟩

theorem length_getUsername_le (user : Option CString) : (getUsername user).length ≤ 255 := by
  have hunknown : unknown.length ≤ 255 := by decide
  unfold getUsername
  cases user with
  | none => exact hunknown
  | some user =>
    dsimp only
    split_ifs
    · exact length_take_le user 255
    · exact hunknown

theorem length_getHostname_le (hostname : Option CString) :
    (getHostname hostname).length ≤ 255 := by
  cases hostname with
  | none => exact (by decide : (ofText "unknown").length ≤ 255)
  | some name => exact length_take_le name 255

/-- A page of zeros has all lines and no cards; a collection has no line for the themes, and at most
eight cards. -/
theorem Provided.fitsTable {info : SystemInfo InfoFields} (h : Provided info) (hostInfo : CString)
    (colors editor : Option CString) : FitsTable info hostInfo colors editor := by
  cases h with
  | zeroed =>
    have hlines := length_infoLines_le SystemInfo.zeroed hostInfo colors editor
    have hnone : (SystemInfo.zeroed : SystemInfo InfoFields).others.gpus.gpuCount = 0 := rfl
    have hempty : empty.length ≤ 255 := Nat.zero_le _
    exact fitsTable_of_le (by omega) hempty hempty
  | collected user sources =>
    have hlines := length_infoLines_theme_le (getUsername user)
      { sources.texts with
        hostname := getHostname sources.hostname
        gpus := getAllGpus zeroGpus sources.allGpus } hostInfo colors editor
    have hcards : (getAllGpus zeroGpus sources.allGpus).gpuCount ≤ 8 :=
      gpuCount_getAllGpus_le zeroGpus sources.allGpus
    exact fitsTable_of_le (hlines.trans (Nat.add_le_add_left hcards 24))
      (length_getUsername_le user) (length_getHostname_le sources.hostname)

/-- What a call gives fits in the table, with any texts of the environment. -/
def Displayable (process : Process InfoFields) : Call InfoFields → Prop
  | .initFastCache _ => True
  | .getSystemInfo currentTime user others => ∀ cache ∈ process.cache,
      match getSystemInfo cache currentTime user others with
      | none => True
      | some (_, .served info) | some (_, .collected info) =>
          ∀ hostInfo colors editor, FitsTable info hostInfo colors editor

/-- The page holds nothing else. -/
def PageProvided (process : Process InfoFields) : Prop :=
  ∀ cache ∈ process.cache, ∀ page, cache.cachedInfo = .mapped page → Provided page

theorem pageProvided_processStep {process : Process InfoFields} (h : PageProvided process)
    (call : Call Sources) :
    PageProvided (processStep process (collectCall call)) ∧
      Displayable process (collectCall call) := by
  obtain ⟨cache, clock, collections⟩ := process
  cases cache with
  | none => cases call <;> exact ⟨h, by simp [collectCall, Displayable]⟩
  | some cache =>
    cases call with
    | initFastCache mapped =>
      refine ⟨?_, trivial⟩
      rintro _ ⟨⟩ page hpage
      cases mapped with
      | false => cases hpage
      | true =>
        cases hpage
        exact .zeroed
    | getSystemInfo currentTime user sources =>
      unfold PageProvided processStep Displayable collectCall
      simp only [Option.mem_def, Option.some.injEq, forall_eq']
      rcases getSystemInfo_cases currentTime user (collectFields sources) cache with
        hnone | ⟨page, hpage, hserved⟩ | ⟨next, hnext, hcollected⟩
      · rw [hnone]
        exact ⟨by simp, trivial⟩
      · rw [hserved]
        exact ⟨h, (h cache rfl page hpage).fitsTable⟩
      · have hinfo := Provided.collected user sources
        rw [hcollected]
        refine ⟨?_, hinfo.fitsTable⟩
        rintro _ ⟨⟩ page hpage
        rcases hnext with rfl | hwritten
        · exact h _ rfl page hpage
        · rw [hwritten] at hpage
          cases hpage
          exact hinfo

/-- The table is large enough.  In every run of `init_fast_cache` and `get_system_info`, what a call
gives is displayed with writes below 32 rows and below 128 bytes, in any environment. -/
theorem along_displayable (calls : List (Call Sources)) :
    Along processStep Displayable startProcess (calls.map collectCall) := by
  have hstep : ∀ process call, PageProvided process → (∃ source, collectCall source = call) →
      PageProvided (processStep process call) ∧ Displayable process call := by
    rintro process _ h ⟨call, rfl⟩
    exact pageProvided_processStep h call
  have hstart : PageProvided startProcess := by
    rintro _ ⟨⟩ page hpage
    cases hpage
  apply along_of_invariant hstep hstart
  apply along_of_forall
  intro call hcall
  obtain ⟨source, -, hsource⟩ := List.mem_map.1 hcall
  exact ⟨source, hsource⟩

end HiFetch.Ascii
