import HiFetch.Library.Scanf
import HiFetch.Library.Slots
import HiFetch.Network.Commands
import HiFetch.Utils.ReadFile

/-!
# Sensors

`read_hwmon_sensors` goes through the directories of the devices and sorts their files into three
tables, by texts that it looks for anywhere in their names.  The text for voltages is a part of
`_input`, which stands in the name of every file with a value, so currents, powers and whatever else
is neither a temperature nor a fan become voltages.

Each sensor is modelled beside the file that it is read from.  A label is copied without a check of
its length, out of the static buffer of `read_sysfs_string`, where an empty file leaves the text of
the file that was read before it.
-/

namespace HiFetch.Hardware

open CString Scanf Slots Utils

inductive SensorKind where
  | temp
  | fan
  | voltage
deriving DecidableEq

namespace SensorKind

/-- The text that is looked for in a name. -/
def text : SensorKind → CString
  | temp => ofText "temp"
  | fan => ofText "fan"
  | voltage => ofText "in"

/-- The label of a sensor without a file for it, in front of its number. -/
def label : SensorKind → CString
  | temp => ofText "temp"
  | fan => ofText "fan"
  | voltage => ofText "voltage"

def divisor : SensorKind → ℚ
  | temp => 1000
  | fan => 1
  | voltage => 1000

/-- The unit; the sign for degrees has two bytes. -/
def unit : SensorKind → CString
  | temp => ⟨[0xc2, 0xb0, 67], by decide⟩
  | fan => ofText "RPM"
  | voltage => ofText "V"

end SensorKind

/-- The fields that are assigned. -/
structure Sensor where
  label : CString
  value : ℚ
  unit : CString
deriving DecidableEq

/-- A file in the directory of a device. -/
structure SensorFile where
  directory : CString
  dName : CString
deriving DecidableEq

def hwmonPath (dName : CString) : CString :=
  Network.snprintf 512 (ofText "/sys/class/hwmon/") dName empty

def SensorFile.sensorPath (file : SensorFile) : CString :=
  Network.snprintf 512 (hwmonPath file.directory) (ofText "/") file.dName

/-- The file with the label, by the first token of the name; `snprintf` prints `(null)` for none. -/
def SensorFile.labelPath (file : SensorFile) : CString :=
  Network.snprintf 512 (hwmonPath file.directory ++ ofText "/")
    ((file.dName.tokens 95).head?.getD (ofText "(null)")) (ofText "_label")

/-- The tests of a name. -/
def sensorKind (dName : CString) : Option SensorKind :=
  if occurs dName (ofText "temp") && occurs dName (ofText "_input") then some .temp
  else if occurs dName (ofText "fan") && occurs dName (ofText "_input") then some .fan
  else if occurs dName (ofText "in") && occurs dName (ofText "_input") then some .voltage
  else none

/-- The kind of a file that is not hidden. -/
def SensorFile.kind (file : SensorFile) : Option SensorKind :=
  if file.dName.bytes.head? = some 46 then none else sensorKind file.dName

/-- What is done for a file of a kind whose table has room, behind `count` other ones.  The second
call leaves the label in the static buffer, from where it is copied. -/
def recordSensor (files : CString → FileRead) (kind : SensorKind) (count : ℕ)
    (buffer : List UInt8) (file : SensorFile) : Option ((SensorFile × Sensor) × List UInt8) :=
  let (value, buffer) := readSysfsFloat buffer (files file.sensorPath)
  let (label, buffer) := readSysfsString buffer (files file.labelPath)
  let label :=
    match label with
    | some label => Network.strcpy 64 label
    | none => some ((kind.label ++ ofInt (count + 1)).take 63)
  label.map fun label ↦
    ((file, { label := label, value := value / kind.divisor, unit := kind.unit }), buffer)

/-- The tables, with the static buffer of `read_sysfs_string`. -/
abbrev SensorTables := (SensorKind → List (SensorFile × Sensor)) × List UInt8

/-- A round of the loop over the files of a device. -/
def sensorRound (files : CString → FileRead) : SensorTables → SensorFile → Option SensorTables :=
  sortRound 128 SensorFile.kind (recordSensor files)

/-- A round of the loop over the devices, for what `opendir` and `readdir` find at a path. -/
def hwmonRound (files : CString → FileRead) (opendir : CString → Option (List CString))
    (tables : SensorTables) (dName : CString) : Option SensorTables :=
  if dName.bytes.head? = some 46 then some tables
  else
    match opendir (hwmonPath dName) with
    | none => some tables
    | some names => (names.map (SensorFile.mk dName)).foldlM (sensorRound files) tables

/-- `read_hwmon_sensors`: the sensors of each kind. -/
def readHwmonSensors (files : CString → FileRead) (opendir : CString → Option (List CString))
    (buffer : List UInt8) : Option (SensorKind → List (SensorFile × Sensor)) :=
  match opendir (ofText "/sys/class/hwmon") with
  | none => some fun _ ↦ []
  | some names =>
      (names.foldlM (hwmonRound files opendir) (fun _ ↦ [], buffer)).map fun tables ↦ tables.1

/-! ## The law -/

def directoryFiles (opendir : CString → Option (List CString)) (dName : CString) :
    List SensorFile :=
  if dName.bytes.head? = some 46 then []
  else ((opendir (hwmonPath dName)).getD []).map (SensorFile.mk dName)

/-- The files of all devices, in the order of the directories. -/
def sensorFiles (opendir : CString → Option (List CString)) : List SensorFile :=
  ((opendir (ofText "/sys/class/hwmon")).getD []).flatMap (directoryFiles opendir)

/-- The name is the text of the kind, a decimal number and `_input`. -/
def Numbered (kind : SensorKind) (dName : CString) : Prop :=
  let rest := dName.bytes.drop kind.text.length
  kind.text.bytes <+: dName.bytes ∧ rest.takeWhile isDigit ≠ [] ∧
    rest.dropWhile isDigit = (ofText "_input").bytes

instance (kind : SensorKind) (dName : CString) : Decidable (Numbered kind dName) :=
  inferInstanceAs (Decidable (_ ∧ _ ∧ _))

/-- Each table has the first 128 files with numbered names, and no other file. -/
def RecordsNumbered (opendir : CString → Option (List CString))
    (result : Option (SensorKind → List (SensorFile × Sensor))) : Prop :=
  ∃ sensors, result = some sensors ∧ ∀ kind, (sensors kind).map Prod.fst =
    ((sensorFiles opendir).filter fun file ↦ Numbered kind file.dName).take 128

/-- The files that the tests pick and that find room in the table of their kind. -/
def recordedFiles (opendir : CString → Option (List CString)) : List SensorFile :=
  accepted 128 SensorFile.kind (fun _ ↦ 0) (sensorFiles opendir)

/-- The text that the second call for a sensor returns, or the empty text, where the static buffer
held a text before the first call. -/
def labelText (files : CString → FileRead) (held : CString) (file : SensorFile) : CString :=
  textAfter (textHeld held (files file.sensorPath)).bytes (files file.labelPath)

/-- The text in the static buffer after the two calls. -/
def heldAfter (files : CString → FileRead) (held : CString) (file : SensorFile) : CString :=
  textHeld (textHeld held (files file.sensorPath)) (files file.labelPath)

def LabelFits (files : CString → FileRead) (held : CString) (file : SensorFile) : Prop :=
  (labelText files held file).length < 64

/-! ## Numbered names -/

theorem numbered_iff {kind : SensorKind} {dName : CString} :
    Numbered kind dName ↔ ∃ digits, digits ≠ [] ∧ (∀ byte ∈ digits, isDigit byte) ∧
      dName.bytes = kind.text.bytes ++ (digits ++ (ofText "_input").bytes) := by
  constructor
  · rintro ⟨hstarts, hdigits, hrest⟩
    obtain ⟨rest, hname⟩ := hstarts
    have hdrop : dName.bytes.drop kind.text.length = rest := by
      rw [← hname]
      exact List.drop_left
    rw [hdrop] at hdigits hrest
    refine ⟨rest.takeWhile isDigit, hdigits, fun byte ↦ List.mem_takeWhile_imp, ?_⟩
    rw [← hrest, List.takeWhile_append_dropWhile, hname]
  · rintro ⟨digits, hne, hdigits, hname⟩
    have hdrop : dName.bytes.drop kind.text.length = digits ++ (ofText "_input").bytes := by
      rw [hname]
      exact List.drop_left
    have hlast : (ofText "_input").bytes.takeWhile isDigit = [] ∧
        (ofText "_input").bytes.dropWhile isDigit = (ofText "_input").bytes := by decide
    refine ⟨⟨_, hname.symm⟩, ?_, ?_⟩
    · rw [hdrop, List.takeWhile_append_of_pos hdigits, hlast.1, List.append_nil]
      exact hne
    · rw [hdrop, List.dropWhile_append_of_pos hdigits, hlast.2]

/-- A byte that is neither of the text nor a digit nor of `_input`. -/
theorem notMem_of_numbered {kind : SensorKind} {dName : CString} (h : Numbered kind dName)
    {byte : UInt8} (htext : byte ∉ kind.text.bytes) (hdigit : isDigit byte = false)
    (hinput : byte ∉ (ofText "_input").bytes) : byte ∉ dName.bytes := by
  obtain ⟨digits, -, hdigits, hname⟩ := numbered_iff.1 h
  rw [hname, List.mem_append, List.mem_append, not_or, not_or]
  exact ⟨htext, fun hmem ↦ Bool.false_ne_true (hdigit.symm.trans (hdigits byte hmem)), hinput⟩

theorem occurs_eq_false {text pattern : CString} (byte : UInt8) (hpattern : byte ∈ pattern.bytes)
    (htext : byte ∉ text.bytes) : occurs text pattern = false := by
  rw [Bool.eq_false_iff, ne_eq, occurs_iff_isInfix]
  exact fun hoccurs ↦ htext (hoccurs.subset hpattern)

/-- A numbered name passes the test of its own kind, and none before it: there is no `m` in the
names of fans and voltages, and no `a` in those of voltages. -/
theorem sensorKind_of_numbered {kind : SensorKind} {dName : CString} (h : Numbered kind dName) :
    sensorKind dName = some kind := by
  obtain ⟨digits, -, -, hname⟩ := numbered_iff.1 h
  have htext : occurs dName kind.text = true := by
    rw [occurs_iff_isInfix, hname]
    exact (List.prefix_append _ _).isInfix
  have hinput : occurs dName (ofText "_input") = true := by
    rw [occurs_iff_isInfix, hname, ← List.append_assoc]
    exact (List.suffix_append _ _).isInfix
  have htemp : kind ≠ .temp → occurs dName (ofText "temp") = false := fun hkind ↦ by
    have hbyte : (109 : UInt8) ∉ kind.text.bytes := by
      cases kind with
      | temp => exact absurd rfl hkind
      | fan => decide
      | voltage => decide
    exact occurs_eq_false 109 (by decide)
      (notMem_of_numbered h hbyte (by decide) (by decide))
  have hfan : kind = .voltage → occurs dName (ofText "fan") = false := fun hkind ↦ by
    have hbyte : (97 : UInt8) ∉ kind.text.bytes := by
      rw [hkind]
      decide
    exact occurs_eq_false 97 (by decide)
      (notMem_of_numbered h hbyte (by decide) (by decide))
  unfold sensorKind
  rw [hinput]
  cases kind with
  | temp =>
    have hown : occurs dName (ofText "temp") = true := htext
    rw [hown]
    rfl
  | fan =>
    have hown : occurs dName (ofText "fan") = true := htext
    rw [htemp (by decide), hown]
    rfl
  | voltage =>
    have hown : occurs dName (ofText "in") = true := htext
    rw [htemp (by decide), hfan rfl, hown]
    rfl

theorem kind_of_numbered {kind : SensorKind} {file : SensorFile} (h : Numbered kind file.dName) :
    file.kind = some kind := by
  have htext : (46 : UInt8) ∉ kind.text.bytes := by
    cases kind with
    | temp => decide
    | fan => decide
    | voltage => decide
  have hvisible : file.dName.bytes.head? ≠ some 46 := fun hhead ↦
    notMem_of_numbered h htext (by decide) (by decide) (List.mem_of_mem_head? hhead)
  rw [SensorFile.kind, if_neg hvisible, sensorKind_of_numbered h]

/-! ## The files -/

section Files

variable {files : CString → FileRead} {opendir : CString → Option (List CString)}

theorem hwmonRound_eq (tables : SensorTables) (dName : CString) :
    hwmonRound files opendir tables dName =
      (directoryFiles opendir dName).foldlM (sensorRound files) tables := by
  unfold hwmonRound directoryFiles
  split_ifs
  · rfl
  · cases opendir (hwmonPath dName) with
    | none => rfl
    | some names => rfl

theorem foldlM_hwmonRound (names : List CString) (tables : SensorTables) :
    names.foldlM (hwmonRound files opendir) tables =
      (names.flatMap (directoryFiles opendir)).foldlM (sensorRound files) tables := by
  induction names generalizing tables with
  | nil => rfl
  | cons dName names ih =>
    rw [List.foldlM_cons, List.flatMap_cons, List.foldlM_append, hwmonRound_eq]
    exact congrArg _ (funext ih)

/-- The two loops are one loop over the files of all devices. -/
theorem readHwmonSensors_eq (buffer : List UInt8) :
    readHwmonSensors files opendir buffer =
      ((sensorFiles opendir).foldlM (sensorRound files) (fun _ ↦ [], buffer)).map
        fun tables ↦ tables.1 := by
  unfold readHwmonSensors sensorFiles
  cases opendir (ofText "/sys/class/hwmon") with
  | none => rfl
  | some names =>
    rw [Option.getD_some, ← foldlM_hwmonRound]

/-- What is recorded of a file: a label that does not fit is not defined. -/
def reading (files : CString → FileRead) (kind : SensorKind) (count : ℕ) (held : CString)
    (file : SensorFile) : Option Sensor :=
  let value := ((found (textAfter held.bytes (files file.sensorPath))).map atof).getD 0
  let label :=
    match found (labelText files held file) with
    | some label => Network.strcpy 64 label
    | none => some ((kind.label ++ ofInt (count + 1)).take 63)
  label.map fun label ↦ { label := label, value := value / kind.divisor, unit := kind.unit }

theorem isSome_reading_iff {kind : SensorKind} {count : ℕ} {held : CString} {file : SensorFile} :
    (reading files kind count held file).isSome ↔ LabelFits files held file := by
  unfold reading LabelFits
  rw [Option.isSome_map]
  by_cases hempty : labelText files held file = empty
  · have hshort : empty.length < 64 := by decide
    simp [found, hempty, hshort]
  · simp [found, hempty, Network.strcpy]

/-- A text is read out of the static buffer, whatever stands behind it there. -/
theorem textAfter_congr {buffer other : List UInt8} (h : ofBuffer buffer = ofBuffer other)
    (file : FileRead) : textAfter buffer file = textAfter other file := by
  cases file with
  | openFails => rfl
  | readFails => rfl
  | delivered content count => rw [textAfter, textAfter, h]

/-- Of the static buffer, only its text matters. -/
theorem recordSensor_eq (hfiles : ∀ path, (files path).Documented 1023) {kind : SensorKind}
    {count : ℕ} {buffer : List UInt8} {file : SensorFile} (hbuffer : Trimmed buffer) :
    ∃ after, (Trimmed after ∧ ofBuffer after = heldAfter files (ofBuffer buffer) file) ∧
      recordSensor files kind count buffer file =
        (reading files kind count (ofBuffer buffer) file).map fun sensor ↦
          ((file, sensor), after) := by
  obtain ⟨hvalue, htrimmed, hheld⟩ := readSysfsString_spec hbuffer (hfiles file.sensorPath)
  obtain ⟨hlabel, hlast, hafter⟩ := readSysfsString_spec htrimmed (hfiles file.labelPath)
  have hown : textAfter buffer (files file.sensorPath) =
      textAfter (ofBuffer buffer).bytes (files file.sensorPath) :=
    textAfter_congr (ofBuffer_bytes _).symm _
  have htext : textAfter (readSysfsString buffer (files file.sensorPath)).2
      (files file.labelPath) = labelText files (ofBuffer buffer) file :=
    textAfter_congr (hheld.trans (ofBuffer_bytes _).symm) _
  refine ⟨_, ⟨hlast, ?_⟩, ?_⟩
  · rw [hafter, hheld, heldAfter]
  · unfold recordSensor reading
    rw [readSysfsFloat_eq, Option.map_map, ← htext, ← hown, ← hlabel, ← hvalue]
    rfl

theorem records_recordSensor (hfiles : ∀ path, (files path).Documented 1023) :
    Records SensorFile.kind (recordSensor files)
      (fun buffer held ↦ Trimmed buffer ∧ ofBuffer buffer = held) (heldAfter files)
      (LabelFits files) Prod.fst where
  recorded kind count buffer held file hbuffer _ hfits := by
    obtain ⟨htrimmed, rfl⟩ := hbuffer
    obtain ⟨after, hafter, hrecord⟩ :=
      @recordSensor_eq files hfiles kind count buffer file htrimmed
    obtain ⟨sensor, hsensor⟩ := Option.isSome_iff_exists.1
      ((@isSome_reading_iff files kind count _ file).2 hfits)
    rw [hsensor] at hrecord
    exact ⟨(file, sensor), after, hrecord, rfl, hafter⟩
  undefined kind count buffer held file hbuffer _ hfits := by
    obtain ⟨htrimmed, rfl⟩ := hbuffer
    obtain ⟨after, -, hrecord⟩ := @recordSensor_eq files hfiles kind count buffer file htrimmed
    have hnone := mt (@isSome_reading_iff files kind count _ file).1 hfits
    rw [hrecord, Option.not_isSome_iff_eq_none.1 hnone]
    rfl

theorem filter_recordedFiles (kind : SensorKind) :
    ((recordedFiles opendir).filter fun file ↦ file.kind = some kind) =
      ((sensorFiles opendir).filter fun file ↦ file.kind = some kind).take 128 :=
  filter_accepted 128 SensorFile.kind (fun _ ↦ 0) (sensorFiles opendir) kind

/-- The files of a kind that are recorded are the first numbered ones, exactly if they are
numbered. -/
theorem filter_recordedFiles_eq_iff (kind : SensorKind) :
    ((recordedFiles opendir).filter fun file ↦ file.kind = some kind) =
        ((sensorFiles opendir).filter fun file ↦ Numbered kind file.dName).take 128 ↔
      ∀ file ∈ recordedFiles opendir, file.kind = some kind → Numbered kind file.dName := by
  have hsub : ∀ file : SensorFile, decide (Numbered kind file.dName) = true →
      decide (file.kind = some kind) = true := fun file h ↦
    decide_eq_true (kind_of_numbered (of_decide_eq_true h))
  rw [filter_recordedFiles, take_filter_eq_iff hsub, ← filter_recordedFiles]
  simp only [List.mem_filter, decide_eq_true_eq, and_imp]

/-- Each table has the first 128 files with the names of its kind, in their order, and no other
file, exactly when each file that the tests pick and that finds room has a name of the kind that it
is picked for, and each label that is copied fits into its array. -/
theorem readHwmonSensors_records_iff (files : CString → FileRead)
    (opendir : CString → Option (List CString)) (buffer : List UInt8)
    (hfiles : ∀ path, (files path).Documented 1023) (hbuffer : Trimmed buffer) :
    RecordsNumbered opendir (readHwmonSensors files opendir buffer) ↔
      (∀ file ∈ recordedFiles opendir, ∀ kind, file.kind = some kind →
        Numbered kind file.dName) ∧
      Transition.Along (heldAfter files) (LabelFits files) (ofBuffer buffer)
        (recordedFiles opendir) := by
  have hrecords := records_recordSensor hfiles
  have hstart : Trimmed buffer ∧ ofBuffer buffer = ofBuffer buffer := ⟨hbuffer, rfl⟩
  rw [readHwmonSensors_eq]
  constructor
  · rintro ⟨sensors, hresult, hsensors⟩
    -- the loop has come to its end, so every label that it copied has fitted
    obtain ⟨final, hfold, rfl⟩ := Option.map_eq_some_iff.1 hresult
    have hfits := along_of_foldlM_sortRound hrecords hstart hfold
    obtain ⟨other, hother, htables⟩ := foldlM_sortRound hrecords hstart _ hfits
    obtain rfl : other = final := Option.some.inj (hother.symm.trans hfold)
    refine ⟨fun file hmem kind ↦ ?_, hfits⟩
    exact (filter_recordedFiles_eq_iff kind).1 ((htables kind).symm.trans (hsensors kind)) file hmem
  · rintro ⟨hnumbered, hfits⟩
    have hroom : Transition.Along (heldAfter files) (LabelFits files) (ofBuffer buffer)
        (accepted 128 SensorFile.kind (fun _ ↦ ([] : List (SensorFile × Sensor)).length)
          (sensorFiles opendir)) := hfits
    obtain ⟨final, hfold, htables⟩ := foldlM_sortRound hrecords hstart _ hroom
    refine ⟨final.1, congrArg (Option.map fun tables : SensorTables ↦ tables.1) hfold, ?_⟩
    intro kind
    exact (htables kind).trans ((filter_recordedFiles_eq_iff kind).2 fun file hmem ↦
      hnumbered file hmem kind)

end Files

def closedFiles (_ : CString) : FileRead := .openFails

def oneDevice (names : List CString) (path : CString) : Option (List CString) :=
  if path = ofText "/sys/class/hwmon" then some [ofText ".", ofText "..", ofText "hwmon0"]
  else if path = ofText "/sys/class/hwmon/hwmon0" then some names
  else none

/-- A device with a temperature, a fan and a voltage. -/
def threeSensors : CString → Option (List CString) :=
  oneDevice [ofText "temp1_input", ofText "fan1_input", ofText "in0_input"]

theorem labelFits_closedFiles (held : CString) (file : SensorFile) :
    LabelFits closedFiles held file := (by decide : empty.length < 64)

theorem recordedFiles_threeSensors :
    recordedFiles threeSensors = [⟨ofText "hwmon0", ofText "temp1_input"⟩,
      ⟨ofText "hwmon0", ofText "fan1_input"⟩, ⟨ofText "hwmon0", ofText "in0_input"⟩] := by
  decide +kernel

theorem readHwmonSensors_records_three :
    RecordsNumbered threeSensors (readHwmonSensors closedFiles threeSensors zeroBuffer) := by
  refine (readHwmonSensors_records_iff closedFiles _ zeroBuffer (fun _ ↦ trivial)
    trimmed_zeroBuffer).2 ?_
  rw [recordedFiles_threeSensors]
  constructor
  · intro file hmem kind
    revert file hmem
    cases kind with
    | temp => decide +kernel
    | fan => decide +kernel
    | voltage => decide +kernel
  · exact ⟨labelFits_closedFiles _ _, labelFits_closedFiles _ _, labelFits_closedFiles _ _, trivial⟩

/-- A current becomes a voltage. -/
theorem readHwmonSensors_records_current :
    ¬∀ (files : CString → FileRead) (opendir : CString → Option (List CString))
      (buffer : List UInt8), (∀ path, (files path).Documented 1023) → Trimmed buffer →
        RecordsNumbered opendir (readHwmonSensors files opendir buffer) := by
  intro h
  obtain ⟨sensors, hresult, hsensors⟩ := h closedFiles (oneDevice [ofText "curr1_input"]) zeroBuffer
    (fun _ ↦ trivial) trimmed_zeroBuffer
  have hvoltages : (readHwmonSensors closedFiles (oneDevice [ofText "curr1_input"])
      zeroBuffer).map (fun sensors ↦ (sensors .voltage).map Prod.fst) =
        some [⟨ofText "hwmon0", ofText "curr1_input"⟩] := by decide +kernel
  rw [hresult, Option.map_some, hsensors .voltage, Option.some_inj] at hvoltages
  exact absurd hvoltages (by decide +kernel)

end HiFetch.Hardware
