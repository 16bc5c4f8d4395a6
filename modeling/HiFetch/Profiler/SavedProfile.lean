import HiFetch.Library.FixedPoint
import HiFetch.Library.Rows
import HiFetch.Profiler.Profiler

/-!
# The saved profile

`save_profile_to_file` writes three lines of comments, a section with a line for every event and a
section with a line for every function of every thread; the fields of a line have commas between
them.  Times are printed with six places, seconds for the time of an event and milliseconds
otherwise, so the first are rounded to microseconds and the others to nanoseconds.

A name with a comma or a line break in it changes the fields or the lines of the file.
-/

namespace HiFetch.Profiler

open CString Rows Scanf Transition

/-- What the file has of a function. -/
structure SavedFunction where
  threadName : ThreadName
  name : FunctionName
  totalTime : ℚ
  callCount : ℤ
  minTime : ℚ
  maxTime : ℚ

/-- The events of the log, in order. -/
def SystemProfiler.log (profiler : SystemProfiler) : List ProfileEvent :=
  (List.range profiler.eventCount).map profiler.events

/-- The functions of all threads, in order. -/
def SystemProfiler.savedFunctions (profiler : SystemProfiler) : List SavedFunction :=
  (List.range profiler.threadCount).flatMap fun index ↦
    (List.range (profiler.threads index).functionCount).map fun place ↦
      let function := (profiler.threads index).functions place
      { threadName := (profiler.threads index).threadName
        name := function.name
        totalTime := function.totalTime
        callCount := function.callCount
        minTime := function.minTime
        maxTime := function.maxTime }

def EventType.text : EventType → CString
  | .enter => ofText "ENTER"
  | .exit => ofText "EXIT"
  | .sample => ofText "SAMPLE"
  | .memory => ofText "MEMORY"

/-- `%.6f,%s,%s,%d,%.6f,%zu` -/
def ProfileEvent.fields (event : ProfileEvent) : List (List UInt8) :=
  [(fixed 6 (event.timestamp / 1000000)).bytes, event.eventType.text.bytes,
    event.functionName.1.bytes, (ofInt event.threadId).bytes,
    (fixed 6 (event.duration / 1000)).bytes, (ofInt event.memoryUsage).bytes]

/-- `%s,%s,%.6f,%d,%.6f,%.6f` -/
def SavedFunction.fields (function : SavedFunction) : List (List UInt8) :=
  [function.threadName.1.bytes, function.name.1.bytes, (fixed 6 (function.totalTime / 1000)).bytes,
    (ofInt function.callCount).bytes, (fixed 6 (function.minTime / 1000)).bytes,
    (fixed 6 (function.maxTime / 1000)).bytes]

/-- A time in microseconds, rounded to parts of one. -/
def rounded (parts time : ℚ) : ℚ := roundEven (time * parts) / parts

/-- What the line of an event has of it. -/
def ProfileEvent.rounded (event : ProfileEvent) : ProfileEvent :=
  { event with
    timestamp := Profiler.rounded 1 event.timestamp
    duration := Profiler.rounded 1000 event.duration }

def SavedFunction.rounded (function : SavedFunction) : SavedFunction :=
  { function with
    totalTime := Profiler.rounded 1000 function.totalTime
    minTime := Profiler.rounded 1000 function.minTime
    maxTime := Profiler.rounded 1000 function.maxTime }

/-- The lines of the file; `now` is the value of `time`. -/
def savedLines (profiler : SystemProfiler) (now : ℤ) : List (List UInt8) :=
  [(ofText "# System Profiling Report").bytes,
    (ofText "# Generated at: ").bytes ++ (ofInt now).bytes,
    (ofText "# Profiling Duration: ").bytes ++
      (fixed 2 (profiler.totalProfilingTime / 1000)).bytes ++ (ofText " ms").bytes,
    [],
    (ofText "[EVENTS]").bytes] ++
  (profiler.log.map fun event ↦ joinFields 44 event.fields) ++
  [[], (ofText "[FUNCTIONS]").bytes] ++
  profiler.savedFunctions.map fun function ↦ joinFields 44 function.fields

/-- The file that `save_profile_to_file` writes. -/
def saveProfile (profiler : SystemProfiler) (now : ℤ) : List UInt8 :=
  joinLines 10 (savedLines profiler now)

/-! ## Reading the file -/

def readType (field : List UInt8) : Option EventType :=
  [EventType.enter, .exit, .sample, .memory].find? fun type ↦ type.text.bytes == field

/-- A name of at most `room` bytes. -/
def readName (room : ℕ) (field : List UInt8) : { name : CString // name.length ≤ room } :=
  ⟨(ofBuffer field).take room, length_take_le _ _⟩

def readEvent (line : List UInt8) : Option ProfileEvent :=
  match line.splitOn 44 with
  | [timestamp, type, name, thread, duration, memory] =>
      (readType type).map fun type ↦
        { timestamp := (ofBuffer timestamp).atof * 1000000
          eventType := type
          functionName := readName 127 name
          threadId := (ofBuffer thread).atoi
          duration := (ofBuffer duration).atof * 1000
          memoryUsage := digitsValue memory 0 }
  | _ => none

def readFunction (line : List UInt8) : Option SavedFunction :=
  match line.splitOn 44 with
  | [threadName, name, totalTime, callCount, minTime, maxTime] =>
      some
        { threadName := readName 63 threadName
          name := readName 127 name
          totalTime := (ofBuffer totalTime).atof * 1000
          callCount := (ofBuffer callCount).atoi
          minTime := (ofBuffer minTime).atof * 1000
          maxTime := (ofBuffer maxTime).atof * 1000 }
  | _ => none

/-- The events and the functions of a file: the lines of its second and of its third section,
without the first line of each. -/
def readProfile (file : List UInt8) : Option (List ProfileEvent × List SavedFunction) :=
  let sections := laterSections (file.splitOn 10)
  match (firstSection sections).tail.mapM readEvent,
      (firstSection (laterSections sections)).tail.mapM readFunction with
  | some events, some functions => some (events, functions)
  | _, _ => none

/-! ## What can be saved -/

/-- Neither a comma nor a line break. -/
def Plain (bytes : List UInt8) : Prop := 44 ∉ bytes ∧ 10 ∉ bytes

/-- The range of `int`. -/
def IsInt (number : ℤ) : Prop := -2 ^ 31 ≤ number ∧ number < 2 ^ 31

structure ProfileEvent.Storable (event : ProfileEvent) : Prop where
  functionName : Plain event.functionName.1.bytes
  threadId : IsInt event.threadId

structure SavedFunction.Storable (function : SavedFunction) : Prop where
  threadName : Plain function.threadName.1.bytes
  name : Plain function.name.1.bytes
  callCount : IsInt function.callCount

theorem plain_decimal (decimal : Decimal) : Plain decimal.bytes := by
  constructor <;> intro hmem <;> exact absurd (decimal.range_of_mem_bytes hmem) (by decide)

theorem plain_ofInt (number : ℤ) : Plain (ofInt number).bytes := by
  constructor <;> intro hmem <;> exact absurd (mem_bytes_ofInt hmem) (by decide)

theorem plain_text (type : EventType) : Plain type.text.bytes := by
  unfold Plain
  cases type <;> decide

theorem ProfileEvent.Storable.plain_fields {event : ProfileEvent} (h : event.Storable) :
    ∀ field ∈ event.fields, Plain field := by
  simp only [ProfileEvent.fields, List.forall_mem_cons]
  exact ⟨plain_decimal _, plain_text _, h.functionName, plain_ofInt _, plain_decimal _,
    plain_ofInt _, nofun⟩

theorem SavedFunction.Storable.plain_fields {function : SavedFunction} (h : function.Storable) :
    ∀ field ∈ function.fields, Plain field := by
  simp only [SavedFunction.fields, List.forall_mem_cons]
  exact ⟨h.threadName, h.name, plain_decimal _, plain_ofInt _, plain_decimal _, plain_decimal _,
    nofun⟩

/-! ## Fields -/

/-- A time that is printed in another unit with six places. -/
theorem atof_fixed (time : ℚ) {scale parts : ℚ} (hscale : scale ≠ 0)
    (hparts : scale * parts = 10 ^ 6) :
    (ofBuffer (fixed 6 (time / scale)).bytes).atof * scale = rounded parts time := by
  have hnone : (0 : UInt8) ∉ (fixed 6 (time / scale)).bytes := fun hmem ↦
    absurd ((fixed 6 _).range_of_mem_bytes hmem) (by decide)
  have hbytes : (ofBuffer (fixed 6 (time / scale)).bytes).bytes =
      [] ++ ((fixed 6 (time / scale)).bytes ++ []) := by
    rw [bytes_ofBuffer_of_notMem hnone, List.append_nil, List.nil_append]
  have hblanks : ∀ byte ∈ ([] : List UInt8), isSpace byte := fun _ hmem ↦ nomatch hmem
  have hends : Decimal.Ends [] := fun _ hmem ↦ nomatch hmem
  have hscaled : time / scale * 10 ^ 6 = time * parts := by
    rw [← hparts, ← mul_assoc, div_mul_cancel₀ _ hscale]
  rw [Decimal.atof_bytes _ hblanks hends hbytes, value_fixed, hscaled, ← hparts, rounded,
    div_mul_eq_mul_div, mul_comm scale, mul_div_mul_right _ _ hscale]

theorem readName_bytes {room : ℕ} (name : { name : CString // name.length ≤ room }) :
    readName room name.1.bytes = name := by
  apply Subtype.ext
  show (ofBuffer name.1.bytes).take room = name.1
  rw [ofBuffer_bytes, take_eq_self name.2]

theorem atoi_ofInt {number : ℤ} (h : IsInt number) :
    (ofBuffer (ofInt number).bytes).atoi = number := by
  obtain ⟨hlow, hhigh⟩ := h
  have hlong : (ofInt number).strtol = number := by
    rw [strtol_ofInt]
    omega
  rw [ofBuffer_bytes, atoi, hlong]
  exact Int.bmod_eq_of_le (by omega) (by omega)

theorem digitsValue_ofInt (number : ℕ) : digitsValue (ofInt number).bytes 0 = number := by
  rw [bytes_ofInt, if_neg (by omega), List.nil_append, digitsValue_magnitude, Int.natAbs_natCast]

theorem readType_text (type : EventType) : readType type.text.bytes = some type := by
  cases type <;> decide

/-- The line of an event is read. -/
theorem readEvent_fields {event : ProfileEvent} (h : event.Storable) :
    readEvent (joinFields 44 event.fields) = some event.rounded := by
  have hsplit : (joinFields 44 event.fields).splitOn 44 = event.fields :=
    splitOn_joinFields (List.cons_ne_nil _ _) fun field hmem ↦ (h.plain_fields field hmem).1
  have htimestamp : (ofBuffer (fixed 6 (event.timestamp / 1000000)).bytes).atof * 1000000 =
      rounded 1 event.timestamp := atof_fixed _ (by norm_num) (by norm_num)
  have hduration : (ofBuffer (fixed 6 (event.duration / 1000)).bytes).atof * 1000 =
      rounded 1000 event.duration := atof_fixed _ (by norm_num) (by norm_num)
  unfold readEvent
  rw [hsplit]
  simp only [ProfileEvent.fields, readType_text, readName_bytes, atoi_ofInt h.threadId,
    digitsValue_ofInt, htimestamp, hduration, Option.map_some]
  rfl

theorem readFunction_fields {function : SavedFunction} (h : function.Storable) :
    readFunction (joinFields 44 function.fields) = some function.rounded := by
  have hsplit : (joinFields 44 function.fields).splitOn 44 = function.fields :=
    splitOn_joinFields (List.cons_ne_nil _ _) fun field hmem ↦ (h.plain_fields field hmem).1
  have htime (time : ℚ) : (ofBuffer (fixed 6 (time / 1000)).bytes).atof * 1000 =
      rounded 1000 time := atof_fixed time (by norm_num) (by norm_num)
  unfold readFunction
  rw [hsplit]
  simp only [SavedFunction.fields, readName_bytes, atoi_ofInt h.callCount, htime]
  rfl

/-! ## The file -/

structure SystemProfiler.Storable (profiler : SystemProfiler) : Prop where
  log : ∀ event ∈ profiler.log, event.Storable
  savedFunctions : ∀ function ∈ profiler.savedFunctions, function.Storable

theorem notMem_append {byte : UInt8} {front back : List UInt8} (hfront : byte ∉ front)
    (hback : byte ∉ back) : byte ∉ front ++ back := fun hmem ↦
  (List.mem_append.1 hmem).elim hfront hback

/-- No line of the file contains a line break. -/
theorem notMem_savedLines {profiler : SystemProfiler} (h : profiler.Storable) (now : ℤ) :
    ∀ line ∈ savedLines profiler now, 10 ∉ line := by
  have hevents : ∀ line ∈ profiler.log.map fun event ↦ joinFields 44 event.fields, 10 ∉ line := by
    intro line hline
    obtain ⟨event, hevent, rfl⟩ := List.mem_map.1 hline
    exact notMem_joinFields (by decide) fun field hfield ↦
      ((h.log event hevent).plain_fields field hfield).2
  have hfunctions : ∀ line ∈ profiler.savedFunctions.map fun function ↦
      joinFields 44 function.fields, 10 ∉ line := by
    intro line hline
    obtain ⟨function, hfunction, rfl⟩ := List.mem_map.1 hline
    exact notMem_joinFields (by decide) fun field hfield ↦
      ((h.savedFunctions function hfunction).plain_fields field hfield).2
  have htime : 10 ∉ (ofText "# Generated at: ").bytes ++ (ofInt now).bytes :=
    notMem_append (by decide) (plain_ofInt now).2
  have hduration : 10 ∉ (ofText "# Profiling Duration: ").bytes ++
      (fixed 2 (profiler.totalProfilingTime / 1000)).bytes ++ (ofText " ms").bytes :=
    notMem_append (notMem_append (by decide) (plain_decimal _).2) (by decide)
  simp only [savedLines, List.forall_mem_append, List.forall_mem_cons]
  exact ⟨⟨⟨⟨by decide, htime, hduration, by decide, by decide, nofun⟩, hevents⟩,
    ⟨by decide, by decide, nofun⟩⟩, hfunctions⟩

/-- The lines of a section are not empty. -/
theorem section_ne_nil {Item : Type} {title : List UInt8} (htitle : title ≠ [])
    {printed : Item → List UInt8} (hprinted : ∀ item, printed item ≠ []) (items : List Item) :
    ∀ line ∈ title :: items.map printed, line ≠ [] := by
  rw [List.forall_mem_cons, List.forall_mem_map]
  exact ⟨htitle, fun item _ ↦ hprinted item⟩

/-- What is saved is read back, with rounded times. -/
theorem readProfile_saveProfile {profiler : SystemProfiler} (h : profiler.Storable) (now : ℤ) :
    readProfile (saveProfile profiler now) =
      some (profiler.log.map ProfileEvent.rounded,
        profiler.savedFunctions.map SavedFunction.rounded) := by
  have hevents : ∀ line ∈ (ofText "[EVENTS]").bytes ::
      profiler.log.map (fun event ↦ joinFields 44 event.fields), line ≠ [] :=
    section_ne_nil (by decide) (fun _ ↦ joinFields_ne_nil 44 _ _ _) _
  have hfunctions : ∀ line ∈ (ofText "[FUNCTIONS]").bytes ::
      profiler.savedFunctions.map (fun function ↦ joinFields 44 function.fields), line ≠ [] :=
    section_ne_nil (by decide) (fun _ ↦ joinFields_ne_nil 44 _ _ _) _
  have hsections : laterSections ((saveProfile profiler now).splitOn 10) =
      ((ofText "[EVENTS]").bytes ::
        profiler.log.map fun event ↦ joinFields 44 event.fields) ++
      [] :: (((ofText "[FUNCTIONS]").bytes ::
        profiler.savedFunctions.map fun function ↦ joinFields 44 function.fields) ++ [[]]) := by
    have hcomments : ∀ line ∈ [(ofText "# System Profiling Report").bytes,
        (ofText "# Generated at: ").bytes ++ (ofInt now).bytes,
        (ofText "# Profiling Duration: ").bytes ++
          (fixed 2 (profiler.totalProfilingTime / 1000)).bytes ++ (ofText " ms").bytes],
        line ≠ [] := by
      simp only [List.forall_mem_cons]
      exact ⟨by decide, List.append_ne_nil_of_left_ne_nil (by decide) _,
        List.append_ne_nil_of_right_ne_nil _ (by decide), nofun⟩
    rw [saveProfile, splitOn_joinLines (notMem_savedLines h now)]
    refine Eq.trans ?_ (laterSections_append hcomments _)
    simp [savedLines]
  have hlog : (profiler.log.map fun event ↦ joinFields 44 event.fields).mapM readEvent =
      some (profiler.log.map ProfileEvent.rounded) :=
    mapM_map_eq_some fun event hevent ↦ readEvent_fields (h.log event hevent)
  have hsaved : (profiler.savedFunctions.map fun function ↦
      joinFields 44 function.fields).mapM readFunction =
        some (profiler.savedFunctions.map SavedFunction.rounded) :=
    mapM_map_eq_some fun function hfunction ↦
      readFunction_fields (h.savedFunctions function hfunction)
  unfold readProfile
  simp only [hsections, firstSection_append hevents, laterSections_append hevents,
    firstSection_append hfunctions, List.tail_cons, hlog, hsaved]

end HiFetch.Profiler
