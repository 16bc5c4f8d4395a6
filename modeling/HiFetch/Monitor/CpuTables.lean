import HiFetch.Monitor.CpuUsage
import HiFetch.Monitor.ProcFile

/-!
# The tables of `get_cpu_info`

`get_cpu_info` keeps 32 rows of counters and 32 usages.  Row 0 is for the line `cpu`, and the line
`cpuN` has row `N + 1`, but the guard in front of it compares `N` with the number of rows.  So
`cpu31` uses the row behind the last one.  The number is what `atoi` makes of the name, an `int`,
and the name has room for 15 bytes.

The trace of a call lists what its lines touch: bytes of the name, rows and usages.
-/

namespace HiFetch.Monitor

open CString Scanf

/-- The lines of `/proc/stat` as `get_cpu_info` finds them in its buffer. -/
def statLines (content : List UInt8) : List (List UInt8) := (readLines 255 content).map (·.bytes)

/-- The name and the counters of a line that starts with `cpu`. -/
def cpuFields (line : List UInt8) : Option (CString × CpuTimes) :=
  if line.take 3 = cpuPrefix then cpuTargets (sscanf cpuFormat line) else none

/-- What a line touches. -/
inductive Access where
  /-- This many bytes of `cpu_name`. -/
  | name (size : ℕ)
  /-- A row of `prev_cpu_times`. -/
  | row (index : ℤ)
  /-- An element of `usage`. -/
  | usage (index : ℤ)
deriving DecidableEq

/-- The bounds of the three arrays. -/
def Access.Inside : Access → Prop
  | .name size => size ≤ 16
  | .row index => 0 ≤ index ∧ index < 32
  | .usage index => 0 ≤ index ∧ index < 32

/-- The usage is written if the row has counters of an earlier call. -/
def keyAccesses (state : CpuState) : CpuKey → List Access
  | .all => [.row 0]
  | .core number =>
      if number < 32 then
        .row (number + 1) ::
          if 0 < (state.prevCpuTimes (number + 1)).total then [.usage number] else []
      else []

def fieldAccesses (state : CpuState) (name : CString) : List Access :=
  .name (name.length + 1) ::
    match cpuKey name with
    | none => []
    | some key => keyAccesses state key

/-- What a line does to the state. -/
def accountFields (state : CpuState) (fields : CString × CpuTimes) : CpuState :=
  match cpuKey fields.1 with
  | none => state
  | some key => accountLine state (key, fields.2)

/-- What the lines touch, each with the name of its line. -/
def accesses : CpuState → List (CString × CpuTimes) → List (CString × Access)
  | _, [] => []
  | state, fields :: rest =>
      (fieldAccesses state fields.1).map (fields.1, ·) ++ accesses (accountFields state fields) rest

/-- What one call touches. -/
def cpuAccesses (state : CpuState) (content : List UInt8) : List (CString × Access) :=
  accesses { state with totalUsage := 0, cores := 0 } ((statLines content).filterMap cpuFields)

/-! ## The call and its trace -/

theorem cpuLine_eq (line : List UInt8) :
    cpuLine line = (cpuFields line).bind fun fields ↦ (cpuKey fields.1).map (·, fields.2) := by
  unfold cpuLine cpuFields
  split_ifs <;> rfl

theorem foldl_accountFields (lines : List (List UInt8)) (state : CpuState) :
    (lines.filterMap cpuFields).foldl accountFields state =
      (lines.filterMap cpuLine).foldl accountLine state := by
  induction lines generalizing state with
  | nil => rfl
  | cons line lines ih =>
    cases hfields : cpuFields line with
    | none =>
      have hline : cpuLine line = none := by
        rw [cpuLine_eq, hfields, Option.bind_none]
      rw [List.filterMap_cons_none hfields, List.filterMap_cons_none hline, ih]
    | some fields =>
      rw [List.filterMap_cons_some hfields, List.foldl_cons]
      unfold accountFields
      cases hkey : cpuKey fields.1 with
      | none =>
        have hline : cpuLine line = none := by
          rw [cpuLine_eq, hfields, Option.bind_some, hkey, Option.map_none]
        rw [List.filterMap_cons_none hline]
        exact ih state
      | some key =>
        have hline : cpuLine line = some (key, fields.2) := by
          rw [cpuLine_eq, hfields, Option.bind_some, hkey, Option.map_some]
        rw [List.filterMap_cons_some hline, List.foldl_cons]
        exact ih _

/-- A line changes no row and no usage that it does not touch. -/
theorem accountFields_frame (state : CpuState) (fields : CString × CpuTimes) (index : ℤ) :
    (.row index ∉ fieldAccesses state fields.1 →
      (accountFields state fields).prevCpuTimes index = state.prevCpuTimes index) ∧
    (.usage index ∉ fieldAccesses state fields.1 →
      (accountFields state fields).usage index = state.usage index) := by
  unfold accountFields fieldAccesses
  cases hkey : cpuKey fields.1 with
  | none => exact ⟨fun _ ↦ rfl, fun _ ↦ rfl⟩
  | some key =>
    cases key with
    | all =>
      refine ⟨fun hrow ↦ ?_, fun _ ↦ rfl⟩
      have hne : index ≠ 0 := by
        rintro rfl
        simp [keyAccesses] at hrow
      exact Function.update_of_ne hne _ _
    | core number =>
      unfold accountLine keyAccesses
      dsimp only
      split_ifs with hguard hused
      · refine ⟨fun hrow ↦ ?_, fun husage ↦ ?_⟩
        · have hne : index ≠ number + 1 := by
            rintro rfl
            simp at hrow
          exact Function.update_of_ne hne _ _
        · have hne : index ≠ number := by
            rintro rfl
            simp at husage
          exact Function.update_of_ne hne _ _
      · refine ⟨fun hrow ↦ ?_, fun _ ↦ rfl⟩
        have hne : index ≠ number + 1 := by
          rintro rfl
          simp at hrow
        exact Function.update_of_ne hne _ _
      · exact ⟨fun _ ↦ rfl, fun _ ↦ rfl⟩

/-- The trace is complete.  A call changes no row and no usage outside of its trace. -/
theorem getCpuInfo_frame (state : CpuState) (content : List UInt8) (index : ℤ) :
    ((∀ name, (name, .row index) ∉ cpuAccesses state content) →
      (getCpuInfo state (some (statLines content))).prevCpuTimes index =
        state.prevCpuTimes index) ∧
    ((∀ name, (name, .usage index) ∉ cpuAccesses state content) →
      (getCpuInfo state (some (statLines content))).usage index = state.usage index) := by
  have hfold : ∀ (lines : List (CString × CpuTimes)) (start : CpuState),
      ((∀ name, (name, .row index) ∉ accesses start lines) →
        (lines.foldl accountFields start).prevCpuTimes index = start.prevCpuTimes index) ∧
      ((∀ name, (name, .usage index) ∉ accesses start lines) →
        (lines.foldl accountFields start).usage index = start.usage index) := by
    intro lines
    induction lines with
    | nil => exact fun _ ↦ ⟨fun _ ↦ rfl, fun _ ↦ rfl⟩
    | cons fields lines ih =>
      intro start
      obtain ⟨hrow, husage⟩ := accountFields_frame start fields index
      obtain ⟨hrows, husages⟩ := ih (accountFields start fields)
      unfold accesses
      simp only [List.mem_append, not_or, List.foldl_cons]
      constructor
      · intro hnone
        rw [hrows fun name ↦ (hnone name).2]
        exact hrow fun hmem ↦ (hnone fields.1).1 (List.mem_map_of_mem hmem)
      · intro hnone
        rw [husages fun name ↦ (hnone name).2]
        exact husage fun hmem ↦ (hnone fields.1).1 (List.mem_map_of_mem hmem)
  have hcall : getCpuInfo state (some (statLines content)) =
      ((statLines content).filterMap cpuFields).foldl accountFields
        { state with totalUsage := 0, cores := 0 } := by
    rw [foldl_accountFields]
    rfl
  rw [hcall]
  exact hfold _ _

/-! ## The law -/

/-- The number in a name; the line `cpu` has none. -/
def cpuNumber (name : CString) : Option ℕ :=
  if name.bytes = cpuPrefix then none else some (digitsValue (name.bytes.drop 3) 0)

/-- `cpu`, with or without decimal digits behind it. -/
def CpuNamed (name : CString) : Prop :=
  name.bytes.take 3 = cpuPrefix ∧ ∀ byte ∈ name.bytes.drop 3, isDigit byte

instance (name : CString) : Decidable (CpuNamed name) := inferInstanceAs (Decidable (_ ∧ _))

/-- Every line that starts with `cpu` is the line `cpu` or a line `cpuN`, with seven counters. -/
def CpuText (content : List UInt8) : Prop :=
  ∀ line ∈ statLines content, line.take 3 = cpuPrefix →
    ∃ fields ∈ cpuFields line, CpuNamed fields.1

instance (content : List UInt8) : Decidable (CpuText content) :=
  inferInstanceAs (Decidable (∀ line ∈ statLines content, line.take 3 = cpuPrefix →
    ∃ fields ∈ cpuFields line, CpuNamed fields.1))

/-- The lines stay inside the tables, and no row is used by two CPUs. -/
structure StaysInside (trace : List (CString × Access)) : Prop where
  inside : ∀ entry ∈ trace, entry.2.Inside
  ownRow : ∀ entry ∈ trace, ∀ other ∈ trace, ∀ index, entry.2 = .row index → other.2 = .row index →
    cpuNumber entry.1 = cpuNumber other.1

/-- A number cut to an `int`. -/
def asInt (number : ℕ) : ℤ := (number : ℤ).bmod (2 ^ 32)

/-- The names fit into their array, no number cut to an `int` is negative or the number of the last
core, and no two numbers are the same core. -/
structure FitsTables (names : List CString) : Prop where
  short : ∀ name ∈ names, name.length ≤ 15
  listed : ∀ name ∈ names, ∀ number ∈ cpuNumber name, 0 ≤ asInt number ∧ asInt number ≠ 31
  apart : ∀ name ∈ names, ∀ other ∈ names, ∀ number ∈ cpuNumber name, ∀ next ∈ cpuNumber other,
    asInt number = asInt next → asInt number < 32 → number = next

def cpuNames (content : List UInt8) : List CString :=
  ((statLines content).filterMap cpuFields).map Prod.fst

/-! ## The key of a name -/

/-- `atoi` reads a short number and cuts it to an `int`. -/
theorem atoi_ofBuffer {digits : List UInt8} (hdigits : ∀ byte ∈ digits, isDigit byte)
    (hlength : digits.length ≤ 12) :
    (ofBuffer digits).atoi = asInt (digitsValue digits 0) := by
  have hnul : 0 ∉ digits := fun hmem ↦ absurd (hdigits 0 hmem) (by decide)
  have hlt : digitsValue digits 0 < 10 ^ 12 :=
    calc
      digitsValue digits 0 < (0 + 1) * 10 ^ digits.length := digitsValue_lt hdigits 0
      _ = 10 ^ digits.length := by rw [Nat.zero_add, Nat.one_mul]
      _ ≤ 10 ^ 12 := Nat.pow_le_pow_right (by decide) hlength
  have hhead : ∀ byte ∈ digits.head?, ¬isSpace byte := fun byte hbyte ↦
    (notSpace_of_isDigit (hdigits byte (List.mem_of_mem_head? hbyte))).1
  have hstrtol : (ofBuffer digits).strtol = digitsValue digits 0 := by
    unfold strtol
    rw [bytes_ofBuffer_of_notMem hnul, dropWhile_of_head hhead]
    dsimp only
    split
    · exact absurd (hdigits 45 List.mem_cons_self) (by decide)
    · exact absurd (hdigits 43 List.mem_cons_self) (by decide)
    · omega
  unfold atoi asInt
  rw [hstrtol]

theorem cpuKey_of_named {name : CString} (hnamed : CpuNamed name) (hshort : name.length ≤ 15) :
    cpuKey name = some (match cpuNumber name with
      | none => .all
      | some number => .core (asInt number)) := by
  obtain ⟨htake, hdigits⟩ := hnamed
  unfold cpuKey cpuNumber
  split_ifs with hall hlong
  · rfl
  · have hlength : (name.bytes.drop 3).length ≤ 12 := by
      rw [List.length_drop]
      exact Nat.sub_le_of_le_add hshort
    rw [atoi_ofBuffer hdigits hlength]
  · exfalso
    apply hall
    rw [← htake, List.take_of_length_le]
    exact not_lt.1 fun hlt ↦ hlong ⟨htake, hlt⟩

/-! ## What a trace holds -/

/-- What a line touches in every state is in the trace. -/
theorem mem_accesses {lines : List (CString × CpuTimes)} {fields : CString × CpuTimes}
    (h : fields ∈ lines) {access : Access}
    (haccess : ∀ state, access ∈ fieldAccesses state fields.1) (state : CpuState) :
    (fields.1, access) ∈ accesses state lines := by
  induction lines generalizing state with
  | nil => cases h
  | cons first rest ih =>
    unfold accesses
    rw [List.mem_append]
    rcases List.mem_cons.1 h with rfl | hrest
    · exact .inl (List.mem_map_of_mem (haccess state))
    · exact .inr (ih hrest _)

/-- A line of a core touches its row if the guard lets it through. -/
theorem row_mem_fieldAccesses {name : CString} {number : ℤ}
    (hkey : cpuKey name = some (.core number)) (hguard : number < 32) (state : CpuState) :
    .row (number + 1) ∈ fieldAccesses state name := by
  unfold fieldAccesses keyAccesses
  rw [hkey]
  dsimp only
  rw [if_pos hguard]
  exact List.mem_cons_of_mem _ List.mem_cons_self

theorem mem_fieldAccesses {state : CpuState} {name : CString} {access : Access}
    (h : access ∈ fieldAccesses state name) :
    access = .name (name.length + 1) ∨
      ∃ key, cpuKey name = some key ∧ access ∈ keyAccesses state key := by
  unfold fieldAccesses at h
  apply (List.mem_cons.1 h).imp_right
  intro htouched
  cases hkey : cpuKey name with
  | none =>
    rw [hkey] at htouched
    cases htouched
  | some key =>
    rw [hkey] at htouched
    exact ⟨key, rfl, htouched⟩

theorem exists_of_mem_accesses {lines : List (CString × CpuTimes)} {state : CpuState}
    {entry : CString × Access} (h : entry ∈ accesses state lines) :
    ∃ fields ∈ lines, entry.1 = fields.1 ∧
      (entry.2 = .name (fields.1.length + 1) ∨
        ∃ key, cpuKey fields.1 = some key ∧ ∃ current, entry.2 ∈ keyAccesses current key) := by
  induction lines generalizing state with
  | nil => cases h
  | cons first rest ih =>
    unfold accesses at h
    rcases List.mem_append.1 h with hfirst | hrest
    · obtain ⟨access, haccess, rfl⟩ := List.mem_map.1 hfirst
      refine ⟨first, List.mem_cons_self, rfl, (mem_fieldAccesses haccess).imp_right ?_⟩
      rintro ⟨key, hkey, htouched⟩
      exact ⟨key, hkey, state, htouched⟩
    · obtain ⟨fields, hmem, hentry⟩ := ih hrest
      exact ⟨fields, List.mem_cons_of_mem _ hmem, hentry⟩

theorem mem_keyAccesses {state : CpuState} {key : CpuKey} {access : Access}
    (h : access ∈ keyAccesses state key) :
    (key = .all ∧ access = .row 0) ∨
      ∃ number, key = .core number ∧ number < 32 ∧
        (access = .row (number + 1) ∨ access = .usage number) := by
  unfold keyAccesses at h
  cases key with
  | all => exact .inl ⟨rfl, List.mem_singleton.1 h⟩
  | core number =>
    dsimp only at h
    split_ifs at h with hguard hused
    · right
      refine ⟨number, rfl, hguard, ?_⟩
      rcases List.mem_cons.1 h with hrow | husage
      · exact .inl hrow
      · exact .inr (List.mem_singleton.1 husage)
    · exact .inr ⟨number, rfl, hguard, .inl (List.mem_singleton.1 h)⟩
    · cases h

/-! ## Both directions -/

section Names

variable {lines : List (CString × CpuTimes)} (hnamed : ∀ fields ∈ lines, CpuNamed fields.1)
include hnamed

/-- What a line touches, by the number in its name. -/
theorem touched_of_mem_accesses (hshort : ∀ fields ∈ lines, fields.1.length ≤ 15)
    {state : CpuState} {entry : CString × Access} (h : entry ∈ accesses state lines) :
    ∃ fields ∈ lines, entry.1 = fields.1 ∧
      (entry.2 = .name (fields.1.length + 1) ∨
        (cpuNumber fields.1 = none ∧ entry.2 = .row 0) ∨
        ∃ number, cpuNumber fields.1 = some number ∧ asInt number < 32 ∧
          (entry.2 = .row (asInt number + 1) ∨ entry.2 = .usage (asInt number))) := by
  obtain ⟨fields, hfields, hname, htouched⟩ := exists_of_mem_accesses h
  refine ⟨fields, hfields, hname, htouched.imp_right ?_⟩
  rintro ⟨key, hkey, current, haccess⟩
  rw [cpuKey_of_named (hnamed fields hfields) (hshort fields hfields), Option.some_inj] at hkey
  subst hkey
  cases hnumber : cpuNumber fields.1 with
  | none =>
    rw [hnumber] at haccess
    rcases mem_keyAccesses haccess with ⟨-, hrow⟩ | ⟨number, hcore, -⟩
    · exact .inl ⟨rfl, hrow⟩
    · cases hcore
  | some number =>
    rw [hnumber] at haccess
    rcases mem_keyAccesses haccess with ⟨hall, -⟩ | ⟨found, hcore, hguard, htouch⟩
    · cases hall
    · rw [CpuKey.core.injEq] at hcore
      subst hcore
      exact .inr ⟨number, rfl, hguard, htouch⟩

/-- Lines that fit the tables stay inside them, whatever earlier calls left. -/
theorem staysInside_of_fitsTables (h : FitsTables (lines.map Prod.fst)) (state : CpuState) :
    StaysInside (accesses state lines) := by
  have hshort : ∀ fields ∈ lines, fields.1.length ≤ 15 := fun fields hmem ↦
    h.short _ (List.mem_map_of_mem hmem)
  constructor
  · intro entry hmem
    obtain ⟨fields, hfields, -, hname | ⟨-, hrow⟩ | ⟨number, hnumber, hguard, htouch⟩⟩ :=
      touched_of_mem_accesses hnamed hshort hmem
    · rw [hname]
      exact Nat.succ_le_succ (hshort fields hfields)
    · rw [hrow]
      exact ⟨le_rfl, by decide⟩
    · obtain ⟨hnonneg, hne⟩ := h.listed _ (List.mem_map_of_mem hfields) number hnumber
      rcases htouch with hrow | husage
      · rw [hrow]
        show 0 ≤ asInt number + 1 ∧ asInt number + 1 < 32
        omega
      · rw [husage]
        exact ⟨hnonneg, hguard⟩
  · intro entry hmem other hother index hindex hsame
    obtain ⟨fields, hfields, hname, htouched⟩ := touched_of_mem_accesses hnamed hshort hmem
    obtain ⟨next, hnext, hnextName, hnextTouched⟩ := touched_of_mem_accesses hnamed hshort hother
    rw [hindex] at htouched
    rw [hsame] at hnextTouched
    rw [hname, hnextName]
    rcases htouched with hbytes | ⟨hnone, hzero⟩ | ⟨number, hnumber, hguard, hrow | husage⟩
    · cases hbytes
    · cases hzero
      rcases hnextTouched with hbytes | ⟨hnextNone, -⟩ | ⟨value, hvalue, -, hrow | husage⟩
      · cases hbytes
      · rw [hnone, hnextNone]
      · have hnonneg := (h.listed _ (List.mem_map_of_mem hnext) value hvalue).1
        simp only [Access.row.injEq] at hrow
        omega
      · cases husage
    · have hnonneg := (h.listed _ (List.mem_map_of_mem hfields) number hnumber).1
      simp only [Access.row.injEq] at hrow
      rcases hnextTouched with hbytes | ⟨-, hzero⟩ | ⟨value, hvalue, -, hnextRow | husage⟩
      · cases hbytes
      · simp only [Access.row.injEq] at hzero
        omega
      · simp only [Access.row.injEq] at hnextRow
        rw [hnumber, hvalue, h.apart _ (List.mem_map_of_mem hfields) _ (List.mem_map_of_mem hnext)
          number hnumber value hvalue (by omega) hguard]
      · cases husage
    · cases husage

end Names

theorem cpuNumber_of_all {name : CString} (h : cpuKey name = some .all) :
    cpuNumber name = none := by
  unfold cpuKey at h
  unfold cpuNumber
  split_ifs at h with hall
  · rw [if_pos hall]
  · cases h

/-- With counters of an earlier call in row 0, a number that is minus one as an `int` makes its line
write the usage before the first one, or share row 0 with the line `cpu`. -/
theorem not_staysInside_of_minusOne {lines : List (CString × CpuTimes)} {state : CpuState}
    (hstate : 0 < (state.prevCpuTimes 0).total) {fields : CString × CpuTimes}
    (hfields : fields ∈ lines) (hkey : cpuKey fields.1 = some (.core (-1)))
    (hnumber : cpuNumber fields.1 ≠ none) :
    ¬StaysInside (accesses state lines) := by
  induction lines generalizing state with
  | nil => cases hfields
  | cons first rest ih =>
    intro h
    have hfirst : ∀ access ∈ fieldAccesses state first.1,
        (first.1, access) ∈ accesses state (first :: rest) := fun access hmem ↦
      List.mem_append_left _ (List.mem_map_of_mem hmem)
    have hrest : StaysInside (accesses (accountFields state first) rest) :=
      ⟨fun entry hmem ↦ h.inside entry (List.mem_append_right _ hmem),
        fun entry hmem other hother ↦ h.ownRow entry (List.mem_append_right _ hmem) other
          (List.mem_append_right _ hother)⟩
    by_cases hzero : .row 0 ∈ fieldAccesses state first.1
    · -- The first line that touches row 0 has the same number, so it writes the usage.
      have hsame := h.ownRow _ (hfirst _ hzero) _
        (mem_accesses hfields (row_mem_fieldAccesses hkey (by decide)) state) 0 rfl rfl
      have hminus : cpuKey first.1 = some (.core (-1)) := by
        rcases mem_fieldAccesses hzero with hname | ⟨key, hfound, htouched⟩
        · cases hname
        · rcases mem_keyAccesses htouched with ⟨hall, -⟩ | ⟨number, hcore, -, hrow | husage⟩
          · rw [hall] at hfound
            exact absurd (hsame.symm.trans (cpuNumber_of_all hfound)) hnumber
          · rw [Access.row.injEq] at hrow
            rw [hfound, hcore, show number = -1 by omega]
          · cases husage
      have husage : .usage (-1) ∈ fieldAccesses state first.1 := by
        unfold fieldAccesses keyAccesses
        rw [hminus]
        dsimp only
        rw [if_pos (by decide), neg_add_cancel, if_pos hstate]
        simp
      exact absurd (h.inside _ (hfirst _ husage)).1 (by decide)
    · have hrow := (accountFields_frame state first 0).1 hzero
      rcases List.mem_cons.1 hfields with rfl | hmem
      · exact hzero (row_mem_fieldAccesses hkey (by decide) state)
      · exact ih (by rwa [hrow]) hmem hrest

/-- A state in which every row has counters. -/
def busyCpuState : CpuState := { startCpuState with prevCpuTimes := fun _ ↦ ⟨1, 0, 0, 0, 0, 0, 0⟩ }

/-- Lines that stay inside the tables when every row has counters fit them. -/
theorem fitsTables_of_staysInside {lines : List (CString × CpuTimes)}
    (hnamed : ∀ fields ∈ lines, CpuNamed fields.1)
    (hbusy : StaysInside (accesses busyCpuState lines)) : FitsTables (lines.map Prod.fst) := by
  have hshort : ∀ fields ∈ lines, fields.1.length ≤ 15 := fun fields hmem ↦
    Nat.le_of_succ_le_succ
      (hbusy.inside _ (mem_accesses hmem (fun _ ↦ List.mem_cons_self) busyCpuState))
  have hcore : ∀ fields ∈ lines, ∀ number ∈ cpuNumber fields.1,
      cpuKey fields.1 = some (.core (asInt number)) := by
    intro fields hmem number hnumber
    rw [cpuKey_of_named (hnamed fields hmem) (hshort fields hmem), Option.mem_def.1 hnumber]
  constructor
  · intro name hname
    obtain ⟨fields, hmem, rfl⟩ := List.mem_map.1 hname
    exact hshort fields hmem
  · intro name hname number hnumber
    obtain ⟨fields, hmem, rfl⟩ := List.mem_map.1 hname
    have hkey := hcore fields hmem number hnumber
    have hne : asInt number ≠ -1 := by
      intro hminus
      rw [hminus] at hkey
      apply not_staysInside_of_minusOne _ hmem hkey _ hbusy
      · decide
      · rw [Option.mem_def.1 hnumber]
        exact Option.some_ne_none number
    by_cases hguard : asInt number < 32
    · have hinside := hbusy.inside _
        (mem_accesses hmem (row_mem_fieldAccesses hkey hguard) busyCpuState)
      change 0 ≤ asInt number + 1 ∧ asInt number + 1 < 32 at hinside
      omega
    · omega
  · intro name hname other hother number hnumber next hnext hsame hguard
    obtain ⟨fields, hmem, rfl⟩ := List.mem_map.1 hname
    obtain ⟨others, hmemOther, rfl⟩ := List.mem_map.1 hother
    have hrow := row_mem_fieldAccesses (hcore fields hmem number hnumber) hguard
    have hnextRow := row_mem_fieldAccesses (hcore others hmemOther next hnext) (hsame ▸ hguard)
    have hnumbers := hbusy.ownRow _ (mem_accesses hmem hrow busyCpuState) _
      (mem_accesses hmemOther hnextRow busyCpuState) (asInt number + 1) rfl (by rw [hsame])
    rw [Option.mem_def.1 hnumber, Option.mem_def.1 hnext, Option.some_inj] at hnumbers
    exact hnumbers

/-- Lines of CPUs stay inside the tables in every state, each core in a row of its own, if and only
if the numbers fit: none of more than twelve digits, none that is negative or 31 as an `int`, and no
two that are the same `int` below 32. -/
theorem staysInside_iff_fitsTables {content : List UInt8} (htext : CpuText content) :
    (∀ state, StaysInside (cpuAccesses state content)) ↔ FitsTables (cpuNames content) := by
  have hnamed : ∀ fields ∈ (statLines content).filterMap cpuFields, CpuNamed fields.1 := by
    intro fields hmem
    obtain ⟨line, hline, hfields⟩ := List.mem_filterMap.1 hmem
    have hstarts : line.take 3 = cpuPrefix := by
      by_contra hother
      unfold cpuFields at hfields
      rw [if_neg hother] at hfields
      cases hfields
    obtain ⟨found, hfound, hname⟩ := htext line hline hstarts
    rw [hfields, Option.mem_some_iff] at hfound
    rwa [hfound]
  constructor
  · exact fun h ↦ fitsTables_of_staysInside hnamed (h busyCpuState)
  · exact fun h state ↦ staysInside_of_fitsTables hnamed h _

def coreLine (digits : List UInt8) : List UInt8 :=
  cpuPrefix ++ digits ++ printed [1, 2, 3, 4, 5, 6, 7]

theorem staysInside_iff_fitsTables_example :
    (∀ state,
        StaysInside (cpuAccesses state (textOf [coreLine [], coreLine [48], coreLine [49]]))) ↔
      FitsTables (cpuNames (textOf [coreLine [], coreLine [48], coreLine [49]])) :=
  staysInside_iff_fitsTables (by decide +kernel)

/-- The line `cpu31` uses row 32. -/
theorem not_staysInside_lastCore :
    CpuText (textOf [coreLine [51, 49]]) ∧
      ¬∀ state, StaysInside (cpuAccesses state (textOf [coreLine [51, 49]])) := by
  refine ⟨by decide +kernel, fun h ↦ ?_⟩
  have hrow : (ofBuffer (cpuPrefix ++ [51, 49]), .row 32) ∈
      cpuAccesses startCpuState (textOf [coreLine [51, 49]]) := by decide +kernel
  exact absurd ((h startCpuState).inside _ hrow).2 (by decide)

end HiFetch.Monitor
