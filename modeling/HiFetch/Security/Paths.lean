import HiFetch.Security.Commands

/-!
# Checking paths

`is_safe_path` searches a path for the names of four places as they are usually written.  It also
rejects two ways of writing them otherwise, by `..` and by `//`, but not the third one: between
`/dev` and the name of a device there may be any number of `.` components.
-/

namespace HiFetch.Security

open CString Words

def maxPath : ℕ := 1024

/-- The texts that other ways of writing a path contain. -/
def blockedSpellings : List CString := [ofText "..", ofText "//"]

def unsafePlaces : List CString :=
  [ofText "/tmp", ofText "/var/tmp", ofText "/dev/random", ofText "/dev/urandom"]

/-- `is_safe_path`, with nothing for a null pointer. -/
def isSafePath : Option CString → ℤ
  | none => 1
  | some path => checkText maxPath blockedSpellings unsafePlaces path

/-- The components of a path.  That of an absolute path before its first slash is empty. -/
def components (path : CString) : List (List UInt8) := path.bytes.splitOn 47

def dot : List UInt8 := [46]

def withoutDots (path : CString) : List (List UInt8) := (components path).filter (· ≠ dot)

/-- If the path is accepted, it has no component `..` and is lexically not one of the four places
and not beneath one. -/
def LexicallySound (path : CString) : Prop :=
  isSafePath (some path) = 1 → (ofText "..").bytes ∉ components path ∧
    ∀ place ∈ unsafePlaces, ¬components place <+: withoutDots path

/-- One of the fixed texts is in the path. -/
def ContainsUnsafe (path : CString) : Prop :=
  ∃ text ∈ blockedSpellings ++ unsafePlaces, text.bytes <:+: path.bytes

def devices : List CString := [ofText "random", ofText "urandom"]

/-- The path leads to a device through components `.` behind `/dev`, and possibly before it. -/
def DotsBehindDev (path : CString) : Prop :=
  ∃ device ∈ devices, ∃ before between after,
    components path =
      [] :: (before ++ (ofText "dev").bytes :: (between ++ device.bytes :: after)) ∧
    (∀ component ∈ before, component = dot) ∧ (∀ component ∈ between, component = dot) ∧
    between ≠ []

/-! ## What is accepted -/

theorem isSafePath_eq_one_iff (path : CString) :
    isSafePath (some path) = 1 ↔
      path ≠ empty ∧ path.length ≤ maxPath ∧ ¬ContainsUnsafe path :=
  checkText_eq_one_iff maxPath blockedSpellings unsafePlaces path

/-! ## Where a component can be -/

theorem components_absolute {path : CString} (h : path.bytes.head? = some 47) :
    ∃ rest, components path = [] :: rest := by
  obtain ⟨bytes, hbytes⟩ := List.head?_eq_some_iff.1 h
  refine ⟨bytes.splitOn 47, ?_⟩
  unfold components
  rw [hbytes]
  exact List.splitOn_append_cons_self [] bytes

/-- The first component that is left of a list without `.`, and what follows it. -/
theorem cons_isPrefix_filter {first : List UInt8} {place list : List (List UInt8)}
    (h : first :: place <+: list.filter (· ≠ dot)) :
    ∃ before after, list = before ++ first :: after ∧ (∀ component ∈ before, component = dot) ∧
      place <+: after.filter (· ≠ dot) := by
  obtain ⟨rest, hrest⟩ := h
  obtain ⟨before, after, rfl, hbefore, -, hafter⟩ := List.filter_eq_cons_iff.1 hrest.symm
  exact ⟨before, after, rfl, fun component hmem ↦ by simpa using hbefore component hmem,
    rest, hafter.symm⟩

/-- A component of an absolute path has a slash in front of it. -/
theorem slash_isInfix_of_mem {path : CString} {rest : List (List UInt8)} {component : List UInt8}
    (h : components path = [] :: rest) (hmem : component ∈ rest) :
    47 :: component <:+: path.bytes := by
  have hpieces : [component] <:+: rest := by
    obtain ⟨before, after, rfl⟩ := List.append_of_mem hmem
    exact ⟨before, after, by simp⟩
  simpa using flatMap_isInfix_of_splitOn h hpieces

/-- The components `..` and `tmp` are found by the search. -/
theorem containsUnsafe_of_mem {path : CString} {rest : List (List UInt8)}
    (h : components path = [] :: rest)
    (hmem : (ofText "..").bytes ∈ rest ∨ (ofText "tmp").bytes ∈ rest) : ContainsUnsafe path := by
  rcases hmem with hmem | hmem
  · exact ⟨ofText "..", by decide,
      (List.suffix_cons _ _).isInfix.trans (slash_isInfix_of_mem h hmem)⟩
  · exact ⟨ofText "/tmp", by decide, slash_isInfix_of_mem h hmem⟩

/-- A device right behind `dev` is found by the search. -/
theorem dotsBehindDev_of_isPrefix {path device : CString} {rest : List (List UInt8)}
    (h : components path = [] :: rest) (hdevice : device ∈ devices)
    (haccepted : ¬ContainsUnsafe path)
    (hstarts : [(ofText "dev").bytes, device.bytes] <+: rest.filter (· ≠ dot)) :
    DotsBehindDev path := by
  obtain ⟨before, behind, rfl, hbefore, hbehind⟩ := cons_isPrefix_filter hstarts
  obtain ⟨between, after, rfl, hbetween, -⟩ := cons_isPrefix_filter hbehind
  refine ⟨device, hdevice, before, between, after, h, hbefore, hbetween, ?_⟩
  rintro rfl
  have hpieces : [(ofText "dev").bytes, device.bytes] <:+:
      before ++ (ofText "dev").bytes :: ([] ++ device.bytes :: after) :=
    ⟨before, after, by simp⟩
  have hinfix := flatMap_isInfix_of_splitOn h hpieces
  have hplace : ∀ device ∈ devices, ∃ text ∈ blockedSpellings ++ unsafePlaces,
      text.bytes = [(ofText "dev").bytes, device.bytes].flatMap (47 :: ·) := by decide +kernel
  obtain ⟨text, htext, hbytes⟩ := hplace device hdevice
  exact haccepted ⟨text, htext, hbytes ▸ hinfix⟩

theorem components_unsafePlaces : ∀ place ∈ unsafePlaces,
    (∃ directory, components place = [] :: (directory ++ [(ofText "tmp").bytes])) ∨
      ∃ device ∈ devices, components place = [[], (ofText "dev").bytes, device.bytes] := by
  intro place hplace
  simp only [unsafePlaces, List.mem_cons, List.not_mem_nil, or_false] at hplace
  rcases hplace with rfl | rfl | rfl | rfl
  · exact .inl ⟨[], by decide +kernel⟩
  · exact .inl ⟨[(ofText "var").bytes], by decide +kernel⟩
  · exact .inr ⟨ofText "random", by decide, by decide +kernel⟩
  · exact .inr ⟨ofText "urandom", by decide, by decide +kernel⟩

theorem exists_unsafePlace {device : CString} (h : device ∈ devices) :
    ∃ place ∈ unsafePlaces, components place = [[], (ofText "dev").bytes, device.bytes] := by
  have hplaces : ∀ device ∈ devices, ∃ place ∈ unsafePlaces,
      components place = [[], (ofText "dev").bytes, device.bytes] := by decide +kernel
  exact hplaces device h

theorem device_ne_dot {device : CString} (h : device ∈ devices) : device.bytes ≠ dot := by
  have hnames : ∀ device ∈ devices, device.bytes ≠ dot := by decide
  exact hnames device h

/-- What the check accepts is lexically none of the four places exactly when one of the fixed texts
is in the path or no `.` components lead from `/dev` to a device. -/
theorem lexicallySound_iff {path : CString} (habsolute : path.bytes.head? = some 47)
    (hlength : path.length ≤ maxPath) :
    LexicallySound path ↔ ContainsUnsafe path ∨ ¬DotsBehindDev path := by
  obtain ⟨rest, hrest⟩ := components_absolute habsolute
  have hdots : withoutDots path = [] :: rest.filter (· ≠ dot) := by
    unfold withoutDots
    rw [hrest, List.filter_cons_of_pos (by decide)]
  have hempty : path ≠ empty := by
    rintro rfl
    simp [empty] at habsolute
  unfold LexicallySound
  rw [isSafePath_eq_one_iff, hdots]
  constructor
  · intro hsound
    by_contra hnot
    rw [not_or, not_not] at hnot
    obtain ⟨haccepted, device, hdevice, before, between, after, hcomponents, hbefore, hbetween,
      -⟩ := hnot
    obtain ⟨place, hplace, hcomponent⟩ := exists_unsafePlace hdevice
    refine (hsound ⟨hempty, hlength, haccepted⟩).2 place hplace ?_
    obtain rfl : rest = _ := (List.cons.inj (hrest.symm.trans hcomponents)).2
    have hbefore' : before.filter (· ≠ dot) = [] := by simpa using hbefore
    have hbetween' : between.filter (· ≠ dot) = [] := by simpa using hbetween
    rw [hcomponent, List.filter_append, hbefore', List.nil_append,
      List.filter_cons_of_pos (by decide), List.filter_append, hbetween', List.nil_append,
      List.filter_cons_of_pos (by simpa using device_ne_dot hdevice)]
    exact ⟨after.filter (· ≠ dot), rfl⟩
  · rintro hcondition ⟨-, -, haccepted⟩
    have hnodots := hcondition.resolve_left haccepted
    constructor
    · intro hmem
      rw [hrest, List.mem_cons] at hmem
      exact haccepted (containsUnsafe_of_mem hrest (.inl (hmem.resolve_left (by decide))))
    · intro place hplace hstarts
      rcases components_unsafePlaces place hplace with ⟨directory, hplace⟩ |
        ⟨device, hdevice, hplace⟩
      · rw [hplace, List.cons_prefix_cons] at hstarts
        have hmem : (ofText "tmp").bytes ∈ rest.filter (· ≠ dot) := hstarts.2.subset (by simp)
        exact haccepted (containsUnsafe_of_mem hrest (.inr (List.mem_of_mem_filter hmem)))
      · rw [hplace, List.cons_prefix_cons] at hstarts
        exact hnodots (dotsBehindDev_of_isPrefix hrest hdevice haccepted hstarts.2)

theorem lexicallySound_iff_example :
    LexicallySound (ofText "/etc/./passwd") ↔
      ContainsUnsafe (ofText "/etc/./passwd") ∨ ¬DotsBehindDev (ofText "/etc/./passwd") :=
  lexicallySound_iff (by decide) (by decide)

/-- One component `.` behind `/dev` is enough. -/
theorem not_lexicallySound : ¬LexicallySound (ofText "/dev/./random") := by
  intro h
  refine (h (by decide +kernel)).2 (ofText "/dev/random") (by decide) ?_
  exact List.isPrefixOf_iff_prefix.1 (by decide +kernel)

end HiFetch.Security
