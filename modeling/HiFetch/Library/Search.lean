import Mathlib.Data.List.Basic
import Mathlib.Data.List.Infix
import Mathlib.Data.List.TakeWhile

/-!
# The first occurrence of a pattern

A search reports where a pattern first occurs in a list: the leftmost occurrence.  A pattern that
does not contain some element is never found across it, so a list that such elements divide can be
searched one part after the other.
-/

namespace HiFetch.Search

variable {α : Type*} [DecidableEq α] {pattern list : List α}

/-- Where the pattern first starts. -/
def find (pattern : List α) : List α → Option ℕ
  | [] => if pattern = [] then some 0 else none
  | element :: rest =>
      if pattern.isPrefixOf (element :: rest) then some 0
      else (find pattern rest).map (· + 1)

/-- What follows the first occurrence. -/
def behind (pattern list : List α) : Option (List α) :=
  (find pattern list).map fun start ↦ list.drop (start + pattern.length)

/-- The pattern is found exactly where the list contains it. -/
theorem find_eq_none_iff : find pattern list = none ↔ ¬pattern <:+: list := by
  induction list with
  | nil =>
    unfold find
    split_ifs with hnil
    · simp [hnil]
    · simpa using hnil
  | cons element rest ih =>
    unfold find
    rw [List.infix_cons_iff, ← List.isPrefixOf_iff_prefix]
    split_ifs with hstarts
    · simp [hstarts]
    · rw [Option.map_eq_none_iff, ih, not_or, and_iff_right hstarts]

theorem find_le {start : ℕ} (h : find pattern list = some start) :
    start + pattern.length ≤ list.length := by
  induction list generalizing start with
  | nil =>
    unfold find at h
    split_ifs at h with hnil
    obtain rfl : 0 = start := by simpa using h
    simp [hnil]
  | cons element rest ih =>
    unfold find at h
    split_ifs at h with hstarts
    · obtain rfl : 0 = start := by simpa using h
      rw [Nat.zero_add]
      exact (List.isPrefixOf_iff_prefix.1 hstarts).length_le
    · obtain ⟨start, hstart, rfl⟩ := Option.map_eq_some_iff.1 h
      have hle := ih hstart
      rw [List.length_cons]
      omega

/-- The pattern stands where it is found. -/
theorem find_spec {start : ℕ} (h : find pattern list = some start) :
    ∃ rest, list = list.take start ++ (pattern ++ rest) := by
  induction list generalizing start with
  | nil =>
    unfold find at h
    split_ifs at h with hnil
    exact ⟨[], by simp [hnil]⟩
  | cons element rest ih =>
    unfold find at h
    split_ifs at h with hstarts
    · obtain rfl : 0 = start := by simpa using h
      obtain ⟨back, hback⟩ := List.isPrefixOf_iff_prefix.1 hstarts
      exact ⟨back, hback.symm⟩
    · obtain ⟨start, hstart, rfl⟩ := Option.map_eq_some_iff.1 h
      obtain ⟨back, hback⟩ := ih hstart
      refine ⟨back, ?_⟩
      rw [List.take_succ_cons, List.cons_append, ← hback]

/-- What follows the list does not matter if the list contains the pattern. -/
theorem find_append_of_some {start : ℕ} (h : find pattern list = some start) (back : List α) :
    find pattern (list ++ back) = some start := by
  induction list generalizing start with
  | nil =>
    unfold find at h
    split_ifs at h with hnil
    subst hnil
    cases back <;> simpa [find] using h
  | cons element rest ih =>
    have hlength := find_le h
    unfold find at h
    rw [List.cons_append]
    unfold find
    split_ifs at h with hstarts
    · rw [if_pos]
      · exact h
      · rw [List.isPrefixOf_iff_prefix, ← List.cons_append]
        exact (List.isPrefixOf_iff_prefix.1 hstarts).trans (List.prefix_append _ _)
    · obtain ⟨start, hstart, rfl⟩ := Option.map_eq_some_iff.1 h
      rw [if_neg, ih hstart, Option.map_some]
      -- an earlier occurrence ends earlier, so it lies inside the list
      intro hlong
      refine hstarts (List.isPrefixOf_iff_prefix.2 (List.prefix_of_prefix_length_le
        (List.isPrefixOf_iff_prefix.1 hlong) ?_ (by omega)))
      rw [← List.cons_append]
      exact List.prefix_append _ _

/-- The search goes on behind an element that the pattern does not contain. -/
theorem find_append_cons_of_none {element : α} (h : find pattern list = none)
    (helement : element ∉ pattern) (back : List α) :
    find pattern (list ++ element :: back) =
      (find pattern back).map (· + (list.length + 1)) := by
  induction list with
  | nil =>
    have hne : pattern ≠ [] := by
      rintro rfl
      simp [find] at h
    rw [List.nil_append, List.length_nil]
    conv_lhs => unfold find
    rw [if_neg]
    obtain ⟨first, others, rfl⟩ := List.exists_cons_of_ne_nil hne
    rw [List.isPrefixOf_iff_prefix, List.cons_prefix_cons]
    rintro ⟨rfl, -⟩
    exact helement List.mem_cons_self
  | cons first rest ih =>
    unfold find at h
    split_ifs at h with hstarts
    rw [List.cons_append]
    conv_lhs => unfold find
    rw [if_neg, ih (Option.map_eq_none_iff.1 h), Option.map_map]
    · rfl
    · intro hlong
      rw [List.isPrefixOf_iff_prefix, ← List.cons_append] at hlong
      rcases le_or_gt pattern.length (first :: rest).length with hle | hgt
      · exact hstarts (List.isPrefixOf_iff_prefix.2
          (List.prefix_of_prefix_length_le hlong (List.prefix_append _ _) hle))
      · obtain ⟨extra, rfl⟩ := List.prefix_of_prefix_length_le (List.prefix_append _ _) hlong hgt.le
        rw [List.prefix_append_right_inj] at hlong
        cases extra with
        | nil => simp at hgt
        | cons other extra =>
          obtain rfl := (List.cons_prefix_cons.1 hlong).1
          exact helement (by simp)

theorem behind_append_of_some {rest : List α} (h : behind pattern list = some rest)
    (back : List α) : behind pattern (list ++ back) = some (rest ++ back) := by
  obtain ⟨start, hstart, rfl⟩ := Option.map_eq_some_iff.1 h
  unfold behind
  rw [find_append_of_some hstart, Option.map_some, List.drop_append_of_le_length (find_le hstart)]

theorem behind_append_cons_of_none {element : α} (h : behind pattern list = none)
    (helement : element ∉ pattern) (back : List α) :
    behind pattern (list ++ element :: back) = behind pattern back := by
  unfold behind
  rw [find_append_cons_of_none (Option.map_eq_none_iff.1 h) helement, Option.map_map]
  congr 1
  funext start
  simp only [Function.comp_apply]
  rw [show start + (list.length + 1) + pattern.length =
      list.length + ((start + pattern.length) + 1) by omega, ← List.drop_drop, List.drop_left,
    List.drop_succ_cons]

/-! ## One element -/

theorem find_singleton_of_mem {element : α} (h : element ∈ list) :
    find [element] list = some (list.takeWhile fun other ↦ decide (other ≠ element)).length := by
  induction list with
  | nil => simp at h
  | cons first rest ih =>
    unfold find
    by_cases heq : first = element
    · subst heq
      simp
    · have hrest : element ∈ rest := by simpa [Ne.symm heq] using h
      rw [if_neg (by simpa using fun h ↦ heq h.symm), ih hrest,
        List.takeWhile_cons_of_pos (by simpa using heq)]
      simp

theorem find_singleton_of_notMem {element : α} (h : element ∉ list) :
    find [element] list = none := by
  rw [find_eq_none_iff, List.singleton_infix_iff]
  exact h

/-! ## The leftmost occurrence -/

/-- The pattern stands in the list between two parts, and nowhere earlier. -/
structure Leftmost {β : Type*} (pattern list front rest : List β) : Prop where
  list_eq : list = front ++ (pattern ++ rest)
  least : ∀ before back, list = before ++ (pattern ++ back) → front.length ≤ before.length

theorem find_le_of_append {before back : List α} {start : ℕ}
    (h : find pattern (before ++ (pattern ++ back)) = some start) : start ≤ before.length := by
  induction before generalizing start with
  | nil =>
    rw [List.nil_append] at h
    cases hlist : pattern ++ back with
    | nil =>
      obtain rfl := (List.append_eq_nil_iff.1 hlist).1
      rw [hlist, find, if_pos rfl] at h
      exact (Option.some.inj h).ge
    | cons element rest =>
      have hstarts : pattern.isPrefixOf (element :: rest) := by
        rw [← hlist, List.isPrefixOf_iff_prefix]
        exact List.prefix_append _ _
      rw [hlist, find, if_pos hstarts] at h
      exact (Option.some.inj h).ge
  | cons element before ih =>
    rw [List.cons_append, find] at h
    split_ifs at h with hstarts
    · exact (Option.some.inj h).symm.le.trans (Nat.zero_le _)
    · obtain ⟨place, hplace, rfl⟩ := Option.map_eq_some_iff.1 h
      exact Nat.succ_le_succ (ih hplace)

/-- What is found is the leftmost occurrence. -/
theorem leftmost_of_find {start : ℕ} (h : find pattern list = some start) :
    Leftmost pattern list (list.take start) (list.drop (start + pattern.length)) where
  list_eq := by
    obtain ⟨rest, hrest⟩ := find_spec h
    have hle := find_le h
    have hlength : (list.take start).length = start := List.length_take_of_le (by omega)
    have hdrop : list.drop (start + pattern.length) = rest := by
      conv_lhs => rw [hrest, ← List.append_assoc]
      rw [← hlength, ← List.length_append, hlength, List.drop_left]
    rw [hdrop]
    exact hrest
  least before back heq := by
    rw [List.length_take]
    rw [heq] at h
    exact (Nat.min_le_left _ _).trans (find_le_of_append h)

theorem find_eq_of_leftmost {front rest : List α} (h : Leftmost pattern list front rest) :
    find pattern list = some front.length := by
  cases hfind : find pattern list with
  | none =>
    have hinside : pattern <:+: list := ⟨front, rest, by rw [h.list_eq, List.append_assoc]⟩
    exact absurd hinside (find_eq_none_iff.1 hfind)
  | some start =>
    have hle := h.least _ _ (leftmost_of_find hfind).list_eq
    rw [List.length_take] at hle
    rw [h.list_eq] at hfind
    have hge := find_le_of_append hfind
    rw [Nat.le_antisymm hge (hle.trans (Nat.min_le_left _ _))]
/-! ## A single occurrence -/

/-- The pattern stands in the list between two parts, and nowhere else. -/
structure Once {β : Type*} (pattern list front rest : List β) : Prop where
  list_eq : list = front ++ (pattern ++ rest)
  unique : ∀ before back, list = before ++ (pattern ++ back) → before = front

namespace Once

variable {front rest : List α}

theorem find_eq (h : Once pattern list front rest) : find pattern list = some front.length :=
  find_eq_of_leftmost ⟨h.list_eq, fun before back heq ↦ by rw [h.unique before back heq]⟩

omit [DecidableEq α] in
theorem drop_eq (h : Once pattern list front rest) :
    list.drop (front.length + pattern.length) = rest := by
  rw [h.list_eq, ← List.append_assoc, ← List.length_append, List.drop_left]

omit [DecidableEq α] in
/-- A cut behind the pattern. -/
theorem take (h : Once pattern list front rest) (count : ℕ) :
    Once pattern (list.take (front.length + (pattern.length + count))) front (rest.take count) where
  list_eq := by
    rw [h.list_eq, List.take_length_add_append, List.take_length_add_append]
  unique before back heq := by
    apply h.unique before (back ++ list.drop (front.length + (pattern.length + count)))
    calc
      list = list.take (front.length + (pattern.length + count)) ++
          list.drop (front.length + (pattern.length + count)) := (List.take_append_drop _ _).symm
      _ = _ := by rw [heq, List.append_assoc, List.append_assoc]

omit [DecidableEq α] in
/-- A cut at an element that neither the pattern nor the part behind it contains. -/
theorem take_of_notMem {part back : List α} {element : α} {place : ℕ}
    (h : Once pattern list front (part ++ back)) (hplace : list[place]? = some element)
    (hpattern : element ∉ pattern) (hpart : element ∉ part) (hfront : front.length ≤ place) :
    ∃ count, Once pattern (list.take place) front (part ++ back.take count) := by
  obtain ⟨inside, rfl⟩ := Nat.exists_eq_add_of_le hfront
  have hlist : list = front ++ ((pattern ++ part) ++ back) := by
    rw [h.list_eq, List.append_assoc]
  have hbehind : (pattern ++ part).length ≤ inside := by
    by_contra hinside
    rw [hlist, List.getElem?_append_right (Nat.le_add_right _ _), Nat.add_sub_cancel_left,
      List.getElem?_append_left (by omega)] at hplace
    rcases List.mem_append.1 (List.mem_of_getElem? hplace) with hmem | hmem
    · exact hpattern hmem
    · exact hpart hmem
  obtain ⟨count, rfl⟩ := Nat.exists_eq_add_of_le hbehind
  refine ⟨count, ?_⟩
  have hcut := h.take (part.length + count)
  rw [List.take_length_add_append] at hcut
  rwa [List.length_append, Nat.add_assoc]

/-- A cut in front of the end of the pattern. -/
theorem find_take (h : Once pattern list front rest) {count : ℕ}
    (hcount : count < front.length + pattern.length) : find pattern (list.take count) = none := by
  rw [find_eq_none_iff]
  rintro ⟨before, back, heq⟩
  have hfront := h.unique before (back ++ list.drop count) (by
    rw [← List.append_assoc pattern, ← List.append_assoc, ← List.append_assoc, heq,
      List.take_append_drop])
  have hlength := congrArg List.length heq
  rw [hfront, List.length_append, List.length_append, List.length_take] at hlength
  omega

/-- The places where a pattern starts can be counted. -/
theorem of_places (hlist : list = front ++ (pattern ++ rest))
    (hplaces : ((List.range (list.length + 1)).filter fun place ↦
      pattern.isPrefixOf (list.drop place)) = [front.length]) : Once pattern list front rest where
  list_eq := hlist
  unique before back hbefore := by
    have hstarts : pattern.isPrefixOf (list.drop before.length) := by
      rw [hbefore, List.drop_left, List.isPrefixOf_iff_prefix]
      exact List.prefix_append _ _
    have hinside : before.length < list.length + 1 := by
      rw [hbefore, List.length_append]
      omega
    have hmem : before.length ∈ [front.length] :=
      hplaces ▸ List.mem_filter.2 ⟨List.mem_range.2 hinside, hstarts⟩
    exact (List.append_inj (hbefore.symm.trans hlist) (List.mem_singleton.1 hmem)).1

end Once

end HiFetch.Search
