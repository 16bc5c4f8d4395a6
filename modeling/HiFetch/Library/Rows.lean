import Mathlib.Data.List.Basic

/-!
# Rows of fields

A table is written as lines, each ended by one separator, and a line as fields with another
separator between them.  A table is read back by splitting it, as long as no field contains a
separator.
-/

namespace HiFetch.Rows

variable {α : Type*}

/-- The fields with the separator between them. -/
def joinFields (separator : α) : List (List α) → List α
  | [] => []
  | [field] => field
  | field :: next :: rest => field ++ separator :: joinFields separator (next :: rest)

/-- The lines with the separator behind each. -/
def joinLines (separator : α) (lines : List (List α)) : List α :=
  lines.flatMap fun line ↦ line ++ [separator]

theorem splitOn_joinFields [DecidableEq α] {separator : α} {fields : List (List α)}
    (hne : fields ≠ []) (h : ∀ field ∈ fields, separator ∉ field) :
    (joinFields separator fields).splitOn separator = fields := by
  induction fields with
  | nil => exact absurd rfl hne
  | cons field rest ih =>
    have hfield := h field List.mem_cons_self
    cases rest with
    | nil => exact List.splitOn_eq_singleton hfield
    | cons next rest =>
      have hrest : ∀ other ∈ next :: rest, separator ∉ other := fun other hmem ↦
        h other (List.mem_cons_of_mem _ hmem)
      rw [joinFields, List.splitOn_append_cons_self_of_not_mem hfield,
        ih (List.cons_ne_nil _ _) hrest]

/-- Behind the last separator there is an empty rest. -/
theorem splitOn_joinLines [DecidableEq α] {separator : α} {lines : List (List α)}
    (h : ∀ line ∈ lines, separator ∉ line) :
    (joinLines separator lines).splitOn separator = lines ++ [[]] := by
  induction lines with
  | nil => exact List.splitOn_nil separator
  | cons line rest ih =>
    have hline := h line List.mem_cons_self
    have hrest : ∀ other ∈ rest, separator ∉ other := fun other hmem ↦
      h other (List.mem_cons_of_mem _ hmem)
    have hcons : joinLines separator (line :: rest) =
        line ++ separator :: joinLines separator rest := by
      rw [joinLines, List.flatMap_cons, List.append_assoc]
      rfl
    rw [hcons, List.splitOn_append_cons_self_of_not_mem hline, ih hrest, List.cons_append]

/-- A separator of neither kind gets into a line. -/
theorem notMem_joinFields {separator other : α} (hne : other ≠ separator) {fields : List (List α)}
    (h : ∀ field ∈ fields, other ∉ field) : other ∉ joinFields separator fields := by
  induction fields with
  | nil => exact List.not_mem_nil
  | cons field rest ih =>
    have hfield := h field List.mem_cons_self
    cases rest with
    | nil => exact hfield
    | cons next rest =>
      have hrest := ih fun line hmem ↦ h line (List.mem_cons_of_mem _ hmem)
      rw [joinFields, List.mem_append, List.mem_cons]
      rintro (hfirst | hsame | hlater)
      · exact hfield hfirst
      · exact hne hsame
      · exact hrest hlater

/-- A line with at least two fields is not empty. -/
theorem joinFields_ne_nil (separator : α) (field next : List α) (rest : List (List α)) :
    joinFields separator (field :: next :: rest) ≠ [] :=
  List.append_ne_nil_of_right_ne_nil _ (List.cons_ne_nil _ _)

/-- Lines that are read one by one. -/
theorem mapM_map_eq_some {β γ δ : Type*} {write : β → γ} {read : γ → Option δ} {kept : β → δ}
    {items : List β} (h : ∀ item ∈ items, read (write item) = some (kept item)) :
    (items.map write).mapM read = some (items.map kept) := by
  induction items with
  | nil => rfl
  | cons item rest ih =>
    have hrest := ih fun other hmem ↦ h other (List.mem_cons_of_mem _ hmem)
    rw [List.map_cons, List.mapM_cons, h item List.mem_cons_self, hrest]
    rfl

/-! ## Sections -/

/-- The lines up to an empty one. -/
def firstSection (lines : List (List α)) : List (List α) := lines.takeWhile (· ≠ [])

/-- The lines behind the first empty one. -/
def laterSections (lines : List (List α)) : List (List α) := (lines.dropWhile (· ≠ [])).tail

theorem firstSection_append {lines : List (List α)} (h : ∀ line ∈ lines, line ≠ [])
    (rest : List (List α)) : firstSection (lines ++ [] :: rest) = lines := by
  have hpos : ∀ line ∈ lines, decide (line ≠ []) = true := fun line hmem ↦
    decide_eq_true (h line hmem)
  unfold firstSection
  rw [List.takeWhile_append_of_pos hpos, List.takeWhile_cons_of_neg (by simp), List.append_nil]

theorem laterSections_append {lines : List (List α)} (h : ∀ line ∈ lines, line ≠ [])
    (rest : List (List α)) : laterSections (lines ++ [] :: rest) = rest := by
  have hpos : ∀ line ∈ lines, decide (line ≠ []) = true := fun line hmem ↦
    decide_eq_true (h line hmem)
  unfold laterSections
  rw [List.dropWhile_append_of_pos hpos, List.dropWhile_cons_of_neg (by simp), List.tail_cons]

end HiFetch.Rows
