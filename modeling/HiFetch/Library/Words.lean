import Mathlib.Data.List.Basic
import Mathlib.Data.List.Infix
import Mathlib.Data.List.TakeWhile

/-!
# Words between separators

The pieces of a list that is split at separators are the parts without a separator that separators
or the ends of the list enclose.  A search for a fixed text finds such a part only together with
what is next to it.
-/

namespace HiFetch.Words

variable {α : Type*} {separator : α → Bool}

/-- A part without separators between two separators or ends of the list. -/
structure Enclosed (separator : α → Bool) (before word after : List α) : Prop where
  start : ∀ last ∈ before.getLast?, separator last
  noSeparator : ∀ element ∈ word, separator element = false
  finish : ∀ next ∈ after.head?, separator next

/-- What stands before a part is nothing or ends with a separator. -/
theorem Enclosed.before_eq {before word after : List α} (h : Enclosed separator before word after) :
    before = [] ∨ ∃ front last, before = front ++ [last] ∧ separator last := by
  rcases before.eq_nil_or_concat' with hnil | ⟨front, last, rfl⟩
  · exact .inl hnil
  · exact .inr ⟨front, last, rfl, h.start last (by simp)⟩

theorem Enclosed.mem_splitOnP {before word after : List α}
    (h : Enclosed separator before word after) :
    word ∈ (before ++ word ++ after).splitOnP separator := by
  have hback : word ∈ (word ++ after).splitOnP separator := by
    cases after with
    | nil => rw [List.append_nil, List.splitOnP_eq_singleton h.noSeparator, List.mem_singleton]
    | cons next after =>
      rw [List.splitOnP_append_cons_of_forall_mem h.noSeparator next (h.finish next rfl)]
      exact List.mem_cons_self
  rcases h.before_eq with rfl | ⟨front, last, rfl, hlast⟩
  · exact hback
  · rw [List.append_assoc, List.append_assoc, List.singleton_append,
      List.splitOnP_append_cons _ _ hlast]
    exact List.mem_append_right _ hback

theorem exists_enclosed {list word : List α} (h : word ∈ list.splitOnP separator) :
    ∃ before after, list = before ++ word ++ after ∧ Enclosed separator before word after := by
  induction hlength : list.length using Nat.strong_induction_on generalizing list with
  | _ length ih =>
    have hsplit : list = (list.takeWhile fun element ↦ !separator element) ++
        list.dropWhile fun element ↦ !separator element := List.takeWhile_append_dropWhile.symm
    have hfront : ∀ element ∈ list.takeWhile fun element ↦ !separator element,
        separator element = false := by
      intro element hmem
      simpa using List.mem_takeWhile_imp hmem
    generalize (list.takeWhile fun element ↦ !separator element) = front at hsplit hfront
    cases hback : list.dropWhile fun element ↦ !separator element with
    | nil =>
      rw [hback, List.append_nil] at hsplit
      subst hsplit
      rw [List.splitOnP_eq_singleton hfront, List.mem_singleton] at h
      subst h
      exact ⟨[], [], by simp, by simp, hfront, by simp⟩
    | cons next back =>
      have hnext : separator next := by
        have hhead := List.head?_dropWhile_not (fun element ↦ !separator element) list
        rw [hback, List.head?_cons] at hhead
        simpa using hhead
      rw [hback] at hsplit
      subst hsplit
      rw [List.splitOnP_append_cons_of_forall_mem hfront next hnext, List.mem_cons] at h
      rcases h with rfl | h
      · exact ⟨[], next :: back, by simp, by simp, hfront, by simpa using hnext⟩
      · have hshorter : back.length < length := by
          rw [← hlength, List.length_append, List.length_cons]
          omega
        obtain ⟨before, after, rfl, henclosed⟩ := ih back.length hshorter h rfl
        refine ⟨front ++ next :: before, after, by simp, ?_, henclosed.noSeparator,
          henclosed.finish⟩
        intro last hlast
        rw [List.getLast?_append_of_ne_nil _ (List.cons_ne_nil _ _)] at hlast
        rcases henclosed.before_eq with rfl | ⟨front', last', rfl, hlast'⟩
        · obtain rfl : next = last := by simpa using hlast
          exact hnext
        · rw [← List.cons_append, List.getLast?_concat, Option.mem_some_iff] at hlast
          exact hlast ▸ hlast'

/-- The pieces between the separators of a list are its enclosed parts. -/
theorem mem_splitOnP_iff {list word : List α} :
    word ∈ list.splitOnP separator ↔
      ∃ before after, list = before ++ word ++ after ∧ Enclosed separator before word after := by
  constructor
  · exact exists_enclosed
  · rintro ⟨before, after, rfl, h⟩
    exact h.mem_splitOnP

/-! ## One separator -/

/-- Behind the first piece, every piece has the separator in front of it. -/
theorem intercalate_cons (separator : α) (first : List α) (rest : List (List α)) :
    [separator].intercalate (first :: rest) = first ++ rest.flatMap (separator :: ·) := by
  induction rest generalizing first with
  | nil => simp
  | cons second rest ih =>
    rw [List.intercalate_cons_cons, ih, List.flatMap_cons, List.append_assoc]
    rfl

theorem eq_of_splitOn [BEq α] [LawfulBEq α] {separator : α} {list first : List α}
    {rest : List (List α)} (h : list.splitOn separator = first :: rest) :
    list = first ++ rest.flatMap (separator :: ·) := by
  rw [← intercalate_cons, ← h, List.intercalate_splitOn]

/-- Pieces that follow each other, without the first one, are a part of the list with a separator in
front of each. -/
theorem flatMap_isInfix_of_splitOn [BEq α] [LawfulBEq α] {separator : α} {list first : List α}
    {rest pieces : List (List α)} (h : list.splitOn separator = first :: rest)
    (hpieces : pieces <:+: rest) : pieces.flatMap (separator :: ·) <:+: list := by
  obtain ⟨before, after, rfl⟩ := hpieces
  rw [eq_of_splitOn h, List.flatMap_append, List.flatMap_append]
  exact ⟨first ++ before.flatMap (separator :: ·), after.flatMap (separator :: ·), by simp⟩

/-! ## Words that are not empty -/

/-- The pieces between the separators that are not empty. -/
def words (separator : α → Bool) (list : List α) : List (List α) :=
  (list.splitOnP separator).filter fun word ↦ !word.isEmpty

@[simp]
theorem words_nil : words separator [] = [] := by
  unfold words
  rw [List.splitOnP_nil]
  rfl

/-- A separator divides the words. -/
theorem words_append_cons {element : α} (h : separator element) (front back : List α) :
    words separator (front ++ element :: back) = words separator front ++ words separator back := by
  unfold words
  rw [List.splitOnP_append_cons _ _ h, List.filter_append]

/-- Separators in front of a list do not matter. -/
theorem words_separators {separators : List α} (h : ∀ element ∈ separators, separator element)
    (back : List α) : words separator (separators ++ back) = words separator back := by
  induction separators with
  | nil => rfl
  | cons element rest ih =>
    have hrest := ih fun other hmem ↦ h other (List.mem_cons_of_mem _ hmem)
    calc
      words separator (element :: rest ++ back) =
          words separator [] ++ words separator (rest ++ back) :=
        words_append_cons (h element List.mem_cons_self) [] (rest ++ back)
      _ = words separator back := by rw [words_nil, List.nil_append, hrest]

theorem words_self {word : List α} (hne : word ≠ [])
    (hword : ∀ element ∈ word, separator element = false) : words separator word = [word] := by
  unfold words
  rw [List.splitOnP_eq_singleton hword, List.filter_cons_of_pos (by simpa using hne),
    List.filter_nil]

/-- The first word ends where the list ends or a separator follows. -/
theorem words_append {word rest : List α} (hne : word ≠ [])
    (hword : ∀ element ∈ word, separator element = false)
    (hrest : ∀ next ∈ rest.head?, separator next) :
    words separator (word ++ rest) = word :: words separator rest := by
  cases rest with
  | nil => rw [List.append_nil, words_self hne hword, words_nil]
  | cons next rest =>
    have hnext := hrest next rfl
    calc
      words separator (word ++ next :: rest) = [word] ++ words separator rest := by
        rw [words_append_cons hnext, words_self hne hword]
      _ = word :: words separator (next :: rest) := by
        have hskip : words separator ([next] ++ rest) = words separator rest :=
          words_separators (by simpa using hnext) rest
        exact congrArg (word :: ·) hskip.symm

end HiFetch.Words
