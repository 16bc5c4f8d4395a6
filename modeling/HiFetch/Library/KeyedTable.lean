import Mathlib.Algebra.BigOperators.Group.Multiset.Basic
import Mathlib.Algebra.Order.BigOperators.Group.Finset
import Mathlib.Data.Fintype.BigOperators
import Mathlib.Data.Multiset.Filter
import Mathlib.Data.Set.Card
import Mathlib.Tactic.Abel
import Mathlib.Tactic.SplitIfs

/-!
# Hash tables with chaining

A table gives every bucket its chain, a list of items.  A key is looked up in the chain of its
hash.  The contents of a table is the multiset of the items of all chains; what each operation on a
chain does to the contents is one lemma, from which sums over the items and the number of items
follow.

In a well-formed table every item is in the bucket of its key and no two items have the same key.
There a lookup finds an item exactly when the table contains it, so a table is a finite map.
-/

namespace HiFetch.KeyedTable

open scoped List

variable {Item Key Bucket : Type*}

/-- The first item that satisfies the condition, changed by `change`. -/
def modifyFirst (condition : Item → Bool) (change : Item → Item) : List Item → List Item
  | [] => []
  | item :: rest =>
      if condition item then change item :: rest else item :: modifyFirst condition change rest

theorem modifyFirst_perm {condition : Item → Bool} {change : Item → Item} {chain : List Item}
    {item : Item} (hfind : chain.find? condition = some item) :
    (modifyFirst condition change chain).Perm (change item :: chain.eraseP condition) := by
  induction chain with
  | nil => simp at hfind
  | cons head rest ih =>
    by_cases hhead : condition head
    · rw [List.find?_cons_of_pos hhead] at hfind
      obtain rfl := Option.some.inj hfind
      unfold modifyFirst
      rw [if_pos hhead, List.eraseP_cons_of_pos hhead]
    · rw [List.find?_cons_of_neg hhead] at hfind
      unfold modifyFirst
      rw [if_neg hhead, List.eraseP_cons_of_neg hhead]
      calc
        head :: modifyFirst condition change rest
          ~ head :: change item :: rest.eraseP condition := (ih hfind).cons head
        _ ~ change item :: head :: rest.eraseP condition := List.Perm.swap _ _ _

/-- Changing an item into itself. -/
theorem modifyFirst_eq_self {condition : Item → Bool} {change : Item → Item} {chain : List Item}
    (hchange : ∀ item, chain.find? condition = some item → change item = item) :
    modifyFirst condition change chain = chain := by
  induction chain with
  | nil => rfl
  | cons head rest ih =>
    unfold modifyFirst
    by_cases hhead : condition head
    · rw [if_pos hhead, hchange head (List.find?_cons_of_pos hhead)]
    · rw [if_neg hhead, ih]
      intro item hitem
      apply hchange
      rwa [List.find?_cons_of_neg hhead]

theorem map_modifyFirst {keyOf : Item → Key} (condition : Item → Bool) {change : Item → Item}
    (hchange : ∀ item, keyOf (change item) = keyOf item) (chain : List Item) :
    (modifyFirst condition change chain).map keyOf = chain.map keyOf := by
  induction chain with
  | nil => rfl
  | cons head rest ih =>
    by_cases hhead : condition head
    · unfold modifyFirst
      rw [if_pos hhead, List.map_cons, List.map_cons, hchange]
    · unfold modifyFirst
      rw [if_neg hhead, List.map_cons, List.map_cons, ih]

section Contents

variable [Fintype Bucket]

/-- The items of all chains. -/
def contents (table : Bucket → List Item) : Multiset Item :=
  ∑ bucket, (table bucket : Multiset Item)

theorem mem_contents {table : Bucket → List Item} {item : Item} :
    item ∈ contents table ↔ ∃ bucket, item ∈ table bucket := by
  simp [contents, Multiset.mem_sum]

@[simp]
theorem contents_empty : contents (fun _ : Bucket ↦ ([] : List Item)) = 0 := by
  simp [contents]

theorem le_contents (table : Bucket → List Item) (bucket : Bucket) :
    (table bucket : Multiset Item) ≤ contents table :=
  Finset.single_le_sum (fun _ _ ↦ Multiset.zero_le _) (Finset.mem_univ bucket)

variable [DecidableEq Bucket]

/-- Replacing one chain. -/
theorem contents_update (table : Bucket → List Item) (bucket : Bucket) (chain : List Item) :
    contents (Function.update table bucket chain) + (table bucket : Multiset Item) =
      contents table + (chain : Multiset Item) := by
  have hrest : ∑ other ∈ Finset.univ.erase bucket,
      (Function.update table bucket chain other : Multiset Item) =
        ∑ other ∈ Finset.univ.erase bucket, (table other : Multiset Item) := by
    apply Finset.sum_congr rfl
    intro other hother
    rw [Function.update_of_ne (Finset.ne_of_mem_erase hother)]
  rw [contents, contents, ← Finset.add_sum_erase _ _ (Finset.mem_univ bucket),
    ← Finset.add_sum_erase _ (fun other ↦ (table other : Multiset Item)) (Finset.mem_univ bucket),
    hrest, Function.update_self]
  abel

theorem contents_push (table : Bucket → List Item) (bucket : Bucket) (item : Item) :
    contents (Function.update table bucket (item :: table bucket)) = item ::ₘ contents table := by
  have h := contents_update table bucket (item :: table bucket)
  rw [← Multiset.cons_coe, Multiset.add_cons, ← Multiset.cons_add] at h
  exact add_right_cancel h

/-- Unlinking the first item that satisfies the condition. -/
theorem contents_eraseP (table : Bucket → List Item) (bucket : Bucket) {condition : Item → Bool}
    {item : Item} (hfind : (table bucket).find? condition = some item) :
    contents table =
      item ::ₘ contents (Function.update table bucket ((table bucket).eraseP condition)) := by
  have hchain : (table bucket : Multiset Item) =
      item ::ₘ ((table bucket).eraseP condition : Multiset Item) := by
    obtain ⟨hitem, front, back, hsplit, hfront⟩ := List.find?_eq_some_iff_append.1 hfind
    rw [hsplit, List.eraseP_append_right _ fun other hother ↦ by simpa using hfront other hother,
      List.eraseP_cons_of_pos hitem, Multiset.cons_coe, Multiset.coe_eq_coe]
    exact List.perm_middle
  have h := contents_update table bucket ((table bucket).eraseP condition)
  rw [hchain, Multiset.add_cons, ← Multiset.cons_add] at h
  exact (add_right_cancel h).symm

/-- Changing the first item that satisfies the condition. -/
theorem contents_modifyFirst (table : Bucket → List Item) (bucket : Bucket)
    {condition : Item → Bool} {change : Item → Item} {item : Item}
    (hfind : (table bucket).find? condition = some item) :
    contents (Function.update table bucket (modifyFirst condition change (table bucket))) =
      change item ::ₘ
        contents (Function.update table bucket ((table bucket).eraseP condition)) := by
  have hmodify := contents_update table bucket (modifyFirst condition change (table bucket))
  have herase := contents_update table bucket ((table bucket).eraseP condition)
  rw [Multiset.coe_eq_coe.2 (modifyFirst_perm hfind)] at hmodify
  refine add_right_cancel (b := (table bucket : Multiset Item)) ?_
  rw [hmodify, Multiset.cons_add, herase, ← Multiset.cons_coe, Multiset.add_cons]

/-- Keeping the items that satisfy the condition. -/
theorem contents_filter (table : Bucket → List Item) (bucket : Bucket) (condition : Item → Bool) :
    contents table = contents (Function.update table bucket ((table bucket).filter condition)) +
      ((table bucket).filter fun item ↦ !condition item : List Item) := by
  have h := contents_update table bucket ((table bucket).filter condition)
  have hchain : (table bucket : Multiset Item) = ((table bucket).filter condition : List Item) +
      ((table bucket).filter fun item ↦ !condition item : List Item) := by
    rw [Multiset.coe_add, Multiset.coe_eq_coe]
    exact (List.filter_append_perm condition (table bucket)).symm
  rw [hchain, add_comm ((table bucket).filter condition : Multiset Item), ← add_assoc] at h
  exact (add_right_cancel h).symm

-- The sum over all buckets is used through the lemmas above only, never by evaluating it.
attribute [irreducible] contents

end Contents

/-! ## Well-formed tables -/

variable {hash : Key → Bucket} {keyOf : Item → Key} {table : Bucket → List Item}

/-- Every item is in the bucket of its key, and no two items have the same key. -/
structure WellFormed [Fintype Bucket] (hash : Key → Bucket) (keyOf : Item → Key)
    (table : Bucket → List Item) : Prop where
  placed : ∀ bucket, ∀ item ∈ table bucket, hash (keyOf item) = bucket
  distinct : ((contents table).map keyOf).Nodup

theorem wellFormed_empty [Fintype Bucket] : WellFormed hash keyOf (fun _ ↦ []) :=
  ⟨by simp, by simp⟩

theorem WellFormed.nodup_chain [Fintype Bucket] (h : WellFormed hash keyOf table)
    (bucket : Bucket) : ((table bucket).map keyOf).Nodup := by
  have hnodup := Multiset.nodup_of_le (Multiset.map_le_map (le_contents table bucket)) h.distinct
  rwa [Multiset.map_coe, Multiset.coe_nodup] at hnodup

section Update

variable [Fintype Bucket] [DecidableEq Bucket]

namespace WellFormed

/-- Unlinking items keeps a table well formed. -/
theorem update_sublist (h : WellFormed hash keyOf table) {bucket : Bucket} {chain : List Item}
    (hsublist : chain.Sublist (table bucket)) :
    WellFormed hash keyOf (Function.update table bucket chain) := by
  have hcontents : contents (Function.update table bucket chain) ≤ contents table := by
    have hupdate := contents_update table bucket chain
    have hle : (chain : Multiset Item) ≤ table bucket := Multiset.coe_le.2 hsublist.subperm
    refine le_of_add_le_add_right (a := (table bucket : Multiset Item)) ?_
    rw [hupdate]
    gcongr
  refine ⟨fun other item hmem ↦ ?_, Multiset.nodup_of_le (Multiset.map_le_map hcontents) h.distinct⟩
  rcases eq_or_ne other bucket with rfl | hne
  · rw [Function.update_self] at hmem
    exact h.placed other item (hsublist.subset hmem)
  · rw [Function.update_of_ne hne] at hmem
    exact h.placed other item hmem

/-- A new item keeps a table well formed exactly when it is put in the bucket of its key and no
item has its key. -/
theorem push_iff (h : WellFormed hash keyOf table) {bucket : Bucket} {item : Item} :
    WellFormed hash keyOf (Function.update table bucket (item :: table bucket)) ↔
      hash (keyOf item) = bucket ∧ ∀ other ∈ contents table, keyOf other ≠ keyOf item := by
  constructor
  · intro hpush
    refine ⟨hpush.placed bucket item (by simp), fun other hother hkey ↦ ?_⟩
    have hdistinct := hpush.distinct
    rw [contents_push, Multiset.map_cons, Multiset.nodup_cons] at hdistinct
    exact hdistinct.1 (hkey ▸ Multiset.mem_map_of_mem keyOf hother)
  · rintro ⟨rfl, hfresh⟩
    refine ⟨fun other found hmem ↦ ?_, ?_⟩
    · rcases eq_or_ne other (hash (keyOf item)) with rfl | hne
      · rw [Function.update_self] at hmem
        rcases List.mem_cons.1 hmem with rfl | hmem
        · rfl
        · exact h.placed _ found hmem
      · rw [Function.update_of_ne hne] at hmem
        exact h.placed other found hmem
    · rw [contents_push, Multiset.map_cons, Multiset.nodup_cons]
      refine ⟨fun hmem ↦ ?_, h.distinct⟩
      obtain ⟨other, hother, hkey⟩ := Multiset.mem_map.1 hmem
      exact hfresh other hother hkey

/-- Changing an item without its key keeps a table well formed. -/
theorem modifyFirst (h : WellFormed hash keyOf table) {bucket : Bucket}
    {condition : Item → Bool} {change : Item → Item}
    (hchange : ∀ item, keyOf (change item) = keyOf item) :
    WellFormed hash keyOf
      (Function.update table bucket (modifyFirst condition change (table bucket))) := by
  have hmap := map_modifyFirst condition hchange (table bucket)
  refine ⟨fun other item hmem ↦ ?_, ?_⟩
  · rcases eq_or_ne other bucket with rfl | hne
    · rw [Function.update_self] at hmem
      have hkey := List.mem_map_of_mem (f := keyOf) hmem
      rw [hmap] at hkey
      obtain ⟨old, hold, heq⟩ := List.mem_map.1 hkey
      rw [← heq]
      exact h.placed other old hold
    · rw [Function.update_of_ne hne] at hmem
      exact h.placed other item hmem
  · have hupdate := congrArg (Multiset.map keyOf)
      (contents_update table bucket (KeyedTable.modifyFirst condition change (table bucket)))
    rw [Multiset.map_add, Multiset.map_add, Multiset.map_coe, Multiset.map_coe, hmap] at hupdate
    rw [add_right_cancel hupdate]
    exact h.distinct

end WellFormed

end Update

/-! ## Lookups -/

section Lookup

variable [DecidableEq Key]

/-- The first item with the key in the chain of its hash. -/
def find (hash : Key → Bucket) (keyOf : Item → Key) (table : Bucket → List Item) (key : Key) :
    Option Item :=
  (table (hash key)).find? fun item ↦ decide (keyOf item = key)

theorem keyOf_of_find {key : Key} {item : Item} (h : find hash keyOf table key = some item) :
    keyOf item = key := by
  simpa using List.find?_some h

section Fintype

variable [Fintype Bucket]

theorem mem_of_find {key : Key} {item : Item} (h : find hash keyOf table key = some item) :
    item ∈ contents table :=
  mem_contents.2 ⟨_, List.mem_of_find?_eq_some h⟩

namespace WellFormed

/-- A lookup finds exactly the item of the table that has the key. -/
theorem find_eq_some_iff (h : WellFormed hash keyOf table) {key : Key} {item : Item} :
    find hash keyOf table key = some item ↔ item ∈ contents table ∧ keyOf item = key := by
  refine ⟨fun hfind ↦ ⟨mem_of_find hfind, keyOf_of_find hfind⟩, ?_⟩
  rintro ⟨hmem, rfl⟩
  obtain ⟨bucket, hbucket⟩ := mem_contents.1 hmem
  obtain rfl := h.placed bucket item hbucket
  cases hfind : find hash keyOf table (keyOf item) with
  | none => simpa using List.find?_eq_none.1 hfind item hbucket
  | some other =>
    rw [Multiset.inj_on_of_nodup_map h.distinct other (mem_of_find hfind) item hmem
      (keyOf_of_find hfind)]

theorem find_eq_none_iff (h : WellFormed hash keyOf table) {key : Key} :
    find hash keyOf table key = none ↔ ∀ item ∈ contents table, keyOf item ≠ key := by
  rw [Option.eq_none_iff_forall_ne_some]
  exact ⟨fun hnone item hmem hkey ↦ hnone item (h.find_eq_some_iff.2 ⟨hmem, hkey⟩),
    fun hnone item hfind ↦ hnone item (mem_of_find hfind) (keyOf_of_find hfind)⟩

/-- The number of keys is the number of items. -/
theorem ncard_keys (h : WellFormed hash keyOf table) :
    {key | (find hash keyOf table key).isSome}.ncard = (contents table).card := by
  have hkeys : {key | (find hash keyOf table key).isSome} =
      ((contents table).map keyOf).toFinset := by
    ext key
    simp only [Set.mem_ofPred_eq, Option.isSome_iff_exists, h.find_eq_some_iff, Finset.mem_coe,
      Multiset.mem_toFinset, Multiset.mem_map]
  rw [hkeys, Set.ncard_coe_finset, Multiset.toFinset_card_of_nodup h.distinct, Multiset.card_map]

end WellFormed

end Fintype

variable [DecidableEq Bucket]

/-! What the three changes of a chain do to a search of the chain. -/

theorem find?_modifyFirst {change : Item → Item}
    (hchange : ∀ item, keyOf (change item) = keyOf item) (key other : Key) (chain : List Item) :
    (modifyFirst (fun item ↦ decide (keyOf item = key)) change chain).find?
        (fun item ↦ decide (keyOf item = other)) =
      if key = other then (chain.find? fun item ↦ decide (keyOf item = key)).map change
      else chain.find? fun item ↦ decide (keyOf item = other) := by
  induction chain with
  | nil => simp [modifyFirst]
  | cons head rest ih =>
    by_cases hhead : keyOf head = key <;> by_cases hother : key = other <;>
      simp_all [modifyFirst, List.find?_cons]

theorem find?_eraseP {chain : List Item} (hnodup : (chain.map keyOf).Nodup) (key other : Key) :
    (chain.eraseP fun item ↦ decide (keyOf item = key)).find?
        (fun item ↦ decide (keyOf item = other)) =
      if key = other then none else chain.find? fun item ↦ decide (keyOf item = other) := by
  induction chain with
  | nil => simp
  | cons head rest ih =>
    obtain ⟨hhead, hrest⟩ := List.nodup_cons.1 hnodup
    by_cases hkey : keyOf head = key <;> by_cases hother : key = other <;>
      simp_all [List.find?_cons]

theorem find?_filter {chain : List Item} (hnodup : (chain.map keyOf).Nodup)
    (condition : Item → Bool) (key : Key) :
    (chain.filter condition).find? (fun item ↦ decide (keyOf item = key)) =
      (chain.find? fun item ↦ decide (keyOf item = key)).filter condition := by
  induction chain with
  | nil => simp
  | cons head rest ih =>
    obtain ⟨hhead, hrest⟩ := List.nodup_cons.1 hnodup
    by_cases hkey : keyOf head = key
    · rw [List.find?_cons_of_pos (by simpa using hkey)]
      by_cases hcondition : condition head
      · rw [List.filter_cons_of_pos hcondition, List.find?_cons_of_pos (by simpa using hkey),
          Option.filter_some, if_pos hcondition]
      · rw [List.filter_cons_of_neg hcondition, Option.filter_some, if_neg hcondition,
          List.find?_eq_none]
        intro item hitem hsame
        refine hhead (List.mem_map.2 ⟨item, List.mem_of_mem_filter hitem, ?_⟩)
        rw [hkey]
        simpa using hsame
    · rw [List.find?_cons_of_neg (by simpa using hkey), ← ih hrest]
      by_cases hcondition : condition head
      · rw [List.filter_cons_of_pos hcondition, List.find?_cons_of_neg (by simpa using hkey)]
      · rw [List.filter_cons_of_neg hcondition]

/-- Unlinking an item of one key hides no item of another, even where keys repeat. -/
theorem find?_eraseP_of_ne {key other : Key} (hne : key ≠ other) (chain : List Item) :
    (chain.eraseP fun item ↦ decide (keyOf item = key)).find?
        (fun item ↦ decide (keyOf item = other)) =
      chain.find? fun item ↦ decide (keyOf item = other) := by
  induction chain with
  | nil => rfl
  | cons head rest ih =>
    by_cases hkey : keyOf head = key
    · have hother : keyOf head ≠ other := fun heq ↦ hne (hkey.symm.trans heq)
      rw [List.eraseP_cons_of_pos (by simpa using hkey),
        List.find?_cons_of_neg (by simpa using hother)]
    · rw [List.eraseP_cons_of_neg (by simpa using hkey), List.find?_cons, List.find?_cons, ih]

/-- An item that is found and that the filter keeps is still the first one of its key. -/
theorem find?_filter_of_pos {chain : List Item} {condition : Item → Bool} {key : Key} {item : Item}
    (hfind : chain.find? (fun item ↦ decide (keyOf item = key)) = some item)
    (hcondition : condition item) :
    (chain.filter condition).find? (fun item ↦ decide (keyOf item = key)) = some item := by
  obtain ⟨hkey, before, after, rfl, hbefore⟩ := List.find?_eq_some_iff_append.1 hfind
  rw [List.filter_append, List.filter_cons_of_pos hcondition, List.find?_append]
  have hnone : (before.filter condition).find? (fun item ↦ decide (keyOf item = key)) = none := by
    rw [List.find?_eq_none]
    intro other hother
    simpa using hbefore other (List.mem_of_mem_filter hother)
  rw [hnone, Option.none_or]
  exact List.find?_cons_of_pos hkey

theorem find_update (bucket : Bucket) (chain : List Item) (key : Key) :
    find hash keyOf (Function.update table bucket chain) key =
      if hash key = bucket then chain.find? fun item ↦ decide (keyOf item = key)
      else find hash keyOf table key := by
  split_ifs with hbucket
  · unfold find
    rw [hbucket, Function.update_self]
  · rw [find, Function.update_of_ne hbucket, find]

/-- A chain in which a key is found as before. -/
theorem find_update_eq {bucket : Bucket} {chain : List Item} {key : Key}
    (h : chain.find? (fun item ↦ decide (keyOf item = key)) =
      (table bucket).find? fun item ↦ decide (keyOf item = key)) :
    find hash keyOf (Function.update table bucket chain) key = find hash keyOf table key := by
  rw [find_update]
  split_ifs with hbucket
  · rw [h, find, hbucket]
  · rfl

theorem find_push (item : Item) (key : Key) :
    find hash keyOf (Function.update table (hash (keyOf item)) (item :: table (hash (keyOf item))))
      key = if keyOf item = key then some item else find hash keyOf table key := by
  by_cases hkey : keyOf item = key
  · rw [find_update, if_pos hkey, if_pos (congrArg hash hkey.symm),
      List.find?_cons_of_pos (by simpa using hkey)]
  · rw [if_neg hkey]
    apply find_update_eq
    exact List.find?_cons_of_neg (by simpa using hkey)

/-- Changing the item of a key changes what a lookup of this key finds, and nothing else. -/
theorem find_modifyFirst {change : Item → Item} (hchange : ∀ item, keyOf (change item) = keyOf item)
    (key other : Key) :
    find hash keyOf (Function.update table (hash key)
        (modifyFirst (fun item ↦ decide (keyOf item = key)) change (table (hash key)))) other =
      if key = other then (find hash keyOf table key).map change
      else find hash keyOf table other := by
  by_cases hother : key = other
  · simp [find?_modifyFirst hchange, hother, find]
  · rw [if_neg hother]
    apply find_update_eq
    rw [find?_modifyFirst hchange, if_neg hother]

/-- Unlinking the item of a key makes its lookup fail, and changes no other lookup. -/
theorem WellFormed.find_eraseP [Fintype Bucket] (h : WellFormed hash keyOf table)
    (key other : Key) :
    find hash keyOf (Function.update table (hash key)
        ((table (hash key)).eraseP fun item ↦ decide (keyOf item = key))) other =
      if key = other then none else find hash keyOf table other := by
  by_cases hother : key = other
  · simp [find_update, find?_eraseP (h.nodup_chain _), hother]
  · rw [if_neg hother]
    apply find_update_eq
    rw [find?_eraseP (h.nodup_chain _), if_neg hother]

/-- Keeping the items of one chain that satisfy the condition. -/
theorem WellFormed.find_filter [Fintype Bucket] (h : WellFormed hash keyOf table) (bucket : Bucket)
    (condition : Item → Bool) (key : Key) :
    find hash keyOf (Function.update table bucket ((table bucket).filter condition)) key =
      if hash key = bucket then (find hash keyOf table key).filter condition
      else find hash keyOf table key := by
  rw [find_update, find?_filter (h.nodup_chain _)]
  split_ifs with hbucket
  · unfold find
    rw [hbucket]
  · rfl

end Lookup

end HiFetch.KeyedTable
