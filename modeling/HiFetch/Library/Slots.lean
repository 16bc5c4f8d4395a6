import HiFetch.Library.Transition
import Mathlib.Logic.Function.Basic

/-!
# Loops that fill slots

A loop goes over items and fills the slots of an array, one after the other, as long as there is
one.  An item is skipped, or it is filled into the next slot, or what it does is not defined, and
then nothing is known of the whole loop.
-/

namespace HiFetch.Slots

variable {α β γ δ σ : Type*}

/-- What a round of the loop does. -/
inductive Round (δ σ : Type*) where
  | undefined
  | skipped (state : σ)
  | filled (slot : δ) (state : σ)

/-- The slots that are filled. -/
def fillSlots (limit : ℕ) (round : δ → σ → α → Round δ σ) :
    List δ → ℕ → σ → List α → Option (List δ)
  | slots, count, _, [] => some (slots.take count)
  | slots, count, state, item :: rest =>
      if count < limit then
        match slots[count]? with
        | none => none
        | some slot =>
            match round slot state item with
            | .undefined => none
            | .skipped state => fillSlots limit round slots count state rest
            | .filled slot state =>
                fillSlots limit round (slots.set count slot) (count + 1) state rest
      else some (slots.take count)

/-- The first free slot. -/
theorem getElem?_slot (kept others : List δ) (slot : δ) :
    (kept ++ slot :: others)[kept.length]? = some slot := by
  rw [List.getElem?_append_right (Nat.le_refl _), Nat.sub_self]
  rfl

theorem set_slot (kept others : List δ) (slot filled : δ) :
    (kept ++ slot :: others).set kept.length filled = kept ++ filled :: others := by
  rw [List.set_append_right _ _ (Nat.le_refl _), Nat.sub_self, List.set_cons_zero]

theorem fillSlots_map {ι : Type*} (limit : ℕ) (round : δ → σ → α → Round δ σ) (source : ι → α)
    (slots : List δ) (count : ℕ) (state : σ) (items : List ι) :
    fillSlots limit round slots count state (items.map source) =
      fillSlots limit (fun slot state item ↦ round slot state (source item)) slots count state
        items := by
  induction items generalizing slots count state with
  | nil => rfl
  | cons item rest ih =>
    rw [List.map_cons, fillSlots, fillSlots]
    simp only [ih]

/-- The items that are picked are filled in as the outcome says, and the others are skipped. -/
structure Follows (round : δ → σ → α → Round δ σ) (invariant : σ → Prop) (pick : α → Option γ)
    (outcome : γ → Option β) (view : δ → β) : Prop where
  skipped : ∀ slot state item, invariant state → pick item = none →
    ∃ next, round slot state item = .skipped next ∧ invariant next
  undefined : ∀ slot state item picked, invariant state → pick item = some picked →
    outcome picked = none → round slot state item = .undefined
  filled : ∀ slot state item picked value, invariant state → pick item = some picked →
    outcome picked = some value →
      ∃ filled next, round slot state item = .filled filled next ∧ view filled = value ∧
        invariant next

/-- The loop collects the outcomes of the picked items for which there is a slot. -/
theorem map_fillSlots {limit : ℕ} {round : δ → σ → α → Round δ σ} {invariant : σ → Prop}
    {pick : α → Option γ} {outcome : γ → Option β} {view : δ → β}
    (h : Follows round invariant pick outcome view) {kept free : List δ} {state : σ}
    (hstate : invariant state) (hroom : kept.length + free.length = limit) (items : List α) :
    (fillSlots limit round (kept ++ free) kept.length state items).map (List.map view) =
      (((items.filterMap pick).take free.length).mapM outcome).map (kept.map view ++ ·) := by
  induction items generalizing kept free state with
  | nil =>
    rw [fillSlots, List.take_left, List.filterMap_nil, List.take_nil, List.mapM_nil]
    exact congrArg some (List.append_nil _).symm
  | cons item rest ih =>
    cases free with
    | nil =>
      rw [List.length_nil, Nat.add_zero] at hroom
      rw [fillSlots, if_neg (by omega), List.take_left, List.length_nil, List.take_zero,
        List.mapM_nil]
      exact congrArg some (List.append_nil _).symm
    | cons slot others =>
      rw [List.length_cons] at hroom
      rw [fillSlots, if_pos (by omega), getElem?_slot]
      dsimp only
      cases hpick : pick item with
      | none =>
        obtain ⟨next, hround, hnext⟩ := h.skipped slot state item hstate hpick
        rw [hround, List.filterMap_cons_none hpick]
        exact ih hnext hroom
      | some picked =>
        rw [List.filterMap_cons_some hpick, List.length_cons, List.take_succ_cons, List.mapM_cons]
        cases houtcome : outcome picked with
        | none =>
          rw [h.undefined slot state item picked hstate hpick houtcome]
          rfl
        | some value =>
          obtain ⟨filled, next, hround, hview, hnext⟩ :=
            h.filled slot state item picked value hstate hpick houtcome
          have hlength : (kept ++ [filled]).length = kept.length + 1 := by
            rw [List.length_append, List.length_singleton]
          have hroomNext : (kept ++ [filled]).length + others.length = limit := by omega
          have hrest := ih hnext hroomNext
          rw [hlength, List.map_append, List.map_singleton, hview] at hrest
          rw [hround]
          dsimp only
          rw [set_slot, List.append_cons, hrest]
          cases ((rest.filterMap pick).take others.length).mapM outcome with
          | none => rfl
          | some values => exact congrArg some (List.append_assoc _ _ _)

/-- All outcomes are as expected. -/
theorem mapM_eq_some_map_iff {outcome : γ → Option β} {expected : γ → β} (items : List γ) :
    items.mapM outcome = some (items.map expected) ↔
      ∀ item ∈ items, outcome item = some (expected item) := by
  induction items with
  | nil => exact iff_of_true rfl fun item hmem ↦ nomatch hmem
  | cons item rest ih =>
    rw [List.forall_mem_cons, ← ih, List.mapM_cons, List.map_cons]
    cases outcome item with
    | none => simp
    | some value => cases rest.mapM outcome <;> simp [and_comm]

/-- The slots are as expected exactly if the outcomes of the picked items for which there is a slot
are. -/
theorem fillSlots_iff {limit : ℕ} {round : δ → σ → α → Round δ σ} {invariant : σ → Prop}
    {pick : α → Option γ} {outcome : γ → Option β} {view : δ → β}
    (h : Follows round invariant pick outcome view) {slots : List δ} (hslots : slots.length = limit)
    {state : σ} (hstate : invariant state) (items : List α) (expected : γ → β) :
    (∃ filled, fillSlots limit round slots 0 state items = some filled ∧
        filled.map view = ((items.filterMap pick).take limit).map expected) ↔
      ∀ picked ∈ (items.filterMap pick).take limit, outcome picked = some (expected picked) := by
  have hroom : ([] : List δ).length + slots.length = limit := by
    rw [List.length_nil, Nat.zero_add, hslots]
  have hloop := map_fillSlots h hstate hroom items
  rw [hslots, List.nil_append, List.length_nil, List.map_nil] at hloop
  simp only [List.nil_append, Option.map_id'] at hloop
  rw [← Option.map_eq_some_iff, hloop, mapM_eq_some_map_iff]

/-! ## Tables by kind -/

section Tables

variable {κ τ : Type*}

/-- An item finds no room, or it has a kind with room. -/
theorem full_or_room (limit : ℕ) (kind : α → Option κ) (counts : κ → ℕ) (item : α) :
    (∀ key, kind item = some key → limit ≤ counts key) ∨
      ∃ key, kind item = some key ∧ counts key < limit := by
  by_contra hneither
  rw [not_or, not_exists] at hneither
  exact hneither.1 fun key hkind ↦ Nat.not_lt.1 fun hroom ↦ hneither.2 key ⟨hkind, hroom⟩

variable [DecidableEq κ]

/-- A round of a loop that appends an item to the table of its kind, as long as there is room, and
goes on to the next item where the item has no kind. -/
def sortRound (limit : ℕ) (kind : α → Option κ) (record : κ → ℕ → σ → α → Option (δ × σ))
    (tables : (κ → List δ) × σ) (item : α) : Option ((κ → List δ) × σ) :=
  match kind item with
  | none => some tables
  | some key =>
      if (tables.1 key).length < limit then
        (record key (tables.1 key).length tables.2 item).map fun recorded ↦
          (Function.update tables.1 key (tables.1 key ++ [recorded.1]), recorded.2)
      else some tables

/-- The items that find room, when the tables have some slots already. -/
def accepted (limit : ℕ) (kind : α → Option κ) : (κ → ℕ) → List α → List α
  | _, [] => []
  | counts, item :: rest =>
      match kind item with
      | none => accepted limit kind counts rest
      | some key =>
          if counts key < limit then
            item :: accepted limit kind (Function.update counts key (counts key + 1)) rest
          else accepted limit kind counts rest

/-- What is recorded, with a state of which another one keeps as much as matters: slots in which the
items can be recognised. -/
structure Records (kind : α → Option κ) (record : κ → ℕ → σ → α → Option (δ × σ))
    (holds : σ → τ → Prop) (next : τ → α → τ) (ok : τ → α → Prop) (view : δ → α) : Prop where
  recorded : ∀ key count state held item, holds state held → kind item = some key → ok held item →
    ∃ slot after, record key count state item = some (slot, after) ∧ view slot = item ∧
      holds after (next held item)
  undefined : ∀ key count state held item, holds state held → kind item = some key →
    ¬ok held item → record key count state item = none

variable {limit : ℕ} {kind : α → Option κ} {counts : κ → ℕ} {item : α} {rest : List α} {key : κ}

theorem accepted_cons_of_full (hfull : ∀ key, kind item = some key → limit ≤ counts key) :
    accepted limit kind counts (item :: rest) = accepted limit kind counts rest := by
  rw [accepted]
  cases hkind : kind item with
  | none => rfl
  | some key => exact if_neg (Nat.not_lt.2 (hfull key hkind))

theorem accepted_cons_of_room (hkind : kind item = some key) (hroom : counts key < limit) :
    accepted limit kind counts (item :: rest) =
      item :: accepted limit kind (Function.update counts key (counts key + 1)) rest := by
  rw [accepted, hkind]
  exact if_pos hroom

/-- The first items of each kind find room. -/
theorem filter_accepted (limit : ℕ) (kind : α → Option κ) (counts : κ → ℕ) (items : List α)
    (key : κ) :
    (accepted limit kind counts items).filter (fun item ↦ kind item = some key) =
      (items.filter fun item ↦ kind item = some key).take (limit - counts key) := by
  induction items generalizing counts with
  | nil => rw [accepted, List.filter_nil, List.take_nil]
  | cons item rest ih =>
    rcases full_or_room limit kind counts item with hfull | ⟨own, hown, hroom⟩
    · rw [accepted_cons_of_full hfull, ih]
      by_cases hkind : kind item = some key
      · rw [Nat.sub_eq_zero_of_le (hfull key hkind), List.take_zero, List.take_zero]
      · rw [List.filter_cons_of_neg (by simpa using hkind)]
    · rw [accepted_cons_of_room hown hroom]
      by_cases hkind : kind item = some key
      · obtain rfl : own = key := Option.some.inj (hown.symm.trans hkind)
        have hcount : limit - counts own = limit - (counts own + 1) + 1 := by omega
        rw [List.filter_cons_of_pos (by simpa using hkind),
          List.filter_cons_of_pos (by simpa using hkind), ih, Function.update_self, hcount,
          List.take_succ_cons]
      · have hne : key ≠ own := fun heq ↦ hkind (heq ▸ hown)
        rw [List.filter_cons_of_neg (by simpa using hkind),
          List.filter_cons_of_neg (by simpa using hkind), ih, Function.update_of_ne hne]

variable {record : κ → ℕ → σ → α → Option (δ × σ)} {holds : σ → τ → Prop} {next : τ → α → τ}
  {ok : τ → α → Prop} {view : δ → α} {tables : κ → List δ} {state : σ} {held : τ}

theorem sortRound_of_full (hfull : ∀ key, kind item = some key → limit ≤ (tables key).length) :
    sortRound limit kind record (tables, state) item = some (tables, state) := by
  unfold sortRound
  cases hkind : kind item with
  | none => rfl
  | some key => exact if_neg (Nat.not_lt.2 (hfull key hkind))

theorem sortRound_of_room (hkind : kind item = some key) (hroom : (tables key).length < limit) :
    sortRound limit kind record (tables, state) item =
      (record key (tables key).length state item).map fun recorded ↦
        (Function.update tables key (tables key ++ [recorded.1]), recorded.2) := by
  unfold sortRound
  rw [hkind]
  exact if_pos hroom

/-- The lengths of the tables behind an item that is recorded. -/
theorem length_update (tables : κ → List δ) (key : κ) (slot : δ) :
    (fun other ↦ (Function.update tables key (tables key ++ [slot]) other).length) =
      Function.update (fun other ↦ (tables other).length) key ((tables key).length + 1) := by
  funext other
  by_cases heq : other = key
  · subst heq
    rw [Function.update_self, Function.update_self, List.length_append, List.length_singleton]
  · rw [Function.update_of_ne heq, Function.update_of_ne heq]

/-- Each table gets the items of its kind that find room, in their order. -/
theorem foldlM_sortRound (h : Records kind record holds next ok view) (hstate : holds state held)
    (items : List α)
    (hok : Transition.Along next ok held
      (accepted limit kind (fun key ↦ (tables key).length) items)) :
    ∃ final, items.foldlM (sortRound limit kind record) (tables, state) = some final ∧
      ∀ key, (final.1 key).map view = (tables key).map view ++
        (accepted limit kind (fun key ↦ (tables key).length) items).filter
          fun item ↦ kind item = some key := by
  induction items generalizing tables state held with
  | nil => exact ⟨(tables, state), rfl, fun key ↦ by simp [accepted]⟩
  | cons item rest ih =>
    rw [List.foldlM_cons]
    rcases full_or_room limit kind (fun key ↦ (tables key).length) item with
      hfull | ⟨key, hkind, hroom⟩
    · rw [accepted_cons_of_full hfull] at hok ⊢
      rw [sortRound_of_full hfull]
      exact ih hstate hok
    · rw [accepted_cons_of_room hkind hroom] at hok ⊢
      obtain ⟨hitem, hrest⟩ := hok
      obtain ⟨slot, after, hrecord, hview, hafter⟩ :=
        h.recorded key (tables key).length state held item hstate hkind hitem
      rw [← length_update tables key slot] at hrest ⊢
      obtain ⟨final, hfold, hfinal⟩ := ih hafter hrest
      refine ⟨final, ?_, fun other ↦ ?_⟩
      · rw [sortRound_of_room hkind hroom, hrecord]
        exact hfold
      · rw [hfinal other]
        by_cases heq : other = key
        · subst heq
          rw [Function.update_self, List.filter_cons_of_pos (by simpa using hkind),
            List.map_append, List.map_singleton, hview, List.append_assoc]
          rfl
        · have hother : ¬kind item = some other := fun hsame ↦
            heq (Option.some.inj (hsame.symm.trans hkind))
          rw [Function.update_of_ne heq, List.filter_cons_of_neg (by simpa using hother)]

/-- A loop that ends has recorded all items that find room. -/
theorem along_of_foldlM_sortRound (h : Records kind record holds next ok view)
    (hstate : holds state held) {items : List α} {final : (κ → List δ) × σ}
    (hfold : items.foldlM (sortRound limit kind record) (tables, state) = some final) :
    Transition.Along next ok held
      (accepted limit kind (fun key ↦ (tables key).length) items) := by
  induction items generalizing tables state held with
  | nil => trivial
  | cons item rest ih =>
    rw [List.foldlM_cons] at hfold
    rcases full_or_room limit kind (fun key ↦ (tables key).length) item with
      hfull | ⟨key, hkind, hroom⟩
    · rw [sortRound_of_full hfull] at hfold
      rw [accepted_cons_of_full hfull]
      exact ih hstate hfold
    · rw [sortRound_of_room hkind hroom] at hfold
      rw [accepted_cons_of_room hkind hroom]
      by_cases hitem : ok held item
      · obtain ⟨slot, after, hrecord, -, hafter⟩ :=
          h.recorded key (tables key).length state held item hstate hkind hitem
        rw [hrecord] at hfold
        rw [← length_update tables key slot]
        exact ⟨hitem, ih hafter hfold⟩
      · rw [h.undefined key (tables key).length state held item hstate hkind hitem] at hfold
        cases hfold

/-- The first items of two kinds agree exactly if the first ones of the wider kind are of the
narrower one. -/
theorem take_filter_eq_iff {wide narrow : α → Bool} (hsub : ∀ item, narrow item → wide item)
    (count : ℕ) (items : List α) :
    (items.filter wide).take count = (items.filter narrow).take count ↔
      ∀ item ∈ (items.filter wide).take count, narrow item := by
  constructor
  · intro heq item hmem
    rw [heq] at hmem
    exact (List.mem_filter.1 (List.mem_of_mem_take hmem)).2
  · intro hall
    induction items generalizing count with
    | nil => rfl
    | cons item rest ih =>
      by_cases hwide : wide item = true
      · rw [List.filter_cons_of_pos hwide] at hall ⊢
        cases count with
        | zero => rw [List.take_zero, List.take_zero]
        | succ count =>
          rw [List.take_succ_cons, List.forall_mem_cons] at hall
          rw [List.filter_cons_of_pos hall.1, List.take_succ_cons, List.take_succ_cons,
            ih count hall.2]
      · have hnarrow : ¬narrow item = true := fun hitem ↦ hwide (hsub item hitem)
        rw [List.filter_cons_of_neg hwide] at hall ⊢
        rw [List.filter_cons_of_neg hnarrow]
        exact ih count hall

end Tables

end HiFetch.Slots
