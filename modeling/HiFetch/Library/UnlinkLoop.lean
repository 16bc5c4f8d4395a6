import HiFetch.Library.LinkedHeap

/-!
# Unlinking cells while walking a list

The loop `while (*current) { if (test) { *current = next; free(cell); } else current = &next; }`
walks a list through a pointer to the link that it would overwrite: the head of the list, or the
link field of the last cell that it kept.  It advances over the cells that stay and gives back the
cells that pass the test.

Cells that were given back may not be read.  On a chain of live cells the loop ends, reads no such
cell, keeps the other cells in their order and gives back every cell that passes once, in the order
of the chain.  The test sees what a cell holds beside its link, through `view`.
-/

namespace HiFetch.LinkedHeap

open Linked

variable {Cell Content Account : Type*} [Linked Cell]

/-- What the loop works on: the heap, the head of the list, the addresses given back, and an account
of what was given back. -/
structure Sweep (Cell Account : Type*) where
  heap : Heap Cell
  head : Option ℕ
  freed : List ℕ
  account : Account

namespace Sweep

/-- Reading a cell.  A cell that was given back cannot be read. -/
def read (sweep : Sweep Cell Account) (address : ℕ) : Option Cell :=
  if address ∈ sweep.freed then none else sweep.heap[address]?

/-- `*current`, where `current` points to the head of the list or to the link of a cell. -/
def link (sweep : Sweep Cell Account) : Option ℕ → Option (Option ℕ)
  | none => some sweep.head
  | some before => (sweep.read before).map next

/-- `*current = target; free(cell)`. -/
def unlink (sweep : Sweep Cell Account) (before : Option ℕ) (address : ℕ) (target : Option ℕ)
    (account : Account) : Sweep Cell Account where
  heap := (relink sweep.heap sweep.head before target).1
  head := (relink sweep.heap sweep.head before target).2
  freed := sweep.freed ++ [address]
  account := account

end Sweep

variable (view : Cell → Content) (test : Content → Bool) (release : Account → Content → Account)

/-- The loop, with the number of iterations it may still take.  There is no result when it reads a
cell that was given back or follows a dangling link. -/
def unlinkLoop : ℕ → Sweep Cell Account → Option ℕ → Option (Sweep Cell Account)
  | 0, _, _ => none
  | fuel + 1, sweep, before =>
      match sweep.link before with
      | none => none
      | some none => some sweep
      | some (some address) =>
          match sweep.read address with
          | none => none
          | some cell =>
              if test (view cell) then
                let account := release sweep.account (view cell)
                unlinkLoop fuel (sweep.unlink before address (next cell) account) before
              else unlinkLoop fuel sweep (some address)

/-- The loop from the head of the list. -/
def unlinkAll (sweep : Sweep Cell Account) : Option (Sweep Cell Account) :=
  unlinkLoop view test release (sweep.heap.length + 1) sweep none

/-- What the cell at an address holds. -/
def contentAt (heap : Heap Cell) (address : ℕ) : Option Content := heap[address]?.map view

/-- The cell at an address passes the test. -/
def passesAt (heap : Heap Cell) (address : ℕ) : Bool := (contentAt view heap address).any test

/-- The loop walked over `rest`, behind the cells of `front`. -/
structure Unlinked (before after : Sweep Cell Account) (front rest : List ℕ) : Prop where
  chain : Chain after.heap after.head
    (front ++ rest.filter fun address ↦ !passesAt view test before.heap address)
  freed_eq : after.freed = before.freed ++ rest.filter (passesAt view test before.heap)
  account_eq : after.account = ((rest.filter (passesAt view test before.heap)).filterMap
    (contentAt view before.heap)).foldl release before.account
  content_eq : ∀ address, contentAt view after.heap address = contentAt view before.heap address
  length_eq : after.heap.length = before.heap.length
  /-- A list that shares no cell with this one stays as it is. -/
  frame : ∀ {link others}, Chain before.heap link others →
    (∀ address ∈ front ++ rest, address ∉ others) → Chain after.heap link others

/-! ## The link that the loop reads -/

theorem Chain.eq_head? {heap : Heap Cell} {link : Option ℕ} {addresses : List ℕ}
    (h : Chain heap link addresses) : link = addresses.head? := by
  cases addresses with
  | nil => exact h
  | cons address rest => exact h.1

/-- Behind the last kept cell stands the first cell of the rest. -/
theorem Sweep.link_eq {sweep : Sweep Cell Account} {front rest : List ℕ}
    (h : Chain sweep.heap sweep.head (front ++ rest))
    (hlive : ∀ address ∈ front ++ rest, address ∉ sweep.freed) :
    sweep.link front.getLast? = some rest.head? := by
  rcases List.eq_nil_or_concat front with rfl | ⟨others, last, rfl⟩
  · exact congrArg some h.eq_head?
  · rw [List.concat_eq_append] at h hlive ⊢
    rw [List.append_assoc, List.singleton_append] at h
    obtain ⟨-, cell, hcell, hrest⟩ := h.suffix
    have hread : sweep.read last = some cell := by
      unfold Sweep.read
      rw [if_neg (hlive last (by simp)), hcell]
    rw [List.getLast?_append, List.getLast?_singleton]
    change (sweep.read last).map next = _
    rw [hread, Option.map_some, hrest.eq_head?]

theorem contentAt_relink {view : Cell → Content}
    (hview : ∀ cell link, view (setNext cell link) = view cell) (heap : Heap Cell)
    (head before target : Option ℕ) (address : ℕ) :
    contentAt view (relink heap head before target).1 address = contentAt view heap address := by
  have hmap := congrArg (·[address]?) (relink_map view hview heap head before target)
  unfold contentAt
  simpa only [List.getElem?_map] using hmap

/-! ## One round -/

section Round

variable {view test} {fuel : ℕ} {sweep : Sweep Cell Account} {front rest : List ℕ} {address : ℕ}
  {cell : Cell}

theorem Sweep.read_eq (h : Chain sweep.heap sweep.head (front ++ address :: rest))
    (hlive : ∀ other ∈ front ++ address :: rest, other ∉ sweep.freed) :
    ∃ cell, sweep.read address = some cell ∧ sweep.heap[address]? = some cell := by
  obtain ⟨-, cell, hcell, -⟩ := h.suffix
  refine ⟨cell, ?_, hcell⟩
  unfold Sweep.read
  rw [if_neg (hlive address (by simp)), hcell]

omit [Linked Cell] in
theorem passesAt_eq (hcell : sweep.heap[address]? = some cell) :
    passesAt view test sweep.heap address = test (view cell) := by
  rw [passesAt, contentAt, hcell, Option.map_some, Option.any_some]

theorem unlinkLoop_null (h : Chain sweep.heap sweep.head (front ++ []))
    (hlive : ∀ other ∈ front ++ [], other ∉ sweep.freed) :
    unlinkLoop view test release (fuel + 1) sweep front.getLast? = some sweep := by
  unfold unlinkLoop
  rw [Sweep.link_eq h hlive]
  rfl

/-- A cell that passes is unlinked, and `current` stays. -/
theorem unlinkLoop_of_passes (h : Chain sweep.heap sweep.head (front ++ address :: rest))
    (hlive : ∀ other ∈ front ++ address :: rest, other ∉ sweep.freed)
    (hcell : sweep.heap[address]? = some cell) (htest : test (view cell)) :
    unlinkLoop view test release (fuel + 1) sweep front.getLast? =
      unlinkLoop view test release fuel (sweep.unlink front.getLast? address (next cell)
        (release sweep.account (view cell))) front.getLast? := by
  obtain ⟨other, hread, hother⟩ := Sweep.read_eq h hlive
  obtain rfl := Option.some.inj (hcell.symm.trans hother)
  rw [unlinkLoop, Sweep.link_eq h hlive, List.head?_cons]
  simp only [hread, htest, if_true]

/-- A cell that stays is passed over. -/
theorem unlinkLoop_of_not_passes (h : Chain sweep.heap sweep.head (front ++ address :: rest))
    (hlive : ∀ other ∈ front ++ address :: rest, other ∉ sweep.freed)
    (hcell : sweep.heap[address]? = some cell) (htest : ¬test (view cell)) :
    unlinkLoop view test release (fuel + 1) sweep front.getLast? =
      unlinkLoop view test release fuel sweep (front ++ [address]).getLast? := by
  obtain ⟨other, hread, hother⟩ := Sweep.read_eq h hlive
  obtain rfl := Option.some.inj (hcell.symm.trans hother)
  rw [unlinkLoop, Sweep.link_eq h hlive, List.head?_cons, List.getLast?_append,
    List.getLast?_singleton]
  simp only [hread, htest]
  rfl

/-- The walk over the rest, after a cell was unlinked. -/
theorem Unlinked.of_unlink (hview : ∀ cell link, view (setNext cell link) = view cell)
    (hcell : sweep.heap[address]? = some cell) (htest : test (view cell))
    {target : Option ℕ} {after : Sweep Cell Account}
    (h : Unlinked view test release (sweep.unlink front.getLast? address target
      (release sweep.account (view cell))) after front rest) :
    Unlinked view test release sweep after front (address :: rest) := by
  have hcontents : contentAt view (sweep.unlink front.getLast? address target
      (release sweep.account (view cell))).heap = contentAt view sweep.heap := by
    funext other
    exact contentAt_relink hview _ _ _ _ other
  have hpasses : passesAt view test (sweep.unlink front.getLast? address target
      (release sweep.account (view cell))).heap = passesAt view test sweep.heap := by
    funext other
    unfold passesAt
    rw [hcontents]
  have hself : passesAt view test sweep.heap address := by rwa [passesAt_eq hcell]
  have hsubset : front ++ rest ⊆ front ++ address :: rest := by
    intro other hother
    rcases List.mem_append.1 hother with hfront | hrest
    · exact List.mem_append_left _ hfront
    · exact List.mem_append_right _ (List.mem_cons_of_mem _ hrest)
  constructor
  · have hchain := h.chain
    rw [hpasses] at hchain
    rwa [List.filter_cons_of_neg (by simpa using hself)]
  · rw [h.freed_eq, hpasses, List.filter_cons_of_pos hself]
    exact List.append_assoc _ _ _
  · have hcontent : contentAt view sweep.heap address = some (view cell) := by
      rw [contentAt, hcell, Option.map_some]
    rw [h.account_eq, hpasses, hcontents, List.filter_cons_of_pos hself,
      List.filterMap_cons_some hcontent, List.foldl_cons]
    rfl
  · intro other
    rw [h.content_eq, hcontents]
  · exact h.length_eq.trans (relink_length _ _ _ _)
  · intro link others hothers hdisjoint
    apply h.frame
    · apply hothers.relink_frame
      exact fun other hother ↦ hdisjoint other (List.mem_append_left _ hother)
    · exact fun other hother ↦ hdisjoint other (hsubset hother)

/-- The walk over the rest, after a cell was passed over. -/
theorem Unlinked.of_keep (hcell : sweep.heap[address]? = some cell) (htest : ¬test (view cell))
    {after : Sweep Cell Account}
    (h : Unlinked view test release sweep after (front ++ [address]) rest) :
    Unlinked view test release sweep after front (address :: rest) := by
  have hself : ¬passesAt view test sweep.heap address := by rwa [passesAt_eq hcell]
  constructor
  · rw [List.filter_cons_of_pos (by simpa using hself)]
    simpa using h.chain
  · rw [List.filter_cons_of_neg hself]
    exact h.freed_eq
  · rw [List.filter_cons_of_neg hself]
    exact h.account_eq
  · exact h.content_eq
  · exact h.length_eq
  · intro link others hothers hdisjoint
    apply h.frame hothers
    simpa using hdisjoint

end Round

/-! ## The loop -/

section Loop

variable {view test} {sweep : Sweep Cell Account} {fuel : ℕ} {front rest : List ℕ}

/-- The loop ends on a chain of live cells.  The induction is on the cells that it has not yet
visited; `front` grows by the cells that stay. -/
theorem unlinkLoop_spec (hview : ∀ cell link, view (setNext cell link) = view cell)
    (h : Chain sweep.heap sweep.head (front ++ rest))
    (hlive : ∀ address ∈ front ++ rest, address ∉ sweep.freed) (hfuel : rest.length < fuel) :
    ∃ after, unlinkLoop view test release fuel sweep front.getLast? = some after ∧
      Unlinked view test release sweep after front rest := by
  induction rest generalizing fuel sweep front with
  | nil =>
    obtain ⟨fuel, rfl⟩ : ∃ less, fuel = less + 1 := ⟨fuel - 1, by omega⟩
    refine ⟨sweep, unlinkLoop_null release h hlive, h, by simp, rfl, fun _ ↦ rfl, rfl, ?_⟩
    exact fun hothers _ ↦ hothers
  | cons address rest ih =>
    obtain ⟨fuel, rfl⟩ : ∃ less, fuel = less + 1 := ⟨fuel - 1, by omega⟩
    have hfuel' : rest.length < fuel := by simpa using hfuel
    obtain ⟨cell, -, hcell⟩ := Sweep.read_eq h hlive
    by_cases htest : test (view cell)
    · rw [unlinkLoop_of_passes release h hlive hcell htest]
      let unlinked := sweep.unlink front.getLast? address (next cell)
        (release sweep.account (view cell))
      have hlive' : ∀ other ∈ front ++ rest, other ∉ unlinked.freed := by
        intro other hother hfreed
        have hne : other ≠ address := fun heq ↦ h.notMem_others (heq ▸ hother)
        apply hlive other
        · simp only [List.mem_append, List.mem_cons] at hother ⊢
          tauto
        · simpa [unlinked, Sweep.unlink, hne] using hfreed
      have h' : Chain unlinked.heap unlinked.head (front ++ rest) :=
        h.relink (h.behind hcell) h.before_notMem_rest
      obtain ⟨after, hloop, hafter⟩ := ih h' hlive' hfuel'
      exact ⟨after, hloop, hafter.of_unlink release hview hcell htest⟩
    · rw [unlinkLoop_of_not_passes release h hlive hcell htest]
      rw [List.append_cons] at h hlive
      obtain ⟨after, hloop, hafter⟩ := ih h hlive hfuel'
      exact ⟨after, hloop, hafter.of_keep release hcell htest⟩

/-- Where no cell passes the test, the loop changes nothing. -/
theorem unlinkLoop_eq_self (h : Chain sweep.heap sweep.head (front ++ rest))
    (hlive : ∀ address ∈ front ++ rest, address ∉ sweep.freed) (hfuel : rest.length < fuel)
    (hnone : ∀ address ∈ rest, ¬passesAt view test sweep.heap address) :
    unlinkLoop view test release fuel sweep front.getLast? = some sweep := by
  induction rest generalizing fuel front with
  | nil =>
    obtain ⟨fuel, rfl⟩ : ∃ less, fuel = less + 1 := ⟨fuel - 1, by omega⟩
    exact unlinkLoop_null release h hlive
  | cons address rest ih =>
    obtain ⟨fuel, rfl⟩ : ∃ less, fuel = less + 1 := ⟨fuel - 1, by omega⟩
    obtain ⟨cell, -, hcell⟩ := Sweep.read_eq h hlive
    have htest := hnone address List.mem_cons_self
    rw [passesAt_eq hcell] at htest
    rw [unlinkLoop_of_not_passes release h hlive hcell htest]
    rw [List.append_cons] at h hlive
    apply ih h hlive
    · simpa using hfuel
    · exact fun other hother ↦ hnone other (List.mem_cons_of_mem _ hother)

variable {addresses : List ℕ}

/-- On a chain of live cells the loop ends, and gives back exactly the cells that pass. -/
theorem unlinkAll_spec (hview : ∀ cell link, view (setNext cell link) = view cell)
    (h : Chain sweep.heap sweep.head addresses)
    (hlive : ∀ address ∈ addresses, address ∉ sweep.freed) :
    ∃ after, unlinkAll view test release sweep = some after ∧
      Unlinked view test release sweep after [] addresses := by
  have hloop : ∃ after,
      unlinkLoop view test release (sweep.heap.length + 1) sweep ([] : List ℕ).getLast? =
        some after ∧ Unlinked view test release sweep after [] addresses :=
    unlinkLoop_spec release hview h hlive (Nat.lt_succ_of_le h.length_le)
  exact hloop

theorem unlinkAll_eq_self (h : Chain sweep.heap sweep.head addresses)
    (hlive : ∀ address ∈ addresses, address ∉ sweep.freed)
    (hnone : ∀ address ∈ addresses, ¬passesAt view test sweep.heap address) :
    unlinkAll view test release sweep = some sweep := by
  have hloop : unlinkLoop view test release (sweep.heap.length + 1) sweep
      ([] : List ℕ).getLast? = some sweep :=
    unlinkLoop_eq_self release h hlive (Nat.lt_succ_of_le h.length_le) hnone
  exact hloop

end Loop

end HiFetch.LinkedHeap
