import HiFetch.Library.LinkedHeap

/-!
# Lists of which cells have been given back

A cell that was given back to the allocator may not be read.  `findLive` is the search loop that
reads live cells only, and `freeAll` the loop `while (cell) { next = cell->next; free(cell);
cell = next; }`, which gives back every cell of a list.

On a chain of live cells the search is that of `find`.  The other loop ends without reading or
giving back a dead cell exactly when it walks over such a chain, and what it gives back is the
chain.
-/

namespace HiFetch.LinkedHeap

open Linked

variable {Cell : Type*} [Linked Cell]

/-- Reading a cell, unless it was given back. -/
def readLive (heap : Heap Cell) (freed : List ℕ) (address : ℕ) : Option Cell :=
  if address ∈ freed then none else heap[address]?

omit [Linked Cell] in
theorem readLive_eq_some_iff {heap : Heap Cell} {freed : List ℕ} {address : ℕ} {cell : Cell} :
    readLive heap freed address = some cell ↔ address ∉ freed ∧ heap[address]? = some cell := by
  unfold readLive
  split_ifs with hfreed <;> simp [hfreed]

/-! ## Searching -/

/-- The search loop of `search`, which also stops at a cell that was given back. -/
def searchLive (heap : Heap Cell) (freed : List ℕ) (test : Cell → Bool) :
    ℕ → Option ℕ → Option ℕ → Found Cell
  | 0, _, _ => .endless
  | _ + 1, _, none => .absent
  | fuel + 1, before, some address =>
      match readLive heap freed address with
      | none => .endless
      | some cell =>
          if test cell then .hit before address cell
          else searchLive heap freed test fuel (some address) (next cell)

/-- The search from a list head; `.endless` stands also for a read of a dead cell. -/
def findLive (heap : Heap Cell) (freed : List ℕ) (test : Cell → Bool) (head : Option ℕ) :
    Found Cell :=
  searchLive heap freed test (heap.length + 1) none head

theorem searchLive_eq_search {heap : Heap Cell} {freed : List ℕ} {link : Option ℕ}
    {addresses : List ℕ} (h : Chain heap link addresses)
    (hlive : ∀ address ∈ addresses, address ∉ freed) (test : Cell → Bool) (fuel : ℕ)
    (before : Option ℕ) :
    searchLive heap freed test fuel before link = search heap test fuel before link := by
  induction addresses generalizing link fuel before with
  | nil =>
    obtain rfl : link = none := h
    cases fuel <;> rfl
  | cons address rest ih =>
    obtain ⟨rfl, cell, hcell, hrest⟩ := h
    cases fuel with
    | zero => rfl
    | succ fuel =>
      have hread := readLive_eq_some_iff.2 ⟨hlive address List.mem_cons_self, hcell⟩
      have hnext := ih hrest (fun other hother ↦ hlive other (List.mem_cons_of_mem _ hother)) fuel
        (some address)
      simp only [searchLive, search, hread, hcell, hnext]

/-- On a chain of live cells the search meets no dead one. -/
theorem findLive_eq_find {heap : Heap Cell} {freed : List ℕ} {head : Option ℕ}
    {addresses : List ℕ} (h : Chain heap head addresses)
    (hlive : ∀ address ∈ addresses, address ∉ freed) (test : Cell → Bool) :
    findLive heap freed test head = find heap test head :=
  searchLive_eq_search h hlive test _ none

/-! ## Giving back a list -/

/-- The loop, with the number of iterations it may still take. -/
def freeLoop (heap : Heap Cell) : ℕ → List ℕ → Option ℕ → Option (List ℕ)
  | 0, _, _ => none
  | _ + 1, freed, none => some freed
  | fuel + 1, freed, some address =>
      match readLive heap freed address with
      | none => none
      | some cell => freeLoop heap fuel (freed ++ [address]) (next cell)

/-- The loop from the head of a list: the addresses given back so far, or nothing if it reads a cell
that was given back or follows a dangling link. -/
def freeAll (heap : Heap Cell) (freed : List ℕ) (head : Option ℕ) : Option (List ℕ) :=
  freeLoop heap (heap.length + 1) freed head

theorem freeLoop_eq_some_iff {heap : Heap Cell} {fuel : ℕ} {freed after : List ℕ}
    {link : Option ℕ} :
    freeLoop heap fuel freed link = some after ↔
      ∃ addresses, Chain heap link addresses ∧ addresses.length < fuel ∧
        (∀ address ∈ addresses, address ∉ freed) ∧ after = freed ++ addresses := by
  induction fuel generalizing freed link with
  | zero => simp [freeLoop]
  | succ fuel ih =>
    cases link with
    | none =>
      constructor
      · intro h
        obtain rfl := Option.some.inj h
        exact ⟨[], rfl, by simp, by simp, by simp⟩
      · rintro ⟨addresses, hchain, -, -, rfl⟩
        cases addresses with
        | nil => simp [freeLoop]
        | cons address rest => simp at hchain
    | some address =>
      constructor
      · intro h
        cases hread : readLive heap freed address with
        | none => simp [freeLoop, hread] at h
        | some cell =>
          obtain ⟨hlive, hcell⟩ := readLive_eq_some_iff.1 hread
          simp only [freeLoop, hread] at h
          obtain ⟨rest, hchain, hfuel, hrest, rfl⟩ := ih.1 h
          refine ⟨address :: rest, ⟨rfl, cell, hcell, hchain⟩, by simpa using hfuel, ?_, ?_⟩
          · intro other hother
            rcases List.mem_cons.1 hother with rfl | hother
            · exact hlive
            · exact fun hfreed ↦ hrest other hother (List.mem_append_left _ hfreed)
          · rw [List.append_assoc, List.singleton_append]
      · rintro ⟨addresses, hchain, hfuel, hlive, rfl⟩
        cases addresses with
        | nil => simp at hchain
        | cons first rest =>
          have hnodup := hchain.nodup
          obtain ⟨hfirst, cell, hcell, hrest⟩ := hchain
          obtain rfl := Option.some.inj hfirst
          have hread := readLive_eq_some_iff.2 ⟨hlive address List.mem_cons_self, hcell⟩
          simp only [freeLoop, hread]
          refine ih.2 ⟨rest, hrest, by simpa using hfuel, fun other hother hfreed ↦ ?_, ?_⟩
          · rcases List.mem_append.1 hfreed with hold | hsame
            · exact hlive other (List.mem_cons_of_mem _ hother) hold
            · obtain rfl := List.mem_singleton.1 hsame
              exact (List.nodup_cons.1 hnodup).1 hother
          · rw [List.append_assoc, List.singleton_append]

/-- The loop gives back the cells of a chain of live cells, and fails on everything else. -/
theorem freeAll_eq_some_iff {heap : Heap Cell} {freed after : List ℕ} {head : Option ℕ} :
    freeAll heap freed head = some after ↔
      ∃ addresses, Chain heap head addresses ∧ (∀ address ∈ addresses, address ∉ freed) ∧
        after = freed ++ addresses := by
  unfold freeAll
  rw [freeLoop_eq_some_iff]
  constructor
  · rintro ⟨addresses, hchain, -, hlive, hafter⟩
    exact ⟨addresses, hchain, hlive, hafter⟩
  · rintro ⟨addresses, hchain, hlive, hafter⟩
    exact ⟨addresses, hchain, Nat.lt_succ_of_le hchain.length_le, hlive, hafter⟩

end HiFetch.LinkedHeap
