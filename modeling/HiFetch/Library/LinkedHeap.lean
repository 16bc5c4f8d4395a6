import Mathlib.Data.List.Basic
import Mathlib.Data.List.Nodup
import Mathlib.Data.List.Perm.Subperm
import Mathlib.Data.List.Range

/-!
# Singly linked lists in a heap of cells

Cells are addressed in the order of their allocation, and a cell is never given back.  A link is
a nullable address.  `Chain heap link addresses` says that following the links from `link` visits
exactly `addresses` and then meets the null link, so a chain is finite by definition and has no
cycle.

`find` is the search loop `while (*current) { ...; current = &(*current)->next; }`.  It returns
where the hit was found: the cell in front of it, or `none` when the head of the list points to it.
`relink` writes that place.  A heap may hold cycles; the loop then need not end, which `find`
reports as `endless`.
-/

namespace HiFetch.LinkedHeap

/-- A cell with one link field that can be read and overwritten. -/
class Linked (Cell : Type*) where
  next : Cell → Option ℕ
  setNext : Cell → Option ℕ → Cell
  next_setNext : ∀ cell link, next (setNext cell link) = link

attribute [simp] Linked.next_setNext

open Linked

abbrev Heap (Cell : Type*) := List Cell

variable {Cell : Type*} [Linked Cell]

/-- The links from `link` visit exactly these addresses, in this order, and end in null. -/
def Chain (heap : Heap Cell) : Option ℕ → List ℕ → Prop
  | link, [] => link = none
  | link, address :: rest =>
      link = some address ∧ ∃ cell, heap[address]? = some cell ∧ Chain heap (next cell) rest

@[simp]
theorem chain_nil (heap : Heap Cell) (link : Option ℕ) : Chain heap link [] ↔ link = none := Iff.rfl

@[simp]
theorem chain_cons (heap : Heap Cell) (link : Option ℕ) (address : ℕ) (rest : List ℕ) :
    Chain heap link (address :: rest) ↔
      link = some address ∧ ∃ cell, heap[address]? = some cell ∧ Chain heap (next cell) rest :=
  Iff.rfl

theorem Chain.lt_length {heap : Heap Cell} {link : Option ℕ} {addresses : List ℕ}
    (h : Chain heap link addresses) : ∀ address ∈ addresses, address < heap.length := by
  induction addresses generalizing link with
  | nil => simp
  | cons head rest ih =>
    obtain ⟨-, cell, hcell, hrest⟩ := h
    intro address hmem
    rcases List.mem_cons.1 hmem with rfl | hmem
    · exact (List.getElem?_eq_some_iff.1 hcell).1
    · exact ih hrest address hmem

/-- A link determines its chain. -/
theorem Chain.unique {heap : Heap Cell} {link : Option ℕ} {first second : List ℕ}
    (hfirst : Chain heap link first) (hsecond : Chain heap link second) : first = second := by
  induction first generalizing link second with
  | nil =>
    cases second with
    | nil => rfl
    | cons head rest => simp_all
  | cons head rest ih =>
    cases second with
    | nil => simp_all
    | cons other tail =>
      obtain ⟨hlink, cell, hcell, hrest⟩ := hfirst
      obtain ⟨hlink', cell', hcell', htail⟩ := hsecond
      obtain rfl : head = other := Option.some.inj (hlink.symm.trans hlink')
      obtain rfl : cell = cell' := Option.some.inj (hcell.symm.trans hcell')
      rw [ih hrest htail]

/-- Any tail of a chain is the chain of some link; a tail that starts with a cell is the chain of
that cell's address. -/
theorem Chain.suffix {heap : Heap Cell} {link : Option ℕ} {before rest : List ℕ} {address : ℕ}
    (h : Chain heap link (before ++ address :: rest)) :
    Chain heap (some address) (address :: rest) := by
  induction before generalizing link with
  | nil => exact ⟨rfl, h.2⟩
  | cons head before ih =>
    obtain ⟨-, cell, -, hrest⟩ := h
    exact ih hrest

/-- The chain behind a cell. -/
theorem Chain.behind {heap : Heap Cell} {link : Option ℕ} {before rest : List ℕ} {address : ℕ}
    {cell : Cell} (h : Chain heap link (before ++ address :: rest))
    (hcell : heap[address]? = some cell) : Chain heap (next cell) rest := by
  obtain ⟨-, other, hother, hrest⟩ := h.suffix
  obtain rfl : other = cell := Option.some.inj (hother.symm.trans hcell)
  exact hrest

/-- A chain visits no address twice: a second visit would start the same chain again, which is
longer than itself. -/
theorem Chain.nodup {heap : Heap Cell} {link : Option ℕ} {addresses : List ℕ}
    (h : Chain heap link addresses) : addresses.Nodup := by
  induction addresses generalizing link with
  | nil => exact List.nodup_nil
  | cons head rest ih =>
    obtain ⟨rfl, cell, hcell, hrest⟩ := h
    refine List.nodup_cons.2 ⟨fun hmem ↦ ?_, ih hrest⟩
    obtain ⟨before, after, rfl⟩ := List.append_of_mem hmem
    have hwhole : Chain heap (some head) (head :: (before ++ head :: after)) :=
      ⟨rfl, cell, hcell, hrest⟩
    have hlength := congrArg List.length (hwhole.unique hrest.suffix)
    simp only [List.length_cons, List.length_append] at hlength
    omega

theorem Chain.notMem_others {heap : Heap Cell} {link : Option ℕ} {before rest : List ℕ}
    {address : ℕ} (h : Chain heap link (before ++ address :: rest)) : address ∉ before ++ rest :=
  (List.nodup_cons.1 (List.nodup_middle.1 h.nodup)).1

theorem Chain.before_notMem_rest {heap : Heap Cell} {link : Option ℕ} {before rest : List ℕ}
    {address : ℕ} (h : Chain heap link (before ++ address :: rest)) :
    ∀ other ∈ before, other ∉ rest :=
  fun other hother hrest ↦ (List.nodup_append.1 h.nodup).2.2 other hother other
    (List.mem_cons_of_mem _ hrest) rfl

theorem Chain.length_le {heap : Heap Cell} {link : Option ℕ} {addresses : List ℕ}
    (h : Chain heap link addresses) : addresses.length ≤ heap.length := by
  have hsubset : addresses ⊆ List.range heap.length := fun address hmem ↦
    List.mem_range.2 (h.lt_length address hmem)
  simpa using (List.subperm_of_subset h.nodup hsubset).length_le

/-! ## Frame -/

/-- Writing a cell outside the chain leaves the chain as it is. -/
theorem Chain.modify {heap : Heap Cell} {link : Option ℕ} {addresses : List ℕ} {written : ℕ}
    (h : Chain heap link addresses) (hwritten : written ∉ addresses) (write : Cell → Cell) :
    Chain (heap.modify written write) link addresses := by
  induction addresses generalizing link with
  | nil => exact h
  | cons head rest ih =>
    obtain ⟨hlink, cell, hcell, hrest⟩ := h
    obtain ⟨hne, hnotMem⟩ := not_or.1 (mt List.mem_cons.2 hwritten)
    refine ⟨hlink, cell, ?_, ih hrest hnotMem⟩
    simp [hne, hcell]

/-- Writing that leaves the link fields as they are leaves every chain as it is. -/
theorem Chain.modify_of_next {heap : Heap Cell} {link : Option ℕ} {addresses : List ℕ}
    (h : Chain heap link addresses) (written : ℕ) {write : Cell → Cell}
    (hnext : ∀ cell, next (write cell) = next cell) :
    Chain (heap.modify written write) link addresses := by
  induction addresses generalizing link with
  | nil => exact h
  | cons head rest ih =>
    obtain ⟨hlink, cell, hcell, hrest⟩ := h
    by_cases hhead : written = head
    · subst hhead
      refine ⟨hlink, write cell, by rw [List.getElem?_modify_eq, hcell]; rfl, ?_⟩
      rw [hnext]
      exact ih hrest
    · exact ⟨hlink, cell, by simp [hhead, hcell], ih hrest⟩

/-- Rewriting a cell of a chain changes only what comes behind it, so another chain from the same
link still meets the cell. -/
theorem Chain.mem_of_modify {heap : Heap Cell} {link : Option ℕ} {front rest others : List ℕ}
    {address : ℕ} {write : Cell → Cell} (h : Chain heap link (front ++ address :: rest))
    (hothers : Chain (heap.modify address write) link others) : address ∈ others := by
  induction front generalizing link others with
  | nil =>
    obtain ⟨rfl, -⟩ := h
    cases others with
    | nil => simp at hothers
    | cons head tail =>
      obtain rfl := Option.some.inj hothers.1
      exact List.mem_cons_self
  | cons first front ih =>
    have hne : address ≠ first := by
      rintro rfl
      exact (List.nodup_cons.1 h.nodup).1 (by simp)
    obtain ⟨rfl, cell, hcell, hrest⟩ := h
    cases others with
    | nil => simp at hothers
    | cons head tail =>
      obtain ⟨hlink, other, hother, htail⟩ := hothers
      obtain rfl := Option.some.inj hlink
      obtain rfl : cell = other := by simpa [hne, hcell] using hother
      exact List.mem_cons_of_mem _ (ih hrest htail)

/-- Allocating a cell leaves every chain as it is. -/
theorem Chain.alloc {heap : Heap Cell} {link : Option ℕ} {addresses : List ℕ}
    (h : Chain heap link addresses) (fresh : Cell) :
    Chain (heap ++ [fresh]) link addresses := by
  induction addresses generalizing link with
  | nil => exact h
  | cons head rest ih =>
    obtain ⟨hlink, cell, hcell, hrest⟩ := h
    refine ⟨hlink, cell, ?_, ih hrest⟩
    rw [List.getElem?_append_left (List.getElem?_eq_some_iff.1 hcell).1, hcell]

/-- Pushing a cell outside the chain to its front. -/
theorem Chain.push {heap : Heap Cell} {link : Option ℕ} {addresses : List ℕ} {address : ℕ}
    {cell : Cell} (h : Chain heap link addresses) (hcell : heap[address]? = some cell)
    (hnext : next cell = link) : Chain heap (some address) (address :: addresses) :=
  ⟨rfl, cell, hcell, hnext ▸ h⟩

/-! ## The search loop -/

/-- What the search loop finds: it never ends (or follows a dangling link), it meets null, or it
stops at a cell, with the cell in front of it. -/
inductive Found (Cell : Type*) where
  | endless
  | absent
  | hit (before : Option ℕ) (address : ℕ) (cell : Cell)

/-- The loop, with the number of iterations it may still take. -/
def search (heap : Heap Cell) (test : Cell → Bool) : ℕ → Option ℕ → Option ℕ → Found Cell
  | 0, _, _ => .endless
  | _ + 1, _, none => .absent
  | fuel + 1, before, some address =>
      match heap[address]? with
      | none => .endless
      | some cell =>
          if test cell then .hit before address cell
          else search heap test fuel (some address) (next cell)

/-- The search loop from a list head.  A loop that visits more cells than the heap holds repeats
one of them, and then never ends. -/
def find (heap : Heap Cell) (test : Cell → Bool) (head : Option ℕ) : Found Cell :=
  search heap test (heap.length + 1) none head

/-- No cell at these addresses passes the test. -/
def NoneHit (heap : Heap Cell) (test : Cell → Bool) (addresses : List ℕ) : Prop :=
  ∀ address ∈ addresses, ∀ cell, heap[address]? = some cell → test cell = false

theorem search_cases {heap : Heap Cell} {link : Option ℕ} {addresses : List ℕ} {fuel : ℕ}
    (test : Cell → Bool) (before : Option ℕ) (h : Chain heap link addresses)
    (hfuel : addresses.length < fuel) :
    (search heap test fuel before link = .absent ∧ NoneHit heap test addresses) ∨
      ∃ front address rest cell, addresses = front ++ address :: rest ∧
        search heap test fuel before link = .hit (front.getLast?.or before) address cell ∧
        heap[address]? = some cell ∧ test cell = true ∧ NoneHit heap test front := by
  induction addresses generalizing link fuel before with
  | nil =>
    cases fuel with
    | zero => omega
    | succ fuel =>
      obtain rfl : link = none := h
      exact .inl ⟨rfl, by simp [NoneHit]⟩
  | cons head rest ih =>
    cases fuel with
    | zero => omega
    | succ fuel =>
      obtain ⟨rfl, cell, hcell, hrest⟩ := h
      cases htest : test cell with
      | true => exact .inr ⟨[], head, rest, cell, by simp [search, hcell, htest, NoneHit]⟩
      | false =>
        have hnoneHead : ∀ other, heap[head]? = some other → test other = false := by
          intro other hother
          rw [← Option.some.inj (hcell.symm.trans hother), htest]
        have hstep : search heap test (fuel + 1) before (some head) =
            search heap test fuel (some head) (next cell) := by
          simp [search, hcell, htest]
        rw [hstep]
        rcases ih (some head) hrest (by simpa using hfuel) with
          ⟨habsent, hnone⟩ | ⟨front, address, tail, found, rfl, hfound, hcell', hpass, hnone⟩
        · refine .inl ⟨habsent, fun address hmem ↦ ?_⟩
          rcases List.mem_cons.1 hmem with rfl | hmem
          · exact hnoneHead
          · exact hnone address hmem
        · refine .inr ⟨head :: front, address, tail, found, rfl, ?_, hcell', hpass, ?_⟩
          · rw [hfound]
            cases front with
            | nil => rfl
            | cons first others =>
              rw [List.getLast?_cons_cons, List.getLast?_eq_some_getLast (List.cons_ne_nil _ _)]
              rfl
          · intro other hmem
            rcases List.mem_cons.1 hmem with rfl | hmem
            · exact hnoneHead
            · exact hnone other hmem

/-- On a chain the search loop ends: it meets null and no cell passes, or it stops at the first
cell that passes. -/
theorem find_cases {heap : Heap Cell} {head : Option ℕ} {addresses : List ℕ}
    (test : Cell → Bool) (h : Chain heap head addresses) :
    (find heap test head = .absent ∧ NoneHit heap test addresses) ∨
      ∃ front address rest cell, addresses = front ++ address :: rest ∧
        find heap test head = .hit front.getLast? address cell ∧
        heap[address]? = some cell ∧ test cell = true ∧ NoneHit heap test front := by
  simpa [find] using search_cases test none h (Nat.lt_succ_of_le h.length_le)

/-! What a search that ended says about any heap, whether its lists end or not. -/

theorem search_hit {heap : Heap Cell} {test : Cell → Bool} {fuel address : ℕ}
    {before link before' : Option ℕ} {cell : Cell}
    (h : search heap test fuel before link = .hit before' address cell) :
    heap[address]? = some cell ∧ test cell = true := by
  induction fuel generalizing before link with
  | zero => simp [search] at h
  | succ fuel ih =>
    cases link with
    | none => simp [search] at h
    | some head =>
      cases hcell : heap[head]? with
      | none => simp [search, hcell] at h
      | some first =>
        cases htest : test first with
        | true =>
          simp only [search, hcell, htest, if_true, Found.hit.injEq] at h
          obtain ⟨-, rfl, rfl⟩ := h
          exact ⟨hcell, htest⟩
        | false =>
          simp only [search, hcell, htest] at h
          exact ih h

theorem search_absent {heap : Heap Cell} {test : Cell → Bool} {fuel : ℕ} {before link : Option ℕ}
    (h : search heap test fuel before link = .absent) :
    ∃ addresses, Chain heap link addresses ∧ NoneHit heap test addresses := by
  induction fuel generalizing before link with
  | zero => simp [search] at h
  | succ fuel ih =>
    cases link with
    | none => exact ⟨[], rfl, by simp [NoneHit]⟩
    | some head =>
      cases hcell : heap[head]? with
      | none => simp [search, hcell] at h
      | some first =>
        cases htest : test first with
        | true => simp [search, hcell, htest] at h
        | false =>
          simp only [search, hcell, htest] at h
          obtain ⟨rest, hchain, hnone⟩ := ih h
          refine ⟨head :: rest, ⟨rfl, first, hcell, hchain⟩, ?_⟩
          intro address hmem cell haddress
          rcases List.mem_cons.1 hmem with rfl | hmem
          · rw [← Option.some.inj (hcell.symm.trans haddress), htest]
          · exact hnone address hmem cell haddress

/-- A search that meets null has walked over a list that ends, without a cell that passes. -/
theorem find_absent {heap : Heap Cell} {test : Cell → Bool} {head : Option ℕ}
    (h : find heap test head = .absent) :
    ∃ addresses, Chain heap head addresses ∧ NoneHit heap test addresses :=
  search_absent h

/-- The loop stops at a cell that passes when none in front of it does. -/
theorem find_hit {heap : Heap Cell} {head : Option ℕ} {front rest : List ℕ} {address : ℕ}
    {cell : Cell} {test : Cell → Bool} (h : Chain heap head (front ++ address :: rest))
    (hcell : heap[address]? = some cell) (hpass : test cell = true)
    (hnone : NoneHit heap test front) :
    find heap test head = .hit front.getLast? address cell := by
  rcases find_cases test h with
    ⟨-, habsent⟩ | ⟨front', address', rest', cell', heq, hfind, hcell', hpass', hnone'⟩
  · simp [habsent address (by simp) cell hcell] at hpass
  · have hfront : front = front' := by
      rcases List.append_eq_append_iff.1 heq with ⟨more, rfl, hmore⟩ | ⟨more, rfl, hmore⟩
      · cases more with
        | nil => simp
        | cons head more =>
          obtain ⟨rfl, -⟩ := List.cons.inj hmore
          simp [hnone' address (by simp) cell hcell] at hpass
      · cases more with
        | nil => simp
        | cons head more =>
          obtain ⟨rfl, -⟩ := List.cons.inj hmore
          simp [hnone address' (by simp) cell' hcell'] at hpass'
    subst hfront
    obtain ⟨rfl, -⟩ := List.cons.inj (List.append_cancel_left heq)
    obtain rfl : cell = cell' := Option.some.inj (hcell.symm.trans hcell')
    exact hfind

/-! ## Writing the link in front of a cell -/

/-- Write `target` to the link that the search returned: the list head, or the link field of the
cell in front. -/
def relink (heap : Heap Cell) (head before target : Option ℕ) : Heap Cell × Option ℕ :=
  match before with
  | none => (heap, target)
  | some address => (heap.modify address (setNext · target), head)

@[simp]
theorem relink_length (heap : Heap Cell) (head before target : Option ℕ) :
    (relink heap head before target).1.length = heap.length := by
  cases before <;> simp [relink]

/-- A property of cells that the link field does not affect is kept by `relink`. -/
theorem relink_map {α : Type*} (view : Cell → α)
    (hview : ∀ cell link, view (setNext cell link) = view cell)
    (heap : Heap Cell) (head before target : Option ℕ) :
    (relink heap head before target).1.map view = heap.map view := by
  cases before with
  | none => rfl
  | some address =>
    apply List.ext_getElem?
    intro index
    simp only [relink, List.getElem?_map, List.getElem?_modify]
    cases heap[index]? <;> by_cases hindex : address = index <;> simp [hindex, hview]

/-- Outside the cell in front, `relink` writes nothing. -/
theorem relink_getElem? {heap : Heap Cell} {head before target : Option ℕ} {address : ℕ}
    (hne : before ≠ some address) :
    (relink heap head before target).1[address]? = heap[address]? := by
  cases before with
  | none => rfl
  | some other =>
    have hother : other ≠ address := fun heq ↦ hne (congrArg some heq)
    simp [relink, hother]

theorem Chain.relink_frame {heap : Heap Cell} {link : Option ℕ} {addresses front : List ℕ}
    (h : Chain heap link addresses) (head target : Option ℕ)
    (hdisjoint : ∀ address ∈ front, address ∉ addresses) :
    Chain (relink heap head front.getLast? target).1 link addresses := by
  cases hlast : front.getLast? with
  | none => exact h
  | some last => exact h.modify (hdisjoint last (List.mem_of_getLast? hlast)) _

/-- Replacing the tail of a chain behind `front` by another chain that shares no cell with
`front`. -/
theorem Chain.relink {heap : Heap Cell} {head target : Option ℕ} {front old new : List ℕ}
    (h : Chain heap head (front ++ old)) (htarget : Chain heap target new)
    (hdisjoint : ∀ address ∈ front, address ∉ new) :
    Chain (relink heap head front.getLast? target).1 (relink heap head front.getLast? target).2
      (front ++ new) := by
  induction front generalizing head with
  | nil => exact htarget
  | cons first front ih =>
    have hfirstNot : first ∉ front ++ old := (List.nodup_cons.1 h.nodup).1
    obtain ⟨rfl, cell, hcell, hrest⟩ := h
    cases front with
    | nil =>
      refine ⟨rfl, setNext cell target, by simp [LinkedHeap.relink, hcell], ?_⟩
      rw [next_setNext]
      exact htarget.modify (hdisjoint first List.mem_cons_self) _
    | cons second others =>
      have htail := ih hrest fun address hmem ↦ hdisjoint address (List.mem_cons_of_mem _ hmem)
      rw [List.getLast?_cons_cons]
      have hlast : (second :: others).getLast? ≠ some first := by
        intro heq
        exact hfirstNot (List.mem_append_left _ (List.mem_of_getLast? heq))
      refine ⟨?_, cell, (relink_getElem? hlast).trans hcell, ?_⟩
      · cases hbefore : (second :: others).getLast? with
        | none => simp at hbefore
        | some last => rfl
      · cases hbefore : (second :: others).getLast? with
        | none => simp at hbefore
        | some last => simpa [LinkedHeap.relink, hbefore] using htail

end HiFetch.LinkedHeap
