import HiFetch.Library.ByteRange

/-!
# The heap of a C program

The live blocks of `malloc` with their contents.  The allocator is the environment's: which address
it returns, or that it returns null, is an argument.  `Fresh` is the contract that every allocator
documents: a new block has an address of its own and shares no byte of the 64-bit address space
with a live block.  While the contract is met, the lengths of all live blocks add up to less than
`2 ^ 64`, so a sum of their sizes does not wrap around.
-/

namespace HiFetch.Allocator

open ByteRange

structure Block where
  address : ℕ
  bytes : List UInt8
deriving DecidableEq, Repr

def Block.range (block : Block) : ByteRange := ⟨block.address, block.bytes.length⟩

abbrev Live := List Block

/-- The documented contract of a non-null result of `malloc(size)`. -/
def Fresh (live : Live) (size address : ℕ) : Prop :=
  Within 1 (2 ^ 64) ⟨address, size⟩ ∧
    ∀ block ∈ live, block.address ≠ address ∧ Apart ⟨address, size⟩ block.range

/-- `malloc(size)` with the result and the contents that the environment chooses. -/
def malloc (live : Live) (size : ℕ) (contents : ℕ → UInt8) : Option ℕ → Live
  | none => live
  | some address => ⟨address, (List.range size).map contents⟩ :: live

def free (live : Live) (address : ℕ) : Live :=
  live.filter fun block ↦ decide (block.address ≠ address)

/-- The bytes of the live block at an address. -/
def read (live : Live) (address : ℕ) : List UInt8 :=
  ((live.find? fun block ↦ decide (block.address = address)).map Block.bytes).getD []

/-- The first bytes replaced by `data`; nothing is written behind the end. -/
def overwrite (bytes data : List UInt8) : List UInt8 :=
  data.take bytes.length ++ bytes.drop data.length

/-- Write to the start of the live block at an address. -/
def write (live : Live) (address : ℕ) (data : List UInt8) : Live :=
  live.map fun block ↦
    if block.address = address then { block with bytes := overwrite block.bytes data } else block

@[simp]
theorem length_overwrite (bytes data : List UInt8) :
    (overwrite bytes data).length = bytes.length := by
  simp only [overwrite, List.length_append, List.length_take, List.length_drop]
  omega

@[simp]
theorem length_write (live : Live) (address : ℕ) (data : List UInt8) :
    (write live address data).length = live.length :=
  List.length_map _

/-- Writing changes contents, but no address and no length. -/
@[simp]
theorem map_range_write (live : Live) (address : ℕ) (data : List UInt8) :
    (write live address data).map Block.range = live.map Block.range := by
  unfold write
  rw [List.map_map]
  apply List.map_congr_left
  intro block _
  by_cases haddress : block.address = address <;> simp [haddress, Block.range]

/-! ## Reading -/

theorem read_malloc_self (live : Live) (size : ℕ) (contents : ℕ → UInt8) (address : ℕ) :
    read (malloc live size contents (some address)) address = (List.range size).map contents := by
  simp [read, malloc]

theorem read_malloc_of_ne {address other : ℕ} (h : other ≠ address) (live : Live) (size : ℕ)
    (contents : ℕ → UInt8) :
    read (malloc live size contents (some other)) address = read live address := by
  simp [read, malloc, h]

/-- Freeing a block leaves the other blocks alone. -/
theorem read_free_of_ne {address other : ℕ} (h : other ≠ address) (live : Live) :
    read (free live other) address = read live address := by
  have hother : ∀ block : Block,
      (block.address ≠ other ∧ block.address = address) ↔ block.address = address := by
    intro block
    constructor
    · exact And.right
    · rintro rfl
      exact ⟨h.symm, rfl⟩
  unfold read free
  simp only [List.find?_filter, decide_eq_true_eq, hother]

theorem find?_write (live : Live) (written address : ℕ) (data : List UInt8) :
    (write live written data).find? (fun block ↦ decide (block.address = address)) =
      (live.find? fun block ↦ decide (block.address = address)).map fun block ↦
        if block.address = written then { block with bytes := overwrite block.bytes data }
        else block := by
  unfold write
  rw [List.find?_map]
  congr 2
  funext block
  by_cases hwritten : block.address = written <;> simp [hwritten]

theorem read_write_self (live : Live) (address : ℕ) (data : List UInt8) :
    read (write live address data) address = overwrite (read live address) data := by
  unfold read
  rw [find?_write]
  cases hfind : live.find? fun block ↦ decide (block.address = address) with
  | none => simp [overwrite]
  | some block =>
    have haddress : block.address = address := by simpa using List.find?_some hfind
    simp [haddress]

/-- Writing over a block from its start shows the data, as far as it fits. -/
theorem take_overwrite {bytes data : List UInt8} (h : data.length ≤ bytes.length) :
    (overwrite bytes data).take data.length = data := by
  unfold overwrite
  rw [List.take_of_length_le h, List.take_left]

/-- The live block at an address is the one that is read there. -/
theorem exists_block_of_mem {live : Live} {address : ℕ} (h : address ∈ live.map Block.address) :
    ∃ block ∈ live, block.address = address ∧ read live address = block.bytes := by
  cases hfind : live.find? fun block ↦ decide (block.address = address) with
  | none =>
    obtain ⟨block, hblock, haddress⟩ := List.mem_map.1 h
    exact absurd haddress (by simpa using List.find?_eq_none.1 hfind block hblock)
  | some block =>
    refine ⟨block, List.mem_of_find?_eq_some hfind, by simpa using List.find?_some hfind, ?_⟩
    rw [read, hfind, Option.map_some, Option.getD_some]

theorem notMem_free (live : Live) (address : ℕ) :
    address ∉ (free live address).map Block.address := by
  simp [free]

/-- The addresses and lengths of blocks that satisfy the contract of the allocator. -/
structure Valid (live : Live) : Prop where
  distinct : ((live.map Block.range).map ByteRange.start).Nodup
  apart : (live.map Block.range).Pairwise Apart
  inside : ∀ range ∈ live.map Block.range, range.Within 1 (2 ^ 64)

theorem valid_nil : Valid [] := ⟨by simp, by simp, by simp⟩

namespace Valid

variable {live : Live}

theorem malloc (h : Valid live) (size : ℕ) (contents : ℕ → UInt8) {result : Option ℕ}
    (hfresh : ∀ address ∈ result, Fresh live size address) :
    Valid (malloc live size contents result) := by
  cases result with
  | none => exact h
  | some address =>
    obtain ⟨hinside, hothers⟩ := hfresh address rfl
    have hrange : Block.range ⟨address, (List.range size).map contents⟩ = ⟨address, size⟩ := by
      simp [Block.range]
    refine ⟨?_, ?_, ?_⟩
    · simp only [Allocator.malloc, List.map_cons, List.nodup_cons, List.map_map]
      refine ⟨fun hmem ↦ ?_, by simpa using h.distinct⟩
      obtain ⟨block, hblock, heq⟩ := List.mem_map.1 hmem
      exact (hothers block hblock).1 heq
    · rw [Allocator.malloc, List.map_cons, hrange]
      refine List.pairwise_cons.2 ⟨fun range hmem ↦ ?_, h.apart⟩
      obtain ⟨block, hblock, rfl⟩ := List.mem_map.1 hmem
      exact (hothers block hblock).2
    · rw [Allocator.malloc, List.map_cons, hrange]
      intro range hmem
      rcases List.mem_cons.1 hmem with rfl | hmem
      · exact hinside
      · exact h.inside range hmem

theorem map_range_free (live : Live) (address : ℕ) :
    (Allocator.free live address).map Block.range =
      (live.map Block.range).filter fun range ↦ decide (range.start ≠ address) := by
  rw [Allocator.free, List.filter_map]
  rfl

theorem free (h : Valid live) (address : ℕ) : Valid (Allocator.free live address) := by
  have hsublist : ((Allocator.free live address).map Block.range).Sublist
      (live.map Block.range) := by
    rw [map_range_free]
    exact List.filter_sublist
  exact ⟨(hsublist.map _).nodup h.distinct, h.apart.sublist hsublist,
    fun range hmem ↦ h.inside range (hsublist.subset hmem)⟩

theorem write (h : Valid live) (address : ℕ) (data : List UInt8) :
    Valid (Allocator.write live address data) := by
  have hmap := map_range_write live address data
  exact ⟨hmap ▸ h.distinct, hmap ▸ h.apart, hmap ▸ h.inside⟩

/-- A live block is read at its address. -/
theorem read_eq (h : Valid live) {block : Block} (hblock : block ∈ live) :
    read live block.address = block.bytes := by
  obtain ⟨other, hother, haddress, hread⟩ :=
    exists_block_of_mem (List.mem_map_of_mem (f := Block.address) hblock)
  have hdistinct : (live.map Block.address).Nodup := by
    have hmap := h.distinct
    rwa [List.map_map] at hmap
  rw [hread, List.inj_on_of_nodup_map hdistinct hother hblock haddress]

/-- The live blocks fit into the address space. -/
theorem total_lt (h : Valid live) : total (live.map Block.range) < 2 ^ 64 := by
  have hle := total_le h.apart h.inside
  omega

end Valid

end HiFetch.Allocator
