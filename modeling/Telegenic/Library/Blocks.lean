import Mathlib.Tactic
import Telegenic.Library.Checked

/-! Blocks of one size laid out in a buffer. Block `k` starts at `k * size`,
is at most `size` long and is cut at the end of the buffer. Blocks at distinct
positions never overlap, so when their lengths add up to the end of the last
one they leave no gap. -/

set_option autoImplicit false

namespace Telegenic.Library.Blocks

variable {Byte : Type}

/-- A position in the layout and the bytes offered for it. -/
abbrev Block (Byte : Type) := Nat × List Byte

section Definitions

variable (capacity size : Nat)

def offset (block : Block Byte) : Nat := block.1 * size

/-- How many bytes of the block fit the buffer. -/
def placedLength (block : Block Byte) : Nat := min block.2.length (capacity - offset size block)

def blockEnd (block : Block Byte) : Nat := offset size block + placedLength capacity size block

/-- How many bytes the blocks hold together. -/
def total (blocks : List (Block Byte)) : Nat := (blocks.map (placedLength capacity size)).sum

/-- The end of the block that reaches furthest. -/
def extent (blocks : List (Block Byte)) : Nat :=
  blocks.foldl (fun furthest block => max furthest (blockEnd capacity size block)) 0

/-- The buffer positions the blocks fill, block after block. -/
def covered (blocks : List (Block Byte)) : List Nat :=
  blocks.flatMap fun block => List.range' (offset size block) (placedLength capacity size block)

/-- Blocks that can be laid out: distinct positions inside the buffer, none
longer than the block size. -/
structure LaidOut (blocks : List (Block Byte)) : Prop where
  distinct : (blocks.map Prod.fst).Nodup
  short : ∀ block ∈ blocks, block.2.length ≤ size
  inside : ∀ block ∈ blocks, offset size block ≤ capacity

/-- The buffer holds the bytes of every block at the block's place. -/
def Stored (blocks : List (Block Byte)) (buffer : List Byte) : Prop :=
  ∀ block ∈ blocks, ∀ index < placedLength capacity size block,
    buffer[offset size block + index]? = block.2[index]?

end Definitions

variable {capacity size : Nat} {blocks : List (Block Byte)} {block other : Block Byte}

@[simp] theorem total_nil : total capacity size ([] : List (Block Byte)) = 0 := rfl

@[simp] theorem extent_nil : extent capacity size ([] : List (Block Byte)) = 0 := rfl

@[simp] theorem total_snoc :
    total capacity size (blocks ++ [block]) =
      total capacity size blocks + placedLength capacity size block := by
  simp [total]

@[simp] theorem extent_snoc :
    extent capacity size (blocks ++ [block]) =
      max (extent capacity size blocks) (blockEnd capacity size block) := by
  simp [extent]

theorem placedLength_le : placedLength capacity size block ≤ block.2.length :=
  Nat.min_le_left _ _

theorem blockEnd_le (inside : offset size block ≤ capacity) : blockEnd capacity size block ≤ capacity := by
  simp only [blockEnd, placedLength]
  omega

/-- Bytes of blocks at different positions lie apart: the one further back
ends before the other begins. -/
theorem blockEnd_le_offset (capacity : Nat) (short : block.2.length ≤ size) (before : block.1 < other.1) :
    blockEnd capacity size block ≤ offset size other := by
  have next : (block.1 + 1) * size ≤ other.1 * size := Nat.mul_le_mul_right size before
  have placed : placedLength capacity size block ≤ size := placedLength_le.trans short
  simp only [blockEnd, offset] at *
  rw [Nat.add_mul, Nat.one_mul] at next
  omega

theorem mem_covered {position : Nat} :
    position ∈ covered capacity size blocks ↔
      ∃ block ∈ blocks, offset size block ≤ position ∧ position < blockEnd capacity size block := by
  simp [covered, blockEnd, List.mem_range'_1]

theorem covered_length : (covered capacity size blocks).length = total capacity size blocks := by
  simp [covered, total, List.length_flatMap]

namespace LaidOut

/-- A position filled by a block determines the block's place. -/
theorem position_unique (laidOut : LaidOut capacity size blocks) (present : block ∈ blocks)
    (otherPresent : other ∈ blocks) (position : Nat)
    (above : offset size block ≤ position) (below : position < blockEnd capacity size block)
    (otherAbove : offset size other ≤ position) (otherBelow : position < blockEnd capacity size other) :
    block.1 = other.1 := by
  rcases Nat.lt_trichotomy block.1 other.1 with before | same | after
  · have apart := blockEnd_le_offset capacity (laidOut.short block present) before
    omega
  · exact same
  · have apart := blockEnd_le_offset capacity (laidOut.short other otherPresent) after
    omega

theorem covered_nodup (laidOut : LaidOut capacity size blocks) : (covered capacity size blocks).Nodup := by
  rw [covered, List.nodup_flatMap]
  refine ⟨fun block _ => List.nodup_range' , ?_⟩
  refine (List.pairwise_map.mp laidOut.distinct).imp_of_mem ?_
  intro block other present otherPresent apart position inBlock inOther
  simp only [List.mem_range'_1] at inBlock inOther
  exact apart (laidOut.position_unique present otherPresent position inBlock.1 inBlock.2 inOther.1 inOther.2)

end LaidOut

theorem blockEnd_le_extent (present : block ∈ blocks) :
    blockEnd capacity size block ≤ extent capacity size blocks := by
  induction blocks using List.reverseRecOn with
  | nil => cases present
  | append_singleton front last ih =>
    rw [extent_snoc]
    rcases List.mem_append.mp present with inFront | isLast
    · exact (ih inFront).trans (Nat.le_max_left _ _)
    · rw [List.mem_singleton.mp isLast]
      exact Nat.le_max_right _ _

theorem extent_le {bound : Nat} (ends : ∀ block ∈ blocks, blockEnd capacity size block ≤ bound) :
    extent capacity size blocks ≤ bound := by
  induction blocks using List.reverseRecOn with
  | nil => exact Nat.zero_le _
  | append_singleton front last ih =>
    rw [extent_snoc]
    exact max_le (ih fun block present => ends block (List.mem_append_left _ present))
      (ends last (List.mem_append_right _ List.mem_cons_self))

theorem covered_subset_range :
    covered capacity size blocks ⊆ List.range (extent capacity size blocks) := by
  intro position filled
  obtain ⟨block, present, _, below⟩ := mem_covered.mp filled
  exact List.mem_range.mpr (below.trans_le (blockEnd_le_extent present))

namespace LaidOut

theorem subperm_range (laidOut : LaidOut capacity size blocks) :
    (covered capacity size blocks).Subperm (List.range (extent capacity size blocks)) :=
  List.subperm_of_subset laidOut.covered_nodup covered_subset_range

theorem total_le_extent (laidOut : LaidOut capacity size blocks) :
    total capacity size blocks ≤ extent capacity size blocks := by
  have bound := laidOut.subperm_range.length_le
  rwa [covered_length, List.length_range] at bound

theorem extent_le_capacity (laidOut : LaidOut capacity size blocks) :
    extent capacity size blocks ≤ capacity :=
  extent_le fun block present => blockEnd_le (laidOut.inside block present)

/-- Blocks whose lengths add up to the extent leave no position unfilled. -/
theorem filled_of_total_eq_extent (laidOut : LaidOut capacity size blocks)
    (full : total capacity size blocks = extent capacity size blocks) {position : Nat}
    (below : position < extent capacity size blocks) :
    ∃ block ∈ blocks, offset size block ≤ position ∧ position < blockEnd capacity size block := by
  have same : (covered capacity size blocks).Perm (List.range (extent capacity size blocks)) :=
    laidOut.subperm_range.perm_of_length_le (by rw [covered_length, List.length_range, full])
  exact mem_covered.mp (same.mem_iff.mpr (List.mem_range.mpr below))

end LaidOut

theorem total_perm {others : List (Block Byte)} (same : blocks.Perm others) :
    total capacity size blocks = total capacity size others :=
  (same.map _).sum_eq

theorem extent_perm {others : List (Block Byte)} (same : blocks.Perm others) :
    extent capacity size blocks = extent capacity size others := by
  refine same.foldl_eq' ?_ 0
  intro block _ other _ furthest
  omega

theorem LaidOut.perm {others : List (Block Byte)} (laidOut : LaidOut capacity size blocks)
    (same : blocks.Perm others) : LaidOut capacity size others :=
  ⟨(same.map Prod.fst).nodup_iff.mp laidOut.distinct,
    fun block present => laidOut.short block (same.mem_iff.mpr present),
    fun block present => laidOut.inside block (same.mem_iff.mpr present)⟩

theorem Stored.perm {others : List (Block Byte)} {buffer : List Byte}
    (stored : Stored capacity size blocks buffer) (same : blocks.Perm others) :
    Stored capacity size others buffer :=
  fun block present => stored block (same.mem_iff.mpr present)

/-- Writing one more block at its place keeps the bytes of the others. -/
theorem Stored.write {buffer : List Byte} (stored : Stored capacity size blocks buffer)
    (sized : buffer.length = capacity) (laidOut : LaidOut capacity size (blocks ++ [block])) :
    Stored capacity size (blocks ++ [block])
      (overwrite buffer (offset size block) (block.2.take (placedLength capacity size block))) := by
  have cut : (block.2.take (placedLength capacity size block)).length = placedLength capacity size block := by
    simp [placedLength_le]
  have fits : offset size block + (block.2.take (placedLength capacity size block)).length ≤ buffer.length := by
    rw [cut, sized]
    exact blockEnd_le (laidOut.inside block (by simp))
  intro target present index inside
  rcases List.mem_append.mp present with old | new
  · rw [getElem?_overwrite_outside fits ?_, stored target old index inside]
    -- A filled position shared with the new block would make their places equal.
    by_contra overlap
    rw [cut] at overlap
    have samePlace := laidOut.position_unique present
      (List.mem_append_right blocks (List.mem_singleton_self block)) (offset size target + index)
      (by omega) (by simp only [blockEnd]; omega) (by omega) (by simp only [blockEnd]; omega)
    have apart := List.nodup_append.mp (by simpa using laidOut.distinct : (blocks.map Prod.fst ++ [block.1]).Nodup)
    exact apart.2.2 target.1 (List.mem_map_of_mem old) block.1 (by simp) samePlace
  · rw [List.mem_singleton.mp new] at inside ⊢
    rw [getElem?_overwrite_inside fits (by rw [cut]; exact inside), List.getElem?_take_of_lt inside]

end Telegenic.Library.Blocks
