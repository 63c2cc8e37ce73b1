import Mathlib.Data.List.Chain

/-!
# Block lists of a contiguous allocator

An allocator that keeps its bookkeeping in the region it manages sees it as a list of blocks, each
with `overhead` bytes besides its payload. Carving a block, releasing one and joining free
neighbours keep the blocks tiling the region.
-/

namespace CupidOs.Allocator

open List

/-- One block: where it starts, its payload size and whether it is free. -/
structure Block where
  address : Nat
  size : Nat
  free : Bool
  deriving DecidableEq, Repr

/-- The blocks lie back to back from `start` to `stop`. -/
def Tiles (overhead : Nat) : Nat → List Block → Nat → Prop
  | start, [], stop => start = stop
  | start, block :: rest, stop =>
    block.address = start ∧ Tiles overhead (start + overhead + block.size) rest stop

instance decidableTiles (overhead : Nat) :
    (start : Nat) → (blocks : List Block) → (stop : Nat) →
      Decidable (Tiles overhead start blocks stop)
  | start, [], stop => inferInstanceAs (Decidable (start = stop))
  | start, block :: rest, stop =>
    have := decidableTiles overhead (start + overhead + block.size) rest stop
    inferInstanceAs (Decidable (block.address = start ∧ _))

/-- No two neighbouring blocks are both free. -/
def Coalesced (blocks : List Block) : Prop :=
  blocks.IsChain fun left right => ¬(left.free = true ∧ right.free = true)

instance (blocks : List Block) : Decidable (Coalesced blocks) :=
  inferInstanceAs (Decidable (blocks.IsChain _))

/-- Use a block for `needed` bytes; a rest of at least `minSplit` bytes becomes a free block. -/
def carve (overhead minSplit needed : Nat) (block : Block) : List Block :=
  if needed + minSplit ≤ block.size then
    [{ block with size := needed, free := false },
      ⟨block.address + overhead + needed, block.size - needed - overhead, true⟩]
  else
    [{ block with free := false }]

/-- Join two neighbouring blocks. -/
def join (overhead : Nat) (left right : Block) : Block :=
  { left with size := left.size + overhead + right.size }

/-- Join every free block with the free blocks that follow it, starting with
`current`. -/
def coalesceFrom (overhead : Nat) (current : Block) : List Block → List Block
  | [] => [current]
  | next :: rest =>
    if current.free && next.free then
      coalesceFrom overhead (join overhead current next) rest
    else
      current :: coalesceFrom overhead next rest

variable {overhead : Nat}

namespace Tiles

variable {stop start : Nat}

lemma append_iff {left right : List Block} :
    Tiles overhead start (left ++ right) stop ↔
      ∃ middle, Tiles overhead start left middle ∧ Tiles overhead middle right stop := by
  induction left generalizing start with
  | nil =>
    constructor
    · exact fun tiles => ⟨start, rfl, tiles⟩
    · rintro ⟨middle, rfl, tiles⟩
      exact tiles
  | cons block rest ih =>
    constructor
    · rintro ⟨addressEq, tiles⟩
      rcases ih.mp tiles with ⟨middle, first, second⟩
      exact ⟨middle, ⟨addressEq, first⟩, second⟩
    · rintro ⟨middle, ⟨addressEq, first⟩, second⟩
      exact ⟨addressEq, ih.mpr ⟨middle, first, second⟩⟩

section

variable {blocks : List Block} {block : Block} (tiles : Tiles overhead start blocks stop)
include tiles

lemma le : start ≤ stop := by
  induction blocks generalizing start with
  | nil => exact le_of_eq tiles
  | cons block rest ih =>
    have := ih tiles.2
    omega

lemma length_le : start + blocks.length * overhead ≤ stop := by
  induction blocks generalizing start with
  | nil =>
    have : start = stop := tiles
    simp [this]
  | cons block rest ih =>
    have := ih tiles.2
    rw [length_cons, Nat.succ_mul]
    omega

lemma mem_bounds (member : block ∈ blocks) :
    start ≤ block.address ∧ block.address + overhead + block.size ≤ stop := by
  induction blocks generalizing start with
  | nil => cases member
  | cons first rest ih =>
    rcases mem_cons.mp member with rfl | later
    · have := tiles.2.le
      have := tiles.1
      omega
    · have := ih tiles.2 later
      omega

/-- Two blocks of a tiling are the same block or lie apart. -/
theorem eq_or_disjoint {left right : Block} (leftMember : left ∈ blocks)
    (rightMember : right ∈ blocks) :
    left = right ∨ left.address + overhead + left.size ≤ right.address ∨
      right.address + overhead + right.size ≤ left.address := by
  induction blocks generalizing start with
  | nil => cases leftMember
  | cons block rest ih =>
    rcases mem_cons.mp leftMember with rfl | leftLater
    · rcases mem_cons.mp rightMember with rfl | rightLater
      · exact Or.inl rfl
      · have := (tiles.2.mem_bounds rightLater).1
        have := tiles.1
        omega
    · rcases mem_cons.mp rightMember with rfl | rightLater
      · have := (tiles.2.mem_bounds leftLater).1
        have := tiles.1
        omega
      · exact ih tiles.2 leftLater rightLater

end

variable {blocks : List Block} {block : Block}

lemma carve {minSplit needed : Nat} (room : overhead ≤ minSplit)
    (tiles : Tiles overhead start [block] stop) :
    Tiles overhead start (carve overhead minSplit needed block) stop := by
  rcases tiles with ⟨addressEq, stopEq⟩
  simp only [Tiles] at stopEq
  simp only [Allocator.carve]
  split_ifs with splits
  · exact ⟨addressEq, by simp only [addressEq], by simp only [Tiles]; omega⟩
  · exact ⟨addressEq, stopEq⟩

/-- Blocks that fill the extent of one block can stand in its place. -/
theorem replace {before after : List Block}
    (tiles : Tiles overhead start (before ++ block :: after) stop)
    (fill : ∀ {lower upper}, Tiles overhead lower [block] upper → Tiles overhead lower blocks upper) :
    Tiles overhead start (before ++ blocks ++ after) stop := by
  rcases append_iff.mp tiles with ⟨lower, first, second⟩
  have inside : Tiles overhead lower [block] (lower + overhead + block.size) := ⟨second.1, rfl⟩
  rw [append_assoc]
  exact append_iff.mpr ⟨lower, first, append_iff.mpr ⟨_, fill inside, second.2⟩⟩

lemma setFree {before after : List Block} (free : Bool)
    (tiles : Tiles overhead start (before ++ block :: after) stop) :
    Tiles overhead start (before ++ { block with free := free } :: after) stop := by
  rcases append_iff.mp tiles with ⟨middle, first, second⟩
  exact append_iff.mpr ⟨middle, first, second.1, second.2⟩

lemma join {left right : Block} {rest : List Block}
    (tiles : Tiles overhead start (left :: right :: rest) stop) :
    Tiles overhead start (join overhead left right :: rest) stop := by
  have endEq : start + overhead + (Allocator.join overhead left right).size =
      start + overhead + left.size + overhead + right.size := by
    simp only [Allocator.join]
    omega
  refine ⟨tiles.1, ?_⟩
  rw [endEq]
  exact tiles.2.2

lemma coalesceFrom {current : Block} {rest : List Block}
    (tiles : Tiles overhead start (current :: rest) stop) :
    Tiles overhead start (coalesceFrom overhead current rest) stop := by
  induction rest generalizing start current with
  | nil => exact tiles
  | cons next rest ih =>
    simp only [Allocator.coalesceFrom]
    split_ifs with bothFree
    · exact ih tiles.join
    · exact ⟨tiles.1, ih tiles.2⟩

end Tiles

lemma head?_coalesceFrom_free (current : Block) (rest : List Block) :
    ∀ block ∈ (coalesceFrom overhead current rest).head?, block.free = current.free := by
  induction rest generalizing current with
  | nil =>
    intro block head
    cases head
    rfl
  | cons next rest ih =>
    simp only [coalesceFrom]
    split_ifs with bothFree
    · exact ih (join overhead current next)
    · intro block head
      cases head
      rfl

lemma coalesced_coalesceFrom (current : Block) (rest : List Block) :
    Coalesced (coalesceFrom overhead current rest) := by
  induction rest generalizing current with
  | nil => exact List.IsChain.singleton current
  | cons next rest ih =>
    simp only [coalesceFrom]
    split_ifs with bothFree
    · exact ih (join overhead current next)
    · refine isChain_cons.mpr ⟨?_, ih next⟩
      intro block head
      rw [head?_coalesceFrom_free next rest block head]
      simpa only [Bool.and_eq_true] using bothFree

lemma mem_coalesceFrom_of_used {current block : Block} {rest : List Block}
    (member : block ∈ current :: rest) (used : block.free = false) :
    block ∈ coalesceFrom overhead current rest := by
  induction rest generalizing current with
  | nil => exact member
  | cons next rest ih =>
    simp only [coalesceFrom]
    split_ifs with bothFree
    · apply ih
      simp only [Bool.and_eq_true] at bothFree
      rcases mem_cons.mp member with rfl | later
      · rw [used] at bothFree
        exact absurd bothFree.1 (by decide)
      rcases mem_cons.mp later with rfl | inRest
      · rw [used] at bothFree
        exact absurd bothFree.2 (by decide)
      · exact mem_cons_of_mem _ inRest
    · rcases mem_cons.mp member with rfl | later
      · exact mem_cons_self
      · exact mem_cons_of_mem _ (ih later)

/-- Carving a free block out of a list without free neighbours leaves it so. -/
theorem Coalesced.carve {before after : List Block} {block : Block} (minSplit needed : Nat)
    (coalesced : Coalesced (before ++ block :: after)) (isFree : block.free = true) :
    Coalesced (before ++ carve overhead minSplit needed block ++ after) := by
  rcases isChain_append.mp coalesced with ⟨first, second, _⟩
  rcases isChain_cons.mp second with ⟨seam, last⟩
  rw [append_assoc]
  refine isChain_append.mpr ⟨first, ?_, ?_⟩
  · simp only [Allocator.carve]
    split_ifs with splits
    · refine isChain_cons_cons.mpr ⟨by simp, isChain_cons.mpr ⟨?_, last⟩⟩
      intro next head
      have := seam next head
      simpa only [isFree, true_and] using this
    · exact isChain_cons.mpr ⟨fun _ _ => by simp, last⟩
  · intro left _ right head
    have used : right.free = false := by
      simp only [Allocator.carve] at head
      split_ifs at head <;> cases head <;> rfl
    simp [used]

end CupidOs.Allocator
