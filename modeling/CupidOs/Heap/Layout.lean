import CupidOs.Allocator.Blocks
import CupidOs.Heap.Core

/-!
# Blocks in memory

`BlockAt` reads one block header and its canaries off the memory, `Segment` a
linked run of blocks.  Each memory operation of the heap is shown to do to a
segment what the list operation of the allocator does to its blocks.
-/

namespace CupidOs.Heap

open Allocator Bytes Bytes.Memory List

/-- Bytes a block takes besides its payload: header and back canary. -/
def blockOverhead : Nat := headerSize + 4

lemma sizes_eq : headerSize = 28 ∧ blockOverhead = 32 ∧ heapMinSplit = 36 := ⟨rfl, rfl, rfl⟩

/-- `memory` holds the header and both canaries of `block`, linked to `next`. -/
structure BlockAt (memory : Memory) (block : Block) (next : Nat) : Prop where
  front : memory.load32 block.address = canaryFront
  size : sizeField memory block.address = block.size
  next : nextField memory block.address = next
  free : freeField memory block.address = block.free
  back : memory.load32 (block.address + headerSize + block.size) = canaryBack

/-- The address of the first block, or `tail` when there is none. -/
def headOr : List Block → Nat → Nat
  | [], tail => tail
  | block :: _, _ => block.address

/-- The blocks are linked in `memory` in this order; the last link is `tail`. -/
def Segment (memory : Memory) : List Block → Nat → Prop
  | [], _ => True
  | block :: rest, tail => BlockAt memory block (headOr rest tail) ∧ Segment memory rest tail

@[simp]
lemma headOr_cons (block : Block) (rest : List Block) (tail : Nat) :
    headOr (block :: rest) tail = block.address :=
  rfl

lemma headOr_append (left right : List Block) (tail : Nat) :
    headOr (left ++ right) tail = headOr left (headOr right tail) := by
  cases left <;> rfl

variable {tail stop : Nat} {first second : Memory} {memory : Memory} {next : Nat}

lemma Segment.append_iff {left right : List Block} :
    Segment memory (left ++ right) tail ↔
      Segment memory left (headOr right tail) ∧ Segment memory right tail := by
  induction left with
  | nil => simp [Segment]
  | cons block rest ih =>
    simp only [cons_append, Segment, headOr_append, ih, and_assoc]

/-! ## Frames -/

variable {block : Block}

/-- Only the header and the back canary matter to `BlockAt`, not the payload. -/
theorem BlockAt.congr_metadata
    (header : AgreeOn second first block.address (block.address + headerSize))
    (canary : AgreeOn second first (block.address + headerSize + block.size)
      (block.address + blockOverhead + block.size)) (held : BlockAt first block next) :
    BlockAt second block next := by
  have sizes := sizes_eq
  constructor
  · rw [load32_congr (header.mono (by omega) (by omega)), held.front]
  · rw [sizeField, load32_congr (header.mono (by omega) (by omega))]
    exact held.size
  · rw [nextField, load32_congr (header.mono (by omega) (by omega))]
    exact held.next
  · rw [freeField, header (block.address + 12) (by omega) (by omega)]
    exact held.free
  · rw [load32_congr (canary.mono (by omega) (by omega)), held.back]

lemma BlockAt.congr
    (agree : AgreeOn second first block.address (block.address + blockOverhead + block.size))
    (held : BlockAt first block next) : BlockAt second block next := by
  have sizes := sizes_eq
  exact held.congr_metadata (agree.mono (by omega) (by omega)) (agree.mono (by omega) (by omega))

variable {start : Nat} {blocks : List Block}

lemma Segment.congr
    (tiles : Tiles blockOverhead start blocks stop) (agree : AgreeOn second first start stop)
    (held : Segment first blocks tail) : Segment second blocks tail := by
  induction blocks generalizing start with
  | nil => trivial
  | cons block rest ih =>
    have addressEq := tiles.1
    have bound := tiles.2.le
    exact ⟨held.1.congr (agree.mono (by omega) (by omega)),
      ih tiles.2 (agree.mono (by omega) (by omega)) held.2⟩

/-- One block may be replaced by blocks of the same extent and the same outgoing link. -/
theorem Segment.replace {before after : List Block}
    (tiles : Tiles blockOverhead start (before ++ block :: after) stop)
    (modifies : ModifiesOnly first second block.address
      (block.address + blockOverhead + block.size))
    (entry : headOr blocks (headOr after tail) = block.address)
    (held : Segment first (before ++ block :: after) tail)
    (inside : Segment second blocks (headOr after tail)) :
    Segment second (before ++ blocks ++ after) tail := by
  rcases Tiles.append_iff.mp tiles with ⟨middle, beforeTiles, addressEq, afterTiles⟩
  rcases Segment.append_iff.mp held with ⟨beforeHeld, _, afterHeld⟩
  rw [append_assoc, Segment.append_iff, Segment.append_iff, headOr_append, entry]
  exact ⟨beforeHeld.congr beforeTiles (modifies.agreeOn (by omega)), inside,
    afterHeld.congr afterTiles (modifies.agreeOn (by omega))⟩

/-! ## Canaries -/

lemma wrap_of_lt {value : Nat} (bound : value < 2 ^ 32) : wrap value = value :=
  Nat.mod_eq_of_lt bound

lemma BlockAt.checkCanaries (held : BlockAt memory block next)
    (bound : block.address + blockOverhead + block.size < 2 ^ 32) :
    checkCanaries memory block.address = true := by
  have sizes := sizes_eq
  simp only [Heap.checkCanaries, getBackCanaryAddr, held.size, held.front]
  rw [wrap_of_lt (by omega), held.back]
  rfl

lemma writeCanaries_eq {address size : Nat} (sizeEq : sizeField memory address = size)
    (bound : address + blockOverhead + size < 2 ^ 32) :
    writeCanaries memory address =
      (memory.store32 address canaryFront).store32 (address + headerSize + size) canaryBack := by
  have sizes := sizes_eq
  have kept : sizeField (memory.store32 address canaryFront) address = size := by
    rwa [sizeField, load32_store32_of_disjoint _ _ (by omega)]
  simp only [writeCanaries, getBackCanaryAddr, kept]
  rw [wrap_of_lt (by omega)]

/-- `write_canaries` completes a header whose other fields are set. -/
theorem blockAt_writeCanaries (block : Block) (sizeEq : sizeField memory block.address = block.size)
    (nextEq : nextField memory block.address = next)
    (freeEq : freeField memory block.address = block.free)
    (bound : block.address + blockOverhead + block.size < 2 ^ 32) :
    BlockAt (writeCanaries memory block.address) block next := by
  have sizes := sizes_eq
  rw [writeCanaries_eq sizeEq bound]
  constructor
  · rw [load32_store32_of_disjoint _ _ (by omega), load32_store32_self _ _ (by decide)]
  iterate 3 simpa (disch := omega) only [sizeField, nextField, freeField,
    load32_store32_of_disjoint, store32_of_outside]
  exact load32_store32_self _ _ (by decide)

lemma modifiesOnly_writeCanaries {address size : Nat} (sizeEq : sizeField memory address = size)
    (bound : address + blockOverhead + size < 2 ^ 32) :
    ModifiesOnly memory (writeCanaries memory address) address
      (address + blockOverhead + size) := by
  have sizes := sizes_eq
  rw [writeCanaries_eq sizeEq bound]
  exact ((ModifiesOnly.refl _ _ _).store32 _ (by omega)).store32 _ (by omega)

/-! ## Sealing a header -/

section Seal

variable {memory : Memory} {address size next : Nat} (free : UInt8)
  (timestamp file line : Nat)

section

variable (sizeEq : sizeField memory address = size)
include sizeEq

lemma sizeField_setOrigin_setFree :
    sizeField (setOrigin (setFree memory address free) address timestamp file line) address =
      size := by
  simp (disch := omega) only [sizeField, setOrigin, setFree, load32_store32_of_disjoint,
    load32_store8_of_disjoint]
  exact sizeEq

lemma blockAt_sealBlock (nextEq : nextField memory address = next)
    (bound : address + blockOverhead + size < 2 ^ 32) :
    BlockAt (sealBlock memory address free timestamp file line) ⟨address, size, free != 0⟩
      next := by
  apply blockAt_writeCanaries ⟨address, size, free != 0⟩
    (sizeField_setOrigin_setFree free timestamp file line sizeEq)
  · simp (disch := omega) only [nextField, setOrigin, setFree, load32_store32_of_disjoint,
      load32_store8_of_disjoint]
    exact nextEq
  · simp (disch := omega) only [freeField, setOrigin, setFree, store32_of_outside, store8_self]
  · exact bound

lemma modifiesOnly_sealBlock (bound : address + blockOverhead + size < 2 ^ 32) :
    ModifiesOnly memory (sealBlock memory address free timestamp file line) address
      (address + blockOverhead + size) := by
  have sizes := sizes_eq
  have fields : ModifiesOnly memory
      (setOrigin (setFree memory address free) address timestamp file line) address
      (address + blockOverhead + size) :=
    ((((ModifiesOnly.refl _ _ _).store8 _ (by omega)).store32 _ (by omega)).store32 _
      (by omega)).store32 _ (by omega)
  exact fields.trans
    (modifiesOnly_writeCanaries (sizeField_setOrigin_setFree free timestamp file line sizeEq) bound)

end

end Seal

/-! ## Taking a block -/

lemma sizeField_setNext (memory : Memory) (block value : Nat) :
    sizeField (setNext memory block value) block = sizeField memory block :=
  load32_store32_of_disjoint memory value (by omega)

section Split

variable {memory : Memory} {address size next needed : Nat}

/-- The writes of the split, once the header fields that it reads are known. -/
theorem splitBlock_eq (sizeEq : sizeField memory address = size)
    (nextEq : nextField memory address = next) (bound : address + blockOverhead + size < 2 ^ 31)
    (splits : needed + heapMinSplit ≤ size) :
    splitBlock memory address needed =
      setNext (sealBlock (setNext (setSize (setSize memory address needed)
        (address + blockOverhead + needed) (size - needed - blockOverhead))
        (address + blockOverhead + needed) next) (address + blockOverhead + needed) 1 0 0 0)
        address (address + blockOverhead + needed) := by
  have sizes := sizes_eq
  have shrunk : sizeField (setSize memory address needed) address = needed :=
    load32_store32_self _ _ (by omega)
  have newAddress : wrap (address + headerSize + needed + 4) =
      address + blockOverhead + needed := by
    rw [wrap_of_lt (by omega)]
    omega
  have newSize : wrap (size + 2 ^ 32 - needed - headerSize - 4) =
      size - needed - blockOverhead := by
    simp only [wrap]
    omega
  have kept : nextField (setSize (setSize memory address needed)
      (address + blockOverhead + needed) (size - needed - blockOverhead)) address = next := by
    simp (disch := omega) only [nextField, setSize, load32_store32_of_disjoint]
    exact nextEq
  simp only [splitBlock, shrunk, sizeEq, newAddress, newSize, kept]

lemma splitBlock_spec (sizeEq : sizeField memory address = size)
    (nextEq : nextField memory address = next) (nextBound : next < 2 ^ 32)
    (bound : address + blockOverhead + size < 2 ^ 31) (splits : needed + heapMinSplit ≤ size) :
    sizeField (splitBlock memory address needed) address = needed ∧
      nextField (splitBlock memory address needed) address = address + blockOverhead + needed ∧
      BlockAt (splitBlock memory address needed)
        ⟨address + blockOverhead + needed, size - needed - blockOverhead, true⟩ next ∧
      ModifiesOnly memory (splitBlock memory address needed) address
        (address + blockOverhead + size) := by
  have sizes := sizes_eq
  rw [splitBlock_eq sizeEq nextEq bound splits]
  have endEq : address + blockOverhead + needed + blockOverhead + (size - needed - blockOverhead) =
      address + blockOverhead + size := by
    omega
  generalize newAddressEq : address + blockOverhead + needed = newAddress at *
  generalize newSizeEq : size - needed - blockOverhead = newSize at *
  have linkedSize : sizeField (setNext (setSize (setSize memory address needed) newAddress newSize)
      newAddress next) newAddress = newSize := by
    simp only [sizeField, setNext, setSize]
    rw [load32_store32_of_disjoint _ _ (by omega), load32_store32_self _ _ (by omega)]
  have linkedNext : nextField (setNext (setSize (setSize memory address needed) newAddress newSize)
      newAddress next) newAddress = next :=
    load32_store32_self _ _ nextBound
  have sealed := blockAt_sealBlock 1 0 0 0 linkedSize linkedNext (by omega)
  have sealedModifies := modifiesOnly_sealBlock 1 0 0 0 linkedSize (by omega)
  constructor
  · rw [sizeField_setNext, sizeField, load32_congr (sealedModifies.agreeOn (by omega))]
    simp (disch := omega) only [setNext, setSize, load32_store32_of_disjoint, load32_store32_self]
  constructor
  · exact load32_store32_self _ _ (by omega)
  constructor
  · apply sealed.congr
    apply ((ModifiesOnly.refl _ address (address + 12)).store32 _ (by omega)).agreeOn
    dsimp only
    omega
  · rw [endEq] at sealedModifies
    exact (((((ModifiesOnly.refl _ _ _).store32 _ (by omega)).store32 _ (by omega)).store32 _
      (by omega)).trans (sealedModifies.mono (by omega) (by omega))).store32 _ (by omega)

end Split

/-- `kmalloc_debug` turns the block it chose into what `carve` makes of it. -/
theorem takeBlock_spec {needed : Nat} (now file line : Nat)
    (held : BlockAt memory block next) (nextBound : next < 2 ^ 32)
    (bound : block.address + blockOverhead + block.size < 2 ^ 31) (fits : needed ≤ block.size) :
    Segment (takeBlock memory block.address needed now file line)
        (carve blockOverhead heapMinSplit needed block) next ∧
      ModifiesOnly memory (takeBlock memory block.address needed now file line) block.address
        (block.address + blockOverhead + block.size) := by
  have sizes := sizes_eq
  simp only [takeBlock, carve, held.size]
  rw [wrap_of_lt (by omega)]
  split_ifs with splits
  · rcases splitBlock_spec held.size held.next nextBound bound splits with
      ⟨sizeEq, nextEq, newHeld, modifies⟩
    have sealedModifies := modifiesOnly_sealBlock 0 now file line sizeEq (by omega)
    exact ⟨⟨blockAt_sealBlock 0 now file line sizeEq nextEq (by omega),
      newHeld.congr (sealedModifies.agreeOn (Or.inr le_rfl)), trivial⟩,
      modifies.trans (sealedModifies.mono (by omega) (by omega))⟩
  · exact ⟨⟨blockAt_sealBlock 0 now file line held.size held.next (by omega), trivial⟩,
      modifiesOnly_sealBlock 0 now file line held.size (by omega)⟩

/-! ## Walking the list -/

/-- A block that `kmalloc_debug` can use for `needed` bytes. -/
def fits (needed : Nat) (block : Block) : Bool :=
  block.free && decide (needed ≤ block.size)

/-- A walk along the links visits the blocks in order, finds every canary intact and stops at the
null link behind the last one. -/
@[elab_as_elim]
theorem Segment.walk {P : List Block → Nat → Prop} (stops : ∀ fuel, P [] (fuel + 1))
    (visits : ∀ fuel block rest, BlockAt memory block (headOr rest 0) → block.address ≠ 0 →
      checkCanaries memory block.address = true → P rest fuel → P (block :: rest) (fuel + 1))
    (tiles : Tiles blockOverhead start blocks stop) (grounded : blocks = [] ∨ 0 < start)
    (bound : stop < 2 ^ 32) (held : Segment memory blocks 0) {fuel : Nat}
    (enough : blocks.length < fuel) : P blocks fuel := by
  induction blocks generalizing start fuel with
  | nil =>
    obtain _ | fuel := fuel
    · cases enough
    · exact stops fuel
  | cons block rest ih =>
    obtain _ | fuel := fuel
    · cases enough
    have positive := grounded.resolve_left (cons_ne_nil block rest)
    have addressEq := tiles.1
    have extent := tiles.2.le
    exact visits fuel block rest held.1 (by omega) (held.1.checkCanaries (by omega))
      (ih tiles.2 (.inr (by omega)) held.2 (by simpa using enough))

section

variable {fuel : Nat} (tiles : Tiles blockOverhead start blocks stop)
  (grounded : blocks = [] ∨ 0 < start) (bound : stop < 2 ^ 32) (held : Segment memory blocks 0)
  (enough : blocks.length < fuel)
include tiles grounded bound held enough

lemma findFit_of_segment (needed : Nat) : findFit memory needed fuel (headOr blocks 0) =
      match blocks.find? (fits needed) with
      | none => .exhausted
      | some block => .found block.address := by
  refine Segment.walk ?_ ?_ tiles grounded bound held enough
  · exact fun _ => rfl
  intro fuel block rest held occupied intact found
  simp only [headOr_cons, findFit, occupied, if_false, intact, Bool.not_true,
    Bool.false_eq_true, held.free, held.size, held.next, find?_cons, found]
  cases usable : fits needed block <;> rw [fits] at usable <;> simp [usable]

lemma countCorrupt_of_segment : countCorrupt memory fuel (headOr blocks 0) = some 0 := by
  refine Segment.walk ?_ ?_ tiles grounded bound held enough
  · exact fun _ => rfl
  intro fuel block rest held occupied intact clean
  simp only [headOr_cons, countCorrupt, occupied, if_false, held.next, intact, if_true, clean]
  rfl

end

/-! ## Releasing and joining blocks -/

/-- Poisoning a payload does not reach the header or the canaries around it. -/
theorem releaseBlock_spec (now : Nat) (held : BlockAt memory block next) :
    BlockAt (releaseBlock memory block.address (block.address + headerSize) now)
        { block with free := true } next ∧
      ModifiesOnly memory (releaseBlock memory block.address (block.address + headerSize) now)
        block.address (block.address + blockOverhead + block.size) := by
  have sizes := sizes_eq
  have sizeEq : sizeField ((setFree memory block.address 1).store32 (block.address + 16) now)
      block.address = block.size := by
    simp (disch := omega) only [sizeField, setFree, load32_store32_of_disjoint,
      load32_store8_of_disjoint]
    exact held.size
  simp only [releaseBlock, sizeEq]
  constructor
  · constructor <;> simp (disch := omega) only [sizeField, nextField, freeField, setFree,
      load32_fill_of_disjoint, load32_store32_of_disjoint, load32_store8_of_disjoint,
      fill_of_outside, store32_of_outside, store8_self]
    exacts [held.front, held.size, held.next, rfl, held.back]
  · exact (((ModifiesOnly.refl _ _ _).store8 _ (by omega)).store32 _ (by omega)).fill _ (by omega)

lemma mergeNext_spec {left right : Block} (leftHeld : BlockAt memory left right.address)
    (rightHeld : BlockAt memory right next) (nextBound : next < 2 ^ 32)
    (adjacent : right.address = left.address + blockOverhead + left.size)
    (bound : right.address + blockOverhead + right.size < 2 ^ 32) :
    BlockAt (mergeNext memory left.address right.address) (join blockOverhead left right) next ∧
      ModifiesOnly memory (mergeNext memory left.address right.address) left.address
        (right.address + blockOverhead + right.size) := by
  have sizes := sizes_eq
  have sumEq : wrap (left.size + headerSize + right.size + 4) =
      (join blockOverhead left right).size := by
    rw [wrap_of_lt (by omega)]
    simp only [join]
    omega
  have nextEq : nextField (setSize memory left.address (join blockOverhead left right).size)
      right.address = next := by
    rw [nextField, setSize, load32_store32_of_disjoint _ _ (by omega)]
    exact rightHeld.next
  have joinedSize : (join blockOverhead left right).size = left.size + blockOverhead + right.size :=
    rfl
  have sizeEq : sizeField (setNext
      (setSize memory left.address (join blockOverhead left right).size) left.address next)
      left.address = (join blockOverhead left right).size := by
    rw [sizeField_setNext]
    exact load32_store32_self _ _ (by omega)
  simp only [mergeNext, leftHeld.size, rightHeld.size, sumEq, nextEq]
  constructor
  · apply blockAt_writeCanaries (join blockOverhead left right) sizeEq
    · exact load32_store32_self _ _ nextBound
    · simp only [join, freeField, setNext, setSize]
      rw [store32_of_outside _ _ (by omega), store32_of_outside _ _ (by omega)]
      exact leftHeld.free
    · simp only [join]
      omega
  · exact (((ModifiesOnly.refl _ _ _).store32 _ (by omega)).store32 _ (by omega)).trans
      ((modifiesOnly_writeCanaries sizeEq (by omega)).mono (by omega) (by omega))

lemma headOr_coalesceFrom (overhead : Nat) (current : Block) (rest : List Block) (tail : Nat) :
    headOr (coalesceFrom overhead current rest) tail = current.address := by
  induction rest generalizing current with
  | nil => rfl
  | cons next rest ih =>
    simp only [coalesceFrom]
    split_ifs
    · exact ih (join overhead current next)
    · rfl

/-- The pass of `kfree_locked` over linked blocks ends and joins them as
`coalesceFrom` does. -/
theorem coalescePass_of_segment {current : Block} {rest : List Block} (fuel : Nat)
    (tiles : Tiles blockOverhead start (current :: rest) stop) (positive : 0 < start)
    (bound : stop < 2 ^ 32) (held : Segment memory (current :: rest) 0)
    (enough : rest.length < fuel) :
    ∃ joined, coalescePass fuel memory current.address = some joined ∧
      Segment joined (coalesceFrom blockOverhead current rest) 0 ∧
      ModifiesOnly memory joined start stop := by
  induction rest generalizing memory start current fuel with
  | nil =>
    obtain _ | fuel := fuel
    · cases enough
    have addressEq := tiles.1
    have occupied : current.address ≠ 0 := by omega
    have last : nextField memory current.address = 0 := held.1.next
    exact ⟨memory, by simp only [coalescePass, occupied, if_false, last, if_true], held,
      ModifiesOnly.refl _ _ _⟩
  | cons next rest ih =>
    obtain _ | fuel := fuel
    · cases enough
    have addressEq := tiles.1
    have nextAddressEq := tiles.2.1
    have extent := tiles.2.2.le
    have occupied : current.address ≠ 0 := by omega
    have nextOccupied : next.address ≠ 0 := by omega
    have nextEq : nextField memory current.address = next.address := held.1.next
    simp only [coalescePass, occupied, if_false, nextEq, nextOccupied, held.1.free,
      held.2.1.free, coalesceFrom]
    split_ifs with bothFree
    · have outgoing : headOr rest 0 < 2 ^ 32 := by
        rw [← held.2.1.next]
        exact load32_lt _ _
      rcases mergeNext_spec held.1 held.2.1 outgoing (by omega) (by omega) with
        ⟨joinedHeld, modifies⟩
      have joinedSegment : Segment (mergeNext memory current.address next.address)
          (join blockOverhead current next :: rest) 0 :=
        ⟨joinedHeld, held.2.2.congr tiles.2.2 (modifies.agreeOn (by omega))⟩
      rcases ih fuel tiles.join positive joinedSegment (by simpa using enough) with
        ⟨joined, passEq, segment, later⟩
      exact ⟨joined, passEq, segment, (modifies.mono (by omega) (by omega)).trans later⟩
    · rcases ih fuel tiles.2 (by omega) held.2 (by simpa using enough) with
        ⟨joined, passEq, segment, modifies⟩
      refine ⟨joined, passEq, ⟨?_, segment⟩, modifies.mono (by omega) le_rfl⟩
      rw [headOr_coalesceFrom]
      exact held.1.congr (modifies.agreeOn (by omega))

end CupidOs.Heap
