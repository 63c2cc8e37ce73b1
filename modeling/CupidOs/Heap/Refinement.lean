import CupidOs.Heap.Layout

/-!
# The heap tiles its region

The blocks of a running heap tile the region that `heap_init` obtained, with every canary intact
and no two free neighbours, as long as owners free live pointers only and store inside what they
asked for, and no request is so close to `2 ^ 32` that adding the canary wraps.
-/

namespace CupidOs.Heap

open Allocator Bytes Bytes.Memory List Transition

/-! ## Owners -/

/-- An allocation as its owner knows it: the pointer and the requested size. -/
structure Allocation where
  pointer : Nat
  size : Nat
  deriving DecidableEq

/-- The live allocations after a call that returned `pointer`. -/
def ownerNext (live : List Allocation) (call : Call) (pointer : Nat) : List Allocation :=
  match call with
  | .kmalloc size _ _ _ => if pointer = 0 then live else ⟨pointer, size.toNat⟩ :: live
  | .kfree freed _ => live.filter fun allocation => allocation.pointer != freed.toNat
  | .userWrite _ _ _ => live
  | .checkIntegrity => live

/-- The heap together with its live allocations. -/
def tracked : Machine (State × List Allocation) Call Nat :=
  Machine.observe step ownerNext

/-- Owners free live pointers and store within the size they requested. -/
def OwnerCall (state : State × List Allocation) : Call → Prop
  | .kmalloc _ _ _ _ => True
  | .kfree pointer _ => ∃ allocation ∈ state.2, allocation.pointer = pointer.toNat
  | .userWrite pointer offset _ =>
    ∃ allocation ∈ state.2, allocation.pointer = pointer.toNat ∧ offset.toNat < allocation.size
  | .checkIntegrity => True

instance (state : State × List Allocation) (call : Call) : Decidable (OwnerCall state call) := by
  cases call <;> dsimp only [OwnerCall] <;> infer_instance

/-- The requested size leaves room for the canary in 32 bits. -/
def RequestFits : Call → Prop
  | .kmalloc size _ _ _ => size.toNat + 4 < 2 ^ 32
  | .kfree _ _ => True
  | .userWrite _ _ _ => True
  | .checkIntegrity => True

instance (call : Call) : Decidable (RequestFits call) := by
  cases call <;> dsimp only [RequestFits] <;> infer_instance

/-! ## What the block list must satisfy -/

/-- The block list as a reader of the memory sees it; `none` when it is cyclic. -/
def blockList (memory : Memory) : Nat → Nat → Option (List Block)
  | 0, _ => none
  | fuel + 1, current =>
    if current = 0 then
      some []
    else
      (blockList memory fuel (nextField memory current)).map fun rest =>
        ⟨current, sizeField memory current, freeField memory current⟩ :: rest

/-- The bytes that two owners may use do not overlap. -/
def Apart (left right : Allocation) : Prop :=
  left.pointer + left.size ≤ right.pointer ∨ right.pointer + right.size ≤ left.pointer

/-- The blocks tile `[base, stop)` with intact canaries and no free neighbours,
and every live allocation has its own bytes in a block in use. -/
structure RegionSound (base stop : Nat) (memory : Memory) (live : List Allocation)
    (blocks : List Block) : Prop where
  tiles : Tiles blockOverhead base blocks stop
  canaries : ∀ block ∈ blocks, checkCanaries memory block.address = true
  coalesced : Coalesced blocks
  backed : ∀ allocation ∈ live, ∃ block ∈ blocks, block.free = false ∧
    allocation.pointer = block.address + headerSize ∧ allocation.size ≤ block.size
  apart : live.Pairwise Apart

/-- The kernel is running and the block list in memory is sound. -/
def HeapSound (base stop : Nat) (state : State × List Allocation) : Prop :=
  state.1.halted = none ∧
    ∃ blocks, blockList state.1.memory walkFuel state.1.heapHead = some blocks ∧
      RegionSound base stop state.1.memory state.2 blocks

/-! ## The invariant -/

/-- Every live allocation fits the payload of a block in use, before its canary. -/
structure Owns (blocks : List Block) (live : List Allocation) : Prop where
  distinct : live.Pairwise fun left right => left.pointer ≠ right.pointer
  backed : ∀ allocation ∈ live, ∃ block ∈ blocks, block.free = false ∧
    allocation.pointer = block.address + headerSize ∧ allocation.size ≤ block.size

/-- The memory holds `blocks`, which tile the region and back the live allocations. -/
structure Represents (base stop : Nat) (state : State × List Allocation) (blocks : List Block) :
    Prop where
  running : state.1.halted = none
  head : state.1.heapHead = headOr blocks 0
  linked : Segment state.1.memory blocks 0
  tiles : Tiles blockOverhead base blocks stop
  grounded : blocks = [] ∨ 0 < base
  bound : stop < 2 ^ 31
  coalesced : Coalesced blocks
  owns : Owns blocks state.2

variable {base stop size needed : Nat} {state : State} {live : List Allocation}
  {blocks : List Block}

lemma length_lt_walkFuel (tiles : Tiles blockOverhead base blocks stop)
    (bound : stop < 2 ^ 31) : blocks.length < walkFuel := by
  have extent := tiles.length_le
  have overhead : blockOverhead = 32 := rfl
  have fuel : walkFuel = 2 ^ 32 := rfl
  rw [overhead] at extent
  omega

lemma blockList_of_segment {memory : Memory} {start fuel : Nat}
    (tiles : Tiles blockOverhead start blocks stop) (grounded : blocks = [] ∨ 0 < start)
    (bound : stop < 2 ^ 32) (held : Segment memory blocks 0) (enough : blocks.length < fuel) :
    blockList memory fuel (headOr blocks 0) = some blocks := by
  refine Segment.walk ?_ ?_ tiles grounded bound held enough
  · exact fun _ => rfl
  intro fuel block rest held occupied _ read
  simp only [headOr_cons, blockList, occupied, if_false, held.next, held.size, held.free, read]
  rfl

lemma Segment.checkCanaries {memory : Memory} {start : Nat} {tail : Nat}
    (tiles : Tiles blockOverhead start blocks stop) (bound : stop < 2 ^ 32)
    (held : Segment memory blocks tail) :
    ∀ block ∈ blocks, checkCanaries memory block.address = true := by
  induction blocks generalizing start with
  | nil => exact nofun
  | cons first rest ih =>
    intro block member
    rcases mem_cons.mp member with rfl | later
    · have := (tiles.mem_bounds member).2
      exact held.1.checkCanaries (by omega)
    · exact ih tiles.2 held.2 block later

/-- Live allocations with different pointers use different bytes. -/
theorem Owns.apart (owns : Owns blocks live)
    (tiles : Tiles blockOverhead base blocks stop) : live.Pairwise Apart := by
  apply owns.distinct.imp_of_mem
  intro left right leftMember rightMember differ
  rcases owns.backed left leftMember with ⟨leftBlock, leftIn, _, leftPointer, leftFits⟩
  rcases owns.backed right rightMember with ⟨rightBlock, rightIn, _, rightPointer, rightFits⟩
  have sizes := sizes_eq
  rcases tiles.eq_or_disjoint leftIn rightIn with same | disjoint
  · rw [leftPointer, rightPointer, same] at differ
    exact absurd rfl differ
  · simp only [Apart]
    omega

lemma Represents.sound {state : State × List Allocation}
    (represents : Represents base stop state blocks) : HeapSound base stop state := by
  have bound := represents.bound
  refine ⟨represents.running, blocks, ?_, ?_⟩
  · rw [represents.head]
    exact blockList_of_segment represents.tiles represents.grounded (by omega) represents.linked
      (length_lt_walkFuel represents.tiles bound)
  · exact ⟨represents.tiles, represents.linked.checkCanaries represents.tiles (by omega),
      represents.coalesced, represents.owns.backed, represents.owns.apart represents.tiles⟩

/-! ## Calls keep the invariant -/

lemma Owns.mono {blocks kept : List Block} (owns : Owns blocks live)
    (retained : ∀ block ∈ blocks, block.free = false → block ∈ kept) : Owns kept live := by
  refine ⟨owns.distinct, ?_⟩
  intro allocation member
  rcases owns.backed allocation member with ⟨block, blockIn, used, rest⟩
  exact ⟨block, retained block blockIn used, used, rest⟩

lemma carve_head (overhead minSplit needed : Nat) (block : Block) :
    ∃ taken rest, carve overhead minSplit needed block = taken :: rest ∧
      taken.address = block.address ∧ taken.free = false ∧
      (needed ≤ block.size → needed ≤ taken.size) := by
  simp only [carve]
  split_ifs
  · exact ⟨_, _, rfl, rfl, rfl, fun _ => Nat.le_refl needed⟩
  · exact ⟨_, _, rfl, rfl, rfl, id⟩

variable {block : Block}

/-- Carving the free block `block` lets a new owner have its payload. -/
theorem Owns.carve {before after : List Block}
    (minSplit : Nat) (owns : Owns (before ++ block :: after) live)
    (tiles : Tiles blockOverhead base (before ++ block :: after) stop) (isFree : block.free = true)
    (room : needed ≤ block.size) (small : size ≤ needed) :
    Owns (before ++ carve blockOverhead minSplit needed block ++ after)
      (⟨block.address + headerSize, size⟩ :: live) := by
  rcases carve_head blockOverhead minSplit needed block with
    ⟨taken, rest, carveEq, addressEq, used, takenRoom⟩
  have blockIn : block ∈ before ++ block :: after := by simp
  constructor
  · refine pairwise_cons.mpr ⟨?_, owns.distinct⟩
    intro other member samePointer
    rcases owns.backed other member with ⟨otherBlock, otherIn, otherUsed, otherPointer, _⟩
    rcases tiles.eq_or_disjoint blockIn otherIn with same | disjoint
    · rw [← same, isFree] at otherUsed
      cases otherUsed
    have sizes := sizes_eq
    simp only at samePointer
    omega
  · intro allocation member
    rcases mem_cons.mp member with rfl | older
    · have takenFits := takenRoom room
      exact ⟨taken, by simp [carveEq], used, by rw [addressEq], by dsimp only; omega⟩
    rcases owns.backed allocation older with ⟨other, otherIn, otherUsed, contents⟩
    refine ⟨other, ?_, otherUsed, contents⟩
    simp only [mem_append, mem_cons] at otherIn ⊢
    rcases otherIn with inBefore | rfl | inAfter
    · exact .inl (.inl inBefore)
    · rw [isFree] at otherUsed
      cases otherUsed
    · exact .inr inAfter

lemma Represents.positive {state : State × List Allocation}
    (represents : Represents base stop state blocks) (nonempty : blocks ≠ []) : 0 < base :=
  represents.grounded.resolve_left nonempty

/-- `kmalloc_debug` takes the first free block that is large enough, or does nothing. -/
theorem Represents.kmallocDebug_cases (represents : Represents base stop (state, live) blocks)
    (size file line now : Nat) :
    (kmallocDebug state size file line now = (state, 0) ∧
        (size = 0 ∨ ∀ block ∈ blocks, ¬ fits (wrap (size + 4)) block)) ∨
      ∃ before block after, blocks = before ++ block :: after ∧
        block.free = true ∧ wrap (size + 4) ≤ block.size ∧
        kmallocDebug state size file line now = ({ state with
              memory := takeBlock state.memory block.address (wrap (size + 4)) now file line
              tracker := trackAllocation state.tracker (block.address + headerSize) size
                file line now }, block.address + headerSize) := by
  have sizes := sizes_eq
  have bound := represents.bound
  simp only [kmallocDebug]
  by_cases refused : size = 0 ∨ state.heapHead = 0
  · refine .inl ⟨if_pos refused, refused.imp_right fun unset block member => ?_⟩
    have positive := represents.positive (ne_nil_of_mem member)
    have head : state.heapHead = headOr blocks 0 := represents.head
    cases blocks with
    | nil => cases member
    | cons first rest =>
      have addressEq := represents.tiles.1
      rw [headOr_cons] at head
      omega
  · have search := findFit_of_segment represents.tiles represents.grounded (by omega)
      represents.linked (length_lt_walkFuel represents.tiles bound) (wrap (size + 4))
    rw [← represents.head] at search
    rw [if_neg refused, search]
    cases foundEq : blocks.find? (fits (wrap (size + 4))) with
    | none => exact .inl ⟨rfl, .inr (find?_eq_none.mp foundEq)⟩
    | some block =>
      rcases find?_eq_some_iff_append.mp foundEq with ⟨usable, before, after, blocksEq, _⟩
      simp only [fits, Bool.and_eq_true, decide_eq_true_eq] at usable
      have extent := represents.tiles.mem_bounds (mem_of_find?_eq_some foundEq)
      refine .inr ⟨before, block, after, blocksEq, usable.1, usable.2, ?_⟩
      simp only [wrap_of_lt (show block.address + headerSize < 2 ^ 32 by omega)]

/-- Taking a free block gives its new owner up to `needed` bytes of it. -/
theorem Represents.take {before after : List Block}
    (represents : Represents base stop (state, live) (before ++ block :: after))
    (isFree : block.free = true) (room : needed ≤ block.size) (small : size ≤ needed)
    (file line now : Nat) (tracker : AllocationTracker) :
    Represents base stop ({ state with
          memory := takeBlock state.memory block.address needed now file line
          tracker := tracker }, ⟨block.address + headerSize, size⟩ :: live)
      (before ++ carve blockOverhead heapMinSplit needed block ++ after) := by
  have bound := represents.bound
  have extent := represents.tiles.mem_bounds (show block ∈ before ++ block :: after by simp)
  have held := (Segment.append_iff.mp represents.linked).2.1
  have outgoing : headOr after 0 < 2 ^ 32 := by
    rw [← held.next]
    exact load32_lt _ _
  rcases takeBlock_spec now file line held outgoing (by omega) room with ⟨carved, modifies⟩
  have entry : headOr (carve blockOverhead heapMinSplit needed block) (headOr after 0) =
      block.address := by
    rcases carve_head blockOverhead heapMinSplit needed block with
      ⟨first, rest, carveEq, firstAddress, _, _⟩
    rw [carveEq, headOr_cons, firstAddress]
  refine { represents with
    head := ?_
    linked := represents.linked.replace represents.tiles modifies entry carved
    tiles := represents.tiles.replace (Tiles.carve (by decide) ·)
    grounded := .inr (represents.positive (by simp))
    coalesced := represents.coalesced.carve _ _ isFree
    owns := represents.owns.carve _ represents.tiles isFree room small }
  rw [append_assoc, headOr_append, headOr_append, entry]
  simpa only [headOr_append, headOr_cons] using represents.head

/-- The owner of a new block gets up to as many bytes as the source has added up to. -/
theorem Represents.kmalloc (represents : Represents base stop (state, live) blocks)
    (file line now : Nat) {granted : Nat} (small : granted ≤ wrap (size + 4)) :
    ∃ blocks', Represents base stop ((kmallocDebug state size file line now).1,
        if (kmallocDebug state size file line now).2 = 0 then live
        else ⟨(kmallocDebug state size file line now).2, granted⟩ :: live) blocks' := by
  rcases represents.kmallocDebug_cases size file line now with
    ⟨refused, _⟩ | ⟨before, block, after, rfl, isFree, room, taken⟩
  · rw [refused]
    exact ⟨blocks, represents⟩
  rw [taken]
  simp only [show block.address + headerSize ≠ 0 by simp [headerSize], if_false]
  exact ⟨_, represents.take isFree room small file line now _⟩

/-- Freeing an allocation leaves the other allocations in their blocks. -/
theorem Owns.release {before after : List Block}
    (owns : Owns (before ++ block :: after) live) :
    Owns (before ++ { block with free := true } :: after)
      (live.filter fun allocation => allocation.pointer != block.address + headerSize) := by
  refine ⟨owns.distinct.filter _, ?_⟩
  intro allocation member
  rcases mem_filter.mp member with ⟨older, differs⟩
  rcases owns.backed allocation older with ⟨other, otherIn, used, pointerEq, room⟩
  refine ⟨other, ?_, used, pointerEq, room⟩
  simp only [mem_append, mem_cons] at otherIn ⊢
  rcases otherIn with inBefore | rfl | inAfter
  · exact .inl inBefore
  · simp [pointerEq] at differs
  · exact .inr (.inr inAfter)

/-- The checks of `kfree` pass on a block in use and it runs to the end of its
coalescing pass. -/
theorem kfree_of_pass {now : Nat} {joined : Memory}
    (bound : block.address + headerSize < 2 ^ 32)
    (intact : checkCanaries state.memory block.address = true)
    (used : freeField state.memory block.address = false) (pass : coalescePass walkFuel
      (releaseBlock state.memory block.address (block.address + headerSize) now)
      state.heapHead = some joined) :
    kfree state (block.address + headerSize) now =
      { state with
        memory := joined
        tracker := trackFree state.tracker (block.address + headerSize) } := by
  have sizes := sizes_eq
  have pointerNe : block.address + headerSize ≠ 0 := by omega
  have blockEq : wrap (block.address + headerSize + 2 ^ 32 - headerSize) = block.address := by
    simp only [wrap]
    omega
  simp only [kfree, pointerNe, if_false, blockEq, intact, used, Bool.not_true,
    Bool.false_eq_true, pass]

section

variable (represents : Represents base stop (state, live) blocks)
include represents

lemma Represents.kfree {pointer : Nat} (now : Nat)
    (isLive : ∃ allocation ∈ live, allocation.pointer = pointer) :
    ∃ blocks', Represents base stop
      (kfree state pointer now, live.filter fun allocation => allocation.pointer != pointer)
      blocks' := by
  have sizes := sizes_eq
  have bound := represents.bound
  rcases isLive with ⟨allocation, member, rfl⟩
  rcases represents.owns.backed allocation member with ⟨block, blockIn, used, pointerEq, _⟩
  have extent := represents.tiles.mem_bounds blockIn
  have intact := represents.linked.checkCanaries represents.tiles (by omega) block blockIn
  have positive := represents.positive (ne_nil_of_mem blockIn)
  rcases append_of_mem blockIn with ⟨before, after, rfl⟩
  have held := (Segment.append_iff.mp represents.linked).2.1
  rcases releaseBlock_spec now held with ⟨releasedHeld, modifies⟩
  have releasedSegment : Segment _ (before ++ [{ block with free := true }] ++ after) 0 :=
    represents.linked.replace represents.tiles modifies rfl ⟨releasedHeld, trivial⟩
  have headEq : state.heapHead = headOr (before ++ { block with free := true } :: after) 0 := by
    simpa only [headOr_append, headOr_cons] using represents.head
  have releasedTiles := represents.tiles.setFree true
  have releasedOwns := represents.owns.release
  rw [append_assoc, singleton_append] at releasedSegment
  rw [pointerEq]
  generalize before ++ { block with free := true } :: after = released at *
  cases released with
  | nil =>
    have : base = stop := releasedTiles
    omega
  | cons first rest =>
    have enough := length_lt_walkFuel releasedTiles bound
    rcases coalescePass_of_segment walkFuel releasedTiles positive (by omega) releasedSegment
      (Nat.lt_of_succ_lt enough) with ⟨joined, pass, linked, _⟩
    rw [← headOr_cons first rest 0, ← headEq] at pass
    rw [kfree_of_pass (by omega) intact (held.free.trans used) pass]
    exact ⟨coalesceFrom blockOverhead first rest,
      { represents with
        head := headEq.trans (headOr_coalesceFrom _ _ _ _).symm
        linked := linked
        tiles := releasedTiles.coalesceFrom
        grounded := .inr positive
        coalesced := coalesced_coalesceFrom first rest
        owns := releasedOwns.mono fun _ => mem_coalesceFrom_of_used }⟩

/-- A byte stored inside a live allocation leaves every header and canary alone. -/
theorem Represents.userWrite {pointer offset : Nat} (value : UInt8)
    (inside : ∃ allocation ∈ live, allocation.pointer = pointer ∧ offset < allocation.size) :
    Represents base stop
      ({ state with memory := state.memory.store8 (wrap (pointer + offset)) value }, live)
      blocks := by
  have sizes := sizes_eq
  have bound := represents.bound
  rcases inside with ⟨allocation, member, rfl, offsetLt⟩
  rcases represents.owns.backed allocation member with ⟨block, blockIn, used, pointerEq, room⟩
  have extent := represents.tiles.mem_bounds blockIn
  rw [wrap_of_lt (by omega)]
  have linked : Segment (state.memory.store8 (allocation.pointer + offset) value) blocks 0 := by
    rcases append_of_mem blockIn with ⟨before, after, rfl⟩
    have held := (Segment.append_iff.mp represents.linked).2.1
    have modifies := (ModifiesOnly.refl state.memory (allocation.pointer + offset)
      (allocation.pointer + offset + 1)).store8 value ⟨le_rfl, Nat.lt_succ_self _⟩
    have written := held.congr_metadata (modifies.agreeOn (by omega)) (modifies.agreeOn (by omega))
    have replaced : Segment _ (before ++ [block] ++ after) 0 :=
      represents.linked.replace represents.tiles (modifies.mono (by omega) (by omega)) rfl
        ⟨written, trivial⟩
    simpa only [append_assoc, singleton_append] using replaced
  exact { represents with linked := linked }

lemma Represents.checkIntegrity : heapCheckIntegrity state = state := by
  have bound := represents.bound
  have enough := length_lt_walkFuel represents.tiles represents.bound
  have clean : countCorrupt state.memory walkFuel state.heapHead = some 0 := by
    rw [represents.head]
    exact countCorrupt_of_segment represents.tiles represents.grounded (by omega)
      represents.linked enough
  simp only [heapCheckIntegrity, clean]

end

/-- One call by a well-behaved owner keeps the invariant. -/
theorem Represents.step {state : State × List Allocation}
    (represents : Represents base stop state blocks) (call : Call) (owner : OwnerCall state call)
    (requestFits : RequestFits call) :
    ∃ blocks', Represents base stop (tracked state call).1 blocks' := by
  rcases state with ⟨state, live⟩
  have running : state.halted = none := represents.running
  cases call <;> simp only [tracked, Machine.observe_fst, Heap.step, running, ownerNext]
  case kmalloc size file line now =>
    have fits : size.toNat + 4 < 2 ^ 32 := requestFits
    apply represents.kmalloc file.toNat line.toNat now.toNat
    rw [wrap_of_lt fits]
    omega
  case kfree pointer now => exact represents.kfree now.toNat owner
  case userWrite pointer offset value =>
    exact ⟨blocks, by simpa only [running] using represents.userWrite value owner⟩
  case checkIntegrity =>
    rw [represents.checkIntegrity]
    exact ⟨blocks, represents⟩

/-! ## Initialisation -/

lemma scanPages_bound {used : Nat → Bool} {pageCount remaining page runStart runLength start : Nat}
    (scanned : scanPages used pageCount remaining page runStart runLength = some start)
    (run : 0 < runLength → runStart + runLength = page) :
    start + pageCount ≤ page + remaining := by
  induction remaining generalizing page runStart runLength with
  | zero => cases scanned
  | succ remaining ih =>
    simp only [scanPages] at scanned
    split_ifs at scanned with taken complete fresh fresh
    · have := ih scanned (by omega)
      omega
    · cases scanned
      omega
    · cases scanned
      have := run (by omega)
      omega
    · have := ih scanned (by omega)
      omega
    · have := ih scanned (by omega)
      omega

lemma pmmAllocContiguous_bound {used : Nat → Bool} {pageCount : Nat}
    (allocated : (pmmAllocContiguous used pageCount).2 ≠ 0) :
    (pmmAllocContiguous used pageCount).2 + pageCount * pageSize ≤ 2 ^ 29 := by
  simp only [pmmAllocContiguous] at allocated ⊢
  split_ifs at allocated ⊢ with missing
  · exact absurd rfl allocated
  · cases scanned : scanPages used pageCount totalPages 0 0 0 with
    | none =>
      rw [scanned] at allocated
      exact absurd rfl allocated
    | some start =>
      have bound := scanPages_bound scanned (by omega)
      simp only [wrap, pageSize]
      simp only [totalPages] at bound
      omega

/-- `heap_init` leaves one free block that fills the region. -/
theorem heapInit_represents {boot : State} {initialPages : Nat}
    (running : (heapInit boot initialPages).halted = none) (unset : boot.heapHead = 0) :
    ∃ blocks, Represents (heapInit boot initialPages).heapHead
      ((heapInit boot initialPages).heapHead + initialPages * pageSize)
      (heapInit boot initialPages, []) blocks := by
  have sizes := sizes_eq
  simp only [heapInit] at running ⊢
  split_ifs at running ⊢ with noPages failed
  · subst noPages
    exact ⟨[], running, unset, trivial, by simp [Tiles], .inl rfl, by simp [unset], .nil, .nil,
      forall_mem_nil _⟩
  · have bound := pmmAllocContiguous_bound failed
    have atLeastOne : pageSize ≤ initialPages * pageSize :=
      Nat.le_mul_of_pos_left pageSize (Nat.pos_of_ne_zero noPages)
    have page : pageSize = 4096 := rfl
    generalize (pmmAllocContiguous boot.pageUsed initialPages).2 = base at *
    generalize initialPages * pageSize = region at *
    have usable : wrap region - headerSize - 4 = region - blockOverhead := by
      rw [wrap_of_lt (by omega)]
      omega
    refine ⟨[⟨base, region - blockOverhead, true⟩], running, rfl, ⟨?_, trivial⟩, ⟨rfl, ?_⟩,
      .inr (Nat.pos_of_ne_zero failed), by dsimp only; omega, .singleton _, .nil,
      forall_mem_nil _⟩
    · simp only [usable]
      apply blockAt_sealBlock 1 0 0 0
      · rw [sizeField_setNext]
        exact load32_store32_self _ _ (by omega)
      · exact load32_store32_self _ _ (by decide)
      · omega
    · simp only [Tiles]
      omega

/-! ## Runs -/

/-- In every run after `heap_init` whose owners free live pointers and store
within the requested size, and whose requests leave room for the canary in 32
bits, the heap stays sound. -/
theorem heap_tiles_region {boot : State} {initialPages : Nat} (calls : List Call)
    (unset : boot.heapHead = 0) (running : (heapInit boot initialPages).halted = none)
    (calls_ok : tracked.Along (fun state call => OwnerCall state call ∧ RequestFits call)
      (heapInit boot initialPages, []) calls) :
    HeapSound (heapInit boot initialPages).heapHead
      ((heapInit boot initialPages).heapHead + initialPages * pageSize)
      (tracked.run (heapInit boot initialPages, []) calls) := by
  have start := heapInit_represents running unset
  rcases Machine.run_invariant
    (I := fun state => ∃ blocks, Represents (heapInit boot initialPages).heapHead
      ((heapInit boot initialPages).heapHead + initialPages * pageSize) state blocks)
    (fun state call invariant guard => by
      rcases invariant with ⟨blocks, represents⟩
      exact represents.step call guard.1 guard.2) start calls_ok with ⟨blocks, represents⟩
  exact represents.sound

/-- A machine whose page 0 is reserved, before `heap_init`. -/
def bootState : State where
  pageUsed page := page == 0
  memory _ := 0
  heapHead := 0
  tracker := ⟨fun _ => ⟨0, 0, 0, 0, 0, false⟩, 0, 0, 0, 0, 0⟩
  halted := none

theorem heap_tiles_region_alloc_write_free :
    HeapSound (heapInit bootState 1).heapHead ((heapInit bootState 1).heapHead + 1 * pageSize)
      (tracked.run (heapInit bootState 1, [])
        [.kmalloc 8 0 0 5, .kmalloc 100 0 0 6, .userWrite 4124 7 255, .kfree 4124 9,
          .checkIntegrity]) :=
  heap_tiles_region _ rfl (by decide +kernel) (by decide +kernel)

/-- The owner of a block requested as `0xFFFFFFFF` bytes gets three, and its
store at offset 3 destroys the back canary. -/
theorem heap_wrapped_request_breaks_canary : (heapInit bootState 1).halted = none ∧
      tracked.Along OwnerCall (heapInit bootState 1, [])
        [.kmalloc 0xFFFFFFFF 0 0 5, .userWrite 4124 3 0] ∧
      ¬ HeapSound (heapInit bootState 1).heapHead ((heapInit bootState 1).heapHead + 1 * pageSize)
        (tracked.run (heapInit bootState 1, [])
          [.kmalloc 0xFFFFFFFF 0 0 5, .userWrite 4124 3 0]) := by
  refine ⟨by decide +kernel, by decide +kernel, ?_⟩
  rintro ⟨_, blocks, listEq, sound⟩
  have readBack : blockList (tracked.run (heapInit bootState 1, [])
      [.kmalloc 0xFFFFFFFF 0 0 5, .userWrite 4124 3 0]).1.memory walkFuel
      (tracked.run (heapInit bootState 1, [])
        [.kmalloc 0xFFFFFFFF 0 0 5, .userWrite 4124 3 0]).1.heapHead =
      some [⟨4096, 3, false⟩, ⟨4131, 4029, true⟩] := by
    decide +kernel
  rw [readBack] at listEq
  cases listEq
  have intact := sound.canaries ⟨4096, 3, false⟩ mem_cons_self
  revert intact
  decide +kernel

end CupidOs.Heap
