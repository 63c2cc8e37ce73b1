import CupidOs.Heap.Refinement

/-!
# What a request gets

`kmalloc_debug` adds the canary to the requested size in 32 bits, so a request close to
`2 ^ 32` gets a small block. The heap itself stays sound as long as owners keep to the
blocks that they got.
-/

namespace CupidOs.Heap

open Allocator List Transition

/-- The bytes of an allocation that its owner both asked for and got. -/
def Allocation.granted (allocation : Allocation) : Allocation :=
  { allocation with size := min allocation.size (wrap (allocation.size + 4)) }

/-- Owners free live pointers and store inside the block that they got. -/
def BlockCall (state : State × List Allocation) : Call → Prop :=
  OwnerCall (state.1, state.2.map Allocation.granted)

instance (state : State × List Allocation) (call : Call) : Decidable (BlockCall state call) :=
  inferInstanceAs (Decidable (OwnerCall _ call))

/-- The heap is sound for the blocks that the owners got. -/
def Granted (base stop : Nat) (state : State × List Allocation) : Prop :=
  ∃ blocks, Represents base stop (state.1, state.2.map Allocation.granted) blocks

variable {base stop size file line now : Nat} {state : State} {live : List Allocation}
  {blocks : List Block} {call : Call}

lemma Granted.step {state : State × List Allocation} (granted : Granted base stop state)
    (owner : BlockCall state call) : Granted base stop (tracked state call).1 := by
  rcases state with ⟨state, live⟩
  obtain ⟨blocks, represents⟩ := granted
  have running : state.halted = none := represents.running
  simp only [Granted, tracked, Machine.observe_fst, Heap.step, running]
  cases call with
  | kmalloc size file line now =>
    simp only [ownerNext, apply_ite (map Allocation.granted), map_cons]
    exact represents.kmalloc file.toNat line.toNat now.toNat (min_le_right _ _)
  | kfree pointer now =>
    have freed := represents.kfree now.toNat owner
    rwa [filter_map] at freed
  | userWrite pointer offset value =>
    exact ⟨blocks, by simpa only [running, ownerNext] using represents.userWrite value owner⟩
  | checkIntegrity =>
    rw [represents.checkIntegrity]
    exact ⟨blocks, represents⟩

/-- The block behind the returned pointer has at least the requested size. -/
def GrantsRequest (state : State) (size file line now : Nat) : Prop :=
  (kmallocDebug state size file line now).2 ≠ 0 →
    size ≤ sizeField (kmallocDebug state size file line now).1.memory
      (wrap ((kmallocDebug state size file line now).2 + 2 ^ 32 - headerSize))

/-- A heap that owners who keep to their blocks can reach. -/
def Reachable (state : State × List Allocation) : Prop :=
  ∃ boot initialPages calls, boot.heapHead = 0 ∧ (heapInit boot initialPages).halted = none ∧
    tracked.Along BlockCall (heapInit boot initialPages, []) calls ∧
    tracked.run (heapInit boot initialPages, []) calls = state

lemma Reachable.granted {state : State × List Allocation} (reachable : Reachable state) :
    ∃ base stop, Granted base stop state := by
  obtain ⟨boot, initialPages, calls, unset, running, owners, rfl⟩ := reachable
  exact ⟨_, _, Machine.run_invariant (fun _ _ => Granted.step)
    (heapInit_represents running unset) owners⟩

/-- The size of the block that was taken is what the source has added up to, or more. -/
theorem Represents.le_sizeField (represents : Represents base stop (state, live) blocks)
    (returned : (kmallocDebug state size file line now).2 ≠ 0) :
    wrap (size + 4) ≤ sizeField (kmallocDebug state size file line now).1.memory
      (wrap ((kmallocDebug state size file line now).2 + 2 ^ 32 - headerSize)) := by
  rcases represents.kmallocDebug_cases size file line now with
    ⟨refused, _⟩ | ⟨before, block, after, rfl, isFree, room, taken⟩
  · rw [refused] at returned
    exact absurd rfl returned
  · have bound := represents.bound
    have extent := represents.tiles.mem_bounds (show block ∈ before ++ block :: after by simp)
    have next := (represents.take isFree room (Nat.zero_le _) file line now state.tracker).linked
    obtain ⟨head, rest, carveEq, addressEq, -, large⟩ :=
      carve_head blockOverhead heapMinSplit (wrap (size + 4)) block
    rw [carveEq, append_assoc, Segment.append_iff, cons_append] at next
    have sizeEq := next.2.1.size
    rw [addressEq] at sizeEq
    have header : headerSize = 28 := rfl
    have blockEq : wrap (block.address + headerSize + 2 ^ 32 - headerSize) = block.address := by
      simp only [wrap]
      omega
    rw [taken]
    dsimp only at sizeEq ⊢
    rw [blockEq, sizeEq]
    exact large room

lemma reachable_bootState : Reachable (heapInit bootState 1, []) :=
  ⟨bootState, 1, [], rfl, by decide +kernel, trivial, rfl⟩

/-- A size is served in every reachable heap if and only if it leaves room for the canary. -/
theorem kmalloc_grants_iff (size : UInt32) :
    (∀ state, Reachable state → ∀ file line now : UInt32,
      GrantsRequest state.1 size.toNat file.toNat line.toNat now.toNat) ↔
      size.toNat + 4 < 2 ^ 32 := by
  constructor
  · intro grants
    by_contra large
    have bound := size.toNat_lt
    have served := grants _ reachable_bootState 0 0 0
    have sizes : size.toNat = 0xFFFFFFFC ∨ size.toNat = 0xFFFFFFFD ∨ size.toNat = 0xFFFFFFFE ∨
        size.toNat = 0xFFFFFFFF := by omega
    unfold GrantsRequest at served
    rcases sizes with sizeEq | sizeEq | sizeEq | sizeEq <;> rw [sizeEq] at served <;>
      exact absurd served (by decide +kernel)
  · intro fits state reachable file line now returned
    obtain ⟨base, stop, blocks, represents⟩ := reachable.granted
    have large := represents.le_sizeField returned
    rw [wrap_of_lt fits] at large
    omega

/-- A request for `0xFFFFFFFF` bytes gets a block of three. -/
theorem kmalloc_grants_three_bytes :
    Reachable (heapInit bootState 1, []) ∧
      ¬ GrantsRequest (heapInit bootState 1) 0xFFFFFFFF 0 0 0 := by
  refine ⟨reachable_bootState, ?_⟩
  unfold GrantsRequest
  decide +kernel

end CupidOs.Heap
