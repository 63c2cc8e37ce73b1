import CupidOs.Swap.Refinement
import Mathlib.Algebra.BigOperators.Pi
import Mathlib.Algebra.Order.BigOperators.Group.Finset

/-!
# The LRU list and the pins

Handles leave the LRU list with their first pin and return to it with the last unpin. As long as
`pin_count` does not wrap, the list holds the resident handles without outstanding pins, and
`g_pinned_count` counts the pins of all owners. Any transfer may fail.
-/

namespace CupidOs.Swap

open Bytes Function Heap Transition

/-- The pins that an owner has not undone. -/
def pinsOf (owner : Option Owner) : Nat := owner.elim 0 Owner.pins

/-- The pins of all handles of the table. -/
def outstanding (owners : Owners) : Nat :=
  ∑ handle ∈ Finset.range (swapMaxHandles + 1), pinsOf (owners handle)

/-- The list holds the resident handles in use without pins, the counter counts all pins, and pinned
handles stay where their owners see them. -/
structure LruLaw (state : State × Owners) : Prop where
  list : ∃ handles, state.1.lru.Holds swapInvalid handles ∧ ∀ handle, handle ∈ handles ↔
    Live state.1 handle ∧ (state.1.slots handle).residentPtr ≠ 0 ∧ pinsOf (state.2 handle) = 0
  count : state.1.pinnedCount = outstanding state.2
  kept : ∀ handle, ∀ owner ∈ state.2 handle, owner.pins ≠ 0 →
    owner.pointer ≠ 0 ∧ (state.1.slots handle).residentPtr = owner.pointer

variable {owners : Owners} {handle : Nat}

/-! ## Counting pins -/

/-- Changing what one owner knows changes the total by its pins. -/
theorem outstanding_update (owners : Owners) (inTable : handle ≤ swapMaxHandles)
    (after : Option Owner) :
    outstanding (update owners handle after) + pinsOf (owners handle) =
      outstanding owners + pinsOf after := by
  have member : handle ∈ Finset.range (swapMaxHandles + 1) := Finset.mem_range_succ_iff.mpr inTable
  have pins : (fun other => pinsOf (update owners handle after other)) =
      update (fun other => pinsOf (owners other)) handle (pinsOf after) :=
    comp_update pinsOf owners handle after
  have split := Finset.sum_erase_add _ (fun other => pinsOf (owners other)) member
  simp only [outstanding]
  rw [pins, Finset.sum_update_of_mem member, Finset.sdiff_singleton_eq_erase]
  omega

/-- The invariant, with the counter and the bound on the pins of each handle. -/
structure Counted (pools : Pools) (state : State) (owners : Owners) : Prop where
  represents : Represents pools state owners
  count : state.pinnedCount = outstanding owners
  bound : ∀ handle, pinsOf (owners handle) < 2 ^ 16

namespace Counted

variable {pools : Pools} {state : State}

section

variable (counted : Counted pools state owners)
include counted

lemma total : state.pinnedCount + 1 < 2 ^ 32 := by
  have most := Finset.sum_le_card_nsmul (Finset.range (swapMaxHandles + 1))
    (fun handle => pinsOf (owners handle)) 65535
    fun handle _ => Nat.le_of_lt_succ (counted.bound handle)
  rw [Finset.card_range] at most
  rw [counted.count]
  exact lt_of_le_of_lt (Nat.succ_le_succ most) (by decide)

lemma lruLaw : LruLaw (state, owners) := by
  obtain ⟨represents, count, _⟩ := counted
  constructor
  · obtain ⟨handles, held, membership⟩ := represents.lru
    refine ⟨handles, held, fun handle => (membership handle).trans ?_⟩
    refine and_congr_right fun live => and_congr_right fun _ => ?_
    obtain ⟨owner, known, ok⟩ := represents.owned handle live
    dsimp only
    rw [known, ← ok.pins]
    rfl
  · exact count
  · intro handle owner known pinned
    have ok := (represents.known known).2
    rw [ok.pins] at pinned
    obtain ⟨resident, pointerEq⟩ := ok.pinned pinned
    rw [pointerEq]
    exact ⟨resident, rfl⟩

/-- A call that changes what one owner knows keeps the count if the counter follows. -/
theorem of_update {next : State} {after : Option Owner}
    (represents : Represents pools next (update owners handle after))
    (inTable : handle ≤ swapMaxHandles)
    (count : next.pinnedCount + pinsOf (owners handle) = state.pinnedCount + pinsOf after)
    (bound : pinsOf after < 2 ^ 16) : Counted pools next (update owners handle after) := by
  refine ⟨represents, ?_, fun other => ?_⟩
  · have total := outstanding_update owners inTable after
    have before := counted.count
    omega
  · rcases eq_or_ne other handle with rfl | differ
    · simpa only [update_self] using bound
    · simpa only [update_of_ne differ] using counted.bound other

lemma of_modify {next : State} {owner : Owner} {change : Owner → Owner}
    (known : owners handle = some owner)
    (represents : Represents pools next (owners.modify handle change))
    (count : next.pinnedCount + owner.pins = state.pinnedCount + (change owner).pins)
    (bound : (change owner).pins < 2 ^ 16) : Counted pools next (owners.modify handle change) := by
  have inTable := (counted.represents.known known).1.inTable.2.1
  apply counted.of_update represents inTable
  · rw [known]
    exact count
  · rw [known]
    exact bound

lemma step (call : Call) (stores : OwnerStores (state, owners) call)
    (noPanic : NoPanic pools (state, owners) call) (room : PinFits (state, owners) call) :
    Counted pools (tracked pools (state, owners) call).1.1
      (tracked pools (state, owners) call).1.2 := by
  have after := (counted.represents.step call stores noPanic room).2
  have total := counted.total
  have represents := counted.represents
  cases call <;> simp only [NoPanic, tracked, Machine.observe_fst, Swap.step, represents.running,
    ownerNext] at noPanic after ⊢
  case kmalloc size =>
    rcases swapKmalloc_cases state size.toNat with
      refused | ⟨sizeClass, disk, _, _, _, available, taken⟩
    · rw [refused]
      exact counted
    rw [taken] at after ⊢
    have nonzero : ¬state.freeHead = 0 := available
    simp only [nonzero, if_false] at after ⊢
    obtain ⟨inTable, dead⟩ := represents.freeHead_unused available
    apply counted.of_update after inTable
    · rw [represents.unowned _ dead]
      rfl
    · exact Nat.two_pow_pos 16
  case pin handle io =>
    rcases represents.swapPin_cases noPanic room with ⟨next, outcome, _, pinsEq⟩ |
      ⟨owner, next, pointer, known, outcome, nonzero, pinsEq, _⟩
    · rw [outcome] at after ⊢
      exact ⟨after, pinsEq.trans counted.count, counted.bound⟩
    · rw [outcome, if_neg nonzero] at after ⊢
      apply counted.of_modify known after _ (room owner known)
      rw [pinsEq, wrap, Nat.mod_eq_of_lt total]
      exact Nat.add_right_comm _ 1 _
  case unpin handle =>
    rcases swapUnpin_cases noPanic with ⟨dead, same⟩ | ⟨live, isPinned⟩
    · rw [same, modify_unknown _ (represents.unowned handle dead)]
      exact counted
    obtain ⟨owner, known, ok⟩ := represents.owned handle live
    have lowered : (swapUnpin state handle).pinnedCount = wrap (state.pinnedCount + 2 ^ 32 - 1) := by
      have valid : validHandle state handle = true := live
      simp only [swapUnpin, valid, Bool.not_true, Bool.false_eq_true, isPinned, if_false,
        lruInsertHead]
      split_ifs <;> rfl
    have least := outstanding_update owners live.inTable.2.1 none
    have bound := counted.bound handle
    rw [known] at least bound
    simp only [pinsOf, Option.elim_some, Option.elim_none] at least bound
    rw [← counted.count] at least
    rw [← ok.pins] at isPinned
    apply counted.of_modify known after
    · rw [lowered, wrap]
      dsimp only
      omega
    · exact lt_of_le_of_lt (Nat.sub_le _ _) bound
  case free handle =>
    rcases swapFree_cases noPanic with ⟨dead, same⟩ | ⟨live, unpinned⟩
    · rw [same, ← represents.unowned handle dead, update_eq_self]
      exact counted
    obtain ⟨owner, known, ok⟩ := represents.owned handle live
    apply counted.of_update after live.inTable.2.1 _ (Nat.two_pow_pos 16)
    rw [swapFree_eq live unpinned, known]
    exact congrArg (state.pinnedCount + ·) (ok.pins.trans unpinned)
  case userWrite handle pointer offset value =>
    obtain ⟨owner, known, _⟩ := stores
    have bound := counted.bound handle
    rw [show owners handle = some owner from known] at bound
    exact counted.of_modify known after rfl bound

end

end Counted

lemma counted_swapInit (pools : Pools) (memory disk : Memory) :
    Counted pools (swapInit memory disk) fun _ => none :=
  ⟨represents_swapInit pools memory disk, Finset.sum_const_zero.symm, fun _ => by decide⟩

/-! ## Runs -/

/-- In every run without a panic in which no handle collects more than 65535 pins, the LRU
list holds exactly the resident handles without outstanding pins. -/
theorem lru_holds_unpinned_handles {pools : Pools} {memory disk : Memory} {calls : List Call}
    (lawful : (tracked pools).Along
      (fun state call => OwnerStores state call ∧ NoPanic pools state call ∧ PinFits state call)
      (swapInit memory disk, fun _ => none) calls) :
    (tracked pools).Along (fun state call => LruLaw (tracked pools state call).1)
      (swapInit memory disk, fun _ => none) calls := by
  apply Machine.along_of_invariant (I := fun state => Counted pools state.1 state.2) _ _
    (counted_swapInit pools memory disk) lawful
  · exact fun state call counted guard => counted.step call guard.1 guard.2.1 guard.2.2
  · exact fun state call counted guard => (counted.step call guard.1 guard.2.1 guard.2.2).lruLaw

theorem lru_holds_unpinned_handles_two_owners :
    (tracked smallPools).Along (fun state call => LruLaw (tracked smallPools state call).1) blank
      [.kmalloc 100, .kmalloc 200, .pin 1 goodIo, .pin 1 goodIo, .pin 2 goodIo, .unpin 1,
        .unpin 1, .pin 2 ⟨true, false, fun _ => 0⟩, .free 1] :=
  lru_holds_unpinned_handles (by decide +kernel)

lemma LruLaw.head_unpinned {state : State × Owners} (law : LruLaw state)
    (nonempty : state.1.lru.head ≠ swapInvalid) : pinsOf (state.2 state.1.lru.head) = 0 := by
  obtain ⟨handles, held, membership⟩ := law.list
  cases handles with
  | nil => exact absurd held.forward nonempty
  | cons first rest =>
    rw [held.forward.1]
    exact ((membership first).mp List.mem_cons_self).2.2

/-- After 65537 pins and one unpin a handle is on the LRU list with 65536 pins left. -/
theorem lru_holds_wrapped_handle : (tracked smallPools).Along
        (fun state call => OwnerCall state call ∧ NoPanic smallPools state call) blank wrapCalls ∧
      ¬(tracked smallPools).Along (fun state call => LruLaw (tracked smallPools state call).1) blank
        wrapCalls := by
  refine ⟨along_wrapCalls, ?_⟩
  rw [wrapCalls, Machine.along_append_iff, Machine.along_append_iff, run_sharedSlot, run_pins]
  rintro ⟨_, _, _, law, _⟩
  exact absurd (law.head_unpinned (by decide +kernel)) (by decide +kernel)

end CupidOs.Swap
