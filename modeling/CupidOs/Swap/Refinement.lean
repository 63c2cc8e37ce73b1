import CupidOs.Swap.Eviction

/-!
# Swap handles behave as byte arrays

In a run without a panic whose owners write through pinned pointers only, every
handle reads back what its owner left, as long as no handle collects more pins
than the 16-bit `pin_count` can count.
-/

namespace CupidOs.Swap

open Bytes Function Heap CupidOs.Lists Option Transition

/-! ## The specification -/

/-- Owners store through pointers of handles they have pinned, in bounds; the backing file may
fail. -/
def OwnerStores (state : State × Owners) : Call → Prop
  | .userWrite handle pointer offset _ =>
    ∃ owner ∈ state.2 handle, 0 < owner.pins ∧ owner.pointer = pointer ∧ offset < owner.size
  | _ => True

instance (state : State × Owners) (call : Call) : Decidable (OwnerStores state call) := by
  cases call <;> dsimp only [OwnerStores] <;> infer_instance

/-- The backing file works. -/
def FileWorks : Call → Prop
  | .pin _ io => io.readOk = true ∧ io.writeOk = true
  | _ => True

instance (call : Call) : Decidable (FileWorks call) := by
  cases call <;> dsimp only [FileWorks] <;> infer_instance

/-- The backing file works, and owners store through pointers of handles they have pinned. -/
def OwnerCall (state : State × Owners) (call : Call) : Prop :=
  OwnerStores state call ∧ FileWorks call

instance (state : State × Owners) (call : Call) : Decidable (OwnerCall state call) :=
  inferInstanceAs (Decidable (_ ∧ _))

/-- The call does not end in `kernel_panic`. -/
def NoPanic (pools : Pools) (state : State × Owners) (call : Call) : Prop :=
  ∀ message, (tracked pools state call).1.1.halted ≠ some (.panic message)

instance (pools : Pools) (state : State × Owners) (call : Call) :
    Decidable (NoPanic pools state call) :=
  match haltedEq : (tracked pools state call).1.1.halted with
  | none => .isTrue fun _ panicked => by rw [haltedEq] at panicked; cases panicked
  | some .diverges => .isTrue fun _ panicked => by rw [haltedEq] at panicked; cases panicked
  | some (.panic message) => .isFalse fun noPanic => noPanic message haltedEq

/-- A handle that is pinned once more has a pin left in `pin_count`. -/
def PinFits (state : State × Owners) : Call → Prop
  | .pin handle _ => ∀ owner ∈ state.2 handle, owner.pins + 1 < 2 ^ 16
  | .kmalloc _ => True
  | .unpin _ => True
  | .free _ => True
  | .userWrite _ _ _ _ => True

instance (state : State × Owners) (call : Call) : Decidable (PinFits state call) := by
  cases call <;> dsimp only [PinFits] <;> infer_instance

/-- A pointer that `swap_pin` returns shows the bytes that the owner left. -/
def PinShowsContents (pools : Pools) (state : State × Owners) : Call → Prop
  | .pin handle io =>
    (step pools state.1 (.pin handle io)).2.value ≠ 0 → ∃ owner, state.2 handle = some owner ∧
        ∀ bytes ∈ owner.contents, ∀ index < owner.size,
          (step pools state.1 (.pin handle io)).2.window index = bytes index
  | .kmalloc _ => True
  | .unpin _ => True
  | .free _ => True
  | .userWrite _ _ _ _ => True

/-- Different live handles have different disk slots and, when resident,
different RAM slots. -/
def SlotsApart (state : State) : Prop :=
  ∀ first second, first ≠ second → Live state first → Live state second →
    ¬((state.slots first).sizeClass = (state.slots second).sizeClass ∧
        (state.slots first).diskSlot = (state.slots second).diskSlot) ∧
      ((state.slots first).residentPtr ≠ 0 → (state.slots second).residentPtr ≠ 0 →
        (state.slots first).residentPtr + swapDiskSlotBytes (state.slots first).sizeClass ≤
            (state.slots second).residentPtr ∨
          (state.slots second).residentPtr + swapDiskSlotBytes (state.slots second).sizeClass ≤
            (state.slots first).residentPtr)

/-- One call does what owners of separate byte arrays expect. -/
structure Behaves (pools : Pools) (state : State × Owners) (call : Call) : Prop where
  shows : PinShowsContents pools state call
  running : (tracked pools state call).1.1.halted = none
  apart : SlotsApart (tracked pools state call).1.1

variable {pools : Pools} {handle : Nat} {state : State × Owners} {owners : Owners}

section

variable {state : State} (represents : Represents pools state owners)
include represents

lemma Represents.slotsApart : SlotsApart state := by
  intro first second differ firstLive secondLive
  constructor
  · rintro ⟨classEq, slotEq⟩
    exact differ (represents.apart.disk first second firstLive secondLive classEq slotEq)
  · exact represents.resident_apart firstLive secondLive differ

/-! ## One call -/

/-- `swap_pin` gives no pointer, or one that shows what the owner left. -/
theorem Represents.swapPin_cases {io : DiskIo}
    (noPanic : ∀ message, (swapPin pools io state handle).1.halted ≠ some (.panic message))
    (room : ∀ owner ∈ owners handle, owner.pins + 1 < 2 ^ 16) :
    (∃ next, swapPin pools io state handle = (next, 0) ∧ Represents pools next owners ∧
        next.pinnedCount = state.pinnedCount) ∨
      ∃ owner next pointer, owners handle = some owner ∧
        swapPin pools io state handle = (next, pointer) ∧ pointer ≠ 0 ∧
        next.pinnedCount = wrap (state.pinnedCount + 1) ∧
        (∀ bytes ∈ owner.contents, ∀ index < owner.size,
          next.memory (pointer + index) = bytes index) ∧
        Represents pools next (owners.modify handle
          (Owner.pinned ⟨pointer, fun index => next.memory (pointer + index)⟩)) := by
  by_cases live : Live state handle
  swap
  · have invalid : validHandle state handle = false := by simpa [Live] using live
    exact .inl ⟨state, by simp [swapPin, invalid], represents, rfl⟩
  have valid : validHandle state handle = true := live
  rcases represents.owned handle live with ⟨owner, known, ok⟩
  by_cases resident : (state.slots handle).residentPtr ≠ 0
  · have memoryEq : (Swap.pinResident state handle).memory = state.memory := by
      rw [pinResident_eq]
    have countRoom := room owner known
    rw [ok.pins] at countRoom
    refine .inr ⟨owner, Swap.pinResident state handle, _, known, ?_, resident, rfl, ?_, ?_⟩
    · simp only [swapPin, valid, Bool.not_true, Bool.false_eq_true, if_false, resident, ne_eq,
        not_false_eq_true, if_true]
    · rw [memoryEq]
      exact ok.window resident
    · exact represents.pinResident live resident countRoom rfl fun _ => by rw [memoryEq]
  have notResident : (state.slots handle).residentPtr = 0 := not_not.mp resident
  by_cases noPool : pools.ramCap (state.slots handle).sizeClass = 0
  · exact .inl ⟨state, by simp [swapPin, valid, notResident, noPool], represents, rfl⟩
  rcases represents.lru with ⟨handles, held, membership⟩
  have enough : handles.length < walkFuel + 1 := by
    have := length_le_of_evictable held.nodup membership
    exact Nat.lt_succ_of_le (Nat.le_succ_of_le this)
  rcases represents.acquireRam io (state.slots handle).sizeClass (walkFuel + 1) membership enough
    with ⟨next, message, halts, panicked⟩ | ⟨next, full, represented, pinsEq⟩ |
      ⟨next, ram, found, represented, reserved, pinsEq, kept⟩
  · have outcome : swapPin pools io state handle = (next, 0) := by
      simp [swapPin, valid, notResident, noPool, halts]
    rw [outcome] at noPanic
    exact absurd panicked (noPanic message)
  · exact .inl ⟨next, by simp [swapPin, valid, notResident, noPool, full], represented, pinsEq⟩
  have outcome : swapPin pools io state handle = loadSlot pools io next handle ram := by
    simp [swapPin, valid, notResident, noPool, found]
  rw [outcome]
  have slotEq := kept handle notResident
  rcases represented.known known with ⟨liveNext, okNext⟩
  rw [← slotEq] at reserved notResident
  cases reads : io.readOk with
  | false =>
    obtain ⟨dropped, failed, after, same⟩ := represented.loadSlot_failed reads okNext reserved
    exact .inl ⟨dropped, failed, after, same.trans pinsEq⟩
  | true =>
    refine .inr ⟨owner, _, _, known, loadSlot_eq reads okNext reserved.bound,
      ramSlotPtr_pos pools reserved.bound, ?_, ?_,
      represented.loaded liveNext notResident reserved rfl fun _ => rfl⟩
    · simp only [Swap.loaded, pinsEq]
    · intro bytes member index inside
      rw [okNext.size] at inside
      exact (okNext.loaded_bytes ram notResident inside).trans
        (okNext.contents bytes member index inside)

/-- What a pin returns and leaves, for every path through `swap_pin`. -/
theorem Represents.pin {io : DiskIo}
    (noPanic : NoPanic pools (state, owners) (.pin handle io))
    (room : ∀ owner ∈ owners handle, owner.pins + 1 < 2 ^ 16) :
    PinShowsContents pools (state, owners) (.pin handle io) ∧
      Represents pools (tracked pools (state, owners) (.pin handle io)).1.1
        (tracked pools (state, owners) (.pin handle io)).1.2 := by
  simp only [NoPanic, PinShowsContents, tracked, Machine.observe_fst, step, represents.running,
    ownerNext] at noPanic ⊢
  rcases represents.swapPin_cases noPanic room with
    ⟨next, outcome, after, _⟩ | ⟨owner, next, pointer, known, outcome, nonzero, _, shows, after⟩
  · rw [outcome]
    exact ⟨fun nonzero => absurd rfl nonzero, after⟩
  · rw [outcome, if_neg nonzero]
    exact ⟨fun _ => ⟨owner, known, shows⟩, after⟩

end

lemma swapUnpin_cases {state : State}
    (noPanic : ∀ message, (swapUnpin state handle).halted ≠ some (.panic message)) :
    ¬Live state handle ∧ swapUnpin state handle = state ∨
      Live state handle ∧ (state.slots handle).pinCount ≠ 0 := by
  by_cases live : Live state handle
  · have valid : validHandle state handle = true := live
    refine .inr ⟨live, fun unpinned => ?_⟩
    exact noPanic "swap_unpin on already-unpinned handle %u" (by simp [swapUnpin, valid, unpinned])
  · have invalid : validHandle state handle = false := by simpa [Live] using live
    exact .inl ⟨live, by simp [swapUnpin, invalid]⟩

lemma swapFree_cases {state : State}
    (noPanic : ∀ message, (swapFree pools state handle).halted ≠ some (.panic message)) :
    ¬Live state handle ∧ swapFree pools state handle = state ∨
      Live state handle ∧ (state.slots handle).pinCount = 0 := by
  by_cases live : Live state handle
  · have valid : validHandle state handle = true := live
    refine .inr ⟨live, by_contra fun pinned => ?_⟩
    exact noPanic "swap_free on pinned handle %u (pin_count=%u)"
      (by simp [swapFree, valid, Nat.pos_of_ne_zero pinned])
  · have invalid : validHandle state handle = false := by simpa [Live] using live
    exact .inl ⟨live, by simp [swapFree, invalid]⟩

/-- One call by well-behaved owners keeps the invariant and shows their bytes. -/
theorem Represents.step (represents : Represents pools state.1 state.2) (call : Call)
    (owner : OwnerStores state call) (noPanic : NoPanic pools state call)
    (room : PinFits state call) :
    PinShowsContents pools state call ∧
      Represents pools (tracked pools state call).1.1 (tracked pools state call).1.2 := by
  rcases state with ⟨state, owners⟩
  have running : state.halted = none := represents.running
  cases call with
  | kmalloc size =>
    refine ⟨trivial, ?_⟩
    simp only [tracked, Machine.observe_fst, Swap.step, running, ownerNext]
    exact represents.kmalloc size.toNat
  | pin handle io => exact represents.pin noPanic room
  | unpin handle =>
    refine ⟨trivial, ?_⟩
    simp only [NoPanic, tracked, Machine.observe_fst, Swap.step, running, ownerNext] at noPanic ⊢
    rcases swapUnpin_cases noPanic with ⟨dead, same⟩ | ⟨live, isPinned⟩
    · rw [same, modify_unknown _ (represents.unowned handle dead)]
      exact represents
    · exact represents.unpin live isPinned
  | free handle =>
    refine ⟨trivial, ?_⟩
    simp only [NoPanic, tracked, Machine.observe_fst, Swap.step, running, ownerNext] at noPanic ⊢
    rcases swapFree_cases noPanic with ⟨dead, same⟩ | ⟨live, unpinned⟩
    · rw [same, ← represents.unowned handle dead, update_eq_self]
      exact represents
    · exact represents.release live unpinned
  | userWrite handle pointer offset value =>
    refine ⟨trivial, ?_⟩
    rcases owner with ⟨owner, known, isPinned, rfl, inside⟩
    simp only [tracked, Machine.observe_fst, Swap.step, running, ownerNext]
    have written := represents.userWrite value known isPinned inside
    simpa only [running] using written

/-! ## Runs -/

/-- In every run whose owners keep to the rules, that does not panic and that
never pins a handle beyond 16 bits, each handle is its owner's byte array. -/
theorem swap_handles_are_arrays {pools : Pools} {memory disk : Memory} {calls : List Call}
    (lawful : (tracked pools).Along
      (fun state call => OwnerCall state call ∧ NoPanic pools state call ∧ PinFits state call)
      (swapInit memory disk, fun _ => none) calls) :
    (tracked pools).Along (Behaves pools) (swapInit memory disk, fun _ => none) calls := by
  apply Machine.along_of_invariant (I := fun state => Represents pools state.1 state.2) _ _
    (represents_swapInit pools memory disk) lawful
  · intro state call represents guard
    exact (represents.step call guard.1.1 guard.2.1 guard.2.2).2
  · intro state call represents guard
    rcases represents.step call guard.1.1 guard.2.1 guard.2.2 with ⟨shows, after⟩
    exact ⟨shows, after.running, after.slotsApart⟩

/-- A pool of 4096 bytes: one RAM slot for the 1 KB class, none for the others. -/
def smallPools : Pools where
  poolBytes := 4096
  ramBase sizeClass := if sizeClass.val = 0 then 8192 else 0
  based := by decide
  apart := by decide

/-- A backing file that completes every transfer. -/
def goodIo : DiskIo :=
  ⟨true, true, fun _ => 0⟩

/-- No handle allocated yet; memory and backing file hold zeros. -/
def blank : State × Owners :=
  (swapInit (fun _ => 0) fun _ => 0, fun _ => none)

theorem swap_handles_are_arrays_two_owners : (tracked smallPools).Along (Behaves smallPools) blank
      [.kmalloc 100, .kmalloc 200, .pin 1 goodIo, .userWrite 1 8192 0 7, .unpin 1,
        .pin 2 goodIo, .userWrite 2 8192 0 9, .unpin 2, .pin 1 goodIo] :=
  swap_handles_are_arrays (by decide +kernel)

/-! ## A pin count that wraps -/

/-- The state after `count` more pins of a handle that stays resident. -/
def pinnedTimes (state : State × Owners) (handle count : Nat) : State × Owners :=
  ({ state.1 with
      slots := update state.1.slots handle
        { state.1.slots handle with
          pinCount := ((state.1.slots handle).pinCount + count) % 2 ^ 16 }
      pinnedCount := wrap (state.1.pinnedCount + count) },
    state.2.modify handle fun owner => { owner with pins := owner.pins + count })

@[simp]
lemma pinnedTimes_halted (state : State × Owners) (handle count : Nat) :
    (pinnedTimes state handle count).1.halted = state.1.halted :=
  rfl

lemma modify_modify (owners : Owners) (handle : Nat) (first second : Owner → Owner) :
    (owners.modify handle first).modify handle second = owners.modify handle (second ∘ first) := by
  simp [Owners.modify, update_idem, map_map]

lemma pinnedTimes_zero (countBound : (state.1.slots handle).pinCount < 2 ^ 16)
    (totalBound : state.1.pinnedCount < 2 ^ 32) : pinnedTimes state handle 0 = state := by
  have owners : (state.2.modify handle fun owner => { owner with pins := owner.pins + 0 }) =
      state.2 := by
    simp [Owners.modify]
  simp only [pinnedTimes, Nat.add_zero, Nat.mod_eq_of_lt countBound, wrap,
    Nat.mod_eq_of_lt totalBound, update_eq_self]
  simp only [Nat.add_zero] at owners
  rw [owners]

/-- Pinning once more, as long as the counter is not at zero. -/
theorem tracked_pinnedTimes {count : Nat} {owner : Owner} {bytes : Nat → UInt8} (io : DiskIo)
    (running : state.1.halted = none) (live : Live state.1 handle)
    (resident : (state.1.slots handle).residentPtr ≠ 0) (known : state.2 handle = some owner)
    (pointerEq : owner.pointer = (state.1.slots handle).residentPtr)
    (contents : owner.contents = some bytes)
    (counted : ((state.1.slots handle).pinCount + count) % 2 ^ 16 ≠ 0) :
    (tracked pools (pinnedTimes state handle count) (.pin handle io)).1 =
      pinnedTimes state handle (count + 1) := by
  have valid : validHandle (pinnedTimes state handle count).1 handle = true :=
    (live_congr (by simp only [pinnedTimes, update_self])).mpr live
  have stillRunning : (pinnedTimes state handle count).1.halted = none := running
  have pointer : ((pinnedTimes state handle count).1.slots handle).residentPtr =
      (state.1.slots handle).residentPtr := by
    simp only [pinnedTimes, update_self]
  have outcome : swapPin pools io (pinnedTimes state handle count).1 handle =
      (pinResident (pinnedTimes state handle count).1 handle,
        (state.1.slots handle).residentPtr) := by
    simp only [swapPin, valid, Bool.not_true, Bool.false_eq_true, if_false, pointer, resident,
      ne_eq, not_false_eq_true, if_true]
  simp only [tracked, Machine.observe_fst, step, stillRunning, ownerNext, outcome, resident,
    if_false]
  refine Prod.ext ?_ ?_
  · simp only [pinResident, pinnedTimes, update_self, counted, if_false, setSlot,
      update_idem, wrap, Nat.mod_add_mod, Nat.add_assoc]
  · simp only [pinnedTimes, modify_modify]
    funext other
    rcases eq_or_ne other handle with rfl | differ
    · rw [modify_self _ known, modify_self _ known]
      simp only [comp, Owner.pinned, contents, getD_some, ← pointerEq, Nat.add_assoc]
    · rw [modify_of_ne _ _ differ, modify_of_ne _ _ differ]

/-- Two handles over one RAM slot; the second was pinned and unpinned, the first is pinned. -/
def sharedSlot : State × Owners :=
  (tracked smallPools).run blank
    [.kmalloc 1024, .kmalloc 1024, .pin 2 goodIo, .unpin 2, .pin 1 goodIo]

lemma run_sharedSlot : (tracked smallPools).run blank
    [.kmalloc 1024, .kmalloc 1024, .pin 2 goodIo, .unpin 2, .pin 1 goodIo] = sharedSlot :=
  rfl

/-- The counter of the first handle has wrapped to one; an unpin makes it evictable, and its owner
writes into the slot of the second. -/
def afterWrap : List Call :=
  [.pin 1 goodIo, .unpin 1, .pin 2 goodIo, .userWrite 1 8192 0 1, .unpin 2]

lemma sharedSlot_pins (count : Nat) (bound : count < 65535) :
    (tracked smallPools (pinnedTimes sharedSlot 1 count) (.pin 1 goodIo)).1 =
      pinnedTimes sharedSlot 1 (count + 1) := by
  have owner : ∃ owner, sharedSlot.2 1 = some owner ∧ owner.pointer = 8192 ∧
      owner.contents.isSome = true := by
    have summary : (sharedSlot.2 1).map
        (fun owner => (owner.pointer, owner.contents.isSome)) = some (8192, true) := by
      decide +kernel
    rcases map_eq_some_iff.mp summary with ⟨owner, known, pairEq⟩
    exact ⟨owner, known, congrArg Prod.fst pairEq, congrArg Prod.snd pairEq⟩
  rcases owner with ⟨owner, known, pointerEq, isSome⟩
  rcases isSome_iff_exists.mp isSome with ⟨bytes, contents⟩
  have pinCount : (sharedSlot.1.slots 1).pinCount = 1 := by decide +kernel
  have resident : (sharedSlot.1.slots 1).residentPtr = 8192 := by decide +kernel
  apply tracked_pinnedTimes goodIo (by decide +kernel) (by decide +kernel) _ known
    (pointerEq.trans resident.symm) contents
  · rw [pinCount]
    omega
  · rw [resident]
    decide

/-- The run up to the last pin of the second handle. -/
def wrapCalls : List Call :=
  [.kmalloc 1024, .kmalloc 1024, .pin 2 goodIo, .unpin 2, .pin 1 goodIo] ++
    (List.replicate 65535 (.pin 1 goodIo) ++ afterWrap)

lemma run_pins : (tracked smallPools).run sharedSlot (List.replicate 65535 (.pin 1 goodIo)) =
    pinnedTimes sharedSlot 1 65535 := by
  have pins := Machine.run_replicate (pinnedTimes sharedSlot 1) 65535 sharedSlot_pins
  rwa [pinnedTimes_zero (by decide +kernel) (by decide +kernel)] at pins

lemma run_wrapCalls : (tracked smallPools).run blank wrapCalls =
    (tracked smallPools).run (pinnedTimes sharedSlot 1 65535) afterWrap := by
  rw [wrapCalls, Machine.run_append, Machine.run_append, run_sharedSlot, run_pins]

lemma along_wrapCalls : (tracked smallPools).Along
    (fun state call => OwnerCall state call ∧ NoPanic smallPools state call) blank wrapCalls := by
  have running : sharedSlot.1.halted = none := by decide +kernel
  have lawful := Machine.along_replicate
    (P := fun state call => OwnerCall state call ∧ NoPanic smallPools state call)
    (pinnedTimes sharedSlot 1) 65535 sharedSlot_pins (by
      intro count bound
      refine ⟨⟨trivial, rfl, rfl⟩, ?_⟩
      intro message panicked
      rw [sharedSlot_pins count bound, pinnedTimes_halted, running] at panicked
      cases panicked)
  rw [pinnedTimes_zero (by decide +kernel) (by decide +kernel)] at lawful
  rw [wrapCalls, Machine.along_append_iff, Machine.along_append_iff, run_sharedSlot, run_pins]
  exact ⟨by decide +kernel, lawful, by decide +kernel⟩

/-- After 65537 pins and one unpin of a handle its RAM slot is given to another
handle while the first owner still holds 65536 pins; what it writes shows up in
the other handle. -/
theorem swap_wrapped_pin_count_shares_slot : (tracked smallPools).Along
        (fun state call => OwnerCall state call ∧ NoPanic smallPools state call) blank
        (wrapCalls ++ [.pin 2 goodIo]) ∧
      ¬(tracked smallPools).Along (Behaves smallPools) blank (wrapCalls ++ [.pin 2 goodIo]) := by
  constructor
  · rw [Machine.along_append_iff, run_wrapCalls]
    exact ⟨along_wrapCalls, by decide +kernel⟩
  · rw [Machine.along_append_iff, run_wrapCalls]
    rintro ⟨_, behaves, _⟩
    have returned : (step smallPools ((tracked smallPools).run
        (pinnedTimes sharedSlot 1 65535) afterWrap).1 (.pin 2 goodIo)).2.value ≠ 0 := by
      decide +kernel
    have shown : (step smallPools ((tracked smallPools).run
        (pinnedTimes sharedSlot 1 65535) afterWrap).1 (.pin 2 goodIo)).2.window 0 = 1 := by
      decide +kernel
    have left : (((tracked smallPools).run (pinnedTimes sharedSlot 1 65535) afterWrap).2 2).map
        (fun owner => (decide (0 < owner.size), owner.contents.map fun bytes => bytes 0)) =
        some (true, some 0) := by
      decide +kernel
    rcases behaves.shows returned with ⟨owner, known, contents⟩
    rw [known] at left
    simp only [map_some, some.injEq, Prod.mk.injEq, decide_eq_true_eq] at left
    rcases map_eq_some_iff.mp left.2 with ⟨bytes, bytesEq, zero⟩
    have read := contents bytes bytesEq 0 left.1
    rw [shown, zero] at read
    exact absurd read (by decide)

end CupidOs.Swap
