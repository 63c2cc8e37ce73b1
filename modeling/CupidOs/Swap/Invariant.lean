import CupidOs.Swap.Core
import Mathlib.Data.Fintype.Basic
import Mathlib.Tactic.FinCases

/-!
# What the swap tables mean

Owners see a handle as a byte array of their own.  `Represents` ties that view
to the tables: where the bytes of each live handle are, which bitmap bits stand
for them, and which handles the LRU list and the free list hold.
-/

namespace CupidOs.Swap

open Bytes Function Heap List CupidOs.Lists Transition

/-! ## Layout -/

lemma swapDiskSlotBytes_pos (sizeClass : SizeClass) : 0 < swapDiskSlotBytes sizeClass := by
  fin_cases sizeClass <;> decide

variable {first second left handle : Nat} {state : State} {pools : Pools}

/-- Different multiples of a stride are a whole stride apart. -/
theorem stride_apart (stride : Nat) (differ : first ≠ second) :
    first * stride + stride ≤ second * stride ∨ second * stride + stride ≤ first * stride := by
  rcases Nat.lt_or_gt_of_ne differ with less | greater
  · exact Or.inl (by rw [← Nat.succ_mul]; exact Nat.mul_le_mul_right stride less)
  · exact Or.inr (by rw [← Nat.succ_mul]; exact Nat.mul_le_mul_right stride greater)

lemma stride_within {slot count : Nat} (stride : Nat) (within : slot < count) :
    slot * stride + stride ≤ count * stride := by
  rw [← Nat.succ_mul]
  exact Nat.mul_le_mul_right stride within

lemma ramSlots_apart (pools : Pools) {first second : SizeClass} {right : Nat}
    (leftBound : left < pools.ramCap first) (rightBound : right < pools.ramCap second)
    (differ : ¬(first = second ∧ left = right)) :
    ramSlotPtr pools first left + swapDiskSlotBytes first ≤ ramSlotPtr pools second right ∨
      ramSlotPtr pools second right + swapDiskSlotBytes second ≤ ramSlotPtr pools first left := by
  simp only [ramSlotPtr]
  by_cases sameClass : first = second
  · subst sameClass
    have := stride_apart (swapDiskSlotBytes first) (fun same => differ ⟨rfl, same⟩)
    omega
  have leftWithin := stride_within (swapDiskSlotBytes first) leftBound
  have rightWithin := stride_within (swapDiskSlotBytes second) rightBound
  have := pools.apart first second sameClass
  simp only [Pools.ramCap] at leftWithin rightWithin
  omega

lemma ramSlotPtr_pos (pools : Pools) {sizeClass : SizeClass} {slot : Nat}
    (bound : slot < pools.ramCap sizeClass) : ramSlotPtr pools sizeClass slot ≠ 0 := by
  have := pools.based sizeClass (Nat.zero_lt_of_lt bound)
  simp only [ramSlotPtr]
  omega

lemma ramSlotPtr_inj (pools : Pools) {first second : SizeClass} {right : Nat}
    (leftBound : left < pools.ramCap first) (rightBound : right < pools.ramCap second)
    (same : ramSlotPtr pools first left = ramSlotPtr pools second right) :
    first = second ∧ left = right := by
  by_contra differ
  have := ramSlots_apart pools leftBound rightBound differ
  have := swapDiskSlotBytes_pos first
  have := swapDiskSlotBytes_pos second
  omega

@[simp]
lemma ramSlotFromPtr_ramSlotPtr (pools : Pools) (sizeClass : SizeClass) (slot : Nat) :
    ramSlotFromPtr pools sizeClass (ramSlotPtr pools sizeClass slot) = slot := by
  simp only [ramSlotFromPtr, ramSlotPtr, Nat.add_sub_cancel_left]
  exact Nat.mul_div_cancel slot (swapDiskSlotBytes_pos sizeClass)

/-- The regions of the classes lie back to back, 4 MB each. -/
theorem region_layout (sizeClass : SizeClass) :
    swapDiskRegionOffset sizeClass = sizeClass.val * 0x400000 ∧
      swapDiskSlotCount sizeClass * swapDiskSlotBytes sizeClass = 0x400000 := by
  fin_cases sizeClass <;> decide

/-- Different disk slots occupy different bytes of the backing file. -/
theorem diskSlots_apart {first second : SizeClass} {right : Nat}
    (leftBound : left < swapDiskSlotCount first) (rightBound : right < swapDiskSlotCount second)
    (differ : ¬(first = second ∧ left = right)) :
    diskOffset first left + swapDiskSlotBytes first ≤ diskOffset second right ∨
      diskOffset second right + swapDiskSlotBytes second ≤ diskOffset first left := by
  simp only [diskOffset]
  by_cases sameClass : first = second
  · subst sameClass
    have := stride_apart (swapDiskSlotBytes first) (fun same => differ ⟨rfl, same⟩)
    omega
  have leftWithin := stride_within (swapDiskSlotBytes first) leftBound
  have rightWithin := stride_within (swapDiskSlotBytes second) rightBound
  have valuesDiffer : first.val ≠ second.val := fun same => sameClass (Fin.ext same)
  have regions := stride_apart 0x400000 valuesDiffer
  have leftLayout := region_layout first
  have rightLayout := region_layout second
  omega

/-! ## Owners -/

/-- The size asked for, the outstanding pins, the pointer and, from the first pin on, the bytes
left. -/
structure Owner where
  size : Nat
  pins : Nat
  pointer : Nat
  contents : Option (Nat → UInt8)

abbrev Owners := Nat → Option Owner

/-- Change what the owner of a live handle knows. -/
def Owners.modify (owners : Owners) (handle : Nat) (change : Owner → Owner) : Owners :=
  update owners handle ((owners handle).map change)

/-- The view of the owner after a pin that returned `reply`. -/
def Owner.pinned (reply : Reply) (owner : Owner) : Owner :=
  { owner with
    pins := owner.pins + 1
    pointer := reply.value
    contents := some (owner.contents.getD reply.window) }

/-- What the owners know after a call. -/
def ownerNext (owners : Owners) (call : Call) (reply : Reply) : Owners :=
  match call with
  | .kmalloc size =>
    if reply.value = 0 then owners
    else update owners reply.value (some ⟨size.toNat, 0, 0, none⟩)
  | .pin handle _ =>
    if reply.value = 0 then owners else owners.modify handle (Owner.pinned reply)
  | .unpin handle => owners.modify handle fun owner => { owner with pins := owner.pins - 1 }
  | .free handle => update owners handle none
  | .userWrite handle _ offset value =>
    owners.modify handle fun owner =>
      { owner with contents := owner.contents.map fun bytes => update bytes offset value }

/-- The swap manager together with its owners. -/
def tracked (pools : Pools) : Machine (State × Owners) Call Reply :=
  (step pools).observe ownerNext

/-! ## The invariant -/

/-- A handle that `validate_handle` accepts. -/
def Live (state : State) (handle : Nat) : Prop :=
  validHandle state handle = true

instance (state : State) (handle : Nat) : Decidable (Live state handle) :=
  inferInstanceAs (Decidable (validHandle state handle = true))

/-- Byte `index` of a handle, wherever it is kept. -/
def stored (state : State) (handle index : Nat) : UInt8 :=
  let slot := state.slots handle
  if slot.residentPtr ≠ 0 then state.memory (slot.residentPtr + index)
  else state.disk (diskOffset slot.sizeClass slot.diskSlot + index)

/-- The tables describe `handle` as its owner knows it. -/
structure HandleOk (pools : Pools) (state : State) (handle : Nat) (owner : Owner) : Prop where
  size : owner.size = (state.slots handle).sizeBytes
  fits : (state.slots handle).sizeBytes ≤ swapDiskSlotBytes (state.slots handle).sizeClass
  pins : owner.pins = (state.slots handle).pinCount
  pinned : (state.slots handle).pinCount ≠ 0 →
    (state.slots handle).residentPtr ≠ 0 ∧ owner.pointer = (state.slots handle).residentPtr
  diskSlot : (state.slots handle).diskSlot < swapDiskSlotCount (state.slots handle).sizeClass
  diskBit : state.diskBitmap (state.slots handle).sizeClass (state.slots handle).diskSlot = true
  ram : (state.slots handle).residentPtr ≠ 0 → ∃ slot < pools.ramCap (state.slots handle).sizeClass,
      (state.slots handle).residentPtr = ramSlotPtr pools (state.slots handle).sizeClass slot ∧
      state.ramBitmap (state.slots handle).sizeClass slot = true
  contents : ∀ bytes ∈ owner.contents, ∀ index < (state.slots handle).sizeBytes,
    stored state handle index = bytes index

/-- A handle that may be evicted. -/
def Evictable (state : State) (handle : Nat) : Prop :=
  Live state handle ∧ (state.slots handle).residentPtr ≠ 0 ∧ (state.slots handle).pinCount = 0

/-- The free list holds unused handles of the table, once each. -/
structure FreeList (state : State) (handles : List Nat) : Prop where
  path : LinkPath state.freeNext state.freeHead handles swapInvalid
  nodup : handles.Nodup
  unused : ∀ handle ∈ handles,
    handle ≠ swapInvalid ∧ handle ≤ swapMaxHandles ∧ (state.slots handle).inUse = false

/-- No two live handles share a disk slot and no two resident ones a RAM slot. -/
structure Apart (state : State) : Prop where
  disk : ∀ first second, Live state first → Live state second →
    (state.slots first).sizeClass = (state.slots second).sizeClass →
    (state.slots first).diskSlot = (state.slots second).diskSlot → first = second
  ram : ∀ first second, Live state first → Live state second → (state.slots first).residentPtr ≠ 0 →
    (state.slots first).residentPtr = (state.slots second).residentPtr → first = second

structure Represents (pools : Pools) (state : State) (owners : Owners) : Prop where
  running : state.halted = none
  owned : ∀ handle, Live state handle →
    ∃ owner, owners handle = some owner ∧ HandleOk pools state handle owner
  unowned : ∀ handle, ¬Live state handle → owners handle = none
  apart : Apart state
  lru : ∃ handles, state.lru.Holds swapInvalid handles ∧
    ∀ handle, handle ∈ handles ↔ Evictable state handle
  free : ∃ handles, FreeList state handles

/-! ## Frames -/

lemma live_congr {first second : State}
    (same : (second.slots handle).inUse = (first.slots handle).inUse) :
    Live second handle ↔ Live first handle := by
  simp only [Live, validHandle, same]

lemma Live.inTable (live : Live state handle) :
    handle ≠ swapInvalid ∧ handle ≤ swapMaxHandles ∧ (state.slots handle).inUse = true := by
  simpa [Live, validHandle, and_assoc] using live

lemma live_of_inTable (nonzero : handle ≠ swapInvalid) (bound : handle ≤ swapMaxHandles)
    (inUse : (state.slots handle).inUse = true) : Live state handle := by
  simp [Live, validHandle, nonzero, bound, inUse]

/-- A handle is described by its table entry, its bits and its bytes. -/
theorem HandleOk.congr {first second : State} {owner : Owner}
    (slotEq : second.slots handle = first.slots handle)
    (diskBit : second.diskBitmap (first.slots handle).sizeClass (first.slots handle).diskSlot =
      first.diskBitmap (first.slots handle).sizeClass (first.slots handle).diskSlot)
    (ramBit : ∀ slot, (first.slots handle).residentPtr =
        ramSlotPtr pools (first.slots handle).sizeClass slot →
      slot < pools.ramCap (first.slots handle).sizeClass → (first.slots handle).residentPtr ≠ 0 →
      second.ramBitmap (first.slots handle).sizeClass slot =
        first.ramBitmap (first.slots handle).sizeClass slot)
    (bytes : ∀ index < (first.slots handle).sizeBytes,
      stored second handle index = stored first handle index)
    (ok : HandleOk pools first handle owner) : HandleOk pools second handle owner := by
  constructor <;> rw [slotEq]
  · exact ok.size
  · exact ok.fits
  · exact ok.pins
  · exact ok.pinned
  · exact ok.diskSlot
  · exact diskBit.trans ok.diskBit
  · intro resident
    rcases ok.ram resident with ⟨slot, bound, pointerEq, bit⟩
    exact ⟨slot, bound, pointerEq, (ramBit slot pointerEq bound resident).trans bit⟩
  · intro contents known index inside
    rw [bytes index inside]
    exact ok.contents contents known index inside

lemma Represents.resident_apart {owners : Owners} (represents : Represents pools state owners)
    (firstLive : Live state first) (secondLive : Live state second) (differ : first ≠ second)
    (firstResident : (state.slots first).residentPtr ≠ 0)
    (secondResident : (state.slots second).residentPtr ≠ 0) :
    (state.slots first).residentPtr + swapDiskSlotBytes (state.slots first).sizeClass ≤
        (state.slots second).residentPtr ∨
      (state.slots second).residentPtr + swapDiskSlotBytes (state.slots second).sizeClass ≤
        (state.slots first).residentPtr := by
  rcases represents.owned first firstLive with ⟨_, _, firstOk⟩
  rcases represents.owned second secondLive with ⟨_, _, secondOk⟩
  rcases firstOk.ram firstResident with ⟨left, leftBound, leftEq, _⟩
  rcases secondOk.ram secondResident with ⟨right, rightBound, rightEq, _⟩
  rw [leftEq, rightEq]
  apply ramSlots_apart pools leftBound rightBound
  rintro ⟨classEq, slotEq⟩
  apply differ
  apply represents.apart.ram first second firstLive secondLive firstResident
  rw [leftEq, rightEq, classEq, slotEq]

lemma Represents.disk_apart {owners : Owners} (represents : Represents pools state owners)
    (firstLive : Live state first) (secondLive : Live state second) (differ : first ≠ second) :
    diskOffset (state.slots first).sizeClass (state.slots first).diskSlot +
        swapDiskSlotBytes (state.slots first).sizeClass ≤
        diskOffset (state.slots second).sizeClass (state.slots second).diskSlot ∨
      diskOffset (state.slots second).sizeClass (state.slots second).diskSlot +
        swapDiskSlotBytes (state.slots second).sizeClass ≤
        diskOffset (state.slots first).sizeClass (state.slots first).diskSlot := by
  rcases represents.owned first firstLive with ⟨_, _, firstOk⟩
  rcases represents.owned second secondLive with ⟨_, _, secondOk⟩
  apply diskSlots_apart firstOk.diskSlot secondOk.diskSlot
  rintro ⟨classEq, slotEq⟩
  exact differ (represents.apart.disk first second firstLive secondLive classEq slotEq)

/-- The free list that `swap_init` threads through the table. -/
theorem path_initial (memory disk : Memory) {count : Nat} (positive : 0 < count)
    (total : first + count = swapMaxHandles + 1) :
    LinkPath (swapInit memory disk).freeNext first (range' first count) swapInvalid := by
  induction count generalizing first with
  | zero => cases positive
  | succ count ih =>
    refine ⟨rfl, ?_⟩
    cases count with
    | zero =>
      have last : ¬first < swapMaxHandles := by omega
      simp [swapInit, last, LinkPath]
    | succ count =>
      have notLast : first < swapMaxHandles := by omega
      simp only [swapInit, notLast, if_true]
      exact ih (by omega) (by omega)

lemma represents_swapInit (pools : Pools) (memory disk : Memory) :
    Represents pools (swapInit memory disk) fun _ => none := by
  have dead : ∀ handle, ¬Live (swapInit memory disk) handle := by
    intro handle live
    exact absurd live.inTable.2.2 (by simp [swapInit])
  constructor
  · rfl
  · exact fun handle live => absurd live (dead handle)
  · exact fun _ _ => rfl
  · exact ⟨fun first _ live => absurd live (dead first), fun first _ live => absurd live (dead first)⟩
  · refine ⟨[], Links.Holds.empty _ rfl rfl, fun handle => ?_⟩
    constructor
    · intro member
      cases member
    · exact fun evictable => absurd evictable.1 (dead handle)
  · refine ⟨range' 1 swapMaxHandles, path_initial memory disk (by decide) rfl, nodup_range', ?_⟩
    intro handle member
    rw [mem_range'_1] at member
    have invalid : swapInvalid = 0 := rfl
    exact ⟨by omega, by omega, rfl⟩

end CupidOs.Swap
