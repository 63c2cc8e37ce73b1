import CupidOs.Heap.Core
import CupidOs.Lists.Linked
import Mathlib.Data.Fin.Basic

/-!
# Disk-backed swap handles

`kernel/mm/swap.c` over the backing file of `kernel/mm/swap_disk.c`. A handle owns one disk slot
of its size class and, while resident, one RAM slot of that class. Unpinned resident handles wait
on the LRU list for eviction.

`slots h` stands for `g_slots[h - 1]`; its LRU and free-list links are kept in `lru` and
`freeNext`. The backing file is open and 16 MB long; whether a transfer completes is an argument
of the call that makes it.
-/

namespace CupidOs.Swap

open Bytes Function Heap CupidOs.Lists Transition

/-- A size class; `SWAP_DISK_NUM_CLASSES` is 4. -/
abbrev SizeClass := Fin 4

def swapInvalid : Nat := 0

def swapMaxHandles : Nat := 1024

def swapDiskSlotBytes : SizeClass → Nat
  | 0 => 1024
  | 1 => 4096
  | 2 => 16384
  | 3 => 65536

def swapDiskSlotCount : SizeClass → Nat
  | 0 => 4096
  | 1 => 1024
  | 2 => 256
  | 3 => 64

def swapDiskRegionOffset : SizeClass → Nat
  | 0 => 0x000000
  | 1 => 0x400000
  | 2 => 0x800000
  | 3 => 0xC00000

/-- `ram_base` and `ram_cap` of each class, from separate heap allocations. -/
structure Pools where
  poolBytes : Nat
  ramBase : SizeClass → Nat
  based : ∀ sizeClass, 0 < poolBytes / 4 / swapDiskSlotBytes sizeClass → 0 < ramBase sizeClass
  apart : ∀ first second, first ≠ second →
    ramBase first + poolBytes / 4 / swapDiskSlotBytes first * swapDiskSlotBytes first ≤
        ramBase second ∨
      ramBase second + poolBytes / 4 / swapDiskSlotBytes second * swapDiskSlotBytes second ≤
        ramBase first

def Pools.ramCap (pools : Pools) (sizeClass : SizeClass) : Nat :=
  pools.poolBytes / 4 / swapDiskSlotBytes sizeClass

/-- `swap_slot_t` without its list links. -/
structure SwapSlot where
  inUse : Bool
  sizeClass : SizeClass
  pinCount : Nat
  residentPtr : Nat
  diskSlot : Nat
  sizeBytes : Nat

structure State where
  slots : Nat → SwapSlot
  lru : Links Nat
  freeHead : Nat
  freeNext : Nat → Nat
  diskBitmap : SizeClass → Nat → Bool
  diskAlloc : SizeClass → Nat
  ramBitmap : SizeClass → Nat → Bool
  ramAlloc : SizeClass → Nat
  handlesInUse : Nat
  pinnedCount : Nat
  evictions : Nat
  memory : Memory
  disk : Memory
  halted : Option Halt

/-- The transfers of one call; a failed read leaves `torn` in the buffer. -/
structure DiskIo where
  writeOk : Bool
  readOk : Bool
  torn : Nat → UInt8

/-! ## Helpers -/

/-- The first clear bit among the first `count`. -/
def bitmapAlloc (bitmap : Nat → Bool) (count : Nat) : Option Nat :=
  (List.range count).find? fun slot => !bitmap slot

def setBit (bitmaps : SizeClass → Nat → Bool) (sizeClass : SizeClass) (slot : Nat) (value : Bool) :
    SizeClass → Nat → Bool :=
  update bitmaps sizeClass (update (bitmaps sizeClass) slot value)

def pickClass (size : Nat) : Option SizeClass :=
  (List.finRange 4).find? fun sizeClass => decide (size ≤ swapDiskSlotBytes sizeClass)

/-- The handle is in the table and in use. -/
def validHandle (state : State) (handle : Nat) : Bool :=
  handle != swapInvalid && decide (handle ≤ swapMaxHandles) && (state.slots handle).inUse

def ramSlotPtr (pools : Pools) (sizeClass : SizeClass) (slot : Nat) : Nat :=
  pools.ramBase sizeClass + slot * swapDiskSlotBytes sizeClass

def ramSlotFromPtr (pools : Pools) (sizeClass : SizeClass) (pointer : Nat) : Nat :=
  (pointer - pools.ramBase sizeClass) / swapDiskSlotBytes sizeClass

/-- The reserved slot and the state with its bit set. -/
def ramSlotAlloc (pools : Pools) (state : State) (sizeClass : SizeClass) : Option (State × Nat) :=
  if pools.ramCap sizeClass ≤ state.ramAlloc sizeClass then
    none
  else
    (bitmapAlloc (state.ramBitmap sizeClass) (pools.ramCap sizeClass)).map fun slot =>
      ({ state with
          ramBitmap := setBit state.ramBitmap sizeClass slot true
          ramAlloc := update state.ramAlloc sizeClass (wrap (state.ramAlloc sizeClass + 1)) }, slot)

def ramSlotFree (state : State) (sizeClass : SizeClass) (slot : Nat) : State :=
  { state with
    ramBitmap := setBit state.ramBitmap sizeClass slot false
    ramAlloc := update state.ramAlloc sizeClass (wrap (state.ramAlloc sizeClass + 2 ^ 32 - 1)) }

def setSlot (state : State) (handle : Nat) (slot : SwapSlot) : State :=
  { state with slots := update state.slots handle slot }

def lruInsertHead (state : State) (handle : Nat) : State :=
  { state with lru := state.lru.insertHead swapInvalid handle }

def lruRemove (state : State) (handle : Nat) : State :=
  { state with lru := state.lru.remove swapInvalid handle }

/-! ## Backing file -/

/-- Where a disk slot lies in the backing file. -/
def diskOffset (sizeClass : SizeClass) (slot : Nat) : Nat :=
  swapDiskRegionOffset sizeClass + slot * swapDiskSlotBytes sizeClass

/-- The memory after the read, and whether it succeeded. -/
def swapDiskRead (io : DiskIo) (state : State) (sizeClass : SizeClass) (slot buffer : Nat) :
    Memory × Bool :=
  if swapDiskSlotCount sizeClass ≤ slot ∨ buffer = 0 then
    (state.memory, false)
  else if io.readOk then
    (state.memory.fill buffer (swapDiskSlotBytes sizeClass) fun index =>
      state.disk (diskOffset sizeClass slot + index), true)
  else
    (state.memory.fill buffer (swapDiskSlotBytes sizeClass) io.torn, false)

/-- The backing file after a write, `none` when it fails. -/
def swapDiskWrite (io : DiskIo) (state : State) (sizeClass : SizeClass) (slot buffer : Nat) :
    Option Memory :=
  if swapDiskSlotCount sizeClass ≤ slot ∨ buffer = 0 then
    none
  else if io.writeOk then
    some (state.disk.fill (diskOffset sizeClass slot) (swapDiskSlotBytes sizeClass) fun index =>
      state.memory (buffer + index))
  else
    none

/-! ## Eviction -/

/-- How the walk of `class_evict_one` ends. -/
inductive Victim where
  | found (handle : Nat)
  | absent
  | diverges

/-- A walk that visits more handles than exist is in a cycle. -/
def walkFuel : Nat := swapMaxHandles + 1

/-- The first handle of class `target` from `handle` towards the LRU head. -/
def findVictim (state : State) (target : SizeClass) : Nat → Nat → Victim
  | 0, _ => .diverges
  | fuel + 1, handle =>
    if handle = swapInvalid then
      .absent
    else if (state.slots handle).sizeClass ≠ target then
      findVictim state target fuel (state.lru.prev handle)
    else if (state.slots handle).pinCount ≠ 0 then
      findVictim state target fuel (state.lru.prev handle)
    else
      .found handle

inductive Eviction where
  | evicted (state : State)
  | noVictim
  | halts (state : State)

/-- Move the bytes of `handle` to `disk` and give up its RAM slot. -/
def releaseVictim (pools : Pools) (state : State) (target : SizeClass) (handle : Nat)
    (disk : Memory) : State :=
  let slot := state.slots handle
  let freed := ramSlotFree { state with disk := disk } target
    (ramSlotFromPtr pools target slot.residentPtr)
  let detached := lruRemove (setSlot freed handle { slot with residentPtr := 0 }) handle
  { detached with evictions := wrap (detached.evictions + 1) }

def classEvictOne (pools : Pools) (io : DiskIo) (state : State) (target : SizeClass) : Eviction :=
  match findVictim state target walkFuel state.lru.tail with
  | .diverges => .halts { state with halted := some .diverges }
  | .absent => .noVictim
  | .found handle =>
    match swapDiskWrite io state target (state.slots handle).diskSlot
        (state.slots handle).residentPtr with
    | none =>
      .halts { state with
        halted := some (.panic "swap: disk_write failed during eviction h=%u rc=%d") }
    | some disk => .evicted (releaseVictim pools state target handle disk)

/-- How the loop of `swap_pin` that looks for a RAM slot ends. -/
inductive Acquired where
  | ram (state : State) (slot : Nat)
  | full (state : State)
  | halts (state : State)

def acquireRam (pools : Pools) (io : DiskIo) (sizeClass : SizeClass) : Nat → State → Acquired
  | 0, state => .halts { state with halted := some .diverges }
  | fuel + 1, state =>
    match ramSlotAlloc pools state sizeClass with
    | some (reserved, slot) => .ram reserved slot
    | none =>
      match classEvictOne pools io state sizeClass with
      | .evicted next => acquireRam pools io sizeClass fuel next
      | .noVictim => .full state
      | .halts stopped => .halts stopped

/-! ## The interface -/

/-- The table after `swap_init`: every handle on the free list. -/
def swapInit (memory disk : Memory) : State where
  slots _ := ⟨false, 0, 0, 0, 0, 0⟩
  lru := ⟨swapInvalid, swapInvalid, fun _ => swapInvalid, fun _ => swapInvalid⟩
  freeHead := 1
  freeNext handle := if handle < swapMaxHandles then handle + 1 else swapInvalid
  diskBitmap _ _ := false
  diskAlloc _ := 0
  ramBitmap _ _ := false
  ramAlloc _ := 0
  handlesInUse := 0
  pinnedCount := 0
  evictions := 0
  memory := memory
  disk := disk
  halted := none

/-- The new handle and the state that holds it; zero when none is left. -/
def swapKmalloc (state : State) (size : Nat) : State × Nat :=
  if size = 0 ∨ swapDiskSlotBytes 3 < size then
    (state, swapInvalid)
  else
    match pickClass size with
    | none => (state, swapInvalid)
    | some sizeClass =>
      match bitmapAlloc (state.diskBitmap sizeClass) (swapDiskSlotCount sizeClass) with
      | none => (state, swapInvalid)
      | some disk =>
        let handle := state.freeHead
        if handle = swapInvalid then
          (state, swapInvalid)
        else
          ({ state with
              freeHead := state.freeNext handle
              freeNext := update state.freeNext handle swapInvalid
              slots := update state.slots handle ⟨true, sizeClass, 0, 0, disk, size⟩
              lru := { state.lru with
                prev := update state.lru.prev handle swapInvalid
                next := update state.lru.next handle swapInvalid }
              diskBitmap := setBit state.diskBitmap sizeClass disk true
              diskAlloc := update state.diskAlloc sizeClass (wrap (state.diskAlloc sizeClass + 1))
              handlesInUse := wrap (state.handlesInUse + 1) }, handle)

/-- `pin_count` has 16 bits. -/
def pinResident (state : State) (handle : Nat) : State :=
  let slot := state.slots handle
  let detached := if slot.pinCount = 0 then lruRemove state handle else state
  { setSlot detached handle { slot with pinCount := (slot.pinCount + 1) % 2 ^ 16 } with
    pinnedCount := wrap (state.pinnedCount + 1) }

/-- Read the disk slot of `handle` into the reserved RAM slot and pin it. -/
def loadSlot (pools : Pools) (io : DiskIo) (state : State) (handle ram : Nat) : State × Nat :=
  let slot := state.slots handle
  let pointer := ramSlotPtr pools slot.sizeClass ram
  match swapDiskRead io state slot.sizeClass slot.diskSlot pointer with
  | (memory, false) => (ramSlotFree { state with memory := memory } slot.sizeClass ram, 0)
  | (memory, true) =>
    ({ setSlot { state with memory := memory } handle
          { slot with residentPtr := pointer, pinCount := 1 } with
        pinnedCount := wrap (state.pinnedCount + 1) }, pointer)

/-- The state and the pointer to the bytes of `handle`; zero on failure. -/
def swapPin (pools : Pools) (io : DiskIo) (state : State) (handle : Nat) : State × Nat :=
  if !validHandle state handle then
    (state, 0)
  else
    let slot := state.slots handle
    if slot.residentPtr ≠ 0 then
      (pinResident state handle, slot.residentPtr)
    else if pools.ramCap slot.sizeClass = 0 then
      (state, 0)
    else
      match acquireRam pools io slot.sizeClass (walkFuel + 1) state with
      | .halts stopped => (stopped, 0)
      | .full next => (next, 0)
      | .ram reserved ram => loadSlot pools io reserved handle ram

def swapUnpin (state : State) (handle : Nat) : State :=
  if !validHandle state handle then
    state
  else
    let slot := state.slots handle
    if slot.pinCount = 0 then
      { state with halted := some (.panic "swap_unpin on already-unpinned handle %u") }
    else
      let lowered := { setSlot state handle { slot with pinCount := slot.pinCount - 1 } with
        pinnedCount := wrap (state.pinnedCount + 2 ^ 32 - 1) }
      if slot.pinCount - 1 = 0 then lruInsertHead lowered handle else lowered

def swapFree (pools : Pools) (state : State) (handle : Nat) : State :=
  if !validHandle state handle then
    state
  else
    let slot := state.slots handle
    if 0 < slot.pinCount then
      { state with halted := some (.panic "swap_free on pinned handle %u (pin_count=%u)") }
    else
      let diskFreed := { state with
        diskBitmap := setBit state.diskBitmap slot.sizeClass slot.diskSlot false
        diskAlloc := update state.diskAlloc slot.sizeClass
          (wrap (state.diskAlloc slot.sizeClass + 2 ^ 32 - 1)) }
      let detached :=
        if slot.residentPtr ≠ 0 then
          ramSlotFree (lruRemove diskFreed handle) slot.sizeClass
            (ramSlotFromPtr pools slot.sizeClass slot.residentPtr)
        else
          diskFreed
      { setSlot detached handle { slot with inUse := false, residentPtr := 0 } with
        freeNext := update state.freeNext handle state.freeHead
        freeHead := handle
        handlesInUse := wrap (state.handlesInUse + 2 ^ 32 - 1) }

/-! ## Calls -/

/-- A call, or a byte that the owner of `handle` stores at `offset` of its pointer. -/
inductive Call where
  | kmalloc (size : UInt32)
  | pin (handle : Nat) (io : DiskIo)
  | unpin (handle : Nat)
  | free (handle : Nat)
  | userWrite (handle pointer offset : Nat) (value : UInt8)

/-- The returned handle or pointer and, for a pointer, the bytes behind it. -/
structure Reply where
  value : Nat
  window : Nat → UInt8

/-- Execute one call.  Nothing runs after a halt. -/
def step (pools : Pools) : Machine State Call Reply := fun state call =>
  match state.halted, call with
  | some _, _ => (state, ⟨0, fun _ => 0⟩)
  | none, .kmalloc size =>
    let outcome := swapKmalloc state size.toNat
    (outcome.1, ⟨outcome.2, fun _ => 0⟩)
  | none, .pin handle io =>
    let outcome := swapPin pools io state handle
    (outcome.1, ⟨outcome.2, fun index => outcome.1.memory (outcome.2 + index)⟩)
  | none, .unpin handle => (swapUnpin state handle, ⟨0, fun _ => 0⟩)
  | none, .free handle => (swapFree pools state handle, ⟨0, fun _ => 0⟩)
  | none, .userWrite _ pointer offset value =>
    ({ state with memory := state.memory.store8 (pointer + offset) value }, ⟨0, fun _ => 0⟩)

end CupidOs.Swap
