import CupidOs.Bytes.Memory
import CupidOs.Transition.Run

/-!
# The kernel heap

`kernel/mm/memory.c`: the scan behind the initial heap, `kmalloc_debug`, `kfree` and
`heap_check_integrity` on a byte memory. Block headers, links and canaries live in that memory, so
a stray write by the owner of an allocation can damage them. `wrap` marks where the source
computes with 32-bit values. The clock is an argument of each call.
-/

namespace CupidOs.Heap

open Bytes Transition

def canaryFront : Nat := 0xDEADBEEF

def canaryBack : Nat := 0xBEEFDEAD

def poisonFree : Nat := 0xFEFEFEFE

/-- `sizeof(heap_block_t)`. -/
def headerSize : Nat := 28

/-- `HEAP_MIN_SPLIT`. -/
def heapMinSplit : Nat := headerSize + 8

def pageSize : Nat := 4096

/-- `TOTAL_MEMORY_BYTES / PAGE_SIZE`. -/
def totalPages : Nat := 131072

def maxAllocations : Nat := 1024

/-- Unsigned 32-bit arithmetic. -/
def wrap (value : Nat) : Nat :=
  value % 2 ^ 32

/-- One entry of the allocation tracker. -/
structure AllocationRecord where
  address : Nat
  size : Nat
  timestamp : Nat
  file : Nat
  line : Nat
  active : Bool

/-- `allocation_tracker_t`. -/
structure AllocationTracker where
  records : Nat → AllocationRecord
  nextSlot : Nat
  activeCount : Nat
  totalBytes : Nat
  peakBytes : Nat
  peakCount : Nat

/-- A panic with its message, or a walk of the block list that never ends. -/
inductive Halt where
  | panic (message : String)
  | diverges
  deriving DecidableEq

/-- The page bitmap, the heap and its tracker. -/
structure State where
  pageUsed : Nat → Bool
  memory : Memory
  heapHead : Nat
  tracker : AllocationTracker
  halted : Option Halt

/-! ## Page allocation -/

/-- The scan of `pmm_alloc_contiguous` from `page` on: the first run of `pageCount` unused pages. -/
def scanPages (used : Nat → Bool) (pageCount : Nat) : Nat → Nat → Nat → Nat → Option Nat
  | 0, _, _, _ => none
  | remaining + 1, page, runStart, runLength =>
    if used page then
      scanPages used pageCount remaining (page + 1) runStart 0
    else if runLength + 1 = pageCount then
      some (if runLength = 0 then page else runStart)
    else
      scanPages used pageCount remaining (page + 1)
        (if runLength = 0 then page else runStart) (runLength + 1)

/-- The bitmap after the call and the address of the run, zero on failure. -/
def pmmAllocContiguous (used : Nat → Bool) (pageCount : Nat) : (Nat → Bool) × Nat :=
  if pageCount = 0 then
    (used, 0)
  else
    match scanPages used pageCount totalPages 0 0 0 with
    | none => (used, 0)
    | some start =>
      (fun page => used page || (decide (start ≤ page) && decide (page < start + pageCount)),
        wrap (start * pageSize))

/-! ## Block headers -/

def sizeField (memory : Memory) (block : Nat) : Nat :=
  memory.load32 (block + 4)

def nextField (memory : Memory) (block : Nat) : Nat :=
  memory.load32 (block + 8)

def freeField (memory : Memory) (block : Nat) : Bool :=
  memory (block + 12) != 0

def setSize (memory : Memory) (block value : Nat) : Memory :=
  memory.store32 (block + 4) value

def setNext (memory : Memory) (block value : Nat) : Memory :=
  memory.store32 (block + 8) value

def setFree (memory : Memory) (block : Nat) (value : UInt8) : Memory :=
  memory.store8 (block + 12) value

/-- Set `timestamp`, `alloc_file` and `alloc_line`. -/
def setOrigin (memory : Memory) (block timestamp file line : Nat) : Memory :=
  ((memory.store32 (block + 16) timestamp).store32 (block + 20) file).store32 (block + 24) line

def getBackCanaryAddr (memory : Memory) (block : Nat) : Nat :=
  wrap (block + headerSize + sizeField memory block)

def writeCanaries (memory : Memory) (block : Nat) : Memory :=
  let marked := memory.store32 block canaryFront
  marked.store32 (getBackCanaryAddr marked block) canaryBack

def checkCanaries (memory : Memory) (block : Nat) : Bool :=
  memory.load32 block == canaryFront && memory.load32 (getBackCanaryAddr memory block) == canaryBack

/-- Set the fields of a header after its size and link, then its canaries. -/
def sealBlock (memory : Memory) (block : Nat) (free : UInt8) (timestamp file line : Nat) : Memory :=
  writeCanaries (setOrigin (setFree memory block free) block timestamp file line) block

/-! ## Initialisation -/

/-- The header that `heap_init` writes over the whole region. -/
def firstBlock (memory : Memory) (base usable : Nat) : Memory :=
  sealBlock (setNext (setSize memory base usable) base 0) base 1 0 0 0

def heapInit (state : State) (initialPages : Nat) : State :=
  if initialPages = 0 then
    state
  else
    match pmmAllocContiguous state.pageUsed initialPages with
    | (used, base) =>
      if base = 0 then
        { state with
          pageUsed := used
          halted := some (.panic "Failed to allocate initial heap pages") }
      else
        { state with
          pageUsed := used
          heapHead := base
          memory := firstBlock state.memory base (wrap (initialPages * pageSize) - headerSize - 4)
          tracker := { state.tracker with
            nextSlot := 0, activeCount := 0, totalBytes := 0, peakBytes := 0, peakCount := 0 } }

/-! ## Tracker -/

def trackAllocation (tracker : AllocationTracker) (pointer size file line now : Nat) :
    AllocationTracker :=
  let activeCount := wrap (tracker.activeCount + 1)
  let totalBytes := wrap (tracker.totalBytes + size)
  { records := fun slot =>
      if slot = tracker.nextSlot then ⟨pointer, size, now, file, line, true⟩
      else tracker.records slot
    nextSlot := (tracker.nextSlot + 1) % maxAllocations
    activeCount := activeCount
    totalBytes := totalBytes
    peakBytes := max tracker.peakBytes totalBytes
    peakCount := max tracker.peakCount activeCount }

def trackFree (tracker : AllocationTracker) (pointer : Nat) : AllocationTracker :=
  match (List.range maxAllocations).find? fun slot =>
      (tracker.records slot).active && (tracker.records slot).address == pointer with
  | none => tracker
  | some slot =>
    let record := tracker.records slot
    { tracker with
      records := fun other =>
        if other = slot then { record with active := false } else tracker.records other
      activeCount := tracker.activeCount - 1
      totalBytes :=
        if record.size ≤ tracker.totalBytes then tracker.totalBytes - record.size
        else tracker.totalBytes }

/-! ## Allocation -/

/-- How the walk of `kmalloc_debug_locked` over the block list ends. -/
inductive Search where
  | found (block : Nat)
  | exhausted
  | corrupt
  | diverges
  deriving DecidableEq

/-- A walk that visits more blocks than there are addresses is in a cycle. -/
def walkFuel : Nat := 2 ^ 32

def findFit (memory : Memory) (needed : Nat) : Nat → Nat → Search
  | 0, _ => .diverges
  | fuel + 1, current =>
    if current = 0 then
      .exhausted
    else if !checkCanaries memory current then
      .corrupt
    else if freeField memory current && decide (needed ≤ sizeField memory current) then
      .found current
    else
      findFit memory needed fuel (nextField memory current)

/-- Cut the tail of `current` off as a free block. -/
def splitBlock (memory : Memory) (current needed : Nat) : Memory :=
  let oldSize := sizeField memory current
  let shrunk := setSize memory current needed
  let newBlock := wrap (current + headerSize + sizeField shrunk current + 4)
  let sized := setSize shrunk newBlock (wrap (oldSize + 2 ^ 32 - needed - headerSize - 4))
  let linked := setNext sized newBlock (nextField sized current)
  setNext (sealBlock linked newBlock 1 0 0 0) current newBlock

/-- What `kmalloc_debug_locked` does to the block it chose. -/
def takeBlock (memory : Memory) (current needed now file line : Nat) : Memory :=
  let cut :=
    if wrap (needed + heapMinSplit) ≤ sizeField memory current then
      splitBlock memory current needed
    else
      memory
  sealBlock cut current 0 now file line

/-- The state after the call and the returned pointer. -/
def kmallocDebug (state : State) (size file line now : Nat) : State × Nat :=
  if size = 0 ∨ state.heapHead = 0 then
    (state, 0)
  else
    let needed := wrap (size + 4)
    match findFit state.memory needed walkFuel state.heapHead with
    | .exhausted => (state, 0)
    | .corrupt =>
      ({ state with halted := some (.panic "Heap corruption detected in kmalloc") }, 0)
    | .diverges => ({ state with halted := some .diverges }, 0)
    | .found current =>
      let pointer := wrap (current + headerSize)
      ({ state with
          memory := takeBlock state.memory current needed now file line
          tracker := trackAllocation state.tracker pointer size file line now }, pointer)

/-! ## Release -/

/-- Join `current` with the block `next` that follows it. -/
def mergeNext (memory : Memory) (current next : Nat) : Memory :=
  let grown := setSize memory current
    (wrap (sizeField memory current + headerSize + sizeField memory next + 4))
  writeCanaries (setNext grown current (nextField grown next)) current

/-- The coalescing pass of `kfree_locked`; `none` when it does not end. -/
def coalescePass : Nat → Memory → Nat → Option Memory
  | 0, _, _ => none
  | fuel + 1, memory, current =>
    if current = 0 then
      some memory
    else if nextField memory current = 0 then
      some memory
    else if freeField memory current && freeField memory (nextField memory current) then
      coalescePass fuel (mergeNext memory current (nextField memory current)) current
    else
      coalescePass fuel memory (nextField memory current)

/-- Mark `block` free and poison its payload at `pointer`. -/
def releaseBlock (memory : Memory) (block pointer now : Nat) : Memory :=
  let marked := (setFree memory block 1).store32 (block + 16) now
  marked.fill pointer (sizeField marked block)
    fun index => UInt8.ofNat (poisonFree >>> ((index % 4) * 8))

def kfree (state : State) (pointer now : Nat) : State :=
  if pointer = 0 then
    state
  else
    let block := wrap (pointer + 2 ^ 32 - headerSize)
    if !checkCanaries state.memory block then
      { state with halted := some (.panic "Heap corruption detected in kfree") }
    else if freeField state.memory block then
      { state with halted := some (.panic "Double-free detected") }
    else
      let released := releaseBlock state.memory block pointer now
      let tracker := trackFree state.tracker pointer
      match coalescePass walkFuel released state.heapHead with
      | none => { state with memory := released, tracker := tracker, halted := some .diverges }
      | some memory => { state with memory := memory, tracker := tracker }

/-! ## Integrity check -/

/-- The number of blocks with a damaged canary; `none` when the list is cyclic. -/
def countCorrupt (memory : Memory) : Nat → Nat → Option Nat
  | 0, _ => none
  | fuel + 1, current =>
    if current = 0 then
      some 0
    else
      (countCorrupt memory fuel (nextField memory current)).map fun count =>
        if checkCanaries memory current then count else count + 1

def heapCheckIntegrity (state : State) : State :=
  match countCorrupt state.memory walkFuel state.heapHead with
  | none => { state with halted := some .diverges }
  | some 0 => state
  | some (_ + 1) => { state with halted := some (.panic "Heap integrity check failed") }

/-! ## Calls -/

/-- A heap call, or a byte that the owner of `pointer` stores at `offset`. -/
inductive Call where
  | kmalloc (size file line now : UInt32)
  | kfree (pointer now : UInt32)
  | userWrite (pointer offset : UInt32) (value : UInt8)
  | checkIntegrity
  deriving DecidableEq

/-- Execute one call and return the pointer it hands out, if any.  Nothing runs
after a halt. -/
def step : Machine State Call Nat := fun state call =>
  match state.halted, call with
  | some _, _ => (state, 0)
  | none, .kmalloc size file line now =>
    kmallocDebug state size.toNat file.toNat line.toNat now.toNat
  | none, .kfree pointer now => (kfree state pointer.toNat now.toNat, 0)
  | none, .userWrite pointer offset value =>
    ({ state with memory := state.memory.store8 (wrap (pointer.toNat + offset.toNat)) value }, 0)
  | none, .checkIntegrity => (heapCheckIntegrity state, 0)

end CupidOs.Heap
