import CupidOs.Disk.Sector
import CupidOs.Transition.Run
import Mathlib.Algebra.Group.Nat.Defs
import Mathlib.Data.List.FinRange

/-!
# The write-back block cache

`kernel/fs/blockcache.c` keeps `CACHE_SIZE` sectors in memory and writes them back on eviction or
on a flush. A failed device write leaves the sector as it was; a failed device read leaves any
contents in its buffer, because the USB driver transfers the data before it looks at the status.
-/

namespace CupidOs.BlockCache

open Disk Function Transition

/-- `CACHE_SIZE`. -/
def cacheSize : Nat := 64

/-- `cache_entry_t`. -/
structure CacheEntry where
  lba : Nat
  valid : Bool
  dirty : Bool
  lastAccess : Nat
  data : Sector

/-- `block_cache_t` with `access_counter` and the sectors of its device. -/
structure State where
  entries : Fin cacheSize → CacheEntry
  accessCounter : Nat
  hits : Nat
  misses : Nat
  evictions : Nat
  writebacks : Nat
  device : Image

/-- `blkdev_read` fills the buffer and returns 0, or returns an error with `buffer` left in it. -/
inductive ReadOutcome
  | ok
  | failed (buffer : Sector)

/-- Whether the write-back of the victim succeeds, and the outcome of the sector read. -/
structure DeviceIo where
  write : Bool
  read : ReadOutcome

namespace State

/-- Replace one cache entry. -/
def setEntry (state : State) (index : Fin cacheSize) (entry : CacheEntry) : State :=
  { state with entries := update state.entries index entry }

/-- `++access_counter`, stored into `last_access` of an entry. -/
def touch (state : State) (index : Fin cacheSize) : State :=
  let stamp := (state.accessCounter + 1) % 2 ^ 32
  { state.setEntry index { state.entries index with lastAccess := stamp } with
    accessCounter := stamp }

end State

/-- `blockcache_init`: every entry is invalid. -/
def blockcacheInit (device : Image) : State where
  entries _ := ⟨0, false, false, 0, fun _ => 0⟩
  accessCounter := 0
  hits := 0
  misses := 0
  evictions := 0
  writebacks := 0
  device := device

variable (state : State)

/-- `find_cache_entry`: the first valid entry for `lba`. -/
def findCacheEntry (lba : Nat) : Option (Fin cacheSize) :=
  (List.finRange cacheSize).find? fun index =>
    (state.entries index).valid && (state.entries index).lba == lba

/-- The scan of `find_lru_entry`, with the oldest stamp and the index found so far. -/
def findLruFrom (entries : Fin cacheSize → CacheEntry) :
    List (Fin cacheSize) → Nat → Fin cacheSize → Fin cacheSize
  | [], _, lru => lru
  | index :: rest, oldest, lru =>
    if (entries index).valid = false then
      index
    else if (entries index).lastAccess < oldest then
      findLruFrom entries rest (entries index).lastAccess index
    else
      findLruFrom entries rest oldest lru

/-- `find_lru_entry`: the first invalid entry, otherwise the least recently
used one. -/
def findLruEntry : Fin cacheSize :=
  findLruFrom state.entries (List.finRange cacheSize) 0xFFFFFFFF ⟨0, by decide⟩

/-- Write the victim back if it is valid and dirty.  The entry itself keeps its
dirty flag. -/
def writeBackVictim (victim : Fin cacheSize) (succeeds : Bool) : State × Bool :=
  if (state.entries victim).valid && (state.entries victim).dirty then
    let counted := { state with writebacks := (state.writebacks + 1) % 2 ^ 32 }
    if succeeds then
      ({ counted with
          device := update state.device (state.entries victim).lba
            (state.entries victim).data }, true)
    else
      (counted, false)
  else
    (state, true)

/-- `blkdev_read` of one sector into the buffer of a cache entry. -/
def blkdevRead (index : Fin cacheSize) (lba : Nat) : ReadOutcome → State × Bool
  | .ok =>
    (state.setEntry index { state.entries index with data := state.device lba }, true)
  | .failed buffer =>
    (state.setEntry index { state.entries index with data := buffer }, false)

/-- `cache.misses++`. -/
def countMiss : State :=
  { state with misses := (state.misses + 1) % 2 ^ 32 }

/-- The miss path of `blockcache_read` and `blockcache_write`: choose a victim, write it back, and
load `lba`. The result is the victim when both device calls succeed. -/
def loadVictim (lba : Nat) (io : DeviceIo) : State × Option (Fin cacheSize) :=
  let victim := findLruEntry state
  match writeBackVictim (countMiss state) victim io.write with
  | (written, false) => (written, none)
  | (written, true) =>
    match blkdevRead written victim lba io.read with
    | (failed, false) => (failed, none)
    | (loaded, true) => (loaded, some victim)

/-- The entry update at the end of a miss: the victim now holds `lba`. -/
def installEntry (index : Fin cacheSize) (lba : Nat) (dirty : Bool)
    (data : Sector) : State :=
  let installed := (state.setEntry index
    { state.entries index with lba := lba, valid := true, dirty := dirty, data := data }).touch index
  { installed with
    evictions := if installed.evictions < 0xFFFFFFFF then installed.evictions + 1
      else installed.evictions }

/-- `blockcache_read`; `none` is the return value -1. -/
def blockcacheRead (lba : Nat) (io : DeviceIo) : State × Option Sector :=
  match findCacheEntry state lba with
  | some index =>
    (({ state with hits := (state.hits + 1) % 2 ^ 32 }).touch index,
      some (state.entries index).data)
  | none =>
    match loadVictim state lba io with
    | (loaded, some victim) =>
      (installEntry loaded victim lba false (loaded.entries victim).data,
        some (loaded.entries victim).data)
    | (failed, none) => (failed, none)

/-- `blockcache_write`; `none` is the return value -1. -/
def blockcacheWrite (lba : Nat) (buffer : Sector) (io : DeviceIo) :
    State × Option Unit :=
  match findCacheEntry state lba with
  | some index =>
    ((state.setEntry index
      { state.entries index with data := buffer, dirty := true }).touch index, some ())
  | none =>
    match loadVictim state lba io with
    | (loaded, some victim) => (installEntry loaded victim lba true buffer, some ())
    | (failed, none) => (failed, none)

/-- One iteration of `blockcache_flush_all`. -/
def flushEntry (succeeds : Fin cacheSize → Bool) (state : State) (index : Fin cacheSize) : State :=
  let entry := state.entries index
  if entry.valid && entry.dirty && succeeds index then
    { state.setEntry index { entry with dirty := false } with
      device := update state.device entry.lba entry.data }
  else
    state

/-- `blockcache_flush_all`: a failed device write skips the entry. -/
def blockcacheFlushAll (succeeds : Fin cacheSize → Bool) : State :=
  (List.finRange cacheSize).foldl (flushEntry succeeds) state

/-- A call of the cache interface with the device's answers. -/
inductive Call
  | read (lba : Nat) (io : DeviceIo)
  | write (lba : Nat) (buffer : Sector) (io : DeviceIo)
  | flushAll (succeeds : Fin cacheSize → Bool)

/-- What a call returns: sector data, plain success, or -1. -/
inductive Reply
  | data (sector : Sector)
  | done
  | error

/-- One call of the cache interface. -/
def step : Machine State Call Reply
  | state, .read lba io =>
    match blockcacheRead state lba io with
    | (next, some sector) => (next, .data sector)
    | (next, none) => (next, .error)
  | state, .write lba buffer io =>
    match blockcacheWrite state lba buffer io with
    | (next, some ()) => (next, .done)
    | (next, none) => (next, .error)
  | state, .flushAll succeeds => (blockcacheFlushAll state succeeds, .done)

end CupidOs.BlockCache
