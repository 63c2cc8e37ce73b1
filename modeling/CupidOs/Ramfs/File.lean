import CupidOs.Bytes.Splice
import CupidOs.Transition.Run
import CupidOs.Vfs.Types
import Mathlib.Algebra.Order.Group.Int

/-!
# Open, read, write and seek on one ramfs file

`kernel/fs/ramfs.c` keeps a file in one allocated buffer that all handles share. `overrun` is set
as soon as a byte is written outside the allocation.
-/

namespace CupidOs.Ramfs

open Bytes Transition Vfs

/-- `RAMFS_MAX_DATA`. -/
def ramfsMaxData : Nat := 64 * 1024

/-- The file part of `ramfs_node_t`; `data` is the allocated buffer, empty for
`NULL`. -/
structure File where
  data : List UInt8
  size : Nat
  capacity : Nat
  deriving DecidableEq

/-- One file, the positions of its handles, and whether a byte was written outside a buffer. -/
structure State where
  file : File
  handles : List Nat
  overrun : Bool
  deriving DecidableEq

/-- A file that has just been created, with no handle open. -/
def created : State := ⟨⟨[], 0, 0⟩, [], false⟩

/-- `memcpy` into an allocated buffer: only the bytes inside it are stored. -/
def store (buffer : List UInt8) (position : Nat) (bytes : List UInt8) : List UInt8 :=
  buffer.take position ++ bytes.take (buffer.length - position) ++
    buffer.drop (position + bytes.length)

/-- Whether a `memcpy` of `count` bytes leaves an allocation of `length` bytes. -/
def leaves (length position count : Nat) : Bool :=
  0 < count && length < position + count

/-- The capacity `ramfs_write` asks for when a write ends at `stop`; `none` is
`VFS_ENOSPC`. -/
def newCapacity (stop : Nat) : Option Nat :=
  let doubled := stop * 2 % 2 ^ 32
  let wanted := if doubled < 256 then 256 else doubled
  if wanted > ramfsMaxData then
    if stop > ramfsMaxData then none else some ramfsMaxData
  else
    some wanted

variable (file : File)

/-- Copy `size` bytes and zero the rest; the flag says whether the copy leaves the new buffer. -/
def reallocate (capacity : Nat) : File × Bool :=
  ({ file with
      data := (file.data.take file.size).take capacity ++ List.replicate (capacity - file.size) 0
      capacity := capacity },
    leaves capacity 0 file.size)

/-- The stores at the end of `ramfs_write`. -/
def storeAt (position stop : Nat) (bytes : List UInt8) : File × Bool :=
  ({ file with
      data := store file.data position bytes
      size := if stop > file.size then stop else file.size },
    leaves file.data.length position bytes.length)

/-- `ramfs_write`: the file, the position and whether a byte left the buffer, or `VFS_ENOSPC`. -/
def ramfsWrite (position : Nat) (bytes : Buffer) (allocOk : Bool) :
    Option (File × Nat × Bool) :=
  let stop := (position + bytes.val.length) % 2 ^ 32
  if stop > file.capacity then
    match newCapacity stop with
    | none => none
    | some capacity =>
      if allocOk then
        let grown := reallocate file capacity
        let stored := storeAt grown.1 position stop bytes.val
        some (stored.1, stop, grown.2 || stored.2)
      else
        none
  else
    let stored := storeAt file position stop bytes.val
    some (stored.1, stop, stored.2)

/-- `ramfs_read`: the bytes copied to the caller. -/
def ramfsRead (position count : Nat) : List UInt8 :=
  if position ≥ file.size then
    []
  else
    (file.data.drop position).take (min count (file.size - position))

/-- `ramfs_seek`: the new position; `none` is `VFS_EINVAL`.  The signed additions
wrap. -/
def ramfsSeek (position : Nat) (offset : Int32) : Whence → Option Nat
  | .set => some offset.toInt.toNat
  | .cur => some (toInt32 (toInt32 position + offset.toInt)).toNat
  | .fromEnd => some (toInt32 (toInt32 file.size + offset.toInt)).toNat
  | .other => none

/-- The truncation of `ramfs_open`. -/
def truncateIf (trunc : Bool) : File :=
  if trunc then ⟨[], 0, 0⟩ else file

/-- A call on the file with the outcome of its allocation. -/
inductive Call
  | openFile (flags : OpenFlags) (allocOk : Bool)
  | read (handle : Nat) (count : UInt32)
  | write (handle : Nat) (bytes : Buffer) (allocOk : Bool)
  | seek (handle : Nat) (offset : Int32) (whence : Whence)

/-- What a call returns. -/
inductive Reply
  | handle (index : Nat)
  | data (bytes : List UInt8)
  | count (written : Nat)
  | position (value : Nat)
  | error (code : VfsError)
  deriving DecidableEq

/-- One call on the file.  `ramfs_open` truncates before it allocates the
handle. -/
def step : Machine State Call Reply
  | state, .openFile flags allocOk =>
    let file := truncateIf state.file flags.trunc
    if allocOk then
      ({ state with
          file := file
          handles := state.handles ++ [if flags.append then file.size else 0] },
        .handle state.handles.length)
    else
      ({ state with file := file }, .error .eio)
  | state, .read handle count =>
    match state.handles[handle]? with
    | none => (state, .error .einval)
    | some position =>
      let bytes := ramfsRead state.file position count.toNat
      ({ state with handles := state.handles.set handle (position + bytes.length) },
        .data bytes)
  | state, .write handle bytes allocOk =>
    match state.handles[handle]? with
    | none => (state, .error .einval)
    | some position =>
      match ramfsWrite state.file position bytes allocOk with
      | none => (state, .error .enospc)
      | some (file, stop, overrun) =>
        (⟨file, state.handles.set handle stop, state.overrun || overrun⟩, .count bytes.val.length)
  | state, .seek handle offset whence =>
    match state.handles[handle]? with
    | none => (state, .error .einval)
    | some position =>
      match ramfsSeek state.file position offset whence with
      | none => (state, .error .einval)
      | some target =>
        ({ state with handles := state.handles.set handle target }, .position target)

end CupidOs.Ramfs
