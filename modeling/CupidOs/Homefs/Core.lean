import CupidOs.Homefs.Container
import CupidOs.Ramfs.Tree

/-!
# A homefs mount

The operations of `kernel/fs/homefs.c` on one mount. Closing a handle, `mkdir` and `unlink` write
a dirty tree into the container file; the result of `fat16_write_file` is an input of the call. A
write that never returns leaves the mount `stuck`.
-/

namespace CupidOs.Homefs

open NodeTree Transition Vfs
open Ramfs (File)

/-- `homefs_t` with the handles that are open on it. -/
structure Fs where
  tree : Tree
  dirty : Bool
  seedMode : Bool
  handles : List (Option Handle)
  fault : Bool
  stuck : Bool

/-- A mount whose container held nothing but the root. -/
def homefsMount : Fs := ⟨mounted, false, false, [], false, false⟩

variable (fs : Fs)

/-- `homefs_mark_dirty`. -/
def homefsMarkDirty : Fs := if fs.seedMode then fs else { fs with dirty := true }

/-- `homefs_lookup` from the root. -/
def homefsLookup (path : CString) : Option Nat := lookup fs.tree path.val

/-- The outcomes of the allocations of a flush and of `fat16_write_file`. -/
structure Flush where
  budget : Nat
  written : Int

/-- `homefs_flush`. -/
def homefsFlush (flush : Flush) : Fs × FsReply :=
  if fs.dirty then
    match homefsSerialize fs.tree flush.budget with
    | .error code => (fs, .error code)
    | .fault => ({ fs with dirty := false, fault := true }, .undefined)
    | .diverges => ({ fs with dirty := false, stuck := true }, .undefined)
    | .ok bytes =>
      if flush.written < 0 ∨ flush.written.toNat ≠ bytes.length then (fs, .error .eio)
      else ({ fs with dirty := false }, .ok)
  else (fs, .ok)

/-- The end of `homefs_open`, for a node that was found or created. -/
def homefsOpenNode (id : Nat) (flags : OpenFlags) (budget : Nat) :
    Fs × Except VfsError Handle :=
  let opened := openNode fs.tree id flags budget
  let truncated := { fs with tree := opened.1 }
  (if flags.trunc && fs.tree.typeOf id == some .file then homefsMarkDirty truncated else truncated,
    opened.2)

/-- `homefs_open`. -/
def homefsOpen (path : CString) (flags : OpenFlags) (budget : Nat) :
    Fs × Except VfsError Handle :=
  match homefsLookup fs path with
  | some id => homefsOpenNode fs id flags budget
  | none =>
    if flags.creat then
      let created := create fs.tree path.val .file budget
      match created.result with
      | .error code => ({ fs with tree := created.tree }, .error code)
      | .ok id =>
        homefsOpenNode (homefsMarkDirty { fs with tree := created.tree }) id flags
          created.budget
    else (fs, .error .enoent)

/-- `homefs_mkdir_op`. -/
def homefsMkdirOp (path : CString) (budget : Nat) (flush : Flush) : Fs × FsReply :=
  match homefsLookup fs path with
  | some _ => (fs, .error .eexist)
  | none =>
    let created := create fs.tree path.val .dir budget
    match created.result with
    | .error code => ({ fs with tree := created.tree }, .error code)
    | .ok _ => homefsFlush (homefsMarkDirty { fs with tree := created.tree }) flush

/-- `homefs_unlink_op`. -/
def homefsUnlinkOp (path : CString) (flush : Flush) : Fs × FsReply :=
  match removeNode fs.tree path.val with
  | .error code => (fs, .error code)
  | .ok tree => homefsFlush (homefsMarkDirty { fs with tree := tree }) flush

/-- The doubling loop of `homefs_node_ensure_capacity`. After 32 rounds the capacity is zero, so a
loop that has not stopped never does. -/
def growLoop : Nat → Nat → Nat → Option Nat
  | 0, _, _ => none
  | fuel + 1, capacity, need =>
    if capacity < need then growLoop fuel (capacity * 2 % 2 ^ 32) need else some capacity

/-- What `homefs_node_ensure_capacity` ends with. -/
inductive Capacity
  | ok (file : File) (overrun : Bool)
  | enospc
  | diverges
  deriving DecidableEq

/-- `homefs_node_ensure_capacity` for a file node. -/
def homefsNodeEnsureCapacity (file : File) (need : Nat) (allocOk : Bool) : Capacity :=
  if need ≤ file.capacity then .ok file false
  else
    match growLoop 33 (if file.capacity = 0 then 256 else file.capacity) need with
    | none => .diverges
    | some capacity =>
      if allocOk then
        let grown := Ramfs.reallocate file capacity
        .ok grown.1 grown.2
      else .enospc

/-- `homefs_write` on a file node: the new file, position and overrun flag. -/
inductive Written
  | ok (file : File) (position : Nat) (overrun : Bool)
  | enospc
  | diverges
  deriving DecidableEq

/-- `homefs_write`. -/
def homefsWrite (file : File) (position : Nat) (bytes : Buffer) (allocOk : Bool) : Written :=
  let stop := (position + bytes.val.length) % 2 ^ 32
  match homefsNodeEnsureCapacity file stop allocOk with
  | .enospc => .enospc
  | .diverges => .diverges
  | .ok grown overrun =>
    let stored := Ramfs.storeAt grown position stop bytes.val
    .ok stored.1 stop (overrun || stored.2)

/-- `homefs_read`, the same code as `ramfs_read`. -/
def homefsRead : File → Nat → Nat → List UInt8 := Ramfs.ramfsRead

/-- `homefs_seek`, the same code as `ramfs_seek`. -/
def homefsSeek : File → Nat → Int32 → Whence → Option Nat := Ramfs.ramfsSeek

/-- A call on the mount with the outcomes it depends on. -/
inductive FsCall
  | openFile (path : CString) (flags : OpenFlags) (budget : Nat)
  | close (handle : Nat) (flush : Flush)
  | read (handle : Nat) (count : UInt32)
  | write (handle : Nat) (bytes : Buffer) (allocOk : Bool)
  | seek (handle : Nat) (offset : Int32) (whence : Whence)
  | stat (path : CString)
  | readdir (handle : Nat)
  | mkdir (path : CString) (budget : Nat) (flush : Flush)
  | unlink (path : CString) (flush : Flush)
  | sync (flush : Flush)
  | seedBegin
  | seedEnd

/-- An operation on the node of an open handle; on a freed node it is a fault. -/
def onHandle (index : Nat) (operation : Handle → Node → Fs × FsReply) : Fs × FsReply :=
  match openHandle fs.handles index with
  | none => (fs, .error .einval)
  | some handle =>
    match fs.tree.nodes handle.node with
    | none => ({ fs with fault := true }, .undefined)
    | some node => operation handle node

/-- Store a handle. -/
def setHandle (index : Nat) (handle : Handle) : Fs :=
  { fs with handles := fs.handles.set index (some handle) }

/-- `homefs_close`. -/
def homefsClose (index : Nat) (flush : Flush) : Fs × FsReply :=
  match openHandle fs.handles index with
  | none => (fs, .ok)
  | some _ =>
    let flushed := if fs.dirty && !fs.seedMode then homefsFlush fs flush else (fs, .ok)
    ({ flushed.1 with handles := flushed.1.handles.set index none }, flushed.2)

/-- One call on a homefs mount that is not stuck. -/
def fsCall : FsCall → Fs × FsReply
  | .openFile path flags budget =>
    match homefsOpen fs path flags budget with
    | (fs, .error code) => (fs, .error code)
    | (fs, .ok handle) =>
      ({ fs with handles := fs.handles ++ [some handle] }, .handle fs.handles.length)
  | .close index flush => homefsClose fs index flush
  | .read index count =>
    onHandle fs index fun handle node =>
      if node.type = .dir then (fs, .error .eisdir)
      else
        let bytes := homefsRead node.file handle.position count.toNat
        (setHandle fs index { handle with position := handle.position + bytes.length },
          .data bytes)
  | .write index bytes allocOk =>
    onHandle fs index fun handle node =>
      if node.type = .dir then (fs, .error .eisdir)
      else
        match homefsWrite node.file handle.position bytes allocOk with
        | .enospc => (fs, .error .enospc)
        | .diverges => ({ fs with stuck := true }, .undefined)
        | .ok file position overrun =>
          (homefsMarkDirty (setHandle
            { fs with tree := fs.tree.setFile handle.node file, fault := fs.fault || overrun }
            index { handle with position := position }), .count bytes.val.length)
  | .seek index offset whence =>
    onHandle fs index fun handle node =>
      match homefsSeek node.file handle.position offset whence with
      | none => (fs, .error .einval)
      | some position => (setHandle fs index { handle with position := position },
          .position position)
  | .stat path => (fs, statPath fs.tree path.val)
  | .readdir index =>
    onHandle fs index fun handle _ =>
      match readdirHandle fs.tree handle with
      | none => ({ fs with fault := true }, .undefined)
      | some (reply, cursor) => (setHandle fs index { handle with readdirCur := cursor }, reply)
  | .mkdir path budget flush => homefsMkdirOp fs path budget flush
  | .unlink path flush => homefsUnlinkOp fs path flush
  | .sync flush => homefsFlush fs flush
  | .seedBegin => ({ fs with seedMode := true }, .ok)
  | .seedEnd => ({ fs with seedMode := false }, .ok)

/-- One call on a homefs mount; nothing returns once a call hangs. -/
def fsStep : Machine Fs FsCall FsReply := fun fs call =>
  if fs.stuck then (fs, .undefined) else fsCall fs call

end CupidOs.Homefs
