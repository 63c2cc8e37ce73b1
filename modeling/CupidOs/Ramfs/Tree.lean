import CupidOs.NodeTree.Core

/-!
# A ramfs mount

The operations of `kernel/fs/ramfs.c` on one mount: the node tree, the handles
that are open on it, and whether some call has gone through a freed node or
stored outside a buffer.
-/

namespace CupidOs.Ramfs

open NodeTree Transition Vfs

/-- A ramfs mount with its handles. -/
structure Fs where
  tree : Tree
  handles : List (Option Handle)
  fault : Bool

/-- `ramfs_mount`. -/
def ramfsMount : Fs := ⟨mounted, [], false⟩

variable (fs : Fs)

variable (path : CString)

/-- `ramfs_lookup` from the root. -/
def ramfsLookup : Option Nat := lookup fs.tree path.val

/-- `ramfs_open`.  `budget` allocations of the call succeed. -/
def ramfsOpen (flags : OpenFlags) (budget : Nat) :
    Fs × Except VfsError Handle :=
  match ramfsLookup fs path with
  | some id =>
    let opened := openNode fs.tree id flags budget
    ({ fs with tree := opened.1 }, opened.2)
  | none =>
    if flags.creat then
      let created := create fs.tree path.val .file budget
      match created.result with
      | .error code => ({ fs with tree := created.tree }, .error code)
      | .ok id =>
        let opened := openNode created.tree id flags created.budget
        ({ fs with tree := opened.1 }, opened.2)
    else (fs, .error .enoent)

/-- `ramfs_mkdir_op`. -/
def ramfsMkdirOp (budget : Nat) : Fs × Except VfsError Unit :=
  match ramfsLookup fs path with
  | some _ => (fs, .error .eexist)
  | none =>
    let created := create fs.tree path.val .dir budget
    ({ fs with tree := created.tree }, created.result.map fun _ => ())

/-- `ramfs_unlink`. -/
def ramfsUnlink : Fs × Except VfsError Unit :=
  match removeNode fs.tree path.val with
  | .error code => (fs, .error code)
  | .ok tree => ({ fs with tree := tree }, .ok ())

/-- The file part that `ramfs_add_file` builds from its data. -/
def prefilled (data : Buffer) : File := ⟨data.val, data.val.length, data.val.length⟩

/-- `ramfs_add_file`.  The data is empty for `NULL`. -/
def ramfsAddFile (data : Buffer) (budget : Nat) :
    Fs × Except VfsError Unit :=
  let made := mkdirs fs.tree path.val budget
  let failed (code : VfsError) : Fs × Except VfsError Unit :=
    ({ fs with tree := made.tree }, .error code)
  match made.result with
  | none => failed .einval
  | some (_, []) => failed .einval
  | some (parent, byte :: rest) =>
    let name := leafName (byte :: rest)
    if (findChild made.tree parent name).isSome then failed .eexist
    else if made.budget < (if data.val = [] then 1 else 2) then failed .enospc
    else
      ({ fs with
          tree := made.tree.attach parent
            { allocNode name .file with
              file := if data.val = [] then emptyFile else prefilled data } }, .ok ())

/-- A call on the mount with the outcome of its allocations. -/
inductive FsCall
  | openFile (path : CString) (flags : OpenFlags) (budget : Nat)
  | close (handle : Nat)
  | read (handle : Nat) (count : UInt32)
  | write (handle : Nat) (bytes : Buffer) (allocOk : Bool)
  | seek (handle : Nat) (offset : Int32) (whence : Whence)
  | stat (path : CString)
  | readdir (handle : Nat)
  | mkdir (path : CString) (budget : Nat)
  | unlink (path : CString)
  | addFile (path : CString) (data : Buffer) (budget : Nat)

/-- The status codes of calls that return nothing else. -/
def status : Except VfsError Unit → FsReply
  | .ok _ => .ok
  | .error code => .error code

/-- An operation on the node of an open handle; on a freed node it is a fault. -/
def onHandle (index : Nat) (operation : Handle → Node → Fs × FsReply) : Fs × FsReply :=
  match openHandle fs.handles index with
  | none => (fs, .error .einval)
  | some handle =>
    match fs.tree.nodes handle.node with
    | none => ({ fs with fault := true }, .undefined)
    | some node => operation handle node

/-- Store a handle. -/
def setHandle (index : Nat) (handle : Handle) : Fs :=
  { fs with handles := fs.handles.set index (some handle) }

/-- One call on a ramfs mount. -/
def fsStep : Machine Fs FsCall FsReply
  | fs, .openFile path flags budget =>
    match ramfsOpen fs path flags budget with
    | (fs, .error code) => (fs, .error code)
    | (fs, .ok handle) =>
      ({ fs with handles := fs.handles ++ [some handle] }, .handle fs.handles.length)
  | fs, .close index => ({ fs with handles := fs.handles.set index none }, .ok)
  | fs, .read index count =>
    onHandle fs index fun handle node =>
      if node.type = .dir then (fs, .error .eisdir)
      else
        let bytes := ramfsRead node.file handle.position count.toNat
        (setHandle fs index { handle with position := handle.position + bytes.length },
          .data bytes)
  | fs, .write index bytes allocOk =>
    onHandle fs index fun handle node =>
      if node.type = .dir then (fs, .error .eisdir)
      else
        match ramfsWrite node.file handle.position bytes allocOk with
        | none => (fs, .error .enospc)
        | some (file, position, overrun) =>
          (setHandle
            { fs with tree := fs.tree.setFile handle.node file, fault := fs.fault || overrun }
            index { handle with position := position }, .count bytes.val.length)
  | fs, .seek index offset whence =>
    onHandle fs index fun handle node =>
      match ramfsSeek node.file handle.position offset whence with
      | none => (fs, .error .einval)
      | some position => (setHandle fs index { handle with position := position },
          .position position)
  | fs, .stat path => (fs, statPath fs.tree path.val)
  | fs, .readdir index =>
    onHandle fs index fun handle _ =>
      match readdirHandle fs.tree handle with
      | none => ({ fs with fault := true }, .undefined)
      | some (reply, cursor) => (setHandle fs index { handle with readdirCur := cursor }, reply)
  | fs, .mkdir path budget =>
    let made := ramfsMkdirOp fs path budget
    (made.1, status made.2)
  | fs, .unlink path =>
    let removed := ramfsUnlink fs path
    (removed.1, status removed.2)
  | fs, .addFile path data budget =>
    let added := ramfsAddFile fs path data budget
    (added.1, status added.2)

end CupidOs.Ramfs
