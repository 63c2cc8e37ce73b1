import CupidOs.Lists.Tokens
import CupidOs.Ramfs.File
import Mathlib.Data.List.Nodup

/-!
# In-memory node trees

`kernel/fs/ramfs.c` and `kernel/fs/homefs.c` keep a mount in the same linked tree of nodes and
walk it with the same loops. A store maps an address to the node allocated there; addresses are
handed out in order and not reused. The sibling chain of a directory is the list of its children.

A path is the byte string in front of its terminator, and a pointer into it is a suffix.
-/

namespace CupidOs.NodeTree

open CupidOs.Lists Vfs
open Ramfs (File)

/-- A C string without its terminator. -/
abbrev CString := { bytes : List UInt8 // 0 ∉ bytes }

/-- The character `/`. -/
def slash : UInt8 := 47

/-- `ramfs_node_t` and `homefs_node_t`. `parent` is `none` for `NULL`. -/
structure Node where
  name : List UInt8
  type : NodeType
  file : File
  parent : Option Nat
  children : List Nat
  deriving DecidableEq

/-- A buffer pointer that is `NULL`. -/
def emptyFile : File := ⟨[], 0, 0⟩

/-- The allocated nodes and the next address to be handed out.  The root of the
mount is node 0. -/
structure Tree where
  nodes : Nat → Option Node
  nextId : Nat

/-- The address of the root. -/
def rootId : Nat := 0

/-- The copy loop of `alloc_node`: a name array keeps `VFS_MAX_NAME - 1` bytes. -/
def storedName (name : List UInt8) : List UInt8 := name.take (vfsMaxName - 1)

/-- `alloc_node`: a zeroed node with its name and type. -/
def allocNode (name : List UInt8) (type : NodeType) : Node :=
  ⟨storedName name, type, emptyFile, none, []⟩

/-- The tree after mount: a root directory with an empty name. -/
def mounted : Tree where
  nodes := fun id => if id = rootId then some (allocNode [] .dir) else none
  nextId := 1

namespace Tree

variable (tree : Tree)

/-- The name stored in a node. -/
def nameOf (id : Nat) : Option (List UInt8) := (tree.nodes id).map Node.name

/-- The type of a node. -/
def typeOf (id : Nat) : Option NodeType := (tree.nodes id).map Node.type

/-- The children of a node. -/
def childrenOf (id : Nat) : List Nat :=
  ((tree.nodes id).map Node.children).getD []

/-- Put `child` in front of the children of `parent`. -/
def attach (parent : Nat) (node : Node) : Tree where
  nodes := fun id =>
    if id = tree.nextId then some { node with parent := some parent }
    else if id = parent then
      (tree.nodes id).map fun owner => { owner with children := tree.nextId :: owner.children }
    else tree.nodes id
  nextId := tree.nextId + 1

/-- Take a node out of the children of its parent and free it. -/
def detach (id : Nat) : Tree where
  nodes := fun other =>
    if other = id then none
    else if some other = (tree.nodes id).bind Node.parent then
      (tree.nodes other).map fun owner => { owner with children := owner.children.erase id }
    else tree.nodes other
  nextId := tree.nextId

/-- Replace the file part of a node. -/
def setFile (id : Nat) (file : File) : Tree where
  nodes := fun other =>
    if other = id then (tree.nodes other).map fun node => { node with file := file }
    else tree.nodes other
  nextId := tree.nextId

end Tree

/-- `find_child`: the first child whose whole name is `name`. -/
def findChild (tree : Tree) (dir : Nat) (name : List UInt8) : Option Nat :=
  (tree.childrenOf dir).find? fun child => tree.nameOf child == some name

/-- `while (*p == '/') p++`. -/
def skipSlashes (path : List UInt8) : List UInt8 := path.dropWhile (· == slash)

/-- The bytes from `p` to the `end` of its component. -/
def component (path : List UInt8) : List UInt8 := path.takeWhile (· != slash)

/-- The pointer `end` behind the component at `p`. -/
def afterComponent (path : List UInt8) : List UInt8 := path.dropWhile (· != slash)

/-- The loop of `lookup`.  Each round consumes at least one byte of the path. -/
def lookupLoop (tree : Tree) : Nat → Nat → List UInt8 → Option Nat
  | 0, current, _ => some current
  | fuel + 1, current, path =>
    match skipSlashes path with
    | [] => some current
    | byte :: rest =>
      if tree.typeOf current = some .dir then
        match findChild tree current (component (byte :: rest)) with
        | none => none
        | some child => lookupLoop tree fuel child (afterComponent (byte :: rest))
      else none

/-- `lookup` from the root of the mount. -/
def lookup (tree : Tree) (path : List UInt8) : Option Nat :=
  lookupLoop tree path.length rootId path

/-- The tree, the number of allocations that would still succeed, and the parent directory with the
pointer stored to `filename`. -/
structure Made where
  tree : Tree
  budget : Nat
  result : Option (Nat × List UInt8)

/-- The loop of `mkdirs`.  It descends into whatever node carries the name of a
directory component. -/
def mkdirsLoop : Nat → Tree → Nat → Nat → List UInt8 → Made
  | 0, tree, budget, current, _ => ⟨tree, budget, some (current, [])⟩
  | fuel + 1, tree, budget, current, path =>
    if path = [] then ⟨tree, budget, some (current, [])⟩
    else if skipSlashes (afterComponent path) = [] then ⟨tree, budget, some (current, path)⟩
    else
      match findChild tree current (component path) with
      | some child =>
        mkdirsLoop fuel tree budget child (skipSlashes (afterComponent path))
      | none =>
        match budget with
        | 0 => ⟨tree, 0, none⟩
        | budget + 1 =>
          mkdirsLoop fuel
            (tree.attach current (allocNode (storedName (component path)) .dir)) budget
            tree.nextId (skipSlashes (afterComponent path))

/-- `mkdirs`.  `budget` allocations succeed, the next one fails. -/
def mkdirs (tree : Tree) (path : List UInt8) (budget : Nat) : Made :=
  mkdirsLoop path.length tree budget rootId (skipSlashes path)

/-- The loop that copies a file name up to the next slash. -/
def leafName (filename : List UInt8) : List UInt8 := storedName (component filename)

/-- The outcome of a creation: the tree, the allocations left, and the new node. -/
structure Creation where
  tree : Tree
  budget : Nat
  result : Except VfsError Nat

/-- What `open` with `O_CREAT` and `mkdir` share: link a new node below its parent directories. -/
def create (tree : Tree) (path : List UInt8) (type : NodeType) (budget : Nat) : Creation :=
  let made := mkdirs tree path budget
  match made.result with
  | none => ⟨made.tree, made.budget, .error .einval⟩
  | some (_, []) => ⟨made.tree, made.budget, .error .einval⟩
  | some (parent, byte :: rest) =>
    match made.budget with
    | 0 => ⟨made.tree, 0, .error .enospc⟩
    | budget + 1 =>
      ⟨made.tree.attach parent (allocNode (leafName (byte :: rest)) type), budget,
        .ok made.tree.nextId⟩

/-- `ramfs_handle_t`, and the fields of `homefs_handle_t` that are read. -/
structure Handle where
  node : Nat
  position : Nat
  readdirCur : Option Nat
  deriving DecidableEq

/-- The truncation of `open`. -/
def truncateNode (tree : Tree) (id : Nat) (trunc : Bool) : Tree :=
  if trunc && tree.typeOf id == some .file then tree.setFile id emptyFile else tree

/-- The size of a node. -/
def Tree.sizeOf (tree : Tree) (id : Nat) : Nat := ((tree.nodes id).map (·.file.size)).getD 0

/-- The handle that `open` allocates last. -/
def newHandle (tree : Tree) (id : Nat) (append : Bool) : Handle where
  node := id
  position := if append then tree.sizeOf id else 0
  readdirCur := if tree.typeOf id = some .dir then (tree.childrenOf id).head? else none

/-- The end of `open`, for a node that was found or created. -/
def openNode (tree : Tree) (id : Nat) (flags : OpenFlags) (budget : Nat) :
    Tree × Except VfsError Handle :=
  let truncated := truncateNode tree id flags.trunc
  (truncated, if budget = 0 then .error .eio else .ok (newHandle truncated id flags.append))

/-- The tests and the removal of `unlink`. -/
def removeNode (tree : Tree) (path : List UInt8) : Except VfsError Tree :=
  match lookup tree path with
  | none => .error .enoent
  | some id =>
    if id = rootId then .error .einval
    else if tree.typeOf id = some .dir ∧ tree.childrenOf id ≠ [] then .error .einval
    else .ok (tree.detach id)

/-- `child->next`: the sibling behind `id` in the children of its parent. -/
def nextSibling (tree : Tree) (id : Nat) : Option Nat :=
  match (tree.nodes id).bind Node.parent with
  | none => none
  | some parent => ((tree.childrenOf parent).dropWhile (· != id))[1]?

/-- `vfs_dirent_t`. -/
structure Dirent where
  name : List UInt8
  size : Nat
  type : NodeType
  deriving DecidableEq

/-- What a call on a mount returns.  `undefined` is a call that went through a
freed node. -/
inductive FsReply
  | ok
  | handle (index : Nat)
  | data (bytes : List UInt8)
  | count (written : Nat)
  | position (value : Nat)
  | stat (size : Nat) (type : NodeType)
  | entry (dirent : Option Dirent)
  | error (code : VfsError)
  | undefined
  deriving DecidableEq

/-- A handle that is open. -/
def openHandle (handles : List (Option Handle)) (index : Nat) : Option Handle :=
  handles[index]?.join

/-- `stat`. -/
def statPath (tree : Tree) (path : List UInt8) : FsReply :=
  match (lookup tree path).bind tree.nodes with
  | none => .error .enoent
  | some node => .stat node.file.size node.type

/-- `readdir` on a handle: the reply and the next cursor; `none` is a read of a
freed node. -/
def readdirHandle (tree : Tree) (handle : Handle) : Option (FsReply × Option Nat) :=
  match tree.nodes handle.node with
  | none => none
  | some node =>
    match node.type, handle.readdirCur with
    | .file, cursor => some (.error .enotdir, cursor)
    | .dir, none => some (.entry none, none)
    | .dir, some cursor =>
      match tree.nodes cursor with
      | none => none
      | some child =>
        some (.entry (some ⟨storedName child.name, child.file.size, child.type⟩),
          nextSibling tree cursor)

end CupidOs.NodeTree
