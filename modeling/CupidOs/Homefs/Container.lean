import CupidOs.Bytes.Codec
import CupidOs.NodeTree.Core

/-!
# The homefs container

`homefs_serialize` writes a node tree into one byte string and `homefs_deserialize` builds a tree
from it. The container has a header of three words, then one record for each node in the order of
a visit, parents first.
-/

namespace CupidOs.Homefs

open Bytes NodeTree Vfs
open Ramfs (File)

/-- `HOMEFS_MAGIC`. -/
def homefsMagic : Nat := 0x31465348

/-- `HOMEFS_VERSION`. -/
def homefsVersion : Nat := 1

/-- `sizeof(homefs_disk_header_t)`. -/
def headerSize : Nat := 12

/-- `sizeof(homefs_disk_node_t)`. -/
def diskNodeSize : Nat := 16

/-- The parent index of the root record. -/
def noParent : Nat := 0xFFFFFFFF

/-- The order of `homefs_collect_nodes`: a node, its children, then its sibling. `stack` holds the
nodes still to be visited; `none` is a recursion that does not end. -/
def visit (tree : Tree) : Nat → List Nat → Option (List Nat)
  | _, [] => some []
  | 0, _ :: _ => none
  | fuel + 1, id :: stack => (visit tree fuel (tree.childrenOf id ++ stack)).map (id :: ·)

/-- The visit of the whole tree. -/
def visitTree (tree : Tree) : Option (List Nat) := visit tree tree.nextId [rootId]

/-- The value of `type` in a record. -/
def typeCode : NodeType → Nat
  | .file => 0
  | .dir => 1

/-- The size field of a record. -/
def recordSize (node : Node) : Nat := if node.type = .file then node.file.size else 0

/-- The parent index of a record: `homefs_index_of` as a non-negative `int`, or
`0xFFFFFFFF`. -/
def parentIndex (order : List Nat) (node : Node) : Nat :=
  match node.parent.bind order.idxOf? with
  | some index => if 0 ≤ toInt32 index then index else noParent
  | none => noParent

/-- `homefs_disk_node_t` followed by the name and the data of a file. -/
def recordBytes (order : List Nat) (node : Node) : List UInt8 :=
  encodeLE 4 (parentIndex order node) ++ (encodeLE 4 (typeCode node.type) ++
      (encodeLE 4 (recordSize node) ++ (encodeLE 4 node.name.length ++
          (node.name ++ node.file.data.take (recordSize node)))))

/-- The bytes that one node adds to `total`. -/
def recordLength (node : Node) : Nat := diskNodeSize + node.name.length + recordSize node

/-- The nodes of a list of addresses. -/
def nodesAt (tree : Tree) (order : List Nat) : List Node := order.filterMap tree.nodes

/-- The container of a tree whose nodes are visited in the given order. -/
def containerBytes (tree : Tree) (order : List Nat) : List UInt8 :=
  encodeLE 4 homefsMagic ++ (encodeLE 4 homefsVersion ++
      (encodeLE 4 order.length ++ (nodesAt tree order).flatMap (recordBytes order)))

/-- What `homefs_serialize` ends with. -/
inductive Serialized
  | ok (bytes : List UInt8)
  | error (code : VfsError)
  | fault
  | diverges
  deriving DecidableEq

/-- `homefs_serialize`; `budget` of its allocations succeed. `node_count` and `total` are 32-bit
sums; a store behind a buffer is a fault. -/
def homefsSerialize (tree : Tree) (budget : Nat) : Serialized :=
  match visitTree tree with
  | none => .diverges
  | some order =>
    let nodeCount := order.length % 2 ^ 32
    let total :=
      (headerSize + ((nodesAt tree order).map recordLength).sum) % 2 ^ 32
    if budget = 0 then .error .enospc
    else if nodeCount < order.length then .error .eio
    else if nodeCount * 4 % 2 ^ 32 < order.length * 4 then .fault
    else if budget = 1 then .error .enospc
    else if total < (containerBytes tree order).length then .fault
    else .ok (containerBytes tree order)

/-- A failed check, or an access outside the container or the node table. -/
inductive Failure
  | rejected
  | fault
  deriving DecidableEq

/-- A record as it is read: the parent index and the node built from it. -/
structure Entry where
  parentIndex : Nat
  node : Node

/-- A copy that is let through when the 32-bit sum of position and count is within the size. -/
def readBytes (data : List UInt8) (position count : Nat) : Except Failure (List UInt8) :=
  if data.length < (position + count) % 2 ^ 32 then .error .rejected
  else if data.length < position + count then .error .fault
  else .ok ((data.drop position).take count)

/-- The node that `homefs_alloc_node` makes of a name read from a record. -/
def loadedNode (name : List UInt8) (type : NodeType) (file : File) : Node :=
  { allocNode (name.takeWhile (· != 0)) type with file := file }

/-- The data of a file that is not empty. The buffer is allocated between the range check and the
copy. -/
def readFile (data : List UInt8) (position size : Nat) (type : NodeType) (budget : Nat) :
    Except Failure (File × Nat × Nat) :=
  if type = .file ∧ 0 < size then
    match readBytes data position size, budget with
    | .error .rejected, _ => .error .rejected
    | _, 0 => .error .rejected
    | .error .fault, _ => .error .fault
    | .ok bytes, budget + 1 => .ok (⟨bytes, size, size⟩, position + size, budget)
  else .ok (emptyFile, position, budget)

/-- One record: the entry, the position behind it and the allocations left. -/
def readEntry (data : List UInt8) (position budget : Nat) : Except Failure (Entry × Nat × Nat) :=
  match readBytes data position diskNodeSize with
  | .error failure => .error failure
  | .ok _ =>
    let parent := readLE 4 data position
    let code := readLE 4 data (position + 4)
    let size := readLE 4 data (position + 8)
    let nameLength := readLE 4 data (position + 12)
    if vfsMaxName ≤ nameLength then .error .rejected
    else
      match readBytes data (position + diskNodeSize) nameLength with
      | .error failure => .error failure
      | .ok name =>
        if 1 < code then .error .rejected
        else
          match budget with
          | 0 => .error .rejected
          | budget + 1 =>
            let type := if code = 0 then NodeType.file else .dir
            match readFile data (position + diskNodeSize + nameLength) size type budget with
            | .error failure => .error failure
            | .ok (file, next, left) =>
              .ok (⟨parent, loadedNode name type file⟩, next, left)

/-- Put the first node into an empty store. -/
def plant (tree : Tree) (node : Node) : Tree where
  nodes := fun id => if id = tree.nextId then some node else tree.nodes id
  nextId := tree.nextId + 1

/-- The parent check of a record and the linking of its node. -/
def install (tree : Tree) (entry : Entry) : Except Failure Tree :=
  if entry.parentIndex = noParent then
    if tree.nextId = 0 then .ok (plant tree entry.node) else .error .rejected
  else if tree.nextId ≤ entry.parentIndex then .error .rejected
  else if tree.typeOf entry.parentIndex = some .dir then
    .ok (tree.attach entry.parentIndex entry.node)
  else .error .rejected

/-- The loop over the records; `slots` is the length of the node table. -/
def loadLoop (data : List UInt8) (slots : Nat) : Nat → Nat → Nat → Tree → Except Failure Tree
  | 0, _, _, tree => .ok tree
  | remaining + 1, position, budget, tree =>
    match readEntry data position budget with
    | .error failure => .error failure
    | .ok (entry, next, left) =>
      if slots ≤ tree.nextId then .error .fault
      else
        match install tree entry with
        | .error failure => .error failure
        | .ok tree => loadLoop data slots remaining next left tree

/-- What `homefs_deserialize` ends with. -/
inductive Loaded
  | ok (tree : Tree)
  | error (code : VfsError)
  | fault

/-- A store without nodes. -/
def emptyTree : Tree := ⟨fun _ => none, 0⟩

/-- `homefs_deserialize`.  The clean-up after a rejected record walks
`node_count` table entries. -/
def homefsDeserialize (data : Buffer) (budget : Nat) : Loaded :=
  if data.val.length < headerSize then .error .einval
  else if readLE 4 data.val 0 ≠ homefsMagic ∨ readLE 4 data.val 4 ≠ homefsVersion ∨
      readLE 4 data.val 8 = 0 then .error .eio
  else
    match budget with
    | 0 => .error .enospc
    | budget + 1 =>
      let nodeCount := readLE 4 data.val 8
      let slots := nodeCount * 4 % 2 ^ 32 / 4
      match loadLoop data.val slots nodeCount headerSize budget emptyTree with
      | .ok tree => .ok tree
      | .error .fault => .fault
      | .error .rejected => if slots < nodeCount then .fault else .error .eio

end CupidOs.Homefs
