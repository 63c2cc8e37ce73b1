import CupidOs.NodeTree.Creation

/-!
# Sound node trees

A sound tree has directories inside and distinct sibling names.  Creations whose
paths fit, removals and changes of file data keep it sound.
-/

namespace CupidOs.NodeTree

open Vfs
open Ramfs (File)

/-- The components fit a name array and none of the directories is a regular file. -/
def CreationFits (tree : Tree) (path : CString) : Prop :=
  PathFits path.val ∧ AvoidsFiles tree path.val

instance (tree : Tree) (path : CString) : Decidable (CreationFits tree path) :=
  inferInstanceAs (Decidable (PathFits path.val ∧ AvoidsFiles tree path.val))

/-- The path leads to the node that the call created last. -/
def LeadsToNew (before after : Tree) (path : CString) (type : NodeType) : Prop :=
  ∃ id, lookup after path.val = some id ∧ JustCreated before after type id

variable {path : CString} {tree : Tree}

lemma LeadsToNew.setFile {before after : Tree} {type : NodeType}
    (leads : LeadsToNew before after path type) (id : Nat) (file : File) :
    LeadsToNew before (after.setFile id file) path type := by
  rcases leads with ⟨new, found, created⟩
  refine ⟨new, ?_, created.isNew, created.isLast, ?_, ?_⟩
  · rw [lookup_eq_resolve, resolve_setFile, ← lookup_eq_resolve, found]
  · rw [typeOf_setFile, created.type]
  · rw [childrenOf_setFile, created.leaf]

lemma truncateNode_eq (tree : Tree) (id : Nat) (trunc : Bool) :
    truncateNode tree id trunc = tree ∨ truncateNode tree id trunc = tree.setFile id emptyFile := by
  unfold truncateNode
  split_ifs
  · exact Or.inr rfl
  · exact Or.inl rfl

/-- A node tree with directories inside and distinct sibling names. -/
structure Sound (tree : Tree) : Prop where
  shape : Shape tree
  distinct : Distinct tree

lemma sound_mounted : Sound mounted :=
  ⟨shape_mounted, distinct_mounted⟩

lemma Sound.truncateNode (sound : Sound tree) (id : Nat) (trunc : Bool) :
    Sound (NodeTree.truncateNode tree id trunc) := by
  rcases truncateNode_eq tree id trunc with same | cleared
  · rwa [same]
  · rw [cleared]
    exact ⟨sound.shape.setFile id emptyFile, sound.distinct.setFile id emptyFile⟩

lemma LeadsToNew.truncateNode {before after : Tree} {type : NodeType}
    (leads : LeadsToNew before after path type) (id : Nat) (trunc : Bool) :
    LeadsToNew before (NodeTree.truncateNode after id trunc) path type := by
  rcases truncateNode_eq after id trunc with same | cleared
  · rwa [same]
  · rw [cleared]
    exact leads.setFile id emptyFile

section Creations

variable {dirs : List (List UInt8)} {last : List UInt8} {after : Tree} {type : NodeType}
  (sound : Sound tree) (fits : CreationFits tree path)
include sound fits

lemma Sound.descends {result : Option Nat} (descends : Descends tree rootId dirs after result)
    (parsed : components path.val = dirs ++ [last]) :
    Sound after ∧ Storable last ∧ Extends tree after ∧
      ∀ parent, result = some parent → resolve after rootId dirs = some parent := by
  have storable : ∀ name ∈ components path.val, Storable name := fun name member =>
    ⟨fits.1 name member, noNul_of_mem_components path.property member⟩
  rw [parsed] at storable
  have storableDirs := fun name member => storable name (List.mem_append_left _ member)
  have shape := descends.shape sound.shape fun name member => (storableDirs name member).2
  obtain ⟨distinct, finds⟩ := descends.finds sound.shape sound.distinct storableDirs
  exact ⟨⟨shape, distinct⟩, storable last (by simp), finds⟩

/-- A leaf linked under a free name is where its path leads. -/
theorem Sound.link {parent : Nat} (node : Node)
    (descends : Descends tree rootId dirs after (some parent))
    (parsed : components path.val = dirs ++ [last]) (named : node.name = storedName (storedName last))
    (free : findChild after parent last = none) (leaf : node.children = []) :
    Sound (after.attach parent node) ∧
      LeadsToNew tree (after.attach parent node) path node.type := by
  obtain ⟨⟨shape, distinct⟩, storable, grown, leads⟩ := sound.descends fits descends parsed
  rw [storedName_of_short storable.1, storedName_of_short storable.1] at named
  subst named
  have present := isSome_of_typeOf descends.isDir
  have linked := extends_attach shape present free
  refine ⟨⟨shape.attach descends.isDir leaf storable, distinct.attach shape leaf free⟩,
    after.nextId, ?_, grown.grows, rfl, typeOf_attach_new after parent node, ?_⟩
  · rw [lookup_eq_resolve, parsed, resolve_append_singleton, linked.resolve (leads parent rfl),
      Option.bind_some, if_pos (linked.typeOf descends.isDir), findChild_attach_new shape present node]
  · rw [childrenOf_of_nodes Tree.nodes_attach_new, leaf]

/-- Creating along a path that fits and led nowhere keeps a tree sound, and the path leads to the new
node. -/
theorem Sound.create (type : NodeType) (budget : Nat) (missing : lookup tree path.val = none) :
    Sound (NodeTree.create tree path.val type budget).tree ∧
      ∀ id, (NodeTree.create tree path.val type budget).result = .ok id →
        LeadsToNew tree (NodeTree.create tree path.val type budget).tree path type := by
  have creates := creates_create sound.shape type budget fits.2
  generalize NodeTree.create tree path.val type budget = created at creates ⊢
  rcases created with ⟨after, left, result⟩
  cases creates with
  | empty => exact ⟨sound, nofun⟩
  | failed _ parsed descends => exact ⟨(sound.descends fits descends parsed).1, nofun⟩
  | @linked _ last _ _ parsed descends =>
    rw [lookup_eq_resolve, parsed] at missing
    have linked := sound.link fits (allocNode (storedName last) type) descends parsed rfl
      (descends.free missing) rfl
    exact ⟨linked.1, fun _ _ => linked.2⟩

end Creations

/-- What opening a path leaves of the tree, and returns. -/
inductive Opens (tree : Tree) (path : CString) (flags : OpenFlags) (budget : Nat) :
    Tree → Except VfsError Handle → Prop
  | found {id : Nat} (result : Except VfsError Handle) (found : lookup tree path.val = some id) :
    Opens tree path flags budget (NodeTree.truncateNode tree id flags.trunc) result
  | absent : Opens tree path flags budget tree (.error .enoent)
  | failed (code : VfsError) (creat : flags.creat = true) (missing : lookup tree path.val = none) :
    Opens tree path flags budget (create tree path.val .file budget).tree (.error code)
  | made {id : Nat} (result : Except VfsError Handle) (creat : flags.creat = true)
      (missing : lookup tree path.val = none)
      (made : (create tree path.val .file budget).result = .ok id) :
    Opens tree path flags budget
      (NodeTree.truncateNode (create tree path.val .file budget).tree id flags.trunc) result

section Opens

variable {flags : OpenFlags} {budget : Nat} {after : Tree} {result : Except VfsError Handle}

lemma Opens.sound (opens : Opens tree path flags budget after result) (sound : Sound tree)
    (fits : flags.creat = true → CreationFits tree path) : Sound after := by
  cases opens with
  | found => exact sound.truncateNode _ flags.trunc
  | absent => exact sound
  | failed _ creat missing => exact (sound.create (fits creat) .file budget missing).1
  | made _ creat missing =>
    exact (sound.create (fits creat) .file budget missing).1.truncateNode _ flags.trunc

lemma Opens.leads {handle : Handle} (opens : Opens tree path flags budget after (.ok handle))
    (sound : Sound tree) (fits : flags.creat = true → CreationFits tree path)
    (missing : lookup tree path.val = none) : LeadsToNew tree after path .file := by
  cases opens with
  | found _ found =>
    rw [missing] at found
    cases found
  | made _ creat _ made =>
    exact ((sound.create (fits creat) .file budget missing).2 _ made).truncateNode _ flags.trunc

end Opens

lemma removeNode_cases {after : Tree} (shape : Shape tree) {path : List UInt8}
    (removed : removeNode tree path = .ok after) :
    after = tree ∨ ∃ id node, tree.nodes id = some node ∧ node.children = [] ∧ id ≠ rootId ∧
      after = tree.detach id := by
  unfold removeNode at removed
  cases found : lookup tree path with
  | none => simp [found] at removed
  | some id =>
    simp only [found] at removed
    split_ifs at removed with isRoot inner
    cases removed
    cases allocated : tree.nodes id with
    | none =>
      left
      simp only [Tree.detach, allocated, Option.bind_none, reduceCtorEq, if_false]
      congr 1
      funext other
      split_ifs with same
      · rw [same, allocated]
      · rfl
    | some node =>
      refine Or.inr ⟨id, node, allocated, ?_, isRoot, rfl⟩
      by_contra inside
      apply inner
      have isDir := shape.dirs id node allocated inside
      exact ⟨by simp [Tree.typeOf, allocated, isDir], by rwa [childrenOf_of_nodes allocated]⟩

lemma Sound.removeNode {after : Tree} (sound : Sound tree) {path : List UInt8}
    (removed : NodeTree.removeNode tree path = .ok after) : Sound after := by
  rcases removeNode_cases sound.shape removed with rfl | ⟨id, node, found, leaf, notRoot, rfl⟩
  · exact sound
  · exact ⟨sound.shape.detach found leaf notRoot, sound.distinct.detach sound.shape id⟩

end CupidOs.NodeTree
