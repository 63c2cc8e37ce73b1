import CupidOs.NodeTree.Paths

/-!
# The shape of a node tree

`Shape` is what every tree keeps as long as no path descends through a regular file: the store is
a tree rooted in node 0 whose inner nodes are directories, and addresses grow from parent to
child. The lemmas describe linking a node, freeing a leaf and replacing file data.
-/

namespace CupidOs.NodeTree

open List CupidOs.Lists Option Vfs
open Ramfs (File)

/-- A string that a name array can hold. -/
def Storable (name : List UInt8) : Prop := name.length < vfsMaxName ∧ 0 ∉ name

/-- The store is a tree of directories and leaves. -/
structure Shape (tree : Tree) : Prop where
  root : ∃ node, tree.nodes rootId = some node ∧ node.type = .dir ∧ node.parent = none
  bounded : ∀ id node, tree.nodes id = some node → id < tree.nextId
  child : ∀ id node, tree.nodes id = some node → ∀ child ∈ node.children,
    ∃ below, tree.nodes child = some below ∧ below.parent = some id ∧ id < child
  listed : ∀ id node, tree.nodes id = some node → id ≠ rootId →
    ∃ parent above, node.parent = some parent ∧ tree.nodes parent = some above ∧ id ∈ above.children
  nodup : ∀ id node, tree.nodes id = some node → node.children.Nodup
  dirs : ∀ id node, tree.nodes id = some node → node.children ≠ [] → node.type = .dir
  named : ∀ id node, tree.nodes id = some node → Storable node.name

/-- The names of the children of each node are pairwise distinct. -/
def Distinct (tree : Tree) : Prop :=
  ∀ id node, tree.nodes id = some node →
    node.children.Pairwise fun first second => tree.nameOf first ≠ tree.nameOf second

variable {name : List UInt8}

lemma storable_storedName (noNul : 0 ∉ name) : Storable (storedName name) := by
  constructor
  · simp only [storedName, length_take, vfsMaxName]
    omega
  · exact fun member => noNul (mem_of_mem_take member)

lemma storedName_of_short (short : name.length < vfsMaxName) : storedName name = name :=
  take_of_length_le (by simp only [vfsMaxName] at short ⊢; omega)

lemma noNul_of_mem_components {path : List UInt8} (noNul : 0 ∉ path)
    (member : name ∈ components path) : 0 ∉ name :=
  fun inName => noNul (subset_of_mem_tokens member inName)

lemma shape_mounted : Shape mounted := by
  have only : ∀ id node, mounted.nodes id = some node → id = rootId ∧ node = allocNode [] .dir := by
    intro id node found
    simp only [mounted] at found
    split_ifs at found with isRoot
    exact ⟨isRoot, (some.inj found).symm⟩
  constructor
  · exact ⟨allocNode [] .dir, rfl, rfl, rfl⟩
  · intro id node found
    rw [(only id node found).1]
    decide
  · intro id node found child member
    rw [(only id node found).2] at member
    cases member
  · intro id node found notRoot
    exact absurd (only id node found).1 notRoot
  · intro id node found
    rw [(only id node found).2]
    exact nodup_nil
  · intro id node found inner
    rw [(only id node found).2] at inner
    exact absurd rfl inner
  · intro id node found
    rw [(only id node found).2]
    exact storable_storedName not_mem_nil

lemma distinct_mounted : Distinct mounted := by
  intro id node found
  simp only [mounted] at found
  split_ifs at found with isRoot
  cases found
  exact List.Pairwise.nil

namespace Tree

variable {tree : Tree} {id parent : Nat} {node : Node}

@[simp]
lemma nextId_attach : (tree.attach parent node).nextId = tree.nextId + 1 :=
  rfl

lemma nodes_attach_new :
    (tree.attach parent node).nodes tree.nextId = some { node with parent := some parent } :=
  if_pos rfl

lemma nodes_attach_parent (old : parent ≠ tree.nextId) : (tree.attach parent node).nodes parent =
      (tree.nodes parent).map fun owner =>
        { owner with children := tree.nextId :: owner.children } := by
  simp only [attach, if_neg old, if_true]

lemma nodes_attach_other (old : id ≠ tree.nextId) (other : id ≠ parent) :
    (tree.attach parent node).nodes id = tree.nodes id := by
  simp only [attach, if_neg old, if_neg other]

lemma nodes_attach_old {owner : Node} (found : tree.nodes id = some owner)
    (old : id < tree.nextId) :
    (tree.attach parent node).nodes id = some { owner with
        children := if id = parent then tree.nextId :: owner.children else owner.children } := by
  by_cases isParent : id = parent
  · subst isParent
    rw [nodes_attach_parent (by omega), found, if_pos rfl]
    rfl
  · rw [nodes_attach_other (by omega) isParent, found, if_neg isParent]

lemma nodes_detach_self : (tree.detach id).nodes id = none :=
  if_pos rfl

lemma nodes_detach_other {other : Nat} (differ : other ≠ id) :
    (tree.detach id).nodes other = (tree.nodes other).map fun owner =>
        { owner with
          children := if some other = (tree.nodes id).bind Node.parent then owner.children.erase id
            else owner.children } := by
  simp only [detach, if_neg differ]
  by_cases above : some other = (tree.nodes id).bind Node.parent
  · simp only [if_pos above]
  · simp only [if_neg above]
    cases tree.nodes other <;> rfl

lemma nodes_detach_old {other : Nat} {owner : Node} (found : tree.nodes other = some owner)
    (differ : other ≠ id) :
    (tree.detach id).nodes other = some { owner with
        children := if some other = (tree.nodes id).bind Node.parent then owner.children.erase id
          else owner.children } := by
  rw [nodes_detach_other differ, found]
  rfl

lemma nodes_setFile {file : File} (other : Nat) :
    (tree.setFile id file).nodes other = (tree.nodes other).map fun node =>
        { node with file := if other = id then file else node.file } := by
  simp only [setFile]
  split_ifs with same
  · rfl
  · cases tree.nodes other <;> rfl

end Tree

section Edits

variable {tree : Tree} {parent : Nat} {node : Node} {found : Node} {other : Nat} {id : Nat}

/-- A node of the extended tree is the new one or an old one with its children. -/
theorem nodes_attach_cases (shape : Shape tree)
    (allocated : (tree.attach parent node).nodes id = some found) :
    (id = tree.nextId ∧ found = { node with parent := some parent }) ∨
      ∃ owner, tree.nodes id = some owner ∧ id < tree.nextId ∧ found = { owner with
          children := if id = parent then tree.nextId :: owner.children else owner.children } := by
  by_cases isNew : id = tree.nextId
  · subst isNew
    rw [Tree.nodes_attach_new] at allocated
    exact Or.inl ⟨rfl, (some.inj allocated).symm⟩
  cases old : tree.nodes id with
  | none =>
    by_cases isParent : id = parent
    · subst isParent
      rw [Tree.nodes_attach_parent isNew, old] at allocated
      cases allocated
    · rw [Tree.nodes_attach_other isNew isParent, old] at allocated
      cases allocated
  | some owner =>
    have less := shape.bounded id owner old
    rw [Tree.nodes_attach_old old less] at allocated
    exact Or.inr ⟨owner, rfl, less, (some.inj allocated).symm⟩

/-- Linking a new leaf below a directory keeps the shape. -/
theorem Shape.attach (shape : Shape tree) (isDir : tree.typeOf parent = some .dir)
    (leaf : node.children = []) (storable : Storable node.name) :
    Shape (tree.attach parent node) := by
  rcases map_eq_some_iff.mp isDir with ⟨above, aboveFound, aboveDir⟩
  have parentLess := shape.bounded parent above aboveFound
  constructor
  · rcases shape.root with ⟨root, found, type, noParent⟩
    exact ⟨_, Tree.nodes_attach_old found (shape.bounded _ _ found), type, noParent⟩
  · intro id found allocated
    rcases nodes_attach_cases shape allocated with ⟨rfl, _⟩ | ⟨_, _, less, _⟩
    · exact Nat.lt_succ_self _
    · exact Nat.lt_succ_of_lt less
  · intro id found allocated child member
    rcases nodes_attach_cases shape allocated with ⟨rfl, rfl⟩ | ⟨owner, old, less, rfl⟩
    · rw [leaf] at member
      cases member
    have oldChild : child ∈ owner.children → ∃ below,
        (tree.attach parent node).nodes child = some below ∧ below.parent = some id ∧
          id < child := by
      intro inOld
      rcases shape.child id owner old child inOld with ⟨below, belowFound, up, increasing⟩
      exact ⟨_, Tree.nodes_attach_old belowFound (shape.bounded _ _ belowFound), up, increasing⟩
    simp only at member
    split_ifs at member with isParent
    · subst isParent
      rcases mem_cons.mp member with rfl | inOld
      · exact ⟨_, Tree.nodes_attach_new, rfl, less⟩
      · exact oldChild inOld
    · exact oldChild member
  · intro id found allocated notRoot
    rcases nodes_attach_cases shape allocated with ⟨rfl, rfl⟩ | ⟨owner, old, less, rfl⟩
    · refine ⟨parent, _, rfl, Tree.nodes_attach_old aboveFound parentLess, ?_⟩
      simp
    rcases shape.listed id owner old notRoot with ⟨up, upper, upEq, upFound, member⟩
    refine ⟨up, _, upEq, Tree.nodes_attach_old upFound (shape.bounded _ _ upFound), ?_⟩
    by_cases isParent : up = parent
    · simp only [if_pos isParent]
      exact mem_cons_of_mem _ member
    · simpa only [if_neg isParent] using member
  · intro id found allocated
    rcases nodes_attach_cases shape allocated with ⟨rfl, rfl⟩ | ⟨owner, old, less, rfl⟩
    · rw [leaf]
      exact nodup_nil
    have oldNodup := shape.nodup id owner old
    by_cases isParent : id = parent
    · simp only [if_pos isParent]
      refine nodup_cons.mpr ⟨?_, oldNodup⟩
      intro member
      rcases shape.child id owner old _ member with ⟨below, belowFound, _⟩
      exact absurd (shape.bounded _ _ belowFound) (lt_irrefl _)
    · simpa only [if_neg isParent] using oldNodup
  · intro id found allocated inner
    rcases nodes_attach_cases shape allocated with ⟨rfl, rfl⟩ | ⟨owner, old, less, rfl⟩
    · exact absurd leaf inner
    by_cases isParent : id = parent
    · subst isParent
      rw [aboveFound] at old
      cases old
      exact aboveDir
    · simp only [if_neg isParent] at inner
      exact shape.dirs id owner old inner
  · intro id found allocated
    rcases nodes_attach_cases shape allocated with ⟨rfl, rfl⟩ | ⟨owner, old, less, rfl⟩
    · exact storable
    · exact shape.named id owner old

/-- A node left by `detach` is an old one without the freed child. -/
theorem nodes_detach_cases (allocated : (tree.detach id).nodes other = some found) :
    other ≠ id ∧ ∃ owner, tree.nodes other = some owner ∧ found = { owner with
        children := if some other = (tree.nodes id).bind Node.parent then owner.children.erase id
          else owner.children } := by
  by_cases same : other = id
  · subst same
    rw [Tree.nodes_detach_self] at allocated
    cases allocated
  rw [Tree.nodes_detach_other same] at allocated
  rcases map_eq_some_iff.mp allocated with ⟨owner, old, rfl⟩
  exact ⟨same, owner, old, rfl⟩

/-- The children left by `detach` are the old ones but the freed node. -/
theorem mem_children_detach (shape : Shape tree) {child : Nat} {owner : Node}
    (old : tree.nodes other = some owner) :
    child ∈ (if some other = (tree.nodes id).bind Node.parent then owner.children.erase id
      else owner.children) ↔ child ≠ id ∧ child ∈ owner.children := by
  split_ifs with above
  · exact (shape.nodup other owner old).mem_erase_iff
  · constructor
    · intro member
      refine ⟨?_, member⟩
      rintro rfl
      rcases shape.child other owner old child member with ⟨below, found, up, _⟩
      exact above (by rw [found, bind_some, up])
    · exact fun both => both.2

lemma children_detach_sublist (owner : Node) :
    List.Sublist (if some other = (tree.nodes id).bind Node.parent then owner.children.erase id
      else owner.children) owner.children := by
  split_ifs
  · exact erase_sublist
  · exact List.Sublist.refl _

lemma Shape.detach (shape : Shape tree) {gone : Node} (found : tree.nodes id = some gone)
    (leaf : gone.children = []) (notRoot : id ≠ rootId) : Shape (tree.detach id) := by
  constructor
  · rcases shape.root with ⟨root, rootFound, type, noParent⟩
    exact ⟨_, Tree.nodes_detach_old rootFound (Ne.symm notRoot), type, noParent⟩
  · intro other left allocated
    rcases nodes_detach_cases allocated with ⟨_, owner, old, _⟩
    exact shape.bounded other owner old
  · intro other left allocated child member
    rcases nodes_detach_cases allocated with ⟨differ, owner, old, rfl⟩
    rcases (mem_children_detach shape old).mp member with ⟨childDiffer, inOld⟩
    rcases shape.child other owner old child inOld with ⟨below, belowFound, up, increasing⟩
    exact ⟨_, Tree.nodes_detach_old belowFound childDiffer, up, increasing⟩
  · intro other left allocated otherNotRoot
    rcases nodes_detach_cases allocated with ⟨differ, owner, old, rfl⟩
    rcases shape.listed other owner old otherNotRoot with ⟨up, upper, upEq, upFound, member⟩
    have upDiffer : up ≠ id := by
      rintro rfl
      rw [found] at upFound
      cases upFound
      rw [leaf] at member
      cases member
    exact ⟨up, _, upEq, Tree.nodes_detach_old upFound upDiffer,
      (mem_children_detach shape upFound).mpr ⟨differ, member⟩⟩
  · intro other left allocated
    rcases nodes_detach_cases allocated with ⟨_, owner, old, rfl⟩
    exact (shape.nodup other owner old).sublist (children_detach_sublist owner)
  · intro other left allocated inner
    rcases nodes_detach_cases allocated with ⟨_, owner, old, rfl⟩
    apply shape.dirs other owner old
    rintro empty
    apply inner
    simp [empty]
  · intro other left allocated
    rcases nodes_detach_cases allocated with ⟨_, owner, old, rfl⟩
    exact shape.named other owner old

lemma nodes_setFile_cases {file : File}
    (allocated : (tree.setFile id file).nodes other = some found) :
    ∃ owner, tree.nodes other = some owner ∧
      found = { owner with file := if other = id then file else owner.file } := by
  rw [Tree.nodes_setFile] at allocated
  rcases map_eq_some_iff.mp allocated with ⟨owner, old, rfl⟩
  exact ⟨owner, old, rfl⟩

lemma Shape.setFile (shape : Shape tree) (id : Nat) (file : File) :
    Shape (tree.setFile id file) := by
  have kept : ∀ {other : Nat} {owner : Node}, tree.nodes other = some owner →
      (tree.setFile id file).nodes other =
        some { owner with file := if other = id then file else owner.file } := by
    intro other owner old
    rw [Tree.nodes_setFile, old]
    rfl
  constructor
  · rcases shape.root with ⟨root, rootFound, type, noParent⟩
    exact ⟨_, kept rootFound, type, noParent⟩
  · intro other left allocated
    rcases nodes_setFile_cases allocated with ⟨owner, old, _⟩
    exact shape.bounded other owner old
  · intro other left allocated child member
    rcases nodes_setFile_cases allocated with ⟨owner, old, rfl⟩
    rcases shape.child other owner old child member with ⟨below, belowFound, up, increasing⟩
    exact ⟨_, kept belowFound, up, increasing⟩
  · intro other left allocated notRoot
    rcases nodes_setFile_cases allocated with ⟨owner, old, rfl⟩
    rcases shape.listed other owner old notRoot with ⟨up, upper, upEq, upFound, member⟩
    exact ⟨up, _, upEq, kept upFound, member⟩
  · intro other left allocated
    rcases nodes_setFile_cases allocated with ⟨owner, old, rfl⟩
    exact shape.nodup other owner old
  · intro other left allocated
    rcases nodes_setFile_cases allocated with ⟨owner, old, rfl⟩
    exact shape.dirs other owner old
  · intro other left allocated
    rcases nodes_setFile_cases allocated with ⟨owner, old, rfl⟩
    exact shape.named other owner old

end Edits

end CupidOs.NodeTree
