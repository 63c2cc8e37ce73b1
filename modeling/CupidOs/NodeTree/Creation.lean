import CupidOs.NodeTree.Shape
import Mathlib.Data.List.Find

/-!
# Creating nodes along a path

What `mkdirs` and the linking of a new node do to lookups. A creation that meets no regular file
keeps the shape of the tree; if the names also fit, sibling names stay distinct and the path leads
to the new node.
-/

namespace CupidOs.NodeTree

open List Option Vfs
open Ramfs (File)

/-- Every named directory that exists already below `current` is a directory. -/
def PassesDirs (tree : Tree) : Nat → List (List UInt8) → Prop
  | _, [] => True
  | current, name :: names =>
    match findChild tree current name with
    | none => True
    | some child => tree.typeOf child = some .dir ∧ PassesDirs tree child names

instance decidablePassesDirs (tree : Tree) :
    (current : Nat) → (names : List (List UInt8)) → Decidable (PassesDirs tree current names)
  | _, [] => inferInstanceAs (Decidable True)
  | current, name :: names =>
    match found : findChild tree current name with
    | none => .isTrue (by simp only [PassesDirs, found])
    | some child =>
      have := decidablePassesDirs tree child names
      decidable_of_iff (tree.typeOf child = some .dir ∧ PassesDirs tree child names)
        (by simp only [PassesDirs, found])

variable {tree : Tree}

lemma findChild_eq_none_iff {dir : Nat} {name : List UInt8} :
    findChild tree dir name = none ↔
      ∀ child ∈ tree.childrenOf dir, tree.nameOf child ≠ some name := by
  simp [findChild]

lemma mem_of_findChild {dir child : Nat} {name : List UInt8}
    (found : findChild tree dir name = some child) :
    child ∈ tree.childrenOf dir ∧ tree.nameOf child = some name := by
  refine ⟨mem_of_find?_eq_some found, ?_⟩
  simpa using find?_some found

variable {id current : Nat} {names : List (List UInt8)}

lemma childrenOf_of_nodes {node : Node} (found : tree.nodes id = some node) :
    tree.childrenOf id = node.children := by
  simp [Tree.childrenOf, found]

lemma nodes_of_mem_childrenOf {child : Nat} (member : child ∈ tree.childrenOf id) :
    ∃ node, tree.nodes id = some node ∧ child ∈ node.children := by
  cases found : tree.nodes id with
  | none => simp [Tree.childrenOf, found] at member
  | some node =>
    rw [childrenOf_of_nodes found] at member
    exact ⟨node, rfl, member⟩

lemma storable_allocNode {name : List UInt8} (noNul : 0 ∉ name) (type : NodeType) :
    Storable (allocNode (storedName name) type).name :=
  storable_storedName (storable_storedName noNul).2

lemma name_allocNode {name : List UInt8} {type : NodeType} (short : name.length < vfsMaxName) :
    (allocNode (storedName name) type).name = name := by
  simp only [allocNode, storedName_of_short short]

/-- The later tree has all nodes and all directory entries of the earlier one. -/
structure Extends (before after : Tree) : Prop where
  kept : ∀ id node, before.nodes id = some node →
    ∃ children, after.nodes id = some { node with children := children }
  entries : ∀ dir name child, findChild before dir name = some child →
    findChild after dir name = some child
  grows : before.nextId ≤ after.nextId

lemma Extends.refl (tree : Tree) : Extends tree tree :=
  ⟨fun _ node found => ⟨node.children, found⟩, fun _ _ _ found => found, le_rfl⟩

lemma Extends.trans {first second third : Tree} (earlier : Extends first second)
    (later : Extends second third) : Extends first third := by
  constructor
  · intro id node found
    rcases earlier.kept id node found with ⟨children, foundSecond⟩
    rcases later.kept id _ foundSecond with ⟨laterChildren, foundThird⟩
    exact ⟨laterChildren, foundThird⟩
  · intro dir name child found
    exact later.entries dir name child (earlier.entries dir name child found)
  · exact earlier.grows.trans later.grows

lemma Extends.typeOf {before after : Tree} (grown : Extends before after) {type : NodeType}
    (isType : before.typeOf id = some type) : after.typeOf id = some type := by
  rcases map_eq_some_iff.mp isType with ⟨node, found, rfl⟩
  rcases grown.kept id node found with ⟨children, foundAfter⟩
  simp [Tree.typeOf, foundAfter]

/-- A path that leads to a node still leads there in the later tree. -/
theorem Extends.resolve {before after : Tree} (grown : Extends before after)
    (resolved : resolve before current names = some id) :
    resolve after current names = some id := by
  induction names generalizing current with
  | nil => exact resolved
  | cons name names ih =>
    simp only [NodeTree.resolve] at resolved ⊢
    split_ifs at resolved with isDir
    rw [if_pos (grown.typeOf isDir)]
    cases found : findChild before current name with
    | none => simp [found] at resolved
    | some child =>
      rw [grown.entries current name child found]
      simp only [found] at resolved
      exact ih resolved

lemma resolve_append_singleton (tree : Tree) (current : Nat) (dirs : List (List UInt8))
    (last : List UInt8) :
    resolve tree current (dirs ++ [last]) = (resolve tree current dirs).bind fun parent =>
        if tree.typeOf parent = some .dir then findChild tree parent last else none := by
  induction dirs generalizing current with
  | nil =>
    simp only [nil_append, resolve, bind_some]
    split_ifs
    · cases findChild tree current last <;> rfl
    · rfl
  | cons dir dirs ih =>
    simp only [cons_append, resolve]
    split_ifs
    · cases findChild tree current dir with
      | none => rfl
      | some child => exact ih child
    · rfl

section Attach

variable {tree : Tree} {parent : Nat} {node : Node}

lemma nameOf_attach_old (shape : Shape tree) {id : Nat} (old : (tree.nodes id).isSome) :
    (tree.attach parent node).nameOf id = tree.nameOf id := by
  rcases isSome_iff_exists.mp old with ⟨owner, found⟩
  simp only [Tree.nameOf, Tree.nodes_attach_old found (shape.bounded _ _ found), found, map_some]

lemma nameOf_attach_new : (tree.attach parent node).nameOf tree.nextId = some node.name := by
  simp only [Tree.nameOf, Tree.nodes_attach_new, map_some]

section

variable (shape : Shape tree)
include shape

lemma Shape.isSome_of_mem_childrenOf {dir child : Nat}
    (member : child ∈ tree.childrenOf dir) : (tree.nodes child).isSome := by
  rcases nodes_of_mem_childrenOf member with ⟨owner, found, inChildren⟩
  rcases shape.child dir owner found child inChildren with ⟨below, belowFound, _⟩
  simp [belowFound]

lemma childrenOf_attach_parent (present : (tree.nodes parent).isSome) :
    (tree.attach parent node).childrenOf parent = tree.nextId :: tree.childrenOf parent := by
  rcases isSome_iff_exists.mp present with ⟨owner, found⟩
  rw [childrenOf_of_nodes (Tree.nodes_attach_old found (shape.bounded _ _ found)),
    childrenOf_of_nodes found, if_pos rfl]

lemma childrenOf_attach_other {id : Nat} (differ : id ≠ parent)
    (old : (tree.nodes id).isSome) :
    (tree.attach parent node).childrenOf id = tree.childrenOf id := by
  rcases isSome_iff_exists.mp old with ⟨owner, found⟩
  rw [childrenOf_of_nodes (Tree.nodes_attach_old found (shape.bounded _ _ found)),
    childrenOf_of_nodes found, if_neg differ]

/-- The children of an old directory are looked up by their old names. -/
theorem find_attach_old (dir : Nat) (name : List UInt8) : ((tree.childrenOf dir).find? fun child =>
        (tree.attach parent node).nameOf child == some name) = findChild tree dir name := by
  apply find?_congr
  intro child member
  rw [nameOf_attach_old shape (shape.isSome_of_mem_childrenOf member)]

lemma findChild_attach_new (present : (tree.nodes parent).isSome) (node : Node) :
    findChild (tree.attach parent node) parent node.name = some tree.nextId := by
  rw [findChild, childrenOf_attach_parent shape present]
  simp [nameOf_attach_new]

lemma extends_attach (present : (tree.nodes parent).isSome)
    (fresh : findChild tree parent node.name = none) :
    Extends tree (tree.attach parent node) := by
  constructor
  · intro id owner found
    exact ⟨_, Tree.nodes_attach_old found (shape.bounded _ _ found)⟩
  · intro dir name child found
    rcases nodes_of_mem_childrenOf (mem_of_findChild found).1 with ⟨owner, dirFound, _⟩
    have dirOld : (tree.nodes dir).isSome := by simp [dirFound]
    by_cases isParent : dir = parent
    · subst isParent
      have otherName : node.name ≠ name := by
        rintro rfl
        rw [fresh] at found
        cases found
      rw [findChild, childrenOf_attach_parent shape present, find?_cons_of_neg,
        find_attach_old shape, found]
      simpa [nameOf_attach_new] using otherName
    · rw [findChild, childrenOf_attach_other shape isParent dirOld, find_attach_old shape, found]
  · exact Nat.le_succ _

end

/-- A new leaf with a fresh name keeps sibling names distinct. -/
theorem Distinct.attach (distinct : Distinct tree) (shape : Shape tree)
    (leaf : node.children = []) (fresh : findChild tree parent node.name = none) :
    Distinct (tree.attach parent node) := by
  intro id found allocated
  rcases nodes_attach_cases shape allocated with ⟨rfl, rfl⟩ | ⟨owner, old, less, rfl⟩
  · rw [leaf]
    exact List.Pairwise.nil
  have sameName : ∀ child ∈ owner.children,
      (tree.attach parent node).nameOf child = tree.nameOf child := by
    intro child member
    rcases shape.child id owner old child member with ⟨below, belowFound, _⟩
    exact nameOf_attach_old shape (by simp [belowFound])
  have oldDistinct : owner.children.Pairwise fun first second =>
      (tree.attach parent node).nameOf first ≠ (tree.attach parent node).nameOf second := by
    apply (distinct id owner old).imp_of_mem
    intro first second inFirst inSecond differ
    rwa [sameName first inFirst, sameName second inSecond]
  by_cases isParent : id = parent
  · subst isParent
    simp only [if_true]
    refine pairwise_cons.mpr ⟨?_, oldDistinct⟩
    intro child member
    rw [nameOf_attach_new, sameName child member]
    exact (findChild_eq_none_iff.mp fresh child (by rwa [childrenOf_of_nodes old])).symm
  · simpa only [if_neg isParent] using oldDistinct

end Attach

lemma Distinct.detach (distinct : Distinct tree) (shape : Shape tree) (id : Nat) :
    Distinct (tree.detach id) := by
  intro other left allocated
  rcases nodes_detach_cases allocated with ⟨_, owner, old, rfl⟩
  apply ((distinct other owner old).sublist (children_detach_sublist owner)).imp_of_mem
  have sameName : ∀ child, child ≠ id ∧ child ∈ owner.children →
      (tree.detach id).nameOf child = tree.nameOf child := by
    rintro child ⟨differ, member⟩
    rcases shape.child other owner old child member with ⟨below, belowFound, _⟩
    simp only [Tree.nameOf, Tree.nodes_detach_old belowFound differ, belowFound, map_some]
  intro first second inFirst inSecond differ
  rwa [sameName first ((mem_children_detach shape old).mp inFirst),
    sameName second ((mem_children_detach shape old).mp inSecond)]

@[simp]
lemma nameOf_setFile (tree : Tree) (id other : Nat) (file : File) :
    (tree.setFile id file).nameOf other = tree.nameOf other := by
  simp only [Tree.nameOf, Tree.nodes_setFile, Option.map_map]
  rfl

@[simp]
lemma typeOf_setFile (tree : Tree) (id other : Nat) (file : File) :
    (tree.setFile id file).typeOf other = tree.typeOf other := by
  simp only [Tree.typeOf, Tree.nodes_setFile, Option.map_map]
  rfl

@[simp]
lemma childrenOf_setFile (tree : Tree) (id other : Nat) (file : File) :
    (tree.setFile id file).childrenOf other = tree.childrenOf other := by
  simp only [Tree.childrenOf, Tree.nodes_setFile, Option.map_map]
  rfl

@[simp]
lemma findChild_setFile (tree : Tree) (id dir : Nat) (file : File) (name : List UInt8) :
    findChild (tree.setFile id file) dir name = findChild tree dir name := by
  simp only [findChild, childrenOf_setFile, nameOf_setFile]

@[simp]
lemma resolve_setFile (tree : Tree) (id current : Nat) (file : File) (names : List (List UInt8)) :
    resolve (tree.setFile id file) current names = resolve tree current names := by
  induction names generalizing current with
  | nil => rfl
  | cons name names ih =>
    simp only [resolve, typeOf_setFile, findChild_setFile]
    cases findChild tree current name with
    | none => rfl
    | some child => simp only [ih]

lemma Distinct.setFile (distinct : Distinct tree) (id : Nat) (file : File) :
    Distinct (tree.setFile id file) := by
  intro other left allocated
  rcases nodes_setFile_cases allocated with ⟨owner, old, rfl⟩
  simpa only [nameOf_setFile] using distinct other owner old

lemma isSome_of_typeOf {type : NodeType} (isType : tree.typeOf id = some type) :
    (tree.nodes id).isSome := by
  rcases map_eq_some_iff.mp isType with ⟨node, found, _⟩
  simp [found]

lemma typeOf_attach_new (tree : Tree) (parent : Nat) (node : Node) :
    (tree.attach parent node).typeOf tree.nextId = some node.type := by
  simp [Tree.typeOf, Tree.nodes_attach_new]

@[simp]
lemma findChild_attach_allocNode (tree : Tree) (parent : Nat) (name other : List UInt8)
    (type : NodeType) :
    findChild (tree.attach parent (allocNode name type)) tree.nextId other = none := by
  rw [findChild, childrenOf_of_nodes Tree.nodes_attach_new]
  rfl

/-- A descent that meets only directories: it enters those that exist and creates the others, until
an allocation fails. -/
inductive Descends : Tree → Nat → List (List UInt8) → Tree → Option Nat → Prop
  | here {tree : Tree} {current : Nat} (isDir : tree.typeOf current = some .dir) :
    Descends tree current [] tree (some current)
  | enter {tree after : Tree} {current child : Nat} {name : List UInt8} {names : List (List UInt8)}
      {result : Option Nat} (isDir : tree.typeOf current = some .dir)
      (found : findChild tree current name = some child)
      (below : Descends tree child names after result) :
    Descends tree current (name :: names) after result
  | stuck (tree : Tree) (current : Nat) (names : List (List UInt8)) :
    Descends tree current names tree none
  | make {tree after : Tree} {current : Nat} {name : List UInt8} {names : List (List UInt8)}
      {result : Option Nat} (isDir : tree.typeOf current = some .dir)
      (free : findChild tree current name = none)
      (below : Descends (tree.attach current (allocNode (storedName name) .dir)) tree.nextId names
        after result) :
    Descends tree current (name :: names) after result

lemma descends_descend (budget : Nat) (isDir : tree.typeOf current = some .dir)
    (passes : PassesDirs tree current names) :
    Descends tree current names (descend tree budget current names).tree
      (descend tree budget current names).result := by
  induction names generalizing tree current budget with
  | nil => exact .here isDir
  | cons name names ih =>
    simp only [PassesDirs] at passes
    simp only [descend]
    cases found : findChild tree current name with
    | some child =>
      simp only [found] at passes
      exact .enter isDir found (ih budget passes.1 passes.2)
    | none =>
      cases budget with
      | zero => exact .stuck tree current _
      | succ budget =>
        refine .make isDir found (ih budget (typeOf_attach_new tree current _) ?_)
        cases names with
        | nil => trivial
        | cons name names => simp only [PassesDirs, findChild_attach_allocNode]

namespace Descends

variable {after : Tree} {result : Option Nat} {parent : Nat}

lemma isDir (descends : Descends tree current names after (some parent)) :
    after.typeOf parent = some .dir := by
  generalize ended : some parent = result at descends
  induction descends with
  | here isDir => exact some.inj ended ▸ isDir
  | enter _ _ _ ih => exact ih ended
  | stuck => cases ended
  | make _ _ _ ih => exact ih ended

lemma shape (descends : Descends tree current names after result) (shape : Shape tree)
    (noNul : ∀ name ∈ names, 0 ∉ name) : Shape after := by
  induction descends with
  | here => exact shape
  | enter _ _ _ ih => exact ih shape fun name member => noNul name (mem_cons_of_mem _ member)
  | stuck => exact shape
  | make isDir _ _ ih =>
    exact ih (shape.attach isDir rfl (storable_allocNode (noNul _ mem_cons_self) .dir))
      fun name member => noNul name (mem_cons_of_mem _ member)

/-- A descent with names that fit keeps sibling names distinct and all entries, and leads to its
end. -/
theorem finds (descends : Descends tree current names after result) (shape : Shape tree)
    (distinct : Distinct tree) (storable : ∀ name ∈ names, Storable name) :
    Distinct after ∧ Extends tree after ∧
      ∀ parent, result = some parent → resolve after current names = some parent := by
  induction descends with
  | here => exact ⟨distinct, Extends.refl _, fun _ ended => ended⟩
  | enter isDir found _ ih =>
    obtain ⟨distinctAfter, grown, leads⟩ := ih shape distinct fun name member =>
      storable name (mem_cons_of_mem _ member)
    refine ⟨distinctAfter, grown, fun parent ended => ?_⟩
    simp only [resolve, grown.typeOf isDir, grown.entries _ _ _ found, if_true]
    exact leads parent ended
  | stuck => exact ⟨distinct, Extends.refl _, by simp⟩
  | @make tree after current name names result isDir free _ ih =>
    have short := storable name mem_cons_self
    have present := isSome_of_typeOf isDir
    have entry := findChild_attach_new shape present (allocNode (storedName name) .dir)
    have fresh : findChild tree current (allocNode (storedName name) .dir).name = none := by
      rw [name_allocNode short.1, free]
    rw [name_allocNode short.1] at entry
    obtain ⟨distinctAfter, grown, leads⟩ :=
      ih (shape.attach isDir rfl (storable_allocNode short.2 .dir)) (distinct.attach shape rfl fresh)
        fun name member => storable name (mem_cons_of_mem _ member)
    have linked := (extends_attach shape present fresh).trans grown
    refine ⟨distinctAfter, linked, fun parent ended => ?_⟩
    simp only [resolve, linked.typeOf isDir, grown.entries _ _ _ entry, if_true]
    exact leads parent ended

/-- If the whole path led nowhere, its last name is free in the directory a
descent ends in. -/
theorem free {last : List UInt8} (descends : Descends tree current names after (some parent))
    (missing : resolve tree current (names ++ [last]) = none) :
    findChild after parent last = none := by
  generalize ended : some parent = result at descends
  induction descends with
  | here isDir =>
    cases ended
    rwa [resolve_append_singleton, resolve, bind_some, if_pos isDir] at missing
  | enter isDir found _ ih =>
    simp only [cons_append, resolve, isDir, if_true, found] at missing
    exact ih missing ended
  | stuck => cases ended
  | @make _ _ _ _ names _ _ _ _ ih =>
    refine ih ?_ ended
    cases names <;> simp [resolve]

end Descends

/-- Every component of the path fits a name array. -/
def PathFits (path : List UInt8) : Prop := ∀ name ∈ components path, name.length < vfsMaxName

instance (path : List UInt8) : Decidable (PathFits path) :=
  inferInstanceAs (Decidable (∀ name ∈ components path, name.length < vfsMaxName))

/-- No directory component of the path names a regular file. -/
def AvoidsFiles (tree : Tree) (path : List UInt8) : Prop :=
  PassesDirs tree rootId (components path).dropLast

instance (tree : Tree) (path : List UInt8) : Decidable (AvoidsFiles tree path) :=
  inferInstanceAs (Decidable (PassesDirs tree rootId (components path).dropLast))

lemma Shape.typeOf_root (shape : Shape tree) : tree.typeOf rootId = some .dir := by
  rcases shape.root with ⟨root, found, type, _⟩
  simp [Tree.typeOf, found, type]

/-- What a creation along a path leaves of the tree, and returns. -/
inductive Creates (tree : Tree) (path : List UInt8) (type : NodeType) :
    Tree → Except VfsError Nat → Prop
  | empty (code : VfsError) : Creates tree path type tree (.error code)
  | failed {dirs : List (List UInt8)} {last : List UInt8} {after : Tree} {result : Option Nat}
      (code : VfsError) (parsed : components path = dirs ++ [last])
      (descends : Descends tree rootId dirs after result) :
    Creates tree path type after (.error code)
  | linked {dirs : List (List UInt8)} {last : List UInt8} {after : Tree} {parent : Nat}
      (parsed : components path = dirs ++ [last])
      (descends : Descends tree rootId dirs after (some parent)) :
    Creates tree path type (after.attach parent (allocNode (storedName last) type))
      (.ok after.nextId)

/-- The components of a path that avoids files are none, or directories and a last name. -/
theorem components_split (shape : Shape tree) {path : List UInt8} (budget : Nat)
    (avoids : AvoidsFiles tree path) : components path = [] ∨ ∃ dirs last,
      components path = dirs ++ [last] ∧ Descends tree rootId dirs
        (descend tree budget rootId dirs).tree (descend tree budget rootId dirs).result := by
  rcases eq_nil_or_concat (components path) with noComponents | ⟨dirs, last, parsed⟩
  · exact .inl noComponents
  · rw [concat_eq_append] at parsed
    rw [AvoidsFiles, parsed, dropLast_concat] at avoids
    exact .inr ⟨dirs, last, parsed, descends_descend budget shape.typeOf_root avoids⟩

lemma creates_create (shape : Shape tree) {path : List UInt8} (type : NodeType) (budget : Nat)
    (avoids : AvoidsFiles tree path) : Creates tree path type (create tree path type budget).tree
      (create tree path type budget).result := by
  rcases components_split shape budget avoids with noComponents | ⟨dirs, last, parsed, descends⟩
  · rw [create_of_no_components tree type budget noComponents]
    exact .empty _
  rw [create_eq_createIn tree type budget parsed, createIn]
  generalize descend tree budget rootId dirs = made at descends
  rcases made with ⟨after, left, _ | parent⟩
  · exact .failed _ parsed descends
  · cases left with
    | zero => exact .failed _ parsed descends
    | succ left => exact .linked parsed descends

/-- Creating a node along a path that avoids regular files keeps the shape. -/
theorem Creates.shape {path : List UInt8} {type : NodeType} {after : Tree}
    {result : Except VfsError Nat} (creates : Creates tree path type after result)
    (shape : Shape tree) (noNul : 0 ∉ path) : Shape after := by
  cases creates with
  | empty => exact shape
  | failed _ parsed descends =>
    refine descends.shape shape fun name member => noNul_of_mem_components noNul ?_
    rw [parsed]
    exact mem_append_left _ member
  | linked parsed descends =>
    have noNulNames : ∀ name ∈ components path, 0 ∉ name := fun name member =>
      noNul_of_mem_components noNul member
    rw [parsed] at noNulNames
    exact (descends.shape shape fun name member => noNulNames name (mem_append_left _ member)).attach
      descends.isDir rfl (storable_allocNode (noNulNames _ (by simp)) type)

/-- A node that a call created last, of the given type and without children. -/
structure JustCreated (before after : Tree) (type : NodeType) (id : Nat) : Prop where
  isNew : before.nextId ≤ id
  isLast : after.nextId = id + 1
  type : after.typeOf id = some type
  leaf : after.childrenOf id = []

end CupidOs.NodeTree
