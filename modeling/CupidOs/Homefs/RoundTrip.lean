import CupidOs.Homefs.Visit

/-!
# Loading what was saved

On a tree of the right shape that fits into memory, `homefs_serialize` succeeds
and `homefs_deserialize` accepts its container.  The loaded tree has the same
paths with the same types and file contents.
-/

namespace CupidOs.Homefs

open Bytes List NodeTree Option Vfs
open Ramfs (File)

/-- A buffer of the recorded capacity that holds the whole file. -/
def FileFits (file : File) : Prop := file.data.length = file.capacity ∧ file.size ≤ file.capacity

/-- Every file of the tree fits its buffer. -/
def FilesFit (tree : Tree) : Prop := ∀ id node, tree.nodes id = some node → FileFits node.file

/-- `sizeof(homefs_node_t)`. -/
def nodeStructSize : Nat := 156

/-- The bytes that a node and its buffer occupy. -/
def nodeFootprint (tree : Tree) (id : Nat) : Nat :=
  match tree.nodes id with
  | none => 0
  | some node => nodeStructSize + node.file.capacity

/-- The bytes that a tree occupies. -/
def footprint (tree : Tree) : Nat := ∑ id ∈ Finset.range tree.nextId, nodeFootprint tree id

/-- The nodes and buffers of a tree are disjoint allocations in a 32-bit address
space. -/
def Addressable (tree : Tree) : Prop := footprint tree < 2 ^ 32

instance (tree : Tree) : Decidable (Addressable tree) :=
  inferInstanceAs (Decidable (footprint tree < 2 ^ 32))

/-- The node that is built from the record of `node`. -/
def copyOf (node : Node) : Node :=
  loadedNode node.name node.type (if node.type = .file ∧ 0 < node.file.size then
      ⟨node.file.data.take node.file.size, node.file.size, node.file.size⟩
    else emptyFile)

/-- The bytes of a file; a directory has none. -/
def contents (node : Node) : List UInt8 :=
  if node.type = .file then node.file.data.take node.file.size else []

variable {node : Node} {data rest : List UInt8} {position budget id count : Nat}

lemma length_recordBytes {order : List Nat} (fits : FileFits node.file) :
    (recordBytes order node).length = recordLength node := by
  rcases fits with ⟨lengthEq, within⟩
  simp only [recordBytes, recordLength, diskNodeSize, length_append, length_encodeLE,
    length_take, recordSize]
  split_ifs <;> omega

lemma takeWhile_ne_zero {name : List UInt8} (noNul : 0 ∉ name) :
    name.takeWhile (· != 0) = name := by
  rw [takeWhile_eq_self_iff]
  intro byte member
  simp only [bne_iff_ne]
  rintro rfl
  exact noNul member

lemma name_copyOf (storable : Storable node.name) : (copyOf node).name = node.name := by
  simp only [copyOf, loadedNode, allocNode, takeWhile_ne_zero storable.2,
    storedName_of_short storable.1]

lemma contents_copyOf (node : Node) : contents (copyOf node) = contents node := by
  simp only [contents, copyOf, loadedNode, allocNode]
  by_cases isFile : node.type = .file
  · simp only [isFile, true_and, if_true]
    by_cases empty : 0 < node.file.size
    · simp [empty]
    · have zero : node.file.size = 0 := by omega
      simp [zero, emptyFile]
  · simp [isFile]

lemma readBytes_of_drop {chunk : List UInt8} (small : data.length < 2 ^ 32)
    (inside : position ≤ data.length) (atPosition : data.drop position = chunk ++ rest) :
    readBytes data position chunk.length = .ok chunk := by
  have length := congrArg length atPosition
  rw [length_drop, length_append] at length
  have noWrap : (position + chunk.length) % 2 ^ 32 = position + chunk.length :=
    Nat.mod_eq_of_lt (by omega)
  rw [readBytes, noWrap, if_neg (by omega), if_neg (by omega), atPosition, take_left]

lemma readFile_of_drop (fits : FileFits node.file) (small : data.length < 2 ^ 32)
    (inside : position ≤ data.length)
    (atPosition : data.drop position = node.file.data.take (recordSize node) ++ rest)
    (allocations : 1 ≤ budget) :
    ∃ left, budget ≤ left + 1 ∧ readFile data position (recordSize node) node.type budget =
        .ok ((copyOf node).file, position + recordSize node, left) := by
  by_cases hasData : node.type = .file ∧ 0 < node.file.size
  · have sizeEq : recordSize node = node.file.size := if_pos hasData.1
    have length : (node.file.data.take node.file.size).length = node.file.size := by
      rw [length_take, fits.1]
      exact min_eq_left fits.2
    rw [sizeEq] at atPosition ⊢
    have copied := readBytes_of_drop small inside atPosition
    rw [length] at copied
    rcases budget with _ | budget
    · omega
    · refine ⟨budget, le_rfl, ?_⟩
      simp only [readFile, if_pos hasData, copied, copyOf, loadedNode]
  · have noData : ¬ (node.type = .file ∧ 0 < recordSize node) := by
      rintro ⟨isFile, positive⟩
      exact hasData ⟨isFile, by simpa [recordSize, isFile] using positive⟩
    have sizeZero : recordSize node = 0 := by
      simp only [recordSize]
      split_ifs with isFile
      · by_contra positive
        exact hasData ⟨isFile, Nat.pos_of_ne_zero positive⟩
      · rfl
    refine ⟨budget, Nat.le_succ _, ?_⟩
    unfold readFile
    rw [if_neg noData, sizeZero]
    simp only [copyOf, if_neg hasData, loadedNode, add_zero]

lemma readEntry_of_drop {order : List Nat} (storable : Storable node.name)
    (fits : FileFits node.file) (small : data.length < 2 ^ 32) (inside : position ≤ data.length)
    (parentSmall : parentIndex order node < 2 ^ 32)
    (atPosition : data.drop position = recordBytes order node ++ rest) (allocations : 2 ≤ budget) :
    ∃ left, budget ≤ left + 2 ∧ readEntry data position budget =
        .ok (⟨parentIndex order node, copyOf node⟩, position + recordLength node, left) := by
  have whole := congrArg length atPosition
  rw [length_drop, length_append, length_recordBytes fits] at whole
  simp only [recordLength, diskNodeSize] at whole
  simp only [recordBytes, append_assoc] at atPosition
  have atType := drop_append_length atPosition
  have atSize := drop_append_length atType
  have atLength := drop_append_length atSize
  have atName := drop_append_length atLength
  have atData := drop_append_length atName
  simp only [length_encodeLE, add_assoc, Nat.reduceAdd] at atType atSize atLength atName atData
  have short := storable.1
  simp only [vfsMaxName] at short
  have headRead : readBytes data position 16 = .ok ((data.drop position).take 16) := by
    have noWrap : (position + 16) % 2 ^ 32 = position + 16 := Nat.mod_eq_of_lt (by omega)
    rw [readBytes, noWrap, if_neg (by omega), if_neg (by omega)]
  have parentRead : readLE 4 data position = parentIndex order node := by
    rw [readLE_of_drop atPosition]
    exact Nat.mod_eq_of_lt parentSmall
  have codeRead : readLE 4 data (position + 4) = typeCode node.type := by
    rw [readLE_of_drop atType]
    cases node.type <;> rfl
  have sizeRead : readLE 4 data (position + 8) = recordSize node := by
    rw [readLE_of_drop atSize]
    exact Nat.mod_eq_of_lt (by omega)
  have lengthRead : readLE 4 data (position + 12) = node.name.length := by
    rw [readLE_of_drop atLength]
    exact Nat.mod_eq_of_lt (by omega)
  have nameRead := readBytes_of_drop small (by omega) atName
  rcases budget with _ | budget
  · omega
  rcases readFile_of_drop fits small (by omega) atData (show 1 ≤ budget by omega) with
    ⟨left, leftEnough, fileRead⟩
  refine ⟨left, by omega, ?_⟩
  have typeBack : (if typeCode node.type = 0 then NodeType.file else .dir) = node.type := by
    cases node.type <;> rfl
  have codeSmall : ¬ 1 < typeCode node.type := by
    cases node.type <;> decide
  simp only [readEntry, headRead, parentRead, codeRead, sizeRead, lengthRead, vfsMaxName,
    if_neg (show ¬ 128 ≤ node.name.length by omega), diskNodeSize, nameRead, if_neg codeSmall,
    typeBack, add_assoc, fileRead, recordLength]
  rfl

/-- The node at an index of the listing is a child of `id`. -/
def ChildAt (tree : Tree) (order : List Nat) (id index : Nat) : Prop :=
  ∃ child below, order[index]? = some child ∧ tree.nodes child = some below ∧ below.parent = some id

/-- What a loaded node shares with the node it was saved from. -/
structure CopiedNode (tree : Tree) (order : List Nat) (count id : Nat) (node loaded : Node) :
    Prop where
  name : loaded.name = node.name
  type : loaded.type = node.type
  contents : contents loaded = contents node
  children : ∀ index, index ∈ loaded.children ↔ index < count ∧ ChildAt tree order id index

/-- The store `copy` holds the first `count` nodes of the listing, each at its
index. -/
structure Copies (tree : Tree) (order : List Nat) (count : Nat) (copy : Tree) : Prop where
  next : copy.nextId = count
  copied : ∀ index id node, index < count → order[index]? = some id → tree.nodes id = some node →
    ∃ loaded, copy.nodes index = some loaded ∧ CopiedNode tree order count id node loaded

variable {tree : Tree} {order : List Nat}

lemma Listed.index_unique (listed : Listed tree order) {first second : Nat}
    (firstAt : order[first]? = some id) (secondAt : order[second]? = some id) : first = second := by
  have bound := (List.getElem?_eq_some_iff.mp firstAt).1
  exact (getElem?_inj bound listed.nodup).mp (firstAt.trans secondAt.symm)

lemma toInt32_of_small {value : Nat} (small : value < 2 ^ 31) : toInt32 value = value := by
  unfold toInt32
  apply Int.bmod_eq_of_le <;> omega

/-- The parent index of a record is where the parent stands in the listing. -/
theorem Listed.parentIndex_eq (listed : Listed tree order) {parent above : Nat}
    (parentEq : node.parent = some parent) (aboveAt : order[above]? = some parent)
    (short : order.length ≤ 2 ^ 31) : parentIndex order node = above := by
  rcases List.getElem?_eq_some_iff.mp aboveAt with ⟨bound, atAbove⟩
  have found : order.idxOf? parent = some above := by
    apply idxOf?_eq_some_iff.mpr
    refine ⟨bound, atAbove, ?_⟩
    intro other less same
    have again := listed.index_unique
      (List.getElem?_eq_some_iff.mpr ⟨less.trans bound, same⟩) aboveAt
    omega
  simp only [parentIndex, parentEq, bind_some, found]
  rw [toInt32_of_small (by omega), if_pos (Int.natCast_nonneg above)]

lemma Listed.parentIndex_root (shape : Shape tree) (found : tree.nodes rootId = some node) :
    parentIndex order node = noParent := by
  rcases shape.root with ⟨root, rootFound, _, orphan⟩
  rw [found] at rootFound
  cases rootFound
  simp only [parentIndex, orphan, bind_none]

variable {index : Nat}

lemma ne_rootId_of_parent (shape : Shape tree) {up : Nat} (found : tree.nodes id = some node)
    (parentEq : node.parent = some up) : id ≠ rootId := by
  rintro rfl
  rcases shape.root with ⟨root, rootFound, _, orphan⟩
  rw [found] at rootFound
  cases rootFound
  rw [orphan] at parentEq
  cases parentEq

lemma copies_empty : Copies tree order 0 emptyTree :=
  ⟨rfl, fun _ _ _ impossible => absurd impossible (Nat.not_lt_zero _)⟩

lemma nodesAt_drop (countAt : order[count]? = some id) (found : tree.nodes id = some node) :
    nodesAt tree (order.drop count) = node :: nodesAt tree (order.drop (count + 1)) := by
  rcases List.getElem?_eq_some_iff.mp countAt with ⟨bound, atCount⟩
  rw [drop_eq_getElem_cons bound, atCount]
  simp only [nodesAt, filterMap_cons, found]

section

variable {copy : Tree} (listed : Listed tree order) (shape : Shape tree)
include listed shape

/-- A listed node is no child of a node listed at or behind its own index. -/
theorem Listed.above_lt {above : Nat}
    (aboveAt : order[above]? = some id) (childAt : ChildAt tree order id index) :
    above < index := by
  rcases childAt with ⟨child, below, indexAt, found, up⟩
  rcases listed.earlier index child below indexAt (ne_rootId_of_parent shape found up) found with
    ⟨parent, position, parentEq, positionAt, less⟩
  rw [up] at parentEq
  cases parentEq
  rwa [listed.index_unique aboveAt positionAt]

lemma copiedNode_copyOf (countAt : order[count]? = some id) (found : tree.nodes id = some node)
    (parent : Option Nat) :
    CopiedNode tree order (count + 1) id node { copyOf node with parent := parent } := by
  refine ⟨name_copyOf (shape.named id node found), rfl, contents_copyOf node, ?_⟩
  intro index
  constructor
  · intro member
    cases member
  · rintro ⟨bound, childAt⟩
    have later := listed.above_lt shape countAt childAt
    omega

lemma Copies.install_root (found : tree.nodes rootId = some node)
    (copies : Copies tree order 0 copy) :
    ∃ copy', install copy ⟨parentIndex order node, copyOf node⟩ = .ok copy' ∧
      Copies tree order 1 copy' := by
  refine ⟨plant copy (copyOf node), ?_, ?_, ?_⟩
  · simp only [install, Listed.parentIndex_root shape found, if_true, copies.next]
  · simp only [plant, copies.next]
  · intro index id other bound indexAt otherFound
    have indexZero : index = 0 := by omega
    subst indexZero
    rw [listed.first] at indexAt
    cases indexAt
    rw [found] at otherFound
    cases otherFound
    refine ⟨copyOf node, ?_, copiedNode_copyOf listed shape listed.first found none⟩
    simp only [plant, copies.next, if_true]

/-- A later record is linked below the copy of its parent. -/
theorem Copies.install_child (short : order.length ≤ 2 ^ 31)
    (copies : Copies tree order count copy) (countAt : order[count]? = some id)
    (notRoot : id ≠ rootId) (found : tree.nodes id = some node) :
    ∃ copy', install copy ⟨parentIndex order node, copyOf node⟩ = .ok copy' ∧
      Copies tree order (count + 1) copy' := by
  rcases listed.earlier count id node countAt notRoot found with
    ⟨parent, above, parentEq, aboveAt, less⟩
  rcases shape.listed id node found notRoot with ⟨up, upper, upEq, upFound, member⟩
  rw [parentEq] at upEq
  cases upEq
  rcases copies.copied above parent upper less aboveAt upFound with ⟨loaded, loadedFound, isCopy⟩
  have isDir : copy.typeOf above = some .dir := by
    have type := shape.dirs parent upper upFound (ne_nil_of_mem member)
    simp [Tree.typeOf, loadedFound, isCopy.type, type]
  have aboveSmall := (List.getElem?_eq_some_iff.mp aboveAt).1
  refine ⟨copy.attach above (copyOf node), ?_, ?_, ?_⟩
  · rw [listed.parentIndex_eq parentEq aboveAt short]
    simp only [install, noParent, copies.next]
    rw [if_neg (by omega), if_neg (by omega), if_pos isDir]
  · rw [Tree.nextId_attach, copies.next]
  · intro index other otherNode bound indexAt otherFound
    rcases Nat.lt_or_ge index count with old | new
    · rcases copies.copied index other otherNode old indexAt otherFound with
        ⟨earlier, earlierFound, earlierCopy⟩
      refine ⟨_, Tree.nodes_attach_old earlierFound (by rw [copies.next]; exact old),
        earlierCopy.name, earlierCopy.type, earlierCopy.contents, ?_⟩
      have newChild : ChildAt tree order other count ↔ index = above := by
        constructor
        · rintro ⟨child, below, childAt, belowFound, below_up⟩
          rw [countAt] at childAt
          cases childAt
          rw [found] at belowFound
          cases belowFound
          rw [parentEq] at below_up
          cases below_up
          exact listed.index_unique indexAt aboveAt
        · rintro rfl
          rw [aboveAt] at indexAt
          cases indexAt
          exact ⟨id, node, countAt, found, parentEq⟩
      intro child
      have last : child = count ∧ ChildAt tree order other child ↔
          child = count ∧ index = above := by
        rw [and_congr_right_iff]
        rintro rfl
        exact newChild
      rw [Nat.lt_succ_iff_lt_or_eq, or_and_right, ← earlierCopy.children child, last, copies.next]
      split_ifs with isAbove
      · simp [isAbove, or_comm]
      · simp [isAbove]
    · have indexEq : index = count := by omega
      subst indexEq
      rw [countAt] at indexAt
      cases indexAt
      rw [found] at otherFound
      cases otherFound
      refine ⟨{ copyOf node with parent := some above }, ?_,
        copiedNode_copyOf listed shape countAt found (some above)⟩
      rw [← copies.next]
      exact Tree.nodes_attach_new

lemma Copies.install (short : order.length ≤ 2 ^ 31)
    (copies : Copies tree order count copy) (countAt : order[count]? = some id)
    (found : tree.nodes id = some node) :
    ∃ copy', Homefs.install copy ⟨parentIndex order node, copyOf node⟩ = .ok copy' ∧
      Copies tree order (count + 1) copy' := by
  by_cases isRoot : id = rootId
  · subst isRoot
    have countZero := listed.index_unique countAt listed.first
    subst countZero
    exact copies.install_root listed shape found
  · exact copies.install_child listed shape short countAt isRoot found

/-- The loop over the records installs the rest of the listing. -/
theorem Copies.loadLoop (files : FilesFit tree) (short : order.length ≤ 2 ^ 31)
    (small : data.length < 2 ^ 32) {remaining : Nat}
    (copies : Copies tree order count copy) (rest : count + remaining = order.length)
    (inside : position ≤ data.length) (atPosition : data.drop position =
      (nodesAt tree (order.drop count)).flatMap (recordBytes order))
    (allocations : 2 * remaining ≤ budget) :
    ∃ loaded, Homefs.loadLoop data order.length remaining position budget copy = .ok loaded ∧
      Copies tree order order.length loaded := by
  induction remaining generalizing count position budget copy with
  | zero =>
    have countEq : count = order.length := by omega
    subst countEq
    exact ⟨copy, rfl, copies⟩
  | succ remaining ih =>
    have bound : count < order.length := by omega
    have countAt : order[count]? = some order[count] := getElem?_eq_getElem bound
    rcases isSome_iff_exists.mp (listed.allocated _ (getElem_mem bound)) with ⟨node, found⟩
    have fits := files _ node found
    rw [nodesAt_drop countAt found, flatMap_cons] at atPosition
    have parentSmall : parentIndex order node < 2 ^ 32 := by
      unfold parentIndex
      cases index : node.parent.bind order.idxOf? with
      | none => decide
      | some index =>
        simp only
        split_ifs
        · rcases bind_eq_some_iff.mp index with ⟨parent, _, indexOf⟩
          have indexBound := (idxOf?_eq_some_iff.mp indexOf).1
          omega
        · decide
    rcases readEntry_of_drop (shape.named _ node found) fits small inside parentSmall atPosition
        (show 2 ≤ budget by omega) with ⟨left, leftEnough, entryRead⟩
    rcases copies.install listed shape short countAt found with ⟨next, installed, nextCopies⟩
    have atNext := drop_append_length atPosition
    rw [length_recordBytes fits] at atNext
    have length := congrArg length atPosition
    rw [length_drop, length_append, length_recordBytes fits] at length
    rcases ih nextCopies (by omega) (by omega) atNext (show 2 * remaining ≤ left by omega) with
      ⟨loaded, looped, all⟩
    refine ⟨loaded, ?_, all⟩
    simp only [Homefs.loadLoop, entryRead, copies.next, if_neg (not_le.mpr bound), installed]
    exact looped

/-- The memory of the listed nodes is part of the memory of the tree. -/
theorem Listed.sum_le_footprint :
    ((nodesAt tree order).map fun node => nodeStructSize + node.file.capacity).sum ≤
      footprint tree := by
  have sumEq : ∀ ids : List Nat,
      ((nodesAt tree ids).map fun node => nodeStructSize + node.file.capacity).sum =
        (ids.map (nodeFootprint tree)).sum := by
    intro ids
    induction ids with
    | nil => rfl
    | cons id ids ih =>
      cases found : tree.nodes id with
      | none => simpa [nodesAt, nodeFootprint, found] using ih
      | some node => simpa [nodesAt, nodeFootprint, found] using ih
  rw [sumEq, ← sum_toFinset _ listed.nodup]
  apply Finset.sum_le_sum_of_subset
  intro id member
  rcases isSome_iff_exists.mp (listed.allocated id (mem_toFinset.mp member)) with
    ⟨node, found⟩
  exact Finset.mem_range.mpr (shape.bounded id node found)

end

/-- A record is at least 13 bytes shorter than the memory of its node. -/
theorem sum_recordLength_le (nodes : List Node)
    (sound : ∀ node ∈ nodes, Storable node.name ∧ FileFits node.file) :
    (nodes.map recordLength).sum + 13 * nodes.length ≤
      (nodes.map fun node => nodeStructSize + node.file.capacity).sum := by
  induction nodes with
  | nil => simp
  | cons node nodes ih =>
    have rest := ih fun other member => sound other (mem_cons_of_mem _ member)
    rcases sound node mem_cons_self with ⟨storable, fits⟩
    have short := storable.1
    have within := fits.2
    have sizeLe : recordSize node ≤ node.file.size := by
      unfold recordSize
      split_ifs <;> omega
    simp only [vfsMaxName] at short
    simp only [map_cons, sum_cons, length_cons, recordLength, diskNodeSize,
      nodeStructSize] at rest ⊢
    omega

lemma length_nodesAt (allocated : ∀ id ∈ order, (tree.nodes id).isSome) :
    (nodesAt tree order).length = order.length := by
  induction order with
  | nil => rfl
  | cons id order ih =>
    rcases isSome_iff_exists.mp (allocated id mem_cons_self) with ⟨node, found⟩
    have rest := ih fun other member => allocated other (mem_cons_of_mem _ member)
    simpa [nodesAt, found] using rest

lemma mem_nodesAt (member : node ∈ nodesAt tree order) : ∃ id, tree.nodes id = some node := by
  rcases mem_filterMap.mp member with ⟨id, _, found⟩
  exact ⟨id, found⟩

lemma length_containerBytes (files : FilesFit tree) : (containerBytes tree order).length =
      headerSize + ((nodesAt tree order).map recordLength).sum := by
  have records : ((nodesAt tree order).flatMap (recordBytes order)).length =
      ((nodesAt tree order).map recordLength).sum := by
    rw [length_flatMap]
    congr 1
    apply map_congr_left
    intro node member
    rcases mem_nodesAt member with ⟨id, found⟩
    exact length_recordBytes (files id node found)
  simp only [containerBytes, length_append, length_encodeLE, records, headerSize]
  omega

/-- The container of a tree that fits into memory, and the number of its records,
are small. -/
theorem Listed.small (listed : Listed tree order) (shape : Shape tree) (files : FilesFit tree)
    (addressable : Addressable tree) :
    headerSize + ((nodesAt tree order).map recordLength).sum < 2 ^ 32 ∧ 0 < order.length ∧
      order.length < 2 ^ 30 := by
  have nonempty := (List.getElem?_eq_some_iff.mp listed.first).1
  have inMemory := listed.sum_le_footprint shape
  have lengthEq := length_nodesAt listed.allocated
  have records := sum_recordLength_le (nodesAt tree order) fun node member => by
    rcases mem_nodesAt member with ⟨id, found⟩
    exact ⟨shape.named id node found, files id node found⟩
  have many : 16 * (nodesAt tree order).length ≤ ((nodesAt tree order).map recordLength).sum := by
    have each := card_nsmul_le_sum ((nodesAt tree order).map recordLength) 16 (by
      intro length member
      rcases mem_map.mp member with ⟨node, _, rfl⟩
      simp only [recordLength, diskNodeSize]
      omega)
    simpa [mul_comm] using each
  simp only [Addressable] at addressable
  simp only [headerSize]
  omega

/-- `homefs_serialize` writes the container of a tree that fits into memory, if its two
allocations succeed. -/
theorem homefsSerialize_eq (shape : Shape tree) (files : FilesFit tree)
    (addressable : Addressable tree) (budget : Nat) :
    ∃ order, Listed tree order ∧ (containerBytes tree order).length < 2 ^ 32 ∧
      homefsSerialize tree budget =
        if budget < 2 then .error .enospc else .ok (containerBytes tree order) := by
  rcases visitTree_ends shape with ⟨order, visited, listed⟩
  rcases listed.small shape files addressable with ⟨totalSmall, _, countSmall⟩
  have lengthEq : (containerBytes tree order).length =
      headerSize + ((nodesAt tree order).map recordLength).sum := length_containerBytes files
  refine ⟨order, listed, by rwa [lengthEq], ?_⟩
  have countEq : order.length % 2 ^ 32 = order.length := Nat.mod_eq_of_lt (by omega)
  have tableEq : order.length * 4 % 2 ^ 32 = order.length * 4 := Nat.mod_eq_of_lt (by omega)
  simp only [homefsSerialize, visited]
  rw [countEq, tableEq, Nat.mod_eq_of_lt totalSmall, lengthEq]
  split_ifs
  all_goals first | rfl | omega

/-- `homefs_deserialize` accepts that container and loads a copy of the tree. -/
theorem homefsDeserialize_ok (listed : Listed tree order) (shape : Shape tree)
    (files : FilesFit tree) (addressable : Addressable tree) (container : Buffer)
    (saved : container.val = containerBytes tree order)
    (allocations : 2 * order.length + 1 ≤ budget) :
    ∃ loaded, homefsDeserialize container budget = .ok loaded ∧
      Copies tree order order.length loaded := by
  rcases listed.small shape files addressable with ⟨totalSmall, nonempty, countSmall⟩
  have lengthEq : container.val.length =
      headerSize + ((nodesAt tree order).map recordLength).sum := by
    rw [saved, length_containerBytes files]
  have atMagic : container.val.drop 0 = containerBytes tree order := saved
  rw [containerBytes] at atMagic
  have atVersion := drop_append_length atMagic
  have atCount := drop_append_length atVersion
  have atRecords := drop_append_length atCount
  simp only [length_encodeLE, Nat.reduceAdd] at atVersion atCount atRecords
  have magicRead : readLE 4 container.val 0 = homefsMagic := readLE_of_drop atMagic
  have versionRead : readLE 4 container.val 4 = homefsVersion := readLE_of_drop atVersion
  have countRead : readLE 4 container.val 8 = order.length := by
    rw [readLE_of_drop atCount]
    exact Nat.mod_eq_of_lt (by omega)
  have slotsEq : order.length * 4 % 2 ^ 32 / 4 = order.length := by
    rw [Nat.mod_eq_of_lt (by omega)]
    omega
  rcases budget with _ | budget
  · omega
  have start : Copies tree order 0 emptyTree := copies_empty
  rcases start.loadLoop listed shape files (by omega) container.property (by omega)
      (show headerSize ≤ container.val.length by omega) (by simpa [headerSize] using atRecords)
      (show 2 * order.length ≤ budget by omega) with ⟨loaded, looped, copies⟩
  refine ⟨loaded, ?_, copies⟩
  simp only [homefsDeserialize, magicRead, versionRead, countRead, slotsEq]
  rw [if_neg (by omega), if_neg (by simp only [ne_eq, not_true, false_or]; omega)]
  simp only [looped]

/-- `id` is reached from `current` by the names of `path`. -/
def Reaches (tree : Tree) : Nat → List (List UInt8) → Nat → Prop
  | current, [], id => id = current
  | current, name :: path, id =>
    ∃ child ∈ tree.childrenOf current, tree.nameOf child = some name ∧ Reaches tree child path id

/-- The paths of a tree with their types and contents. -/
def listing (tree : Tree) : Set (List (List UInt8) × NodeType × List UInt8) :=
  { entry | ∃ id node, Reaches tree rootId entry.1 id ∧ tree.nodes id = some node ∧
      node.type = entry.2.1 ∧ contents node = entry.2.2 }

section Copy

variable {copy : Tree} {id : Nat}

section

variable (listed : Listed tree order) (copies : Copies tree order order.length copy)
include listed copies

/-- Whatever is at an index of the copy was saved from the node listed there. -/
theorem Copies.at_index (indexAt : order[index]? = some id) :
    ∃ node loaded, tree.nodes id = some node ∧ copy.nodes index = some loaded ∧
      CopiedNode tree order order.length id node loaded := by
  have bound := (List.getElem?_eq_some_iff.mp indexAt).1
  rcases isSome_iff_exists.mp (listed.allocated id (mem_of_getElem? indexAt)) with
    ⟨node, found⟩
  rcases copies.copied index id node bound indexAt found with ⟨loaded, loadedFound, isCopy⟩
  exact ⟨node, loaded, found, loadedFound, isCopy⟩

/-- The children in the copy stand for the children in the tree. -/
theorem Copies.mem_childrenOf (shape : Shape tree) (indexAt : order[index]? = some id)
    (position : Nat) :
    position ∈ copy.childrenOf index ↔
      ∃ child, order[position]? = some child ∧ child ∈ tree.childrenOf id := by
  rcases copies.at_index listed indexAt with ⟨node, loaded, found, loadedFound, isCopy⟩
  rw [childrenOf_of_nodes loadedFound, isCopy.children, childrenOf_of_nodes found]
  constructor
  · rintro ⟨_, child, below, positionAt, belowFound, up⟩
    refine ⟨child, positionAt, ?_⟩
    rcases shape.listed child below belowFound (ne_rootId_of_parent shape belowFound up) with
      ⟨parent, above, upEq, aboveFound, member⟩
    rw [up] at upEq
    cases upEq
    rw [found] at aboveFound
    cases aboveFound
    exact member
  · rintro ⟨child, positionAt, member⟩
    rcases shape.child id node found child member with ⟨below, belowFound, up, _⟩
    exact ⟨(List.getElem?_eq_some_iff.mp positionAt).1, child, below, positionAt, belowFound, up⟩

lemma Copies.nameOf (indexAt : order[index]? = some id) : copy.nameOf index = tree.nameOf id := by
  rcases copies.at_index listed indexAt with ⟨node, loaded, found, loadedFound, isCopy⟩
  simp only [Tree.nameOf, found, loadedFound, map_some, isCopy.name]

/-- A path leads to corresponding nodes in the tree and in the copy. -/
theorem Copies.reaches_iff (shape : Shape tree) {target : Nat}
    (indexAt : order[index]? = some id) (path : List (List UInt8)) :
    (∃ position, order[position]? = some target ∧ Reaches copy index path position) ↔
      Reaches tree id path target := by
  induction path generalizing index id with
  | nil =>
    simp only [Reaches]
    constructor
    · rintro ⟨position, positionAt, rfl⟩
      rw [indexAt] at positionAt
      exact (some.inj positionAt).symm
    · rintro rfl
      exact ⟨index, indexAt, rfl⟩
  | cons name path ih =>
    simp only [Reaches]
    constructor
    · rintro ⟨position, positionAt, below, isChild, named, reaches⟩
      rcases (copies.mem_childrenOf listed shape indexAt below).mp isChild with
        ⟨child, belowAt, member⟩
      refine ⟨child, member, ?_, (ih belowAt).mp ⟨position, positionAt, reaches⟩⟩
      rw [← copies.nameOf listed belowAt, named]
    · rintro ⟨child, member, named, reaches⟩
      have inOrder := listed.closed id (mem_of_getElem? indexAt) child member
      rcases getElem?_of_mem inOrder with ⟨below, belowAt⟩
      rcases (ih belowAt).mpr reaches with ⟨position, positionAt, reachesCopy⟩
      refine ⟨position, positionAt, below, ?_, ?_, reachesCopy⟩
      · exact (copies.mem_childrenOf listed shape indexAt below).mpr ⟨child, belowAt, member⟩
      · rw [copies.nameOf listed belowAt, named]

lemma Copies.reaches_index (shape : Shape tree) {position : Nat}
    (indexAt : order[index]? = some id) {path : List (List UInt8)}
    (reaches : Reaches copy index path position) : ∃ target, order[position]? = some target := by
  induction path generalizing index id with
  | nil =>
    cases reaches
    exact ⟨id, indexAt⟩
  | cons name path ih =>
    rcases reaches with ⟨below, isChild, _, reachesBelow⟩
    rcases (copies.mem_childrenOf listed shape indexAt below).mp isChild with ⟨child, belowAt, _⟩
    exact ih belowAt reachesBelow

/-- The copy has the paths, types and contents of the tree. -/
theorem Copies.listing_eq (shape : Shape tree) : listing copy = listing tree := by
  ext ⟨path, type, bytes⟩
  simp only [listing, Set.mem_ofPred_eq]
  constructor
  · rintro ⟨position, loaded, reaches, loadedFound, typeEq, contentsEq⟩
    rcases copies.reaches_index listed shape listed.first reaches with ⟨target, positionAt⟩
    rcases copies.at_index listed positionAt with ⟨node, again, found, againFound, isCopy⟩
    rw [loadedFound] at againFound
    cases againFound
    refine ⟨target, node, ?_, found, by rw [← isCopy.type, typeEq],
      by rw [← isCopy.contents, contentsEq]⟩
    exact (copies.reaches_iff listed shape listed.first path).mp ⟨position, positionAt, reaches⟩
  · rintro ⟨target, node, reaches, found, typeEq, contentsEq⟩
    rcases (copies.reaches_iff listed shape listed.first path).mpr reaches with
      ⟨position, positionAt, reachesCopy⟩
    rcases copies.at_index listed positionAt with ⟨again, loaded, againFound, loadedFound, isCopy⟩
    rw [found] at againFound
    cases againFound
    exact ⟨position, loaded, reachesCopy, loadedFound, by rw [isCopy.type, typeEq],
      by rw [isCopy.contents, contentsEq]⟩

end

end Copy

end CupidOs.Homefs
