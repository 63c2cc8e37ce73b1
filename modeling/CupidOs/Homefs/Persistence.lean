import CupidOs.Homefs.RoundTrip
import CupidOs.Homefs.TreeRuns

/-!
# Every reachable tree can be saved and loaded

The tree keeps its shape and its files keep fitting their buffers in every run that creates
nothing through a regular file, uses handles only while their nodes exist and writes only below 4
GiB. The container written from such a tree loads back to the same files.
-/

namespace CupidOs.Homefs

open Bytes List NodeTree Transition Vfs
open Ramfs (File)

/-- The node of a handle, and the node its directory cursor points to, exist. -/
def HandleLive (fs : Fs) (index : Nat) : Prop :=
  ∀ handle, openHandle fs.handles index = some handle → (fs.tree.nodes handle.node).isSome ∧
      ∀ cursor, handle.readdirCur = some cursor → (fs.tree.nodes cursor).isSome

instance (fs : Fs) (index : Nat) : Decidable (HandleLive fs index) :=
  match found : openHandle fs.handles index with
  | none => .isTrue (by simp [HandleLive, found])
  | some handle =>
    decidable_of_iff ((fs.tree.nodes handle.node).isSome ∧
      ∀ cursor ∈ handle.readdirCur.toList, (fs.tree.nodes cursor).isSome)
      (by simp [HandleLive, found])

/-- A write through a handle ends below 4 GiB. -/
def WriteFits (fs : Fs) (index : Nat) (bytes : Buffer) : Prop :=
  ∀ handle, openHandle fs.handles index = some handle → handle.position + bytes.val.length < 2 ^ 32

instance (fs : Fs) (index : Nat) (bytes : Buffer) : Decidable (WriteFits fs index bytes) :=
  match found : openHandle fs.handles index with
  | none => .isTrue (by simp [WriteFits, found])
  | some handle =>
    decidable_of_iff (handle.position + bytes.val.length < 2 ^ 32) (by simp [WriteFits, found])

/-- Nothing is created through a regular file, handles are used only while their nodes exist, and
writes end below 4 GiB. -/
def CallPersists (fs : Fs) : FsCall → Prop
  | .openFile path flags _ => flags.creat = true → AvoidsFiles fs.tree path.val
  | .mkdir path _ _ => AvoidsFiles fs.tree path.val
  | .read index _ => HandleLive fs index
  | .write index bytes _ => HandleLive fs index ∧ WriteFits fs index bytes
  | .seek index _ _ => HandleLive fs index
  | .readdir index => HandleLive fs index
  | _ => True

instance (fs : Fs) (call : FsCall) : Decidable (CallPersists fs call) := by
  cases call <;> dsimp only [CallPersists] <;> infer_instance

/-- A tree that can be saved: the right shape, and files that fit their buffers. -/
structure Saveable (tree : Tree) : Prop where
  shape : Shape tree
  files : FilesFit tree

lemma fileFits_empty : FileFits emptyFile :=
  ⟨rfl, le_rfl⟩

lemma saveable_mounted : Saveable mounted := by
  refine ⟨shape_mounted, ?_⟩
  intro id node found
  simp only [mounted] at found
  split_ifs at found
  cases found
  exact fileFits_empty

variable {tree : Tree} {file : File} {fs : Fs}

lemma FilesFit.attach (files : FilesFit tree) (parent : Nat) {node : Node}
    (fits : FileFits node.file) : FilesFit (tree.attach parent node) := by
  intro id found allocated
  simp only [Tree.attach] at allocated
  split_ifs at allocated
  · cases allocated
    exact fits
  · rcases Option.map_eq_some_iff.mp allocated with ⟨owner, old, rfl⟩
    exact files id owner old
  · exact files id found allocated

lemma FilesFit.setFile (files : FilesFit tree) (id : Nat) (fits : FileFits file) :
    FilesFit (tree.setFile id file) := by
  intro other found allocated
  rcases nodes_setFile_cases allocated with ⟨owner, old, rfl⟩
  simp only
  split_ifs
  · exact fits
  · exact files other owner old

lemma FilesFit.detach (files : FilesFit tree) (id : Nat) : FilesFit (tree.detach id) := by
  intro other found allocated
  rcases nodes_detach_cases allocated with ⟨_, owner, old, rfl⟩
  exact files other owner old

lemma Saveable.setFile (saveable : Saveable tree) (id : Nat) (fits : FileFits file) :
    Saveable (tree.setFile id file) :=
  ⟨saveable.shape.setFile id file, saveable.files.setFile id fits⟩

lemma Saveable.truncateNode (saveable : Saveable tree) (id : Nat) (trunc : Bool) :
    Saveable (NodeTree.truncateNode tree id trunc) := by
  rcases truncateNode_eq tree id trunc with same | cleared
  · rwa [same]
  · rw [cleared]
    exact saveable.setFile id fileFits_empty

lemma FilesFit.descends {current : Nat} {names : List (List UInt8)} {after : Tree}
    {result : Option Nat} (files : FilesFit tree)
    (descends : Descends tree current names after result) : FilesFit after := by
  induction descends with
  | here => exact files
  | enter _ _ _ ih => exact ih files
  | stuck => exact files
  | make _ _ _ ih => exact ih (files.attach _ fileFits_empty)

lemma Saveable.create (saveable : Saveable tree) {path : CString} (type : NodeType) (budget : Nat)
    (avoids : AvoidsFiles tree path.val) :
    Saveable (NodeTree.create tree path.val type budget).tree := by
  have creates := creates_create saveable.shape type budget avoids
  refine ⟨creates.shape saveable.shape path.property, ?_⟩
  generalize NodeTree.create tree path.val type budget = created at creates
  rcases created with ⟨after, _, result⟩
  cases creates with
  | empty => exact saveable.files
  | failed _ _ descends => exact saveable.files.descends descends
  | linked _ descends => exact (saveable.files.descends descends).attach _ fileFits_empty

lemma Saveable.removeNode {after : Tree} (saveable : Saveable tree) {path : List UInt8}
    (removed : NodeTree.removeNode tree path = .ok after) : Saveable after := by
  rcases removeNode_cases saveable.shape removed with rfl | ⟨id, node, found, leaf, notRoot, rfl⟩
  · exact saveable
  · exact ⟨saveable.shape.detach found leaf notRoot, saveable.files.detach id⟩

lemma le_of_growLoop {fuel capacity need reached : Nat}
    (grown : growLoop fuel capacity need = some reached) : need ≤ reached := by
  induction fuel generalizing capacity with
  | zero => cases grown
  | succ fuel ih =>
    simp only [growLoop] at grown
    split_ifs at grown with less
    · exact ih grown
    · cases grown
      exact Nat.le_of_not_lt less

lemma homefsNodeEnsureCapacity_ok {grown : File} {need : Nat} {allocOk overrun : Bool}
    (fits : FileFits file)
    (ensured : homefsNodeEnsureCapacity file need allocOk = .ok grown overrun) :
    FileFits grown ∧ need ≤ grown.capacity ∧ overrun = false := by
  rcases fits with ⟨lengthEq, within⟩
  unfold homefsNodeEnsureCapacity at ensured
  by_cases enough : need ≤ file.capacity
  · rw [if_pos enough] at ensured
    cases ensured
    exact ⟨⟨lengthEq, within⟩, enough, rfl⟩
  rw [if_neg enough] at ensured
  cases loop : growLoop 33 (if file.capacity = 0 then 256 else file.capacity) need with
  | none => simp [loop] at ensured
  | some capacity =>
    have reached := le_of_growLoop loop
    cases allocOk with
    | false => simp [loop] at ensured
    | true =>
      simp only [loop, if_true, Capacity.ok.injEq] at ensured
      rcases ensured with ⟨rfl, rfl⟩
      refine ⟨⟨?_, ?_⟩, reached, ?_⟩
      · simp only [Ramfs.reallocate, length_append, length_take, length_replicate]
        omega
      · simp only [Ramfs.reallocate]
        omega
      · simp only [Ramfs.reallocate, Ramfs.leaves, Bool.and_eq_false_iff, decide_eq_false_iff_not]
        omega

/-- A write below 4 GiB stays inside the buffer and leaves a file that fits. -/
theorem homefsWrite_ok {written : File} {position stop : Nat} {bytes : Buffer}
    {allocOk overrun : Bool} (fits : FileFits file) (below : position + bytes.val.length < 2 ^ 32)
    (wrote : homefsWrite file position bytes allocOk = .ok written stop overrun) :
    FileFits written ∧ overrun = false := by
  have noWrap : (position + bytes.val.length) % 2 ^ 32 = position + bytes.val.length :=
    Nat.mod_eq_of_lt below
  simp only [homefsWrite, noWrap] at wrote
  cases ensured : homefsNodeEnsureCapacity file (position + bytes.val.length) allocOk with
  | enospc => simp [ensured] at wrote
  | diverges => simp [ensured] at wrote
  | ok grown grownOverrun =>
    rcases homefsNodeEnsureCapacity_ok fits ensured with ⟨⟨lengthEq, within⟩, room, rfl⟩
    simp only [ensured, Bool.false_or, Written.ok.injEq] at wrote
    rcases wrote with ⟨rfl, rfl, rfl⟩
    refine ⟨⟨?_, ?_⟩, ?_⟩
    · simp only [Ramfs.storeAt, Ramfs.store, length_append, length_take, length_drop]
      omega
    · simp only [Ramfs.storeAt]
      split_ifs <;> omega
    · simp only [Ramfs.storeAt, Ramfs.leaves, Bool.and_eq_false_iff, decide_eq_false_iff_not]
      omega

/-- The tree after a call fits into memory, as it does when the allocations of the
call succeed. -/
def InMemory (fs : Fs) (call : FsCall) : Prop := Addressable (fsStep fs call).1.tree

instance (fs : Fs) (call : FsCall) : Decidable (InMemory fs call) :=
  inferInstanceAs (Decidable (Addressable (fsStep fs call).1.tree))

/-- A mount that can be saved and has not gone through freed or foreign memory. -/
structure Healthy (fs : Fs) : Prop where
  saveable : Saveable fs.tree
  addressable : Addressable fs.tree
  intact : fs.fault = false

/-- Saving a healthy tree keeps it and stores nothing outside its buffers. -/
theorem Healthy.flush (healthy : Healthy fs) (flush : Flush) :
    Saveable (homefsFlush fs flush).1.tree ∧ (homefsFlush fs flush).1.fault = false := by
  rcases healthy with ⟨saveable, addressable, intact⟩
  rw [tree_homefsFlush]
  refine ⟨saveable, ?_⟩
  unfold homefsFlush
  split_ifs
  · rcases homefsSerialize_eq saveable.shape saveable.files addressable flush.budget with
      ⟨order, -, -, serialized⟩
    rw [serialized]
    by_cases few : flush.budget < 2
    · rw [if_pos few]
      exact intact
    · rw [if_neg few]
      simp only
      split_ifs <;> exact intact
  · exact intact

lemma Healthy.change (healthy : Healthy fs) (saveable : Saveable tree)
    (addressable : Addressable tree) : Healthy (homefsMarkDirty { fs with tree := tree }) := by
  constructor
  · rwa [tree_homefsMarkDirty]
  · rwa [tree_homefsMarkDirty]
  · rw [fault_homefsMarkDirty]
    exact healthy.intact

/-- An operation on a handle whose node exists does not fault by itself. -/
theorem healthy_onHandle (healthy : Healthy fs) {index : Nat} (live : HandleLive fs index)
    {operation : Handle → Node → Fs × FsReply}
    (keeps : ∀ handle node, openHandle fs.handles index = some handle →
      fs.tree.nodes handle.node = some node →
        Saveable (operation handle node).1.tree ∧ (operation handle node).1.fault = false) :
    Saveable (onHandle fs index operation).1.tree ∧
      (onHandle fs index operation).1.fault = false := by
  unfold onHandle
  cases opened : openHandle fs.handles index with
  | none => exact ⟨healthy.saveable, healthy.intact⟩
  | some handle =>
    rcases Option.isSome_iff_exists.mp (live handle opened).1 with ⟨node, found⟩
    simp only [found]
    exact keeps handle node opened found

lemma Saveable.opens {path : CString} {flags : OpenFlags} {budget : Nat} {after : Tree}
    {result : Except VfsError Handle} (saveable : Saveable tree)
    (opens : Opens tree path flags budget after result)
    (avoids : flags.creat = true → AvoidsFiles tree path.val) : Saveable after := by
  cases opens with
  | found => exact saveable.truncateNode _ flags.trunc
  | absent => exact saveable
  | failed _ creat => exact saveable.create .file budget (avoids creat)
  | made _ creat => exact (saveable.create .file budget (avoids creat)).truncateNode _ flags.trunc

/-- A call that meets the condition leaves a tree that can be saved, and stays inside its memory. -/
theorem Healthy.fsCall (healthy : Healthy fs) {call : FsCall} (persists : CallPersists fs call)
    (inMemory : Addressable (Homefs.fsCall fs call).1.tree) :
    Saveable (Homefs.fsCall fs call).1.tree ∧ (Homefs.fsCall fs call).1.fault = false := by
  have kept : Saveable fs.tree ∧ fs.fault = false := ⟨healthy.saveable, healthy.intact⟩
  cases call with
  | openFile path flags budget =>
    obtain ⟨opens, intact⟩ := opens_homefsOpen fs path flags budget
    have opened := healthy.saveable.opens opens persists
    rw [healthy.intact] at intact
    simp only [Homefs.fsCall]
    rcases result : homefsOpen fs path flags budget with ⟨after, code | handle⟩
    · rw [result] at opened intact
      exact ⟨opened, intact⟩
    · rw [result] at opened intact
      exact ⟨opened, intact⟩
  | close index flush =>
    simp only [Homefs.fsCall, homefsClose]
    cases openHandle fs.handles index with
    | none => exact kept
    | some handle =>
      simp only
      split_ifs
      · exact healthy.flush flush
      · exact kept
  | read index count =>
    apply healthy_onHandle healthy persists
    intro handle node opened found
    split_ifs
    · exact kept
    · exact kept
  | write index bytes allocOk =>
    apply healthy_onHandle healthy persists.1
    intro handle node opened found
    split_ifs
    · exact kept
    · cases wrote : homefsWrite node.file handle.position bytes allocOk with
      | enospc => exact kept
      | diverges => exact kept
      | ok file position overrun =>
        rcases homefsWrite_ok (healthy.saveable.files _ node found)
          (persists.2 handle opened) wrote with ⟨fits, rfl⟩
        simp only [tree_homefsMarkDirty, fault_homefsMarkDirty, setHandle, Bool.or_false]
        exact ⟨healthy.saveable.setFile handle.node fits, healthy.intact⟩
  | seek index offset whence =>
    apply healthy_onHandle healthy persists
    intro handle node opened found
    cases homefsSeek node.file handle.position offset whence with
    | none => exact kept
    | some position => exact kept
  | stat path => exact kept
  | readdir index =>
    apply healthy_onHandle healthy persists
    intro handle node opened found
    have live := (persists handle opened).2
    have read : ∃ reply cursor, readdirHandle fs.tree handle = some (reply, cursor) := by
      simp only [readdirHandle, found]
      cases node.type with
      | file => exact ⟨_, _, rfl⟩
      | dir =>
        cases atCursor : handle.readdirCur with
        | none => exact ⟨_, _, rfl⟩
        | some cursor =>
          rcases Option.isSome_iff_exists.mp (live cursor atCursor) with ⟨child, childFound⟩
          simp only [childFound]
          exact ⟨_, _, rfl⟩
    rcases read with ⟨reply, cursor, read⟩
    simp only [read]
    exact kept
  | mkdir path budget flush =>
    have made : Saveable (create fs.tree path.val .dir budget).tree :=
      healthy.saveable.create .dir budget persists
    simp only [Homefs.fsCall, homefsMkdirOp] at inMemory ⊢
    cases found : homefsLookup fs path with
    | some id => exact kept
    | none =>
      simp only [found] at inMemory ⊢
      cases created : (create fs.tree path.val .dir budget).result with
      | error code => exact ⟨made, healthy.intact⟩
      | ok id =>
        rw [created] at inMemory
        rw [tree_homefsFlush, tree_homefsMarkDirty] at inMemory
        exact (healthy.change made inMemory).flush flush
  | unlink path flush =>
    simp only [Homefs.fsCall, homefsUnlinkOp] at inMemory ⊢
    cases removed : NodeTree.removeNode fs.tree path.val with
    | error code => exact kept
    | ok after =>
      simp only [removed, tree_homefsFlush, tree_homefsMarkDirty] at inMemory
      exact (healthy.change (healthy.saveable.removeNode removed) inMemory).flush flush
  | sync flush => exact healthy.flush flush
  | seedBegin => exact kept
  | seedEnd => exact kept

lemma Healthy.fsStep (healthy : Healthy fs) {call : FsCall} (persists : CallPersists fs call)
    (inMemory : InMemory fs call) : Healthy (Homefs.fsStep fs call).1 := by
  unfold InMemory at inMemory
  unfold Homefs.fsStep at inMemory ⊢
  split_ifs at inMemory ⊢
  · exact healthy
  · rcases healthy.fsCall persists inMemory with ⟨saveable, intact⟩
    exact ⟨saveable, inMemory, intact⟩

lemma healthy_homefsMount : Healthy homefsMount :=
  ⟨saveable_mounted, by decide +kernel, rfl⟩

/-- Saving the tree and loading the container gives the same paths, types and
contents. -/
def RoundTrips (tree : Tree) (saveBudget loadBudget : Nat) : Prop :=
  ∃ (container : Buffer) (loaded : Tree), homefsSerialize tree saveBudget = .ok container.val ∧
    homefsDeserialize container loadBudget = .ok loaded ∧ listing loaded = listing tree

/-- In every run from an empty root whose allocations succeed, that creates nothing
through a regular file, uses handles only while their nodes exist and writes only
below 4 GiB, the tree reached loads back from its container. -/
theorem homefs_container_round_trips {calls : List FsCall}
    (persists : Machine.Along fsStep CallPersists homefsMount calls)
    (inMemory : Machine.Along fsStep InMemory homefsMount calls) {saveBudget loadBudget : Nat}
    (saveAllocations : 2 ≤ saveBudget)
    (loadAllocations : 2 * (Machine.run fsStep homefsMount calls).tree.nextId + 1 ≤ loadBudget) :
    (Machine.run fsStep homefsMount calls).fault = false ∧
      RoundTrips (Machine.run fsStep homefsMount calls).tree saveBudget loadBudget := by
  have healthy : Healthy (Machine.run fsStep homefsMount calls) := by
    apply Machine.run_invariant (G := fun fs call => CallPersists fs call ∧ InMemory fs call)
    · exact fun fs call healthy both => healthy.fsStep both.1 both.2
    · exact healthy_homefsMount
    · exact Machine.along_and.mpr ⟨persists, inMemory⟩
  refine ⟨healthy.intact, ?_⟩
  have shape := healthy.saveable.shape
  have files := healthy.saveable.files
  rcases homefsSerialize_eq shape files healthy.addressable saveBudget with
    ⟨order, listed, small, saved⟩
  rw [if_neg (Nat.not_lt.mpr saveAllocations)] at saved
  have bound := length_le_nextId shape listed.nodup listed.allocated
  rcases homefsDeserialize_ok listed shape files healthy.addressable ⟨_, small⟩ rfl
      (show 2 * order.length + 1 ≤ loadBudget by omega) with ⟨loaded, deserialized, copies⟩
  exact ⟨⟨_, small⟩, loaded, saved, deserialized, copies.listing_eq listed shape⟩

/-- Make `/a`, create `/a/b`, write two bytes to it and close it. -/
theorem homefs_container_round_trips_nested_file : RoundTrips (Machine.run fsStep homefsMount
      [.mkdir pathA 1 ⟨2, 45⟩, .openFile pathAB { creat := true, trunc := true } 2,
        .write 0 ⟨[1, 2], by decide⟩ true, .close 0 ⟨2, 64⟩]).tree 2 9 :=
  (homefs_container_round_trips (by decide +kernel) (by decide +kernel) (by decide)
    (by decide +kernel)).2

/-- Create the file `/a`, then `/a/b` through it. -/
def throughFile : List FsCall :=
  [.openFile pathA { creat := true } 2, .openFile pathAB { creat := true } 2]

/-- The container of that tree. -/
def throughFileContainer : Buffer :=
  ⟨containerBytes (Machine.run fsStep homefsMount throughFile).tree [0, 1, 2], by decide +kernel⟩

/-- The third record names a regular file as its parent, so the whole container is
rejected with `VFS_EIO`. -/
theorem homefs_child_of_file_is_rejected :
    ¬ RoundTrips (Machine.run fsStep homefsMount throughFile).tree 2 100 := by
  rintro ⟨container, loaded, saved, deserialized, _⟩
  have serialized : homefsSerialize (Machine.run fsStep homefsMount throughFile).tree 2 =
      .ok throughFileContainer.val := by decide +kernel
  have rejected : homefsDeserialize throughFileContainer 100 = .error .eio := by rfl
  rw [serialized] at saved
  have same : container = throughFileContainer := Subtype.ext (Serialized.ok.inj saved).symm
  rw [same, rejected] at deserialized
  cases deserialized

end CupidOs.Homefs
