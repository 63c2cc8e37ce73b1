import CupidOs.Homefs.Core
import CupidOs.Ramfs.TreeRuns

/-!
# Runs of path operations on a homefs mount

homefs builds its tree with the loops of ramfs; flushes of the container do not
touch the tree.  The last part of the file states the result for both file
systems.
-/

namespace CupidOs.Homefs

open NodeTree Transition Vfs

variable (fs : Fs)

/-- The call is a path operation, and every creation fits. -/
def PathCallFits : FsCall → Prop
  | .openFile path flags _ => flags.creat = true → CreationFits fs.tree path
  | .mkdir path _ _ => CreationFits fs.tree path
  | .unlink _ _ => True
  | .stat _ => True
  | .close _ _ => True
  | .sync _ => True
  | .seedBegin => True
  | .seedEnd => True
  | _ => False

instance (fs : Fs) (call : FsCall) : Decidable (PathCallFits fs call) :=
  match call with
  | .openFile .. => inferInstanceAs (Decidable (_ → _))
  | .mkdir .. => inferInstanceAs (Decidable (CreationFits _ _))
  | .unlink .. | .stat .. | .close .. | .sync .. | .seedBegin | .seedEnd => .isTrue trivial
  | .read .. | .write .. | .seek .. | .readdir .. => .isFalse id

/-- After a successful creation its path leads to the new node. -/
def CreationFound (call : FsCall) : Prop :=
  match call with
  | .openFile path _ _ =>
    homefsLookup fs path = none → (∃ index, (fsStep fs call).2 = .handle index) →
      LeadsToNew fs.tree (fsStep fs call).1.tree path .file
  | .mkdir path _ _ =>
    (fsStep fs call).2 = .ok → LeadsToNew fs.tree (fsStep fs call).1.tree path .dir
  | _ => True

@[simp]
lemma tree_homefsMarkDirty : (homefsMarkDirty fs).tree = fs.tree := by
  unfold homefsMarkDirty
  split_ifs <;> rfl

@[simp]
lemma tree_homefsFlush (flush : Flush) : (homefsFlush fs flush).1.tree = fs.tree := by
  unfold homefsFlush
  split_ifs
  · cases homefsSerialize fs.tree flush.budget with
    | ok bytes =>
      simp only
      split_ifs <;> rfl
    | _ => rfl
  · rfl

@[simp]
lemma tree_homefsOpenNode (id : Nat) (flags : OpenFlags) (budget : Nat) :
    (homefsOpenNode fs id flags budget).1.tree = truncateNode fs.tree id flags.trunc := by
  unfold homefsOpenNode
  simp only
  split_ifs <;> simp [openNode]

@[simp]
lemma fault_homefsMarkDirty : (homefsMarkDirty fs).fault = fs.fault := by
  unfold homefsMarkDirty
  split_ifs <;> rfl

@[simp]
lemma fault_homefsOpenNode (id : Nat) (flags : OpenFlags) (budget : Nat) :
    (homefsOpenNode fs id flags budget).1.fault = fs.fault := by
  unfold homefsOpenNode
  simp only
  split_ifs <;> simp

/-- Opening does to the tree what it does on ramfs, and goes through no freed node. -/
theorem opens_homefsOpen (path : CString) (flags : OpenFlags) (budget : Nat) :
    Opens fs.tree path flags budget (homefsOpen fs path flags budget).1.tree
        (homefsOpen fs path flags budget).2 ∧
      (homefsOpen fs path flags budget).1.fault = fs.fault := by
  unfold homefsOpen homefsLookup
  cases found : lookup fs.tree path.val with
  | some id =>
    simp only [tree_homefsOpenNode, fault_homefsOpenNode, and_true]
    exact .found _ found
  | none =>
    simp only
    split_ifs with creat
    · cases made : (create fs.tree path.val .file budget).result with
      | error code => exact ⟨.failed code creat found, rfl⟩
      | ok id =>
        simp only [tree_homefsOpenNode, tree_homefsMarkDirty, fault_homefsOpenNode,
          fault_homefsMarkDirty, and_true]
        exact .made _ creat found made
    · exact ⟨.absent, rfl⟩

/-- A path operation whose creations fit keeps the tree sound, and a created path leads to its
node. -/
theorem sound_fsStep {fs : Fs} (sound : Sound fs.tree) {call : FsCall}
    (fits : PathCallFits fs call) : Sound (fsStep fs call).1.tree ∧ CreationFound fs call := by
  unfold CreationFound fsStep
  split_ifs
  · exact ⟨sound, by cases call <;> simp⟩
  · cases call with
    | openFile path flags budget =>
      have opens := (opens_homefsOpen fs path flags budget).1
      have opened := opens.sound sound fits
      simp only [fsCall]
      rcases result : homefsOpen fs path flags budget with ⟨after, code | handle⟩
      · rw [result] at opened
        exact ⟨opened, by simp⟩
      · rw [result] at opens opened
        exact ⟨opened, fun missing _ => opens.leads sound fits missing⟩
    | close index flush =>
      simp only [fsCall, homefsClose]
      cases openHandle fs.handles index with
      | none => exact ⟨sound, trivial⟩
      | some handle =>
        simp only
        split_ifs <;> simpa using sound
    | read index count => exact fits.elim
    | write index bytes allocOk => exact fits.elim
    | seek index offset whence => exact fits.elim
    | stat path => exact ⟨sound, trivial⟩
    | readdir index => exact fits.elim
    | mkdir path budget flush =>
      simp only [fsCall, homefsMkdirOp, homefsLookup]
      cases found : lookup fs.tree path.val with
      | some id => exact ⟨sound, nofun⟩
      | none =>
        have made := sound.create fits .dir budget found
        cases created : (create fs.tree path.val .dir budget).result with
        | error code => exact ⟨made.1, nofun⟩
        | ok id =>
          simp only [tree_homefsFlush, tree_homefsMarkDirty]
          exact ⟨made.1, fun _ => made.2 id created⟩
    | unlink path flush =>
      simp only [fsCall, homefsUnlinkOp]
      cases removed : removeNode fs.tree path.val with
      | error code => exact ⟨sound, trivial⟩
      | ok after => simpa using sound.removeNode removed
    | sync flush => simpa [fsCall] using sound
    | seedBegin => exact ⟨sound, trivial⟩
    | seedEnd => exact ⟨sound, trivial⟩

/-- Only directories have children. -/
def OnlyDirsHaveChildren (tree : Tree) : Prop :=
  ∀ id node, tree.nodes id = some node → node.children ≠ [] → node.type = .dir

/-- Whole runs, on either file system. -/
theorem kept_of_step {σ α ρ : Type} {machine : Machine σ α ρ} {tree : σ → Tree}
    {fits found : σ → α → Prop} {state : σ} {calls : List α}
    (step : ∀ state call, Sound (tree state) → fits state call →
      Sound (tree (machine state call).1) ∧ found state call)
    (sound : Sound (tree state)) (along : machine.Along fits state calls) :
    OnlyDirsHaveChildren (tree (machine.run state calls)) ∧
      Distinct (tree (machine.run state calls)) ∧ machine.Along found state calls := by
  have preserved := fun state call kept fit => (step state call kept fit).1
  have reached := Machine.run_invariant (I := fun state => Sound (tree state)) preserved sound along
  refine ⟨reached.shape.dirs, reached.distinct, ?_⟩
  exact Machine.along_of_invariant (I := fun state => Sound (tree state)) preserved
    (fun state call kept fit => (step state call kept fit).2) sound along

/-- In every run of path operations on a ramfs or homefs mount whose creations
all fit, only directories have children and sibling names are distinct in the
tree reached, and each path that was created led to its new node. -/
theorem path_operations_keep_tree {ramfsCalls : List Ramfs.FsCall} {homefsCalls : List FsCall}
    (ramfsFits : Machine.Along Ramfs.fsStep Ramfs.PathCallFits Ramfs.ramfsMount ramfsCalls)
    (homefsFits : Machine.Along fsStep PathCallFits homefsMount homefsCalls) :
    (OnlyDirsHaveChildren (Machine.run Ramfs.fsStep Ramfs.ramfsMount ramfsCalls).tree ∧
        Distinct (Machine.run Ramfs.fsStep Ramfs.ramfsMount ramfsCalls).tree ∧
          Machine.Along Ramfs.fsStep Ramfs.CreationFound Ramfs.ramfsMount ramfsCalls) ∧
      OnlyDirsHaveChildren (Machine.run fsStep homefsMount homefsCalls).tree ∧
        Distinct (Machine.run fsStep homefsMount homefsCalls).tree ∧
          Machine.Along fsStep CreationFound homefsMount homefsCalls := by
  constructor
  · exact kept_of_step (fun _ _ sound => Ramfs.sound_fsStep sound) sound_mounted ramfsFits
  · exact kept_of_step (fun _ _ sound => sound_fsStep sound) sound_mounted homefsFits

/-- The path `/a`. -/
def pathA : CString := ⟨[47, 97], by decide⟩

/-- The path `/a/b`. -/
def pathAB : CString := ⟨[47, 97, 47, 98], by decide⟩

/-- Make the directory `/a`, create `/a/b` in it. -/
def ramfsNested : List Ramfs.FsCall := [.mkdir pathA 1, .openFile pathAB { creat := true } 2]

/-- The same calls on homefs, whose `mkdir` flushes a container of 45 bytes. -/
def homefsNested : List FsCall :=
  [.mkdir pathA 1 ⟨2, 45⟩, .openFile pathAB { creat := true } 2]

theorem path_operations_keep_tree_nested :
    Machine.Along Ramfs.fsStep Ramfs.CreationFound Ramfs.ramfsMount ramfsNested ∧
      Machine.Along fsStep CreationFound homefsMount homefsNested :=
  have kept := path_operations_keep_tree (show Machine.Along _ _ _ ramfsNested by decide +kernel)
    (show Machine.Along _ _ _ homefsNested by decide +kernel)
  ⟨kept.1.2.2, kept.2.2.2⟩

/-- Create the file `/a`, then `/a/b` through it: `mkdirs` does not look at the type
of the node it descends into, so a regular file gets a child. -/
theorem mkdirs_descends_into_file :
    ¬ OnlyDirsHaveChildren (Machine.run Ramfs.fsStep Ramfs.ramfsMount
        [.openFile pathA { creat := true } 2, .openFile pathAB { creat := true } 2]).tree ∧
      ¬ OnlyDirsHaveChildren (Machine.run fsStep homefsMount
        [.openFile pathA { creat := true } 2, .openFile pathAB { creat := true } 2]).tree := by
  constructor
  · intro only
    have dir := only 1 ⟨[97], .file, emptyFile, some 0, [2]⟩ (by decide +kernel) (by decide)
    cases dir
  · intro only
    have dir := only 1 ⟨[97], .file, emptyFile, some 0, [2]⟩ (by decide +kernel) (by decide)
    cases dir

end CupidOs.Homefs
