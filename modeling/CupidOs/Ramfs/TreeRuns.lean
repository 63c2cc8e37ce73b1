import CupidOs.NodeTree.Sound
import CupidOs.Ramfs.Tree

/-!
# Runs of path operations on a ramfs mount

Opening with `O_CREAT`, `mkdir`, `unlink` and `ramfs_add_file` keep a node tree
sound as long as every path they create avoids regular files and has names that
fit.
-/

namespace CupidOs.Ramfs

open NodeTree Transition Vfs

/-- The call is a path operation, and every creation fits. -/
def PathCallFits (fs : Fs) : FsCall → Prop
  | .openFile path flags _ => flags.creat = true → CreationFits fs.tree path
  | .mkdir path _ => CreationFits fs.tree path
  | .addFile path _ _ => CreationFits fs.tree path
  | .unlink _ => True
  | .stat _ => True
  | .close _ => True
  | _ => False

instance (fs : Fs) (call : FsCall) : Decidable (PathCallFits fs call) := by
  cases call <;> dsimp only [PathCallFits] <;> infer_instance

/-- After a successful creation its path leads to the new node. -/
def CreationFound (fs : Fs) (call : FsCall) : Prop :=
  match call with
  | .openFile path _ _ =>
    ramfsLookup fs path = none → (∃ index, (fsStep fs call).2 = .handle index) →
      LeadsToNew fs.tree (fsStep fs call).1.tree path .file
  | .mkdir path _ =>
    (fsStep fs call).2 = .ok → LeadsToNew fs.tree (fsStep fs call).1.tree path .dir
  | .addFile path _ _ =>
    (fsStep fs call).2 = .ok → LeadsToNew fs.tree (fsStep fs call).1.tree path .file
  | _ => True

variable {fs : Fs} {path : CString}

lemma opens_ramfsOpen (fs : Fs) (path : CString) (flags : OpenFlags) (budget : Nat) :
    Opens fs.tree path flags budget (ramfsOpen fs path flags budget).1.tree
      (ramfsOpen fs path flags budget).2 := by
  unfold ramfsOpen ramfsLookup
  cases found : lookup fs.tree path.val with
  | some id => exact .found _ found
  | none =>
    simp only
    split_ifs with creat
    · cases made : (create fs.tree path.val .file budget).result with
      | error code => exact .failed code creat found
      | ok id => exact .made _ creat found made
    · exact .absent

/-- `ramfs_add_file` fails in the tree that `mkdirs` leaves, or links its node there. -/
theorem ramfsAddFile_cases (fs : Fs) (data : Buffer) (budget : Nat) {dirs : List (List UInt8)}
    {last : List UInt8} (parsed : components path.val = dirs ++ [last]) :
    ((ramfsAddFile fs path data budget).1.tree = (descend fs.tree budget rootId dirs).tree ∧
        ∃ code, (ramfsAddFile fs path data budget).2 = .error code) ∨
      ∃ parent file, (descend fs.tree budget rootId dirs).result = some parent ∧
        findChild (descend fs.tree budget rootId dirs).tree parent (storedName last) = none ∧
        (ramfsAddFile fs path data budget).1.tree =
          (descend fs.tree budget rootId dirs).tree.attach parent
            { allocNode (storedName last) .file with file := file } := by
  rcases mkdirs_eq_descend fs.tree budget parsed with ⟨byte, rest, rfl, made⟩
  simp only [ramfsAddFile, made, leafName]
  cases result : (descend fs.tree budget rootId dirs).result with
  | none => exact Or.inl ⟨rfl, _, rfl⟩
  | some parent =>
    simp only [Option.map_some]
    by_cases taken : (findChild (descend fs.tree budget rootId dirs).tree parent
        (storedName (component (byte :: rest)))).isSome
    · rw [if_pos taken]
      exact Or.inl ⟨rfl, _, rfl⟩
    rw [if_neg taken]
    by_cases short : (descend fs.tree budget rootId dirs).budget < (if data.val = [] then 1 else 2)
    · rw [if_pos short]
      exact Or.inl ⟨rfl, _, rfl⟩
    · rw [if_neg short]
      exact Or.inr ⟨parent, _, rfl, by simpa using taken, rfl⟩

/-- `ramfs_add_file` on a path without components changes nothing. -/
theorem ramfsAddFile_of_no_components (fs : Fs) (data : Buffer) (budget : Nat)
    (parsed : components path.val = []) :
    ramfsAddFile fs path data budget = (fs, .error .einval) := by
  simp only [ramfsAddFile, mkdirs_of_no_components fs.tree budget parsed]

lemma ramfsAddFile_finds (sound : Sound fs.tree) (data : Buffer) (budget : Nat)
    (fits : CreationFits fs.tree path) :
    Sound (ramfsAddFile fs path data budget).1.tree ∧
      ((ramfsAddFile fs path data budget).2 = .ok () →
        LeadsToNew fs.tree (ramfsAddFile fs path data budget).1.tree path .file) := by
  rcases components_split sound.shape budget fits.2 with noComponents | ⟨dirs, last, parsed, descends⟩
  · rw [ramfsAddFile_of_no_components fs data budget noComponents]
    exact ⟨sound, nofun⟩
  rcases ramfsAddFile_cases fs data budget parsed with
    ⟨treeEq, code, failed⟩ | ⟨parent, file, result, free, treeEq⟩
  · rw [treeEq, failed]
    exact ⟨(sound.descends fits descends parsed).1, nofun⟩
  rw [result] at descends
  rw [storedName_of_short (fits.1 last (by simp [parsed]))] at free
  rw [treeEq]
  have linked := sound.link fits { allocNode (storedName last) .file with file := file } descends
    parsed rfl free rfl
  exact ⟨linked.1, fun _ => linked.2⟩

/-- A path operation whose creations fit keeps the tree sound, and a created path leads to its
node. -/
theorem sound_fsStep (sound : Sound fs.tree) {call : FsCall} (fits : PathCallFits fs call) :
    Sound (Ramfs.fsStep fs call).1.tree ∧ CreationFound fs call := by
  cases call with
  | openFile path flags budget =>
    have opens := opens_ramfsOpen fs path flags budget
    have opened := opens.sound sound fits
    simp only [CreationFound, Ramfs.fsStep]
    rcases result : Ramfs.ramfsOpen fs path flags budget with ⟨after, code | handle⟩
    · rw [result] at opened
      exact ⟨opened, by simp⟩
    · rw [result] at opens opened
      exact ⟨opened, fun missing _ => opens.leads sound fits missing⟩
  | close index => exact ⟨sound, trivial⟩
  | read index count => exact fits.elim
  | write index bytes allocOk => exact fits.elim
  | seek index offset whence => exact fits.elim
  | stat path => exact ⟨sound, trivial⟩
  | readdir index => exact fits.elim
  | mkdir path budget =>
    simp only [CreationFound, Ramfs.fsStep, ramfsMkdirOp, ramfsLookup]
    cases found : lookup fs.tree path.val with
    | some id => exact ⟨sound, nofun⟩
    | none =>
      have made := sound.create fits .dir budget found
      refine ⟨made.1, fun reply => ?_⟩
      cases created : (NodeTree.create fs.tree path.val .dir budget).result with
      | error code => simp [created, status, Except.map] at reply
      | ok id => exact made.2 id created
  | unlink path =>
    simp only [Ramfs.fsStep, ramfsUnlink]
    cases removed : NodeTree.removeNode fs.tree path.val with
    | error code => exact ⟨sound, trivial⟩
    | ok after => exact ⟨sound.removeNode removed, trivial⟩
  | addFile path data budget =>
    have added := ramfsAddFile_finds sound data budget fits
    refine ⟨added.1, fun reply => added.2 ?_⟩
    simp only [Ramfs.fsStep] at reply
    cases result : (ramfsAddFile fs path data budget).2 with
    | error code => simp [result, status] at reply
    | ok _ => rfl

end CupidOs.Ramfs
