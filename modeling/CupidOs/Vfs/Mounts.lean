import CupidOs.NodeTree.Paths
import Mathlib.Data.Fintype.Basic

/-!
# The mount table

`kernel/fs/vfs.c` keeps 32 mount slots. A path is answered by the slot that `find_mount` selects,
and its file system receives the part of the path behind it. Each call carries the value `rc` that
the operation of the file system returns, if it is called.
-/

namespace CupidOs.Vfs

open Function List CupidOs.Lists NodeTree Transition

/-- `VFS_MAX_MOUNTS`. -/
def vfsMaxMounts : Nat := 32

/-- `VFS_MAX_OPEN_FILES`. -/
def vfsMaxOpenFiles : Nat := 256

/-- `VFS_MAX_FS_TYPES`. -/
def vfsMaxFsTypes : Nat := 8

/-- `VFS_MAX_PATH`: paths of mounts are stored in this many bytes, terminator included. -/
def vfsMaxPath : Nat := 512

/-- `VFS_OK`. -/
def vfsOk : Int := 0

/-- The number behind a return code. -/
def VfsError.code : VfsError → Int
  | .enoent => -2
  | .eio => -5
  | .eacces => -13
  | .eexist => -17
  | .enotdir => -20
  | .eisdir => -21
  | .einval => -22
  | .emfile => -24
  | .enospc => -28
  | .enosys => -38

/-- `vfs_fs_ops_t`: the name of a file system type, and which operations it provides. -/
structure FsOps where
  name : List UInt8
  mount : Bool
  unmount : Bool
  opens : Bool
  close : Bool
  stat : Bool
  mkdir : Bool
  unlink : Bool
  deriving DecidableEq

/-- `vfs_mount_t`. -/
structure Mount where
  path : List UInt8
  ops : Option FsOps
  mounted : Bool
  deriving DecidableEq

/-- An index into `mounts`. -/
abbrev Slot := Fin vfsMaxMounts

/-- The tables of `vfs.c`.  An open descriptor holds the slot of its mount. -/
structure Tables where
  fsTypes : List FsOps
  mounts : Slot → Mount
  mountCount : Nat
  fdTable : Fin vfsMaxOpenFiles → Option Slot

/-- What a call returns, and the mount that it found with the relative path behind it. -/
structure Reply where
  code : Int
  selected : Option (Slot × List UInt8)
  deriving DecidableEq

/-- A cleared slot. -/
def noMount : Mount := ⟨[], none, false⟩

/-- `vfs_init`. -/
def vfsInit : Tables := ⟨[], fun _ => noMount, 0, fun _ => none⟩

variable (rest : List UInt8)

/-- The test of `find_mount` on the rest of a path: its end or a slash. -/
def atBoundary : Bool := rest.head?.all (· == slash)

/-- The body of the loop of `find_mount` on `best` and `best_len`. -/
def betterMount (tables : Tables) (path : List UInt8) (best : Option Slot × Nat) (slot : Slot) :
    Option Slot × Nat :=
  let mount := tables.mounts slot
  if mount.mounted = false then best
  else if mount.path = [slash] then
    if best.1 = none ∨ best.2 < 1 then (some slot, 1) else best
  else if mount.path <+: path ∧ atBoundary (path.drop mount.path.length) then
    if best.2 < mount.path.length then (some slot, mount.path.length) else best
  else best

/-- The slots below `mount_count`. -/
def scanned (tables : Tables) : List Slot :=
  (finRange vfsMaxMounts).filter fun slot => slot.val < tables.mountCount

/-- Skip one slash. -/
def skipSlash : List UInt8 :=
  if rest.head? = some slash then rest.tail else rest

/-- `find_mount`: the best mount and the relative path. -/
def findMount (tables : Tables) (path : List UInt8) : Option (Slot × List UInt8) :=
  match (scanned tables).foldl (betterMount tables path) (none, 0) with
  | (none, _) => none
  | (some slot, bestLen) =>
    if bestLen = 1 ∧ (tables.mounts slot).path.head? = some slash then
      some (slot, path.drop 1)
    else some (slot, skipSlash (path.drop bestLen))

/-- `find_fs_type`. -/
def findFsType (tables : Tables) (name : List UInt8) : Option FsOps :=
  tables.fsTypes.find? fun ops => ops.name == name

/-- `alloc_fd`: the first free descriptor. -/
def allocFd (tables : Tables) : Option (Fin vfsMaxOpenFiles) :=
  (finRange vfsMaxOpenFiles).find? fun fd => (tables.fdTable fd).isNone

/-- `vfs_register_fs`. -/
def vfsRegisterFs (tables : Tables) (ops : FsOps) : Tables × Int :=
  if vfsMaxFsTypes ≤ tables.fsTypes.length then (tables, VfsError.enospc.code)
  else ({ tables with fsTypes := tables.fsTypes ++ [ops] }, vfsOk)

/-- `vfs_mount`. -/
def vfsMount (tables : Tables) (target fsType : List UInt8) (rc : Int) : Tables × Int :=
  if room : tables.mountCount < vfsMaxMounts then
    match findFsType tables fsType with
    | none => (tables, VfsError.einval.code)
    | some ops =>
      let path := target.take (vfsMaxPath - 1)
      let slot : Slot := ⟨tables.mountCount, room⟩
      if ops.mount ∧ rc < 0 then
        ({ tables with
            mounts := update tables.mounts slot
              { tables.mounts slot with path := path, ops := some ops } }, rc)
      else
        ({ tables with
            mounts := update tables.mounts slot ⟨path, some ops, true⟩
            mountCount := tables.mountCount + 1 }, vfsOk)
  else (tables, VfsError.enospc.code)

/-- `vfs_close`, without its check of the descriptor. -/
def closeFd (tables : Tables) (fd : Fin vfsMaxOpenFiles) : Tables :=
  { tables with fdTable := update tables.fdTable fd none }

/-- `vfs_close`. -/
def vfsClose (tables : Tables) (fd : Int) (rc : Int) : Tables × Int :=
  if inside : 0 ≤ fd ∧ fd.toNat < vfsMaxOpenFiles then
    match tables.fdTable ⟨fd.toNat, inside.2⟩ with
    | none => (tables, VfsError.einval.code)
    | some slot =>
      (closeFd tables ⟨fd.toNat, inside.2⟩,
        if (tables.mounts slot).ops.any FsOps.close then rc else vfsOk)
  else (tables, VfsError.einval.code)

/-- The loop of `vfs_umount` that closes the files of a mount. -/
def closeFilesOf (tables : Tables) (slot : Slot) : Tables :=
  ((finRange vfsMaxOpenFiles).filter fun fd => tables.fdTable fd = some slot).foldl closeFd tables

/-- `vfs_umount`. -/
def vfsUmount (tables : Tables) (target : List UInt8) (rc : Int) : Tables × Reply :=
  match (finRange vfsMaxMounts).find? fun slot =>
      (tables.mounts slot).mounted && (tables.mounts slot).path == target with
  | none => (tables, ⟨VfsError.enoent.code, none⟩)
  | some slot =>
    ({ closeFilesOf tables slot with mounts := update tables.mounts slot noMount },
      ⟨if (tables.mounts slot).ops.any FsOps.unmount then rc else 0, some (slot, [])⟩)

/-- `vfs_open`; on success the code is the descriptor. -/
def vfsOpen (tables : Tables) (path : List UInt8) (rc : Int) : Tables × Reply :=
  if path.head? ≠ some slash then (tables, ⟨VfsError.einval.code, none⟩)
  else
    match findMount tables path with
    | none => (tables, ⟨VfsError.enoent.code, none⟩)
    | some (slot, rel) =>
      if (tables.mounts slot).ops.any FsOps.opens then
        match allocFd tables with
        | none => (tables, ⟨VfsError.emfile.code, some (slot, rel)⟩)
        | some fd =>
          if rc < 0 then (tables, ⟨rc, some (slot, rel)⟩)
          else
            ({ tables with fdTable := update tables.fdTable fd (some slot) },
              ⟨fd.val, some (slot, rel)⟩)
      else (tables, ⟨VfsError.enosys.code, some (slot, rel)⟩)

/-- The body of the calls that only forward a path. -/
def forwardPath (provided : FsOps → Bool) (tables : Tables) (path : List UInt8) (rc : Int) :
    Reply :=
  if path.head? ≠ some slash then ⟨VfsError.einval.code, none⟩
  else
    match findMount tables path with
    | none => ⟨VfsError.enoent.code, none⟩
    | some (slot, rel) =>
      ⟨if (tables.mounts slot).ops.any provided then rc else VfsError.enosys.code, some (slot, rel)⟩

/-- `vfs_stat`. -/
def vfsStat : Tables → List UInt8 → Int → Reply := forwardPath FsOps.stat

/-- `vfs_mkdir`. -/
def vfsMkdir : Tables → List UInt8 → Int → Reply := forwardPath FsOps.mkdir

/-- `vfs_unlink`. -/
def vfsUnlink : Tables → List UInt8 → Int → Reply := forwardPath FsOps.unlink

/-- The calls that take a path. -/
inductive PathOp
  | opens
  | stat
  | mkdir
  | unlink
  deriving DecidableEq

/-- The calls of a run. -/
inductive Call
  | register (ops : FsOps)
  | mount (target fsType : CString) (rc : Int)
  | umount (target : CString) (rc : Int)
  | close (fd : Int) (rc : Int)
  | path (op : PathOp) (path : CString) (rc : Int)

/-- A call on a path. -/
def pathCall (tables : Tables) (path : List UInt8) (rc : Int) : PathOp → Tables × Reply
  | .opens => vfsOpen tables path rc
  | .stat => (tables, vfsStat tables path rc)
  | .mkdir => (tables, vfsMkdir tables path rc)
  | .unlink => (tables, vfsUnlink tables path rc)

/-- A call that selects no mount. -/
def plain (outcome : Tables × Int) : Tables × Reply := (outcome.1, ⟨outcome.2, none⟩)

/-- One call of the virtual file system. -/
def vfsStep : Machine Tables Call Reply
  | tables, .register ops => plain (vfsRegisterFs tables ops)
  | tables, .mount target fsType rc => plain (vfsMount tables target.val fsType.val rc)
  | tables, .umount target rc => vfsUmount tables target.val rc
  | tables, .close fd rc => plain (vfsClose tables fd rc)
  | tables, .path op path rc => pathCall tables path.val rc op

/-! ## What the calls should do -/

/-- A slot whose mount is in use. -/
def Active (tables : Tables) (slot : Slot) : Prop := (tables.mounts slot).mounted = true

instance (tables : Tables) (slot : Slot) : Decidable (Active tables slot) :=
  inferInstanceAs (Decidable (_ = _))

/-- The number of components of the path of a mount. -/
def depth (tables : Tables) (slot : Slot) : Nat := (components (tables.mounts slot).path).length

/-- The components of the path of a mount are the first ones of `path`. -/
def Covers (tables : Tables) (path : List UInt8) (slot : Slot) : Prop :=
  components (tables.mounts slot).path <+: components path

instance (tables : Tables) (path : List UInt8) (slot : Slot) :
    Decidable (Covers tables path slot) :=
  inferInstanceAs (Decidable (_ <+: _))

/-- `selected` is an active mount with the longest component-wise prefix, with the rest of the path;
or there is none. -/
def IsLongest (tables : Tables) (path : List UInt8) : Option (Slot × List UInt8) → Prop
  | none => ∀ slot, Active tables slot → ¬ Covers tables path slot
  | some (slot, rel) =>
    Active tables slot ∧ (∀ other, Active tables other → Covers tables path other →
        depth tables other ≤ depth tables slot) ∧
      rel <:+ path ∧
      components path = components (tables.mounts slot).path ++ components rel

instance (tables : Tables) (path : List UInt8) (selected : Option (Slot × List UInt8)) :
    Decidable (IsLongest tables path selected) :=
  match selected with
  | none => inferInstanceAs (Decidable (∀ _, _ → _))
  | some _ => inferInstanceAs (Decidable (_ ∧ _ ∧ _ ∧ _))

/-- The file system type is registered and its mount operation does not fail. -/
def MountSucceeds (tables : Tables) (fsType : List UInt8) (rc : Int) : Prop :=
  ∃ ops ∈ findFsType tables fsType, ops.mount = true → 0 ≤ rc

instance (tables : Tables) (fsType : List UInt8) (rc : Int) :
    Decidable (MountSucceeds tables fsType rc) :=
  match found : findFsType tables fsType with
  | none => isFalse (by simp [MountSucceeds, found])
  | some ops =>
    decidable_of_iff (ops.mount = true → 0 ≤ rc) (by simp [MountSucceeds, found])

/-- A mount that could succeed finds no space only if every slot is active; an
absolute path is given to the active mount with the longest prefix, and a relative
path is refused. -/
def Answers (tables : Tables) : Call → Prop
  | .mount target fsType rc =>
    MountSucceeds tables fsType.val rc →
      (vfsStep tables (.mount target fsType rc)).2.code = VfsError.enospc.code →
        ∀ slot, Active tables slot
  | .path op path rc =>
    (path.val.head? = some slash →
        IsLongest tables path.val (vfsStep tables (.path op path rc)).2.selected) ∧
      (path.val.head? ≠ some slash →
        (vfsStep tables (.path op path rc)).2 = ⟨VfsError.einval.code, none⟩)
  | _ => True

instance (tables : Tables) (call : Call) : Decidable (Answers tables call) :=
  match call with
  | .mount _ _ _ => inferInstanceAs (Decidable (_ → _ → _))
  | .path _ _ _ => inferInstanceAs (Decidable ((_ → _) ∧ (_ → _)))
  | .register _ => inferInstanceAs (Decidable True)
  | .umount _ _ => inferInstanceAs (Decidable True)
  | .close _ _ => inferInstanceAs (Decidable True)

/-! ## The scan of the mounts -/

/-- The stored path of a mount, byte by byte, is in front of `path` and ends between
two components. -/
def Spelled (tables : Tables) (path : List UInt8) (slot : Slot) : Prop :=
  (tables.mounts slot).path = [slash] ∨
    (tables.mounts slot).path ≠ [] ∧ (tables.mounts slot).path <+: path ∧
      atBoundary (path.drop (tables.mounts slot).path.length) = true

instance (tables : Tables) (path : List UInt8) (slot : Slot) :
    Decidable (Spelled tables path slot) :=
  inferInstanceAs (Decidable (_ ∨ _ ∧ _ ∧ _))

/-- What the loop of `find_mount` knows after some slots. -/
structure Best (tables : Tables) (path : List UInt8) (seen : List Slot)
    (best : Option Slot × Nat) : Prop where
  held : ∀ slot ∈ best.1, Active tables slot ∧ Spelled tables path slot ∧
    best.2 = (tables.mounts slot).path.length
  unheld : best.1 = none → best.2 = 0
  longest : ∀ other ∈ seen, Active tables other → Spelled tables path other →
    (tables.mounts other).path.length ≤ best.2

variable {tables : Tables} {path : List UInt8} {slot : Slot} {seen : List Slot}
  {best : Option Slot × Nat}

lemma Spelled.length_pos (spelled : Spelled tables path slot) :
    0 < (tables.mounts slot).path.length := by
  rcases spelled with root | ⟨nonempty, _, _⟩
  · simp [root]
  · exact length_pos_iff.mpr nonempty

lemma betterMount_of_skipped (skipped : Active tables slot → ¬ Spelled tables path slot)
    (best : Option Slot × Nat) : betterMount tables path best slot = best := by
  simp only [betterMount]
  split
  · rfl
  rename_i active
  have notSpelled := skipped (by simpa [Active] using active)
  simp only [Spelled, not_or, not_and] at notSpelled
  rw [if_neg notSpelled.1]
  split
  · rename_i front
    by_cases empty : (tables.mounts slot).path = []
    · simp [empty]
    · exact absurd front.2 (notSpelled.2 empty front.1)
  · rfl

lemma betterMount_of_spelled (known : Best tables path seen best) (active : Active tables slot)
    (spelled : Spelled tables path slot) :
    betterMount tables path best slot =
      if best.2 < (tables.mounts slot).path.length then
        (some slot, (tables.mounts slot).path.length)
      else best := by
  have isMounted : (tables.mounts slot).mounted = true := active
  simp only [betterMount, isMounted, Bool.true_eq_false, if_false]
  by_cases root : (tables.mounts slot).path = [slash]
  · have same : (best.1 = none ∨ best.2 < 1) ↔ best.2 < 1 := by
      rcases best with ⟨_ | other, bestLen⟩
      · simp [show bestLen = 0 from known.unheld rfl]
      · simp
    simp only [root, if_true, same, length_singleton]
  · rw [if_neg root, if_pos (spelled.resolve_left root).2]

lemma Best.step (known : Best tables path seen best) (slot : Slot) :
    Best tables path (seen ++ [slot]) (betterMount tables path best slot) := by
  by_cases chosen : Active tables slot ∧ Spelled tables path slot
  · rw [betterMount_of_spelled known chosen.1 chosen.2]
    split
    next longer =>
      refine ⟨?_, nofun, forall_mem_append.mpr ⟨?_, forall_mem_singleton.mpr fun _ _ => le_rfl⟩⟩
      · rintro _ ⟨⟩
        exact ⟨chosen.1, chosen.2, rfl⟩
      · intro other member active spelled
        exact (known.longest other member active spelled).trans longer.le
    next notLonger =>
      refine ⟨known.held, known.unheld, forall_mem_append.mpr ⟨known.longest, ?_⟩⟩
      exact forall_mem_singleton.mpr fun _ _ => Nat.le_of_not_lt notLonger
  · rw [betterMount_of_skipped (fun active spelled => chosen ⟨active, spelled⟩)]
    refine ⟨known.held, known.unheld, forall_mem_append.mpr ⟨known.longest, ?_⟩⟩
    exact forall_mem_singleton.mpr fun active spelled => absurd ⟨active, spelled⟩ chosen

lemma Best.foldl (known : Best tables path seen best) (rest : List Slot) :
    Best tables path (seen ++ rest) (rest.foldl (betterMount tables path) best) := by
  induction rest generalizing seen best with
  | nil => simpa using known
  | cons slot rest ih => simpa using ih (known.step slot)

/-- The slots are handed out in order. -/
structure Filled (tables : Tables) : Prop where
  count_le : tables.mountCount ≤ vfsMaxMounts
  unused : ∀ slot : Slot, tables.mountCount ≤ slot.val → ¬ Active tables slot

lemma Filled.mem_scanned (filled : Filled tables) (active : Active tables slot) :
    slot ∈ scanned tables := by
  simp only [scanned, mem_filter, mem_finRange, true_and, decide_eq_true_eq]
  exact Nat.lt_of_not_le fun unused => filled.unused slot unused active

/-! ## Paths and their components -/

lemma components_slash_cons (path : List UInt8) : components (slash :: path) = components path :=
  tokens_separator_cons path

lemma components_skipSlash : components (skipSlash rest) = components rest := by
  cases rest with
  | nil => rfl
  | cons byte rest =>
    by_cases isSlash : byte = slash
    · simp [skipSlash, isSlash, components_slash_cons]
    · simp [skipSlash, isSlash]

lemma skipSlash_suffix : skipSlash rest <:+ rest := by
  simp only [skipSlash]
  split
  · exact tail_suffix rest
  · exact suffix_refl rest

/-- A cut between two components splits the list of components. -/
theorem components_append {rest : List UInt8} (front : List UInt8)
    (boundary : atBoundary rest = true) :
    components (front ++ rest) = components front ++ components rest := by
  cases rest with
  | nil => simp [components]
  | cons byte rest =>
    have isSlash : byte = slash := by simpa [atBoundary] using boundary
    subst isSlash
    rw [components_slash_cons]
    exact components_append_slash front rest

lemma components_root : components [slash] = [] :=
  rfl

/-- The components of a path behind a mount that is spelled out in it. -/
theorem Spelled.components_eq (spelled : Spelled tables path slot)
    (notRoot : (tables.mounts slot).path ≠ [slash]) :
    components path = components (tables.mounts slot).path ++
        components (path.drop (tables.mounts slot).path.length) := by
  rcases spelled.resolve_left notRoot with ⟨_, front, boundary⟩
  rw [← components_append _ boundary]
  exact congrArg components (prefix_iff_eq_append.mp front).symm

/-- Of two mounts spelled out in one path, the longer has at least as many components. -/
theorem Spelled.depth_le {first second : Slot} (absolute : path.head? = some slash)
    (firstSpelled : Spelled tables path first) (secondSpelled : Spelled tables path second)
    (length : (tables.mounts first).path.length ≤ (tables.mounts second).path.length) :
    depth tables first ≤ depth tables second := by
  by_cases firstRoot : (tables.mounts first).path = [slash]
  · simp [depth, firstRoot, components_root]
  rcases firstSpelled.resolve_left firstRoot with ⟨nonempty, firstFront, boundary⟩
  have secondNotRoot : (tables.mounts second).path ≠ [slash] := by
    intro root
    rw [root, length_singleton] at length
    have single := length_pos_iff.mpr nonempty
    obtain ⟨byte, isByte⟩ := length_eq_one_iff.mp (Nat.le_antisymm length single)
    rcases firstFront with ⟨rest, rfl⟩
    simp_all
  rcases secondSpelled.resolve_left secondNotRoot with ⟨_, secondFront, _⟩
  obtain ⟨between, split⟩ := prefix_of_prefix_length_le firstFront secondFront length
  have inner : atBoundary between = true := by
    obtain ⟨rest, whole⟩ := secondFront
    rw [← whole, ← split, append_assoc, drop_left] at boundary
    cases between with
    | nil => rfl
    | cons byte between => simpa [atBoundary] using boundary
  rw [depth, depth, ← split, components_append _ inner, length_append]
  exact Nat.le_add_right _ _

/-- Every active mount that covers the path is matched by one, at least as deep, that is spelled out
in it. -/
def SpelledOut (tables : Tables) (path : List UInt8) : Prop :=
  ∀ other, Active tables other → Covers tables path other →
    ∃ slot, Active tables slot ∧ Spelled tables path slot ∧ depth tables other ≤ depth tables slot

/-- `find_mount` selects an active mount spelled out in the path, as deep as any, and the rest. -/
def SelectsSpelled (tables : Tables) (path : List UInt8) : Option (Slot × List UInt8) → Prop
  | none => ∀ slot, Active tables slot → ¬ Spelled tables path slot
  | some (slot, rel) =>
    Active tables slot ∧ Spelled tables path slot ∧
      (∀ other, Active tables other → Spelled tables path other →
        depth tables other ≤ depth tables slot) ∧
      rel <:+ path ∧
      components path = components (tables.mounts slot).path ++ components rel

lemma components_drop_root (absolute : path.head? = some slash) :
    components (path.drop 1) = components path := by
  cases path with
  | nil => rfl
  | cons byte rest =>
    have isSlash : byte = slash := by simpa using absolute
    subst isSlash
    exact (components_slash_cons rest).symm

lemma findMount_spec (filled : Filled tables) (absolute : path.head? = some slash) :
    SelectsSpelled tables path (findMount tables path) := by
  have start : Best tables path [] (none, 0) := ⟨nofun, fun _ => rfl, nofun⟩
  have known := start.foldl (scanned tables)
  rw [nil_append] at known
  simp only [findMount]
  rcases folded : (scanned tables).foldl (betterMount tables path) (none, 0) with
    ⟨_ | slot, bestLen⟩
  · rw [folded] at known
    intro slot active spelled
    have none := known.longest slot (filled.mem_scanned active) active spelled
    rw [known.unheld rfl] at none
    exact absurd spelled.length_pos (Nat.not_lt.mpr none)
  rw [folded] at known
  obtain ⟨active, spelled, rfl⟩ := known.held slot rfl
  have deepest : ∀ other, Active tables other → Spelled tables path other →
      depth tables other ≤ depth tables slot := fun other otherActive otherSpelled =>
    otherSpelled.depth_le absolute spelled
      (known.longest other (filled.mem_scanned otherActive) otherActive otherSpelled)
  dsimp only
  split
  · rename_i root
    obtain ⟨byte, isByte⟩ := length_eq_one_iff.mp root.1
    rw [isByte] at root
    have isRoot : (tables.mounts slot).path = [slash] := by
      rw [isByte]
      simpa using root.2
    refine ⟨active, spelled, deepest, drop_suffix 1 path, ?_⟩
    rw [isRoot, components_root, components_drop_root absolute, nil_append]
  · rename_i notRoot
    have notSlash : (tables.mounts slot).path ≠ [slash] := by
      intro isRoot
      simp [isRoot] at notRoot
    refine ⟨active, spelled, deepest, ?_, ?_⟩
    · exact (skipSlash_suffix _).trans (drop_suffix _ path)
    · rw [components_skipSlash]
      exact spelled.components_eq notSlash

/-- The selected mount is the longest prefix exactly when that prefix is spelled out. -/
theorem isLongest_findMount_iff (filled : Filled tables) (absolute : path.head? = some slash) :
    IsLongest tables path (findMount tables path) ↔ SpelledOut tables path := by
  have selects := findMount_spec filled absolute
  cases found : findMount tables path with
  | none =>
    rw [found] at selects
    constructor
    · intro uncovered other active covers
      exact absurd covers (uncovered other active)
    · intro spelledOut other active covers
      rcases spelledOut other active covers with ⟨slot, slotActive, spelled, _⟩
      exact selects slot slotActive spelled
  | some selected =>
    rcases selected with ⟨slot, rel⟩
    rw [found] at selects
    rcases selects with ⟨active, spelled, deepest, suffix, split⟩
    constructor
    · rintro ⟨_, longest, _, _⟩ other otherActive covers
      exact ⟨slot, active, spelled, longest other otherActive covers⟩
    · intro spelledOut
      refine ⟨active, ?_, suffix, split⟩
      intro other otherActive covers
      rcases spelledOut other otherActive covers with ⟨nearer, nearerActive, nearerSpelled, le⟩
      exact le.trans (deepest nearer nearerActive nearerSpelled)

/-- The path made of the given components. -/
def written (names : List (List UInt8)) : List UInt8 :=
  if names = [] then [slash] else names.flatMap fun name => slash :: name

/-- Where mounts and the path are written without empty components, nothing is missed. -/
theorem spelledOut_of_written (mounts : ∀ slot, Active tables slot →
      (tables.mounts slot).path = written (components (tables.mounts slot).path))
    (normal : path = written (components path)) : SpelledOut tables path := by
  intro other active covers
  refine ⟨other, active, ?_, le_refl _⟩
  by_cases root : components (tables.mounts other).path = []
  · exact Or.inl (by rw [mounts other active, root, written, if_pos rfl])
  rcases covers with ⟨rest, split⟩
  have nonempty : components path ≠ [] := by
    rw [← split]
    simp [root]
  have mountBytes := (mounts other active).trans (if_neg root)
  have pathBytes := normal.trans (if_neg nonempty)
  have whole : path = (tables.mounts other).path ++ rest.flatMap fun name => slash :: name :=
    calc
      path = (components path).flatMap fun name => slash :: name := pathBytes
      _ = ((components (tables.mounts other).path).flatMap fun name => slash :: name) ++
          rest.flatMap fun name => slash :: name := by rw [← split, flatMap_append]
      _ = (tables.mounts other).path ++ rest.flatMap fun name => slash :: name := by
          rw [← mountBytes]
  refine Or.inr ⟨?_, ⟨_, whole.symm⟩, ?_⟩
  · intro empty
    exact root (by rw [empty]; rfl)
  · rw [whole, drop_left]
    cases rest <;> simp [atBoundary]

/-! ## Runs -/

/-- No path call touches the mounts, and each is answered by `find_mount` or refused. -/
lemma pathCall_spec (tables : Tables) (path : List UInt8) (rc : Int) (op : PathOp) :
    ((pathCall tables path rc op).1.mounts = tables.mounts ∧
      (pathCall tables path rc op).1.mountCount = tables.mountCount) ∧
    (path.head? = some slash →
      (pathCall tables path rc op).2.selected = findMount tables path) ∧
    (path.head? ≠ some slash → (pathCall tables path rc op).2 = ⟨VfsError.einval.code, none⟩) := by
  by_cases absolute : path.head? = some slash
  · rcases found : findMount tables path with _ | ⟨slot, rel⟩ <;> cases op <;>
      simp [pathCall, vfsOpen, vfsStat, vfsMkdir, vfsUnlink, forwardPath, absolute, found]
    -- only `vfs_open` goes on, with the descriptor and the code of the file system
    repeat' split
    all_goals simp
  · cases op <;> simp [pathCall, vfsOpen, vfsStat, vfsMkdir, vfsUnlink, forwardPath, absolute]

lemma vfsClose_mounts (tables : Tables) (fd rc : Int) :
    (vfsClose tables fd rc).1.mounts = tables.mounts ∧
      (vfsClose tables fd rc).1.mountCount = tables.mountCount := by
  simp only [vfsClose]
  split
  · split <;> exact ⟨rfl, rfl⟩
  · exact ⟨rfl, rfl⟩

lemma vfsRegisterFs_mounts (tables : Tables) (ops : FsOps) :
    (vfsRegisterFs tables ops).1.mounts = tables.mounts ∧
      (vfsRegisterFs tables ops).1.mountCount = tables.mountCount := by
  simp only [vfsRegisterFs]
  split <;> exact ⟨rfl, rfl⟩

lemma closeFilesOf_mountCount (tables : Tables) (slot : Slot) :
    (closeFilesOf tables slot).mountCount = tables.mountCount := by
  have closing : ∀ (fds : List (Fin vfsMaxOpenFiles)) (tables : Tables),
      (fds.foldl closeFd tables).mountCount = tables.mountCount := by
    intro fds
    induction fds with
    | nil => exact fun _ => rfl
    | cons fd fds ih => exact fun tables => ih (closeFd tables fd)
  exact closing _ tables

/-- `vfs_umount` finds no mount, or clears the slot of an active one. -/
lemma vfsUmount_cases (tables : Tables) (target : List UInt8) (rc : Int) :
    vfsUmount tables target rc = (tables, ⟨VfsError.enoent.code, none⟩) ∨
      ∃ gone code, Active tables gone ∧ vfsUmount tables target rc =
        ({ closeFilesOf tables gone with mounts := update tables.mounts gone noMount },
          ⟨code, some (gone, [])⟩) := by
  simp only [vfsUmount]
  split
  · exact Or.inl rfl
  · rename_i gone found
    have matched := List.find?_some found
    simp only [Bool.and_eq_true] at matched
    exact Or.inr ⟨gone, _, matched.1, rfl⟩

/-- A mount that could succeed is refused for space exactly when the slots were all
handed out. -/
theorem vfsMount_enospc_iff {target fsType : List UInt8} {rc : Int}
    (succeeds : MountSucceeds tables fsType rc) :
    (vfsMount tables target fsType rc).2 = VfsError.enospc.code ↔
      ¬ tables.mountCount < vfsMaxMounts := by
  rcases succeeds with ⟨ops, found, returns⟩
  simp only [vfsMount, Option.mem_def.mp found]
  split
  · rename_i room
    have notFailed : ¬ (ops.mount = true ∧ rc < 0) := fun failed =>
      absurd (returns failed.1) (by omega)
    simp [notFailed, room, vfsOk, VfsError.code]
  · simp_all

/-- The mounts and the umounts made so far. -/
structure Made where
  mounts : Nat
  umounts : Nat

/-- A mount is made if the call returns `VFS_OK`, a umount if the call finds the mount. -/
def noteMade (made : Made) : Call → Reply → Made
  | .mount _ _ _, reply =>
    if reply.code = vfsOk then { made with mounts := made.mounts + 1 } else made
  | .umount _ _, reply =>
    if reply.selected.isSome then { made with umounts := made.umounts + 1 } else made
  | _, _ => made

/-- The slots below `mount_count` were handed out by the mounts made, and as long as no umount was
made they are all active. -/
structure Counted (tables : Tables) (made : Made) : Prop extends Filled tables where
  mounts : made.mounts = tables.mountCount
  umounts : made.umounts = 0 ↔ ∀ slot : Slot, slot.val < tables.mountCount → Active tables slot

section

variable {made : Made} (counted : Counted tables made)
include counted

lemma Counted.of_active {next : Tables} (count : next.mountCount = tables.mountCount)
    (same : ∀ slot, Active next slot ↔ Active tables slot) : Counted next made := by
  obtain ⟨⟨count_le, unused⟩, mounts, umounts⟩ := counted
  refine ⟨⟨count.trans_le count_le, ?_⟩, mounts.trans count.symm, ?_⟩
  · simpa only [same, count] using unused
  · simpa only [same, count] using umounts

lemma Counted.of_mounts_eq {next : Tables}
    (same : next.mounts = tables.mounts ∧ next.mountCount = tables.mountCount) :
    Counted next made :=
  counted.of_active same.2 fun slot => by rw [Active, Active, same.1]

lemma Counted.mount (target fsType : CString) (rc : Int) :
    Counted (vfsStep tables (.mount target fsType rc)).1
      (noteMade made (.mount target fsType rc) (vfsStep tables (.mount target fsType rc)).2) := by
  simp only [vfsStep, plain, vfsMount, noteMade]
  split
  · rename_i room
    cases findFsType tables fsType.val with
    | none => exact counted
    | some ops =>
      dsimp only
      split
      · rename_i failed
        rw [if_neg (by grind [vfsOk])]
        refine counted.of_active rfl fun slot => ?_
        by_cases same : slot = ⟨tables.mountCount, room⟩
        · simp [Active, same]
        · simp [Active, same]
      · rw [if_pos rfl]
        have active : ∀ slot, (update tables.mounts ⟨tables.mountCount, room⟩
            ⟨target.val.take (vfsMaxPath - 1), some ops, true⟩ slot).mounted = true ↔
              slot.val = tables.mountCount ∨ Active tables slot := by
          intro slot
          by_cases same : slot = ⟨tables.mountCount, room⟩
          · simp [same]
          · simp [same, Active, Fin.ext_iff.not.mp same]
        refine ⟨⟨room, fun slot unused isActive => ?_⟩, congrArg (· + 1) counted.mounts,
          counted.umounts.trans ?_⟩
        · rcases (active slot).mp isActive with new | old
          · exact absurd unused (by grind)
          · exact counted.unused slot (Nat.le_of_succ_le unused) old
        · refine forall_congr' fun slot => ?_
          have isActive := active slot
          dsimp only [Active] at isActive ⊢
          rw [isActive]
          grind
  · exact counted

lemma Counted.umount (target : CString) (rc : Int) :
    Counted (vfsStep tables (.umount target rc)).1
      (noteMade made (.umount target rc) (vfsStep tables (.umount target rc)).2) := by
  dsimp only [vfsStep]
  rcases vfsUmount_cases tables target.val rc with same | ⟨gone, code, active, cleared⟩
  · rw [same]
    exact counted
  · rw [cleared]
    have count := closeFilesOf_mountCount tables gone
    have below : gone.val < tables.mountCount :=
      Nat.lt_of_not_le fun unused => counted.unused gone unused active
    refine ⟨⟨count.trans_le counted.count_le, fun slot unused active => ?_⟩,
      counted.mounts.trans count.symm, iff_of_false (Nat.succ_ne_zero _) fun all => ?_⟩
    · by_cases same : slot = gone
      · simp [Active, same, noMount] at active
      · exact counted.unused slot (count.ge.trans unused) (by simpa [Active, same] using active)
    · simpa [Active, noMount] using all gone (below.trans_eq count.symm)

lemma Counted.step (call : Call) :
    Counted (vfsStep tables call).1 (noteMade made call (vfsStep tables call).2) := by
  cases call with
  | register ops => exact counted.of_mounts_eq (vfsRegisterFs_mounts tables ops)
  | mount target fsType rc => exact counted.mount target fsType rc
  | umount target rc => exact counted.umount target rc
  | close fd rc => exact counted.of_mounts_eq (vfsClose_mounts tables fd rc)
  | path op path rc => exact counted.of_mounts_eq (pathCall_spec tables path.val rc op).1

end

/-- No mount comes when all the mounts that the table has slots for were made and one of them was
undone, and the longest prefix of every path used is spelled out in it. -/
def Served (h : Tables × Made) : Call → Prop
  | .mount _ fsType rc =>
    MountSucceeds h.1 fsType.val rc → h.2.mounts < vfsMaxMounts ∨ h.2.umounts = 0
  | .path _ path _ => path.val.head? = some slash → SpelledOut h.1 path.val
  | _ => True

lemma answers_iff_served {made : Made} (counted : Counted tables made) (call : Call) :
    Answers tables call ↔ Served (tables, made) call := by
  cases call with
  | register ops => exact Iff.rfl
  | mount target fsType rc =>
    refine forall_congr' fun succeeds => ?_
    have refused : (vfsMount tables target.val fsType.val rc).2 = VfsError.enospc.code ↔
        ¬ tables.mountCount < vfsMaxMounts := vfsMount_enospc_iff succeeds
    simp only [vfsStep, plain, refused, counted.mounts, counted.umounts]
    constructor
    · intro answers
      rw [or_iff_not_imp_left]
      exact fun full slot _ => answers full slot
    · rintro (room | all) full slot
      · exact absurd room full
      · exact all slot (slot.isLt.trans_le (Nat.le_of_not_lt full))
  | umount target rc => exact Iff.rfl
  | close fd rc => exact Iff.rfl
  | path op path rc =>
    obtain ⟨_, selected, refused⟩ := pathCall_spec tables path.val rc op
    simp only [Answers, Served, vfsStep, and_iff_left refused]
    refine forall_congr' fun absolute => ?_
    rw [selected absolute]
    exact isLongest_findMount_iff counted.toFilled absolute

lemma counted_vfsInit : Counted vfsInit ⟨0, 0⟩ where
  count_le := Nat.zero_le _
  unused := fun _ _ active => Bool.false_ne_true active
  mounts := rfl
  umounts := ⟨fun _ slot below => absurd below (Nat.not_lt_zero slot.val), fun _ => rfl⟩

/-- Over every run, mounts find space and paths find their mount exactly as long as no
slot is needed again and mounts are spelled out in the paths that use them. -/
theorem mounts_answer_iff_served (calls : List Call) :
    vfsStep.Along Answers vfsInit calls ↔
      (vfsStep.observe noteMade).Along Served (vfsInit, ⟨0, 0⟩) calls :=
  Machine.along_observe_iff.symm.trans <|
    Machine.along_iff_of_invariant (I := fun h => Counted h.1 h.2)
      (fun _ call counted _ => counted.step call)
      (fun _ call counted => answers_iff_served counted call) counted_vfsInit

/-- A file system that provides every operation. -/
def ramfsOps : FsOps := ⟨[114], true, true, true, true, true, true, true⟩

/-- Mounting and unmounting `/a` 32 times uses up the table; and a mount at `/a/` is not
found for `/a/b`. -/
theorem remounting_runs_out_of_slots :
    let a : CString := ⟨[47, 97], by decide⟩
    let aSlash : CString := ⟨[47, 97, 47], by decide⟩
    let inside : CString := ⟨[47, 97, 47, 98], by decide⟩
    let name : CString := ⟨[114], by decide⟩
    let cycle := [Call.mount a name 0, Call.umount a 0]
    ¬ vfsStep.Along Answers vfsInit
        (.register ramfsOps :: (replicate 32 cycle).flatten ++ [.mount a name 0]) ∧
      ¬ vfsStep.Along Answers vfsInit
        [.register ramfsOps, .mount aSlash name 0, .path .stat inside 0] := by
  decide +kernel

end CupidOs.Vfs
