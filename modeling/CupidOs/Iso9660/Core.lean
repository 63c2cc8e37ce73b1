import CupidOs.Bytes.Codec
import CupidOs.NodeTree.Core

/-!
# The ISO9660 reader

`kernel/fs/iso9660.c` and the directory part of `kernel/fs/iso9660_vfs.c`. All numbers of an image
are untrusted.

What the reader takes from its sector buffer, its continuation buffer and the name array of its
caller is a slice. The result is `none` where a slice leaves its buffer, where a record is taken
from a buffer that no sector was read into, and where a name is written behind its array.

The loops over a directory need not end, because offsets wrap. They take a bound on their rounds
and return `running` when it is used up.
-/

namespace CupidOs.Iso9660

open Bytes NodeTree Vfs

/-- `ISO9660_LOGICAL_BLOCK_SIZE`. -/
def logicalBlockSize : Nat := 2048

/-- `ISO9660_PVD_LBA`. -/
def pvdLba : UInt32 := 16

/-- `ISO9660_MAX_NAME_LEN`. -/
def maxNameLen : Nat := 255

/-- `SUSP_MAX_CE_DEPTH`. -/
def suspMaxCeDepth : Nat := 8

/-- `UINT32_MAX`. -/
def uint32Max : UInt32 := 0xFFFFFFFF

/-- The contents of a sector buffer. -/
abbrev Sector := { bytes : List UInt8 // bytes.length = logicalBlockSize }

/-- `read_sector`: the sectors of the image that can be read. -/
abbrev Device := UInt32 → Option Sector

/-- A part of a sector buffer. -/
def slice (sector : Sector) (start length : Nat) : Option (List UInt8) :=
  if start + length ≤ logicalBlockSize then some ((sector.val.drop start).take length) else none

/-- `rd_u32le`. -/
def rdU32le (bytes : List UInt8) (offset : Nat) : UInt32 := UInt32.ofNat (readLE 4 bytes offset)

/-- The sectors that hold a file or a directory, and its size in bytes. -/
structure Extent where
  lba : UInt32
  size : UInt32
  deriving DecidableEq

/-- The extent, the directory flag, the name and the system use area of a record. -/
structure DirRecord where
  extent : Extent
  isDir : Bool
  name : List UInt8
  su : List UInt8
  deriving DecidableEq

/-- `get_su_area` of the record of `recLen` bytes at `inSec`. -/
def getSuArea (sector : Sector) (inSec recLen nameLen : Nat) : Option (List UInt8) :=
  let afterName := 33 + nameLen + if nameLen % 2 = 0 then 1 else 0
  if recLen ≤ afterName then some [] else slice sector (inSec + afterName) (recLen - afterName)

/-- The fields of the record of `recLen` bytes at `inSec`. -/
def readRecord (sector : Sector) (inSec recLen : Nat) : Option DirRecord := do
  let fixed ← slice sector inSec 33
  let nameLen := (fixed.getD 32 0).toNat
  let name ← slice sector (inSec + 33) nameLen
  let su ← getSuArea sector inSec recLen nameLen
  some
    { extent := ⟨rdU32le fixed 2, rdU32le fixed 10⟩
      isDir := fixed.getD 25 0 &&& 2 != 0
      name := name
      su := su }

/-- The names of the records `.` and `..`. -/
def isDot (name : List UInt8) : Bool := name == [0] || name == [1]

/-! ## Names -/

/-- `tolower_ascii`. -/
def tolowerAscii (byte : UInt8) : UInt8 := if 65 ≤ byte ∧ byte ≤ 90 then byte + 32 else byte

/-- `ci_eq` on two names of the same length. -/
def ciEq : List UInt8 → List UInt8 → Bool
  | a :: as, b :: bs =>
    if a = 0 ∨ b = 0 then a == b
    else if tolowerAscii a ≠ tolowerAscii b then false
    else ciEq as bs
  | _, _ => true

/-- The name without the version behind `;` and without a final dot. -/
def baseName (name : List UInt8) : List UInt8 :=
  let front := name.takeWhile (· != 59)
  if front.getLast? = some 46 then front.dropLast else front

/-- `strip_base_name` into an array of `room` bytes of which it may use `dstCap`. -/
def stripBaseName (name : List UInt8) (dstCap room : Nat) : Option (List UInt8) :=
  let copied := (baseName name).take dstCap
  if copied.length ≤ room then some copied else none

/-- The loop of `susp_walk` over one area; `follow` continues behind a `CE` entry. -/
def suspScan {σ : Type} (follow cb : List UInt8 → σ → Option σ) :
    Nat → List UInt8 → σ → Option σ
  | 0, _, ctx => some ctx
  | fuel + 1, area, ctx =>
    match area with
    | sig₀ :: sig₁ :: elen :: _ :: _ =>
      if elen < 4 ∨ area.length < elen.toNat then some ctx
      else if sig₀ = 83 ∧ sig₁ = 84 then some ctx
      else if sig₀ = 67 ∧ sig₁ = 69 ∧ 28 ≤ elen then follow area ctx
      else do
        let ctx ← cb (area.take elen.toNat) ctx
        suspScan follow cb fuel (area.drop elen.toNat) ctx
    | _ => some ctx

/-- The area that a `CE` entry points to; `none` inside when it is not followed. -/
def continuation (device : Device) (entry : List UInt8) : Option (Option (List UInt8)) :=
  match device (rdU32le entry 4) with
  | none => some none
  | some sector =>
    let ceOffset := rdU32le entry 12
    let ceLen := rdU32le entry 20
    if 2048 < ceOffset + ceLen then some none
    else (slice sector ceOffset.toNat ceLen.toNat).map some

/-- `susp_walk` with `depth` continuation areas left to follow. -/
def suspWalk {σ : Type} (device : Device) (cb : List UInt8 → σ → Option σ) :
    Nat → List UInt8 → σ → Option σ
  | 0, area, ctx => suspScan (fun _ ctx => some ctx) cb area.length area ctx
  | depth + 1, area, ctx =>
    suspScan (fun entry ctx => do
        match ← continuation device entry with
        | none => some ctx
        | some next => suspWalk device cb depth next ctx)
      cb area.length area ctx

/-- `nm_ctx_t`. -/
structure NmContext where
  written : List UInt8
  complete : Bool

/-- `nm_entry_cb`, writing to an array of `room` bytes. -/
def nmEntry (cap : UInt32) (room : Nat) (entry : List UInt8) (nc : NmContext) : Option NmContext :=
  if nc.complete then some nc
  else
    match entry with
    | sig₀ :: sig₁ :: _ :: _ :: flags :: src =>
      if sig₀ ≠ 78 ∨ sig₁ ≠ 77 then some nc
      else if flags &&& 0x16 ≠ 0 then some nc
      else
        let written := nc.written ++ src.take ((cap - 1).toNat - nc.written.length)
        if written.length ≤ room then some ⟨written, flags &&& 1 = 0⟩ else none
    | _ => some nc

/-- `susp_read_nm`. -/
def suspReadNm (device : Device) (su : List UInt8) (cap : UInt32) (room : Nat) :
    Option (List UInt8) :=
  (suspWalk device (nmEntry cap room) suspMaxCeDepth su ⟨[], false⟩).map NmContext.written

/-- The name of a record: from its `NM` entries where there are any, else the base name. -/
def recordName (device : Device) (hasRockridge : Bool) (entry : DirRecord) (nmCap : UInt32)
    (baseCap room : Nat) : Option (List UInt8) := do
  let nm ← if hasRockridge && !entry.su.isEmpty then suspReadNm device entry.su nmCap room
    else some []
  if nm.isEmpty then stripBaseName entry.name baseCap room else some nm

/-- The terminator behind a name, at `index` of an array of `room` bytes. -/
def terminate (index room : Nat) (name : List UInt8) : Option (List UInt8) :=
  if index < room then some name else none

/-! ## Directories -/

/-- `off`, the sector buffer, and the sector that it is taken to hold. -/
structure Cursor where
  off : UInt32
  sec : Option Sector
  curLba : UInt32

/-- A walk begins with a buffer that holds no sector. -/
def Cursor.start (off : UInt32) : Cursor := ⟨off, none, uint32Max⟩

/-- What `next_dir_record` returns. -/
inductive Found
  | running
  | ended
  | failed
  | record (inSec recLen : Nat)

/-- The sector that an offset of a directory lies in. -/
def Extent.lbaAt (extent : Extent) (off : UInt32) : UInt32 := extent.lba + off / 2048

/-- Read the sector at the offset unless the buffer is taken to hold it. -/
def loadSector (device : Device) (extent : Extent) (cursor : Cursor) : Option Cursor :=
  if cursor.curLba ≠ extent.lbaAt cursor.off then
    (device (extent.lbaAt cursor.off)).map fun sector =>
      { cursor with sec := some sector, curLba := extent.lbaAt cursor.off }
  else some cursor

/-- `next_dir_record`. -/
def nextDirRecord (device : Device) (extent : Extent) : Nat → Cursor → Option (Cursor × Found)
  | 0, cursor => some (cursor, if cursor.off < extent.size then .running else .ended)
  | fuel + 1, cursor =>
    if cursor.off < extent.size then
      match loadSector device extent cursor with
      | none => some (cursor, .failed)
      | some cursor => do
          let sector ← cursor.sec
          let inSec := (cursor.off % 2048).toNat
          let len := (sector.val.getD inSec 0).toNat
          if len = 0 then
            nextDirRecord device extent fuel
              { cursor with off := (cursor.off / 2048 + 1) * 2048 }
          else if logicalBlockSize < inSec + len then some (cursor, .failed)
          else some (cursor, .record inSec len)
    else some (cursor, .ended)

/-- How a walk over the records of a directory ends. -/
inductive Walk (β : Type)
  | running
  | ended
  | failed
  | stopped (value : β)

/-- The loop of `iso9660_lookup` and `iso9660_readdir_step`: every record but `.` and `..` is given
to `visit`, until it returns a value. -/
def walkDir {β : Type} (device : Device) (extent : Extent)
    (visit : DirRecord → Option (Option β)) : Nat → Cursor → Option (UInt32 × Walk β)
  | 0, cursor => some (cursor.off, if cursor.off < extent.size then .running else .ended)
  | fuel + 1, cursor =>
    if cursor.off < extent.size then do
      let (cursor, found) ← nextDirRecord device extent fuel cursor
      match found with
      | .running => some (cursor.off, .running)
      | .ended => some (cursor.off, .ended)
      | .failed => some (cursor.off, .failed)
      | .record inSec recLen =>
        let sector ← cursor.sec
        let entry ← readRecord sector inSec recLen
        let next := { cursor with off := cursor.off + UInt32.ofNat recLen }
        if isDot entry.name then walkDir device extent visit fuel next
        else
          match ← visit entry with
          | some value => some (next.off, .stopped value)
          | none => walkDir device extent visit fuel next
    else some (cursor.off, .ended)

/-- `iso9660_mount_t`. -/
structure IsoMount where
  root : Extent
  hasRockridge : Bool
  deriving DecidableEq

/-- `iso9660_file_t` of a directory or file. -/
structure IsoFile where
  extent : Extent
  isDir : Bool
  dirWalkOffset : UInt32
  deriving DecidableEq

/-- What `iso9660_lookup` returns. -/
inductive Lookup
  | running
  | failed (error : VfsError)
  | ok (file : IsoFile)
  deriving DecidableEq

/-- The effective name that `iso9660_lookup` builds in `name_buf`. -/
def lookupName (device : Device) (mount : IsoMount) (entry : DirRecord) : Option (List UInt8) := do
  let name ← recordName device mount.hasRockridge entry 255 maxNameLen (maxNameLen + 1)
  terminate name.length (maxNameLen + 1) name

/-- The comparison of a record with a component of the path. -/
def matchName (device : Device) (mount : IsoMount) (comp : List UInt8) (entry : DirRecord) :
    Option (Option DirRecord) := do
  let name ← lookupName device mount entry
  some (if name.length = comp.length ∧ ciEq name comp then some entry else none)

/-- The loop of `iso9660_lookup` over the components. Each round consumes a byte of the path. -/
def lookupLoop (device : Device) (mount : IsoMount) (fuel : Nat) :
    Nat → Extent → Bool → List UInt8 → Option Lookup
  | 0, extent, isDir, _ => some (.ok ⟨extent, isDir, 0⟩)
  | rounds + 1, extent, isDir, path =>
    if path.isEmpty then some (.ok ⟨extent, isDir, 0⟩)
    else do
      match (← walkDir device extent (matchName device mount (component path)) fuel
          (Cursor.start 0)).2 with
      | .running => some .running
      | .ended => some (.failed .enoent)
      | .failed => some (.failed .eio)
      | .stopped entry =>
        let rest := skipSlashes (afterComponent path)
        if !rest.isEmpty && !entry.isDir then some (.failed .enotdir)
        else lookupLoop device mount fuel rounds entry.extent entry.isDir rest

/-- `iso9660_lookup`. -/
def iso9660Lookup (device : Device) (mount : IsoMount) (path : List UInt8) (fuel : Nat) :
    Option Lookup :=
  lookupLoop device mount fuel path.length mount.root true (skipSlashes path)

/-- An emitted directory entry. -/
structure Emitted where
  name : List UInt8
  isDir : Bool
  size : UInt32
  deriving DecidableEq

/-- What `iso9660_readdir_step` returns. -/
inductive Step
  | running
  | ended
  | failed (error : VfsError)
  | emitted (entry : Emitted)
  deriving DecidableEq

/-- The entry that `iso9660_readdir_step` writes to an array of `cap` bytes. -/
def emitEntry (device : Device) (mount : IsoMount) (cap : UInt32) (entry : DirRecord) :
    Option (Option Emitted) := do
  let name ← recordName device mount.hasRockridge entry cap (cap - 1).toNat cap.toNat
  let name ← terminate (if name.length < cap.toNat then name.length else (cap - 1).toNat)
    cap.toNat name
  some (some ⟨name, entry.isDir, entry.extent.size⟩)

/-- The return value for a walk of `iso9660_readdir_step`. -/
def stepOf : Walk Emitted → Step
  | .running => .running
  | .ended => .ended
  | .failed => .failed .eio
  | .stopped entry => .emitted entry

/-- `iso9660_readdir_step`. -/
def iso9660ReaddirStep (device : Device) (mount : IsoMount) (file : IsoFile) (cap : UInt32)
    (fuel : Nat) : Option (IsoFile × Step) :=
  if file.isDir then do
    let (off, walk) ← walkDir device file.extent (emitEntry device mount cap) fuel
      (Cursor.start file.dirWalkOffset)
    some ({ file with dirWalkOffset := off }, stepOf walk)
  else some (file, .failed .enotdir)

/-- `iso_vfs_readdir`: the name array of the entry has `VFS_MAX_NAME` bytes. -/
def isoVfsReaddir (device : Device) (mount : IsoMount) (file : IsoFile) (fuel : Nat) :
    Option (IsoFile × Step) := do
  let (file, step) ← iso9660ReaddirStep device mount file (UInt32.ofNat vfsMaxName) fuel
  match step with
  | .emitted entry => some (file, .emitted { entry with name := entry.name.takeWhile (· != 0) })
  | step => some (file, step)

/-! ## Mounting -/

/-- `susp_has_sp`. An entry has at least four bytes, so the rounds are enough. -/
def suspHasSp : Nat → List UInt8 → Bool
  | 0, _ => false
  | fuel + 1, su =>
    match su with
    | sig₀ :: sig₁ :: elen :: _ :: _ =>
      if elen < 4 ∨ su.length < elen.toNat then false
      else if sig₀ = 83 ∧ sig₁ = 80 ∧ 7 ≤ elen ∧ su.getD 4 0 = 0xBE ∧ su.getD 5 0 = 0xEF then
        true
      else suspHasSp fuel (su.drop elen.toNat)
    | _ => false

/-- The Rock Ridge detection of `iso9660_mount_parse` on the first root sector. -/
def detectRockridge (sector : Sector) : Bool :=
  let rlen := (sector.val.getD 0 0).toNat
  if rlen < 34 then false
  else
    match getSuArea sector 0 rlen (sector.val.getD 32 0).toNat with
    | none => false
    | some su => suspHasSp su.length su

/-- `iso9660_mount_parse` on a device with sectors of 2048 bytes. -/
def iso9660MountParse (device : Device) : Except VfsError IsoMount :=
  match device pvdLba with
  | none => .error .eio
  | some sector =>
    let sec := sector.val
    if sec.getD 0 0 ≠ 1 then .error .einval
    else if (sec.drop 1).take 5 ≠ [67, 68, 48, 48, 49] then .error .einval
    else if sec.getD 6 0 ≠ 1 then .error .einval
    else if readLE 2 sec 128 ≠ logicalBlockSize then .error .einval
    else
      let root : Extent := ⟨rdU32le sec (156 + 2), rdU32le sec (156 + 10)⟩
      .ok ⟨root, ((device root.lba).map detectRockridge).getD false⟩

end CupidOs.Iso9660
