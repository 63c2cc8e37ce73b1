import Mathlib.Algebra.Group.Nat.Defs

/-!
# Shared vocabulary of the file systems

The constants and small types of `kernel/fs/vfs.h` that every file system of
the kernel uses.
-/

namespace CupidOs.Vfs

/-- The negative return codes of `vfs.h`. -/
inductive VfsError
  | enoent
  | eio
  | eacces
  | eexist
  | enotdir
  | eisdir
  | einval
  | emfile
  | enospc
  | enosys
  deriving DecidableEq, Repr

/-- The open flags that the file systems test. -/
structure OpenFlags where
  wronly : Bool := false
  rdwr : Bool := false
  creat : Bool := false
  trunc : Bool := false
  append : Bool := false
  deriving DecidableEq, Repr

/-- `SEEK_SET`, `SEEK_CUR`, `SEEK_END`, or any other value of `whence`. -/
inductive Whence
  | set
  | cur
  | fromEnd
  | other
  deriving DecidableEq, Repr

/-- `VFS_TYPE_FILE` and `VFS_TYPE_DIR`. -/
inductive NodeType
  | file
  | dir
  deriving DecidableEq, Repr

/-- `VFS_MAX_NAME`: names are stored in this many bytes, terminator included. -/
def vfsMaxName : Nat := 128

/-- The bytes of a caller's buffer; a count is a 32-bit number. -/
abbrev Buffer := { bytes : List UInt8 // bytes.length < 2 ^ 32 }

/-- The value of a 32-bit pattern read as `int32_t`. -/
def toInt32 (value : Int) : Int := Int.bmod value (2 ^ 32)

end CupidOs.Vfs
