import Mathlib.Logic.Function.Basic

/-!
# Sectors and disks

Every block device of the kernel is read and written in sectors of
`SECTOR_SIZE` bytes.  A disk is the array of its sectors, addressed by logical
block address.
-/

namespace CupidOs.Disk

/-- `SECTOR_SIZE`. -/
def sectorSize : Nat := 512

/-- The bytes of one sector. -/
abbrev Sector := Fin sectorSize → UInt8

/-- A flat array of sectors. -/
abbrev Image := Nat → Sector

end CupidOs.Disk
