import CupidOs.Homefs.Core

/-!
# The loops that grow a buffer

`homefs_node_ensure_capacity` and `fat16_vfs_ensure_capacity` double a 32-bit capacity
until it covers a write.  Doubling gets past `2 ^ 31` from every capacity but zero, and from a power
of two no further: the next round gives zero.
-/

namespace CupidOs.Homefs

open Vfs
open Ramfs (File)

/-- `fat16_vfs_handle_t`; `fatFile` is what can be read from `fat_file`, and `write_len` and
`write_cap` are size and capacity of the write buffer. -/
structure Fat16Handle where
  isDir : Bool
  writable : Bool
  fatFile : Option Buffer
  writeBuf : Option File
  cursor : Nat
  dirty : Bool

/-- `fat16_vfs_round_capacity`. -/
def fat16VfsRoundCapacity (need : Nat) : Nat := max 1024 ((need + 511) % 2 ^ 32 / 512 * 512)

/-- `fat16_vfs_prepare_write_buffer` for a file handle without a buffer: the handle, its buffer, and
whether the contents leave it. -/
def fat16VfsPrepareWriteBuffer (h : Fat16Handle) (flags : OpenFlags) (allocOk readOk : Bool) :
    Except VfsError (Fat16Handle × File × Bool) :=
  let initial := if flags.trunc then [] else (h.fatFile.map Subtype.val).getD []
  let capacity := fat16VfsRoundCapacity initial.length
  if !allocOk then .error .eio
  else if decide (0 < initial.length) && !readOk then .error .eio
  else
    let file : File := ⟨Ramfs.store (List.replicate capacity 0) 0 initial, initial.length, capacity⟩
    .ok ({ h with
      writeBuf := some file
      cursor := if flags.append then initial.length else 0
      dirty := flags.trunc }, file, Ramfs.leaves capacity 0 initial.length)

/-- `fat16_vfs_ensure_capacity`; `none` if the loop does not end, and the flag tells of a
copy that leaves the new buffer. -/
def fat16VfsEnsureCapacity (file : File) (need : Nat) (allocOk : Bool) :
    Option (Except VfsError (File × Bool)) :=
  if need ≤ file.capacity then some (.ok (file, false))
  else
    (growLoop 33 (if file.capacity = 0 then 1024 else file.capacity) need).map fun capacity =>
      if allocOk then .ok (Ramfs.reallocate file capacity) else .error .eio

/-- The part of `fat16_vfs_write` behind the preparation of the buffer. -/
def fat16BufferWrite (h : Fat16Handle) (file : File) (bytes : Buffer) (allocOk : Bool) :
    Option (Except VfsError (Fat16Handle × Bool)) :=
  let stop := (h.cursor + bytes.val.length) % 2 ^ 32
  (fat16VfsEnsureCapacity file stop allocOk).map fun grown =>
    grown.map fun (file, overrun) =>
      let gap := List.replicate (h.cursor - file.size) 0
      let cleared := { file with data := Ramfs.store file.data file.size gap }
      let stored := Ramfs.storeAt cleared h.cursor stop bytes.val
      ({ h with writeBuf := some stored.1, cursor := stop, dirty := true },
        overrun || Ramfs.leaves file.data.length file.size gap.length || stored.2)

/-- `fat16_vfs_write`; `allocOk` and `readOk` are for the preparation, `growOk` for the growth. -/
def fat16VfsWrite (h : Fat16Handle) (bytes : Buffer) (allocOk readOk growOk : Bool) :
    Option (Except VfsError (Fat16Handle × Bool)) :=
  if h.isDir then some (.error .einval)
  else if bytes.val.length = 0 then some (.ok (h, false))
  else if !h.writable then some (.error .eacces)
  else
    match h.writeBuf with
    | some file => fat16BufferWrite h file bytes growOk
    | none =>
      match fat16VfsPrepareWriteBuffer h {} allocOk readOk with
      | .error code => some (.error code)
      | .ok (ready, file, overrun) =>
        (fat16BufferWrite ready file bytes growOk).map fun written =>
          written.map fun (after, outside) => (after, overrun || outside)

/-! ## The loop -/

/-- The capacities of files that are created empty and grow by writes. -/
def Doubled (capacity : Nat) : Prop := capacity = 0 ∨ ∃ bits < 32, capacity = 2 ^ bits

lemma doubled_256 : Doubled 256 := .inr ⟨8, by decide, rfl⟩

lemma doubled_1024 : Doubled 1024 := .inr ⟨10, by decide, rfl⟩

variable {capacity need : Nat}

/-- Doubling gets to `2 ^ 31` before it wraps. -/
lemma growLoop_isSome {fuel : Nat} (within : need ≤ 2 ^ 31) (enough : 2 ^ 31 ≤ capacity * 2 ^ fuel) :
    (growLoop (fuel + 1) capacity need).isSome := by
  induction fuel generalizing capacity with
  | zero =>
    rw [growLoop, if_neg (by omega)]
    rfl
  | succ fuel ih =>
    rw [growLoop]
    split
    · apply ih
      rw [Nat.mod_eq_of_lt (by omega), mul_assoc, ← pow_succ']
      exact enough
    · rfl

lemma Doubled.double (doubled : Doubled capacity) : Doubled (capacity * 2 % 2 ^ 32) := by
  rcases doubled with rfl | ⟨bits, small, rfl⟩
  · exact .inl rfl
  · rw [← pow_succ]
    by_cases last : bits = 31
    · rw [last]
      exact .inl rfl
    · rw [Nat.mod_eq_of_lt (Nat.pow_lt_pow_right (by decide) (by omega))]
      exact .inr ⟨bits + 1, by omega, rfl⟩

lemma Doubled.le (doubled : Doubled capacity) : capacity ≤ 2 ^ 31 := by
  rcases doubled with rfl | ⟨bits, small, rfl⟩
  · exact Nat.zero_le _
  · exact Nat.pow_le_pow_right (by decide) (by omega)

/-- Doubling never gets from a power of two past `2 ^ 31`. -/
lemma Doubled.growLoop_eq_none (doubled : Doubled capacity) (beyond : 2 ^ 31 < need) (fuel : Nat) :
    growLoop fuel capacity need = none := by
  induction fuel generalizing capacity with
  | zero => rfl
  | succ fuel ih =>
    rw [growLoop, if_pos (doubled.le.trans_lt beyond)]
    exact ih doubled.double

lemma Doubled.of_growLoop {fuel reached : Nat} (doubled : Doubled capacity)
    (grown : growLoop fuel capacity need = some reached) : Doubled reached := by
  induction fuel generalizing capacity with
  | zero => cases grown
  | succ fuel ih =>
    rw [growLoop] at grown
    split at grown
    · exact ih doubled.double grown
    · exact Option.some.inj grown ▸ doubled

lemma Doubled.start (doubled : Doubled capacity) {first : Nat} (power : Doubled first) :
    Doubled (if capacity = 0 then first else capacity) := by
  split
  · exact power
  · exact doubled

/-! ## Writes -/

variable {file : File} {position : Nat} {bytes : Buffer} {allocOk : Bool}

lemma growLoop_start_isSome {first : Nat} (positive : 0 < first) (within : need ≤ 2 ^ 31) :
    (growLoop 33 (if capacity = 0 then first else capacity) need).isSome := by
  have start : 1 ≤ if capacity = 0 then first else capacity := by
    split <;> omega
  exact growLoop_isSome within
    ((by decide : 2 ^ 31 ≤ 1 * 2 ^ 32).trans (Nat.mul_le_mul_right _ start))

lemma homefsWrite_ends (within : (position + bytes.val.length) % 2 ^ 32 ≤ 2 ^ 31) :
    homefsWrite file position bytes allocOk ≠ .diverges := by
  obtain ⟨reached, grown⟩ : ∃ reached, growLoop 33 (if file.capacity = 0 then 256 else
      file.capacity) ((position + bytes.val.length) % 2 ^ 32) = some reached :=
    Option.isSome_iff_exists.mp (growLoop_start_isSome (by decide) within)
  simp only [homefsWrite, homefsNodeEnsureCapacity, grown]
  split_ifs <;> simp

lemma Doubled.homefsWrite_diverges (doubled : Doubled file.capacity)
    (beyond : 2 ^ 31 < (position + bytes.val.length) % 2 ^ 32) :
    homefsWrite file position bytes allocOk = .diverges := by
  have stuck := (doubled.start doubled_256).growLoop_eq_none beyond 33
  have small := (doubled.le.trans_lt beyond).not_ge
  simp only [homefsWrite, homefsNodeEnsureCapacity, if_neg small, stuck]

lemma Doubled.homefsNodeEnsureCapacity {grown : File} {overrun : Bool}
    (doubled : Doubled file.capacity)
    (ensured : homefsNodeEnsureCapacity file need allocOk = .ok grown overrun) :
    Doubled grown.capacity := by
  unfold Homefs.homefsNodeEnsureCapacity at ensured
  split at ensured
  · injection ensured with same
    exact same ▸ doubled
  · split at ensured
    · cases ensured
    case h_2 reached loop =>
      split at ensured
      · injection ensured with same
        exact same ▸ (doubled.start doubled_256).of_growLoop loop
      · cases ensured

lemma Doubled.homefsWrite {written : File} {stop : Nat} {overrun : Bool}
    (doubled : Doubled file.capacity)
    (wrote : homefsWrite file position bytes allocOk = .ok written stop overrun) :
    Doubled written.capacity := by
  simp only [Homefs.homefsWrite] at wrote
  split at wrote
  · cases wrote
  · cases wrote
  case h_3 ensured =>
    have grown := doubled.homefsNodeEnsureCapacity ensured
    injection wrote with same
    rw [← same]
    exact grown

lemma fat16BufferWrite_isSome (h : Fat16Handle) :
    (fat16BufferWrite h file bytes allocOk).isSome ↔
      (h.cursor + bytes.val.length) % 2 ^ 32 ≤ file.capacity ∨
        (growLoop 33 (if file.capacity = 0 then 1024 else file.capacity)
          ((h.cursor + bytes.val.length) % 2 ^ 32)).isSome := by
  rw [fat16BufferWrite, Option.isSome_map, fat16VfsEnsureCapacity]
  split
  case isTrue fits => exact iff_of_true rfl (.inl fits)
  case isFalse short => rw [Option.isSome_map, or_iff_right short]

/-- Where a write ends; the preparation of a buffer sets the cursor to the start of the file. -/
def Fat16Handle.stop (h : Fat16Handle) (bytes : Buffer) : Nat :=
  ((if h.writeBuf.isSome then h.cursor else 0) + bytes.val.length) % 2 ^ 32

lemma fat16VfsPrepareWriteBuffer_cursor {h ready : Fat16Handle} {flags : OpenFlags}
    {readOk overrun : Bool} (noAppend : flags.append = false)
    (prepared : fat16VfsPrepareWriteBuffer h flags allocOk readOk = .ok (ready, file, overrun)) :
    ready.cursor = 0 := by
  simp only [fat16VfsPrepareWriteBuffer, noAppend, if_neg Bool.false_ne_true] at prepared
  generalize (if flags.trunc = true then [] else (h.fatFile.map Subtype.val).getD []) = initial
    at prepared
  split_ifs at prepared
  simp only [Except.ok.injEq, Prod.mk.injEq] at prepared
  rw [← prepared.1]

lemma fat16VfsWrite_ends {h : Fat16Handle} (within : h.stop bytes ≤ 2 ^ 31)
    (allocOk readOk growOk : Bool) : (fat16VfsWrite h bytes allocOk readOk growOk).isSome := by
  have ends {h : Fat16Handle} {file : File}
      (within : (h.cursor + bytes.val.length) % 2 ^ 32 ≤ 2 ^ 31) :
      (fat16BufferWrite h file bytes growOk).isSome :=
    (fat16BufferWrite_isSome h).mpr (.inr (growLoop_start_isSome (by decide) within))
  unfold fat16VfsWrite
  split_ifs
  · rfl
  · rfl
  · rfl
  split
  case h_1 file buffer =>
    rw [Fat16Handle.stop, buffer, Option.isSome_some, if_pos rfl] at within
    exact ends within
  case h_2 buffer =>
    rw [Fat16Handle.stop, buffer, Option.isSome_none, if_neg Bool.false_ne_true] at within
    split
    · rfl
    case h_2 ready file overrun prepared =>
      rw [Option.isSome_map]
      apply ends
      rwa [fat16VfsPrepareWriteBuffer_cursor rfl prepared]

/-- `homefs_write` and `fat16_vfs_write` end if the write does not end behind `2 ^ 31`. For files
that are created empty and grow by writes, and for buffers of such a capacity, only then. -/
theorem writes_end_iff_stop_within_half (file : File) (position : Nat) (h : Fat16Handle)
    (bytes : Buffer) (allocOk readOk growOk : Bool) :
    ((position + bytes.val.length) % 2 ^ 32 ≤ 2 ^ 31 →
        homefsWrite file position bytes growOk ≠ .diverges) ∧
      (Doubled file.capacity →
        (homefsWrite file position bytes growOk ≠ .diverges ↔
          (position + bytes.val.length) % 2 ^ 32 ≤ 2 ^ 31) ∧
        ∀ written stop overrun,
          homefsWrite file position bytes growOk = .ok written stop overrun →
            Doubled written.capacity) ∧
      (h.stop bytes ≤ 2 ^ 31 → (fat16VfsWrite h bytes allocOk readOk growOk).isSome) ∧
      ∀ buffer ∈ h.writeBuf, Doubled buffer.capacity → h.isDir = false → h.writable = true →
        bytes.val ≠ [] →
        ((fat16VfsWrite h bytes allocOk readOk growOk).isSome ↔ h.stop bytes ≤ 2 ^ 31) := by
  refine ⟨homefsWrite_ends, fun doubled => ⟨⟨fun ends => ?_, homefsWrite_ends⟩, ?_⟩,
    fun within => fat16VfsWrite_ends within allocOk readOk growOk, ?_⟩
  · by_contra beyond
    exact ends (doubled.homefsWrite_diverges (not_le.mp beyond))
  · exact fun written stop overrun wrote => doubled.homefsWrite wrote
  · intro buffer found doubled isFile writable nonempty
    refine ⟨fun ends => ?_, fun within => fat16VfsWrite_ends within allocOk readOk growOk⟩
    have buffered : h.writeBuf = some buffer := found
    simp only [fat16VfsWrite, isFile, writable, List.length_eq_zero_iff, nonempty, buffered,
      fat16BufferWrite_isSome, Bool.false_eq_true, Bool.not_true, if_false] at ends
    rw [Fat16Handle.stop, buffered, Option.isSome_some, if_pos rfl]
    by_contra beyond
    have stuck := (doubled.start doubled_1024).growLoop_eq_none (not_le.mp beyond) 33
    rcases ends with fits | grows
    · exact beyond (fits.trans doubled.le)
    · rw [stuck] at grows
      cases grows

/-- A write that ends at `2 ^ 31` comes to an end. -/
theorem last_byte_written :
    homefsWrite ⟨[], 0, 0⟩ 0x7FFFFFFF ⟨[1], by decide⟩ false ≠ .diverges :=
  (writes_end_iff_stop_within_half ⟨[], 0, 0⟩ 0x7FFFFFFF ⟨false, true, none, none, 0, false⟩
    ⟨[1], by decide⟩ true true false).1 (by decide)

/-- After a seek to `0x7FFFFFFF`, two bytes are one too many for any power of two. -/
theorem two_bytes_never_written :
    homefsSeek ⟨[], 0, 0⟩ 0 0x7FFFFFFF .set = some 0x7FFFFFFF ∧
      homefsWrite ⟨[], 0, 0⟩ 0x7FFFFFFF ⟨[1, 2], by decide⟩ true = .diverges ∧
      ∀ fuel, growLoop fuel 256 0x80000001 = none :=
  ⟨by decide, by decide +kernel, Doubled.growLoop_eq_none doubled_256 (by decide)⟩

end CupidOs.Homefs
