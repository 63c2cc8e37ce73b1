import CupidOs.Bytes.Codec

/-!
# The ELF loader

`elf_exec` in `exec.c` reads the headers of a file, reserves and clears the pages that its
segments span, and copies every segment to its address. The result is the reserved region, the
entry address and the bytes that were stored, in order.

An open file is its content and a position. A seek to a negative position goes to the start, as in
the drivers.
-/

namespace CupidOs.Exec

open Bytes List

/-- `EXEC_MAX_SIZE` -/
def execMaxSize : Nat := 256 * 1024

/-- `IDENTITY_MAP_SIZE` -/
def identityMapSize : Nat := 512 * 1024 * 1024

/-- `PAGE_SIZE` -/
def pageSize : Nat := 4096

/-! ## Files -/

/-- An open file -/
structure File where
  content : List UInt8
  pos : Nat

/-- `vfs_read` -/
def File.read (f : File) (count : Nat) : List UInt8 × File :=
  let bytes := (f.content.drop f.pos).take count
  (bytes, { f with pos := f.pos + bytes.length })

/-- Where `vfs_seek` with `SEEK_SET` goes: the offset is an `int32_t` -/
def seekPos (offset : Nat) : Nat := if offset < 2 ^ 31 then offset else 0

/-- `vfs_seek` with `SEEK_SET` -/
def File.seek (f : File) (offset : Nat) : File := { f with pos := seekPos offset }

/-! ## Headers -/

/-- The fields of `elf32_ehdr_t` that the loader reads -/
structure Ehdr where
  ident : List UInt8
  type : Nat
  machine : Nat
  entry : Nat
  phoff : Nat
  phnum : Nat

/-- The fields of `elf32_phdr_t` that the loader reads -/
structure Phdr where
  type : Nat
  offset : Nat
  vaddr : Nat
  filesz : Nat
  memsz : Nat
  deriving DecidableEq

/-- The layout of `elf32_ehdr_t` -/
def Ehdr.ofBytes (bytes : List UInt8) : Ehdr where
  ident := bytes.take 16
  type := readLE 2 bytes 16
  machine := readLE 2 bytes 18
  entry := readLE 4 bytes 24
  phoff := readLE 4 bytes 28
  phnum := readLE 2 bytes 44

/-- The layout of `elf32_phdr_t` -/
def Phdr.ofBytes (bytes : List UInt8) : Phdr where
  type := readLE 4 bytes 0
  offset := readLE 4 bytes 4
  vaddr := readLE 4 bytes 8
  filesz := readLE 4 bytes 16
  memsz := readLE 4 bytes 20

/-- `elf_validate_header` -/
def elfValidateHeader (h : Ehdr) : Bool :=
  h.ident.take 6 = [0x7F, 69, 76, 70, 1, 1] ∧ h.type = 2 ∧ h.machine = 3 ∧ h.phnum ≠ 0 ∧
    h.phnum ≤ 16

/-- The loop that reads the program headers -/
def readPhdrs : Nat → File → Option (List Phdr)
  | 0, _ => some []
  | n + 1, f =>
    let (bytes, f) := f.read 32
    if bytes.length < 32 then none else (readPhdrs n f).map (Phdr.ofBytes bytes :: ·)

/-- A segment that is loaded: `PT_LOAD` with a size in memory -/
def Phdr.loads (p : Phdr) : Bool := p.type = 1 ∧ p.memsz ≠ 0

/-- The loop that computes `min_vaddr`, `max_vaddr` and `load_count` -/
def scan : List Phdr → Nat → Nat → Nat → Option (Nat × Nat × Nat)
  | [], lo, hi, count => some (lo, hi, count)
  | p :: rest, lo, hi, count =>
    if p.loads then
      if p.memsz > identityMapSize ∨ p.vaddr > identityMapSize - p.memsz then none
      else
        let segEnd := (p.vaddr + p.memsz) % 2 ^ 32
        scan rest (if p.vaddr < lo then p.vaddr else lo) (if segEnd > hi then segEnd else hi)
          (count + 1)
    else scan rest lo hi count

/-! ## Loading -/

/-- Bytes stored at consecutive 32-bit addresses. -/
def storesAt (address : Nat) (bytes : List UInt8) : List (Nat × UInt8) :=
  bytes.mapIdx fun i byte => ((address + i) % 2 ^ 32, byte)

/-- The loop that copies a segment in chunks of 512 bytes -/
def copyLoop (dest : Nat) : Nat → Nat → Nat → File → List (Nat × UInt8)
  | 0, _, _, _ => []
  | fuel + 1, remaining, written, f =>
    if remaining > 0 then
      let (bytes, f) := f.read (min remaining 512)
      if bytes.length = 0 then []
      else
        storesAt (dest + written) bytes ++
          copyLoop dest fuel (remaining - bytes.length) (written + bytes.length) f
    else []

/-- The loop over the segments -/
def loadSegments (f : File) (phdrs : List Phdr) : List (Nat × UInt8) :=
  phdrs.flatMap fun p =>
    if p.loads && 0 < p.filesz then copyLoop p.vaddr p.filesz p.filesz 0 (f.seek p.offset) else []

/-- What `elf_exec` has done when it creates the process -/
structure Image where
  base : Nat
  size : Nat
  entry : Nat
  segments : List Phdr
  stores : List (Nat × UInt8)

inductive ExecError where
  | einval
  | eio
  deriving DecidableEq

/-- `elf_exec` behind the headers: checks of the range, reservation, loading -/
def loadImage (f : File) (entry : Nat) (phdrs : List Phdr) : Except ExecError Image :=
  match scan phdrs 0xFFFFFFFF 0 0 with
  | none => .error .einval
  | some (lo, hi, count) =>
    let totalSize := (hi + 2 ^ 32 - lo) % 2 ^ 32
    if count = 0 then .error .einval
    else if totalSize = 0 ∨ totalSize > execMaxSize then .error .einval
    else if lo < 0x00500000 then .error .einval
    else if hi > identityMapSize then .error .einval
    else
      let pageBase := lo / pageSize * pageSize
      let pageEnd := (hi + 0xFFF) % 2 ^ 32 / pageSize * pageSize
      let size := pageEnd - pageBase
      .ok ⟨pageBase, size, entry, phdrs.filter Phdr.loads,
        storesAt pageBase (replicate size 0) ++ loadSegments f phdrs⟩

/-- `elf_exec` up to the creation of the process, on a file with this content -/
def elfExec (content : List UInt8) : Except ExecError Image :=
  let (bytes, f) := (File.mk content 0).read 52
  if bytes.length < 52 then .error .eio
  else
    let ehdr := Ehdr.ofBytes bytes
    if elfValidateHeader ehdr then
      match readPhdrs ehdr.phnum (f.seek ehdr.phoff) with
      | none => .error .eio
      | some phdrs => loadImage f ehdr.entry phdrs
    else .error .einval

/-! ## What is stored where -/

/-- The bytes of the file that a segment gets. -/
def Phdr.bytes (content : List UInt8) (p : Phdr) : List UInt8 :=
  (content.drop (seekPos p.offset)).take p.filesz

lemma storesAt_append (address : Nat) (first second : List UInt8) :
    storesAt address (first ++ second) =
      storesAt address first ++ storesAt (address + first.length) second := by
  unfold storesAt
  rw [mapIdx_append]
  simp only [add_assoc, add_comm first.length]

lemma take_chunk (bytes : List UInt8) {n count : Nat} (le : n ≤ count) :
    bytes.take n ++ (bytes.drop (bytes.take n).length).take (count - (bytes.take n).length) =
      bytes.take count := by
  have same : bytes.take n = bytes.take (bytes.take n).length := by
    rw [length_take]
    exact take_eq_take_min
  have short : (bytes.take n).length ≤ count := (length_take_le n bytes).trans le
  nth_rewrite 1 [same]
  rw [← take_add, Nat.add_sub_cancel' short]

/-- Chunk by chunk the segment gets its bytes of the file. -/
theorem copyLoop_eq (dest fuel remaining written : Nat) (f : File) (enough : remaining ≤ fuel) :
    copyLoop dest fuel remaining written f =
      storesAt (dest + written) ((f.content.drop f.pos).take remaining) := by
  induction fuel generalizing remaining written f with
  | zero =>
    rw [Nat.le_zero.mp enough]
    rfl
  | succ fuel ih =>
    have whole := take_chunk (f.content.drop f.pos) (min_le_left remaining 512)
    rw [copyLoop]
    by_cases more : remaining > 0
    swap
    · rw [if_neg more, Nat.eq_zero_of_not_pos more]
      rfl
    rw [if_pos more, File.read, ← whole]
    dsimp only
    split
    · rename_i empty
      have atEnd : f.content.drop f.pos = [] := by
        apply length_eq_zero_iff.mp
        rw [length_take] at empty
        omega
      rw [atEnd]
      simp [storesAt]
    · rename_i some
      rw [ih _ _ _ (by omega), storesAt_append, drop_drop, add_assoc]

lemma loadSegments_eq (f : File) (phdrs : List Phdr) : loadSegments f phdrs =
      (phdrs.filter Phdr.loads).flatMap fun p => storesAt p.vaddr (p.bytes f.content) := by
  unfold loadSegments
  induction phdrs with
  | nil => rfl
  | cons p phdrs ih =>
    rw [flatMap_cons, ih, filter_cons]
    by_cases loads : p.loads = true
    · rw [if_pos loads, flatMap_cons, loads, Bool.true_and]
      congr 1
      by_cases sized : 0 < p.filesz
      · rw [if_pos (decide_eq_true sized), copyLoop_eq _ _ _ _ _ le_rfl]
        rfl
      · rw [if_neg (by simpa using sized), Phdr.bytes, Nat.eq_zero_of_not_pos sized]
        rfl
    · rw [if_neg loads, if_neg (by simp [loads]), nil_append]

/-! ## The region -/

/-- The header of a file. -/
def header (content : List UInt8) : Ehdr := Ehdr.ofBytes (content.take 52)

/-- The program headers of a file whose segments are loaded. -/
def loadable (content : List UInt8) : List Phdr :=
  ((readPhdrs (header content).phnum ⟨content, seekPos (header content).phoff⟩).getD []).filter
    Phdr.loads

/-- The start of the page of an address. -/
def pageDown (address : Nat) : Nat := address / pageSize * pageSize

/-- The start of the first page from an address on. -/
def pageUp (address : Nat) : Nat := (address + 0xFFF) / pageSize * pageSize

lemma scan_spec {phdrs : List Phdr} {lo hi count lo' hi' count' : Nat}
    (scanned : scan phdrs lo hi count = some (lo', hi', count')) :
    (∀ p ∈ phdrs.filter Phdr.loads, lo' ≤ p.vaddr ∧ p.vaddr + p.memsz ≤ hi') ∧
      lo' ≤ lo ∧ hi ≤ hi' ∧ hi' ≤ max hi identityMapSize ∧
        count' = count + (phdrs.filter Phdr.loads).length ∧
        (lo' = lo ∨ ∃ p ∈ phdrs.filter Phdr.loads, p.vaddr = lo') ∧
        (hi' = hi ∨ ∃ p ∈ phdrs.filter Phdr.loads, p.vaddr + p.memsz = hi') := by
  induction phdrs generalizing lo hi count with
  | nil =>
    cases scanned
    simp
  | cons p phdrs ih =>
    rw [scan] at scanned
    by_cases loads : p.loads = true
    · rw [if_pos loads] at scanned
      by_cases far : p.memsz > identityMapSize ∨ p.vaddr > identityMapSize - p.memsz
      · rw [if_pos far] at scanned
        cases scanned
      rw [if_neg far] at scanned
      have noWrap : (p.vaddr + p.memsz) % 2 ^ 32 = p.vaddr + p.memsz := by
        apply Nat.mod_eq_of_lt
        rw [identityMapSize] at far
        omega
      obtain ⟨inside, low, high, bound, counted, lowest, highest⟩ := ih scanned
      rw [noWrap] at high bound highest
      rw [filter_cons_of_pos loads]
      simp only [exists_mem_cons_iff]
      refine ⟨fun q mem => ?_, ?_, ?_, ?_, ?_, ?_, ?_⟩
      rotate_left 5
      · split_ifs at lowest <;> tauto
      · split_ifs at highest <;> tauto
      all_goals clear lowest highest
      · rcases mem_cons.mp mem with rfl | mem
        · split_ifs at low high <;> omega
        · exact inside q mem
      all_goals try rw [length_cons]
      all_goals split_ifs at low high bound <;> omega
    · rw [if_neg loads] at scanned
      rw [filter_cons_of_neg loads]
      exact ih scanned

/-- What a successful load has reserved and stored, with the addresses that the segments span. -/
structure Placed (content : List UInt8) (image : Image) (lo hi : Nat) : Prop where
  low : 0x00500000 ≤ lo
  high : hi ≤ identityMapSize
  nonempty : lo < hi
  span : hi - lo ≤ execMaxSize
  base : image.base = pageDown lo
  stop : image.base + image.size = pageUp hi
  segments : ∀ p ∈ image.segments, lo ≤ p.vaddr ∧ p.vaddr + p.memsz ≤ hi
  lowest : ∃ p ∈ image.segments, p.vaddr = lo
  highest : ∃ p ∈ image.segments, p.vaddr + p.memsz = hi
  stores : image.stores = storesAt image.base (replicate image.size 0) ++
    image.segments.flatMap fun p => storesAt p.vaddr (p.bytes content)

lemma loadImage_spec {f : File} {entry : Nat} {phdrs : List Phdr} {image : Image}
    (ok : loadImage f entry phdrs = .ok image) :
    image.entry = entry ∧ image.segments = phdrs.filter Phdr.loads ∧
      ∃ lo hi, Placed f.content image lo hi := by
  unfold loadImage at ok
  cases scanned : scan phdrs 0xFFFFFFFF 0 0 with
  | none =>
    rw [scanned] at ok
    cases ok
  | some range =>
    obtain ⟨lo, hi, count⟩ := range
    obtain ⟨inside, low, -, bound, counted, lowest, highest⟩ := scan_spec scanned
    rw [scanned] at ok
    dsimp only at ok
    split_ifs at ok with empty large below above
    cases ok
    have some : phdrs.filter Phdr.loads ≠ [] := by
      intro none
      rw [none] at counted
      exact empty counted
    obtain ⟨p, mem⟩ := exists_mem_of_ne_nil _ some
    have first := inside p mem
    have sized : p.memsz ≠ 0 := by
      have loads := (mem_filter.mp mem).2
      rw [Phdr.loads, decide_eq_true_iff] at loads
      exact loads.2
    rw [identityMapSize] at bound
    have total : (hi + 2 ^ 32 - lo) % 2 ^ 32 = hi - lo := by omega
    rw [total] at large
    refine ⟨rfl, rfl, lo, hi, by omega, not_lt.mp above, by omega, by omega, rfl, ?_, inside,
      lowest.resolve_left (by omega), highest.resolve_left (by omega), ?_⟩
    · dsimp only
      rw [Nat.mod_eq_of_lt (by omega), pageUp]
      have order : lo / pageSize ≤ (hi + 0xFFF) / pageSize := Nat.div_le_div_right (by omega)
      have pages := Nat.mul_le_mul_right pageSize order
      omega
    · rw [loadSegments_eq]

lemma elfExec_spec {content : List UInt8} {image : Image} (ok : elfExec content = .ok image) :
    image.entry = (header content).entry ∧ image.segments = loadable content ∧
      ∃ lo hi, Placed content image lo hi := by
  unfold elfExec File.read at ok
  dsimp only at ok
  split_ifs at ok
  split at ok
  · cases ok
  case h_2 phdrs headers =>
    obtain ⟨entry, segments, placed⟩ := loadImage_spec ok
    refine ⟨entry, ?_, placed⟩
    rw [segments, loadable]
    exact congrArg (fun found => (Option.getD found []).filter Phdr.loads) headers.symm

lemma mem_storesAt {address : Nat} {bytes : List UInt8} {store : Nat × UInt8} :
    store ∈ storesAt address bytes ↔
      ∃ i, ∃ inside : i < bytes.length, ((address + i) % 2 ^ 32, bytes[i]) = store := by
  rw [storesAt, mem_mapIdx]

/-- The stores of bytes stay below an address exactly if the bytes do. -/
theorem storesAt_inside_iff {address base stop : Nat} (bytes : List UInt8)
    (above : base ≤ address) (below : address ≤ stop) (small : stop < 2 ^ 32) :
    (∀ store ∈ storesAt address bytes, base ≤ store.1 ∧ store.1 < stop) ↔
      address + bytes.length ≤ stop := by
  constructor
  · intro inside
    by_contra long
    have index : stop - address < bytes.length := by omega
    obtain ⟨-, less⟩ := inside _ (mem_storesAt.mpr ⟨stop - address, index, rfl⟩)
    rw [Nat.add_sub_cancel' below, Nat.mod_eq_of_lt small] at less
    exact lt_irrefl _ less
  · rintro fits store mem
    obtain ⟨i, inside, rfl⟩ := mem_storesAt.mp mem
    rw [Nat.mod_eq_of_lt (by omega)]
    omega

/-- The loader writes inside the pages that it has reserved, these are pages for programs of at most
`EXEC_MAX_SIZE` bytes, and the process starts in them. -/
structure Contained (image : Image) : Prop where
  stores : ∀ store ∈ image.stores, image.base ≤ store.1 ∧ store.1 < image.base + image.size
  low : 0x00500000 ≤ image.base
  high : image.base + image.size ≤ identityMapSize
  span : ∃ lo hi, hi - lo ≤ execMaxSize ∧ image.base = pageDown lo ∧
    image.base + image.size = pageUp hi
  entry : image.base ≤ image.entry ∧ image.entry < image.base + image.size

lemma pageDown_mono {first second : Nat} (le : first ≤ second) : pageDown first ≤ pageDown second :=
  Nat.mul_le_mul_right pageSize (Nat.div_le_div_right le)

lemma pageUp_mono {first second : Nat} (le : first ≤ second) : pageUp first ≤ pageUp second :=
  Nat.mul_le_mul_right pageSize (Nat.div_le_div_right (Nat.add_le_add_right le _))

section

variable {content : List UInt8} {image : Image} {lo hi : Nat} (placed : Placed content image lo hi)
include placed

lemma Placed.le_base_iff (address : Nat) :
    image.base ≤ address ↔ ∃ p ∈ image.segments, pageDown p.vaddr ≤ address := by
  rw [placed.base]
  constructor
  · obtain ⟨p, mem, rfl⟩ := placed.lowest
    exact fun le => ⟨p, mem, le⟩
  · rintro ⟨p, mem, le⟩
    exact (pageDown_mono (placed.segments p mem).1).trans le

lemma Placed.le_stop_iff (address : Nat) : address ≤ image.base + image.size ↔
    ∃ p ∈ image.segments, address ≤ pageUp (p.vaddr + p.memsz) := by
  rw [placed.stop]
  constructor
  · obtain ⟨p, mem, rfl⟩ := placed.highest
    exact fun le => ⟨p, mem, le⟩
  · rintro ⟨p, mem, le⟩
    exact le.trans (pageUp_mono (placed.segments p mem).2)

lemma Placed.bounds : 0x00500000 ≤ image.base ∧ image.base + image.size ≤ identityMapSize ∧
    image.base ≤ lo ∧ hi ≤ image.base + image.size := by
  have low := placed.low
  have high := placed.high
  rw [placed.stop, placed.base]
  simp only [pageDown, pageUp, pageSize, identityMapSize] at high ⊢
  omega

lemma Placed.stores_inside_iff :
    (∀ store ∈ image.stores, image.base ≤ store.1 ∧ store.1 < image.base + image.size) ↔
      ∀ p ∈ image.segments, p.vaddr + (p.bytes content).length ≤ image.base + image.size := by
  have bounds := placed.bounds
  rw [identityMapSize] at bounds
  have segment : ∀ p ∈ image.segments,
      image.base ≤ p.vaddr ∧ p.vaddr ≤ image.base + image.size := by
    intro p mem
    have inside := placed.segments p mem
    omega
  rw [placed.stores]
  simp only [forall_mem_append, forall_mem_flatMap]
  rw [storesAt_inside_iff _ le_rfl (by omega) (by omega), length_replicate]
  simp only [Nat.le_refl, true_and]
  exact forall₂_congr fun p mem =>
    storesAt_inside_iff _ (segment p mem).1 (segment p mem).2 (by omega)

end

/-- The loader checks the size of a segment in memory, but copies as many bytes as the segment has
in the file, and it does not check the entry at all. -/
theorem elf_exec_contained_iff {content : List UInt8} {image : Image}
    (ok : elfExec content = .ok image) :
    Contained image ↔
      (∀ p ∈ loadable content, ∃ last ∈ loadable content,
        p.vaddr + (p.bytes content).length ≤ pageUp (last.vaddr + last.memsz)) ∧
      (∃ first ∈ loadable content, pageDown first.vaddr ≤ (header content).entry) ∧
        ∃ last ∈ loadable content, (header content).entry < pageUp (last.vaddr + last.memsz) := by
  obtain ⟨entry, segments, lo, hi, placed⟩ := elfExec_spec ok
  have bounds := placed.bounds
  rw [← entry, ← segments, ← placed.le_base_iff]
  simp only [← placed.le_stop_iff, ← Nat.add_one_le_iff (n := image.entry)]
  constructor
  · exact fun contained => ⟨placed.stores_inside_iff.mp contained.stores, contained.entry⟩
  · rintro ⟨inside, start⟩
    exact ⟨placed.stores_inside_iff.mpr inside, bounds.1, bounds.2.1,
      ⟨lo, hi, placed.span, placed.base, placed.stop⟩, start⟩

/-- A header of an executable file for the i386, with the program headers behind it. -/
def ehdrBytes (entry phnum : Nat) : List UInt8 :=
  [0x7F, 69, 76, 70, 1, 1, 1] ++ replicate 9 0 ++ encodeLE 2 2 ++ encodeLE 2 3 ++
    encodeLE 4 1 ++ encodeLE 4 entry ++ encodeLE 4 52 ++ replicate 8 0 ++ encodeLE 2 52 ++
    encodeLE 2 32 ++ encodeLE 2 phnum ++ replicate 6 0

/-- The program header of a segment. -/
def phdrBytes (offset vaddr filesz memsz flags : Nat) : List UInt8 :=
  encodeLE 4 1 ++ encodeLE 4 offset ++ encodeLE 4 vaddr ++ encodeLE 4 vaddr ++ encodeLE 4 filesz ++
    encodeLE 4 memsz ++ encodeLE 4 flags ++ encodeLE 4 4

lemma exists_image {content : List UInt8} {P : Image → Prop} [DecidablePred P]
    (loaded : (elfExec content).toOption.any P = true) :
    ∃ image, elfExec content = .ok image ∧ P image := by
  cases result : elfExec content with
  | error _ => simp [result, Except.toOption] at loaded
  | ok image => exact ⟨image, rfl, by simpa [result, Except.toOption] using loaded⟩

theorem one_byte_program_contained :
    ∃ image, elfExec (ehdrBytes 0x00500000 1 ++ phdrBytes 0 0x00500000 1 1 5) = .ok image ∧
      Contained image := by
  obtain ⟨image, ok, -⟩ := @exists_image
    (ehdrBytes 0x00500000 1 ++ phdrBytes 0 0x00500000 1 1 5) (fun _ => True) inferInstance
    (by decide +kernel)
  exact ⟨image, ok, (elf_exec_contained_iff ok).mpr (by decide +kernel)⟩

/-- A segment of one byte in memory and two in the file, at the last byte of a page: the second byte
goes to the next page.  The entry is in the kernel. -/
theorem two_bytes_overrun :
    ∃ image, elfExec (ehdrBytes 0x00100000 1 ++ phdrBytes 0 0x00500FFF 2 1 5) = .ok image ∧
      image.base + image.size = 0x00501000 ∧ (0x00501000, 69) ∈ image.stores ∧
        image.entry = 0x00100000 ∧ ¬ Contained image := by
  obtain ⟨image, ok, stop, segments, entry⟩ := @exists_image
    (ehdrBytes 0x00100000 1 ++ phdrBytes 0 0x00500FFF 2 1 5) (fun image =>
      image.base + image.size = 0x00501000 ∧ image.segments = [⟨1, 0, 0x00500FFF, 2, 1⟩] ∧
        image.entry = 0x00100000) inferInstance (by decide +kernel)
  have stored : (0x00501000, 69) ∈ image.stores := by
    obtain ⟨-, -, lo, hi, placed⟩ := elfExec_spec ok
    rw [placed.stores, segments]
    exact mem_append_right _ (by decide)
  refine ⟨image, ok, stop, stored, entry, fun contained => ?_⟩
  have inside := contained.stores _ stored
  rw [stop] at inside
  exact lt_irrefl _ inside.2

end CupidOs.Exec
