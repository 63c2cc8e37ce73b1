import CupidOs.Bytes.Memory
import CupidOs.Exec.Elf
import Mathlib.Data.List.GetD

/-!
# Executables of the assembler and the compiler

`as_write_elf` and `cc_write_elf` write the code at the offset `0x80` and the data behind it. The
padding is computed for two program headers, but a program without data has one, so its code
stands 32 bytes too early. The data base is 1 MB above the code base, and the loader takes images
of up to 256 KB.
-/

namespace CupidOs.Exec

open Bytes List

/-! ## The writers -/

/-- The body of `as_write_elf` and `cc_write_elf`, which differ in the two addresses -/
def writeElf (codeBase dataBase : Nat) (code data : List UInt8) (entryOffset : Nat) :
    Option (List UInt8) :=
  if code.length = 0 then none
  else
    let headersSize := 52 + 32 * 2
    let codeOffset := 0x80
    let codeSize := code.length
    let dataOffset := (codeOffset + codeSize + 3) / 4 * 4
    let dataSize := data.length
    some (ehdrBytes (codeBase + entryOffset) (if dataSize > 0 then 2 else 1) ++
        phdrBytes codeOffset codeBase codeSize codeSize 5 ++
        (if dataSize > 0 then phdrBytes dataOffset dataBase dataSize dataSize 6 else []) ++
        replicate (codeOffset - headersSize) 0 ++ code ++
        replicate (dataOffset - (codeOffset + codeSize)) 0 ++ data)

/-- `as_write_elf`, with `AS_AOT_CODE_BASE` and `AS_AOT_DATA_BASE` -/
def asWriteElf : List UInt8 → List UInt8 → Nat → Option (List UInt8) :=
  writeElf 0x01A00000 0x01B00000

/-- `cc_write_elf`, with `CC_AOT_CODE_BASE` and `CC_AOT_DATA_BASE` -/
def ccWriteElf : List UInt8 → List UInt8 → Nat → Option (List UInt8) :=
  writeElf 0x01000000 0x01100000

/-- The two writers. -/
inductive Writer where
  | as
  | cc

namespace Writer

def codeBase : Writer → Nat
  | as => 0x01A00000
  | cc => 0x01000000

def dataBase : Writer → Nat
  | as => 0x01B00000
  | cc => 0x01100000

/-- `AS_MAX_DATA` and `CC_MAX_DATA` -/
def maxData : Writer → Nat
  | as => 1024 * 1024
  | cc => 8192 * 1024

def write : Writer → List UInt8 → List UInt8 → Nat → Option (List UInt8)
  | as => asWriteElf
  | cc => ccWriteElf

lemma write_eq (writer : Writer) : writer.write = writeElf writer.codeBase writer.dataBase := by
  cases writer with
  | as => rfl
  | cc => rfl

end Writer

/-- `AS_MAX_CODE` and `CC_MAX_CODE` -/
def maxCode : Nat := 1024 * 1024

/-- A program in the buffers of the assembler or the compiler. -/
structure Program (writer : Writer) where
  code : List UInt8
  data : List UInt8
  entryOffset : Nat
  nonempty : code ≠ []
  codeFits : code.length ≤ maxCode
  dataFits : data.length ≤ writer.maxData
  entryInside : entryOffset ≤ code.length

/-- The memory after the stores of the loader. -/
def applyStores (stores : List (Nat × UInt8)) (memory : Memory) : Memory :=
  stores.foldl (fun memory store => memory.store8 store.1 store.2) memory

/-- The file is accepted, its code and data are placed, and the program is started. -/
def Runs {writer : Writer} (program : Program writer) : Prop :=
  ∃ file image, writer.write program.code program.data program.entryOffset = some file ∧
    elfExec file = .ok image ∧ image.entry = writer.codeBase + program.entryOffset ∧
    ∀ memory, (∀ i < program.code.length,
        applyStores image.stores memory (writer.codeBase + i) = program.code.getD i 0) ∧
      ∀ i < program.data.length,
        applyStores image.stores memory (writer.dataBase + i) = program.data.getD i 0

/-! ## Reading the headers back -/

lemma ofBytes_ehdrBytes (entry phnum : Nat) : Ehdr.ofBytes (ehdrBytes entry phnum) =
      ⟨[0x7F, 69, 76, 70, 1, 1, 1] ++ replicate 9 0, 2, 3, entry % 256 ^ 4, 52,
        phnum % 256 ^ 2⟩ := by
  have entryEq : readLE 4 (ehdrBytes entry phnum) 24 = entry % 256 ^ 4 :=
    decodeLE_encodeLE 4 entry
  have phnumEq : readLE 2 (ehdrBytes entry phnum) 44 = phnum % 256 ^ 2 :=
    decodeLE_encodeLE 2 phnum
  unfold Ehdr.ofBytes
  rw [entryEq, phnumEq]
  rfl

/-- A header for a segment, as the writers build it: the fields fit, and it has flags. -/
structure Segment where
  phdr : Phdr
  flags : Nat
  isLoad : phdr.type = 1
  words : phdr.offset < 2 ^ 32 ∧ phdr.vaddr < 2 ^ 32 ∧ phdr.filesz < 2 ^ 32 ∧ phdr.memsz < 2 ^ 32

def Segment.bytes (s : Segment) : List UInt8 :=
  phdrBytes s.phdr.offset s.phdr.vaddr s.phdr.filesz s.phdr.memsz s.flags

lemma Segment.ofBytes_bytes (s : Segment) : Phdr.ofBytes s.bytes = s.phdr := by
  have word : ∀ {value}, value < 2 ^ 32 → decodeLE (encodeLE 4 value) = value :=
    fun {value} less => (decodeLE_encodeLE 4 value).trans (Nat.mod_eq_of_lt less)
  obtain ⟨⟨type, offset, vaddr, filesz, memsz⟩, flags, isLoad, offsetFits, vaddrFits, fileszFits,
    memszFits⟩ := s
  obtain rfl : type = 1 := isLoad
  unfold Phdr.ofBytes
  congr 1
  · exact word offsetFits
  · exact word vaddrFits
  · exact word fileszFits
  · exact word memszFits

lemma readPhdrs_segments {segments : List Segment} {content rest : List UInt8} {pos : Nat}
    (next : content.drop pos = segments.flatMap Segment.bytes ++ rest) :
    readPhdrs segments.length ⟨content, pos⟩ = some (segments.map Segment.phdr) := by
  induction segments generalizing pos with
  | nil => rfl
  | cons s segments ih =>
    have length : s.bytes.length = 32 := rfl
    rw [flatMap_cons, append_assoc] at next
    have further := ih (drop_append_length next)
    rw [length_cons, readPhdrs, File.read]
    dsimp only
    rw [next, take_left' length, if_neg (Nat.not_lt.mpr length.ge), further, s.ofBytes_bytes]
    rfl

lemma elfExec_segments {entry : Nat} (entryFits : entry < 2 ^ 32) {segments : List Segment}
    (nonempty : segments.length ≠ 0) (few : segments.length ≤ 16) (rest : List UInt8) :
    elfExec (ehdrBytes entry segments.length ++ (segments.flatMap Segment.bytes ++ rest)) =
      loadImage ⟨ehdrBytes entry segments.length ++ (segments.flatMap Segment.bytes ++ rest), 52⟩
        entry (segments.map Segment.phdr) := by
  have length : (ehdrBytes entry segments.length).length = 52 := rfl
  have isEntry : entry % 256 ^ 4 = entry := Nat.mod_eq_of_lt entryFits
  have isCount : segments.length % 256 ^ 2 = segments.length := Nat.mod_eq_of_lt (by omega)
  unfold elfExec File.read
  dsimp only
  rw [drop_zero, take_left' length, length, if_neg (Nat.lt_irrefl _), ofBytes_ehdrBytes,
    isCount, isEntry, if_pos (by simp [elfValidateHeader, nonempty, few])]
  dsimp only
  rw [File.seek, seekPos, if_pos (by decide), readPhdrs_segments (drop_left' length)]

/-! ## The memory after the stores -/

lemma applyStores_append (first second : List (Nat × UInt8)) (memory : Memory) :
    applyStores (first ++ second) memory = applyStores second (applyStores first memory) :=
  foldl_append

lemma applyStores_storesAt {address : Nat} {bytes : List UInt8} (memory : Memory)
    (noWrap : address + bytes.length ≤ 2 ^ 32) :
    applyStores (storesAt address bytes) memory =
      memory.fill address bytes.length fun i => bytes.getD i 0 := by
  induction bytes generalizing address memory with
  | nil =>
    funext other
    exact (Memory.fill_of_outside _ _ (by simp; omega)).symm
  | cons byte bytes ih =>
    have split : storesAt address (byte :: bytes) =
        (address, byte) :: storesAt (address + 1) bytes := by
      rw [length_cons] at noWrap
      have first := storesAt_append address [byte] bytes
      rw [singleton_append] at first
      rw [first, storesAt, mapIdx_singleton, Nat.add_zero, Nat.mod_eq_of_lt (by omega)]
      rfl
    rw [length_cons] at noWrap
    rw [split, applyStores, foldl_cons, ← applyStores, ih _ (by omega)]
    funext other
    unfold Memory.fill Memory.store8
    dsimp only
    rw [length_cons]
    rcases Nat.lt_trichotomy other address with less | rfl | greater
    · rw [if_neg (by omega), if_neg (by omega), if_neg (by omega)]
    · rw [if_neg (by omega), if_pos rfl, if_pos (by omega), Nat.sub_self, getD_cons_zero]
    obtain ⟨k, rfl⟩ := Nat.exists_eq_add_of_lt greater
    have index : address + k + 1 - address = k + 1 := by omega
    have before : address + k + 1 - (address + 1) = k := by omega
    rw [index, before, getD_cons_succ]
    by_cases inside : k < bytes.length
    · rw [if_pos (by omega), if_pos (by omega)]
    · rw [if_neg (by omega), if_neg (by omega), if_neg (by omega)]

lemma applyStores_cleared {base size i : Nat} {bytes : List UInt8} (memory : Memory)
    (noWrap : base + size ≤ 2 ^ 32) (fits : bytes.length ≤ size) (inside : i < size) :
    applyStores (storesAt base (replicate size 0) ++ storesAt base bytes) memory (base + i) =
      bytes.getD i 0 := by
  have cleared := @applyStores_storesAt base (replicate size 0) memory (by simpa using noWrap)
  rw [applyStores_append, cleared, applyStores_storesAt _ (by omega), length_replicate]
  by_cases stored : i < bytes.length
  · exact Memory.fill_of_inside _ _ stored
  rw [Memory.fill_of_outside _ _ (by omega), Memory.fill_of_inside _ _ inside,
    getD_eq_default _ _ (Nat.not_lt.mp stored)]
  simp [inside]

/-! ## Which programs run -/

lemma scan_one {offset vaddr size : Nat} (positive : size ≠ 0) (small : size ≤ 2 ^ 24)
    (low : vaddr ≤ 2 ^ 25) :
    scan [⟨1, offset, vaddr, size, size⟩] 0xFFFFFFFF 0 0 = some (vaddr, vaddr + size, 1) := by
  have noWrap : (vaddr + size) % 2 ^ 32 = vaddr + size := Nat.mod_eq_of_lt (by omega)
  have near : ¬ (size > identityMapSize ∨ vaddr > identityMapSize - size) := by
    rw [identityMapSize]
    omega
  rw [scan, if_pos (by simp [Phdr.loads, positive])]
  dsimp only
  rw [if_neg near, noWrap, if_pos (by omega), if_pos (by omega), scan]

lemma scan_two {offset offset' low high size size' : Nat} (positive : size ≠ 0)
    (positive' : size' ≠ 0) (small : size ≤ 2 ^ 24) (small' : size' ≤ 2 ^ 24)
    (order : low + size ≤ high) (near : high ≤ 2 ^ 25) :
    scan [⟨1, offset, low, size, size⟩, ⟨1, offset', high, size', size'⟩] 0xFFFFFFFF 0 0 =
      some (low, high + size', 2) := by
  have noWrap : (low + size) % 2 ^ 32 = low + size := Nat.mod_eq_of_lt (by omega)
  have noWrap' : (high + size') % 2 ^ 32 = high + size' := Nat.mod_eq_of_lt (by omega)
  rw [scan, if_pos (by simp [Phdr.loads, positive])]
  dsimp only
  rw [if_neg (by rw [identityMapSize]; omega), noWrap, if_pos (by omega), if_pos (by omega), scan,
    if_pos (by simp [Phdr.loads, positive'])]
  dsimp only
  rw [if_neg (by rw [identityMapSize]; omega), noWrap', if_neg (by omega), if_pos (by omega), scan]

section Programs

variable {writer : Writer} (program : Program writer)

lemma Program.bounds :
    program.code.length ≠ 0 ∧ program.code.length ≤ 2 ^ 20 ∧ program.data.length < 2 ^ 24 ∧
      program.entryOffset ≤ 2 ^ 20 ∧ writer.codeBase + 2 ^ 20 = writer.dataBase ∧
      0x00500000 ≤ writer.codeBase ∧ writer.dataBase ≤ 2 ^ 25 ∧
      writer.codeBase / pageSize * pageSize = writer.codeBase := by
  have codeFits : program.code.length ≤ 2 ^ 20 := program.codeFits
  have entryInside := program.entryInside
  have dataFits : program.data.length < 2 ^ 24 := by
    apply Nat.lt_of_le_of_lt program.dataFits
    cases writer with
    | as => decide
    | cc => decide
  refine ⟨by simpa using program.nonempty, codeFits, dataFits, by omega, ?_⟩
  cases writer with
  | as => decide
  | cc => decide

/-- The header of the code. -/
def Program.codeSegment : Segment :=
  ⟨⟨1, 0x80, writer.codeBase, program.code.length, program.code.length⟩, 5, rfl, by
    have bounds := program.bounds
    dsimp only
    omega⟩

/-- The header of the data. -/
def Program.dataSegment : Segment :=
  ⟨⟨1, (0x80 + program.code.length + 3) / 4 * 4, writer.dataBase, program.data.length,
    program.data.length⟩, 6, rfl, by
    have bounds := program.bounds
    dsimp only
    omega⟩

/-- A program with data is rejected: the two bases are too far from each other. -/
theorem elfExec_of_data (some : program.data ≠ []) :
    ∃ file, writer.write program.code program.data program.entryOffset = .some file ∧
      elfExec file = .error .einval := by
  obtain ⟨nonempty, codeFits, dataFits, entryFits, apart, low, high, -⟩ := program.bounds
  have positive : program.data.length ≠ 0 := by simpa using some
  refine ⟨_, by rw [writer.write_eq, writeElf, if_neg nonempty], ?_⟩
  simp only [if_pos (Nat.pos_of_ne_zero positive), append_assoc]
  have parsed := @elfExec_segments (writer.codeBase + program.entryOffset) (by omega)
    [program.codeSegment, program.dataSegment] (Nat.succ_ne_zero _) (by simp)
  apply (parsed _).trans
  rw [loadImage, map_cons, map_cons, map_nil]
  unfold Program.codeSegment Program.dataSegment
  dsimp only
  rw [scan_two nonempty positive (by omega) (by omega) (by omega) high]
  dsimp only
  rw [if_neg (by decide), if_pos]
  rw [execMaxSize]
  omega

/-- Without data there is one program header, and the code stands behind twelve bytes of padding. -/
theorem elfExec_of_no_data (none : program.data = []) :
    ∃ file pad, writer.write program.code program.data program.entryOffset = some file ∧
      file.drop 96 = program.code ++ replicate pad 0 ∧
      elfExec file = loadImage ⟨file, 52⟩ (writer.codeBase + program.entryOffset)
        [program.codeSegment.phdr] := by
  obtain ⟨nonempty, codeFits, -, entryFits, apart, -, high, -⟩ := program.bounds
  have parsed := @elfExec_segments (writer.codeBase + program.entryOffset) (by omega)
    [program.codeSegment] (Nat.succ_ne_zero _) (by simp)
  let pad := (0x80 + program.code.length + 3) / 4 * 4 - (0x80 + program.code.length)
  let rest := replicate 12 0 ++ (program.code ++ replicate pad 0)
  refine ⟨ehdrBytes (writer.codeBase + program.entryOffset) 1 ++
    ([program.codeSegment].flatMap Segment.bytes ++ rest), pad, ?_, ?_, parsed rest⟩
  · rw [writer.write_eq, writeElf, if_neg nonempty, none]
    simp only [length_nil, gt_iff_lt, Nat.lt_irrefl, if_false, append_assoc, append_nil]
    rfl
  · rfl

lemma loadImage_code {content : List UInt8} (entry : Nat)
    (fits : program.code.length ≤ execMaxSize) :
    ∃ image, loadImage ⟨content, 52⟩ entry [program.codeSegment.phdr] = .ok image ∧
      image.entry = entry ∧ program.code.length ≤ image.size ∧ image.size ≤ 2 ^ 30 ∧
      image.stores = storesAt writer.codeBase (replicate image.size 0) ++
        storesAt writer.codeBase ((content.drop 0x80).take program.code.length) := by
  obtain ⟨nonempty, codeFits, -, -, apart, low, high, aligned⟩ := program.bounds
  have scanned := @scan_one 0x80 writer.codeBase program.code.length nonempty (by omega) (by omega)
  rw [execMaxSize] at fits
  rw [loadImage, Program.codeSegment, scanned]
  dsimp only
  rw [if_neg (by decide), if_neg (by rw [execMaxSize]; omega), if_neg (by omega),
    if_neg (by rw [identityMapSize]; omega)]
  rw [loadSegments_eq, aligned, pageSize, Nat.mod_eq_of_lt (by omega)]
  refine ⟨_, rfl, rfl, ?_, ?_, ?_⟩
  · dsimp only
    rw [pageSize] at aligned
    omega
  · dsimp only
    omega
  · rw [filter_cons_of_pos (by simp [Phdr.loads, nonempty])]
    simp [Phdr.bytes, seekPos]

lemma loadImage_large {content : List UInt8} (entry : Nat)
    (large : execMaxSize < program.code.length) :
    loadImage ⟨content, 52⟩ entry [program.codeSegment.phdr] = .error .einval := by
  obtain ⟨nonempty, codeFits, -, -, apart, -, high, -⟩ := program.bounds
  have scanned := @scan_one 0x80 writer.codeBase program.code.length nonempty (by omega) (by omega)
  rw [loadImage, Program.codeSegment, scanned]
  dsimp only
  rw [if_neg (by decide), if_pos (.inr (by omega))]

lemma getD_take_drop {bytes : List UInt8} {count skip i : Nat} (inside : i < count) :
    ((bytes.drop skip).take count).getD i 0 = bytes.getD (skip + i) 0 := by
  simp [getD_eq_getElem?_getD, getElem?_drop, inside]

lemma getD_append_zeros (bytes : List UInt8) (pad i : Nat) :
    (bytes ++ replicate pad 0).getD i 0 = bytes.getD i 0 := by
  by_cases inside : i < bytes.length
  · rw [getD_append _ _ _ _ inside]
  rw [getD_append_right _ _ _ _ (Nat.not_lt.mp inside), getD_eq_default _ _ (Nat.not_lt.mp inside)]
  by_cases zero : i - bytes.length < pad
  · simp [zero]
  · exact getD_eq_default _ _ (by simpa using Nat.not_lt.mp zero)

/-- Code that is its own tail behind 32 bytes has no other bytes than zero. -/
theorem forall_eq_zero_of_shift {code : List UInt8}
    (shift : ∀ i < code.length, code.getD (32 + i) 0 = code.getD i 0) (i : Nat) :
    code.getD i 0 = 0 := by
  by_cases inside : i < code.length
  · rw [← shift i inside]
    exact forall_eq_zero_of_shift shift (32 + i)
  · exact getD_eq_default _ _ (Nat.not_lt.mp inside)
  termination_by code.length - i

/-- A program without data that is not too large is loaded from its 33rd byte on. -/
theorem elfExec_code (none : program.data = []) (fits : program.code.length ≤ execMaxSize) :
    ∃ file image, writer.write program.code program.data program.entryOffset = some file ∧
      elfExec file = .ok image ∧ image.entry = writer.codeBase + program.entryOffset ∧
      ∀ memory, ∀ i < program.code.length,
        applyStores image.stores memory (writer.codeBase + i) = program.code.getD (32 + i) 0 := by
  obtain ⟨-, -, -, -, apart, -, high, -⟩ := program.bounds
  obtain ⟨file, pad, written, layout, parsed⟩ := elfExec_of_no_data program none
  obtain ⟨image, loaded, entry, covered, small, stores⟩ :=
    @loadImage_code _ program file (writer.codeBase + program.entryOffset) fits
  refine ⟨file, image, written, parsed.trans loaded, entry, fun memory i inside => ?_⟩
  have short := length_take_le program.code.length (file.drop 0x80)
  have offset : file.drop 0x80 = (file.drop 96).drop 32 := by rw [drop_drop]
  rw [stores, applyStores_cleared memory (by omega) (by omega) (by omega), offset, layout,
    getD_take_drop inside, getD_append_zeros]

lemma eq_zero_of_runs (runs : Runs program) :
    program.data = [] ∧ program.code.length ≤ execMaxSize ∧ ∀ byte ∈ program.code, byte = 0 := by
  obtain ⟨file, image, written, accepted, -, placed⟩ := runs
  have none : program.data = [] := by
    by_contra some
    obtain ⟨file', written', rejected⟩ := elfExec_of_data program some
    rw [written] at written'
    cases written'
    rw [rejected] at accepted
    cases accepted
  have fits : program.code.length ≤ execMaxSize := by
    by_contra large
    obtain ⟨file', pad, written', -, parsed⟩ := elfExec_of_no_data program none
    rw [written] at written'
    cases written'
    rw [parsed, loadImage_large program _ (Nat.not_le.mp large)] at accepted
    cases accepted
  obtain ⟨file', image', written', accepted', -, shifted⟩ := elfExec_code program none fits
  rw [written] at written'
  cases written'
  rw [accepted] at accepted'
  cases accepted'
  refine ⟨none, fits, fun byte mem => ?_⟩
  have zeros := @forall_eq_zero_of_shift program.code fun i inside => by
    rw [← shifted (fun _ => 0) i inside]
    exact (placed fun _ => 0).1 i inside
  obtain ⟨i, inside, rfl⟩ := mem_iff_getElem.mp mem
  rw [← getD_eq_getElem _ 0 inside]
  exact zeros i

/-- Of all programs the loader runs those without data whose code is at most 256 KB of zeros. -/
theorem written_program_runs_iff :
    Runs program ↔ program.data = [] ∧ program.code.length ≤ execMaxSize ∧
      ∀ byte ∈ program.code, byte = 0 := by
  constructor
  · exact eq_zero_of_runs program
  · rintro ⟨none, fits, zeros⟩
    have isZero : ∀ i, program.code.getD i 0 = 0 := by
      intro i
      by_cases inside : i < program.code.length
      · rw [getD_eq_getElem _ 0 inside]
        exact zeros _ (getElem_mem inside)
      · exact getD_eq_default _ _ (Nat.not_lt.mp inside)
    obtain ⟨file, image, written, accepted, entry, shifted⟩ := elfExec_code program none fits
    refine ⟨file, image, written, accepted, entry, fun memory => ⟨fun i inside => ?_, ?_⟩⟩
    · rw [shifted memory i inside, isZero, isZero]
    · rw [none]
      nofun

end Programs

/-- The assembled program of one instruction `ret`. -/
def retProgram : Program .as :=
  ⟨[0xC3], [], 0, by decide, by decide, by decide, by decide⟩

/-- The compiled program of one instruction `ret` and one byte of data. -/
def retWithData : Program .cc :=
  ⟨[0xC3], [1], 0, by decide, by decide, by decide, by decide⟩

/-- The instruction of the first program is not loaded, the second program is rejected. -/
theorem ret_programs_do_not_run : ¬ Runs retProgram ∧ ¬ Runs retWithData := by
  constructor
  · intro runs
    obtain ⟨-, -, zeros⟩ := eq_zero_of_runs retProgram runs
    exact absurd (zeros 0xC3 (mem_singleton_self _)) (by decide)
  · intro runs
    obtain ⟨none, -, -⟩ := eq_zero_of_runs retWithData runs
    exact cons_ne_nil _ _ none

end CupidOs.Exec
