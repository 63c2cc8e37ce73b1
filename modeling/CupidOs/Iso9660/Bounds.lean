import CupidOs.Iso9660.Entries

/-!
# The buffers of the ISO9660 reader

Which images make `iso9660_lookup` and `iso9660_readdir_step` leave their buffers.
The conditions are about the directories that paths lead to: the records in them, the
continuation areas of their system use entries, and the sectors where a walk begins.
-/

namespace CupidOs.Iso9660

open List NodeTree Option Vfs

/-! ## The directories of an image -/

/-- The record at an offset of a directory, and the offset behind it. -/
def HasRecord (device : Device) (extent : Extent) (off : UInt32) (entry : DirRecord)
    (next : UInt32) : Prop :=
  off < extent.size ∧ ∃ sector inSec recLen,
    placeAt device extent off = .record sector inSec recLen ∧
      readRecord sector inSec recLen = some entry ∧ next = off + UInt32.ofNat recLen

/-- The offsets that a walk reaches when it goes on behind the records in `passes`. -/
inductive Reaches (device : Device) (extent : Extent) (passes : DirRecord → Prop) :
    UInt32 → Prop
  | start : Reaches device extent passes 0
  | padding {off next : UInt32} (before : Reaches device extent passes off)
      (inside : off < extent.size) (place : placeAt device extent off = .padding next) :
      Reaches device extent passes next
  | record {off next : UInt32} {entry : DirRecord} (before : Reaches device extent passes off)
      (has : HasRecord device extent off entry next)
      (passed : isDot entry.name = true ∨ passes entry) : Reaches device extent passes next

lemma Reaches.mono {device : Device} {extent : Extent} {P Q : DirRecord → Prop} {off : UInt32}
    (weaker : ∀ entry, P entry → Q entry) (reaches : Reaches device extent P off) :
    Reaches device extent Q off := by
  induction reaches with
  | start => exact .start
  | padding _ inside place ih => exact .padding ih inside place
  | record _ has passed ih => exact .record ih has (passed.imp_right (weaker _))

/-- A walk begins at the start, behind an entry, and where a call failed. -/
def StartsWalk (device : Device) (mount : IsoMount) (extent : Extent) (off : UInt32) : Prop :=
  off = 0 ∨ (∃ before entry, Reaches device extent (EntryFits device mount) before ∧
      HasRecord device extent before entry off ∧ isDot entry.name = false ∧
        EntryFits device mount entry) ∨
    (Reaches device extent (EntryFits device mount) off ∧ placeAt device extent off = .broken)

/-- The records and the areas they lead to lie in their sectors, and no walk begins at sector
`UINT32_MAX`. -/
structure DirectoryFits (device : Device) (mount : IsoMount) (extent : Extent) : Prop where
  fields : ∀ off sector inSec recLen, Reaches device extent (EntryFits device mount) off →
    off < extent.size → placeAt device extent off = .record sector inSec recLen →
      FieldsFit sector inSec
  areas : ∀ off entry next, Reaches device extent (EntryFits device mount) off →
    HasRecord device extent off entry next → isDot entry.name = false → EntryFits device mount entry
  starts : ∀ off, StartsWalk device mount extent off → off < extent.size →
    extent.lbaAt off ≠ uint32Max

/-- The directory has no entries besides `.` and `..`. -/
def OnlyDots (device : Device) (mount : IsoMount) (extent : Extent) : Prop :=
  ∀ off entry next, Reaches device extent (EntryFits device mount) off →
    HasRecord device extent off entry next → isDot entry.name = true

/-- The first record of a directory that a component of a path names. -/
def Finds (device : Device) (mount : IsoMount) (extent : Extent) (comp : List UInt8)
    (entry : DirRecord) : Prop :=
  ∃ off next,
    Reaches device extent (fun other => matchName device mount comp other = some none) off ∧
      HasRecord device extent off entry next ∧ isDot entry.name = false ∧
        matchName device mount comp entry = some (some entry)

/-- The directories that paths lead to. -/
inductive Directory (device : Device) (mount : IsoMount) : Extent → Prop
  | root : Directory device mount mount.root
  | child {extent : Extent} {comp : List UInt8} {entry : DirRecord}
      (parent : Directory device mount extent) (isComponent : IsComponent comp)
      (found : Finds device mount extent comp entry) (isDir : entry.isDir = true) :
      Directory device mount entry.extent

/-- The handles that `iso9660_lookup` fills and `iso9660_readdir_step` moves on. -/
inductive Opened (device : Device) (mount : IsoMount) (cap : UInt32) : IsoFile → Prop
  | lookup {path : CString} {fuel : Nat} {file : IsoFile}
      (found : iso9660Lookup device mount path.val fuel = some (.ok file)) :
      Opened device mount cap file
  | readdir {file next : IsoFile} {fuel : Nat} {step : Step}
      (opened : Opened device mount cap file)
      (stepped : iso9660ReaddirStep device mount file cap fuel = some (next, step))
      (returned : step ≠ .running) : Opened device mount cap next

/-- `iso9660_lookup` on every path and `iso9660_readdir_step` on every handle stay inside their
buffers. -/
structure InBounds (device : Device) (mount : IsoMount) (cap : UInt32) : Prop where
  lookup : ∀ (path : CString) (fuel : Nat), iso9660Lookup device mount path.val fuel ≠ none
  readdir : ∀ (file : IsoFile) (fuel : Nat), Opened device mount cap file →
    iso9660ReaddirStep device mount file cap fuel ≠ none

/-! ## Directories that fit are walked in bounds -/

section Sufficient

variable {β : Type} {device : Device} {mount : IsoMount} {extent : Extent}
  {visit : DirRecord → Option (Option β)} {passes : DirRecord → Prop} {off cap : UInt32}

lemma placeAt_record {sector : Sector} {inSec recLen : Nat}
    (place : placeAt device extent off = .record sector inSec recLen) :
    inSec + recLen ≤ logicalBlockSize := by
  simp only [placeAt] at place
  iterate 3
    split at place
    · cases place
  cases place
  omega

/-- What a walk knows when it stops. -/
def Outcome (device : Device) (extent : Extent) (visit : DirRecord → Option (Option β))
    (passes : DirRecord → Prop) : Option (UInt32 × Walk β) → Prop
  | none => False
  | some (_, .running) => True
  | some (off, .ended) => ¬ off < extent.size
  | some (off, .failed) =>
    Reaches device extent passes off ∧ placeAt device extent off = .broken
  | some (off, .stopped value) => ∃ before entry,
      Reaches device extent passes before ∧ HasRecord device extent before entry off ∧
        isDot entry.name = false ∧ visit entry = some (some value)

lemma sweep_outcome
    (fields : ∀ off sector inSec recLen, Reaches device extent passes off → off < extent.size →
      placeAt device extent off = .record sector inSec recLen → FieldsFit sector inSec)
    (visits : ∀ off entry next, Reaches device extent passes off →
      HasRecord device extent off entry next → isDot entry.name = false →
        ∃ answer, visit entry = some answer ∧ (answer = none → passes entry)) (fuel : Nat)
    {fresh : Bool} (reaches : Reaches device extent passes off)
    (starts : fresh = true → off < extent.size → extent.lbaAt off ≠ uint32Max) :
    Outcome device extent visit passes (sweep device extent visit fuel fresh off) := by
  induction fuel generalizing fresh off with
  | zero =>
    rw [sweep]
    split
    · trivial
    · assumption
  | succ fuel ih =>
    by_cases inside : off < extent.size
    swap
    · rw [sweep_of_ended inside]
      exact inside
    have notStale : ¬ (fresh = true ∧ extent.lbaAt off = uint32Max) := fun stale =>
      starts stale.1 inside stale.2
    have goesOn : ∀ next, Reaches device extent passes next →
        Outcome device extent visit passes (sweep device extent visit fuel false next) :=
      fun next reachesNext => ih reachesNext fun isFresh => absurd isFresh Bool.false_ne_true
    cases place : placeAt device extent off with
    | broken =>
      rw [sweep_of_broken inside notStale place]
      exact ⟨reaches, place⟩
    | padding next =>
      rw [sweep_of_padding inside notStale place]
      exact goesOn next (.padding reaches inside place)
    | record sector inSec recLen =>
      rw [sweep_of_record inside notStale place]
      have fits := (readRecord_ne_none_iff (placeAt_record place)).mpr
        (fields off sector inSec recLen reaches inside place)
      rcases ne_none_iff_exists'.mp fits with ⟨entry, read⟩
      have has : HasRecord device extent off entry (off + UInt32.ofNat recLen) :=
        ⟨inside, sector, inSec, recLen, place, read, rfl⟩
      rw [read, bind_some, onEntry]
      cases dot : isDot entry.name with
      | true =>
        rw [if_pos rfl]
        exact goesOn _ (.record reaches has (Or.inl dot))
      | false =>
        rw [if_neg Bool.false_ne_true]
        rcases visits off entry _ reaches has dot with ⟨_ | value, answered, passed⟩
        · rw [answered]
          exact goesOn _ (.record reaches has (Or.inr (passed rfl)))
        · rw [answered]
          exact ⟨off, entry, reaches, has, dot, answered⟩

lemma entryFits_of_matchName {comp : List UInt8} {entry : DirRecord}
    {answer : Option DirRecord} (answered : matchName device mount comp entry = some answer) :
    EntryFits device mount entry := by
  by_contra misses
  rw [matchName_of_unfit misses] at answered
  cases answered

/-- A component is searched in bounds, and what is found is the first record it names. -/
theorem DirectoryFits.search (fits : DirectoryFits device mount extent) (comp : List UInt8)
    (fuel : Nat) :
    ∃ off walk, walkDir device extent (matchName device mount comp) fuel (Cursor.start 0) =
        some (off, walk) ∧
      ∀ entry, walk = .stopped entry → Finds device mount extent comp entry := by
  rcases exists_sweep_of_start device extent (matchName device mount comp) fuel 0 with
    ⟨bound, same⟩
  have weaker : ∀ off,
      Reaches device extent (fun other => matchName device mount comp other = some none) off →
      Reaches device extent (EntryFits device mount) off := fun off =>
    Reaches.mono fun _ => entryFits_of_matchName
  have outcome : Outcome device extent (matchName device mount comp)
      (fun other => matchName device mount comp other = some none)
      (sweep device extent (matchName device mount comp) bound true 0) := by
    refine sweep_outcome ?_ ?_ bound .start fun _ => fits.starts 0 (Or.inl rfl)
    · exact fun off sector inSec recLen reaches =>
        fits.fields off sector inSec recLen (weaker off reaches)
    · intro off entry next reaches has notDot
      have areas := fits.areas off entry next (weaker off reaches) has notDot
      rcases ne_none_iff_exists'.mp (matchName_of_fits areas comp) with ⟨answer, answered⟩
      exact ⟨answer, answered, fun missing => by rw [answered, missing]⟩
  rw [same]
  cases swept : sweep device extent (matchName device mount comp) bound true 0 with
  | none =>
    rw [swept] at outcome
    exact outcome.elim
  | some answer =>
    rcases answer with ⟨off, walk⟩
    refine ⟨off, walk, rfl, ?_⟩
    rintro entry rfl
    rw [swept] at outcome
    rcases outcome with ⟨before, found, reaches, has, notDot, matched⟩
    obtain rfl := matchName_stopped matched
    exact ⟨before, off, reaches, has, notDot, matched⟩

/-- Walking down a path stays in bounds, and a directory that it finds is one of the image. -/
theorem descend_inBounds
    (fits : ∀ extent, Directory device mount extent → DirectoryFits device mount extent)
    (fuel : Nat) {names : List (List UInt8)} (are : ∀ name ∈ names, IsComponent name) {isDir : Bool}
    (known : isDir = true → Directory device mount extent) (below : names ≠ [] → isDir = true) :
    ∃ result, descend device mount fuel extent isDir names = some result ∧
      ∀ file, result = .ok file → file.isDir = true →
        Directory device mount file.extent ∧ file.dirWalkOffset = 0 := by
  induction names generalizing extent isDir with
  | nil =>
    refine ⟨_, rfl, ?_⟩
    rintro file ⟨⟩ isDirectory
    exact ⟨known isDirectory, rfl⟩
  | cons name names ih =>
    have directory := known (below (cons_ne_nil _ _))
    rcases (fits extent directory).search name fuel with ⟨off, walk, walked, finds⟩
    cases walk with
    | running => exact ⟨.running, by simp [descend, walked], by simp⟩
    | ended => exact ⟨.failed .enoent, by simp [descend, walked], by simp⟩
    | failed => exact ⟨.failed .eio, by simp [descend, walked], by simp⟩
    | stopped entry =>
      rw [descend_of_stopped walked]
      by_cases blocked : (!names.isEmpty && !entry.isDir) = true
      · exact ⟨.failed .enotdir, if_pos blocked, by simp⟩
      have child : entry.isDir = true → Directory device mount entry.extent :=
        .child directory (are name (by simp)) (finds entry rfl)
      have stillBelow : names ≠ [] → entry.isDir = true := by
        intro nonempty
        simpa [nonempty] using blocked
      rcases ih (fun other member => are other (by simp [member])) child stillBelow with
        ⟨result, descended, directories⟩
      exact ⟨result, by rw [if_neg blocked, descended], directories⟩

/-- Where the next call on a handle of a directory begins. -/
def Resumes (device : Device) (mount : IsoMount) (extent : Extent) (off : UInt32) : Prop :=
  ¬ off < extent.size ∨
    Reaches device extent (EntryFits device mount) off ∧ StartsWalk device mount extent off

/-- A step of `iso9660_readdir_step` stays in bounds and leaves an offset to resume at. -/
theorem DirectoryFits.step (fits : DirectoryFits device mount extent)
    (room : cap = 0 → OnlyDots device mount extent) (resumes : Resumes device mount extent off)
    (fuel : Nat) :
    ∃ next walk, walkDir device extent (emitEntry device mount cap) fuel (Cursor.start off) =
        some (next, walk) ∧ (walk ≠ .running → Resumes device mount extent next) := by
  rcases exists_sweep_of_start device extent (emitEntry device mount cap) fuel off with
    ⟨bound, same⟩
  rw [same]
  rcases resumes with outside | ⟨reaches, starts⟩
  · rw [sweep_of_ended outside]
    exact ⟨off, .ended, rfl, fun _ => Or.inl outside⟩
  have outcome : Outcome device extent (emitEntry device mount cap) (EntryFits device mount)
      (sweep device extent (emitEntry device mount cap) bound true off) := by
    refine sweep_outcome fits.fields ?_ bound reaches fun _ => fits.starts off starts
    intro before entry next reachesBefore has notDot
    have areas := fits.areas before entry next reachesBefore has notDot
    have hasRoom : cap ≠ 0 := by
      intro missing
      rw [room missing before entry next reachesBefore has] at notDot
      cases notDot
    rcases emitEntry_of_fits areas hasRoom with ⟨emitted, answered⟩
    exact ⟨some emitted, answered, nofun⟩
  cases swept : sweep device extent (emitEntry device mount cap) bound true off with
  | none =>
    rw [swept] at outcome
    exact outcome.elim
  | some answer =>
    rcases answer with ⟨next, walk⟩
    refine ⟨next, walk, rfl, fun returned => ?_⟩
    rw [swept] at outcome
    cases walk with
    | running => exact absurd rfl returned
    | ended => exact Or.inl outcome
    | failed => exact Or.inr ⟨outcome.1, Or.inr (Or.inr outcome)⟩
    | stopped value =>
      rcases outcome with ⟨before, entry, reachesBefore, has, notDot, _⟩
      have areas := fits.areas before entry next reachesBefore has notDot
      exact Or.inr ⟨.record reachesBefore has (Or.inr areas),
        Or.inr (Or.inl ⟨before, entry, reachesBefore, has, notDot, areas⟩)⟩

lemma readdirStep_of_walked {file : IsoFile} {fuel : Nat} {walk : Walk Emitted}
    (isDir : file.isDir = true)
    (walked : walkDir device file.extent (emitEntry device mount cap) fuel
      (Cursor.start file.dirWalkOffset) = some (off, walk)) :
    iso9660ReaddirStep device mount file cap fuel =
      some ({ file with dirWalkOffset := off }, stepOf walk) := by
  rw [iso9660ReaddirStep, if_pos isDir, walked]
  rfl

lemma stepOf_eq_running_iff (walk : Walk Emitted) : stepOf walk = .running ↔ walk = .running := by
  cases walk <;> simp [stepOf]

section

variable (fits : ∀ extent, Directory device mount extent → DirectoryFits device mount extent ∧
    (cap = 0 → OnlyDots device mount extent))
include fits

lemma iso9660Lookup_of_directories (path : CString) (fuel : Nat) :
    ∃ result, iso9660Lookup device mount path.val fuel = some result ∧
      ∀ file, result = .ok file → file.isDir = true →
        Directory device mount file.extent ∧ file.dirWalkOffset = 0 := by
  rw [iso9660Lookup_eq_descend]
  exact descend_inBounds (fun extent directory => (fits extent directory).1) fuel
    (fun name => isComponent_of_mem_components path.2) (fun _ => Directory.root) (fun _ => rfl)

/-- The handles of directories are those of the image, at an offset to resume at. -/
theorem Opened.resumes {file : IsoFile} (opened : Opened device mount cap file) (isDir : file.isDir = true) :
    Directory device mount file.extent ∧ Resumes device mount file.extent file.dirWalkOffset := by
  induction opened with
  | @lookup path fuel file found =>
    rcases iso9660Lookup_of_directories fits path fuel with ⟨result, looked, directories⟩
    rw [looked] at found
    rcases directories file (some_inj.mp found) isDir with ⟨directory, zero⟩
    rw [zero]
    exact ⟨directory, Or.inr ⟨.start, Or.inl rfl⟩⟩
  | @readdir file next fuel step opened stepped returned ih =>
    by_cases wasDir : file.isDir = true
    swap
    · rw [iso9660ReaddirStep, if_neg wasDir] at stepped
      cases stepped
      exact absurd isDir wasDir
    rcases ih wasDir with ⟨directory, resumes⟩
    rcases fits _ directory with ⟨directoryFits, room⟩
    rcases directoryFits.step room resumes fuel with ⟨off, walk, walked, moves⟩
    rw [readdirStep_of_walked wasDir walked] at stepped
    cases stepped
    exact ⟨directory, moves fun running => returned ((stepOf_eq_running_iff walk).mpr running)⟩

lemma inBounds_of_directories : InBounds device mount cap where
  lookup := by
    intro path fuel
    rcases iso9660Lookup_of_directories fits path fuel with ⟨result, looked, _⟩
    rw [looked]
    exact some_ne_none result
  readdir := by
    intro file fuel opened
    by_cases isDir : file.isDir = true
    · rcases opened.resumes fits isDir with ⟨directory, resumes⟩
      rcases fits _ directory with ⟨directoryFits, room⟩
      rcases directoryFits.step room resumes fuel with ⟨off, walk, walked, _⟩
      rw [readdirStep_of_walked isDir walked]
      exact some_ne_none _
    · rw [iso9660ReaddirStep, if_neg isDir]
      exact some_ne_none _

end

end Sufficient

/-! ## Walks in bounds need directories that fit -/

section Necessary

variable {β : Type} {device : Device} {mount : IsoMount} {extent : Extent}
  {visit : DirRecord → Option (Option β)} {passes : DirRecord → Prop}

/-- A walk from `start` gets to `off` in `rounds` rounds. -/
def GetsTo (device : Device) (extent : Extent) (visit : DirRecord → Option (Option β))
    (start off : UInt32) : Prop :=
  ∃ rounds fresh, ∀ fuel, sweep device extent visit (fuel + rounds) true start =
    sweep device extent visit fuel fresh off

variable {off next cap start : UInt32} {entry : DirRecord}

lemma GetsTo.refl (off : UInt32) : GetsTo device extent visit off off :=
  ⟨0, true, fun _ => rfl⟩

section

variable (gets : GetsTo device extent visit start off)
  (inBounds : ∀ bound, sweep device extent visit bound true start ≠ none)
include gets inBounds

/-- The walk does not get to an offset whose sector number it would take for an unread buffer. -/
theorem GetsTo.round (inside : off < extent.size) :
    ∃ rounds fresh, ¬ (fresh = true ∧ extent.lbaAt off = uint32Max) ∧ ∀ fuel,
      sweep device extent visit (fuel + rounds) true start =
        sweep device extent visit fuel fresh off := by
  rcases gets with ⟨rounds, fresh, same⟩
  refine ⟨rounds, fresh, fun stale => ?_, same⟩
  apply inBounds (1 + rounds)
  rw [same, sweep_of_stale inside stale]

lemma GetsTo.step (inside : off < extent.size)
    (moves : ∀ fresh, ¬ (fresh = true ∧ extent.lbaAt off = uint32Max) → ∀ fuel,
      sweep device extent visit (fuel + 1) fresh off = sweep device extent visit fuel false next) :
    GetsTo device extent visit start next := by
  rcases gets.round inBounds inside with ⟨rounds, fresh, notStale, same⟩
  refine ⟨rounds + 1, false, fun fuel => ?_⟩
  rw [← moves fresh notStale fuel, ← same]
  congr 1
  omega

lemma GetsTo.padding (inside : off < extent.size)
    (place : placeAt device extent off = .padding next) :
    GetsTo device extent visit start next :=
  gets.step inBounds inside fun _ notStale => sweep_of_padding inside notStale place

lemma GetsTo.skip (has : HasRecord device extent off entry next)
    (skipped : isDot entry.name = true ∨ visit entry = some none) :
    GetsTo device extent visit start next := by
  rcases has with ⟨inside, sector, inSec, recLen, place, read, rfl⟩
  refine gets.step inBounds inside fun _ notStale fuel => ?_
  rw [sweep_of_record inside notStale place, read, bind_some, onEntry]
  rcases skipped with dot | passed
  · rw [if_pos dot]
  · rw [passed]
    split <;> rfl

lemma GetsTo.visits (has : HasRecord device extent off entry next)
    (notDot : isDot entry.name = false) :
    (visit entry ≠ none) ∧ ∀ value, visit entry = some (some value) →
      ∃ bound, sweep device extent visit bound true start = some (next, .stopped value) := by
  rcases gets.round inBounds has.1 with ⟨rounds, fresh, notStale, same⟩
  rcases has with ⟨inside, sector, inSec, recLen, place, read, rfl⟩
  have same := same 1
  rw [sweep_of_record inside notStale place, read, bind_some, onEntry,
    if_neg (by simp [notDot])] at same
  constructor
  · intro missing
    rw [missing] at same
    exact inBounds _ same
  · intro value answered
    rw [answered] at same
    exact ⟨_, same⟩

end

lemma Reaches.getsTo (reaches : Reaches device extent passes off)
    (inBounds : ∀ bound, sweep device extent visit bound true 0 ≠ none)
    (passed : ∀ entry, passes entry → visit entry = some none) :
    GetsTo device extent visit 0 off := by
  induction reaches with
  | start => exact .refl 0
  | padding _ inside place ih => exact ih.padding inBounds inside place
  | record _ has skipped ih => exact ih.skip inBounds has (skipped.imp_right (passed _))

/-- A component that no name of a record equals. -/
def longName : List UInt8 := replicate (maxNameLen + 1) 97

lemma length_longName : longName.length = maxNameLen + 1 :=
  length_replicate

lemma isComponent_longName : IsComponent longName := by
  have only : ∀ byte ∈ longName, byte = 97 := fun _ => eq_of_mem_replicate
  refine ⟨?_, fun member => ?_, fun member => ?_⟩
  · exact ne_nil_of_length_eq_add_one length_longName
  · exact absurd (only _ member) (by decide)
  · exact absurd (only _ member) (by decide)

/-- Every component is searched in bounds. -/
def SearchInBounds (device : Device) (mount : IsoMount) (extent : Extent) : Prop :=
  ∀ comp, IsComponent comp → ∀ bound,
    sweep device extent (matchName device mount comp) bound true 0 ≠ none

section

variable (search : SearchInBounds device mount extent)
  (reaches : Reaches device extent (EntryFits device mount) off)
include search reaches

/-- The search for a name that does not exist gets to every offset of the directory. -/
theorem SearchInBounds.getsTo :
    GetsTo device extent (matchName device mount longName) 0 off :=
  reaches.getsTo (search longName isComponent_longName) fun _ fits =>
    matchName_of_long fits (by rw [length_longName]; exact Nat.lt_succ_self _)

lemma SearchInBounds.fields {sector : Sector} {inSec recLen : Nat}
    (inside : off < extent.size) (place : placeAt device extent off = .record sector inSec recLen) :
    FieldsFit sector inSec := by
  rw [← readRecord_ne_none_iff (placeAt_record place)]
  intro unread
  have inBounds := search longName isComponent_longName
  rcases (search.getsTo reaches).round inBounds inside with ⟨rounds, fresh, notStale, same⟩
  have same := same 1
  rw [sweep_of_record inside notStale place, unread] at same
  exact inBounds _ same

lemma SearchInBounds.areas (has : HasRecord device extent off entry next)
    (notDot : isDot entry.name = false) :
    EntryFits device mount entry := by
  by_contra misses
  have visited := (search.getsTo reaches).visits (search longName isComponent_longName) has notDot
  exact visited.1 (matchName_of_unfit misses longName)

end

/-- Path components that lead to a directory. -/
def LeadsTo (device : Device) (mount : IsoMount) (names : List (List UInt8)) (extent : Extent) :
    Prop :=
  (∀ name ∈ names, IsComponent name) ∧ ∃ bound, ∀ fuel, bound < fuel → ∀ rest,
    descend device mount fuel mount.root true (names ++ rest) =
      descend device mount fuel extent true rest

variable {names : List (List UInt8)}

lemma LeadsTo.search (leads : LeadsTo device mount names extent)
    (lookup : ∀ (path : CString) (fuel : Nat), iso9660Lookup device mount path.val fuel ≠ none) :
    SearchInBounds device mount extent := by
  intro comp isComponent bound swept
  rcases leads with ⟨are, limit, descends⟩
  have walked : walkDir device extent (matchName device mount comp) (max limit bound + 1)
      (Cursor.start 0) = none := walkDir_start_eq swept (fun _ => nofun) (by omega)
  have all : ∀ name ∈ names ++ [comp], IsComponent name :=
    forall_mem_append.mpr ⟨are, forall_mem_singleton.mpr isComponent⟩
  apply lookup ⟨spell (names ++ [comp]), zero_not_mem_spell all⟩ (max limit bound + 1)
  rw [iso9660Lookup_eq_descend, components_spell all, descends _ (by omega), descend, walked]
  rfl

lemma LeadsTo.opened (leads : LeadsTo device mount names extent)
    (cap : UInt32) : Opened device mount cap ⟨extent, true, 0⟩ := by
  rcases leads with ⟨are, limit, descends⟩
  have found := descends (limit + 1) (Nat.lt_succ_self limit) []
  have path : iso9660Lookup device mount (spell names) (limit + 1) =
      some (.ok ⟨extent, true, 0⟩) := by
    rw [append_nil] at found
    rw [iso9660Lookup_eq_descend, components_spell are, found]
    rfl
  exact @Opened.lookup _ _ _ ⟨spell names, zero_not_mem_spell are⟩ _ _ path

lemma LeadsTo.child (leads : LeadsTo device mount names extent)
    (search : SearchInBounds device mount extent) {comp : List UInt8}
    (isComponent : IsComponent comp) (found : Finds device mount extent comp entry)
    (isDir : entry.isDir = true) : LeadsTo device mount (names ++ [comp]) entry.extent := by
  rcases leads with ⟨are, limit, descends⟩
  rcases found with ⟨off, next, reaches, has, notDot, matched⟩
  have gets := reaches.getsTo (search comp isComponent) fun _ passed => passed
  rcases (gets.visits (search comp isComponent) has notDot).2 entry matched with ⟨bound, swept⟩
  refine ⟨forall_mem_append.mpr ⟨are, forall_mem_singleton.mpr isComponent⟩, max limit bound, ?_⟩
  intro fuel enough rest
  have walked := walkDir_start_eq swept (fun _ => nofun) (show bound < fuel by omega)
  rw [append_assoc, descends fuel (by omega), singleton_append, descend_of_stopped walked, isDir,
    Bool.not_true, Bool.and_false, if_neg Bool.false_ne_true]

lemma exists_leadsTo
    (lookup : ∀ (path : CString) (fuel : Nat), iso9660Lookup device mount path.val fuel ≠ none)
    (directory : Directory device mount extent) :
    ∃ names, LeadsTo device mount names extent := by
  induction directory with
  | root => exact ⟨[], by simp, 0, fun _ _ _ => rfl⟩
  | child _ isComponent found isDir ih =>
    rcases ih with ⟨names, leads⟩
    exact ⟨_, leads.child (leads.search lookup) isComponent found isDir⟩

lemma InBounds.sweep_ne_none (inBounds : InBounds device mount cap)
    (opened : Opened device mount cap ⟨extent, true, start⟩) (bound : Nat) :
    sweep device extent (emitEntry device mount cap) bound true start ≠ none := by
  intro swept
  apply inBounds.readdir ⟨extent, true, start⟩ (bound + 1) opened
  rw [iso9660ReaddirStep, if_pos rfl,
    walkDir_start_eq swept (fun _ => nofun) (Nat.lt_succ_self bound)]
  rfl

lemma Opened.moves {bound : Nat} {walk : Walk Emitted}
    (opened : Opened device mount cap ⟨extent, true, start⟩)
    (swept : sweep device extent (emitEntry device mount cap) bound true start = some (off, walk))
    (returned : walk ≠ .running) : Opened device mount cap ⟨extent, true, off⟩ := by
  have settled : Settled (some (off, walk)) := by
    intro other same
    cases same
    exact returned rfl
  have walked := walkDir_start_eq swept settled (Nat.lt_succ_self bound)
  have stepped : iso9660ReaddirStep device mount ⟨extent, true, start⟩ cap (bound + 1) =
      some (⟨extent, true, off⟩, stepOf walk) := readdirStep_of_walked rfl walked
  exact .readdir opened stepped fun running => returned ((stepOf_eq_running_iff walk).mp running)

section

variable (inBounds : InBounds device mount cap)
include inBounds

/-- Where an entry is written, there is room for it and the handle moves behind it. -/
theorem InBounds.emits (opened : Opened device mount cap ⟨extent, true, start⟩)
    (gets : GetsTo device extent (emitEntry device mount cap) start off)
    (has : HasRecord device extent off entry next) (notDot : isDot entry.name = false)
    (fits : EntryFits device mount entry) :
    cap ≠ 0 ∧ Opened device mount cap ⟨extent, true, next⟩ := by
  have visited := gets.visits (inBounds.sweep_ne_none opened) has notDot
  have room : cap ≠ 0 := by
    rintro rfl
    exact visited.1 (emitEntry_of_no_room entry)
  rcases emitEntry_of_fits fits room with ⟨emitted, answered⟩
  rcases visited.2 emitted answered with ⟨bound, swept⟩
  exact ⟨room, opened.moves swept nofun⟩

/-- Some handle of the directory gets to every offset that is reached. -/
theorem InBounds.exists_opened (first : Opened device mount cap ⟨extent, true, 0⟩)
    (reaches : Reaches device extent (EntryFits device mount) off) :
    ∃ start, Opened device mount cap ⟨extent, true, start⟩ ∧
      GetsTo device extent (emitEntry device mount cap) start off := by
  induction reaches with
  | start => exact ⟨0, first, .refl 0⟩
  | padding _ inside place ih =>
    rcases ih with ⟨start, opened, gets⟩
    exact ⟨start, opened, gets.padding (inBounds.sweep_ne_none opened) inside place⟩
  | @record off next entry _ has passed ih =>
    rcases ih with ⟨start, opened, gets⟩
    cases dot : isDot entry.name with
    | true =>
      exact ⟨start, opened, gets.skip (inBounds.sweep_ne_none opened) has (Or.inl dot)⟩
    | false =>
      have fits : EntryFits device mount entry := passed.resolve_left (by simp [dot])
      exact ⟨next, (inBounds.emits opened gets has dot fits).2, .refl next⟩

/-- Every place where a walk begins is the offset of some handle. -/
theorem InBounds.opened_of_startsWalk (first : Opened device mount cap ⟨extent, true, 0⟩)
    (starts : StartsWalk device mount extent off) (inside : off < extent.size) :
    Opened device mount cap ⟨extent, true, off⟩ := by
  rcases starts with rfl | ⟨before, entry, reaches, has, notDot, fits⟩ | ⟨reaches, broken⟩
  · exact first
  · rcases inBounds.exists_opened first reaches with ⟨start, opened, gets⟩
    exact (inBounds.emits opened gets has notDot fits).2
  rcases inBounds.exists_opened first reaches with ⟨start, opened, gets⟩
  rcases gets.round (inBounds.sweep_ne_none opened) inside with ⟨rounds, fresh, notStale, same⟩
  have same := same 1
  rw [sweep_of_broken inside notStale broken] at same
  exact opened.moves same nofun

lemma InBounds.directoryFits (directory : Directory device mount extent) :
    DirectoryFits device mount extent ∧ (cap = 0 → OnlyDots device mount extent) := by
  rcases exists_leadsTo inBounds.lookup directory with ⟨names, leads⟩
  have search := leads.search inBounds.lookup
  have first := leads.opened cap
  refine ⟨⟨?_, ?_, ?_⟩, ?_⟩
  · exact fun _ _ _ _ reaches inside place => search.fields reaches inside place
  · exact fun _ _ _ reaches has notDot => search.areas reaches has notDot
  · intro off starts inside last
    have opened := inBounds.opened_of_startsWalk first starts inside
    exact inBounds.sweep_ne_none opened 1 (sweep_of_stale inside ⟨rfl, last⟩ 0)
  · intro missing off entry next reaches has
    by_contra notDot
    rw [Bool.not_eq_true] at notDot
    rcases inBounds.exists_opened first reaches with ⟨start, opened, gets⟩
    exact (inBounds.emits opened gets has notDot (search.areas reaches has notDot)).1 missing

end

end Necessary

/-- The reader stays inside its buffers exactly on the images whose directories fit: records
with their names in their sector, continuation areas in theirs, no walk that begins at sector
`UINT32_MAX`, and, for a name array without room, no entries. -/
theorem reader_in_bounds_iff_directories_fit (device : Device) (mount : IsoMount) (cap : UInt32) :
    InBounds device mount cap ↔ ∀ extent, Directory device mount extent →
        DirectoryFits device mount extent ∧ (cap = 0 → OnlyDots device mount extent) :=
  ⟨fun inBounds _ directory => inBounds.directoryFits directory, inBounds_of_directories⟩

/-- A volume descriptor with a root directory of one sector at sector 18. -/
def exampleDescriptor : Sector :=
  ⟨[1, 67, 68, 48, 48, 49, 1] ++ replicate 121 0 ++ [0, 8] ++ replicate 28 0 ++
    [18, 0, 0, 0, 0, 0, 0, 0, 0, 8, 0, 0] ++ replicate 1878 0, by decide +kernel⟩

/-- Eight records `.` of 255 bytes, and one of 8 bytes at the end of the sector. -/
def shortRecordSector : Sector :=
  ⟨(replicate 8 (255 :: replicate 31 0 ++ 1 :: replicate 222 0)).flatten ++
    8 :: replicate 7 0, by decide +kernel⟩

/-- An image with these two sectors. -/
def shortRecordImage : Device := fun lba =>
  if lba = 16 then some exampleDescriptor
  else if lba = 18 then some shortRecordSector
  else none

/-- The image is mounted, and the lookup of `a` reads the name length of the last record
behind the sector buffer. -/
theorem lookup_reads_behind_the_sector :
    iso9660MountParse shortRecordImage = .ok ⟨⟨18, 2048⟩, false⟩ ∧
      ¬ InBounds shortRecordImage ⟨⟨18, 2048⟩, false⟩ (UInt32.ofNat vfsMaxName) := by
  have parsed : iso9660MountParse shortRecordImage = .ok ⟨⟨18, 2048⟩, false⟩ := by
    decide +kernel
  have outside : iso9660Lookup shortRecordImage ⟨⟨18, 2048⟩, false⟩ [97] 20 = none := by
    decide +kernel
  exact ⟨parsed, fun inBounds => inBounds.lookup ⟨[97], by decide⟩ 20 outside⟩

end CupidOs.Iso9660
