import CupidOs.Iso9660.Core
import CupidOs.NodeTree.Paths

/-!
# Walking a directory

`next_dir_record` caches one sector and skips padding; `iso9660_lookup` and `iso9660_readdir_step`
call it in loops of their own. Together they are one loop over the offsets of the directory. The
cache matters only in the first round of a walk at sector `UINT32_MAX`, which the empty cache is
taken to hold.
-/

namespace CupidOs.Iso9660

open NodeTree Option Vfs

/-- What the image has at an offset of a directory. -/
inductive Place
  | broken
  | padding (next : UInt32)
  | record (sector : Sector) (inSec recLen : Nat)
  deriving DecidableEq

/-- No readable record, padding up to the next sector, or a record inside its sector. -/
def placeAt (device : Device) (extent : Extent) (off : UInt32) : Place :=
  match device (extent.lbaAt off) with
  | none => .broken
  | some sector =>
    let inSec := (off % 2048).toNat
    let len := (sector.val.getD inSec 0).toNat
    if len = 0 then .padding ((off / 2048 + 1) * 2048)
    else if logicalBlockSize < inSec + len then .broken
    else .record sector inSec len

/-- The walk over the places of a directory.  `fresh` is set until a sector is read. -/
def sweep {β : Type} (device : Device) (extent : Extent)
    (visit : DirRecord → Option (Option β)) : Nat → Bool → UInt32 → Option (UInt32 × Walk β)
  | 0, _, off => some (off, if off < extent.size then .running else .ended)
  | fuel + 1, fresh, off =>
    if off < extent.size then
      if fresh = true ∧ extent.lbaAt off = uint32Max then none
      else
        match placeAt device extent off with
        | .broken => some (off, .failed)
        | .padding next => sweep device extent visit fuel false next
        | .record sector inSec recLen => do
            let entry ← readRecord sector inSec recLen
            let next := off + UInt32.ofNat recLen
            if isDot entry.name then sweep device extent visit fuel false next
            else
              match ← visit entry with
              | some value => some (next, .stopped value)
              | none => sweep device extent visit fuel false next
    else some (off, .ended)

/-- What a walk does with a record, given what it does from `next` on. -/
def onEntry {β : Type} (visit : DirRecord → Option (Option β)) (next : UInt32)
    (rest : Option (UInt32 × Walk β)) (entry : DirRecord) : Option (UInt32 × Walk β) :=
  if isDot entry.name then rest
  else
    (visit entry).bind fun
      | some value => some (next, .stopped value)
      | none => rest

section Sweep

variable {β : Type} {device : Device} {extent : Extent} {visit : DirRecord → Option (Option β)}
  {fresh : Bool} {off : UInt32}

lemma sweep_of_ended (outside : ¬ off < extent.size) (fuel : Nat) :
    sweep device extent visit fuel fresh off = some (off, .ended) := by
  cases fuel <;> simp [sweep, outside]

lemma sweep_of_stale (inside : off < extent.size)
    (stale : fresh = true ∧ extent.lbaAt off = uint32Max) (fuel : Nat) :
    sweep device extent visit (fuel + 1) fresh off = none := by
  rw [sweep, if_pos inside, if_pos stale]

variable (inside : off < extent.size) (notStale : ¬ (fresh = true ∧ extent.lbaAt off = uint32Max))

include inside notStale

lemma sweep_of_broken (place : placeAt device extent off = .broken) (fuel : Nat) :
    sweep device extent visit (fuel + 1) fresh off = some (off, .failed) := by
  rw [sweep, if_pos inside, if_neg notStale, place]

lemma sweep_of_padding {next : UInt32} (place : placeAt device extent off = .padding next)
    (fuel : Nat) :
    sweep device extent visit (fuel + 1) fresh off = sweep device extent visit fuel false next := by
  rw [sweep, if_pos inside, if_neg notStale, place]

lemma sweep_of_record {sector : Sector} {inSec recLen : Nat}
    (place : placeAt device extent off = .record sector inSec recLen) (fuel : Nat) :
    sweep device extent visit (fuel + 1) fresh off = (readRecord sector inSec recLen).bind
        (onEntry visit (off + UInt32.ofNat recLen)
          (sweep device extent visit fuel false (off + UInt32.ofNat recLen))) := by
  rw [sweep, if_pos inside, if_neg notStale, place]
  rfl

end Sweep

/-- The buffer is empty or holds the sector it is taken to hold. -/
def Cursor.Valid (device : Device) (cursor : Cursor) : Prop :=
  (cursor.sec = none ∧ cursor.curLba = uint32Max) ∨
    ∃ sector, cursor.sec = some sector ∧ device cursor.curLba = some sector

lemma Cursor.valid_start (device : Device) (off : UInt32) : (Cursor.start off).Valid device :=
  Or.inl ⟨rfl, rfl⟩

variable {β : Type} {device : Device} {extent : Extent} {visit : DirRecord → Option (Option β)}

/-- What a round of the loops does with the answer of `next_dir_record`. -/
def afterRecord (device : Device) (extent : Extent) (visit : DirRecord → Option (Option β))
    (fuel : Nat) : Cursor × Found → Option (UInt32 × Walk β)
  | (cursor, .running) => some (cursor.off, .running)
  | (cursor, .ended) => some (cursor.off, .ended)
  | (cursor, .failed) => some (cursor.off, .failed)
  | (cursor, .record inSec recLen) => do
      let sector ← cursor.sec
      let entry ← readRecord sector inSec recLen
      let next := { cursor with off := cursor.off + UInt32.ofNat recLen }
      if isDot entry.name then walkDir device extent visit fuel next
      else
        match ← visit entry with
        | some value => some (next.off, .stopped value)
        | none => walkDir device extent visit fuel next

lemma walkDir_succ (fuel : Nat) (cursor : Cursor) : walkDir device extent visit (fuel + 1) cursor =
      (nextDirRecord device extent fuel cursor).bind (afterRecord device extent visit fuel) := by
  by_cases inside : cursor.off < extent.size
  · rw [walkDir, if_pos inside]
    cases nextDirRecord device extent fuel cursor with
    | none => rfl
    | some answer =>
      rcases answer with ⟨cursor, found⟩
      cases found <;> rfl
  · have ended : nextDirRecord device extent fuel cursor = some (cursor, .ended) := by
      cases fuel <;> simp [nextDirRecord, inside]
    rw [walkDir, if_neg inside, ended]
    rfl

variable {cursor : Cursor} {entry : DirRecord} {fuel : Nat}

/-- The first round of a walk takes the empty buffer for sector `UINT32_MAX`. -/
theorem loadSector_of_stale (valid : cursor.Valid device) (empty : cursor.sec = none)
    (last : extent.lbaAt cursor.off = uint32Max) :
    loadSector device extent cursor = some cursor := by
  rcases valid with ⟨_, lba⟩ | ⟨sector, held, _⟩
  · simp [loadSector, last, lba]
  · rw [empty] at held
    cases held

/-- Any other round has the sector of its offset in the buffer. -/
theorem loadSector_eq (valid : cursor.Valid device)
    (notStale : ¬ (cursor.sec.isNone = true ∧ extent.lbaAt cursor.off = uint32Max)) :
    loadSector device extent cursor = (device (extent.lbaAt cursor.off)).map fun sector =>
        ⟨cursor.off, some sector, extent.lbaAt cursor.off⟩ := by
  by_cases cached : cursor.curLba = extent.lbaAt cursor.off
  · rcases valid with ⟨empty, lba⟩ | ⟨sector, held, read⟩
    · exact absurd ⟨by rw [empty]; rfl, by rw [← cached, lba]⟩ notStale
    · rw [loadSector, if_neg (not_not.mpr cached), ← cached, read, map_some, ← held]
  · rw [loadSector, if_pos cached]

lemma nextDirRecord_of_stale (valid : cursor.Valid device) (inside : cursor.off < extent.size)
    (empty : cursor.sec = none) (last : extent.lbaAt cursor.off = uint32Max) (fuel : Nat) :
    nextDirRecord device extent (fuel + 1) cursor = none := by
  simp [nextDirRecord, inside, loadSector_of_stale valid empty last, empty]

/-- The nested loops, with the bounds of the inner and the outer loop kept apart. -/
def rounds (device : Device) (extent : Extent) (visit : DirRecord → Option (Option β))
    (inner outer : Nat) (cursor : Cursor) : Option (UInt32 × Walk β) :=
  (nextDirRecord device extent inner cursor).bind (afterRecord device extent visit outer)

/-- The walk stopped by itself. -/
def Settled (outcome : Option (UInt32 × Walk β)) : Prop :=
  ∀ off, outcome ≠ some (off, .running)

lemma rounds_of_ended (outside : ¬ cursor.off < extent.size) (inner outer : Nat) :
    rounds device extent visit inner outer cursor = some (cursor.off, .ended) := by
  have ended : nextDirRecord device extent inner cursor = some (cursor, .ended) := by
    cases inner <;> simp [nextDirRecord, outside]
  rw [rounds, ended]
  rfl

lemma walkDir_eq_rounds (fuel : Nat) (cursor : Cursor) :
    walkDir device extent visit (fuel + 1) cursor = rounds device extent visit fuel fuel cursor :=
  walkDir_succ fuel cursor

lemma rounds_of_stale (valid : cursor.Valid device) (inside : cursor.off < extent.size)
    (stale : cursor.sec.isNone = true ∧ extent.lbaAt cursor.off = uint32Max) (inner outer : Nat) :
    rounds device extent visit (inner + 1) outer cursor = none := by
  have empty : cursor.sec = none := isNone_iff_eq_none.mp stale.1
  rw [rounds, nextDirRecord_of_stale valid inside empty stale.2]
  rfl

/-- One round of the nested loops at a place of the directory. -/
def RoundAt (device : Device) (extent : Extent) (visit : DirRecord → Option (Option β))
    (inner outer : Nat) (cursor : Cursor) : Place → Prop
  | .broken => rounds device extent visit (inner + 1) outer cursor = some (cursor.off, .failed)
  | .padding off => ∃ next, next.Valid device ∧ next.sec.isNone = false ∧ next.off = off ∧
      rounds device extent visit (inner + 1) outer cursor =
        rounds device extent visit inner outer next
  | .record sector inSec recLen => ∃ next, next.Valid device ∧ next.sec.isNone = false ∧
      next.off = cursor.off + UInt32.ofNat recLen ∧
      rounds device extent visit (inner + 1) outer cursor = (readRecord sector inSec recLen).bind
        (onEntry visit next.off (walkDir device extent visit outer next))

lemma rounds_round (visit : DirRecord → Option (Option β)) (valid : cursor.Valid device)
    (inside : cursor.off < extent.size)
    (notStale : ¬ (cursor.sec.isNone = true ∧ extent.lbaAt cursor.off = uint32Max))
    (inner outer : Nat) :
    RoundAt device extent visit inner outer cursor (placeAt device extent cursor.off) := by
  have loaded := loadSector_eq valid notStale
  cases read : device (extent.lbaAt cursor.off) with
  | none =>
    rw [read, map_none] at loaded
    rw [placeAt, read, RoundAt, rounds, nextDirRecord, if_pos inside, loaded]
    rfl
  | some sector =>
    have held : ∀ off, Cursor.Valid device ⟨off, some sector, extent.lbaAt cursor.off⟩ :=
      fun off => Or.inr ⟨sector, rfl, read⟩
    rw [read, map_some] at loaded
    simp only [placeAt, read]
    split
    · rename_i zero
      refine ⟨⟨_, some sector, extent.lbaAt cursor.off⟩, held _, rfl, rfl, ?_⟩
      simp only [rounds, nextDirRecord, if_pos inside, loaded, bind_eq_bind, bind_some]
      rw [if_pos zero]
    · rename_i positive
      split
      · rename_i spans
        simp only [RoundAt, rounds, nextDirRecord, if_pos inside, loaded, bind_eq_bind, bind_some]
        rw [if_neg positive, if_pos spans]
        rfl
      · rename_i fits
        refine ⟨⟨_, some sector, extent.lbaAt cursor.off⟩, held _, rfl, rfl, ?_⟩
        simp only [rounds, nextDirRecord, if_pos inside, loaded, bind_eq_bind, bind_some]
        rw [if_neg positive, if_neg fits]
        rfl

/-- What the nested loops do, the single loop does within some bound. -/
theorem exists_sweep_of_rounds {outer : Nat}
    (tail : ∀ cursor : Cursor, cursor.Valid device → ∃ fuel,
      walkDir device extent visit outer cursor =
        sweep device extent visit fuel cursor.sec.isNone cursor.off) (inner : Nat)
    (valid : cursor.Valid device) :
    ∃ fuel, rounds device extent visit inner outer cursor =
      sweep device extent visit fuel cursor.sec.isNone cursor.off := by
  induction inner generalizing cursor with
  | zero =>
    refine ⟨0, ?_⟩
    rw [rounds, nextDirRecord, sweep]
    by_cases inside : cursor.off < extent.size <;> simp [inside, afterRecord]
  | succ inner ih =>
    by_cases inside : cursor.off < extent.size
    swap
    · exact ⟨0, by rw [rounds_of_ended inside, sweep_of_ended inside]⟩
    by_cases stale : cursor.sec.isNone = true ∧ extent.lbaAt cursor.off = uint32Max
    · exact ⟨1, by rw [rounds_of_stale valid inside stale, sweep_of_stale inside stale]⟩
    have round := rounds_round visit valid inside stale inner outer
    cases place : placeAt device extent cursor.off with
    | broken =>
      rw [place, RoundAt] at round
      exact ⟨1, by rw [round, sweep_of_broken inside stale place]⟩
    | padding off =>
      rw [place] at round
      rcases round with ⟨next, nextValid, loaded, rfl, answer⟩
      rcases ih nextValid with ⟨fuel, same⟩
      refine ⟨fuel + 1, ?_⟩
      rw [sweep_of_padding inside stale place, ← loaded, ← same, answer]
    | record sector inSec recLen =>
      rw [place] at round
      rcases round with ⟨next, nextValid, loaded, moved, answer⟩
      rcases tail next nextValid with ⟨fuel, same⟩
      refine ⟨fuel + 1, ?_⟩
      rw [sweep_of_record inside stale place, answer, same, loaded, moved]

lemma exists_sweep_of_walkDir (fuel : Nat) (valid : cursor.Valid device) :
    ∃ bound, walkDir device extent visit fuel cursor =
      sweep device extent visit bound cursor.sec.isNone cursor.off := by
  induction fuel generalizing cursor with
  | zero => exact ⟨0, rfl⟩
  | succ fuel ih =>
    rw [walkDir_eq_rounds]
    exact exists_sweep_of_rounds (fun _ => ih) fuel valid

lemma onEntry_congr {next : UInt32} {rest other : Option (UInt32 × Walk β)}
    (settled : Settled (onEntry visit next rest entry)) (same : Settled rest → other = rest) :
    onEntry visit next other entry = onEntry visit next rest entry := by
  rw [onEntry] at settled
  rw [onEntry, onEntry]
  split
  · rename_i dot
    rw [if_pos dot] at settled
    exact same settled
  rename_i notDot
  rw [if_neg notDot] at settled
  cases answer : visit entry with
  | none => rfl
  | some value =>
    rw [answer] at settled
    cases value with
    | none => exact same settled
    | some value => rfl

/-- Where the single loop stops by itself, the nested loops stop in the same way. -/
theorem rounds_eq_of_sweep (valid : cursor.Valid device)
    (settled : Settled (sweep device extent visit fuel cursor.sec.isNone cursor.off))
    {inner outer : Nat} (innerEnough : fuel ≤ inner) (outerEnough : fuel ≤ outer) :
    rounds device extent visit inner outer cursor =
      sweep device extent visit fuel cursor.sec.isNone cursor.off := by
  induction fuel generalizing inner outer cursor with
  | zero =>
    by_cases inside : cursor.off < extent.size
    · exact absurd (by rw [sweep, if_pos inside]) (settled cursor.off)
    · rw [rounds_of_ended inside, sweep_of_ended inside]
  | succ fuel ih =>
    by_cases inside : cursor.off < extent.size
    swap
    · rw [rounds_of_ended inside, sweep_of_ended inside]
    obtain ⟨inner, rfl⟩ : ∃ rest, inner = rest + 1 := ⟨inner - 1, by omega⟩
    obtain ⟨outer, rfl⟩ : ∃ rest, outer = rest + 1 := ⟨outer - 1, by omega⟩
    by_cases stale : cursor.sec.isNone = true ∧ extent.lbaAt cursor.off = uint32Max
    · rw [rounds_of_stale valid inside stale, sweep_of_stale inside stale]
    have round := rounds_round visit valid inside stale inner (outer + 1)
    cases place : placeAt device extent cursor.off with
    | broken =>
      rw [place, RoundAt] at round
      rw [round, sweep_of_broken inside stale place]
    | padding off =>
      rw [place] at round
      rcases round with ⟨next, nextValid, loaded, rfl, answer⟩
      rw [sweep_of_padding inside stale place, ← loaded] at settled ⊢
      rw [answer, ih nextValid settled (by omega) (by omega)]
    | record sector inSec recLen =>
      rw [place] at round
      rcases round with ⟨next, nextValid, loaded, moved, answer⟩
      rw [sweep_of_record inside stale place, ← moved, ← loaded] at settled ⊢
      rw [answer]
      cases read : readRecord sector inSec recLen with
      | none => rfl
      | some entry =>
        rw [read] at settled
        refine onEntry_congr settled fun restSettled => ?_
        rw [walkDir_eq_rounds]
        exact ih nextValid restSettled (by omega) (by omega)

lemma exists_sweep_of_start (device : Device) (extent : Extent)
    (visit : DirRecord → Option (Option β)) (fuel : Nat) (off : UInt32) :
    ∃ bound, walkDir device extent visit fuel (Cursor.start off) =
      sweep device extent visit bound true off :=
  exists_sweep_of_walkDir fuel (Cursor.valid_start device off)

/-- Enough rounds of the nested loops give what the single loop gives. -/
theorem walkDir_start_eq {bound : Nat} {off : UInt32} {outcome : Option (UInt32 × Walk β)}
    (swept : sweep device extent visit bound true off = outcome) (settled : Settled outcome)
    (enough : bound < fuel) :
    walkDir device extent visit fuel (Cursor.start off) = outcome := by
  obtain ⟨fuel, rfl⟩ : ∃ rest, fuel = rest + 1 := ⟨fuel - 1, by omega⟩
  subst swept
  rw [walkDir_eq_rounds]
  exact rounds_eq_of_sweep (Cursor.valid_start device off) settled (by omega) (by omega)

/-! ## The components of a path -/

/-- `iso9660_lookup` on the components of a path. -/
def descend (device : Device) (mount : IsoMount) (fuel : Nat) :
    Extent → Bool → List (List UInt8) → Option Lookup
  | extent, isDir, [] => some (.ok ⟨extent, isDir, 0⟩)
  | extent, _, name :: names => do
      match (← walkDir device extent (matchName device mount name) fuel (Cursor.start 0)).2 with
      | .running => some .running
      | .ended => some (.failed .enoent)
      | .failed => some (.failed .eio)
      | .stopped entry =>
        if !names.isEmpty && !entry.isDir then some (.failed .enotdir)
        else descend device mount fuel entry.extent entry.isDir names

lemma descend_of_stopped {device : Device} {mount : IsoMount} {extent : Extent}
    {name : List UInt8} {off : UInt32}
    (walked : walkDir device extent (matchName device mount name) fuel (Cursor.start 0) =
      some (off, .stopped entry)) (isDir : Bool) (names : List (List UInt8)) :
    descend device mount fuel extent isDir (name :: names) =
      if !names.isEmpty && !entry.isDir then some (.failed .enotdir)
      else descend device mount fuel entry.extent entry.isDir names := by
  rw [descend, walked]
  rfl

lemma matchName_stopped {device : Device} {mount : IsoMount} {comp : List UInt8}
    {found : DirRecord} (matched : matchName device mount comp entry = some (some found)) :
    found = entry := by
  simp only [matchName, bind_eq_bind, bind_eq_some_iff] at matched
  rcases matched with ⟨name, _, answer⟩
  split at answer
  · cases answer
    rfl
  · cases answer

lemma isEmpty_skipSlashes (path : List UInt8) :
    (skipSlashes path).isEmpty = (components path).isEmpty := by
  rcases components_cases path with ⟨skipped, parsed⟩ | ⟨byte, rest, skipped, _, parsed⟩
  · rw [skipped, parsed]
    rfl
  · rw [skipped, parsed]
    rfl

lemma lookupLoop_eq_descend (device : Device) (mount : IsoMount) (fuel : Nat) {rounds : Nat}
    (extent : Extent) (isDir : Bool) {path : List UInt8} (enough : path.length ≤ rounds) :
    lookupLoop device mount fuel rounds extent isDir (skipSlashes path) =
      descend device mount fuel extent isDir (components path) := by
  induction rounds generalizing extent isDir path with
  | zero =>
    have empty : path = [] := List.length_eq_zero_iff.mp (by omega)
    subst empty
    rfl
  | succ rounds ih =>
    rcases components_cases path with ⟨skipped, parsed⟩ | ⟨byte, rest, skipped, notSlash, parsed⟩
    · rw [skipped, parsed]
      rfl
    have skippedShort := skipSlashes_length_le path
    have shorter := afterComponent_length_lt rest notSlash
    rw [skipped] at skippedShort
    have restEq := fun (entry : DirRecord) => ih entry.extent entry.isDir
      (show (afterComponent (byte :: rest)).length ≤ rounds by omega)
    rw [skipped, parsed, lookupLoop, if_neg (by simp), descend]
    rcases walkDir device extent (matchName device mount (component (byte :: rest))) fuel
      (Cursor.start 0) with _ | ⟨off, _ | _ | _ | entry⟩
    iterate 4 rfl
    simp only [bind_eq_bind, bind_some, isEmpty_skipSlashes, restEq]

/-- `iso9660_lookup` walks down the components of the path. -/
theorem iso9660Lookup_eq_descend (device : Device) (mount : IsoMount) (path : List UInt8)
    (fuel : Nat) :
    iso9660Lookup device mount path fuel =
      descend device mount fuel mount.root true (components path) :=
  lookupLoop_eq_descend device mount fuel mount.root true (le_refl _)

end CupidOs.Iso9660
