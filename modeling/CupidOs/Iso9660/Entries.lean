import CupidOs.Iso9660.Walk

/-!
# Records, system use entries and names

Which records leave the buffers of the ISO9660 reader: those whose fixed fields or name
reach behind their sector, and those with a continuation area that does.  On all others
the name is built, within the capacity it is given.
-/

namespace CupidOs.Iso9660

open List NodeTree Option Vfs

/-! ## Records and their names -/

/-- The length of the name of the record at `inSec`. -/
def nameLenAt (sector : Sector) (inSec : Nat) : Nat := (sector.val.getD (inSec + 32) 0).toNat

/-- The fixed fields and the name of the record at `inSec` lie in the sector. -/
def FieldsFit (sector : Sector) (inSec : Nat) : Prop :=
  inSec + 33 + nameLenAt sector inSec ≤ logicalBlockSize

lemma slice_eq_none_iff (sector : Sector) (start length : Nat) :
    slice sector start length = none ↔ logicalBlockSize < start + length := by
  rw [slice]
  split <;> simp <;> omega

lemma getSuArea_ne_none (sector : Sector) {inSec recLen : Nat} (nameLen : Nat)
    (inside : inSec + recLen ≤ logicalBlockSize) :
    getSuArea sector inSec recLen nameLen ≠ none := by
  simp only [getSuArea]
  generalize 33 + nameLen + (if nameLen % 2 = 0 then 1 else 0) = afterName
  by_cases noRoom : recLen ≤ afterName
  · simp [noRoom]
  · rw [if_neg noRoom, ne_eq, slice_eq_none_iff]
    omega

lemma readRecord_ne_none_iff {sector : Sector} {inSec recLen : Nat}
    (inside : inSec + recLen ≤ logicalBlockSize) :
    readRecord sector inSec recLen ≠ none ↔ FieldsFit sector inSec := by
  by_cases fixedFits : inSec + 33 ≤ logicalBlockSize
  · have nameLen : (((sector.val.drop inSec).take 33).getD 32 0).toNat =
        nameLenAt sector inSec := by
      simp [nameLenAt, getD_eq_getElem?_getD, getElem?_drop]
    have fixed : slice sector inSec 33 = some ((sector.val.drop inSec).take 33) :=
      if_pos fixedFits
    rcases ne_none_iff_exists'.mp
      (getSuArea_ne_none sector (nameLenAt sector inSec) inside) with ⟨su, suEq⟩
    simp only [readRecord, fixed, bind_eq_bind, bind_some, nameLen, FieldsFit]
    cases name : slice sector (inSec + 33) (nameLenAt sector inSec) with
    | none =>
      have outside := (slice_eq_none_iff _ _ _).mp name
      simp
      omega
    | some bytes =>
      have fits : ¬ logicalBlockSize < inSec + 33 + nameLenAt sector inSec := fun outside => by
        rw [(slice_eq_none_iff _ _ _).mpr outside] at name
        cases name
      simp [suEq]
      omega
  · have fixed : slice sector inSec 33 = none := if_neg fixedFits
    simp only [readRecord, fixed, FieldsFit]
    simp
    omega

/-- The area of a `CE` entry that is followed lies in the sector it is read into. -/
def ContinuationFits (device : Device) (entry : List UInt8) : Prop :=
  (device (rdU32le entry 4)).isSome = true → rdU32le entry 12 + rdU32le entry 20 ≤ 2048 →
    (rdU32le entry 12).toNat + (rdU32le entry 20).toNat ≤ logicalBlockSize

lemma continuation_ne_none_iff (device : Device) (entry : List UInt8) :
    continuation device entry ≠ none ↔ ContinuationFits device entry := by
  simp only [continuation, ContinuationFits]
  cases device (rdU32le entry 4) with
  | none => simp
  | some sector =>
    by_cases large : 2048 < rdU32le entry 12 + rdU32le entry 20
    · simp [large, UInt32.not_le.mpr large]
    · simp [large, UInt32.not_lt.mp large, slice_eq_none_iff]

/-- The entries up to the one that ends the walk; `follow` holds of a `CE` entry that is followed.
-/
def ScanFits (follow : List UInt8 → Prop) : Nat → List UInt8 → Prop
  | 0, _ => True
  | fuel + 1, area =>
    match area with
    | sig₀ :: sig₁ :: elen :: _ :: _ =>
      if elen < 4 ∨ area.length < elen.toNat then True
      else if sig₀ = 83 ∧ sig₁ = 84 then True
      else if sig₀ = 67 ∧ sig₁ = 69 ∧ 28 ≤ elen then follow area
      else ScanFits follow fuel (area.drop elen.toNat)
    | _ => True

/-- Every continuation area within `depth` steps lies in its sector. -/
def AreasFit (device : Device) : Nat → List UInt8 → Prop
  | 0, _ => True
  | depth + 1, area =>
    ScanFits (fun entry => ContinuationFits device entry ∧
        ∀ next, continuation device entry = some (some next) → AreasFit device depth next)
      area.length area

/-- A call that keeps `I` and does not fail. -/
def Keeps {σ : Type} (I : σ → Prop) (call : σ → Option σ) : Prop :=
  ∀ ctx, I ctx → ∃ next, call ctx = some next ∧ I next

section Susp

variable {σ : Type} {I : σ → Prop} {cb : List UInt8 → σ → Option σ}

lemma suspScan_iff (follow : List UInt8 → σ → Option σ) (Follow : List UInt8 → Prop)
    (calls : ∀ entry, Keeps I (cb entry))
    (follows : ∀ entry, Follow entry → Keeps I (follow entry))
    (fails : ∀ entry, ¬ Follow entry → ∀ ctx, I ctx → follow entry ctx = none)
    (fuel : Nat) (area : List UInt8) :
    (ScanFits Follow fuel area → Keeps I (suspScan follow cb fuel area)) ∧
      (¬ ScanFits Follow fuel area → ∀ ctx, I ctx → suspScan follow cb fuel area ctx = none) := by
  have stops : Keeps I (some : σ → Option σ) := fun ctx holds => ⟨ctx, rfl, holds⟩
  induction fuel generalizing area with
  | zero => exact ⟨fun _ => stops, fun misses => absurd trivial misses⟩
  | succ fuel ih =>
    rcases area with _ | ⟨sig₀, _ | ⟨sig₁, _ | ⟨elen, _ | ⟨version, rest⟩⟩⟩⟩
    iterate 4 exact ⟨fun _ => stops, fun misses => absurd trivial misses⟩
    have next := ih ((sig₀ :: sig₁ :: elen :: version :: rest).drop elen.toNat)
    have call := calls ((sig₀ :: sig₁ :: elen :: version :: rest).take elen.toNat)
    simp only [ScanFits, suspScan]
    split
    · exact ⟨fun _ => stops, fun misses => absurd trivial misses⟩
    split
    · exact ⟨fun _ => stops, fun misses => absurd trivial misses⟩
    split
    · exact ⟨follows _, fails _⟩
    constructor
    · intro fits ctx holds
      rcases call ctx holds with ⟨after, called, kept⟩
      rcases next.1 fits after kept with ⟨last, scanned, lastKept⟩
      exact ⟨last, by simp [called, scanned], lastKept⟩
    · intro misses ctx holds
      rcases call ctx holds with ⟨after, called, kept⟩
      simp [called, next.2 misses after kept]

lemma scanFits_of_forall {Follow : List UInt8 → Prop} (all : ∀ entry, Follow entry)
    (fuel : Nat) (area : List UInt8) : ScanFits Follow fuel area := by
  induction fuel generalizing area with
  | zero => trivial
  | succ fuel ih =>
    rcases area with _ | ⟨sig₀, _ | ⟨sig₁, _ | ⟨elen, _ | ⟨version, rest⟩⟩⟩⟩
    iterate 4 trivial
    simp only [ScanFits]
    split
    · trivial
    split
    · trivial
    split
    · exact all _
    · exact ih _

/-- The walk over system use entries leaves its buffer exactly when a continuation area does. -/
theorem suspWalk_iff (device : Device) (calls : ∀ entry, Keeps I (cb entry)) (depth : Nat)
    (area : List UInt8) :
    (AreasFit device depth area → Keeps I (suspWalk device cb depth area)) ∧
      (¬ AreasFit device depth area → ∀ ctx, I ctx → suspWalk device cb depth area ctx = none) := by
  induction depth generalizing area with
  | zero =>
    have scan := suspScan_iff (fun _ ctx => some ctx) (fun _ => True) calls
      (fun _ _ ctx holds => ⟨ctx, rfl, holds⟩) (fun _ misses => absurd trivial misses)
      area.length area
    exact ⟨fun _ => scan.1 (scanFits_of_forall (fun _ => trivial) _ _),
      fun misses => absurd trivial misses⟩
  | succ depth ih =>
    refine suspScan_iff _ _ calls ?_ ?_ area.length area
    · rintro entry ⟨fits, nested⟩ ctx holds
      rcases ne_none_iff_exists'.mp ((continuation_ne_none_iff device entry).mpr fits) with
        ⟨_ | next, found⟩
      · exact ⟨ctx, by simp [found], holds⟩
      · rcases (ih next).1 (nested next found) ctx holds with ⟨last, walked, kept⟩
        exact ⟨last, by simp [found, walked], kept⟩
    · intro entry misses ctx holds
      cases found : continuation device entry with
      | none => simp
      | some continued =>
        have fits := (continuation_ne_none_iff device entry).mp (by simp [found])
        obtain ⟨next, unfitNext⟩ := not_forall.mp fun nested => misses ⟨fits, nested⟩
        obtain ⟨isNext, unfit⟩ := Classical.not_imp.mp unfitNext
        rw [isNext] at found
        cases found
        simp [(ih next).2 unfit ctx holds]

end Susp

/-- The continuation areas of a record that are read lie in their sectors. -/
def EntryFits (device : Device) (mount : IsoMount) (entry : DirRecord) : Prop :=
  mount.hasRockridge = true → AreasFit device suspMaxCeDepth entry.su

section Names

variable {device : Device} {mount : IsoMount} {cap : UInt32} {entry : DirRecord}

lemma nmEntry_keeps {room : Nat} (small : (cap - 1).toNat ≤ room) (entry : List UInt8) :
    Keeps (fun nc => nc.written.length ≤ (cap - 1).toNat) (nmEntry cap room entry) := by
  intro nc short
  simp only [nmEntry]
  split
  · exact ⟨nc, rfl, short⟩
  split
  · rename_i sig₀ sig₁ _ _ flags src
    split
    · exact ⟨nc, rfl, short⟩
    split
    · exact ⟨nc, rfl, short⟩
    have bounded : (nc.written ++ src.take ((cap - 1).toNat - nc.written.length)).length ≤
        (cap - 1).toNat := by
      rw [length_append]
      have := length_take_le ((cap - 1).toNat - nc.written.length) src
      omega
    rw [if_pos (bounded.trans small)]
    exact ⟨_, rfl, bounded⟩
  · exact ⟨nc, rfl, short⟩

/-- A name array with room for the terminator is left only through a continuation area. -/
theorem recordName_spec (device : Device) (mount : IsoMount) (entry : DirRecord)
    {baseCap room : Nat} (small : (cap - 1).toNat ≤ room) (baseSmall : baseCap ≤ room) :
    (EntryFits device mount entry → ∃ name,
      recordName device mount.hasRockridge entry cap baseCap room = some name ∧
        name.length ≤ max (cap - 1).toNat baseCap) ∧
      (¬ EntryFits device mount entry →
        recordName device mount.hasRockridge entry cap baseCap room = none) := by
  have base : ∃ name, stripBaseName entry.name baseCap room = some name ∧
      name.length ≤ baseCap := by
    have short : ((baseName entry.name).take baseCap).length ≤ baseCap :=
      length_take_le _ _
    exact ⟨_, if_pos (short.trans baseSmall), short⟩
  rcases base with ⟨name, stripped, nameShort⟩
  by_cases walks : (mount.hasRockridge && !entry.su.isEmpty) = true
  · have walk := suspWalk_iff device (nmEntry_keeps small) suspMaxCeDepth entry.su
    have rockridge : mount.hasRockridge = true := (Bool.and_eq_true_iff.mp walks).1
    constructor
    · intro fits
      rcases walk.1 (fits rockridge) ⟨[], false⟩ (Nat.zero_le _) with ⟨nc, walked, short⟩
      have read : suspReadNm device entry.su cap room = some nc.written := by
        rw [suspReadNm, walked, map_some]
      have built : recordName device mount.hasRockridge entry cap baseCap room =
          if nc.written.isEmpty then some name else some nc.written := by
        simp only [recordName, walks, if_true, read, stripped, bind_eq_bind, bind_some]
      rw [built]
      split
      · exact ⟨name, rfl, nameShort.trans (le_max_right _ _)⟩
      · exact ⟨nc.written, rfl, short.trans (le_max_left _ _)⟩
    · intro misses
      have unfit : ¬ AreasFit device suspMaxCeDepth entry.su := fun fits => misses fun _ => fits
      have read : suspReadNm device entry.su cap room = none := by
        rw [suspReadNm, walk.2 unfit ⟨[], false⟩ (Nat.zero_le _), map_none]
      simp [recordName, walks, read]
  · refine ⟨fun _ => ⟨name, by simp [recordName, walks, stripped],
      nameShort.trans (le_max_right _ _)⟩, fun misses => ?_⟩
    obtain ⟨rockridge, unfit⟩ := Classical.not_imp.mp misses
    have empty : entry.su = [] := by simpa [rockridge] using walks
    rw [empty] at unfit
    exact absurd trivial unfit

/-- `iso9660_lookup` builds the name of a record exactly if the record fits. -/
theorem lookupName_spec (entry : DirRecord) : (EntryFits device mount entry → ∃ name,
      lookupName device mount entry = some name ∧ name.length ≤ maxNameLen) ∧
      (¬ EntryFits device mount entry → lookupName device mount entry = none) := by
  have nmSmall : ((255 : UInt32) - 1).toNat ≤ maxNameLen + 1 := by decide
  have spec := recordName_spec device mount entry nmSmall (Nat.le_succ maxNameLen)
  constructor
  · intro fits
    rcases spec.1 fits with ⟨name, built, short⟩
    have bounded : name.length ≤ maxNameLen := short.trans (by decide)
    refine ⟨name, ?_, bounded⟩
    simp only [lookupName, built, bind_eq_bind, bind_some, terminate,
      if_pos (Nat.lt_succ_of_le bounded)]
  · intro misses
    simp [lookupName, spec.2 misses]

lemma matchName_of_fits (fits : EntryFits device mount entry) (comp : List UInt8) :
    matchName device mount comp entry ≠ none := by
  rcases (lookupName_spec entry).1 fits with ⟨name, built, _⟩
  simp [matchName, built]

lemma matchName_of_unfit (misses : ¬ EntryFits device mount entry) (comp : List UInt8) :
    matchName device mount comp entry = none := by
  simp [matchName, (lookupName_spec entry).2 misses]

/-- A component that is longer than every name is not found. -/
theorem matchName_of_long (fits : EntryFits device mount entry) {comp : List UInt8}
    (long : maxNameLen < comp.length) : matchName device mount comp entry = some none := by
  rcases (lookupName_spec entry).1 fits with ⟨name, built, short⟩
  have different : name.length ≠ comp.length := by omega
  simp [matchName, built, different]

/-- `iso9660_readdir_step` writes the name of a record that fits. -/
theorem emitEntry_of_fits (fits : EntryFits device mount entry) (room : cap ≠ 0) :
    ∃ emitted, emitEntry device mount cap entry = some (some emitted) := by
  have positive : 0 < cap.toNat := Nat.pos_of_ne_zero fun zero => room (UInt32.toNat_inj.mp zero)
  have less : (cap - 1).toNat = cap.toNat - 1 := by
    rw [UInt32.toNat_sub_of_le]
    · rfl
    · exact UInt32.le_iff_toNat_le.mpr positive
  have small : (cap - 1).toNat ≤ cap.toNat := by omega
  rcases (recordName_spec device mount entry small small).1 fits with ⟨name, built, short⟩
  have inside : name.length < cap.toNat := by
    rw [max_self] at short
    omega
  exact ⟨⟨name, entry.isDir, entry.extent.size⟩, by simp [emitEntry, built, terminate, inside]⟩

/-- Without room for the terminator every name is written outside. -/
theorem emitEntry_of_no_room (entry : DirRecord) : emitEntry device mount 0 entry = none := by
  simp only [emitEntry]
  cases recordName device mount.hasRockridge entry 0 (0 - 1 : UInt32).toNat (0 : UInt32).toNat with
  | none => rfl
  | some name => simp [terminate]

end Names

end CupidOs.Iso9660
