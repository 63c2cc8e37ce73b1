import CupidOs.Iso9660.Bounds
import Mathlib.Data.List.Pairwise

/-!
# Names that are listed and names that are found

`iso_vfs_readdir` and `iso9660_lookup` build the name of a record in arrays of different
sizes.  In a well-formed directory both see the same entries, in the same order, and
the name that each builds is the front of one effective name.
-/

namespace CupidOs.Iso9660

open List NodeTree Option Vfs

/-! ## The effective name -/

/-- The name in the `NM` entries of a record, or else its base name. The capacity is more than the
continuation areas hold. -/
def effectiveName (device : Device) (mount : IsoMount) (entry : DirRecord) : Option (List UInt8) :=
  recordName device mount.hasRockridge entry uint32Max maxNameLen (2 ^ 32)

/-- Two walks fail together, or both succeed with related results. -/
def Related {σ τ : Type} (R : σ → τ → Prop) : Option σ → Option τ → Prop
  | none, none => True
  | some first, some second => R first second
  | _, _ => False

/-- Calls that succeed on related values with related results. -/
def Agrees {σ τ : Type} (R : σ → τ → Prop) (call : σ → Option σ) (other : τ → Option τ) : Prop :=
  ∀ first second, R first second → ∃ next nextOther,
    call first = some next ∧ other second = some nextOther ∧ R next nextOther

section Susp

variable {σ τ : Type} {R : σ → τ → Prop} {cb : List UInt8 → σ → Option σ}
  {cbOther : List UInt8 → τ → Option τ}

lemma suspScan_related {follow : List UInt8 → σ → Option σ}
    {followOther : List UInt8 → τ → Option τ} (calls : ∀ entry, Agrees R (cb entry) (cbOther entry))
    (follows : ∀ entry first second, R first second →
      Related R (follow entry first) (followOther entry second))
    (fuel : Nat) (area : List UInt8) {first : σ} {second : τ} (related : R first second) :
    Related R (suspScan follow cb fuel area first)
      (suspScan followOther cbOther fuel area second) := by
  induction fuel generalizing area first second with
  | zero => exact related
  | succ fuel ih =>
    rcases area with _ | ⟨sig₀, _ | ⟨sig₁, _ | ⟨elen, _ | ⟨version, rest⟩⟩⟩⟩
    iterate 4 exact related
    simp only [suspScan]
    split
    · exact related
    split
    · exact related
    split
    · exact follows _ _ _ related
    rcases calls ((sig₀ :: sig₁ :: elen :: version :: rest).take elen.toNat) first second
      related with ⟨next, nextOther, called, calledOther, nextRelated⟩
    simp only [called, calledOther, bind_eq_bind, bind_some]
    exact ih _ nextRelated

lemma suspWalk_related (device : Device) (calls : ∀ entry, Agrees R (cb entry) (cbOther entry))
    (depth : Nat) (area : List UInt8) {first : σ} {second : τ} (related : R first second) :
    Related R (suspWalk device cb depth area first)
      (suspWalk device cbOther depth area second) := by
  induction depth generalizing area first second with
  | zero =>
    refine suspScan_related calls ?_ area.length area related
    exact fun _ _ _ holds => holds
  | succ depth ih =>
    refine suspScan_related calls ?_ area.length area related
    intro entry first second holds
    cases continuation device entry with
    | none => trivial
    | some continued =>
      cases continued with
      | none => exact holds
      | some next => exact ih next holds

end Susp

/-- The shorter name is the front of the longer one. -/
def Truncates (limit : Nat) (short full : NmContext) : Prop :=
  short.written = full.written.take limit ∧ short.complete = full.complete ∧
    full.written.length ≤ (uint32Max - 1).toNat

lemma nmEntry_agrees {cap : UInt32} {room : Nat} (small : (cap - 1).toNat ≤ room)
    (less : (cap - 1).toNat ≤ (uint32Max - 1).toNat) (entry : List UInt8) :
    Agrees (Truncates (cap - 1).toNat) (nmEntry cap room entry)
      (nmEntry uint32Max (2 ^ 32) entry) := by
  rintro ⟨short, shortComplete⟩ ⟨full, complete⟩ ⟨sameWritten, sameComplete, bounded⟩
  dsimp only at sameWritten sameComplete bounded
  subst sameWritten sameComplete
  have unchanged : Truncates (cap - 1).toNat ⟨full.take (cap - 1).toNat, shortComplete⟩
      ⟨full, shortComplete⟩ := ⟨rfl, rfl, bounded⟩
  cases shortComplete with
  | true => exact ⟨_, _, rfl, rfl, unchanged⟩
  | false =>
    rcases entry with _ | ⟨sig₀, _ | ⟨sig₁, _ | ⟨elen, _ | ⟨version, _ | ⟨flags, src⟩⟩⟩⟩⟩
    iterate 5 exact ⟨_, _, rfl, rfl, unchanged⟩
    simp only [nmEntry, Bool.false_eq_true, if_false]
    by_cases other : sig₀ ≠ 78 ∨ sig₁ ≠ 77
    · exact ⟨_, _, if_pos other, if_pos other, unchanged⟩
    by_cases special : flags &&& 0x16 ≠ 0
    · rw [if_neg other, if_neg other, if_pos special, if_pos special]
      exact ⟨_, _, rfl, rfl, unchanged⟩
    rw [if_neg other, if_neg other, if_neg special, if_neg special]
    have total : (full ++ src.take ((uint32Max - 1).toNat - full.length)).length ≤
        (uint32Max - 1).toNat := by
      have := length_take_le ((uint32Max - 1).toNat - full.length) src
      rw [length_append]
      omega
    have cut : full.take (cap - 1).toNat ++
        src.take ((cap - 1).toNat - (full.take (cap - 1).toNat).length) =
          (full ++ src.take ((uint32Max - 1).toNat - full.length)).take (cap - 1).toNat := by
      rw [take_append, take_take, length_take]
      congr 2
      omega
    have fits : (full.take (cap - 1).toNat ++
        src.take ((cap - 1).toNat - (full.take (cap - 1).toNat).length)).length ≤ room := by
      rw [cut]
      exact (length_take_le _ _).trans small
    have totalFits : (full ++ src.take ((uint32Max - 1).toNat - full.length)).length ≤ 2 ^ 32 :=
      total.trans (by decide)
    rw [if_pos fits, if_pos totalFits]
    exact ⟨_, _, rfl, rfl, cut, rfl, total⟩

variable {entry : DirRecord} {name : List UInt8} {off : UInt32} {device : Device} {extent : Extent}
  {entries : List DirRecord} {mount : IsoMount}

/-- The same name, ignoring the case of ASCII letters. -/
def SameName (first second : List UInt8) : Prop :=
  first.map tolowerAscii = second.map tolowerAscii

instance (first second : List UInt8) : Decidable (SameName first second) :=
  inferInstanceAs (Decidable (_ = _))

lemma ciEq_iff {first second : List UInt8} (noNul : 0 ∉ first) (noNulSecond : 0 ∉ second)
    (lengths : first.length = second.length) : ciEq first second = true ↔ SameName first second := by
  induction first generalizing second with
  | nil =>
    cases second with
    | nil => simp [ciEq, SameName]
    | cons byte second => simp at lengths
  | cons byte first ih =>
    cases second with
    | nil => simp at lengths
    | cons other second =>
      have notNul : ¬ (byte = 0 ∨ other = 0) := by
        rintro (rfl | rfl)
        · exact noNul mem_cons_self
        · exact noNulSecond mem_cons_self
      have rest := ih (fun member => noNul (mem_cons_of_mem _ member))
        (fun member => noNulSecond (mem_cons_of_mem _ member)) (by simpa using lengths)
      rw [SameName] at rest
      rw [ciEq, if_neg notNul, SameName, map_cons, map_cons, cons.injEq]
      by_cases same : tolowerAscii byte = tolowerAscii other
      · simp [same, rest]
      · simp [same]

section

variable (effective : effectiveName device mount entry = some name)
include effective

/-- With a smaller capacity a name is cut, and not changed otherwise. -/
theorem recordName_eq_take {cap : UInt32} {baseCap room : Nat}
    (small : (cap - 1).toNat ≤ room) (less : (cap - 1).toNat ≤ (uint32Max - 1).toNat)
    (positive : 0 < (cap - 1).toNat) (baseSmall : baseCap ≤ room)
    (baseLess : baseCap ≤ maxNameLen) :
    ∃ count, (count = (cap - 1).toNat ∨ count = baseCap) ∧
      recordName device mount.hasRockridge entry cap baseCap room = some (name.take count) := by
  have base : ∀ full, stripBaseName entry.name maxNameLen (2 ^ 32) = some full →
      stripBaseName entry.name baseCap room = some (full.take baseCap) := by
    intro full stripped
    have cut : ((baseName entry.name).take maxNameLen).take baseCap =
        (baseName entry.name).take baseCap := by
      rw [take_take, min_eq_left baseLess]
    simp only [stripBaseName] at stripped ⊢
    split at stripped
    · cases stripped
      rw [cut, if_pos ((length_take_le _ _).trans baseSmall)]
    · cases stripped
  by_cases walks : (mount.hasRockridge && !entry.su.isEmpty) = true
  · have start : Truncates (cap - 1).toNat ⟨[], false⟩ ⟨[], false⟩ :=
      ⟨take_nil.symm, rfl, Nat.zero_le _⟩
    have related := suspWalk_related device (nmEntry_agrees small less) suspMaxCeDepth entry.su
      start
    simp only [effectiveName, recordName, walks, if_true, suspReadNm] at effective ⊢
    cases fullWalk : suspWalk device (nmEntry uint32Max (2 ^ 32)) suspMaxCeDepth entry.su
        ⟨[], false⟩ with
    | none =>
      rw [fullWalk] at effective
      cases effective
    | some full =>
      rw [fullWalk] at related effective
      cases shortWalk : suspWalk device (nmEntry cap room) suspMaxCeDepth entry.su ⟨[], false⟩ with
      | none =>
        rw [shortWalk] at related
        exact related.elim
      | some short =>
        rw [shortWalk] at related
        simp only [map_some, bind_eq_bind, bind_some, related.1] at effective ⊢
        by_cases empty : full.written = []
        · rw [empty, isEmpty_nil, if_pos rfl] at effective
          rw [empty, take_nil, isEmpty_nil, if_pos rfl]
          exact ⟨baseCap, Or.inr rfl, base name effective⟩
        have notEmpty : full.written.isEmpty = false := by simpa using empty
        have shortNotEmpty : (full.written.take (cap - 1).toNat).isEmpty = false := by
          simpa [empty] using positive.ne'
        rw [notEmpty, if_neg Bool.false_ne_true] at effective
        cases effective
        rw [shortNotEmpty, if_neg Bool.false_ne_true]
        exact ⟨_, Or.inl rfl, rfl⟩
  · simp only [effectiveName, recordName, walks, Bool.false_eq_true, if_false,
      bind_eq_bind, bind_some, isEmpty_nil, if_true] at effective ⊢
    exact ⟨baseCap, Or.inr rfl, base name effective⟩

/-- The name that `iso9660_lookup` compares has 254 bytes of the effective name or more. -/
theorem lookupName_eq_take :
    ∃ count, 254 ≤ count ∧ lookupName device mount entry = some (name.take count) := by
  rcases recordName_eq_take effective (show ((255 : UInt32) - 1).toNat ≤ maxNameLen + 1 by decide)
    (by decide) (by decide) (Nat.le_succ maxNameLen) (le_refl _) with ⟨count, either, built⟩
  have bounds : 254 ≤ count ∧ count < maxNameLen + 1 := by
    rcases either with rfl | rfl <;> decide
  refine ⟨count, bounds.1, ?_⟩
  have inside : (name.take count).length < maxNameLen + 1 :=
    (length_take_le _ _).trans_lt bounds.2
  simp only [lookupName, built, bind_eq_bind, bind_some, terminate, if_pos inside]

/-- The entry that `iso_vfs_readdir` should report. -/
def listed (name : List UInt8) (entry : DirRecord) : Emitted :=
  ⟨name.take (vfsMaxName - 1), entry.isDir, entry.extent.size⟩

lemma emitEntry_eq_take :
    emitEntry device mount (UInt32.ofNat vfsMaxName) entry = some (some (listed name entry)) := by
  rcases recordName_eq_take effective
    (show (UInt32.ofNat vfsMaxName - 1).toNat ≤ (UInt32.ofNat vfsMaxName).toNat by decide)
    (by decide) (by decide)
    (show (UInt32.ofNat vfsMaxName - 1).toNat ≤ (UInt32.ofNat vfsMaxName).toNat by decide)
    (by decide) with ⟨count, either, built⟩
  have counted : count = vfsMaxName - 1 := by
    rcases either with rfl | rfl <;> decide
  subst counted
  have inside : (name.take (vfsMaxName - 1)).length < (UInt32.ofNat vfsMaxName).toNat :=
    (length_take_le _ _).trans_lt (by decide)
  simp only [emitEntry, built, bind_eq_bind, bind_some, if_pos inside, terminate, listed]

/-- `iso9660_lookup` compares effective names, for names that fit in a directory entry. -/
theorem matchName_eq {comp : List UInt8} (isName : IsComponent name)
    (isComponent : IsComponent comp) (short : comp.length < 254) :
    matchName device mount comp entry = some (if SameName name comp then some entry else none) := by
  rcases lookupName_eq_take effective with ⟨count, large, built⟩
  have whole : name.length = comp.length → name.take count = name := fun same =>
    take_of_length_le (by omega)
  have agree : ((name.take count).length = comp.length ∧ ciEq (name.take count) comp = true) ↔
      SameName name comp := by
    constructor
    · rintro ⟨lengths, equal⟩
      have same : name.length = comp.length := by
        rw [length_take] at lengths
        omega
      rw [whole same] at equal
      exact (ciEq_iff isName.2.2 isComponent.2.2 same).mp equal
    · intro sameName
      have same : name.length = comp.length := by
        simpa using congrArg length sameName
      rw [whole same]
      exact ⟨same, (ciEq_iff isName.2.2 isComponent.2.2 same).mpr sameName⟩
  simp only [matchName, built, bind_eq_bind, bind_some, agree]

end

/-! ## Well-formed directories -/

/-- The entries of a directory from an offset on, in order. -/
inductive Lists (device : Device) (extent : Extent) : UInt32 → List DirRecord → Prop
  | ended {off : UInt32} (outside : ¬ off < extent.size) : Lists device extent off []
  | padding {off next : UInt32} {entries : List DirRecord} (inside : off < extent.size)
      (place : placeAt device extent off = .padding next) (rest : Lists device extent next entries) :
      Lists device extent off entries
  | dot {off next : UInt32} {entry : DirRecord} {entries : List DirRecord}
      (has : HasRecord device extent off entry next) (isDot : isDot entry.name = true)
      (rest : Lists device extent next entries) : Lists device extent off entries
  | entry {off next : UInt32} {entry : DirRecord} {entries : List DirRecord}
      (has : HasRecord device extent off entry next) (notDot : isDot entry.name = false)
      (rest : Lists device extent next entries) : Lists device extent off (entry :: entries)

/-- A directory that can be read to its end, whose entries have names that a path can spell. -/
structure WellFormed (device : Device) (mount : IsoMount) (extent : Extent)
    (entries : List DirRecord) : Prop where
  lists : Lists device extent 0 entries
  sectors : ∀ off, off < extent.size → extent.lbaAt off ≠ uint32Max
  named : ∀ entry ∈ entries, ∃ name, effectiveName device mount entry = some name ∧ IsComponent name

/-- How a walk ends that stops at a value. -/
def Walk.ofOption {β : Type} : Option β → Walk β
  | some value => .stopped value
  | none => .ended

/-- A walk stops at the first entry that `visit` chooses, and what is behind it is left. -/
theorem Lists.sweep {β : Type} (lists : Lists device extent off entries)
    (sectors : ∀ off, off < extent.size → extent.lbaAt off ≠ uint32Max)
    (choose : DirRecord → Option β) {visit : DirRecord → Option (Option β)}
    (visits : ∀ entry ∈ entries, visit entry = some (choose entry)) (fresh : Bool) :
    ∃ bound next, sweep device extent visit bound fresh off =
        some (next, Walk.ofOption (entries.findSome? choose)) ∧
      Lists device extent next (entries.dropWhile fun entry => (choose entry).isNone).tail := by
  induction lists generalizing fresh with
  | @ended off outside => exact ⟨0, off, sweep_of_ended outside 0, .ended outside⟩
  | @padding off next entries inside place _ ih =>
    rcases ih visits false with ⟨bound, last, swept, left⟩
    have notStale : ¬ (fresh = true ∧ extent.lbaAt off = uint32Max) := fun stale =>
      sectors off inside stale.2
    exact ⟨bound + 1, last, by rw [sweep_of_padding inside notStale place, swept], left⟩
  | @dot off next entry entries has dotEntry _ ih =>
    rcases ih visits false with ⟨bound, last, swept, left⟩
    rcases has with ⟨inside, sector, inSec, recLen, place, read, rfl⟩
    have notStale : ¬ (fresh = true ∧ extent.lbaAt off = uint32Max) := fun stale =>
      sectors off inside stale.2
    refine ⟨bound + 1, last, ?_, left⟩
    rw [sweep_of_record inside notStale place, read, bind_some, onEntry, if_pos dotEntry, swept]
  | @entry off next entry entries has notDot rest ih =>
    rcases ih (fun other member => visits other (mem_cons_of_mem _ member)) false with
      ⟨bound, last, swept, left⟩
    rcases has with ⟨inside, sector, inSec, recLen, place, read, rfl⟩
    have notStale : ¬ (fresh = true ∧ extent.lbaAt off = uint32Max) := fun stale =>
      sectors off inside stale.2
    have chosen := visits entry mem_cons_self
    cases choice : choose entry with
    | none =>
      refine ⟨bound + 1, last, ?_, by simpa [choice] using left⟩
      rw [sweep_of_record inside notStale place, read, bind_some, onEntry,
        if_neg (by simp [notDot]), chosen, choice, swept]
      simp [choice]
    | some value =>
      refine ⟨bound + 1, off + UInt32.ofNat recLen, ?_, by simpa [choice] using rest⟩
      rw [sweep_of_record inside notStale place, read, bind_some, onEntry,
        if_neg (by simp [notDot]), chosen, choice]
      simp [choice, Walk.ofOption]

/-! ## Listing a directory -/

/-- The entries that up to `count` calls of `iso_vfs_readdir` report. -/
def readdirAll (device : Device) (mount : IsoMount) (fuel : Nat) :
    Nat → IsoFile → Option (List Emitted)
  | 0, _ => some []
  | count + 1, file => do
      let (next, step) ← isoVfsReaddir device mount file fuel
      match step with
      | .emitted entry => return entry :: (← readdirAll device mount fuel count next)
      | _ => some []

/-- The report for an entry. -/
def reportOf (device : Device) (mount : IsoMount) (entry : DirRecord) : Emitted :=
  listed ((effectiveName device mount entry).getD []) entry

lemma settled_ofOption (next : UInt32) (choice : Option β) :
    Settled (some (next, Walk.ofOption choice)) := by
  cases choice <;> exact fun _ => nofun

/-- A call of `iso_vfs_readdir` on a handle whose next entry is known. -/
theorem isoVfsReaddir_of_sweep {next : UInt32} {choice : Option Emitted}
    {bound fuel : Nat}
    (swept : sweep device extent (emitEntry device mount (UInt32.ofNat vfsMaxName)) bound true off =
      some (next, Walk.ofOption choice)) (enough : bound < fuel)
    (noNul : ∀ entry ∈ choice, 0 ∉ entry.name) :
    isoVfsReaddir device mount ⟨extent, true, off⟩ fuel =
      some (⟨extent, true, next⟩, stepOf (Walk.ofOption choice)) := by
  have walked := walkDir_start_eq swept (settled_ofOption next choice) enough
  have stepped : iso9660ReaddirStep device mount ⟨extent, true, off⟩ (UInt32.ofNat vfsMaxName) fuel =
      some (⟨extent, true, next⟩, stepOf (Walk.ofOption choice)) :=
    readdirStep_of_walked rfl walked
  rw [isoVfsReaddir, stepped]
  cases choice with
  | none => rfl
  | some entry =>
    have whole : entry.name.takeWhile (· != 0) = entry.name :=
      takeWhile_eq_self_iff.mpr fun byte member => by
        have present : byte ≠ 0 := fun zero => noNul entry rfl (zero ▸ member)
        simpa using present
    simp only [Walk.ofOption, stepOf, bind_eq_bind, bind_some, whole]

/-- `iso_vfs_readdir` reports the entries in order, each with the front of its name. -/
theorem Lists.readdirAll (lists : Lists device extent off entries)
    (sectors : ∀ off, off < extent.size → extent.lbaAt off ≠ uint32Max)
    (named : ∀ entry ∈ entries, ∃ name, effectiveName device mount entry = some name ∧
      IsComponent name) :
    ∃ bound, ∀ fuel, bound < fuel → ∀ count,
      readdirAll device mount fuel count ⟨extent, true, off⟩ =
        some ((entries.map (reportOf device mount)).take count) := by
  have visits : ∀ entry ∈ entries, emitEntry device mount (UInt32.ofNat vfsMaxName) entry =
      some (some (reportOf device mount entry)) := by
    intro entry member
    rcases named entry member with ⟨name, effective, _⟩
    rw [emitEntry_eq_take effective, reportOf, effective, getD_some]
  have noNul : ∀ entry ∈ entries, 0 ∉ (reportOf device mount entry).name := by
    intro entry member nul
    rcases named entry member with ⟨name, effective, isName⟩
    rw [reportOf, effective] at nul
    exact isName.2.2 (mem_of_mem_take nul)
  induction entries generalizing off with
  | nil =>
    rcases lists.sweep sectors (fun entry => some (reportOf device mount entry)) visits true with
      ⟨bound, next, swept, _⟩
    refine ⟨bound, fun fuel enough count => ?_⟩
    have called := isoVfsReaddir_of_sweep swept enough (by simp)
    cases count with
    | zero => rfl
    | succ count => simp [Iso9660.readdirAll, called, Walk.ofOption, stepOf]
  | cons entry entries ih =>
    rcases lists.sweep sectors (fun entry => some (reportOf device mount entry)) visits true with
      ⟨bound, next, swept, left⟩
    simp only [isNone_some, Bool.false_eq_true, not_false_eq_true,
      dropWhile_cons_of_neg, tail_cons] at left
    rcases ih left (fun other member => named other (mem_cons_of_mem _ member))
      (fun other member => visits other (mem_cons_of_mem _ member))
      (fun other member => noNul other (mem_cons_of_mem _ member)) with ⟨rest, reads⟩
    refine ⟨max bound rest, fun fuel enough count => ?_⟩
    have called := isoVfsReaddir_of_sweep swept (show bound < fuel by omega) (by
      rintro emitted ⟨⟩
      exact noNul entry mem_cons_self)
    cases count with
    | zero => rfl
    | succ count =>
      simp [Iso9660.readdirAll, called, Walk.ofOption, stepOf,
        reads fuel (show rest < fuel by omega) count]

/-! ## Finding what was listed -/

/-- The first entry whose effective name is `comp`, ignoring case. -/
def firstNamed (device : Device) (mount : IsoMount) (entries : List DirRecord)
    (comp : List UInt8) : Option DirRecord :=
  entries.find? fun entry =>
    (effectiveName device mount entry).any fun name => decide (SameName name comp)

/-- A component is found in a well-formed directory as the first entry with that name. -/
theorem WellFormed.search (wellFormed : WellFormed device mount extent entries)
    {comp : List UInt8} (isComponent : IsComponent comp) (short : comp.length < 254) :
    ∃ bound off, ∀ fuel, bound < fuel →
      walkDir device extent (matchName device mount comp) fuel (Cursor.start 0) =
        some (off, Walk.ofOption (firstNamed device mount entries comp)) := by
  have visits : ∀ entry ∈ entries, matchName device mount comp entry =
      some (guard (fun entry => (effectiveName device mount entry).any fun name =>
        decide (SameName name comp)) entry) := by
    intro entry member
    rcases wellFormed.named entry member with ⟨name, effective, isName⟩
    rw [matchName_eq effective isName isComponent short, Option.guard, effective]
    simp
  rcases wellFormed.lists.sweep wellFormed.sectors _ visits true with ⟨bound, off, swept, _⟩
  rw [← find?_eq_findSome?_guard, ← firstNamed] at swept
  exact ⟨bound, off, fun fuel => walkDir_start_eq swept (settled_ofOption _ _)⟩

/-- A path that leads to a directory leads to what is below it. -/
theorem descend_append {fuel₀ : Nat} {origin : Extent} {isDir : Bool}
    {names : List (List UInt8)}
    (found : descend device mount fuel₀ origin isDir names = some (.ok ⟨extent, true, 0⟩)) :
    ∃ bound, ∀ fuel, bound < fuel → ∀ rest, descend device mount fuel origin isDir (names ++ rest) =
        descend device mount fuel extent true rest := by
  induction names generalizing origin isDir with
  | nil =>
    rw [descend] at found
    cases found
    exact ⟨0, fun _ _ _ => rfl⟩
  | cons name names ih =>
    rcases exists_sweep_of_start device origin (matchName device mount name) fuel₀ 0 with
      ⟨bound, same⟩
    rw [descend, same] at found
    rcases swept : sweep device origin (matchName device mount name) bound true 0 with
      _ | ⟨off, _ | _ | _ | entry⟩
    iterate 4
      rw [swept] at found
      cases found
    rw [swept] at found
    have descended : (if !names.isEmpty && !entry.isDir then some (.failed .enotdir)
        else descend device mount fuel₀ entry.extent entry.isDir names) =
          some (.ok ⟨extent, true, 0⟩) := found
    have notBlocked : ¬ (!names.isEmpty && !entry.isDir) = true := by
      intro blocked
      rw [if_pos blocked] at descended
      cases descended
    rw [if_neg notBlocked] at descended
    have isDirectory : entry.isDir = true := by
      cases names with
      | nil =>
        rw [descend] at descended
        exact congrArg IsoFile.isDir (Lookup.ok.inj (some.inj descended))
      | cons => simpa using notBlocked
    rcases ih descended with ⟨limit, further⟩
    rw [isDirectory] at further
    refine ⟨max bound limit, fun fuel enough rest => ?_⟩
    have walked := walkDir_start_eq swept (fun _ => by simp) (show bound < fuel by omega)
    rw [cons_append, descend_of_stopped walked, isDirectory, Bool.not_true, Bool.and_false,
      if_neg Bool.false_ne_true, further fuel (by omega)]

lemma exists_bound_of_forall_mem {α : Type} {P : α → Nat → Prop} {list : List α}
    (bounds : ∀ value ∈ list, ∃ bound, ∀ fuel, bound < fuel → P value fuel) :
    ∃ bound, ∀ fuel, bound < fuel → ∀ value ∈ list, P value fuel := by
  induction list with
  | nil => exact ⟨0, fun _ _ _ member => nomatch member⟩
  | cons value list ih =>
    rcases bounds value mem_cons_self with ⟨first, holds⟩
    rcases ih fun other member => bounds other (mem_cons_of_mem _ member) with
      ⟨rest, holdsRest⟩
    refine ⟨max first rest, fun fuel enough other member => ?_⟩
    rcases mem_cons.mp member with rfl | member
    · exact holds fuel (by omega)
    · exact holdsRest fuel (by omega) other member

/-- The names of the entries differ, ignoring case. -/
def DistinctNames (device : Device) (mount : IsoMount) (entries : List DirRecord) : Prop :=
  entries.Pairwise fun first second => ∀ name other,
    effectiveName device mount first = some name → effectiveName device mount second = some other →
      ¬ SameName name other

instance (device : Device) (mount : IsoMount) : Std.Symm fun first second : DirRecord =>
    ∀ name other, effectiveName device mount first = some name →
      effectiveName device mount second = some other → ¬ SameName name other where
  symm _ _ apart name other firstIs secondIs same := apart other name secondIs firstIs same.symm

/-- The lookup gives the first entry with the reported name, which has the same type and size if
names are distinct. -/
def Accepted (device : Device) (mount : IsoMount) (path : List UInt8)
    (entries : List DirRecord) (fuel : Nat) (emitted : Emitted) : Prop :=
  ∃ first, firstNamed device mount entries emitted.name = some first ∧
    iso9660Lookup device mount (path ++ slash :: emitted.name) fuel =
      some (.ok ⟨first.extent, first.isDir, 0⟩) ∧
    (DistinctNames device mount entries →
      first.isDir = emitted.isDir ∧ first.extent.size = emitted.size)

/-- Every entry that `iso_vfs_readdir` ever reports of the directory is found. -/
def ListedAreFound (device : Device) (mount : IsoMount) (path : List UInt8) (extent : Extent)
    (entries : List DirRecord) : Prop :=
  ∃ bound, ∀ fuel, bound < fuel → ∀ count, ∃ reported,
    readdirAll device mount fuel count ⟨extent, true, 0⟩ = some reported ∧
      ∀ emitted ∈ reported, Accepted device mount path entries fuel emitted

/-- The name fits in a directory entry of the VFS; or the front that fits is the name of an entry,
which has the same type and size if names are distinct. -/
def NameSurvives (device : Device) (mount : IsoMount) (entries : List DirRecord)
    (entry : DirRecord) : Prop :=
  ∀ name, effectiveName device mount entry = some name → name.length < vfsMaxName ∨
      ∃ first, firstNamed device mount entries (name.take (vfsMaxName - 1)) = some first ∧
        (DistinctNames device mount entries →
          first.isDir = entry.isDir ∧ first.extent.size = entry.extent.size)

section Found

lemma isComponent_take {name : List UInt8} (isName : IsComponent name) :
    IsComponent (name.take (vfsMaxName - 1)) := by
  refine ⟨?_, fun member => isName.2.1 (mem_of_mem_take member),
    fun member => isName.2.2 (mem_of_mem_take member)⟩
  simpa [vfsMaxName] using isName.1

/-- An entry with a name that fits is the first of that name, or an earlier entry is. -/
theorem firstNamed_self (member : entry ∈ entries) {name : List UInt8}
    (effective : effectiveName device mount entry = some name) :
    ∃ first, firstNamed device mount entries name = some first ∧
      (DistinctNames device mount entries → first = entry) := by
  have matchesName : (effectiveName device mount entry).any
      (fun other => decide (SameName other name)) = true := by
    simp [effective, SameName]
  have isSome : (firstNamed device mount entries name).isSome = true := by
    rw [firstNamed, find?_isSome]
    exact ⟨entry, member, matchesName⟩
  rcases isSome_iff_exists.mp isSome with ⟨first, found⟩
  refine ⟨first, found, fun distinct => ?_⟩
  by_contra different
  have firstMatches := find?_some found
  cases firstName : effectiveName device mount first with
  | none => simp [firstName] at firstMatches
  | some other =>
    have same : SameName other name := by simpa [firstName] using firstMatches
    have apart := distinct.forall (mem_of_find?_eq_some found) member different
    exact apart other name firstName effective same

/-- The lookup of a reported name is the search for it in the directory. -/
theorem WellFormed.lookup (wellFormed : WellFormed device mount extent entries) {path : List UInt8}
    (opens : ∃ fuel, iso9660Lookup device mount path fuel = some (.ok ⟨extent, true, 0⟩))
    {comp : List UInt8} (isComponent : IsComponent comp) (short : comp.length < 254) :
    ∃ bound, ∀ fuel, bound < fuel → ∀ first, firstNamed device mount entries comp = some first →
      iso9660Lookup device mount (path ++ slash :: comp) fuel =
        some (.ok ⟨first.extent, first.isDir, 0⟩) := by
  rcases opens with ⟨fuel₀, opened⟩
  rw [iso9660Lookup_eq_descend] at opened
  rcases descend_append opened with ⟨limit, descends⟩
  rcases wellFormed.search isComponent short with ⟨bound, off, walked⟩
  refine ⟨max limit bound, fun fuel enough first found => ?_⟩
  have stopped := walked fuel (by omega)
  rw [found, Walk.ofOption] at stopped
  rw [iso9660Lookup_eq_descend, components_append_slash, components_of_isComponent isComponent,
    descends fuel (by omega), descend_of_stopped stopped, if_neg (by simp), descend]

lemma ListedAreFound.nameSurvives {path : List UInt8}
    (found : ListedAreFound device mount path extent entries)
    (wellFormed : WellFormed device mount extent entries) (member : entry ∈ entries) :
    NameSurvives device mount entries entry := by
  intro name effective
  rcases wellFormed.lists.readdirAll wellFormed.sectors wellFormed.named with ⟨limit, reads⟩
  rcases found with ⟨bound, found⟩
  rcases found (max limit bound + 1) (by omega) entries.length with ⟨reported, read, accepted⟩
  rw [reads _ (by omega), take_of_length_le (by simp)] at read
  cases read
  rcases accepted (reportOf device mount entry) (mem_map_of_mem member) with
    ⟨first, isFirst, _, same⟩
  rw [reportOf, effective, getD_some] at isFirst same
  exact Or.inr ⟨first, isFirst, same⟩

/-- What is reported for an entry whose name survives is found. -/
theorem WellFormed.accepted (wellFormed : WellFormed device mount extent entries)
    {path : List UInt8}
    (opens : ∃ fuel, iso9660Lookup device mount path fuel = some (.ok ⟨extent, true, 0⟩))
    (member : entry ∈ entries) (survives : NameSurvives device mount entries entry) :
    ∃ bound, ∀ fuel, bound < fuel →
      Accepted device mount path entries fuel (reportOf device mount entry) := by
  rcases wellFormed.named entry member with ⟨name, effective, isName⟩
  have short : (name.take (vfsMaxName - 1)).length < 254 :=
    (length_take_le _ _).trans_lt (by decide)
  rcases wellFormed.lookup opens (isComponent_take isName) short with ⟨bound, looked⟩
  refine ⟨bound, fun fuel enough => ?_⟩
  rw [reportOf, effective, getD_some]
  rcases survives name effective with fits | ⟨first, isFirst, same⟩
  · have whole : name.take (vfsMaxName - 1) = name :=
      take_of_length_le (Nat.le_sub_one_of_lt fits)
    rcases firstNamed_self member effective with ⟨first, isFirst, same⟩
    rw [← whole] at isFirst
    refine ⟨first, isFirst, looked fuel enough first isFirst, fun distinct => ?_⟩
    rw [same distinct]
    exact ⟨rfl, rfl⟩
  · exact ⟨first, isFirst, looked fuel enough first isFirst, same⟩

end Found

/-- In a well-formed directory every reported name is found, as the first entry of that
name, exactly when the names fit in a directory entry of the VFS or lead, cut there, to an
entry like their own. -/
theorem listed_names_are_found_iff_names_survive (device : Device) (mount : IsoMount)
    (path : CString) (extent : Extent) (entries : List DirRecord)
    (wellFormed : WellFormed device mount extent entries)
    (opens : ∃ fuel, iso9660Lookup device mount path.val fuel = some (.ok ⟨extent, true, 0⟩)) :
    ListedAreFound device mount path.val extent entries ↔
      ∀ entry ∈ entries, NameSurvives device mount entries entry := by
  constructor
  · exact fun found entry member => found.nameSurvives wellFormed member
  · intro survives
    rcases wellFormed.lists.readdirAll wellFormed.sectors wellFormed.named with ⟨limit, reads⟩
    rcases exists_bound_of_forall_mem fun entry member =>
      wellFormed.accepted opens member (survives entry member) with ⟨bound, accepted⟩
    refine ⟨max limit bound, fun fuel enough count => ⟨_, reads fuel (by omega) count, ?_⟩⟩
    intro emitted member
    rcases mem_map.mp (mem_of_mem_take member) with ⟨entry, entryMember, rfl⟩
    exact accepted fuel (by omega) entry entryMember

/-! ## A directory with one Rock Ridge file -/

/-- A root with `.`, which carries the `SP` entry, and a file `F` whose `NM` entry holds `name`. -/
def exampleRoot (name : List UInt8) : Sector :=
  ⟨([41] ++ replicate 31 0 ++ [1, 0] ++ [83, 80, 7, 1, 0xBE, 0xEF, 0] ++
      [UInt8.ofNat (39 + name.length)] ++ replicate 31 0 ++ [1, 70] ++
      [78, 77, UInt8.ofNat (5 + name.length), 1, 0] ++ name ++
      replicate logicalBlockSize 0).take logicalBlockSize, by
    rw [length_take, length_append, length_replicate]
    omega⟩

/-- The image of a root directory. -/
def exampleImage (name : List UInt8) : Device := fun lba =>
  if lba = 16 then some exampleDescriptor
  else if lba = 18 then some (exampleRoot name)
  else none

/-- Where the root directory is. -/
def exampleExtent : Extent := ⟨18, 2048⟩

/-- The mount of the image. -/
def exampleMount : IsoMount := ⟨exampleExtent, true⟩

/-- The record `.` of the root directory. -/
def exampleDot : DirRecord := ⟨⟨0, 0⟩, false, [0], [83, 80, 7, 1, 0xBE, 0xEF, 0]⟩

/-- The record of the file. -/
def exampleFile (name : List UInt8) : DirRecord :=
  ⟨⟨0, 0⟩, false, [70], [78, 77, UInt8.ofNat (5 + name.length), 1, 0] ++ name⟩

/-- What a walk over the root directory meets. -/
def ExampleReads (name : List UInt8) : Prop :=
  placeAt (exampleImage name) exampleExtent 0 = .record (exampleRoot name) 0 41 ∧
    readRecord (exampleRoot name) 0 41 = some exampleDot ∧
    placeAt (exampleImage name) exampleExtent 41 =
      .record (exampleRoot name) 41 (39 + name.length) ∧
    readRecord (exampleRoot name) 41 (39 + name.length) = some (exampleFile name) ∧
    41 + UInt32.ofNat (39 + name.length) < exampleExtent.size ∧
    placeAt (exampleImage name) exampleExtent (41 + UInt32.ofNat (39 + name.length)) =
      .padding 2048 ∧
    effectiveName (exampleImage name) exampleMount (exampleFile name) = some name

instance (name : List UInt8) : Decidable (ExampleReads name) :=
  inferInstanceAs (Decidable (_ ∧ _ ∧ _ ∧ _ ∧ _ ∧ _ ∧ _))

lemma wellFormed_example (reads : ExampleReads name) (isName : IsComponent name) :
    WellFormed (exampleImage name) exampleMount exampleExtent [exampleFile name] := by
  rcases reads with ⟨dotPlace, dotRead, filePlace, fileRead, inside, padding, effective⟩
  refine ⟨?_, ?_, ?_⟩
  · have ended : Lists (exampleImage name) exampleExtent 2048 [] := .ended (by decide)
    have file := Lists.entry ⟨by decide, _, _, _, filePlace, fileRead, rfl⟩ rfl
      (.padding inside padding ended)
    exact .dot ⟨by decide, _, _, _, dotPlace, dotRead, rfl⟩ rfl file
  · intro off small last
    have below : off.toNat < 2048 := UInt32.lt_iff_toNat_lt.mp small
    have number := congrArg UInt32.toNat last
    simp only [Extent.lbaAt, exampleExtent, UInt32.toNat_add, UInt32.toNat_div] at number
    rw [Nat.div_eq_of_lt (by simpa using below)] at number
    exact absurd number (by decide)
  · intro entry member
    rw [mem_singleton.mp member]
    exact ⟨name, effective, isName⟩

theorem listed_names_are_found_iff_names_survive_short_name :
    ListedAreFound (exampleImage [97]) exampleMount [] exampleExtent [exampleFile [97]] := by
  have reads : ExampleReads [97] := by decide +kernel
  have survives : ∀ entry ∈ [exampleFile [97]],
      NameSurvives (exampleImage [97]) exampleMount [exampleFile [97]] entry := by
    intro entry member name effective
    rw [mem_singleton.mp member, reads.2.2.2.2.2.2] at effective
    cases effective
    exact Or.inl (by decide)
  exact (listed_names_are_found_iff_names_survive (exampleImage [97]) exampleMount ⟨[], by decide⟩
    exampleExtent [exampleFile [97]] (wellFormed_example reads ⟨by decide, by decide, by decide⟩)
    ⟨0, rfl⟩).mpr survives

/-- A name of 128 bytes. -/
def cutName : List UInt8 := replicate 128 97

/-- A file with a name of 128 bytes is reported with 127 of them, and no file has that
name. -/
theorem long_name_is_reported_and_not_found :
    iso9660MountParse (exampleImage cutName) = .ok exampleMount ∧
      WellFormed (exampleImage cutName) exampleMount exampleExtent [exampleFile cutName] ∧
      ¬ ListedAreFound (exampleImage cutName) exampleMount [] exampleExtent
        [exampleFile cutName] := by
  have parsed : iso9660MountParse (exampleImage cutName) = .ok exampleMount := by
    decide +kernel
  have reads : ExampleReads cutName := by decide +kernel
  have isName : IsComponent cutName := by
    refine ⟨by decide +kernel, by decide +kernel, by decide +kernel⟩
  have wellFormed := wellFormed_example reads isName
  refine ⟨parsed, wellFormed, fun found => ?_⟩
  have unnamed : firstNamed (exampleImage cutName) exampleMount [exampleFile cutName]
      (cutName.take (vfsMaxName - 1)) = none := by
    decide +kernel
  rcases found.nameSurvives wellFormed mem_cons_self cutName reads.2.2.2.2.2.2 with
    fits | ⟨first, isFirst, _⟩
  · exact absurd fits (by decide +kernel)
  · rw [unnamed] at isFirst
    cases isFirst

end CupidOs.Iso9660
