import CupidOs.BlockCache.Core

/-!
# The block cache against a flat array of sectors

The abstract cache is an array of sectors: a successful write replaces one sector and nothing else
changes anything. `Represents` is preserved by every call except a miss whose device read fails
after overwriting the buffer of a valid victim.
-/

namespace CupidOs.BlockCache

open Disk Function List Transition

/-- What a later read of `lba` would find: the cached sector, or that on the device. -/
def logical (state : State) (lba : Nat) : Sector :=
  match findCacheEntry state lba with
  | some index => (state.entries index).data
  | none => state.device lba

/-- The abstract array after a call that returned `reply`. -/
def flatNext (flat : Image) : Call → Reply → Image
  | .write lba buffer _, .done => update flat lba buffer
  | _, _ => flat

/-- The cache run together with the array it should implement. -/
def tracked : Machine (State × Image) Call Reply :=
  Machine.observe step flatNext

/-- A read that succeeds returns the sector of the array, a call that fails changes no sector, and
the logical contents afterwards are those of the array. -/
def MeetsFlat (state : State × Image) (call : Call) : Prop :=
  (∀ lba io sector, call = .read lba io → (step state.1 call).2 = .data sector →
      sector = state.2 lba) ∧
    ((step state.1 call).2 = .error → logical (step state.1 call).1 = logical state.1) ∧
    logical (step state.1 call).1 = flatNext state.2 call (step state.1 call).2

/-- A miss that fails in the device read leaves the buffer of a valid victim as it was. -/
def VictimKept (state : State) (lba : Nat) (io : DeviceIo) : Prop :=
  let victim := state.entries (findLruEntry state)
  findCacheEntry state lba = none → (victim.valid = true → victim.dirty = true → io.write = true) →
    ∀ buffer, io.read = .failed buffer → victim.valid = true → buffer = victim.data

/-- The device keeps the victim of the call's miss, if it has one. -/
def KeepsVictim (state : State × Image) : Call → Prop
  | .read lba io => VictimKept state.1 lba io
  | .write lba _ io => VictimKept state.1 lba io
  | .flushAll _ => True

/-! ## The simulation relation -/

/-- The cache and its device together hold the sectors of `flat`. -/
structure Represents (state : State) (flat : Image) : Prop where
  unique : ∀ first second, (state.entries first).valid = true →
    (state.entries second).valid = true →
    (state.entries first).lba = (state.entries second).lba → first = second
  clean : ∀ index, (state.entries index).valid = true → (state.entries index).dirty = false →
    (state.entries index).data = state.device (state.entries index).lba
  cached : ∀ index, (state.entries index).valid = true →
    (state.entries index).data = flat (state.entries index).lba
  uncached : ∀ lba, (∀ index, (state.entries index).valid = true →
    (state.entries index).lba ≠ lba) → state.device lba = flat lba

variable {state next : State} {lba : Nat} {flat : Image} {victim : Fin cacheSize}
  {io : DeviceIo} {buffer : Sector}

lemma findCacheEntry_eq_some {index : Fin cacheSize}
    (found : findCacheEntry state lba = some index) :
    (state.entries index).valid = true ∧ (state.entries index).lba = lba := by
  simpa using find?_some found

lemma findCacheEntry_eq_none (absent : findCacheEntry state lba = none) (index : Fin cacheSize)
    (valid : (state.entries index).valid = true) : (state.entries index).lba ≠ lba := by
  have rejected := find?_eq_none.mp absent index (mem_finRange index)
  simpa [valid] using rejected

lemma Represents.logical_eq (represents : Represents state flat) : logical state = flat := by
  funext lba
  unfold logical
  cases found : findCacheEntry state lba with
  | some index =>
    obtain ⟨valid, lbaEq⟩ := findCacheEntry_eq_some found
    exact lbaEq ▸ represents.cached index valid
  | none => exact represents.uncached lba (findCacheEntry_eq_none found)

lemma represents_blockcacheInit (device : Image) : Represents (blockcacheInit device) device where
  unique := by simp [blockcacheInit]
  clean := by simp [blockcacheInit]
  cached := by simp [blockcacheInit]
  uncached _ _ := rfl

section

variable (represents : Represents state flat)
include represents

/-- Counters, access stamps and the contents of invalid entries are not represented. -/
theorem Represents.congr {other : State}
    (validEq : ∀ index, (other.entries index).valid = (state.entries index).valid)
    (entriesEq : ∀ index, (state.entries index).valid = true →
      (other.entries index).lba = (state.entries index).lba ∧
      (other.entries index).dirty = (state.entries index).dirty ∧
      (other.entries index).data = (state.entries index).data)
    (deviceEq : other.device = state.device) : Represents other flat where
  unique first second firstValid secondValid := by
    rw [validEq] at firstValid secondValid
    rw [(entriesEq first firstValid).1, (entriesEq second secondValid).1]
    exact represents.unique first second firstValid secondValid
  clean index valid := by
    rw [validEq] at valid
    obtain ⟨lbaEq, dirtyEq, dataEq⟩ := entriesEq index valid
    rw [lbaEq, dirtyEq, dataEq, deviceEq]
    exact represents.clean index valid
  cached index valid := by
    rw [validEq] at valid
    obtain ⟨lbaEq, _, dataEq⟩ := entriesEq index valid
    rw [lbaEq, dataEq]
    exact represents.cached index valid
  uncached lba absent := by
    rw [deviceEq]
    apply represents.uncached lba
    intro index valid
    rw [← (entriesEq index valid).1]
    exact absent index (by rw [validEq, valid])

/-- The stamp of an entry and the buffer of an invalid one are not represented. -/
theorem Represents.setEntry {index : Fin cacheSize} {entry : CacheEntry}
    (entries : next.entries = update state.entries index entry)
    (deviceEq : next.device = state.device) (validEq : entry.valid = (state.entries index).valid)
    (same : (state.entries index).valid = true → entry.lba = (state.entries index).lba ∧
      entry.dirty = (state.entries index).dirty ∧ entry.data = (state.entries index).data) :
    Represents next flat := by
  refine represents.congr (fun other => ?_) (fun other valid => ?_) deviceEq <;> rw [entries]
  · rcases eq_or_ne other index with rfl | differs
    · rw [update_self, validEq]
    · rw [update_of_ne differs]
  · rcases eq_or_ne other index with rfl | differs
    · rw [update_self]
      exact same valid
    · rw [update_of_ne differs]
      exact ⟨rfl, rfl, rfl⟩

lemma Represents.touch (index : Fin cacheSize) : Represents (state.touch index) flat :=
  represents.setEntry rfl rfl rfl fun _ => ⟨rfl, rfl, rfl⟩

/-- Replacing an entry whose old sector, if it is another one, is on the device. -/
theorem Represents.replaceEntry {array : Image} {index : Fin cacheSize} (entry : CacheEntry)
    (entries : next.entries = update state.entries index entry) (entryValid : entry.valid = true)
    (lbaNe : ∀ other, other ≠ index → (state.entries other).valid = true →
      (state.entries other).lba ≠ entry.lba)
    (stored : (state.entries index).valid = true → (state.entries index).lba ≠ entry.lba →
      (state.entries index).data = state.device (state.entries index).lba)
    (clean : entry.dirty = false → entry.data = next.device entry.lba)
    (cached : entry.data = array entry.lba)
    (device : ∀ lba, lba ≠ entry.lba → next.device lba = state.device lba)
    (others : ∀ lba, lba ≠ entry.lba → array lba = flat lba) : Represents next array := by
  constructor <;> rw [entries]
  · intro first second
    by_cases firstEq : first = index <;> by_cases secondEq : second = index
    · simp [firstEq, secondEq]
    · simp only [firstEq, update_self, update_of_ne secondEq]
      exact fun _ secondValid same => absurd same.symm (lbaNe second secondEq secondValid)
    · simp only [secondEq, update_self, update_of_ne firstEq]
      exact fun firstValid _ same => absurd same (lbaNe first firstEq firstValid)
    · simp only [update_of_ne firstEq, update_of_ne secondEq]
      exact represents.unique first second
  · intro other
    by_cases same : other = index
    · simp only [same, update_self]
      exact fun _ => clean
    simp only [update_of_ne same]
    intro otherValid dirty
    rw [device _ (lbaNe other same otherValid)]
    exact represents.clean other otherValid dirty
  · intro other
    by_cases same : other = index
    · simp only [same, update_self]
      exact fun _ => cached
    simp only [update_of_ne same]
    intro otherValid
    rw [others _ (lbaNe other same otherValid)]
    exact represents.cached other otherValid
  · intro lba absent
    have differs : lba ≠ entry.lba := by
      have indexAbsent := absent index
      rw [update_self] at indexAbsent
      exact (indexAbsent entryValid).symm
    rw [device lba differs, others lba differs]
    by_cases evicted : (state.entries index).valid = true ∧ (state.entries index).lba = lba
    · obtain ⟨valid, rfl⟩ := evicted
      rw [← stored valid differs]
      exact represents.cached index valid
    apply represents.uncached lba
    intro other otherValid lbaEq
    by_cases same : other = index
    · subst other
      exact evicted ⟨otherValid, lbaEq⟩
    have otherAbsent := absent other
    rw [update_of_ne same] at otherAbsent
    exact otherAbsent otherValid lbaEq

lemma Represents.lba_ne {index : Fin cacheSize}
    (valid : (state.entries index).valid = true) (other : Fin cacheSize) (differ : other ≠ index)
    (otherValid : (state.entries other).valid = true) :
    (state.entries other).lba ≠ (state.entries index).lba :=
  fun same => differ (represents.unique other index otherValid valid same)

/-- Writing a cached sector to the device and updating its dirty flag keeps the
represented array. -/
theorem Represents.deviceWrite {index : Fin cacheSize} {dirty : Bool}
    (valid : (state.entries index).valid = true)
    (entries : next.entries = update state.entries index
      { state.entries index with dirty := dirty })
    (device : next.device = update state.device (state.entries index).lba
      (state.entries index).data) : Represents next flat := by
  apply represents.replaceEntry _ entries valid (represents.lba_ne valid)
  · exact fun _ differs => absurd rfl differs
  · simp [device]
  · exact represents.cached index valid
  · intro lba differs
    rw [device, update_of_ne differs]
  · exact fun _ _ => rfl

end

/-! ## The device calls of a miss -/

/-- The cache after the write-back of a victim, which fails when the device refuses a valid dirty
one.  Otherwise the device holds the data of the victim. -/
structure WrittenBack (state : State) (flat : Image) (victim : CacheEntry) (succeeds : Bool)
    (written : State) (ok : Bool) : Prop where
  represents : Represents written flat
  entries : written.entries = state.entries
  ok_iff : ok = true ↔ (victim.valid = true → victim.dirty = true → succeeds = true)
  onDevice : ok = true → victim.valid = true → victim.data = written.device victim.lba

lemma Represents.writeBackVictim (represents : Represents state flat) (victim : Fin cacheSize)
    (succeeds : Bool) : WrittenBack state flat (state.entries victim) succeeds
      (writeBackVictim (countMiss state) victim succeeds).1
      (writeBackVictim (countMiss state) victim succeeds).2 := by
  have same : ∀ next : State, next.entries = state.entries → next.device = state.device →
      Represents next flat := fun next entries device =>
    represents.congr (fun _ => by rw [entries]) (fun _ _ => by simp [entries]) device
  unfold BlockCache.writeBackVictim
  split
  case isTrue dirtyVictim =>
    obtain ⟨valid, dirty⟩ := Bool.and_eq_true_iff.mp dirtyVictim
    cases succeeds with
    | false => exact ⟨same _ rfl rfl, rfl, by simpa using ⟨valid, dirty⟩, nofun⟩
    | true =>
      exact ⟨represents.deviceWrite valid (update_eq_self _ _).symm rfl, rfl, by simp,
        by simp [countMiss]⟩
  case isFalse notDirty =>
    have clean : (state.entries victim).valid = true → (state.entries victim).dirty = false := by
      simpa [countMiss] using notDirty
    refine ⟨same _ rfl rfl, rfl, iff_of_true rfl fun valid dirty => ?_, fun _ valid => ?_⟩
    · rw [clean valid] at dirty
      cases dirty
    · exact represents.clean victim valid (clean valid)

/-- Loading a sector into a victim whose data is on the device replaces one
sector of the array. -/
theorem Represents.installEntry (represents : Represents state flat)
    (onDevice : (state.entries victim).valid = true →
      (state.entries victim).data = state.device (state.entries victim).lba)
    (absent : ∀ index, (state.entries index).valid = true → (state.entries index).lba ≠ lba)
    {dirty : Bool} {data : Sector} (clean : dirty = false → data = state.device lba) :
    Represents (installEntry state victim lba dirty data) (update flat lba data) := by
  have entries : (BlockCache.installEntry state victim lba dirty data).entries =
      update state.entries victim ⟨lba, true, dirty, (state.accessCounter + 1) % 2 ^ 32, data⟩ := by
    simp [BlockCache.installEntry, State.touch, State.setEntry]
  apply represents.replaceEntry _ entries rfl
  · exact fun other _ => absent other
  · exact fun valid _ => onDevice valid
  · exact clean
  · simp
  · exact fun _ _ => rfl
  · exact fun other differs => update_of_ne differs _ _

/-- The buffer contents before the entry update do not matter. -/
theorem installEntry_setEntry_data (state : State) (victim : Fin cacheSize) (buffer : Sector)
    (lba : Nat) (dirty : Bool) (data : Sector) :
    installEntry (state.setEntry victim { state.entries victim with data := buffer }) victim lba
        dirty data =
      installEntry state victim lba dirty data := by
  simp [installEntry, State.touch, State.setEntry]

lemma Represents.findCacheEntry_eq (represents : Represents state flat) (index : Fin cacheSize)
    (valid : (state.entries index).valid = true) :
    findCacheEntry state (state.entries index).lba = some index := by
  cases found : findCacheEntry state (state.entries index).lba with
  | none => exact absurd rfl (findCacheEntry_eq_none found index valid)
  | some other =>
    obtain ⟨otherValid, lbaEq⟩ := findCacheEntry_eq_some found
    rw [represents.unique other index otherValid valid lbaEq]

/-- Overwriting the buffer of an entry leaves every search result unchanged. -/
theorem findCacheEntry_setEntry_data (state : State) (index : Fin cacheSize) (buffer : Sector)
    (lba : Nat) :
    findCacheEntry (state.setEntry index { state.entries index with data := buffer }) lba =
      findCacheEntry state lba := by
  unfold findCacheEntry
  congr 1
  funext other
  by_cases same : other = index
  · subst other
    simp [State.setEntry]
  · simp [State.setEntry, same]

section

variable (represents : Represents state flat)
include represents

/-- A miss replaces the sector `lba` of the array by the data installed, or it fails in one of its
device calls.  It then keeps the logical contents, and the array, exactly when the device left a
valid victim alone. -/
theorem Represents.miss (absent : findCacheEntry state lba = none) (io : DeviceIo) :
    (∃ loaded victim, loadVictim state lba io = (loaded, some victim) ∧ VictimKept state lba io ∧
        (loaded.entries victim).data = flat lba ∧ ∀ dirty data, (dirty = false → data = flat lba) →
          Represents (BlockCache.installEntry loaded victim lba dirty data)
            (update flat lba data)) ∨
      ∃ failed, loadVictim state lba io = (failed, none) ∧
        (VictimKept state lba io → Represents failed flat) ∧
        (logical failed = flat → VictimKept state lba io) := by
  have back := represents.writeBackVictim (findLruEntry state) io.write
  simp only [loadVictim]
  generalize BlockCache.writeBackVictim (countMiss state) (findLruEntry state) io.write =
    result at back
  rcases result with ⟨written, _ | _⟩
  · refine .inr ⟨written, rfl, fun _ => back.represents, fun _ _ allowed => ?_⟩
    exact absurd (back.ok_iff.mpr allowed) Bool.false_ne_true
  cases outcome : io.read with
  | failed buffer =>
    refine .inr ⟨_, rfl, fun victimKept => ?_, fun unchanged _ _ other failed valid => ?_⟩
    · refine back.represents.setEntry rfl rfl rfl ?_
      rw [back.entries]
      exact fun valid => ⟨rfl, rfl, victimKept absent (back.ok_iff.mp rfl) buffer outcome valid⟩
    · rw [outcome] at failed
      cases failed
      -- the victim is still found, with the buffer as its data
      have same := congrFun back.entries (findLruEntry state)
      have found := back.represents.findCacheEntry_eq (findLruEntry state) (same ▸ valid)
      have flatEq := congrFun unchanged (state.entries (findLruEntry state)).lba
      rw [← represents.cached _ valid, logical, findCacheEntry_setEntry_data, ← same, found]
        at flatEq
      simpa [State.setEntry] using flatEq.trans (congrArg CacheEntry.data same)
  | ok =>
    have writtenAbsent : ∀ index, (written.entries index).valid = true →
        (written.entries index).lba ≠ lba := by
      rw [back.entries]
      exact findCacheEntry_eq_none absent
    have deviceEq : written.device lba = flat lba := back.represents.uncached lba writtenAbsent
    refine .inl ⟨_, _, rfl, ?_, by simpa [State.setEntry] using deviceEq, ?_⟩
    · intro _ _ buffer failed
      rw [outcome] at failed
      cases failed
    · intro dirty data clean
      rw [installEntry_setEntry_data]
      apply back.represents.installEntry _ writtenAbsent
      · rw [deviceEq]
        exact clean
      · rw [back.entries]
        exact back.onDevice rfl

/-! ## Every call -/

/-- Updating a cached sector in place replaces it in the represented array. -/
theorem Represents.overwrite {index : Fin cacheSize}
    (valid : (state.entries index).valid = true) (buffer : Sector) :
    Represents (state.setEntry index { state.entries index with data := buffer, dirty := true })
      (update flat (state.entries index).lba buffer) := by
  apply represents.replaceEntry { state.entries index with data := buffer, dirty := true } rfl
    valid (represents.lba_ne valid)
  · exact fun _ differs => absurd rfl differs
  · simp
  · simp
  · exact fun _ _ => rfl
  · intro lba differs
    exact update_of_ne differs _ _

lemma Represents.blockcacheFlushAll
    (succeeds : Fin cacheSize → Bool) : Represents (blockcacheFlushAll state succeeds) flat := by
  unfold BlockCache.blockcacheFlushAll
  generalize finRange cacheSize = indices
  induction indices generalizing state with
  | nil => exact represents
  | cons index indices ih =>
    apply ih
    simp only [flushEntry]
    split
    · rename_i flushed
      simp only [Bool.and_eq_true] at flushed
      exact represents.deviceWrite flushed.1.1 rfl rfl
    · exact represents

end

lemma victimKept_of_hit {index : Fin cacheSize} (found : findCacheEntry state lba = some index) :
    VictimKept state lba io := by
  intro absent
  rw [found] at absent
  cases absent

/-- A call succeeds, with the sector of the array as the data read, or it fails in a miss. -/
theorem Represents.outcome (represents : Represents state flat) (call : Call) :
    (KeepsVictim (state, flat) call ∧
        Represents (step state call).1 (flatNext flat call (step state call).2) ∧
        ∀ lba io sector, call = .read lba io → (step state call).2 = .data sector →
          sector = flat lba) ∨
      (step state call).2 = .error ∧
        (KeepsVictim (state, flat) call → Represents (step state call).1 flat) ∧
        (logical (step state call).1 = flat → KeepsVictim (state, flat) call) := by
  cases call with
  | read lba io =>
    cases found : findCacheEntry state lba with
    | some index =>
      obtain ⟨valid, rfl⟩ := findCacheEntry_eq_some found
      simp only [step, blockcacheRead, found, flatNext]
      refine .inl ⟨victimKept_of_hit found, Represents.touch ?_ index, ?_⟩
      · exact represents.congr (fun _ => rfl) (fun _ _ => ⟨rfl, rfl, rfl⟩) rfl
      · rintro _ _ _ ⟨⟩ ⟨⟩
        exact represents.cached index valid
    | none =>
      rcases represents.miss found io with
        ⟨loaded, victim, load, kept, dataEq, installed⟩ | ⟨failed, load, outcome⟩
      · have next := installed false _ (fun _ => dataEq)
        rw [dataEq, update_eq_self, ← dataEq] at next
        simp only [step, blockcacheRead, found, load, flatNext]
        refine .inl ⟨kept, next, ?_⟩
        rintro _ _ _ ⟨⟩ ⟨⟩
        exact dataEq
      · simp only [step, blockcacheRead, found, load]
        exact .inr ⟨trivial, outcome⟩
  | write lba buffer io =>
    cases found : findCacheEntry state lba with
    | some index =>
      obtain ⟨valid, rfl⟩ := findCacheEntry_eq_some found
      simp only [step, blockcacheWrite, found, flatNext]
      exact .inl ⟨victimKept_of_hit found, (represents.overwrite valid buffer).touch index, nofun⟩
    | none =>
      rcases represents.miss found io with
        ⟨loaded, victim, load, kept, -, installed⟩ | ⟨failed, load, outcome⟩
      · simp only [step, blockcacheWrite, found, load, flatNext]
        exact .inl ⟨kept, installed true buffer (by simp), nofun⟩
      · simp only [step, blockcacheWrite, found, load]
        exact .inr ⟨trivial, outcome⟩
  | flushAll succeeds =>
    simp only [step, flatNext]
    exact .inl ⟨trivial, represents.blockcacheFlushAll succeeds, nofun⟩

lemma flatNext_error (flat : Image) (call : Call) : flatNext flat call .error = flat := by
  cases call <;> rfl

/-- The relation is preserved by every call whose device read keeps the victim. -/
theorem Represents.step (represents : Represents state flat) {call : Call}
    (keeps : KeepsVictim (state, flat) call) :
    Represents (step state call).1 (flatNext flat call (step state call).2) := by
  rcases represents.outcome call with ⟨_, next, _⟩ | ⟨failed, next, _⟩
  · exact next
  · rw [failed, flatNext_error]
    exact next keeps

/-- Under the relation a call meets the specification exactly when its device
read keeps the victim. -/
theorem Represents.meetsFlat_iff (represents : Represents state flat) (call : Call) :
    MeetsFlat (state, flat) call ↔ KeepsVictim (state, flat) call := by
  constructor
  · rintro ⟨_, _, logicalEq⟩
    rcases represents.outcome call with ⟨keeps, _⟩ | ⟨failed, _, kept⟩
    · exact keeps
    change logical _ = flatNext flat call (BlockCache.step state call).2 at logicalEq
    rw [failed, flatNext_error] at logicalEq
    exact kept logicalEq
  · intro keeps
    have next := represents.step keeps
    refine ⟨?_, ?_, next.logical_eq⟩
    · intro lba io sector isRead reply
      rcases represents.outcome call with ⟨_, _, read⟩ | ⟨failed, _⟩
      · exact read lba io sector isRead reply
      · cases failed.symm.trans reply
    · intro failed
      change (BlockCache.step state call).2 = .error at failed
      rw [failed, flatNext_error] at next
      rw [next.logical_eq, represents.logical_eq]

/-- In every run from a freshly initialised cache, whatever the device answers,
every call meets the flat-array specification if and only if no failing device
read overwrites the buffer of a valid victim. -/
theorem blockcache_refines_flat_iff (device : Image) (calls : List Call) :
    tracked.Along MeetsFlat (blockcacheInit device, device) calls ↔
      tracked.Along KeepsVictim (blockcacheInit device, device) calls := by
  apply Machine.along_iff_of_invariant (I := fun state => Represents state.1 state.2)
  · rintro ⟨state, flat⟩ call represents keeps
    exact represents.step keeps
  · rintro ⟨state, flat⟩ call represents
    exact represents.meetsFlat_iff call
  · exact represents_blockcacheInit device

/-! ## A torn read into a full cache -/

/-- A device whose sectors are all zero. -/
def blankDevice : Image := fun _ _ => 0

/-- Fill the cache: read the first `count` sectors of the device. -/
def warmUp (count : Nat) : List Call :=
  (range count).map fun lba => .read lba ⟨true, .ok⟩

/-- A read that fails after the device has put ones into the buffer. -/
def tornRead : Call := .read cacheSize ⟨true, .failed fun _ => 1⟩

/-- After the cache has been filled, a torn read of one more sector changes the
logical contents of a cached sector although it returns -1. -/
theorem blockcache_torn_read_violates_flat :
    ¬ tracked.Along MeetsFlat (blockcacheInit blankDevice, blankDevice)
      (warmUp cacheSize ++ [tornRead]) := by
  intro meets
  rw [Machine.along_append_iff] at meets
  obtain ⟨-, ⟨-, -, logicalEq⟩, -⟩ := meets
  have byteEq := congrFun (congrFun logicalEq 0) ⟨0, by decide⟩
  exact absurd byteEq (by decide +kernel)

end CupidOs.BlockCache
