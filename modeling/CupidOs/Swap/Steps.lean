import CupidOs.Swap.Invariant

/-!
# Each swap call keeps the tables consistent

Every operation changes the entry of one handle, so the invariant is restored
handle by handle: `Represents.change` collects what has to be shown about the
changed handle, the lists and the frame of all others.
-/

namespace CupidOs.Swap

open Bytes Bytes.Memory Function Heap List CupidOs.Lists Option Transition

/-- The entry of every other handle is the same. -/
abbrev SameBut (handle : Nat) (state next : State) : Prop :=
  ∀ other, other ≠ handle → next.slots other = state.slots other

/-- The LRU list holds the handles that may be evicted. -/
abbrev LruHeld (state : State) : Prop :=
  ∃ handles, state.lru.Holds swapInvalid handles ∧ ∀ other, other ∈ handles ↔ Evictable state other

/-- The two entries use one disk slot or one RAM slot. -/
def SwapSlot.Shares (first second : SwapSlot) : Prop :=
  first.sizeClass = second.sizeClass ∧ first.diskSlot = second.diskSlot ∨
    first.residentPtr ≠ 0 ∧ first.residentPtr = second.residentPtr

lemma SwapSlot.Shares.symm {first second : SwapSlot} (shared : first.Shares second) :
    second.Shares first := by
  rcases shared with ⟨classEq, slotEq⟩ | ⟨resident, pointerEq⟩
  · exact .inl ⟨classEq.symm, slotEq.symm⟩
  · exact .inr ⟨pointerEq ▸ resident, pointerEq.symm⟩

lemma apart_iff {state : State} : Apart state ↔ ∀ first second, Live state first →
    Live state second → (state.slots first).Shares (state.slots second) → first = second := by
  constructor
  · rintro apart first second firstLive secondLive (⟨classEq, slotEq⟩ | ⟨resident, pointerEq⟩)
    · exact apart.disk first second firstLive secondLive classEq slotEq
    · exact apart.ram first second firstLive secondLive resident pointerEq
  · intro unshared
    exact ⟨fun first second firstLive secondLive classEq slotEq =>
        unshared first second firstLive secondLive (.inl ⟨classEq, slotEq⟩),
      fun first second firstLive secondLive resident pointerEq =>
        unshared first second firstLive secondLive (.inr ⟨resident, pointerEq⟩)⟩

section Change

variable {pools : Pools} {state next : State} {owners nextOwners : Owners} {handle : Nat}
  {other : Nat}

lemma live_iff_of_ne (slotsEq : SameBut handle state next) (differ : other ≠ handle) :
    Live next other ↔ Live state other :=
  live_congr (by rw [slotsEq other differ])

lemma evictable_iff_of_ne (slotsEq : SameBut handle state next) (differ : other ≠ handle) :
    Evictable next other ↔ Evictable state other := by
  simp only [Evictable, live_iff_of_ne slotsEq differ, slotsEq other differ]

lemma sameBut_of_update {slot : SwapSlot}
    (slots : next.slots = update state.slots handle slot) : SameBut handle state next := by
  intro other differ
  rw [slots]
  exact update_of_ne differ _ _

/-- The invariant after a call that changes the entry of `handle` only. -/
theorem Represents.change (handle : Nat) (represents : Represents pools state owners)
    (running : next.halted = none) (slotsEq : SameBut handle state next)
    (ownersEq : ∀ other, other ≠ handle → nextOwners other = owners other)
    (others : ∀ other owner, other ≠ handle → Live state other →
      HandleOk pools state other owner → HandleOk pools next other owner)
    (owned : Live next handle →
      ∃ owner, nextOwners handle = some owner ∧ HandleOk pools next handle owner)
    (unowned : ¬Live next handle → nextOwners handle = none)
    (apart : Live next handle → ∀ other, other ≠ handle → Live state other →
      ¬(next.slots handle).Shares (state.slots other)) (lru : LruHeld next)
    (free : ∃ handles, FreeList next handles) : Represents pools next nextOwners := by
  have liveIff : ∀ other, other ≠ handle → (Live next other ↔ Live state other) :=
    fun other differ => live_iff_of_ne slotsEq differ
  refine ⟨running, ?_, ?_, apart_iff.mpr ?_, lru, free⟩
  · intro other live
    rcases eq_or_ne other handle with rfl | differ
    · exact owned live
    have oldLive := (liveIff other differ).mp live
    rcases represents.owned other oldLive with ⟨owner, ownerEq, ok⟩
    exact ⟨owner, (ownersEq other differ).trans ownerEq, others other owner differ oldLive ok⟩
  · intro other dead
    rcases eq_or_ne other handle with rfl | differ
    · exact unowned dead
    · exact (ownersEq other differ).trans
        (represents.unowned other (fun live => dead ((liveIff other differ).mpr live)))
  · intro first second firstLive secondLive shared
    by_contra differ
    rcases eq_or_ne first handle with rfl | firstDiffer
    · have secondDiffer := Ne.symm differ
      rw [slotsEq second secondDiffer] at shared
      exact apart firstLive second secondDiffer ((liveIff second secondDiffer).mp secondLive) shared
    have firstBefore := (liveIff first firstDiffer).mp firstLive
    rw [slotsEq first firstDiffer] at shared
    rcases eq_or_ne second handle with rfl | secondDiffer
    · exact apart secondLive first firstDiffer firstBefore shared.symm
    · rw [slotsEq second secondDiffer] at shared
      exact differ (apart_iff.mp represents.apart first second firstBefore
        ((liveIff second secondDiffer).mp secondLive) shared)

/-! ## The two lists -/

section

variable (represents : Represents pools state owners)
include represents

lemma lru_kept (slotsEq : SameBut handle state next)
    (before : ¬Evictable state handle) (after : ¬Evictable next handle)
    (lruEq : next.lru = state.lru) : LruHeld next := by
  rcases represents.lru with ⟨handles, held, membership⟩
  refine ⟨handles, lruEq ▸ held, fun other => ?_⟩
  rcases eq_or_ne other handle with rfl | differ
  · exact ⟨fun member => absurd ((membership other).mp member) before,
      fun evictable => absurd evictable after⟩
  · rw [evictable_iff_of_ne slotsEq differ]
    exact membership other

lemma lru_removed (slotsEq : SameBut handle state next) (before : Evictable state handle)
    (after : ¬Evictable next handle) (lruEq : next.lru = state.lru.remove swapInvalid handle) :
    LruHeld next := by
  rcases represents.lru with ⟨handles, held, membership⟩
  rcases append_of_mem ((membership handle).mpr before) with ⟨left, right, rfl⟩
  refine ⟨left ++ right, lruEq ▸ held.remove, fun other => ?_⟩
  have absent : handle ∉ left ++ right := by
    have nodup := held.nodup
    rw [nodup_middle] at nodup
    exact (nodup_cons.mp nodup).1
  rcases eq_or_ne other handle with rfl | differ
  · exact ⟨fun member => absurd member absent, fun evictable => absurd evictable after⟩
  · rw [evictable_iff_of_ne slotsEq differ, ← membership other]
    simp [differ]

lemma lru_inserted (slotsEq : SameBut handle state next) (before : ¬Evictable state handle)
    (after : Evictable next handle) (lruEq : next.lru = state.lru.insertHead swapInvalid handle) :
    LruHeld next := by
  rcases represents.lru with ⟨handles, held, membership⟩
  have absent : handle ∉ handles := fun member => before ((membership handle).mp member)
  refine ⟨handle :: handles, lruEq ▸ held.insertHead absent after.1.inTable.1, fun other => ?_⟩
  rcases eq_or_ne other handle with rfl | differ
  · exact ⟨fun _ => after, fun _ => mem_cons_self⟩
  · rw [evictable_iff_of_ne slotsEq differ, ← membership other]
    simp [differ]

lemma free_kept (live : Live state handle)
    (slotsEq : SameBut handle state next) (headEq : next.freeHead = state.freeHead)
    (nextEq : next.freeNext = state.freeNext) : ∃ handles, FreeList next handles := by
  rcases represents.free with ⟨handles, list⟩
  refine ⟨handles, by rw [headEq, nextEq]; exact list.path, list.nodup, ?_⟩
  intro other member
  rcases list.unused other member with ⟨nonzero, bound, unused⟩
  have differ : other ≠ handle := by
    rintro rfl
    rw [live.inTable.2.2] at unused
    cases unused
  exact ⟨nonzero, bound, by rw [slotsEq other differ]; exact unused⟩

end

/-- `next` keeps every byte, bitmap and free-list link of `state`. -/
structure SameStore (state next : State) : Prop where
  memory : next.memory = state.memory
  disk : next.disk = state.disk
  diskBitmap : next.diskBitmap = state.diskBitmap
  ramBitmap : next.ramBitmap = state.ramBitmap
  freeHead : next.freeHead = state.freeHead
  freeNext : next.freeNext = state.freeNext
  halted : next.halted = state.halted

lemma SameStore.handleOk (same : SameStore state next) {owner : Owner}
    (slotEq : next.slots other = state.slots other) (ok : HandleOk pools state other owner) :
    HandleOk pools next other owner := by
  apply ok.congr slotEq
  · rw [same.diskBitmap]
  · intro _ _ _ _
    rw [same.ramBitmap]
  · intro index _
    simp only [stored, slotEq, same.memory, same.disk]

end Change

variable {handle : Nat} {owners : Owners} {pools : Pools} {state : State}

lemma modify_of_ne (owners : Owners) {other : Nat} (change : Owner → Owner)
    (differ : other ≠ handle) : owners.modify handle change other = owners other :=
  update_of_ne differ _ owners

variable {owner : Owner} {slot : Nat}

lemma modify_self (change : Owner → Owner) (known : owners handle = some owner) :
    owners.modify handle change handle = some (change owner) := by
  simp [Owners.modify, known]

lemma modify_unknown (change : Owner → Owner) (unknown : owners handle = none) :
    owners.modify handle change = owners := by
  funext other
  rcases eq_or_ne other handle with rfl | differ
  · simp [Owners.modify, unknown]
  · exact modify_of_ne owners change differ

lemma Represents.known (represents : Represents pools state owners)
    (known : owners handle = some owner) :
    Live state handle ∧ HandleOk pools state handle owner := by
  by_cases live : Live state handle
  · rcases represents.owned handle live with ⟨_, sameOwner, ok⟩
    cases known.symm.trans sameOwner
    exact ⟨live, ok⟩
  · rw [represents.unowned handle live] at known
    cases known

/-! ## Pinning a resident handle -/

/-- The owner of a resident handle reads its own bytes at the pointer. -/
theorem HandleOk.window (ok : HandleOk pools state handle owner)
    (resident : (state.slots handle).residentPtr ≠ 0) :
    ∀ bytes ∈ owner.contents, ∀ index < owner.size,
      state.memory ((state.slots handle).residentPtr + index) = bytes index := by
  intro bytes known index inside
  rw [ok.size] at inside
  have := ok.contents bytes known index inside
  simpa only [stored, resident, ne_eq, not_false_eq_true, if_true] using this

lemma Owner.mem_contents_pinned {reply : Reply} {bytes : Nat → UInt8}
    (member : bytes ∈ (owner.pinned reply).contents) :
    bytes ∈ owner.contents ∨ bytes = reply.window := by
  simp only [Owner.pinned, mem_some_iff] at member
  cases contentsEq : owner.contents <;> simp_all

lemma pinResident_eq (state : State) (handle : Nat) : pinResident state handle =
    { state with
      slots := update state.slots handle
        { state.slots handle with pinCount := ((state.slots handle).pinCount + 1) % 2 ^ 16 }
      lru := if (state.slots handle).pinCount = 0 then state.lru.remove swapInvalid handle
        else state.lru
      pinnedCount := wrap (state.pinnedCount + 1) } := by
  simp only [pinResident, setSlot, lruRemove]
  split_ifs <;> rfl

lemma swapUnpin_eq (live : Live state handle) (isPinned : (state.slots handle).pinCount ≠ 0) :
    swapUnpin state handle =
      { state with
        slots := update state.slots handle
          { state.slots handle with pinCount := (state.slots handle).pinCount - 1 }
        lru := if (state.slots handle).pinCount - 1 = 0 then
            state.lru.insertHead swapInvalid handle
          else state.lru
        pinnedCount := wrap (state.pinnedCount + 2 ^ 32 - 1) } := by
  have valid : validHandle state handle = true := live
  simp only [swapUnpin, valid, Bool.not_true, Bool.false_eq_true, isPinned, if_false,
    lruInsertHead, setSlot]
  split_ifs <;> rfl

section

variable (represents : Represents pools state owners)
include represents

/-- The invariant after a change of where a live handle is, of its pins and of what its
owner knows. -/
theorem Represents.reslot {next : State} {nextOwners : Owners} {after : Owner} {pointer count : Nat}
    (known : owners handle = some owner) (running : next.halted = none)
    (slots : next.slots = update state.slots handle
      { state.slots handle with residentPtr := pointer, pinCount := count })
    (diskBitmap : next.diskBitmap = state.diskBitmap) (freeHead : next.freeHead = state.freeHead)
    (freeNext : next.freeNext = state.freeNext)
    (ownersEq : ∀ other, other ≠ handle → nextOwners other = owners other)
    (others : ∀ other owner, other ≠ handle → Live state other →
      next.slots other = state.slots other → HandleOk pools state other owner →
      HandleOk pools next other owner)
    (knownAfter : nextOwners handle = some after) (size : after.size = owner.size)
    (pins : after.pins = count) (pinned : count ≠ 0 → pointer ≠ 0 ∧ after.pointer = pointer)
    (ram : pointer ≠ 0 → ∃ slot < pools.ramCap (state.slots handle).sizeClass,
      pointer = ramSlotPtr pools (state.slots handle).sizeClass slot ∧
      next.ramBitmap (state.slots handle).sizeClass slot = true)
    (contents : ∀ bytes ∈ after.contents, ∀ index < (state.slots handle).sizeBytes,
      stored next handle index = bytes index)
    (unshared : pointer ≠ 0 → ∀ other, other ≠ handle → Live state other →
      pointer ≠ (state.slots other).residentPtr) (lru : LruHeld next) :
    Represents pools next nextOwners := by
  rcases represents.known known with ⟨live, ok⟩
  have slotsEq := sameBut_of_update slots
  have slotEq := congrFun slots handle
  rw [update_self] at slotEq
  have liveAfter : Live next handle := (live_congr (by rw [slotEq])).mpr live
  apply represents.change handle
  · exact running
  · exact slotsEq
  · exact ownersEq
  · exact fun other owner differ otherLive => others other owner differ otherLive (slotsEq other differ)
  · refine fun _ => ⟨after, knownAfter, ?_⟩
    constructor <;> rw [slotEq]
    · exact size.trans ok.size
    · exact ok.fits
    · exact pins
    · exact pinned
    · exact ok.diskSlot
    · rw [diskBitmap]
      exact ok.diskBit
    · exact ram
    · exact contents
  · exact fun dead => absurd liveAfter dead
  · intro _ other differ otherLive shared
    rw [slotEq] at shared
    rcases shared with ⟨classEq, diskEq⟩ | ⟨resident, pointerEq⟩
    · exact differ (represents.apart.disk other handle otherLive live classEq.symm diskEq.symm)
    · exact unshared resident other differ otherLive pointerEq
  · exact lru
  · exact free_kept represents live slotsEq freeHead freeNext

lemma Represents.pointer_unshared {other : Nat}
    (live : Live state handle) (resident : (state.slots handle).residentPtr ≠ 0)
    (differ : other ≠ handle) (otherLive : Live state other) :
    (state.slots handle).residentPtr ≠ (state.slots other).residentPtr := fun same =>
  differ (represents.apart.ram handle other live otherLive resident same).symm

/-- The invariant after a call that only changes the pins of a live handle. -/
theorem Represents.repin {next : State} {change : Owner → Owner} {count : Nat}
    (known : owners handle = some owner)
    (same : SameStore state next)
    (slots : next.slots = update state.slots handle
      { state.slots handle with pinCount := count }) (size : (change owner).size = owner.size)
    (pins : (change owner).pins = count)
    (pinned : count ≠ 0 → (state.slots handle).residentPtr ≠ 0 ∧
      (change owner).pointer = (state.slots handle).residentPtr)
    (contents : ∀ bytes ∈ (change owner).contents, ∀ index < (state.slots handle).sizeBytes,
      stored state handle index = bytes index) (lru : LruHeld next) :
    Represents pools next (owners.modify handle change) := by
  rcases represents.known known with ⟨live, ok⟩
  apply represents.reslot known (same.halted.trans represents.running) slots
    same.diskBitmap same.freeHead same.freeNext
    (fun other differ => modify_of_ne owners change differ)
    (fun other _ _ _ slotEq => same.handleOk slotEq) (modify_self change known) size pins pinned
  · rw [same.ramBitmap]
    exact ok.ram
  · intro bytes member index inside
    have before := contents bytes member index inside
    simpa only [stored, slots, update_self, same.memory, same.disk] using before
  · exact fun resident other differ => represents.pointer_unshared live resident differ
  · exact lru

lemma Represents.pinResident
    (live : Live state handle) (resident : (state.slots handle).residentPtr ≠ 0)
    (room : (state.slots handle).pinCount + 1 < 2 ^ 16) {reply : Reply}
    (valueEq : reply.value = (state.slots handle).residentPtr)
    (windowEq : ∀ index, reply.window index =
      state.memory ((state.slots handle).residentPtr + index)) :
    Represents pools (pinResident state handle) (owners.modify handle (Owner.pinned reply)) := by
  rcases represents.owned handle live with ⟨owner, known, ok⟩
  rw [pinResident_eq, Nat.mod_eq_of_lt room]
  apply represents.repin known (by constructor <;> rfl) rfl rfl (by rw [Owner.pinned, ok.pins])
    (fun _ => ⟨resident, valueEq⟩)
  · intro bytes member index inside
    rcases Owner.mem_contents_pinned member with before | rfl
    · exact ok.contents bytes before index inside
    · rw [windowEq]
      simp only [stored, resident, ne_eq, not_false_eq_true, if_true]
  by_cases unpinned : (state.slots handle).pinCount = 0
  · apply lru_removed represents (sameBut_of_update rfl) ⟨live, resident, unpinned⟩
    · simp [Evictable]
    · simp only [unpinned, if_true]
  · apply lru_kept represents (sameBut_of_update rfl) fun evictable => unpinned evictable.2.2
    · simp [Evictable]
    · simp only [unpinned, if_false]

/-! ## Unpinning -/

lemma Represents.unpin (live : Live state handle) (isPinned : (state.slots handle).pinCount ≠ 0) :
    Represents pools (swapUnpin state handle)
      (owners.modify handle fun owner => { owner with pins := owner.pins - 1 }) := by
  rcases represents.owned handle live with ⟨owner, known, ok⟩
  have notBefore : ¬Evictable state handle := fun evictable => isPinned evictable.2.2
  rw [swapUnpin_eq live isPinned]
  apply represents.repin known (by constructor <;> rfl) rfl rfl (by rw [ok.pins])
    (fun _ => ok.pinned isPinned) ok.contents
  by_cases last : (state.slots handle).pinCount - 1 = 0
  · apply lru_inserted represents (sameBut_of_update rfl) notBefore
    · refine ⟨(live_congr (by simp only [update_self])).mpr live, ?_⟩
      simp only [update_self]
      exact ⟨(ok.pinned isPinned).1, last⟩
    · simp only [last, if_true]
  · apply lru_kept represents (sameBut_of_update rfl) notBefore
    · rintro ⟨_, _, unpinned⟩
      simp only [update_self] at unpinned
      exact last unpinned
    · simp only [last, if_false]

end

/-! ## New handles -/

lemma bitmapAlloc_spec {bitmap : Nat → Bool} {count : Nat}
    (found : bitmapAlloc bitmap count = some slot) : slot < count ∧ bitmap slot = false := by
  have member := mem_of_find?_eq_some found
  have clear := find?_some found
  exact ⟨mem_range.mp member, by simpa using clear⟩

lemma pickClass_fits {size : Nat} {sizeClass : SizeClass}
    (found : pickClass size = some sizeClass) : size ≤ swapDiskSlotBytes sizeClass := by
  simpa using find?_some found

@[simp]
lemma setBit_self (bitmaps : SizeClass → Nat → Bool) (sizeClass : SizeClass) (slot : Nat)
    (value : Bool) : setBit bitmaps sizeClass slot value sizeClass slot = value := by
  simp [setBit]

lemma setBit_of_ne (bitmaps : SizeClass → Nat → Bool) {sizeClass other : SizeClass}
    {otherSlot : Nat} (value : Bool) (differ : ¬(other = sizeClass ∧ otherSlot = slot)) :
    setBit bitmaps sizeClass slot value other otherSlot = bitmaps other otherSlot := by
  rcases eq_or_ne other sizeClass with rfl | differClass
  · have differSlot : otherSlot ≠ slot := fun same => differ ⟨rfl, same⟩
    simp [setBit, differSlot]
  · simp [setBit, differClass]

/-- What `swap_kmalloc` does: nothing, or it takes a clear disk bit and the
first free handle. -/
theorem swapKmalloc_cases (state : State) (size : Nat) :
    swapKmalloc state size = (state, swapInvalid) ∨
      ∃ sizeClass disk, size ≤ swapDiskSlotBytes sizeClass ∧
        disk < swapDiskSlotCount sizeClass ∧ state.diskBitmap sizeClass disk = false ∧
        state.freeHead ≠ swapInvalid ∧
        swapKmalloc state size = ({ state with
              freeHead := state.freeNext state.freeHead
              freeNext := update state.freeNext state.freeHead swapInvalid
              slots := update state.slots state.freeHead ⟨true, sizeClass, 0, 0, disk, size⟩
              lru := { state.lru with
                prev := update state.lru.prev state.freeHead swapInvalid
                next := update state.lru.next state.freeHead swapInvalid }
              diskBitmap := setBit state.diskBitmap sizeClass disk true
              diskAlloc := update state.diskAlloc sizeClass (wrap (state.diskAlloc sizeClass + 1))
              handlesInUse := wrap (state.handlesInUse + 1) }, state.freeHead) := by
  simp only [swapKmalloc]
  split_ifs with refused exhausted
  · exact Or.inl rfl
  · apply Or.inl
    split
    · rfl
    · split <;> rfl
  · cases classEq : pickClass size with
    | none => exact Or.inl rfl
    | some sizeClass =>
      simp only
      cases diskEq : bitmapAlloc (state.diskBitmap sizeClass) (swapDiskSlotCount sizeClass) with
      | none => exact Or.inl rfl
      | some disk =>
        rcases bitmapAlloc_spec diskEq with ⟨bound, clear⟩
        exact Or.inr ⟨sizeClass, disk, pickClass_fits classEq, bound, clear, exhausted, rfl⟩

lemma Represents.freeHead_unused (represents : Represents pools state owners)
    (available : state.freeHead ≠ swapInvalid) :
    state.freeHead ≤ swapMaxHandles ∧ ¬Live state state.freeHead := by
  rcases represents.free with ⟨handles, list⟩
  cases handles with
  | nil => exact absurd list.path available
  | cons first rest =>
    rcases list.unused first mem_cons_self with ⟨_, inTable, unused⟩
    rw [← list.path.1] at inTable unused
    refine ⟨inTable, fun live => ?_⟩
    rw [live.inTable.2.2] at unused
    cases unused

lemma Represents.kmalloc (represents : Represents pools state owners) (size : Nat) :
    Represents pools (swapKmalloc state size).1 (if (swapKmalloc state size).2 = 0 then owners
      else update owners (swapKmalloc state size).2 (some ⟨size, 0, 0, none⟩)) := by
  rcases swapKmalloc_cases state size with
    refused | ⟨sizeClass, disk, fits, bound, clear, available, taken⟩
  · rw [refused]
    exact represents
  rw [taken]
  have nonzero : ¬state.freeHead = 0 := available
  simp only [nonzero, if_false]
  rcases represents.free with ⟨handles, list⟩
  cases handles with
  | nil => exact absurd list.path available
  | cons first rest =>
    rcases list.path with ⟨headEq, restPath⟩
    rw [← headEq] at restPath
    have absent : state.freeHead ∉ rest := by
      rw [headEq]
      exact (nodup_cons.mp list.nodup).1
    rcases represents.freeHead_unused available with ⟨inTable, dead⟩
    apply represents.change state.freeHead
    · exact represents.running
    · exact fun other differ => update_of_ne differ _ _
    · exact fun other differ => update_of_ne differ _ _
    · intro other owner differ _ ok
      apply ok.congr (update_of_ne differ _ _)
      · apply setBit_of_ne _ _
        rintro ⟨classEq, slotEq⟩
        have set := ok.diskBit
        rw [classEq, slotEq, clear] at set
        cases set
      · exact fun _ _ _ _ => rfl
      · intro index _
        simp only [stored, update_of_ne differ]
    · intro _
      refine ⟨_, update_self _ _ _, ?_⟩
      constructor <;> simp only [update_self]
      · exact fits
      · exact fun pinned => absurd rfl pinned
      · exact bound
      · exact setBit_self _ _ _ _
      · exact fun resident => absurd rfl resident
      · intro bytes known
        cases known
    · exact fun notLive => absurd
        (live_of_inTable available inTable (by simp only [update_self])) notLive
    · intro _ other differ live shared
      simp only [update_self] at shared
      rcases shared with ⟨rfl, rfl⟩ | ⟨resident, _⟩
      · rcases represents.owned other live with ⟨_, _, ok⟩
        exact absurd ok.diskBit (by simp [clear])
      · exact absurd rfl resident
    · rcases represents.lru with ⟨members, held, membership⟩
      have notMember : state.freeHead ∉ members := fun member =>
        dead ((membership _).mp member).1
      refine ⟨members, ⟨held.forward.update_of_not_mem notMember,
        held.backward.update_of_not_mem (by simpa using notMember), held.nodup, held.proper⟩,
        fun other => ?_⟩
      rcases eq_or_ne other state.freeHead with rfl | differ
      · refine ⟨fun member => absurd member notMember, ?_⟩
        rintro ⟨_, resident, _⟩
        simp only [update_self] at resident
        exact absurd rfl resident
      · rw [membership other]
        exact (evictable_iff_of_ne (fun _ differs => update_of_ne differs _ _) differ).symm
    · refine ⟨rest, restPath.update_of_not_mem absent, (nodup_cons.mp list.nodup).2, ?_⟩
      intro other member
      rcases list.unused other (mem_cons_of_mem _ member) with ⟨ne, le, free⟩
      refine ⟨ne, le, ?_⟩
      simp only [update_of_ne (ne_of_mem_of_not_mem member absent)]
      exact free

/-! ## Releasing a handle -/

/-- The state that `swap_free` leaves when the handle is not pinned. -/
theorem swapFree_eq (live : Live state handle) (unpinned : (state.slots handle).pinCount = 0) :
    swapFree pools state handle =
      { state with
        slots := update state.slots handle
          { state.slots handle with inUse := false, residentPtr := 0 }
        diskBitmap := setBit state.diskBitmap (state.slots handle).sizeClass
          (state.slots handle).diskSlot false
        diskAlloc := update state.diskAlloc (state.slots handle).sizeClass
          (wrap (state.diskAlloc (state.slots handle).sizeClass + 2 ^ 32 - 1))
        lru := if (state.slots handle).residentPtr ≠ 0 then state.lru.remove swapInvalid handle
          else state.lru
        ramBitmap := if (state.slots handle).residentPtr ≠ 0 then
            setBit state.ramBitmap (state.slots handle).sizeClass
              (ramSlotFromPtr pools (state.slots handle).sizeClass
                (state.slots handle).residentPtr) false
          else state.ramBitmap
        ramAlloc := if (state.slots handle).residentPtr ≠ 0 then
            update state.ramAlloc (state.slots handle).sizeClass
              (wrap (state.ramAlloc (state.slots handle).sizeClass + 2 ^ 32 - 1))
          else state.ramAlloc
        freeNext := update state.freeNext handle state.freeHead
        freeHead := handle
        handlesInUse := wrap (state.handlesInUse + 2 ^ 32 - 1) } := by
  have valid : validHandle state handle = true := live
  simp only [swapFree, valid, Bool.not_true, Bool.false_eq_true, unpinned, lt_irrefl, if_false,
    setSlot, ramSlotFree, lruRemove]
  split_ifs <;> rfl

section

variable (represents : Represents pools state owners)
include represents

/-- Clearing the RAM bit of one resident handle does not touch another's. -/
theorem Represents.ramBit_kept {other : Nat}
    (live : Live state handle) (otherLive : Live state other) (differ : other ≠ handle)
    (resident : (state.slots handle).residentPtr ≠ 0)
    (otherResident : (state.slots other).residentPtr ≠ 0)
    (pointerEq : (state.slots other).residentPtr =
      ramSlotPtr pools (state.slots other).sizeClass slot) (value : Bool) :
    setBit state.ramBitmap (state.slots handle).sizeClass
        (ramSlotFromPtr pools (state.slots handle).sizeClass (state.slots handle).residentPtr)
        value (state.slots other).sizeClass slot =
      state.ramBitmap (state.slots other).sizeClass slot := by
  rcases represents.owned handle live with ⟨_, _, ok⟩
  rcases ok.ram resident with ⟨own, _, ownEq, _⟩
  apply setBit_of_ne
  rintro ⟨classEq, slotEq⟩
  rw [ownEq, ramSlotFromPtr_ramSlotPtr] at slotEq
  apply differ
  apply represents.apart.ram other handle otherLive live otherResident
  rw [pointerEq, ownEq, classEq, slotEq]

lemma Represents.release (live : Live state handle) (unpinned : (state.slots handle).pinCount = 0) :
    Represents pools (swapFree pools state handle) (update owners handle none) := by
  rw [swapFree_eq live unpinned]
  have slotsEq : ∀ other, other ≠ handle → update state.slots handle
      { state.slots handle with inUse := false, residentPtr := 0 } other = state.slots other :=
    fun other differ => update_of_ne differ _ _
  have dead : ∀ next : State, next.slots = update state.slots handle
      { state.slots handle with inUse := false, residentPtr := 0 } → ¬Live next handle := by
    intro next slots stillLive
    have inUse := stillLive.inTable.2.2
    rw [slots, update_self] at inUse
    cases inUse
  apply represents.change handle
  · exact represents.running
  · exact slotsEq
  · exact fun other differ => update_of_ne differ _ _
  · intro other owner differ otherLive ok
    apply ok.congr (slotsEq other differ)
    · apply setBit_of_ne _ _
      rintro ⟨classEq, slotEq⟩
      exact differ (represents.apart.disk other handle otherLive live classEq slotEq)
    · intro slot pointerEq _ otherResident
      dsimp only
      split_ifs with resident
      · exact represents.ramBit_kept live otherLive differ resident otherResident pointerEq false
      · rfl
    · intro index _
      simp only [stored, slotsEq other differ]
  · exact fun stillLive => absurd stillLive (dead _ rfl)
  · exact fun _ => update_self _ _ _
  · exact fun stillLive => absurd stillLive (dead _ rfl)
  · by_cases resident : (state.slots handle).residentPtr ≠ 0
    · apply lru_removed represents slotsEq ⟨live, resident, unpinned⟩
        (fun evictable => dead _ rfl evictable.1)
      simp only [resident, ne_eq, not_false_eq_true, if_true]
    · apply lru_kept represents slotsEq (fun evictable => resident evictable.2.1)
        (fun evictable => dead _ rfl evictable.1)
      simp only [resident, if_false]
  · rcases represents.free with ⟨handles, list⟩
    have absent : handle ∉ handles := by
      intro member
      have unused := (list.unused handle member).2.2
      rw [live.inTable.2.2] at unused
      cases unused
    refine ⟨handle :: handles, ⟨rfl, ?_⟩, nodup_cons.mpr ⟨absent, list.nodup⟩, ?_⟩
    · simp only [update_self]
      exact list.path.update_of_not_mem absent
    · intro other member
      rcases mem_cons.mp member with rfl | older
      · exact ⟨live.inTable.1, live.inTable.2.1, by simp only [update_self]⟩
      rcases list.unused other older with ⟨nonzero, bound, unused⟩
      refine ⟨nonzero, bound, ?_⟩
      exact (congrArg SwapSlot.inUse (slotsEq other (ne_of_mem_of_not_mem older absent))).trans
        unused

/-! ## Owner writes -/

/-- A byte stored through the pointer of a pinned handle changes that handle only. -/
theorem Represents.userWrite {offset : Nat} (value : UInt8) (known : owners handle = some owner)
    (isPinned : 0 < owner.pins) (inside : offset < owner.size) :
    Represents pools { state with memory := state.memory.store8 (owner.pointer + offset) value }
      (owners.modify handle fun owner =>
        { owner with
          contents := owner.contents.map fun bytes => update bytes offset value }) := by
  rcases represents.known known with ⟨live, ok⟩
  have pinned : (state.slots handle).pinCount ≠ 0 := by
    rw [← ok.pins]
    omega
  rcases ok.pinned pinned with ⟨resident, pointerEq⟩
  rw [pointerEq]
  have sizeBound := ok.fits
  rw [ok.size] at inside
  refine represents.reslot known represents.running (update_eq_self handle state.slots).symm
    rfl rfl rfl (fun other differ => modify_of_ne owners _ differ) ?_ (modify_self _ known) rfl
    ok.pins ok.pinned ok.ram ?_ (fun _ other differ => represents.pointer_unshared live resident
      differ) represents.lru
  · intro other otherOwner differ otherLive _ otherOk
    apply otherOk.congr
    · rfl
    · rfl
    · exact fun _ _ _ _ => rfl
    · intro index otherInside
      have otherBound := otherOk.fits
      simp only [stored]
      split_ifs with otherResident
      · apply store8_of_ne
        have := represents.resident_apart live otherLive differ.symm resident otherResident
        omega
      · rfl
  · intro bytes member index bound
    rcases mem_map.mp member with ⟨old, oldMember, rfl⟩
    have before := ok.contents old oldMember index bound
    simp only [stored, resident, ne_eq, not_false_eq_true, if_true] at before ⊢
    rcases eq_or_ne index offset with rfl | differ
    · simp
    rw [store8_of_ne _ _ (by omega), update_of_ne differ]
    exact before

end

end CupidOs.Swap
