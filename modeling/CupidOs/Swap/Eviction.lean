import CupidOs.Swap.Steps

/-!
# Eviction and loading

`swap_pin` on a handle that is not resident looks for a RAM slot, evicting LRU
handles of its class until one is free, and reads the handle's disk slot into
it.  Evictions move bytes of other handles to disk without changing them.
-/

namespace CupidOs.Swap

open Bytes Bytes.Memory Function Heap List CupidOs.Lists Option Transition

/-! ## Finding a victim -/

variable {handles : List Nat} {state : State} {pools : Pools} {owners : Owners} {io : DiskIo}
  {handle : Nat}

lemma length_le_of_evictable (nodup : handles.Nodup)
    (membership : ∀ handle, handle ∈ handles ↔ Evictable state handle) :
    handles.length ≤ swapMaxHandles := by
  have subset : handles ⊆ range' 1 swapMaxHandles := by
    intro handle member
    rcases ((membership handle).mp member).1.inTable with ⟨nonzero, bound, _⟩
    have invalid : swapInvalid = 0 := rfl
    rw [mem_range'_1]
    omega
  simpa using (subperm_of_subset nodup subset).length_le

/-- The walk over unpinned handles finds the first one of the class. -/
theorem findVictim_of_path {first : Nat} (target : SizeClass) (fuel : Nat)
    (path : LinkPath state.lru.prev first handles swapInvalid) (proper : swapInvalid ∉ handles)
    (unpinned : ∀ handle ∈ handles, (state.slots handle).pinCount = 0)
    (enough : handles.length < fuel) :
    findVictim state target fuel first =
      match handles.find? (fun handle => decide ((state.slots handle).sizeClass = target)) with
      | none => .absent
      | some handle => .found handle := by
  induction handles generalizing first fuel with
  | nil =>
    cases fuel with
    | zero => cases enough
    | succ fuel =>
      have done : first = swapInvalid := path
      simp [findVictim, done]
  | cons handle rest ih =>
    cases fuel with
    | zero => cases enough
    | succ fuel =>
      rcases path with ⟨rfl, restPath⟩
      have nonzero : first ≠ swapInvalid := by
        rintro rfl
        exact proper mem_cons_self
      have free := unpinned first mem_cons_self
      have later := ih fuel restPath (fun member => proper (mem_cons_of_mem _ member))
        (fun other member => unpinned other (mem_cons_of_mem _ member))
        (by simpa using enough)
      by_cases sameClass : (state.slots first).sizeClass = target
      · simp [findVictim, nonzero, sameClass, free]
      · simp only [findVictim, nonzero, sameClass, if_false, ne_eq, not_false_eq_true, if_true,
          later, find?_cons, decide_false]

/-- The backing file once the bytes of a resident handle are in its disk slot. -/
def flushed (state : State) (handle : Nat) : Memory :=
  let slot := state.slots handle
  state.disk.fill (diskOffset slot.sizeClass slot.diskSlot) (swapDiskSlotBytes slot.sizeClass)
    fun index => state.memory (slot.residentPtr + index)

/-- The disk slot of a handle and a pointer that is not null pass the checks of a transfer. -/
theorem HandleOk.accepted {owner : Owner} {pointer : Nat} (ok : HandleOk pools state handle owner)
    (nonzero : pointer ≠ 0) : ¬(swapDiskSlotCount (state.slots handle).sizeClass ≤
      (state.slots handle).diskSlot ∨ pointer = 0) := by
  have := ok.diskSlot
  omega

/-- What `class_evict_one` does: it finds no victim, the write fails, or a victim goes. -/
theorem Represents.classEvictOne_cases (represents : Represents pools state owners) (io : DiskIo)
    (target : SizeClass) :
    classEvictOne pools io state target = .noVictim ∨
      (∃ message, classEvictOne pools io state target =
        .halts { state with halted := some (.panic message) }) ∨
      ∃ handle, Evictable state handle ∧ (state.slots handle).sizeClass = target ∧
        classEvictOne pools io state target =
          .evicted (releaseVictim pools state target handle (flushed state handle)) := by
  rcases represents.lru with ⟨handles, held, membership⟩
  have enough : handles.reverse.length < walkFuel := by
    rw [length_reverse]
    exact Nat.lt_succ_of_le (length_le_of_evictable held.nodup membership)
  have search := findVictim_of_path target walkFuel held.backward (by simpa using held.proper)
    (fun handle member => ((membership handle).mp (mem_reverse.mp member)).2.2) enough
  simp only [classEvictOne, search]
  cases found : handles.reverse.find?
      (fun handle => decide ((state.slots handle).sizeClass = target)) with
  | none => exact .inl rfl
  | some handle =>
    have evictable := (membership handle).mp (mem_reverse.mp (mem_of_find?_eq_some found))
    obtain rfl : (state.slots handle).sizeClass = target := by simpa using find?_some found
    rcases represents.owned handle evictable.1 with ⟨_, _, ok⟩
    have accepted := ok.accepted evictable.2.1
    by_cases writes : io.writeOk = true
    · refine .inr (.inr ⟨handle, evictable, rfl, ?_⟩)
      simp only [swapDiskWrite, accepted, if_false, writes, if_true, flushed]
    · simp only [swapDiskWrite, accepted, if_false, writes]
      exact .inr (.inl ⟨_, rfl⟩)

/-! ## Evicting it -/

lemma releaseVictim_slots (pools : Pools) (state : State) (target : SizeClass) (handle : Nat)
    (disk : Memory) : (releaseVictim pools state target handle disk).slots =
      update state.slots handle { state.slots handle with residentPtr := 0 } :=
  rfl

/-- An eviction moves the bytes of its victim to disk and changes no contents. -/
theorem Represents.evict (represents : Represents pools state owners)
    (evictable : Evictable state handle) :
    Represents pools (releaseVictim pools state (state.slots handle).sizeClass handle
      (flushed state handle)) owners := by
  rcases evictable with ⟨live, resident, unpinned⟩
  rcases represents.owned handle live with ⟨owner, known, ok⟩
  have slots := releaseVictim_slots pools state (state.slots handle).sizeClass handle
    (flushed state handle)
  refine represents.reslot known represents.running slots rfl rfl rfl (fun _ _ => rfl) ?_
    known rfl ok.pins (fun pinned => absurd unpinned pinned) nofun ?_ nofun ?_
  · intro other otherOwner differ otherLive slotEq otherOk
    apply otherOk.congr slotEq
    · rfl
    · intro slot pointerEq _ otherResident
      exact represents.ramBit_kept live otherLive differ resident otherResident pointerEq false
    · intro index inside
      have bound := otherOk.fits
      simp only [stored, slotEq]
      split_ifs with otherResident
      · rfl
      · have apart := represents.disk_apart live otherLive differ.symm
        change flushed _ _ _ = _
        rw [flushed, fill_of_outside _ _ (by omega)]
  · intro bytes member index inside
    have before := ok.contents bytes member index inside
    simp only [stored, resident, ne_eq, not_false_eq_true, if_true] at before
    simp only [stored, slots, update_self, ne_eq, not_true_eq_false, if_false]
    change flushed _ _ _ = _
    rw [flushed, fill_of_inside _ _ (lt_of_lt_of_le inside ok.fits), before]
  · apply lru_removed represents (sameBut_of_update slots) ⟨live, resident, unpinned⟩ _ rfl
    rintro ⟨_, stillResident, _⟩
    rw [slots, update_self] at stillResident
    exact stillResident rfl

/-! ## Reserving a RAM slot -/

/-- A reserved RAM slot is inside the pool and belongs to no resident handle. -/
structure Reserved (pools : Pools) (state : State) (sizeClass : SizeClass) (slot : Nat) : Prop where
  bound : slot < pools.ramCap sizeClass
  set : state.ramBitmap sizeClass slot = true
  unshared : ∀ handle, Live state handle →
    (state.slots handle).residentPtr ≠ ramSlotPtr pools sizeClass slot

/-- The bit and the bytes of a RAM slot that no resident handle has may change. -/
theorem Represents.spareSlot {sizeClass : SizeClass} {slot : Nat} {memory : Memory}
    {bitmap : SizeClass → Nat → Bool} (represents : Represents pools state owners)
    (bound : slot < pools.ramCap sizeClass) (unshared : ∀ handle, Live state handle →
      (state.slots handle).residentPtr ≠ ramSlotPtr pools sizeClass slot)
    (memoryEq : ∀ address, address < ramSlotPtr pools sizeClass slot ∨
      ramSlotPtr pools sizeClass slot + swapDiskSlotBytes sizeClass ≤ address →
      memory address = state.memory address)
    (bitmapEq : ∀ other own, ¬(other = sizeClass ∧ own = slot) →
      bitmap other own = state.ramBitmap other own) (alloc : SizeClass → Nat) :
    Represents pools { state with memory := memory, ramBitmap := bitmap, ramAlloc := alloc }
      owners := by
  have apart : ∀ handle, Live state handle → ∀ own, (state.slots handle).residentPtr =
      ramSlotPtr pools (state.slots handle).sizeClass own →
      ¬((state.slots handle).sizeClass = sizeClass ∧ own = slot) := by
    rintro handle live own ownEq ⟨classEq, rfl⟩
    apply unshared handle live
    rw [ownEq, classEq]
  refine ⟨represents.running, ?_, represents.unowned,
    ⟨represents.apart.disk, represents.apart.ram⟩, represents.lru, ?_⟩
  · intro handle live
    rcases represents.owned handle live with ⟨owner, known, ok⟩
    refine ⟨owner, known, ?_⟩
    apply ok.congr
    · rfl
    · rfl
    · exact fun own ownEq _ _ => bitmapEq _ _ (apart handle live own ownEq)
    · intro index inside
      have fits := ok.fits
      simp only [stored]
      split_ifs with resident
      · rcases ok.ram resident with ⟨own, ownBound, ownEq, _⟩
        have := ramSlots_apart pools ownBound bound (apart handle live own ownEq)
        exact memoryEq _ (by omega)
      · rfl
  · rcases represents.free with ⟨handles, list⟩
    exact ⟨handles, list.path, list.nodup, list.unused⟩

lemma Represents.ramSlotAlloc {reserved : State} {sizeClass : SizeClass} {slot : Nat}
    (represents : Represents pools state owners)
    (allocated : ramSlotAlloc pools state sizeClass = some (reserved, slot)) :
    Represents pools reserved owners ∧ Reserved pools reserved sizeClass slot ∧
      reserved.slots = state.slots ∧ reserved.pinnedCount = state.pinnedCount := by
  simp only [Swap.ramSlotAlloc] at allocated
  split_ifs at allocated
  rcases map_eq_some_iff.mp allocated with ⟨found, foundEq, pairEq⟩
  cases pairEq
  rcases bitmapAlloc_spec foundEq with ⟨bound, clear⟩
  have unshared : ∀ handle, Live state handle →
      (state.slots handle).residentPtr ≠ ramSlotPtr pools sizeClass slot := by
    intro handle live pointerEq
    rcases represents.owned handle live with ⟨_, _, ok⟩
    have resident : (state.slots handle).residentPtr ≠ 0 := by
      rw [pointerEq]
      exact ramSlotPtr_pos pools bound
    rcases ok.ram resident with ⟨own, ownBound, ownEq, ownSet⟩
    rcases ramSlotPtr_inj pools ownBound bound (ownEq.symm.trans pointerEq) with ⟨classEq, slotEq⟩
    rw [classEq, slotEq, clear] at ownSet
    cases ownSet
  exact ⟨represents.spareSlot bound unshared (fun _ _ => rfl) (fun _ _ => setBit_of_ne _ _) _,
    ⟨bound, setBit_self _ _ _ _, unshared⟩, rfl, rfl⟩

/-- Removing a handle from the LRU members shortens every list of them. -/
theorem length_lt_of_members {before after : List Nat} (nodup : after.Nodup)
    (member : handle ∈ before) (absent : handle ∉ after) (subset : after ⊆ before) :
    after.length < before.length := by
  have larger : (handle :: after).Nodup := nodup_cons.mpr ⟨absent, nodup⟩
  have included : handle :: after ⊆ before := cons_subset.mpr ⟨member, subset⟩
  exact (subperm_of_subset larger included).length_le

/-- The search for a RAM slot ends, and disturbs neither the contents of a handle nor the entries of
handles that are not resident. -/
theorem Represents.acquireRam (represents : Represents pools state owners) (io : DiskIo)
    (sizeClass : SizeClass) (fuel : Nat)
    (membership : ∀ handle, handle ∈ handles ↔ Evictable state handle)
    (enough : handles.length < fuel) :
    (∃ next message, acquireRam pools io sizeClass fuel state = .halts next ∧
        next.halted = some (.panic message)) ∨
      (∃ next, acquireRam pools io sizeClass fuel state = .full next ∧
        Represents pools next owners ∧ next.pinnedCount = state.pinnedCount) ∨
      ∃ next slot, acquireRam pools io sizeClass fuel state = .ram next slot ∧
        Represents pools next owners ∧ Reserved pools next sizeClass slot ∧
        next.pinnedCount = state.pinnedCount ∧
        ∀ handle, (state.slots handle).residentPtr = 0 →
          next.slots handle = state.slots handle := by
  induction fuel generalizing state handles with
  | zero => cases enough
  | succ fuel ih =>
    simp only [Swap.acquireRam]
    cases allocated : Swap.ramSlotAlloc pools state sizeClass with
    | some pair =>
      rcases represents.ramSlotAlloc allocated with ⟨after, reserved, slotsEq, pinsEq⟩
      exact .inr (.inr ⟨pair.1, pair.2, rfl, after, reserved, pinsEq, fun _ _ => by rw [slotsEq]⟩)
    | none =>
      rcases represents.classEvictOne_cases io sizeClass with
        absent | ⟨message, failed⟩ | ⟨victim, evictable, rfl, evicted⟩
      · simp only [absent]
        exact .inr (.inl ⟨state, rfl, represents, rfl⟩)
      · simp only [failed]
        exact .inl ⟨_, message, rfl, rfl⟩
      simp only [evicted]
      have after := represents.evict evictable
      have slots := releaseVictim_slots pools state (state.slots victim).sizeClass victim
        (flushed state victim)
      rcases after.lru with ⟨remaining, held, afterMembership⟩
      have gone : victim ∉ remaining := by
        intro member
        have resident := ((afterMembership victim).mp member).2.1
        rw [slots, update_self] at resident
        exact resident rfl
      have subset : remaining ⊆ handles := by
        intro other member
        have differ : other ≠ victim := ne_of_mem_of_not_mem member gone
        rw [membership other]
        exact (evictable_iff_of_ne (sameBut_of_update slots) differ).mp
          ((afterMembership other).mp member)
      have shorter := length_lt_of_members held.nodup ((membership victim).mpr evictable) gone
        subset
      rcases ih after afterMembership (by omega) with
        halts | full | ⟨next, slot, found, represented, reserved, pinsEq, kept⟩
      · exact .inl halts
      · exact .inr (.inl full)
      · refine .inr (.inr ⟨next, slot, found, represented, reserved, pinsEq, ?_⟩)
        intro handle notResident
        have differ : handle ≠ victim := by
          rintro rfl
          exact evictable.2.1 notResident
        have same := sameBut_of_update slots handle differ
        exact (kept handle (by rw [same]; exact notResident)).trans same

/-! ## Loading a handle -/

/-- The state after a successful read into the reserved slot. -/
def loaded (pools : Pools) (state : State) (handle ram : Nat) : State :=
  let slot := state.slots handle
  let pointer := ramSlotPtr pools slot.sizeClass ram
  { state with
    memory := state.memory.fill pointer (swapDiskSlotBytes slot.sizeClass) fun index =>
      state.disk (diskOffset slot.sizeClass slot.diskSlot + index)
    slots := update state.slots handle { slot with residentPtr := pointer, pinCount := 1 }
    pinnedCount := wrap (state.pinnedCount + 1) }

variable {owner : Owner}

lemma loadSlot_eq {ram : Nat} (reads : io.readOk = true)
    (ok : HandleOk pools state handle owner)
    (bound : ram < pools.ramCap (state.slots handle).sizeClass) :
    loadSlot pools io state handle ram =
      (loaded pools state handle ram, ramSlotPtr pools (state.slots handle).sizeClass ram) := by
  simp only [loadSlot, swapDiskRead, ok.accepted (ramSlotPtr_pos pools bound), if_false, reads,
    if_true]
  rfl

lemma Represents.loadSlot_failed {ram : Nat}
    (represents : Represents pools state owners) (fails : io.readOk = false)
    (ok : HandleOk pools state handle owner)
    (reserved : Reserved pools state (state.slots handle).sizeClass ram) :
    ∃ next, loadSlot pools io state handle ram = (next, 0) ∧ Represents pools next owners ∧
      next.pinnedCount = state.pinnedCount := by
  simp only [loadSlot, swapDiskRead, ok.accepted (ramSlotPtr_pos pools reserved.bound), if_false,
    fails, Bool.false_eq_true]
  refine ⟨_, rfl, ?_, rfl⟩
  exact represents.spareSlot reserved.bound reserved.unshared (fun _ => fill_of_outside _ _)
    (fun _ _ => setBit_of_ne _ _) _

/-- The bytes read into the reserved slot are those the handle had on disk. -/
theorem HandleOk.loaded_bytes {index : Nat} (ram : Nat)
    (ok : HandleOk pools state handle owner) (notResident : (state.slots handle).residentPtr = 0)
    (inside : index < (state.slots handle).sizeBytes) :
    (loaded pools state handle ram).memory
        (ramSlotPtr pools (state.slots handle).sizeClass ram + index) =
      stored state handle index := by
  simp only [stored, notResident, ne_eq, not_true_eq_false, if_false, loaded]
  exact fill_of_inside _ _ (lt_of_lt_of_le inside ok.fits)

lemma Represents.loaded {ram : Nat} (represents : Represents pools state owners)
    (live : Live state handle) (notResident : (state.slots handle).residentPtr = 0)
    (reserved : Reserved pools state (state.slots handle).sizeClass ram) {reply : Reply}
    (valueEq : reply.value = ramSlotPtr pools (state.slots handle).sizeClass ram)
    (windowEq : ∀ index, reply.window index = (loaded pools state handle ram).memory
      (ramSlotPtr pools (state.slots handle).sizeClass ram + index)) :
    Represents pools (loaded pools state handle ram)
      (owners.modify handle (Owner.pinned reply)) := by
  rcases represents.owned handle live with ⟨owner, known, ok⟩
  have pointerNe := ramSlotPtr_pos pools reserved.bound
  have unpinned : owner.pins = 0 := by
    rw [ok.pins]
    by_contra pinned
    exact (ok.pinned pinned).1 notResident
  -- the read goes to a spare slot, which then becomes the handle's
  have outside : ∀ address, address < ramSlotPtr pools (state.slots handle).sizeClass ram ∨
      ramSlotPtr pools (state.slots handle).sizeClass ram +
        swapDiskSlotBytes (state.slots handle).sizeClass ≤ address →
      (Swap.loaded pools state handle ram).memory address = state.memory address := by
    intro address away
    simp only [Swap.loaded]
    exact fill_of_outside _ _ away
  have read := represents.spareSlot reserved.bound reserved.unshared outside (fun _ _ _ => rfl)
    state.ramAlloc
  have slots : (Swap.loaded pools state handle ram).slots = update state.slots handle
    { state.slots handle with
      residentPtr := ramSlotPtr pools (state.slots handle).sizeClass ram
      pinCount := 1 } := rfl
  refine read.reslot known represents.running slots rfl rfl rfl
    (fun other differ => modify_of_ne owners _ differ)
    (fun _ _ _ _ => SameStore.handleOk (by constructor <;> rfl)) (modify_self _ known)
    rfl (by rw [Owner.pinned, unpinned]) (fun _ => ⟨pointerNe, valueEq⟩)
    (fun _ => ⟨ram, reserved.bound, rfl, reserved.set⟩) ?_
    (fun _ other _ otherLive => (reserved.unshared other otherLive).symm) ?_
  · intro bytes member index inside
    simp only [stored, slots, update_self, pointerNe, ne_eq, not_false_eq_true, if_true]
    rcases Owner.mem_contents_pinned member with before | rfl
    · rw [ok.loaded_bytes ram notResident inside]
      exact ok.contents bytes before index inside
    · rw [windowEq]
  · apply lru_kept represents (sameBut_of_update slots)
      (fun evictable => evictable.2.1 notResident) _ rfl
    rintro ⟨_, _, zero⟩
    rw [slots, update_self] at zero
    cases zero

end CupidOs.Swap
