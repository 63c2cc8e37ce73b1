import CupidOs.Ramfs.File

/-!
# A ramfs file against a byte array

The abstract file is a byte array with one position for each handle. A write past the end fills
the gap with zeros, and a seek moves to the exact sum of base and offset, stopping at 0. The
stored file follows this array as long as the 32-bit sums of `ramfs_write` and `ramfs_seek` are
the true sums.
-/

namespace CupidOs.Ramfs

open Bytes List Transition Vfs

/-- A byte array and the positions of its handles. -/
structure FileSpec where
  content : List UInt8
  positions : List Nat

/-- The empty array without handles. -/
def FileSpec.created : FileSpec := ⟨[], []⟩

/-- Where a seek should end up. -/
def seekTarget (content : List UInt8) (position : Nat) (offset : Int32) : Whence → Nat
  | .set => offset.toInt.toNat
  | .cur => (position + offset.toInt).toNat
  | .fromEnd => (content.length + offset.toInt).toNat
  | .other => position

/-- The array after a call that returned `reply`. -/
def specNext (spec : FileSpec) : Call → Reply → FileSpec
  | .openFile flags _, .handle _ =>
    let content := if flags.trunc then [] else spec.content
    ⟨content, spec.positions ++ [if flags.append then content.length else 0]⟩
  | .openFile flags _, _ => ⟨if flags.trunc then [] else spec.content, spec.positions⟩
  | .read handle _, .data bytes =>
    match spec.positions[handle]? with
    | none => spec
    | some position => ⟨spec.content, spec.positions.set handle (position + bytes.length)⟩
  | .write handle bytes _, .count _ =>
    match spec.positions[handle]? with
    | none => spec
    | some position =>
      ⟨splice 0 spec.content position bytes.val,
        spec.positions.set handle (position + bytes.val.length)⟩
  | .seek handle offset whence, .position _ =>
    match spec.positions[handle]? with
    | none => spec
    | some position =>
      ⟨spec.content, spec.positions.set handle (seekTarget spec.content position offset whence)⟩
  | _, _ => spec

/-- The file run together with the array it should implement. -/
def tracked : Machine (State × FileSpec) Call Reply :=
  Machine.observe step specNext

/-- A read returns the bytes at the handle's position, file and positions afterwards are those of
the array, a successful write leaves `position ≤ size ≤ capacity ≤ RAMFS_MAX_DATA`, and no byte was
written outside the buffer. -/
def MeetsBytes (state : State × FileSpec) (call : Call) : Prop :=
  let next := (step state.1 call).1
  let reply := (step state.1 call).2
  let spec := specNext state.2 call reply
  (∀ handle count position bytes, call = .read handle count →
      state.2.positions[handle]? = some position → reply = .data bytes →
      bytes = (state.2.content.drop position).take count.toNat) ∧
    next.file.data.take next.file.size = spec.content ∧
    next.file.size = spec.content.length ∧
    next.handles = spec.positions ∧
    (∀ handle bytes allocOk written position, call = .write handle bytes allocOk →
      reply = .count written → next.handles[handle]? = some position →
      position ≤ next.file.size ∧ next.file.size ≤ next.file.capacity ∧
        next.file.capacity ≤ ramfsMaxData) ∧
    next.overrun = false

/-- A write that the 32-bit tests of `ramfs_write` let through ends inside the
largest buffer. -/
def WriteFits (file : File) (position count : Nat) (allocOk : Bool) : Prop :=
  let stop := (position + count) % 2 ^ 32
  (stop ≤ file.capacity ∨ allocOk = true) →
    (stop ≤ ramfsMaxData ∨ stop * 2 % 2 ^ 32 ≤ ramfsMaxData) →
    position + count ≤ ramfsMaxData

/-- The target of a seek is an `int32_t`. -/
def SeekFits (file : File) (position : Nat) (offset : Int32) : Whence → Prop
  | .cur => position + offset.toInt < 2 ^ 31
  | .fromEnd => file.size + offset.toInt < 2 ^ 31
  | _ => True

/-- The 32-bit arithmetic of the call is exact where it matters. -/
def CallFits (state : State × FileSpec) : Call → Prop
  | .write handle bytes allocOk =>
    ∀ position, state.1.handles[handle]? = some position →
      WriteFits state.1.file position bytes.val.length allocOk
  | .seek handle offset whence =>
    ∀ position, state.1.handles[handle]? = some position →
      SeekFits state.1.file position offset whence
  | _ => True

/-! ## The simulation relation -/

/-- The stored file is the array followed by zeros up to its capacity. -/
structure Stores (file : File) (content : List UInt8) : Prop where
  data : file.data = content ++ replicate (file.capacity - content.length) 0
  size : file.size = content.length
  bounded : content.length ≤ file.capacity
  capped : file.capacity ≤ ramfsMaxData

/-- The state holds the array and its positions, and nothing has been written
outside a buffer. -/
structure Represents (state : State) (spec : FileSpec) : Prop where
  stores : Stores state.file spec.content
  positions : state.handles = spec.positions
  small : ∀ position ∈ spec.positions, position < 2 ^ 31
  intact : state.overrun = false

lemma stores_nil : Stores ⟨[], 0, 0⟩ [] where
  data := rfl
  size := rfl
  bounded := le_rfl
  capped := Nat.zero_le _

lemma represents_created : Represents created FileSpec.created where
  stores := stores_nil
  positions := rfl
  small := by simp [FileSpec.created]
  intact := rfl

namespace Stores

variable {file : File} {content : List UInt8}

section

variable (stores : Stores file content)
include stores

lemma data_length : file.data.length = file.capacity := by
  have bounded := stores.bounded
  rw [stores.data, length_append, length_replicate]
  omega

lemma data_take : file.data.take file.size = content := by
  rw [stores.data, stores.size, take_left]

lemma truncateIf (trunc : Bool) :
    Stores (truncateIf file trunc) (if trunc then [] else content) := by
  cases trunc with
  | true => exact stores_nil
  | false => exact stores

lemma ramfsRead_eq (position count : Nat) :
    ramfsRead file position count = (content.drop position).take count := by
  simp only [ramfsRead, stores.size]
  by_cases ended : position ≥ content.length
  · rw [if_pos ended, drop_eq_nil_of_le ended, take_nil]
  rw [if_neg ended, stores.data, drop_append_of_le_length (by omega),
    take_append_of_le_length (by rw [length_drop]; omega), ← length_drop, ← take_eq_take_min]

lemma storeAt (position : Nat) (bytes : List UInt8)
    (room : position + bytes.length ≤ file.capacity) :
    Stores (storeAt file position (position + bytes.length) bytes).1
        (splice 0 content position bytes) ∧
      (Ramfs.storeAt file position (position + bytes.length) bytes).2 = false := by
  have bounded := stores.bounded
  have dataLength := stores.data_length
  constructor
  · constructor
    · have stored : store file.data position bytes = splice 0 file.data position bytes := by
        have gap : position - file.data.length = 0 := by omega
        simp only [store, splice, gap, replicate_zero, append_nil]
        rw [take_of_length_le (l := bytes) (by omega)]
      simp only [Ramfs.storeAt, stored, length_splice]
      rw [stores.data, splice_append_replicate _ _ _ _ _ (by omega)]
      congr 2
      omega
    · simp only [Ramfs.storeAt, stores.size, length_splice]
      split <;> omega
    · simp only [Ramfs.storeAt, length_splice]
      omega
    · exact stores.capped
  · simp only [Ramfs.storeAt, leaves, dataLength, Bool.and_eq_false_iff, decide_eq_false_iff_not]
    right
    omega

lemma reallocate (capacity : Nat)
    (larger : file.capacity ≤ capacity) (capped : capacity ≤ ramfsMaxData) :
    Stores (reallocate file capacity).1 content ∧ (Ramfs.reallocate file capacity).2 = false := by
  have bounded := stores.bounded
  constructor
  · constructor
    · simp only [Ramfs.reallocate, stores.data_take]
      rw [take_of_length_le (by omega), stores.size]
    · exact stores.size
    · exact Nat.le_trans bounded larger
    · exact capped
  · simp only [Ramfs.reallocate, leaves, stores.size, Bool.and_eq_false_iff,
      decide_eq_false_iff_not]
    right
    omega

end

end Stores

/-! ## Writes -/

variable {stop position : Nat}

lemma newCapacity_eq_some {capacity : Nat} (allowed : newCapacity stop = some capacity) :
    capacity ≤ ramfsMaxData ∧ (stop ≤ ramfsMaxData → stop ≤ capacity) ∧
      (stop ≤ ramfsMaxData ∨ stop * 2 % 2 ^ 32 ≤ ramfsMaxData) := by
  have limit : ramfsMaxData = 65536 := rfl
  simp only [newCapacity] at allowed
  split_ifs at allowed <;>
  · cases allowed
    omega

lemma newCapacity_eq_none (refused : newCapacity stop = none) :
    ramfsMaxData < stop ∧ ramfsMaxData < stop * 2 % 2 ^ 32 := by
  have limit : ramfsMaxData = 65536 := rfl
  simp only [newCapacity] at refused
  split_ifs at refused <;> omega

variable {file : File}

lemma writeFits_of_ramfsWrite_none {bytes : Buffer} {allocOk : Bool}
    (refused : ramfsWrite file position bytes allocOk = none) :
    WriteFits file position bytes.val.length allocOk := by
  intro passes tests
  simp only [ramfsWrite] at refused
  split at refused
  · rename_i beyond
    cases requested : newCapacity ((position + bytes.val.length) % 2 ^ 32) with
    | none =>
      have large := newCapacity_eq_none requested
      omega
    | some capacity =>
      simp only [requested] at refused
      have allocated : allocOk = true := by
        rcases passes with small | allocated
        · omega
        · exact allocated
      simp [allocated] at refused
  · cases refused

/-- A write stays in its buffer exactly when it is inside the largest one, and then writes into the
array. -/
theorem Stores.ramfsWrite_some {next : File} {content : List UInt8} {bytes : Buffer}
    {allocOk overrun : Bool} (stores : Stores file content) (small : position < 2 ^ 31)
    (written : ramfsWrite file position bytes allocOk = some (next, stop, overrun)) :
    (WriteFits file position bytes.val.length allocOk → overrun = false ∧
        stop = position + bytes.val.length ∧ Stores next (splice 0 content position bytes.val)) ∧
      (overrun = false → WriteFits file position bytes.val.length allocOk) := by
  have capped := stores.capped
  have bounded := stores.bounded
  simp only [ramfsMaxData] at capped
  simp only [ramfsWrite] at written
  split at written
  · rename_i beyond
    cases requested : newCapacity ((position + bytes.val.length) % 2 ^ 32) with
    | none =>
      simp only [requested] at written
      cases written
    | some capacity =>
      cases allocOk with
      | false =>
        simp only [requested, Bool.false_eq_true, if_false] at written
        cases written
      | true =>
        simp only [requested, if_true, Option.some.injEq, Prod.mk.injEq] at written
        rcases written with ⟨rfl, rfl, rfl⟩
        rcases newCapacity_eq_some requested with ⟨capacityCapped, enough, tests⟩
        constructor
        · intro fits
          have inside := fits (Or.inr rfl) tests
          rw [Nat.mod_eq_of_lt (inside.trans_lt (by decide))] at beyond enough ⊢
          have grown := stores.reallocate capacity (by have := enough inside; omega) capacityCapped
          have stored := grown.1.storeAt position bytes.val (enough inside)
          exact ⟨by rw [grown.2, stored.2]; rfl, rfl, stored.1⟩
        · intro intact _ _
          have grownLength : (Ramfs.reallocate file capacity).1.data.length = capacity := by
            simp only [Ramfs.reallocate, length_append, length_take,
              length_replicate, stores.data_length, stores.size]
            omega
          simp only [Ramfs.storeAt, leaves, grownLength, Bool.or_eq_false_iff,
            Bool.and_eq_false_iff, decide_eq_false_iff_not] at intact
          simp only [ramfsMaxData] at capacityCapped tests ⊢
          omega
  · rename_i within
    simp only [Option.some.injEq, Prod.mk.injEq] at written
    rcases written with ⟨rfl, rfl, rfl⟩
    constructor
    · intro fits
      have inside := fits (Or.inl (by omega)) (Or.inl (by simp only [ramfsMaxData]; omega))
      rw [Nat.mod_eq_of_lt (inside.trans_lt (by decide))] at within ⊢
      have stored := stores.storeAt position bytes.val (by omega)
      exact ⟨stored.2, rfl, stored.1⟩
    · intro intact _ _
      simp only [Ramfs.storeAt, leaves, stores.data_length, Bool.and_eq_false_iff,
        decide_eq_false_iff_not] at intact
      simp only [ramfsMaxData]
      omega

/-! ## Seeks -/

lemma toInt32_of_lt {value : Int} (lower : -2 ^ 31 ≤ value) (upper : value < 2 ^ 31) :
    toInt32 value = value := by
  simp only [toInt32, Int.bmod]
  omega

lemma toInt32_of_le {value : Int} (lower : 2 ^ 31 ≤ value) (upper : value < 2 ^ 32) :
    toInt32 value = value - 2 ^ 32 := by
  simp only [toInt32, Int.bmod]
  omega

/-- A seek is exact when the sum is an `int32_t`; otherwise it wraps and ends at 0. -/
theorem toNat_toInt32_add {base : Nat} (small : base < 2 ^ 31) (offset : Int32) :
    (toInt32 (toInt32 base + offset.toInt)).toNat =
      if base + offset.toInt < 2 ^ 31 then (base + offset.toInt).toNat else 0 := by
  have lower := Int32.le_toInt offset
  have upper := Int32.toInt_lt offset
  have baseEq : toInt32 base = base := toInt32_of_lt (by omega) (by omega)
  rw [baseEq]
  split
  · rw [toInt32_of_lt (by omega) (by omega)]
  · rw [toInt32_of_le (by omega) (by omega)]
    omega

/-- The code's seek ends where the specification says exactly when the sum is
an `int32_t`. -/
theorem Stores.ramfsSeek_some {content : List UInt8} {target : Nat} {offset : Int32}
    {whence : Whence} (stores : Stores file content) (small : position < 2 ^ 31)
    (moved : ramfsSeek file position offset whence = some target) :
    target < 2 ^ 31 ∧ (target = seekTarget content position offset whence ↔
      SeekFits file position offset whence) := by
  have lower := Int32.le_toInt offset
  have upper := Int32.toInt_lt offset
  have bounded := stores.bounded
  have capped := stores.capped
  simp only [ramfsMaxData] at capped
  cases whence with
  | set =>
    simp only [ramfsSeek, Option.some.injEq] at moved
    subst moved
    simp only [seekTarget, SeekFits, and_true]
    omega
  | cur =>
    simp only [ramfsSeek, Option.some.injEq, toNat_toInt32_add small] at moved
    subst moved
    simp only [seekTarget, SeekFits]
    split <;> omega
  | fromEnd =>
    rw [ramfsSeek, Option.some.injEq, stores.size, toNat_toInt32_add (by omega)] at moved
    subst moved
    simp only [seekTarget, SeekFits, stores.size]
    split <;> omega
  | other => simp [ramfsSeek] at moved

lemma seekFits_of_ramfsSeek_none {offset : Int32} {whence : Whence}
    (refused : ramfsSeek file position offset whence = none) :
    SeekFits file position offset whence := by
  cases whence with
  | other => trivial
  | set => trivial
  | cur => simp [ramfsSeek] at refused
  | fromEnd => simp [ramfsSeek] at refused

/-! ## Every call -/

lemma small_set {positions : List Nat} (small : ∀ position ∈ positions, position < 2 ^ 31)
    (handle : Nat) {target : Nat} (bound : target < 2 ^ 31) :
    ∀ position ∈ positions.set handle target, position < 2 ^ 31 := by
  intro position member
  rcases mem_or_eq_of_mem_set member with member | rfl
  · exact small position member
  · exact bound

variable {spec : FileSpec} {state : State}

lemma Represents.opened (represents : Represents state spec)
    {handle position : Nat} (found : state.handles[handle]? = some position) :
    spec.positions[handle]? = some position ∧ position < 2 ^ 31 := by
  rw [represents.positions] at found
  exact ⟨found, represents.small position (mem_of_getElem? found)⟩

/-- The relation is preserved by every call whose 32-bit arithmetic is exact. -/
theorem Represents.step (represents : Represents state spec)
    {call : Call} (fits : CallFits (state, spec) call) :
    Represents (step state call).1 (specNext spec call (step state call).2) := by
  have stores := represents.stores
  have capped := stores.capped
  have bounded := stores.bounded
  simp only [ramfsMaxData] at capped
  cases call with
  | openFile flags allocOk =>
    have truncated := stores.truncateIf flags.trunc
    cases allocOk with
    | false =>
      exact ⟨truncated, represents.positions, represents.small, represents.intact⟩
    | true =>
      refine ⟨truncated, ?_, ?_, represents.intact⟩
      · simp only [Ramfs.step, if_true, specNext, represents.positions, truncated.size]
      · intro position member
        rcases mem_append.mp member with member | member
        · exact represents.small position member
        have smallSize := truncated.bounded
        have smallCapacity := truncated.capped
        simp only [ramfsMaxData] at smallCapacity
        simp only [mem_singleton] at member
        subst member
        split <;> omega
  | read handle count =>
    cases found : state.handles[handle]? with
    | none => simpa only [Ramfs.step, found, specNext] using represents
    | some position =>
      obtain ⟨specFound, positionSmall⟩ := represents.opened found
      simp only [Ramfs.step, found, specNext, specFound, stores.ramfsRead_eq]
      refine ⟨stores, by rw [represents.positions], ?_, represents.intact⟩
      apply small_set represents.small
      rw [length_take, length_drop]
      omega
  | write handle bytes allocOk =>
    cases found : state.handles[handle]? with
    | none => simpa only [Ramfs.step, found, specNext] using represents
    | some position =>
      obtain ⟨specFound, positionSmall⟩ := represents.opened found
      rcases written : ramfsWrite state.file position bytes allocOk with
        _ | ⟨file, stop, overrun⟩
      · simpa only [Ramfs.step, found, written, specNext] using represents
      have outcome := (stores.ramfsWrite_some positionSmall written).1 (fits position found)
      rcases outcome with ⟨rfl, rfl, next⟩
      have nextBounded := next.bounded
      have nextCapped := next.capped
      simp only [length_splice, ramfsMaxData] at nextBounded nextCapped
      simp only [Ramfs.step, found, written, specNext, specFound]
      refine ⟨next, by rw [represents.positions], ?_, by simp [represents.intact]⟩
      apply small_set represents.small
      omega
  | seek handle offset whence =>
    cases found : state.handles[handle]? with
    | none => simpa only [Ramfs.step, found, specNext] using represents
    | some position =>
      obtain ⟨specFound, positionSmall⟩ := represents.opened found
      cases moved : ramfsSeek state.file position offset whence with
      | none => simpa only [Ramfs.step, found, moved, specNext] using represents
      | some target =>
        have outcome := stores.ramfsSeek_some positionSmall moved
        have targetEq := outcome.2.mpr (fits position found)
        simp only [Ramfs.step, found, moved, specNext, specFound, ← targetEq]
        exact ⟨stores, by rw [represents.positions],
          small_set represents.small handle outcome.1, represents.intact⟩

/-- A call behaves as on a byte array exactly when its 32-bit arithmetic is exact. -/
theorem Represents.meetsBytes_iff
    (represents : Represents state spec) (call : Call) :
    MeetsBytes (state, spec) call ↔ CallFits (state, spec) call := by
  constructor
  · rintro ⟨_, _, _, positionsEq, _, intact⟩
    cases call with
    | openFile flags allocOk => trivial
    | read handle count => trivial
    | write handle bytes allocOk =>
      intro position found
      obtain ⟨specFound, positionSmall⟩ := represents.opened found
      rcases written : ramfsWrite state.file position bytes allocOk with
        _ | ⟨file, stop, overrun⟩
      · exact writeFits_of_ramfsWrite_none written
      apply (represents.stores.ramfsWrite_some positionSmall written).2
      simp only at found
      simp only [Ramfs.step, found, written, Bool.or_eq_false_iff] at intact
      exact intact.2
    | seek handle offset whence =>
      intro position found
      simp only at found
      obtain ⟨specFound, positionSmall⟩ := represents.opened found
      cases moved : ramfsSeek state.file position offset whence with
      | none => exact seekFits_of_ramfsSeek_none moved
      | some target =>
        apply (represents.stores.ramfsSeek_some positionSmall moved).2.mp
        simp only [Ramfs.step, moved, specNext, specFound, represents.positions] at positionsEq
        have bound := (List.getElem?_eq_some_iff.mp specFound).1
        have entryEq := congrArg (fun positions => positions[handle]?) positionsEq
        simpa [getElem?_set_self bound] using entryEq
  · intro fits
    have next := represents.step fits
    refine ⟨?_, next.stores.data_take, next.stores.size, next.positions, ?_, next.intact⟩
    · rintro handle count position bytes rfl specFound reply
      have found : state.handles[handle]? = some position := by
        rw [represents.positions, ← specFound]
      simp only [Ramfs.step, found, represents.stores.ramfsRead_eq, Reply.data.injEq] at reply
      exact reply.symm
    · rintro handle bytes allocOk written position rfl reply positionFound
      rw [next.stores.size]
      refine ⟨?_, next.stores.bounded, next.stores.capped⟩
      cases found : state.handles[handle]? with
      | none => simp [Ramfs.step, found] at reply
      | some start =>
        have specFound := (represents.opened found).1
        have bound := (List.getElem?_eq_some_iff.mp specFound).1
        rw [next.positions] at positionFound
        simp only [reply, specNext, specFound, getElem?_set_self bound,
          Option.some.injEq] at positionFound ⊢
        rw [← positionFound, length_splice]
        exact le_max_right _ _

/-- In every run of opens, reads, writes and seeks on a new ramfs file, each call
behaves as on a byte array if and only if no write that the 32-bit tests let
through ends past `RAMFS_MAX_DATA` and no seek leaves the range of `int32_t`. -/
theorem ramfs_file_refines_bytes_iff (calls : List Call) :
    tracked.Along MeetsBytes (created, FileSpec.created) calls ↔
      tracked.Along CallFits (created, FileSpec.created) calls := by
  apply Machine.along_iff_of_invariant (I := fun state => Represents state.1 state.2)
  · rintro ⟨state, spec⟩ call represents fits
    exact represents.step fits
  · rintro ⟨state, spec⟩ call represents
    exact represents.meetsBytes_iff call
  · exact represents_created

/-- Seek to the largest `int32_t` and write one byte there. -/
def farWrite : List Call :=
  [.openFile {} true, .seek 0 0x7FFFFFFF .set, .write 0 ⟨[1], by decide⟩ true]

/-- The write ends at `2 ^ 31`; twice that is 0, so the code allocates 256 bytes
and stores the byte two gigabytes behind them. -/
theorem ramfs_far_write_leaves_buffer :
    ¬ tracked.Along MeetsBytes (created, FileSpec.created) farWrite := by
  intro meets
  have intact := meets.2.2.1.2.2.2.2.2
  revert intact
  decide +kernel

end CupidOs.Ramfs
