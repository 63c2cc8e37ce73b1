import CupidOs.Bytes.OnesComplement
import CupidOs.Transition.Run
import Mathlib.Data.List.FinRange

/-!
# The receiving side of IPv4

`ipv4_input` of `kernel/network/ip.c` passes an unfragmented packet on as a slice of the frame and
copies a fragment into a reassembly slot. Lengths are 32-bit numbers: the payload length is `total
- hdr_len` modulo `2 ^ 32`.
-/

namespace CupidOs.Net

open Bytes Function List Option Transition

/-- A received frame with its 32-bit length. -/
abbrev Frame := { bytes : List UInt8 // bytes.length < 2 ^ 32 }

/-- `ip_checksum`. -/
def ipChecksum (data : List UInt8) : Nat :=
  65535 - foldCarry 2 (sumWords data % 2 ^ 32)

/-- `IP_REASM_SLOTS`. -/
def ipReasmSlots : Nat := 4

/-- `IP_REASM_TIMEOUT_MS`. -/
def ipReasmTimeoutMs : UInt32 := 30000

/-- `IP_REASM_MAX_BYTES`. -/
def ipReasmMaxBytes : Nat := 65535

/-- `IP_REASM_BITMAP_SZ`. -/
def ipReasmBitmapSz : Nat := (ipReasmMaxBytes / 8 + 7) / 8

instance : NeZero ipReasmSlots := ⟨by decide⟩

/-- The fields of a fragment that name its datagram. -/
structure DatagramKey where
  src : UInt32
  dst : UInt32
  id : Nat
  proto : UInt8
  deriving DecidableEq

/-- `ip_reasm_t`.  A unit is eight bytes; `bitmap` has one bit for each. -/
structure ReasmSlot where
  inUse : Bool
  key : DatagramKey
  insertedMs : UInt32
  totalLen : Nat
  bitmap : Nat → Bool
  buf : Nat → UInt8

/-- The table `reasm`. -/
abbrev Reasm := Fin ipReasmSlots → ReasmSlot

variable (slot : ReasmSlot)

/-- `reasm_clear`. -/
def reasmClear : ReasmSlot :=
  { slot with inUse := false, totalLen := 0, bitmap := fun _ => false }

/-- A slot whose datagram has waited for too long. -/
def ReasmSlot.expired (now : UInt32) : Bool :=
  slot.inUse && decide (ipReasmTimeoutMs < now - slot.insertedMs)

/-- `reasm_gc`. -/
def reasmGc (table : Reasm) (now : UInt32) : Reasm := fun index =>
  if (table index).expired now then reasmClear (table index) else table index

/-- `reasm_find`. -/
def reasmFind (table : Reasm) (key : DatagramKey) : Option (Fin ipReasmSlots) :=
  (finRange ipReasmSlots).find? fun index =>
    (table index).inUse && decide ((table index).key = key)

/-- The slot that `reasm_alloc` gives away when all are in use. -/
def oldestSlot (table : Reasm) : Fin ipReasmSlots :=
  (finRange ipReasmSlots).foldl (fun oldest index =>
      if (table index).insertedMs < (table oldest).insertedMs then index else oldest) 0

/-- The slot that `reasm_alloc` chooses: the first free one, else the oldest. -/
def reasmVictim (table : Reasm) : Fin ipReasmSlots :=
  ((finRange ipReasmSlots).find? fun index => !(table index).inUse).getD (oldestSlot table)

/-- `reasm_alloc`. -/
def reasmAlloc (table : Reasm) (key : DatagramKey) (now : UInt32) : Reasm :=
  update table (reasmVictim table)
    { reasmClear (table (reasmVictim table)) with inUse := true, key := key, insertedMs := now }

/-- `reasm_mark`: the loop stops at the end of the bitmap. -/
def reasmMark (bitmap : Nat → Bool) (unitStart unitCount : Nat) : Nat → Bool := fun unit =>
  bitmap unit ||
    decide (unitStart ≤ unit ∧ unit < unitStart + unitCount ∧ unit / 8 < ipReasmBitmapSz)

/-- `reasm_complete`. -/
def reasmComplete : Bool :=
  slot.totalLen != 0 && (range ((slot.totalLen + 7) / 8)).all slot.bitmap

/-- The header of a frame that passed the checks of `ipv4_input`. -/
structure Packet where
  src : UInt32
  dst : UInt32
  id : Nat
  proto : UInt8
  hdrLen : Nat
  total : Nat
  fragOffUnits : Nat
  mf : Bool
  deriving DecidableEq

/-- The header fields of `ipv4_hdr_t`; `h` is the frame behind its Ethernet
header. -/
def readPacket (h : List UInt8) : Packet where
  src := UInt32.ofNat (readLE 4 h 12)
  dst := UInt32.ofNat (readLE 4 h 16)
  id := readBE16 h 4
  proto := h.getD 9 0
  hdrLen := (h.getD 0 0).toNat % 16 * 4
  total := readBE16 h 2
  fragOffUnits := readBE16 h 6 % 2 ^ 13
  mf := readBE16 h 6 / 2 ^ 13 % 2 == 1

/-- The checks of `ipv4_input` before it looks at the payload; `addr` is the interface's address. -/
def ipv4Accept (addr : Option UInt32) (frame : List UInt8) : Option Packet :=
  let h := frame.drop 14
  let packet := readPacket h
  if frame.length < 14 + 20 then none
  else if (h.getD 0 0).toNat / 16 ≠ 4 then none
  else if packet.hdrLen < 5 * 4 then none
  else if frame.length < 14 + packet.hdrLen then none
  else if frame.length < 14 + packet.total then none
  else if ipChecksum (h.take packet.hdrLen) ≠ 0 then none
  else if addr.any fun own => packet.dst != own && packet.dst != 0xFFFFFFFF then none
  else some packet

namespace Packet

variable (packet : Packet)

/-- The key of the datagram that a packet belongs to. -/
def key : DatagramKey :=
  ⟨packet.src, packet.dst, packet.id, packet.proto⟩

/-- `plen`. -/
def plen : Nat := (packet.total + 2 ^ 32 - packet.hdrLen) % 2 ^ 32

/-- The offset of the payload in the frame. -/
def payloadStart : Nat := 14 + packet.hdrLen

/-- `byte_off`. -/
def byteOff : Nat := packet.fragOffUnits * 8

/-- `end`. -/
def fragEnd : Nat := (packet.byteOff + packet.plen) % 2 ^ 32

/-- The packet is not a fragment. -/
def Whole : Prop := packet.fragOffUnits = 0 ∧ packet.mf = false

instance (packet : Packet) : Decidable packet.Whole :=
  inferInstanceAs (Decidable (_ ∧ _))

/-- The fragment passes the two checks that precede the copy. -/
def Copied : Prop :=
  packet.fragEnd ≤ ipReasmMaxBytes ∧ (packet.mf = true → packet.plen % 8 = 0)

instance (packet : Packet) : Decidable packet.Copied :=
  inferInstanceAs (Decidable (_ ∧ (_ → _)))

end Packet

/-- The protocols that have a handler: ICMP, TCP and UDP. -/
def hasHandler (proto : UInt8) : Bool := proto == 1 || proto == 6 || proto == 17

/-- What is handed to a protocol handler: a slice of the frame, or the bytes of a
reassembly buffer. -/
inductive Passed
  | slice (proto : UInt8) (src : UInt32) (start len : Nat)
  | buffer (proto : UInt8) (src : UInt32) (bytes : List UInt8)
  deriving DecidableEq

/-- A copy from offset `source` of the frame to offset `target` of a slot. -/
structure Copy where
  source : Nat
  target : Nat
  len : Nat
  deriving DecidableEq

/-- What `ipv4_input` does with the bytes of a frame. -/
structure Outcome where
  copy : Option Copy
  passed : Option Passed
  deriving DecidableEq

/-- The slot with the bytes, the units and, for a last fragment, the end entered. Only the part of a
copy inside the frame and the buffer is represented. -/
def addFragment (packet : Packet) (frame : List UInt8) : ReasmSlot :=
  { slot with
    buf := fun index =>
      if packet.byteOff ≤ index ∧ index < packet.byteOff + packet.plen then
        frame.getD (packet.payloadStart + (index - packet.byteOff)) 0
      else slot.buf index
    bitmap := reasmMark slot.bitmap packet.fragOffUnits ((packet.plen + 7) % 2 ^ 32 / 8)
    totalLen := if packet.mf then slot.totalLen else packet.fragEnd }

/-- The bytes of a complete slot. -/
def ReasmSlot.bytes : List UInt8 := (range slot.totalLen).map slot.buf

/-- The fragment branch of `ipv4_input` for the slot it has found. -/
def fillSlot (table : Reasm) (index : Fin ipReasmSlots) (packet : Packet) (frame : List UInt8) :
    Reasm × Outcome :=
  let slot := addFragment (table index) packet frame
  let copy := some ⟨packet.payloadStart, packet.byteOff, packet.plen⟩
  if reasmComplete slot then
    (update table index { slot with inUse := false },
      ⟨copy, if hasHandler slot.key.proto then
        some (.buffer slot.key.proto slot.key.src slot.bytes) else none⟩)
  else (update table index slot, ⟨copy, none⟩)

/-- The fragment branch of `ipv4_input` after its checks. -/
def fragmentInput (table : Reasm) (now : UInt32) (packet : Packet) (frame : List UInt8) :
    Reasm × Outcome :=
  match reasmFind table packet.key with
  | some index => fillSlot table index packet frame
  | none => fillSlot (reasmAlloc table packet.key now) (reasmVictim table) packet frame

/-- The part of `ipv4_input` behind the header checks. -/
def packetInput (table : Reasm) (now : UInt32) (packet : Packet) (frame : List UInt8) :
    Reasm × Outcome :=
  if packet.Whole then
    (table, ⟨none, if hasHandler packet.proto then
      some (.slice packet.proto packet.src packet.payloadStart packet.plen) else none⟩)
  else if packet.Copied then fragmentInput table now packet frame
  else (table, ⟨none, none⟩)

/-- A call of `ipv4_input`: the frame, the time and the address of the interface. -/
structure Arrival where
  now : UInt32
  addr : Option UInt32
  frame : Frame

/-- `ipv4_input`. -/
def ipv4Input : Machine Reasm Arrival Outcome
  | table, ⟨now, addr, frame⟩ =>
    match ipv4Accept addr frame.val with
    | none => (table, ⟨none, none⟩)
    | some packet => packetInput (reasmGc table now) now packet frame.val

/-! ## Bounds -/

/-- The copy reads inside the frame and writes inside the buffer. -/
def Copy.InBounds (copy : Copy) (frame : List UInt8) : Prop :=
  ∀ index < copy.len, copy.source + index < frame.length ∧
    (copy.target + index) % 2 ^ 32 < ipReasmMaxBytes

/-- A slice lies inside the frame, reassembled bytes inside the buffer. -/
def Passed.InBounds (passed : Passed) (frame : List UInt8) : Prop :=
  match passed with
  | .slice _ _ start len => start + len ≤ frame.length
  | .buffer _ _ bytes => bytes.length ≤ ipReasmMaxBytes

/-- Everything that is done with a frame stays inside it and inside the buffer. -/
def Outcome.InBounds (outcome : Outcome) (frame : List UInt8) : Prop :=
  (∀ copy ∈ outcome.copy, copy.InBounds frame) ∧ ∀ passed ∈ outcome.passed, passed.InBounds frame

/-- The total length is smaller than the header, in a packet that is used: it has a handler, or it
is a fragment whose wrapped end is small. -/
def Packet.Underflows (packet : Packet) : Prop :=
  packet.total < packet.hdrLen ∧ (packet.Whole ∧ hasHandler packet.proto = true ∨
      ¬packet.Whole ∧ packet.hdrLen - packet.total ≤ packet.byteOff ∧
        (packet.mf = true → (packet.hdrLen - packet.total) % 8 = 0))

/-- The total length of an accepted frame does not wrap. -/
def Arrival.LengthsFit (arrival : Arrival) : Prop :=
  ∀ packet ∈ ipv4Accept arrival.addr arrival.frame.val, ¬packet.Underflows

lemma readPacket_bounds (h : List UInt8) :
    (readPacket h).hdrLen ≤ 60 ∧ (readPacket h).total < 2 ^ 16 ∧
      (readPacket h).fragOffUnits < 2 ^ 13 := by
  have total := readBE16_lt h 2
  refine ⟨?_, total, Nat.mod_lt _ (by decide)⟩
  simp only [readPacket]
  omega

variable {frame : List UInt8} {packet : Packet}

/-- An accepted frame contains its header and its total length. -/
theorem ipv4Accept_some {addr : Option UInt32}
    (accepted : ipv4Accept addr frame = some packet) :
    packet = readPacket (frame.drop 14) ∧ 14 + packet.hdrLen ≤ frame.length ∧
      14 + packet.total ≤ frame.length := by
  simp only [ipv4Accept] at accepted
  iterate 7
    split at accepted
    · cases accepted
  cases accepted
  exact ⟨rfl, by omega, by omega⟩

/-- The lengths of an accepted packet. -/
structure Packet.Fits (packet : Packet) (frame : List UInt8) : Prop where
  hdrLen_le : packet.hdrLen ≤ 60
  total_lt : packet.total < 2 ^ 16
  fragOff_lt : packet.fragOffUnits < 2 ^ 13
  header_inside : 14 + packet.hdrLen ≤ frame.length
  total_inside : 14 + packet.total ≤ frame.length
  frame_lt : frame.length < 2 ^ 32

lemma Packet.fits_of_accepted {addr : Option UInt32} {frame : Frame}
    (accepted : ipv4Accept addr frame.val = some packet) : packet.Fits frame.val := by
  rcases ipv4Accept_some accepted with ⟨read, header, total⟩
  have bounds := readPacket_bounds (frame.val.drop 14)
  rw [← read] at bounds
  exact ⟨bounds.1, bounds.2.1, bounds.2.2, header, total, frame.property⟩

namespace Packet

variable {packet : Packet} {frame : List UInt8}

section

variable (fits : packet.Fits frame)
include fits

lemma plen_of_le (fit : packet.hdrLen ≤ packet.total) :
    packet.plen = packet.total - packet.hdrLen := by
  have small := fits.total_lt
  unfold plen
  omega

lemma plen_of_lt (short : packet.total < packet.hdrLen) :
    packet.plen = 2 ^ 32 - (packet.hdrLen - packet.total) := by
  have small := fits.hdrLen_le
  unfold plen
  omega

/-- The payload of a packet lies inside the frame exactly if its length does not
wrap. -/
theorem payload_inside_iff :
    packet.payloadStart + packet.plen ≤ frame.length ↔ packet.hdrLen ≤ packet.total := by
  have inside := fits.total_inside
  have frameSmall := fits.frame_lt
  unfold payloadStart
  by_cases fit : packet.hdrLen ≤ packet.total
  · rw [plen_of_le fits fit]
    omega
  · rw [plen_of_lt fits (by omega)]
    omega

/-- Of the packets whose length wraps, these reach the copy. -/
theorem copied_iff_of_lt (short : packet.total < packet.hdrLen) :
    packet.Copied ↔ packet.hdrLen - packet.total ≤ packet.byteOff ∧
      (packet.mf = true → (packet.hdrLen - packet.total) % 8 = 0) := by
  have small := fits.hdrLen_le
  have offset := fits.fragOff_lt
  have wrapped : packet.plen % 8 = 0 ↔ (packet.hdrLen - packet.total) % 8 = 0 := by
    rw [plen_of_lt fits short]
    omega
  have ends : packet.fragEnd ≤ ipReasmMaxBytes ↔ packet.hdrLen - packet.total ≤ packet.byteOff := by
    simp only [fragEnd, byteOff, ipReasmMaxBytes]
    rw [plen_of_lt fits short]
    omega
  rw [Copied, wrapped, ends]

lemma fragEnd_of_le (fit : packet.hdrLen ≤ packet.total) :
    packet.fragEnd = packet.byteOff + packet.plen := by
  have small := fits.total_lt
  have offset := fits.fragOff_lt
  simp only [fragEnd, byteOff]
  rw [plen_of_le fits fit]
  omega

/-- The copy of a fragment stays in bounds exactly if its length does not wrap. -/
theorem copy_inBounds_iff (copied : packet.Copied) :
    Copy.InBounds ⟨packet.payloadStart, packet.byteOff, packet.plen⟩ frame ↔
      packet.hdrLen ≤ packet.total := by
  constructor
  · intro bounds
    by_contra short
    have wrapped := plen_of_lt fits (by omega)
    have small := fits.hdrLen_le
    have frameSmall := fits.frame_lt
    have last := (bounds (packet.plen - 1) (by simp only; omega)).1
    simp only [payloadStart] at last
    omega
  · intro fit index less
    have inside := (payload_inside_iff fits).mpr fit
    have ends := copied.1
    rw [fragEnd_of_le fits fit] at ends
    simp only [ipReasmMaxBytes] at ends less ⊢
    exact ⟨by omega, by omega⟩

end

end Packet

/-- No slot holds the end of a datagram that is larger than its buffer. -/
def Reasm.Bounded (table : Reasm) : Prop := ∀ index, (table index).totalLen ≤ ipReasmMaxBytes

variable {table : Reasm}

lemma Reasm.Bounded.update (bounded : table.Bounded) (index : Fin ipReasmSlots) {slot : ReasmSlot}
    (small : slot.totalLen ≤ ipReasmMaxBytes) :
    Reasm.Bounded (update table index slot) := by
  intro other
  by_cases same : other = index
  · rw [same, update_self]
    exact small
  · rw [update_of_ne same]
    exact bounded other

section

variable (bounded : table.Bounded)
include bounded

/-- Filling a slot is in bounds exactly if the length of the fragment does not
wrap. -/
theorem fillSlot_spec (fits : packet.Fits frame) (copied : packet.Copied)
    (index : Fin ipReasmSlots) : (fillSlot table index packet frame).1.Bounded ∧
      ((fillSlot table index packet frame).2.InBounds frame ↔ packet.hdrLen ≤ packet.total) := by
  have small : (addFragment (table index) packet frame).totalLen ≤ ipReasmMaxBytes := by
    simp only [addFragment]
    split
    · exact bounded index
    · exact copied.1
  have bytesSmall : (addFragment (table index) packet frame).bytes.length ≤ ipReasmMaxBytes := by
    simpa only [ReasmSlot.bytes, length_map, length_range] using small
  rw [← Packet.copy_inBounds_iff fits copied]
  simp only [fillSlot]
  split
  · refine ⟨bounded.update index small, ?_⟩
    split
    · simp only [Outcome.InBounds, mem_some_iff, forall_eq', Passed.InBounds]
      exact and_iff_left bytesSmall
    · simp only [Outcome.InBounds, mem_some_iff, forall_eq']
      exact and_iff_left (by simp)
  · refine ⟨bounded.update index small, ?_⟩
    simp only [Outcome.InBounds, mem_some_iff, forall_eq']
    exact and_iff_left (by simp)

lemma fragmentInput_spec (fits : packet.Fits frame) (copied : packet.Copied) (now : UInt32) :
    (fragmentInput table now packet frame).1.Bounded ∧
      ((fragmentInput table now packet frame).2.InBounds frame ↔
        packet.hdrLen ≤ packet.total) := by
  unfold fragmentInput
  split
  · exact fillSlot_spec bounded fits copied _
  · exact fillSlot_spec (bounded.update _ (Nat.zero_le _)) fits copied _

/-- Behind the header checks, exactly the packets whose used length wraps are out of
bounds. -/
theorem packetInput_spec (fits : packet.Fits frame) (now : UInt32) :
    (packetInput table now packet frame).1.Bounded ∧
      ((packetInput table now packet frame).2.InBounds frame ↔ ¬packet.Underflows) := by
  unfold packetInput
  split
  case isTrue whole =>
    refine ⟨bounded, ?_⟩
    split
    case isTrue handled =>
      simp only [Outcome.InBounds, mem_some_iff, forall_eq', Passed.InBounds]
      rw [Packet.payload_inside_iff fits]
      simp [Packet.Underflows, whole, handled]
    case isFalse unhandled =>
      simp [Packet.Underflows, whole, unhandled, Outcome.InBounds]
  case isFalse piece =>
    split
    case isTrue copied =>
      obtain ⟨kept, inBounds⟩ := fragmentInput_spec bounded fits copied now
      refine ⟨kept, inBounds.trans ⟨?_, ?_⟩⟩
      · rintro fit ⟨short, -⟩
        omega
      · intro regular
        by_contra short
        have reached := (Packet.copied_iff_of_lt fits (by omega)).mp copied
        exact regular ⟨by omega, Or.inr ⟨piece, reached⟩⟩
    case isFalse dropped =>
      refine ⟨bounded, iff_of_true (by simp [Outcome.InBounds]) ?_⟩
      rintro ⟨short, ⟨whole, -⟩ | ⟨-, reached⟩⟩
      · exact piece whole
      · exact dropped ((Packet.copied_iff_of_lt fits short).mpr reached)

/-- One call stays in bounds exactly if the lengths of its frame fit. -/
theorem ipv4Input_spec (arrival : Arrival) : (ipv4Input table arrival).1.Bounded ∧
    ((ipv4Input table arrival).2.InBounds arrival.frame.val ↔ arrival.LengthsFit) := by
  rcases arrival with ⟨now, addr, frame⟩
  have kept : (reasmGc table now).Bounded := by
    intro index
    simp only [reasmGc]
    split
    · exact Nat.zero_le _
    · exact bounded index
  simp only [ipv4Input, Arrival.LengthsFit]
  cases accepted : ipv4Accept addr frame.val with
  | none => exact ⟨bounded, by simp [Outcome.InBounds]⟩
  | some packet =>
    simp only [mem_some_iff, forall_eq']
    exact packetInput_spec kept (Packet.fits_of_accepted accepted) now

end

/-- A call of `ipv4_input` that touches only the frame and the buffer of a slot. -/
def StaysInBounds (table : Reasm) (arrival : Arrival) : Prop :=
  (ipv4Input table arrival).2.InBounds arrival.frame.val

/-- A table with no datagram, as at boot. -/
def emptyReasm : Reasm := fun _ =>
  ⟨false, ⟨0, 0, 0, 0⟩, 0, 0, fun _ => false, fun _ => 0⟩

/-- Every call of a run of `ipv4_input` stays inside its frame and inside the
reassembly buffers exactly if no used packet has a total length smaller than its
header. -/
theorem ipv4_input_in_bounds_iff_lengths_fit (arrivals : List Arrival) :
    ipv4Input.Along StaysInBounds emptyReasm arrivals ↔
      ∀ arrival ∈ arrivals, arrival.LengthsFit := by
  have start : emptyReasm.Bounded := fun _ => Nat.zero_le _
  have along : ipv4Input.Along StaysInBounds emptyReasm arrivals ↔
      ipv4Input.Along (fun _ arrival => arrival.LengthsFit) emptyReasm arrivals :=
    Machine.along_iff_of_invariant (I := Reasm.Bounded)
      (fun _ arrival bounded _ => (ipv4Input_spec bounded arrival).1)
      (fun _ arrival bounded => (ipv4Input_spec bounded arrival).2) start
  rw [along, Machine.along_forall_iff]

/-- An echo request in a frame of 34 bytes whose header gives a total length of
zero. -/
def zeroLengthFrame : Frame :=
  ⟨[0, 0, 0, 0, 0, 0, 0, 0, 0, 0, 0, 0, 8, 0,
    0x45, 0, 0, 0, 0, 0, 0, 0, 64, 1, 0x7A, 0xFE, 0, 0, 0, 0, 0, 0, 0, 0], by decide⟩

/-- The frame is accepted, and a slice of `2 ^ 32 - 20` bytes is passed on. -/
theorem ipv4_input_passes_more_than_the_frame :
    (ipv4Input emptyReasm ⟨0, none, zeroLengthFrame⟩).2.passed =
        some (.slice 1 0 34 (2 ^ 32 - 20)) ∧
      ¬StaysInBounds emptyReasm ⟨0, none, zeroLengthFrame⟩ := by
  have passed : (ipv4Input emptyReasm ⟨0, none, zeroLengthFrame⟩).2 =
      ⟨none, some (.slice 1 0 34 (2 ^ 32 - 20))⟩ := by decide
  refine ⟨by rw [passed], fun bounds => ?_⟩
  unfold StaysInBounds at bounds
  rw [passed] at bounds
  have slice := bounds.2 _ rfl
  simp [Passed.InBounds, zeroLengthFrame] at slice

end CupidOs.Net
