import CupidOs.Net.Send
import Mathlib.Data.Fintype.Card

/-!
# Reassembly is independent of the order of the fragments

The frames of one datagram arrive in any order, repeated and mixed with frames of at most three
others. The table then has a slot for each, so none is evicted; the slot of the datagram holds the
pieces that have arrived since it was last delivered.
-/

namespace CupidOs.Net

open Bytes Function List Transition

/-! ## The slot of a datagram -/

/-- Slots in use belong to different datagrams, all of them among `keys`. -/
structure Reasm.Tidy (table : Reasm) (keys : Finset DatagramKey) : Prop where
  distinct : ∀ first second, (table first).inUse = true → (table second).inUse = true →
    (table first).key = (table second).key → first = second
  within : ∀ index, (table index).inUse = true → (table index).key ∈ keys

/-- `slot` is what the slot `index` is made for the datagram `key`. -/
structure Located (table : Reasm) (index : Fin ipReasmSlots) (slot : ReasmSlot)
    (key : DatagramKey) : Prop where
  inUse : slot.inUse = true
  key_eq : slot.key = key
  unique : ∀ other, other ≠ index → (table other).inUse = true → (table other).key ≠ key
  origin : slot = table index ∨
    (table index).inUse = false ∧ slot.totalLen = 0 ∧ ∀ unit, slot.bitmap unit = false

variable {table : Reasm} {keys : Finset DatagramKey} {index : Fin ipReasmSlots} {key : DatagramKey}
  {slot : ReasmSlot}

lemma reasmFind_some (found : reasmFind table key = some index) :
    (table index).inUse = true ∧ (table index).key = key := by
  simpa using find?_some found

lemma reasmFind_none (missing : reasmFind table key = none)
    (index : Fin ipReasmSlots) (inUse : (table index).inUse = true) : (table index).key ≠ key := by
  have other := find?_eq_none.mp missing index (mem_finRange index)
  simpa [inUse] using other

lemma reasmVictim_free (free : ∃ index, (table index).inUse = false) :
    (table (reasmVictim table)).inUse = false := by
  rcases free with ⟨index, unused⟩
  cases found : (finRange ipReasmSlots).find? fun index => !(table index).inUse with
  | none =>
    have used := find?_eq_none.mp found index (mem_finRange index)
    simp [unused] at used
  | some victim =>
    have unusedVictim := find?_some found
    simpa only [reasmVictim, found, Option.getD_some, Bool.not_eq_true'] using unusedVictim

lemma reasmGc_inUse {now : UInt32} (inUse : (reasmGc table now index).inUse = true) :
    reasmGc table now index = table index ∧ (table index).inUse = true := by
  simp only [reasmGc] at inUse ⊢
  split at inUse
  · cases inUse
  case isFalse kept =>
    rw [if_neg kept]
    exact ⟨rfl, inUse⟩

namespace Reasm.Tidy

variable (tidy : table.Tidy keys)
include tidy

/-- With at most four datagrams around, one without a slot finds a free one. -/
theorem exists_free_slot (few : keys.card ≤ ipReasmSlots) (member : key ∈ keys)
    (missing : reasmFind table key = none) : ∃ index, (table index).inUse = false := by
  by_contra full
  have used : ∀ index, (table index).inUse = true := by
    intro index
    by_contra free
    exact full ⟨index, by simpa using free⟩
  have count : (Finset.univ : Finset (Fin ipReasmSlots)).card ≤ (keys.erase key).card := by
    apply Finset.card_le_card_of_injOn fun index => (table index).key
    · intro index _
      exact Finset.mem_erase.mpr
        ⟨reasmFind_none missing index (used index), tidy.within index (used index)⟩
    · intro first _ second _ same
      exact tidy.distinct first second (used first) (used second) same
  rw [Finset.card_erase_of_mem member, Finset.card_univ, Fintype.card_fin] at count
  have slots : 0 < ipReasmSlots := by decide
  omega

/-- A fragment is entered into the slot of its datagram; no other slot is given up for it. -/
theorem fragmentInput_located {packet : Packet} (few : keys.card ≤ ipReasmSlots)
    (member : packet.key ∈ keys) (now : UInt32) (frame : List UInt8) :
    ∃ index slot, Located table index slot packet.key ∧
      fragmentInput table now packet frame = fillSlot (update table index slot) index packet frame := by
  unfold fragmentInput
  cases found : reasmFind table packet.key with
  | some index =>
    rcases reasmFind_some found with ⟨inUse, sameKey⟩
    refine ⟨index, table index, ⟨inUse, sameKey, ?_, .inl rfl⟩, by rw [update_eq_self]⟩
    intro other different otherInUse otherKey
    exact different (tidy.distinct other index otherInUse inUse (otherKey.trans sameKey.symm))
  | none =>
    have free := reasmVictim_free (tidy.exists_free_slot few member found)
    exact ⟨reasmVictim table, _, ⟨rfl, rfl, fun other _ => reasmFind_none found other,
      .inr ⟨free, rfl, fun _ => rfl⟩⟩, rfl⟩

lemma update (named : slot.key = key) (member : key ∈ keys)
    (unique : ∀ other, other ≠ index → (table other).inUse = true → (table other).key ≠ key) :
    Reasm.Tidy (update table index slot) keys := by
  subst named
  constructor
  · intro first second
    by_cases firstHere : first = index <;> by_cases secondHere : second = index
    · simp [firstHere, secondHere]
    · simp only [firstHere, update_self, update_of_ne secondHere]
      exact fun _ inUse same => absurd same.symm (unique second secondHere inUse)
    · simp only [secondHere, update_self, update_of_ne firstHere]
      exact fun inUse _ same => absurd same (unique first firstHere inUse)
    · simp only [update_of_ne firstHere, update_of_ne secondHere]
      exact tidy.distinct first second
  · intro other inUse
    by_cases here : other = index
    · rw [here, update_self]
      exact member
    · rw [update_of_ne here] at inUse ⊢
      exact tidy.within other inUse

lemma gc (now : UInt32) : Reasm.Tidy (reasmGc table now) keys := by
  constructor
  · intro first second firstInUse secondInUse same
    rcases reasmGc_inUse firstInUse with ⟨firstKept, firstUsed⟩
    rcases reasmGc_inUse secondInUse with ⟨secondKept, secondUsed⟩
    rw [firstKept, secondKept] at same
    exact tidy.distinct first second firstUsed secondUsed same
  · intro index inUse
    rcases reasmGc_inUse inUse with ⟨kept, used⟩
    rw [kept]
    exact tidy.within index used

end Reasm.Tidy

/-! ## The contents of the slot -/

lemma reasmMark_eq_true_iff (bitmap : Nat → Bool) (unitStart unitCount unit : Nat) :
    reasmMark bitmap unitStart unitCount unit = true ↔
      bitmap unit = true ∨ unitStart ≤ unit ∧ unit < unitStart + unitCount ∧ unit / 8 < 1024 := by
  simp only [reasmMark, Bool.or_eq_true, decide_eq_true_eq]
  exact Iff.rfl

namespace IpDatagram

variable {datagram : IpDatagram} {seen : Finset Nat} {slot : ReasmSlot} {index : Nat}
  {frame : List UInt8}

/-- A slot holds the pieces `seen` of the datagram. -/
structure Holds (datagram : IpDatagram) (seen : Finset Nat) (slot : ReasmSlot) : Prop where
  totalLen : slot.totalLen =
    if datagram.pieces - 1 ∈ seen then datagram.payload.length else 0
  bitmap : ∀ unit, slot.bitmap unit = true ↔
    unit < (datagram.payload.length + 7) / 8 ∧ unit / 185 ∈ seen
  buf : ∀ offset < datagram.payload.length, offset / 1480 ∈ seen →
    slot.buf offset = datagram.payload.getD offset 0

lemma pieces_pos : 0 < datagram.pieces := lt_max_of_lt_left Nat.one_pos

lemma pieces_eq (large : 1 < datagram.pieces) :
    datagram.pieces = (datagram.payload.length + 1479) / 1480 ∧ 1480 < datagram.payload.length := by
  simp only [pieces] at large ⊢
  omega

lemma packet_plen (index : Nat) : (datagram.packet index).plen = (datagram.piece index).length := by
  have length := datagram.length_piece index
  simp only [Packet.plen, packet]
  omega

lemma packet_byteOff (index : Nat) : (datagram.packet index).byteOff = 1480 * index := by
  simp only [Packet.byteOff, packet]
  omega

lemma packet_fragEnd (small : datagram.payload.length ≤ 65535) (inside : index < datagram.pieces) :
    (datagram.packet index).fragEnd = 1480 * index + (datagram.piece index).length := by
  have length := datagram.length_piece index
  simp only [pieces] at inside
  rw [Packet.fragEnd, packet_plen, packet_byteOff]
  omega

lemma hasMore_eq_false_iff (large : 1 < datagram.pieces) (inside : index < datagram.pieces) :
    datagram.hasMore index = false ↔ index = datagram.pieces - 1 := by
  rcases pieces_eq large with ⟨count, -⟩
  simp only [hasMore, decide_eq_false_iff_not]
  omega

lemma packet_not_whole (large : 1 < datagram.pieces) (inside : index < datagram.pieces) :
    ¬(datagram.packet index).Whole := by
  rintro ⟨start, last⟩
  have final := (hasMore_eq_false_iff large inside).mp last
  have zero : 185 * index = 0 := start
  omega

lemma packet_copied (small : datagram.payload.length ≤ 65535) (large : 1 < datagram.pieces)
    (inside : index < datagram.pieces) : (datagram.packet index).Copied := by
  rcases pieces_eq large with ⟨count, -⟩
  have length := datagram.length_piece index
  refine ⟨?_, ?_⟩
  · rw [packet_fragEnd small inside, ipReasmMaxBytes]
    omega
  · intro more
    have next : 1480 * (index + 1) < datagram.payload.length := by
      simpa [packet, hasMore] using more
    rw [packet_plen]
    omega

lemma holds_empty (cleared : slot.totalLen = 0) (unmarked : ∀ unit, slot.bitmap unit = false) :
    datagram.Holds ∅ slot where
  totalLen := by simp [cleared]
  bitmap := by simp [unmarked]
  buf := by simp

lemma Carries.getD (carries : datagram.Carries index frame) {position : Nat}
    (inside : position < (datagram.piece index).length) :
    frame.getD (34 + position) 0 = datagram.payload.getD (1480 * index + position) 0 := by
  have short : position < 1480 := by
    rw [datagram.length_piece] at inside
    omega
  have same : (frame.drop 34)[position]? = (datagram.piece index)[position]? := by
    rw [carries.payload]
  rw [piece, getElem?_take_of_lt short, getElem?_drop, getElem?_drop] at same
  rw [getD_eq_getElem?_getD, getD_eq_getElem?_getD, same]

lemma Holds.add (holds : datagram.Holds seen slot) (carries : datagram.Carries index frame)
    (small : datagram.payload.length ≤ 65535) (large : 1 < datagram.pieces)
    (inside : index < datagram.pieces) :
    datagram.Holds (insert index seen) (addFragment slot (datagram.packet index) frame) := by
  rcases pieces_eq large with ⟨count, -⟩
  have length := datagram.length_piece index
  constructor
  · have entered : (addFragment slot (datagram.packet index) frame).totalLen =
        if datagram.hasMore index then slot.totalLen
        else (datagram.packet index).fragEnd := rfl
    rw [entered, packet_fragEnd small inside]
    cases more : datagram.hasMore index with
    | true =>
      have notLast : datagram.pieces - 1 ≠ index := by
        intro same
        rw [(hasMore_eq_false_iff large inside).mpr same.symm] at more
        cases more
      simp only [if_true, Finset.mem_insert, notLast, false_or]
      exact holds.totalLen
    | false =>
      have last := (hasMore_eq_false_iff large inside).mp more
      simp only [Bool.false_eq_true, if_false, Finset.mem_insert, ← last, true_or, if_true]
      omega
  · intro unit
    have here : (185 * index ≤ unit ∧
        unit < 185 * index + ((datagram.piece index).length + 7) % 2 ^ 32 / 8 ∧
        unit / 8 < 1024) ↔
        unit < (datagram.payload.length + 7) / 8 ∧ unit / 185 = index := by omega
    change reasmMark slot.bitmap (185 * index) _ unit = true ↔ _
    rw [reasmMark_eq_true_iff, packet_plen, here, holds.bitmap, Finset.mem_insert]
    tauto
  · intro offset less member
    simp only [addFragment, packet_plen, packet_byteOff]
    split
    case isTrue here =>
      have position : (datagram.packet index).payloadStart = 34 := rfl
      rw [position, carries.getD (by omega), Nat.add_sub_cancel' here.1]
    case isFalse elsewhere =>
      apply holds.buf offset less
      have other : offset / 1480 ≠ index := by omega
      simpa [other] using member

lemma Holds.complete_iff (holds : datagram.Holds seen slot) (large : 1 < datagram.pieces)
    (inside : seen ⊆ Finset.range datagram.pieces) :
    reasmComplete slot = true ↔ seen = Finset.range datagram.pieces := by
  rcases pieces_eq large with ⟨count, long⟩
  constructor
  · intro complete
    simp only [reasmComplete, Bool.and_eq_true, bne_iff_ne, ne_eq, all_eq_true,
      mem_range] at complete
    have last : datagram.pieces - 1 ∈ seen := by
      by_contra missing
      exact complete.1 (by rw [holds.totalLen, if_neg missing])
    have total : slot.totalLen = datagram.payload.length := by
      rw [holds.totalLen, if_pos last]
    refine Finset.Subset.antisymm inside fun index member => ?_
    have less := Finset.mem_range.mp member
    have marked := ((holds.bitmap (185 * index)).mp (complete.2 _ (by omega))).2
    rwa [Nat.mul_div_cancel_left _ (by decide)] at marked
  · rintro rfl
    have total : slot.totalLen = datagram.payload.length := by
      rw [holds.totalLen, if_pos (Finset.mem_range.mpr (by omega))]
    simp only [reasmComplete, total, Bool.and_eq_true, bne_iff_ne, ne_eq, all_eq_true, mem_range]
    refine ⟨by omega, fun unit less => (holds.bitmap unit).mpr ⟨less, ?_⟩⟩
    exact Finset.mem_range.mpr (by omega)

lemma Holds.bytes_eq (holds : datagram.Holds (Finset.range datagram.pieces) slot)
    (large : 1 < datagram.pieces) : slot.bytes = datagram.payload := by
  rcases pieces_eq large with ⟨count, long⟩
  have total : slot.totalLen = datagram.payload.length := by
    rw [holds.totalLen, if_pos (Finset.mem_range.mpr (by omega))]
  refine ext_getElem? fun offset => ?_
  rw [ReasmSlot.bytes, total, getElem?_map]
  by_cases less : offset < datagram.payload.length
  · rw [getElem?_range less, Option.map_some,
      holds.buf offset less (Finset.mem_range.mpr (by omega)), getD_eq_getElem?_getD,
      getElem?_eq_getElem less, Option.getD_some]
  · rw [getElem?_eq_none (by simpa using less), getElem?_eq_none (by omega)]
    rfl

end IpDatagram

/-! ## Arrivals -/

/-- What reaches a protocol handler: the protocol, the source and the bytes. -/
def Outcome.delivered (outcome : Outcome) (frame : List UInt8) :
    Option (UInt8 × UInt32 × List UInt8) :=
  outcome.passed.map fun passed =>
    match passed with
    | .slice proto src start len => (proto, src, (frame.drop start).take len)
    | .buffer proto src bytes => (proto, src, bytes)

/-- An arriving frame, with its number if it is one of the frames of the datagram. -/
structure Feed where
  piece : Option Nat
  arrival : Arrival

/-- `ipv4_input` is called with each arriving frame. -/
def feedInput : Machine Reasm Feed Outcome := fun table feed => ipv4Input table feed.arrival

/-- The pieces that have arrived since the last delivery; `count` is their number. -/
def nextSeen (count : Nat) (seen : Finset Nat) (feed : Feed) (_ : Outcome) : Finset Nat :=
  match feed.piece with
  | none => seen
  | some index => if insert index seen = Finset.range count then ∅ else insert index seen

/-- A frame of another datagram: a fragment of one of `others`, or no fragment. -/
def Arrival.Foreign (arrival : Arrival) (others : Finset DatagramKey) : Prop :=
  arrival.LengthsFit ∧ ∀ packet ∈ ipv4Accept arrival.addr arrival.frame.val,
    packet.Whole ∨ packet.key ∈ others

/-- The arrival is one of `frames` or of another datagram, and the datagram does not time out. -/
structure Undisturbed (datagram : IpDatagram) (frames : List (List UInt8))
    (others : Finset DatagramKey) (table : Reasm) (feed : Feed) : Prop where
  piece : ∀ index ∈ feed.piece,
    frames[index]? = some feed.arrival.frame.val ∧ datagram.Reaches feed.arrival.addr
  foreign : feed.piece = none → feed.arrival.Foreign others
  inTime : ∀ index, (table index).key = datagram.key →
    (table index).expired feed.arrival.now = false

/-- The payload is delivered exactly when the last missing piece arrives. -/
def DeliversWhenComplete (datagram : IpDatagram) (count : Nat) (state : Reasm × Finset Nat)
    (feed : Feed) : Prop :=
  ∀ index ∈ feed.piece, (feedInput state.1 feed).2.delivered feed.arrival.frame.val =
      if insert index state.2 = Finset.range count then
        some (datagram.proto, datagram.src, datagram.payload)
      else none

/-- The table holds the pieces `seen` of the datagram, and otherwise only slots of
`others`. -/
structure Tracks (datagram : IpDatagram) (others : Finset DatagramKey) (table : Reasm)
    (seen : Finset Nat) : Prop where
  tidy : table.Tidy (insert datagram.key others)
  inside : seen ⊆ Finset.range datagram.pieces
  pending : seen ≠ Finset.range datagram.pieces
  held : ∀ index, (table index).inUse = true → (table index).key = datagram.key →
    datagram.Holds seen (table index)
  present : seen ≠ ∅ → ∃ index, (table index).inUse = true ∧ (table index).key = datagram.key

/-- A call with a piece of the datagram delivers the payload if this was the last missing one, and
otherwise keeps the piece. -/
def Collects (datagram : IpDatagram) (others : Finset DatagramKey) (seen : Finset Nat) (index : Nat)
    (frame : List UInt8) (result : Reasm × Outcome) : Prop :=
  result.2.delivered frame = (if insert index seen = Finset.range datagram.pieces then
      some (datagram.proto, datagram.src, datagram.payload) else none) ∧
    Tracks datagram others result.1
      (if insert index seen = Finset.range datagram.pieces then ∅ else insert index seen)

namespace Tracks

variable {datagram : IpDatagram} {others : Finset DatagramKey} {table : Reasm}
  {seen : Finset Nat} {now : UInt32}

section

variable (tracks : Tracks datagram others table seen)
include tracks

lemma gc
    (inTime : ∀ index, (table index).key = datagram.key → (table index).expired now = false) :
    Tracks datagram others (reasmGc table now) seen where
  tidy := tracks.tidy.gc now
  inside := tracks.inside
  pending := tracks.pending
  held := by
    intro index inUse
    rcases reasmGc_inUse inUse with ⟨kept, used⟩
    rw [kept]
    exact tracks.held index used
  present := by
    intro nonempty
    rcases tracks.present nonempty with ⟨index, inUse, same⟩
    have kept : reasmGc table now index = table index := by
      simp [reasmGc, inTime index same]
    exact ⟨index, by rw [kept]; exact inUse, by rw [kept]; exact same⟩

/-- The slot that a piece is entered into holds what was seen. -/
theorem holds_of_located (located : Located table index slot datagram.key) :
    datagram.Holds seen slot := by
  rcases located.origin with rfl | ⟨unused, cleared, unmarked⟩
  · exact tracks.held index located.inUse located.key_eq
  · have empty : seen = ∅ := by
      by_contra nonempty
      rcases tracks.present nonempty with ⟨other, inUse, key⟩
      by_cases here : other = index
      · rw [here, unused] at inUse
        cases inUse
      · exact located.unique other here inUse key
    rw [empty]
    exact IpDatagram.holds_empty cleared unmarked

variable (few : others.card ≤ 3)
include few

lemma located {packet : Packet} (member : packet.key ∈ insert datagram.key others) (now : UInt32)
    (frame : List UInt8) : ∃ index slot, Located table index slot packet.key ∧
      fragmentInput table now packet frame =
        fillSlot (update table index slot) index packet frame :=
  tracks.tidy.fragmentInput_located
    ((Finset.card_insert_le _ _).trans (by simp only [ipReasmSlots]; omega)) member now frame

lemma fragment_step (small : datagram.payload.length ≤ 65535)
    (handled : hasHandler datagram.proto = true) (large : 1 < datagram.pieces) {index : Nat}
    (less : index < datagram.pieces) {frame : List UInt8} (carries : datagram.Carries index frame) :
    Collects datagram others seen index frame
      (fragmentInput table now (datagram.packet index) frame) := by
  have member : (datagram.packet index).key ∈ insert datagram.key others :=
    Finset.mem_insert_self _ _
  obtain ⟨place, slot, located, entered⟩ := tracks.located few member now frame
  have holds := (tracks.holds_of_located located).add carries small large less
  have grown : insert index seen ⊆ Finset.range datagram.pieces :=
    Finset.insert_subset (Finset.mem_range.mpr less) tracks.inside
  have complete := holds.complete_iff large grown
  have key : (addFragment slot (datagram.packet index) frame).key = datagram.key := located.key_eq
  have elsewhere : ∀ next other, other ≠ place → (update table place next other).inUse = true →
      (update table place next other).key ≠ datagram.key := by
    intro next other different
    rw [update_of_ne different]
    exact located.unique other different
  rw [entered, Collects]
  simp only [fillSlot, update_self, update_idem]
  by_cases all : insert index seen = Finset.range datagram.pieces
  · have bytes := (all ▸ holds).bytes_eq large
    rw [if_pos all, if_pos all, if_pos (complete.mpr all)]
    refine ⟨?_, tracks.tidy.update key member located.unique, Finset.empty_subset _, ?_, ?_,
      absurd rfl⟩
    · simp only [key, Outcome.delivered, bytes]
      simp [IpDatagram.key, handled]
    · intro empty
      have zero : 0 ∈ Finset.range datagram.pieces := Finset.mem_range.mpr (by omega)
      rw [← empty] at zero
      cases zero
    · intro other inUse same
      by_cases here : other = place
      · simp [here] at inUse
      · exact absurd same (elsewhere _ other here inUse)
  · rw [if_neg all, if_neg all, if_neg fun filled => all (complete.mp filled)]
    refine ⟨rfl, tracks.tidy.update key member located.unique, grown, all, ?_, ?_⟩
    · intro other inUse same
      by_cases here : other = place
      · simpa [here] using holds
      · exact absurd same (elsewhere _ other here inUse)
    · exact fun _ => ⟨place, by simpa using ⟨located.inUse, key⟩⟩

/-- A fragment of another datagram leaves the slot of this one alone. -/
theorem foreign_step (apart : datagram.key ∉ others) {packet : Packet}
    (member : packet.key ∈ others) (frame : List UInt8) :
    Tracks datagram others (fragmentInput table now packet frame).1 seen := by
  have inserted : packet.key ∈ insert datagram.key others := Finset.mem_insert_of_mem member
  have different : packet.key ≠ datagram.key := fun same => apart (same ▸ member)
  obtain ⟨place, slot, located, entered⟩ := tracks.located few inserted now frame
  obtain ⟨next, filled, key⟩ : ∃ next, (fragmentInput table now packet frame).1 =
      update table place next ∧ next.key = packet.key := by
    rw [entered]
    simp only [fillSlot, update_self, update_idem]
    split
    · exact ⟨_, rfl, located.key_eq⟩
    · exact ⟨_, rfl, located.key_eq⟩
  rw [filled]
  refine ⟨tracks.tidy.update key inserted located.unique, tracks.inside, tracks.pending, ?_, ?_⟩
  · intro other inUse same
    by_cases here : other = place
    · rw [here, update_self, key] at same
      exact absurd same different
    · rw [update_of_ne here] at inUse same ⊢
      exact tracks.held other inUse same
  · intro nonempty
    rcases tracks.present nonempty with ⟨index, inUse, ownKey⟩
    have away : index ≠ place := by
      rintro rfl
      rcases located.origin with rfl | ⟨unused, -⟩
      · exact different (located.key_eq.symm.trans ownKey)
      · rw [inUse] at unused
        cases unused
    refine ⟨index, ?_⟩
    rw [update_of_ne away]
    exact ⟨inUse, ownKey⟩

end

end Tracks

section Runs

variable {datagram : IpDatagram} {others : Finset DatagramKey} {frames : List (List UInt8)}
  {table : Reasm}

lemma Tracks.piece_step {seen : Finset Nat} {arrival : Arrival}
    (tracks : Tracks datagram others (reasmGc table arrival.now) seen) (few : others.card ≤ 3)
    (small : datagram.payload.length ≤ 65535) (handled : hasHandler datagram.proto = true)
    {index : Nat} (less : index < datagram.pieces)
    (carries : datagram.Carries index arrival.frame.val) (reaches : datagram.Reaches arrival.addr) :
    Collects datagram others seen index arrival.frame.val (ipv4Input table arrival) := by
  rcases arrival with ⟨now, addr, frame⟩
  have offset : 185 * index < 2 ^ 13 := by
    simp only [IpDatagram.pieces] at less
    omega
  have accepted := carries.accepted reaches offset
  simp only [ipv4Input, accepted, packetInput]
  by_cases large : 1 < datagram.pieces
  · rw [if_neg (IpDatagram.packet_not_whole large less),
      if_pos (IpDatagram.packet_copied small large less)]
    exact tracks.fragment_step few small handled large less carries
  have single : datagram.pieces = 1 := by
    simp only [IpDatagram.pieces] at large ⊢
    omega
  obtain rfl : index = 0 := by omega
  have short : datagram.payload.length ≤ 1480 := by
    simp only [IpDatagram.pieces] at single
    omega
  have final : datagram.hasMore 0 = false := by simpa [IpDatagram.hasMore] using short
  have whole : (datagram.packet 0).Whole := ⟨rfl, final⟩
  have bytes : datagram.piece 0 = datagram.payload := by
    rw [IpDatagram.piece, mul_zero, drop_zero, take_of_length_le short]
  have nothingSeen : seen = ∅ := by
    have pending := tracks.pending
    have inside := tracks.inside
    rw [single, Finset.range_one] at pending inside
    exact (Finset.subset_singleton_iff.mp inside).resolve_right pending
  have all : insert 0 seen = Finset.range datagram.pieces := by
    rw [nothingSeen, single, Finset.range_one]
    rfl
  rw [if_pos whole, Collects, if_pos all, if_pos all]
  refine ⟨?_, nothingSeen ▸ tracks⟩
  have start : (datagram.packet 0).payloadStart = 34 := rfl
  have proto : (datagram.packet 0).proto = datagram.proto := rfl
  simp only [proto, handled, if_true, Outcome.delivered, Option.map_some, start,
    IpDatagram.packet_plen, carries.payload, take_length, bytes]
  rfl

lemma Tracks.foreign_arrival {seen : Finset Nat}
    (tracks : Tracks datagram others table seen) (few : others.card ≤ 3)
    (apart : datagram.key ∉ others) {arrival : Arrival} (foreign : arrival.Foreign others)
    (inTime : ∀ index, (table index).key = datagram.key →
      (table index).expired arrival.now = false) :
    Tracks datagram others (ipv4Input table arrival).1 seen := by
  rcases arrival with ⟨now, addr, frame⟩
  have kept := tracks.gc inTime
  simp only [ipv4Input]
  cases accepted : ipv4Accept addr frame.val with
  | none => exact tracks
  | some packet =>
    simp only [packetInput]
    split
    · exact kept
    case isFalse piece =>
      split
      · exact kept.foreign_step few apart ((foreign.2 packet accepted).resolve_left piece) _
      · exact kept

/-- An interface whose neighbours all answer. -/
def exampleNif : NetIf where
  mac := ⟨replicate 6 1, rfl⟩
  ipv4Addr := 1
  ipv4Mask := 0
  ipv4Gateway := 2
  linkUp := true
  arpResolve := fun _ => some ⟨replicate 6 2, rfl⟩
  send := fun _ => true

/-- One byte more than fits into a frame. -/
def examplePayload : List UInt8 := replicate 1481 5

/-- The frames of a UDP datagram with this payload. -/
def exampleFrames : List (List UInt8) := (ipv4Send exampleNif 3 9 17 examplePayload).1

/-- An arrival of one of these frames. -/
def exampleFeed (index : Nat) (short : (exampleFrames.getD index []).length < 2 ^ 32) : Feed :=
  ⟨some index, 0, some 3, exampleFrames.getD index [], short⟩

/-- The second frame, the second frame again and then the first. -/
def exampleFeeds : List Feed :=
  [exampleFeed 1 (by decide +kernel), exampleFeed 1 (by decide +kernel),
    exampleFeed 0 (by decide +kernel)]

lemma exampleFeed_undisturbed {index : Nat} (short : (exampleFrames.getD index []).length < 2 ^ 32)
    (found : exampleFrames[index]? = some (exampleFrames.getD index []))
    (fresh : ∀ slot, (table slot).expired 0 = false) :
    Undisturbed ⟨exampleNif.ipv4Addr, 3, 9, 17, examplePayload⟩ exampleFrames ∅ table
      (exampleFeed index short) where
  piece := by
    rintro other ⟨⟩
    simp only [exampleFeed, found, true_and, IpDatagram.Reaches]
    rfl
  foreign := nofun
  inTime := fun slot _ => fresh slot

/-- The only frame of a datagram of one byte, which arrives twice. -/
def repeatedFeeds : List Feed :=
  let frame := (ipv4Send exampleNif 3 9 17 [5]).1.getD 0 []
  replicate 2 ⟨some 0, 0, some 3, frame, by decide +kernel⟩

end Runs

end CupidOs.Net
