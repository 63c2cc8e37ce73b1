import CupidOs.Net.Ip

/-!
# The sending side of IPv4

`ipv4_send` cuts a payload that does not fit one frame into fragments of 1480
bytes.  The frames it produces are accepted by `ipv4_input`: their checksum is
right and the header reads back.
-/

namespace CupidOs.Net

open Bytes List

/-- `NET_IF_MTU`. -/
def netIfMtu : Nat := 1500

/-- A hardware address. -/
abbrev Mac := { bytes : List UInt8 // bytes.length = 6 }

/-- The primary interface, with the answers of `arp_resolve` and of the driver. -/
structure NetIf where
  mac : Mac
  ipv4Addr : UInt32
  ipv4Mask : UInt32
  ipv4Gateway : UInt32
  linkUp : Bool
  arpResolve : UInt32 → Option Mac
  send : List UInt8 → Bool

/-- The arguments of `ipv4_send`, the address of the interface and the number from `ip_id_counter`.
-/
structure IpDatagram where
  src : UInt32
  dst : UInt32
  id : UInt16
  proto : UInt8
  payload : List UInt8

namespace IpDatagram

/-- The key of the datagram on the receiving side. -/
def key (datagram : IpDatagram) : DatagramKey :=
  ⟨datagram.src, datagram.dst, datagram.id.toNat, datagram.proto⟩

end IpDatagram

/-- `flags_frag`. -/
def flagsFrag (fragOffUnits : Nat) (moreFrags : Bool) : Nat :=
  fragOffUnits % 2 ^ 13 + if moreFrags then 2 ^ 13 else 0

/-- The header that `ipv4_send_one` builds, with the checksum `csum`. -/
def ipv4Header (datagram : IpDatagram) (plen fragOffUnits : Nat) (moreFrags : Bool) (csum : Nat) :
    List UInt8 :=
  [0x45, 0] ++ encodeBE16 (20 + plen) ++ encodeBE16 datagram.id.toNat ++
    encodeBE16 (flagsFrag fragOffUnits moreFrags) ++ [64, datagram.proto] ++ encodeBE16 csum ++
    encodeLE 4 datagram.src.toNat ++ encodeLE 4 datagram.dst.toNat

/-- The header with its checksum. -/
def ipv4Sealed (datagram : IpDatagram) (plen fragOffUnits : Nat) (moreFrags : Bool) : List UInt8 :=
  ipv4Header datagram plen fragOffUnits moreFrags
    (ipChecksum (ipv4Header datagram plen fragOffUnits moreFrags 0))

/-- The frame that `ipv4_send_one` hands to the driver. -/
def ipv4Frame (datagram : IpDatagram) (dstMac srcMac : Mac) (piece : List UInt8)
    (fragOffUnits : Nat) (moreFrags : Bool) : List UInt8 :=
  dstMac.val ++ srcMac.val ++ [0x08, 0x00] ++
    ipv4Sealed datagram piece.length fragOffUnits moreFrags ++ piece

/-- The hardware address that a datagram is sent to. -/
def destinationMac (nif : NetIf) (dst : UInt32) : Option Mac :=
  if dst = 0xFFFFFFFF then some ⟨replicate 6 0xFF, by decide⟩
  else nif.arpResolve
    (if dst &&& nif.ipv4Mask = nif.ipv4Addr &&& nif.ipv4Mask then dst else nif.ipv4Gateway)

/-- `ipv4_send_one`: the frame it sends, if it returns no error. -/
def ipv4SendOne (nif : NetIf) (datagram : IpDatagram) (piece : List UInt8) (fragOffUnits : Nat)
    (moreFrags : Bool) : Option (List UInt8) :=
  if !nif.linkUp then none
  else if nif.ipv4Addr = 0 then none
  else if netIfMtu < piece.length + 20 then none
  else
    match destinationMac nif datagram.dst with
    | none => none
    | some dstMac =>
      let frame := ipv4Frame datagram dstMac nif.mac piece fragOffUnits moreFrags
      if nif.send frame then some frame else none

/-- `frag_size`. -/
def fragSize : Nat := (netIfMtu - 20) / 8 * 8

/-- The loop of `ipv4_send` from the offset `off`: the frames that are sent, and
whether all were. -/
def sendFragments (nif : NetIf) (datagram : IpDatagram) : Nat → Nat → List (List UInt8) × Bool
  | 0, _ => ([], true)
  | fuel + 1, off =>
    if off < datagram.payload.length then
      let thisLen := min (datagram.payload.length - off) fragSize
      let more := decide (off + thisLen < datagram.payload.length)
      match ipv4SendOne nif datagram ((datagram.payload.drop off).take thisLen) (off / 8) more with
      | none => ([], false)
      | some frame =>
        let rest := sendFragments nif datagram fuel (off + thisLen)
        (frame :: rest.1, rest.2)
    else ([], true)

/-- `ipv4_send`: the frames sent, and whether it returns no error. A round sends at least one byte.
-/
def ipv4Send (nif : NetIf) (dst : UInt32) (id : UInt16) (proto : UInt8) (payload : List UInt8) :
    List (List UInt8) × Bool :=
  let datagram : IpDatagram := ⟨nif.ipv4Addr, dst, id, proto, payload⟩
  if 20 + payload.length ≤ netIfMtu then
    match ipv4SendOne nif datagram payload 0 false with
    | none => ([], false)
    | some frame => ([frame], true)
  else sendFragments nif datagram payload.length 0

/-! ## The pieces of a datagram -/

namespace IpDatagram

variable (datagram : IpDatagram)

/-- The number of frames of a datagram. -/
def pieces : Nat := max 1 ((datagram.payload.length + 1479) / 1480)

variable (index : Nat)

/-- The bytes of the frame with number `index`. -/
def piece : List UInt8 := (datagram.payload.drop (1480 * index)).take 1480

/-- Another frame follows. -/
def hasMore : Bool := decide (1480 * (index + 1) < datagram.payload.length)

/-- The header of the frame with number `index`, as the receiver reads it. -/
def packet : Packet where
  src := datagram.src
  dst := datagram.dst
  id := datagram.id.toNat
  proto := datagram.proto
  hdrLen := 20
  total := 20 + (datagram.piece index).length
  fragOffUnits := 185 * index
  mf := datagram.hasMore index

/-- The frame carries the piece with number `index`, behind some Ethernet header. -/
def Carries (frame : List UInt8) : Prop :=
  ∃ dstMac srcMac, frame = ipv4Frame datagram dstMac srcMac (datagram.piece index) (185 * index)
    (datagram.hasMore index)

lemma length_piece :
    (datagram.piece index).length = min 1480 (datagram.payload.length - 1480 * index) := by
  simp [piece]

end IpDatagram

lemma ipv4SendOne_carries {nif : NetIf} {datagram : IpDatagram} {frame : List UInt8} {index : Nat}
    (sent : ipv4SendOne nif datagram (datagram.piece index) (185 * index)
      (datagram.hasMore index) = some frame) : datagram.Carries index frame := by
  simp only [ipv4SendOne] at sent
  iterate 4
    split at sent
    · cases sent
  case _ dstMac _ =>
    split at sent
    · cases sent
      exact ⟨dstMac, nif.mac, rfl⟩
    · cases sent

variable {frames : List (List UInt8)}

lemma sendFragments_spec {nif : NetIf} {datagram : IpDatagram} (fuel index off : Nat)
    (reached : off = min (1480 * index) datagram.payload.length)
    (enough : datagram.payload.length ≤ off + fuel)
    (sent : sendFragments nif datagram fuel off = (frames, true)) :
    frames.length = (datagram.payload.length + 1479) / 1480 - index ∧
      ∀ offset frame, frames[offset]? = some frame → datagram.Carries (index + offset) frame := by
  induction fuel generalizing index off frames with
  | zero =>
    obtain rfl : [] = frames := congrArg Prod.fst sent
    exact ⟨by simp only [length_nil]; omega, by simp⟩
  | succ fuel ih =>
    simp only [sendFragments] at sent
    split at sent
    case isFalse done =>
      obtain rfl : [] = frames := congrArg Prod.fst sent
      exact ⟨by simp only [length_nil]; omega, by simp⟩
    case isTrue inside =>
      have size : fragSize = 1480 := rfl
      have start : off = 1480 * index := by omega
      have units : off / 8 = 185 * index := by omega
      have last : decide (off + min (datagram.payload.length - off) 1480 <
          datagram.payload.length) = datagram.hasMore index := by
        simp only [IpDatagram.hasMore, decide_eq_decide]
        omega
      have cut : (datagram.payload.drop off).take (min (datagram.payload.length - off) 1480) =
          datagram.piece index := by
        rw [IpDatagram.piece, start, take_eq_take_iff]
        simp only [length_drop]
        omega
      simp only [size, units, last, cut] at sent
      split at sent
      · cases sent
      case _ frame one =>
        obtain ⟨rfl, complete⟩ := Prod.mk.inj sent
        obtain ⟨count, carries⟩ := ih (index + 1)
          (off + min (datagram.payload.length - off) 1480) (by omega) (by omega)
          (Prod.ext rfl complete)
        refine ⟨by rw [length_cons, count]; omega, ?_⟩
        intro offset other found
        cases offset with
        | zero =>
          obtain rfl : frame = other := by simpa using found
          exact ipv4SendOne_carries one
        | succ offset =>
          rw [show index + (offset + 1) = index + 1 + offset by omega]
          exact carries offset other (by simpa using found)

/-- A send without an error produces one frame for each piece. -/
theorem ipv4Send_spec {nif : NetIf} {dst : UInt32} {id : UInt16} {proto : UInt8}
    {payload : List UInt8}
    (sent : ipv4Send nif dst id proto payload = (frames, true)) :
    frames.length = IpDatagram.pieces ⟨nif.ipv4Addr, dst, id, proto, payload⟩ ∧
      ∀ index frame, frames[index]? = some frame →
        IpDatagram.Carries ⟨nif.ipv4Addr, dst, id, proto, payload⟩ index frame := by
  simp only [ipv4Send] at sent
  split at sent
  case isTrue single =>
    have small : payload.length ≤ 1480 := by
      simp only [netIfMtu] at single
      omega
    split at sent
    · cases sent
    case _ frame one =>
      obtain rfl : [frame] = frames := congrArg Prod.fst sent
      have whole : IpDatagram.piece ⟨nif.ipv4Addr, dst, id, proto, payload⟩ 0 = payload := by
        rw [IpDatagram.piece, mul_zero, drop_zero, take_of_length_le small]
      have final : IpDatagram.hasMore ⟨nif.ipv4Addr, dst, id, proto, payload⟩ 0 = false := by
        simpa [IpDatagram.hasMore] using small
      refine ⟨by simp only [length_singleton, IpDatagram.pieces]; omega, ?_⟩
      intro index other found
      obtain ⟨rfl, rfl⟩ : index = 0 ∧ frame = other := by
        cases index with
        | zero => exact ⟨rfl, by simpa using found⟩
        | succ index => simp at found
      have sentPiece : ipv4SendOne nif ⟨nif.ipv4Addr, dst, id, proto, payload⟩
          (IpDatagram.piece ⟨nif.ipv4Addr, dst, id, proto, payload⟩ 0) (185 * 0)
          (IpDatagram.hasMore ⟨nif.ipv4Addr, dst, id, proto, payload⟩ 0) = some frame := by
        rw [whole, final]
        exact one
      exact ipv4SendOne_carries sentPiece
  case isFalse several =>
    have large : 1480 < payload.length := by
      simp only [netIfMtu] at several
      omega
    obtain ⟨count, carries⟩ := sendFragments_spec payload.length 0 0 (by simp) (by simp) sent
    refine ⟨by rw [count, IpDatagram.pieces]; simp only; omega, ?_⟩
    intro index frame found
    simpa using carries index frame found

/-! ## The receiver reads the header back -/

section

variable (datagram : IpDatagram)
include datagram

lemma length_ipv4Header (plen fragOffUnits : Nat) (moreFrags : Bool)
    (csum : Nat) : (ipv4Header datagram plen fragOffUnits moreFrags csum).length = 20 := by
  simp [ipv4Header, encodeBE16]

/-- The checksum field is one of the words that are added up. -/
theorem sumWords_ipv4Header (plen fragOffUnits : Nat) (moreFrags : Bool) (csum : Nat) :
    sumWords (ipv4Header datagram plen fragOffUnits moreFrags csum) =
      sumWords (ipv4Header datagram plen fragOffUnits moreFrags 0) + csum % 2 ^ 16 := by
  have sum : ∀ csum, sumWords (ipv4Header datagram plen fragOffUnits moreFrags csum) =
      sumWords ([0x45, 0] ++ encodeBE16 (20 + plen) ++ encodeBE16 datagram.id.toNat ++
        encodeBE16 (flagsFrag fragOffUnits moreFrags) ++ [64, datagram.proto]) +
      (csum % 2 ^ 16 +
        sumWords (encodeLE 4 datagram.src.toNat ++ encodeLE 4 datagram.dst.toNat)) := by
    intro csum
    have csumEven : (encodeBE16 csum).length % 2 = 0 := by simp
    rw [ipv4Header, append_assoc, append_assoc, sumWords_append (by simp),
      sumWords_append csumEven, sumWords_encodeBE16]
  rw [sum csum, sum 0]
  omega

lemma ipChecksum_ipv4Sealed (plen fragOffUnits : Nat)
    (moreFrags : Bool) : ipChecksum (ipv4Sealed datagram plen fragOffUnits moreFrags) = 0 := by
  have bound := sumWords_le (ipv4Header datagram plen fragOffUnits moreFrags 0)
  rw [length_ipv4Header] at bound
  have positive : 0 < sumWords (ipv4Header datagram plen fragOffUnits moreFrags 0) := by
    simp only [ipv4Header, encodeBE16, cons_append, nil_append, sumWords]
    have first : (0x45 : UInt8).toNat = 69 := rfl
    omega
  rw [ipv4Sealed, ipChecksum, sumWords_ipv4Header]
  have folded : ipChecksum (ipv4Header datagram plen fragOffUnits moreFrags 0) =
      65535 - foldCarry 2 (sumWords (ipv4Header datagram plen fragOffUnits moreFrags 0)) := by
    rw [ipChecksum, Nat.mod_eq_of_lt (by omega)]
  generalize sumWords (ipv4Header datagram plen fragOffUnits moreFrags 0) = sum at *
  rw [folded, Nat.mod_eq_of_lt (a := 65535 - foldCarry 2 sum) (by omega),
    Nat.mod_eq_of_lt (by omega), foldCarry_add_complement 0 positive (by omega)]

lemma readPacket_ipv4Sealed {plen fragOffUnits : Nat} (moreFrags : Bool)
    (rest : List UInt8) (small : plen ≤ 1480) (offset : fragOffUnits < 2 ^ 13) :
    readPacket (ipv4Sealed datagram plen fragOffUnits moreFrags ++ rest) =
      ⟨datagram.src, datagram.dst, datagram.id.toNat, datagram.proto, 20, 20 + plen,
        fragOffUnits, moreFrags⟩ := by
  have total := encodeBE16_word (20 + plen)
  have id := encodeBE16_word datagram.id.toNat
  have flags := encodeBE16_word (flagsFrag fragOffUnits moreFrags)
  rw [Nat.mod_eq_of_lt (by omega)] at total
  rw [Nat.mod_eq_of_lt datagram.id.toNat_lt] at id
  have src : readLE 4 (ipv4Sealed datagram plen fragOffUnits moreFrags ++ rest) 12 =
      datagram.src.toNat := by
    have atOffset : (ipv4Sealed datagram plen fragOffUnits moreFrags ++ rest).drop 12 =
        encodeLE 4 datagram.src.toNat ++ (encodeLE 4 datagram.dst.toNat ++ rest) := by
      simp [ipv4Sealed, ipv4Header, encodeBE16]
    rw [readLE_of_drop atOffset]
    exact Nat.mod_eq_of_lt datagram.src.toNat_lt
  have dst : readLE 4 (ipv4Sealed datagram plen fragOffUnits moreFrags ++ rest) 16 =
      datagram.dst.toNat := by
    have atOffset : (ipv4Sealed datagram plen fragOffUnits moreFrags ++ rest).drop 16 =
        encodeLE 4 datagram.dst.toNat ++ rest := by
      simp [ipv4Sealed, ipv4Header, encodeBE16, encodeLE]
    rw [readLE_of_drop atOffset]
    exact Nat.mod_eq_of_lt datagram.dst.toNat_lt
  have first : (0x45 : UInt8).toNat % 16 * 4 = 20 := rfl
  rw [readPacket, src, dst]
  simp only [ipv4Sealed, ipv4Header, encodeBE16, cons_append, nil_append, readBE16,
    getD_cons_succ, getD_cons_zero, total, id, flags, first, UInt32.ofNat_toNat]
  cases moreFrags with
  | false =>
    have value : flagsFrag fragOffUnits false % 2 ^ 16 = fragOffUnits := by
      simp only [flagsFrag, Bool.false_eq_true, if_false]
      omega
    simp only [value, Nat.mod_eq_of_lt offset, Nat.div_eq_of_lt offset]
    rfl
  | true =>
    have value : flagsFrag fragOffUnits true % 2 ^ 16 = fragOffUnits + 2 ^ 13 := by
      simp only [flagsFrag, if_true]
      omega
    have low : (fragOffUnits + 2 ^ 13) % 2 ^ 13 = fragOffUnits := by omega
    have high : (fragOffUnits + 2 ^ 13) / 2 ^ 13 % 2 = 1 := by omega
    simp only [value, low, high]
    rfl

lemma length_ipv4Sealed (plen fragOffUnits : Nat) (moreFrags : Bool) :
    (ipv4Sealed datagram plen fragOffUnits moreFrags).length = 20 :=
  length_ipv4Header ..

lemma drop_ipv4Frame (dstMac srcMac : Mac) (piece : List UInt8)
    (fragOffUnits : Nat) (moreFrags : Bool) :
    (ipv4Frame datagram dstMac srcMac piece fragOffUnits moreFrags).drop 14 =
      ipv4Sealed datagram piece.length fragOffUnits moreFrags ++ piece := by
  have front : (dstMac.val ++ srcMac.val ++ [0x08, 0x00]).length = 14 := by
    simp [dstMac.property, srcMac.property]
  rw [ipv4Frame, append_assoc, ← front, drop_left]

end

namespace IpDatagram

variable {datagram : IpDatagram} {index : Nat} {frame : List UInt8}

/-- The address of the receiving interface does not turn the datagram away. -/
def Reaches (datagram : IpDatagram) (addr : Option UInt32) : Prop :=
  addr.any (fun own => datagram.dst != own && datagram.dst != 0xFFFFFFFF) = false

variable (carries : datagram.Carries index frame)
include carries

lemma Carries.length : frame.length = 34 + (datagram.piece index).length := by
  rcases carries with ⟨dstMac, srcMac, rfl⟩
  simp only [ipv4Frame, length_append, length_ipv4Sealed, dstMac.property, srcMac.property,
    length_cons, length_nil]

lemma Carries.payload : frame.drop 34 = datagram.piece index := by
  rcases carries with ⟨dstMac, srcMac, rfl⟩
  rw [show 34 = 14 + 20 from rfl, ← drop_drop, drop_ipv4Frame,
    ← length_ipv4Sealed datagram (datagram.piece index).length (185 * index)
      (datagram.hasMore index), drop_left]

/-- The receiver accepts the frame and reads its header back. -/
theorem Carries.accepted {addr : Option UInt32}
    (reaches : datagram.Reaches addr) (offset : 185 * index < 2 ^ 13) :
    ipv4Accept addr frame = some (datagram.packet index) := by
  have length := carries.length
  rcases carries with ⟨dstMac, srcMac, rfl⟩
  unfold Reaches at reaches
  have small : (datagram.piece index).length ≤ 1480 := by
    rw [length_piece]
    omega
  have read := readPacket_ipv4Sealed datagram (datagram.hasMore index) (datagram.piece index) small
    offset
  have sealedLength : (ipv4Sealed datagram (datagram.piece index).length (185 * index)
      (datagram.hasMore index) ++ datagram.piece index).take 20 =
      ipv4Sealed datagram (datagram.piece index).length (185 * index) (datagram.hasMore index) := by
    rw [← length_ipv4Sealed datagram (datagram.piece index).length (185 * index)
      (datagram.hasMore index), take_left]
  have version : ((ipv4Sealed datagram (datagram.piece index).length (185 * index)
      (datagram.hasMore index) ++ datagram.piece index).getD 0 0).toNat / 16 = 4 := by
    simp only [ipv4Sealed, ipv4Header, cons_append, getD_cons_zero]
    rfl
  simp only [ipv4Accept, drop_ipv4Frame, read, length, sealedLength, ipChecksum_ipv4Sealed, version]
  rw [if_neg (by omega), if_neg (by omega), if_neg (by omega), if_neg (by omega),
    if_neg (by omega), if_neg (by omega), if_neg (by simpa using reaches)]
  rfl

end IpDatagram

end CupidOs.Net
