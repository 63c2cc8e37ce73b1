import CupidOs.Net.Socket
import CupidOs.Bytes.OnesComplement

/-!
# TCP

`kernel/network/tcp.c` on the socket table. A call that waits is modelled by one of its rounds
under the kernel lock; the clock and the initial sequence number are arguments. Segments that are
sent are returned.
-/

namespace CupidOs.Net

open Bytes Function List Rings

/-- `TCP_MSS`. -/
def tcpMss : Nat := 1460

/-- `TCP_RTO_MS`. -/
def tcpRtoMs : Nat := 500

/-- `TCP_TIME_WAIT_MS`. -/
def tcpTimeWaitMs : UInt32 := 60000

/-- `TCP_RT_MAX_ATTEMPTS`. -/
def tcpRtMaxAttempts : Nat := 5

/-- `TCP_LQ_HALF_OPEN_TIMEOUT_MS`. -/
def tcpLqHalfOpenTimeoutMs : UInt32 := 30000

/-- The flags of a segment that are looked at. -/
structure TcpFlags where
  fin : Bool := false
  syn : Bool := false
  rst : Bool := false
  psh : Bool := false
  ack : Bool := false
  deriving DecidableEq

/-- A segment. -/
structure Segment where
  srcPort : UInt16
  dstPort : UInt16
  seq : UInt32
  ack : UInt32
  flags : TcpFlags
  data : List UInt8
  deriving DecidableEq

/-- A segment on its way to the host `dstIp`, with the window it advertises. -/
structure Emission where
  dstIp : UInt32
  window : Nat
  segment : Segment
  deriving DecidableEq

/-- The big-endian number at `offset`. -/
def readBE32 (bytes : List UInt8) (offset : Nat) : UInt32 :=
  UInt32.ofNat (readBE16 bytes offset * 2 ^ 16 + readBE16 bytes (offset + 2))

/-- The flags of the byte `flags` of the header. -/
def readFlags (flags : Nat) : TcpFlags where
  fin := flags.testBit 0
  syn := flags.testBit 1
  rst := flags.testBit 2
  psh := flags.testBit 3
  ack := flags.testBit 4

/-- The checks at the start of `tcp_input`, and the fields it reads. -/
def tcpParse (buf : List UInt8) : Option Segment :=
  let hlen := (buf.getD 12 0).toNat / 16 * 4
  if buf.length < 20 then none
  else if hlen < 5 * 4 then none
  else if buf.length < hlen then none
  else
    some {
      srcPort := UInt16.ofNat (readBE16 buf 0)
      dstPort := UInt16.ofNat (readBE16 buf 2)
      seq := readBE32 buf 4
      ack := readBE32 buf 8
      flags := readFlags (buf.getD 13 0).toNat
      data := buf.drop hlen }

/-- The two halves of a number, most significant first. -/
def encodeBE32 (value : UInt32) : List UInt8 :=
  encodeBE16 (value.toNat / 2 ^ 16) ++ encodeBE16 value.toNat

/-- The byte `flags` of the header. -/
def flagsByte (flags : TcpFlags) : UInt8 :=
  UInt8.ofNat (flags.fin.toNat + flags.syn.toNat * 2 + flags.rst.toNat * 4 + flags.psh.toNat * 8 +
    flags.ack.toNat * 16)

/-- The bytes that `tcp_emit` hands to `ipv4_send`, with the checksum `csum`. -/
def tcpPacket (emission : Emission) (csum : Nat) : List UInt8 :=
  encodeBE16 emission.segment.srcPort.toNat ++ encodeBE16 emission.segment.dstPort.toNat ++
    encodeBE32 emission.segment.seq ++ encodeBE32 emission.segment.ack ++
    [0x50, flagsByte emission.segment.flags] ++ encodeBE16 emission.window ++ encodeBE16 csum ++
    [0, 0] ++ emission.segment.data

variable (s : Socket)

/-- The free bytes of the receive buffer; one byte is never used. -/
def freeBytes : Nat := sockRxBuf - 1 - s.rx.used

/-- `tcp_emit`. -/
def tcpEmit (seq : UInt32) (flags : TcpFlags) (data : List UInt8) : Emission where
  dstIp := s.remoteIp
  window := min (freeBytes s) 65535
  segment := ⟨s.localPort, s.remotePort, seq, s.rcvNxt, flags, data.take tcpMss⟩

/-- The sequence numbers that a segment takes up. -/
def seqLength (flags : TcpFlags) (data : List UInt8) : UInt32 :=
  (if flags.syn then 1 else 0) + (if flags.fin then 1 else 0) + UInt32.ofNat data.length

/-- The retransmission record that `tcp_send_seg` makes of a segment with data. -/
def recordInFlight (flags : TcpFlags) (data : List UInt8) (now : UInt32) : Socket :=
  if 0 < data.length ∧ flags.psh = true then
    { s with rtBuf := data, rtSeq := s.sndNxt, rtSendTick := now, rtAttempts := 0 }
  else s

/-- `tcp_send_seg`. -/
def tcpSendSeg (flags : TcpFlags) (data : List UInt8) (now : UInt32) :
    Socket × Emission :=
  let sent := data.take tcpMss
  ({ recordInFlight s flags sent now with sndNxt := s.sndNxt + seqLength flags sent },
    tcpEmit s s.sndNxt flags sent)

/-- A TCP socket in use. -/
def Socket.isTcp : Bool := s.inUse && s.type == .tcp

/-! ## Calls -/

/-- The results of the calls that return no data. -/
inductive TcpReply
  | done
  | waiting
  | badFd
  | invalid
  | noBuffers
  | accepted (fd : Fin socketMax) (ip : UInt32) (port : UInt16)
  deriving DecidableEq

/-- The local port that `tcp_connect` uses. -/
def connectPort (fd : Fin socketMax) : UInt16 :=
  if s.localPort = 0 then UInt16.ofNat (49152 + fd.val * 37 % 16383) else s.localPort

/-- The socket that `tcp_connect` prepares for its first segment. -/
def connecting (fd : Fin socketMax) (ip : UInt32) (port : UInt16) (iss : UInt32) :
    Socket :=
  { s with
    localPort := connectPort s fd
    remoteIp := ip
    remotePort := port
    sndIss := iss
    sndUna := iss
    sndNxt := iss
    rcvNxt := 0 }

variable (sockets : Sockets)

/-- `tcp_connect` up to its wait; `iss` is the value of `tcp_gen_iss`. -/
def tcpConnect (fd : Fin socketMax) (ip : UInt32) (port : UInt16)
    (iss now : UInt32) : Sockets × List Emission × TcpReply :=
  if !(sockets fd).isTcp then (sockets, [], .badFd)
  else if (sockets fd).tcpState ≠ .closed then (sockets, [], .invalid)
  else
    let sent := tcpSendSeg (connecting (sockets fd) fd ip port iss) { syn := true } [] now
    (update sockets fd
      { sent.1 with tcpState := .synSent, lastRexmitTick := now }, [sent.2], .waiting)

/-- An error, a stop, bytes that were taken, or nothing while a segment is in flight. -/
inductive SendRound
  | badFd
  | stopped
  | took (count : Nat)
  | busy
  deriving DecidableEq

/-- One round of the loop of `tcp_send` for the bytes that are left; without any,
the call is over. -/
def socketSend (left : List UInt8) (now : UInt32) :
    Socket × List Emission × SendRound :=
  if left = [] then (s, [], .took 0)
  else if !s.isTcp then (s, [], .badFd)
  else if s.tcpState ≠ .established then (s, [], .stopped)
  else if s.rtBuf = [] then
    let sent := tcpSendSeg s { ack := true, psh := true } (left.take tcpMss) now
    (sent.1, [sent.2], .took (min left.length tcpMss))
  else (s, [], .busy)

/-- What one round of `tcp_recv` returns. -/
inductive RecvRound
  | badFd
  | data (bytes : List UInt8)
  | endOfStream
  | waiting
  deriving DecidableEq

/-- One round of the loop of `tcp_recv`. -/
def socketRecv (len : Nat) : Socket × RecvRound :=
  if !s.isTcp then (s, .badFd)
  else if 0 < s.rx.used then
    let n := min s.rx.used len
    ({ s with rx := s.rx.drop n }, .data (s.rx.peek n))
  else if s.tcpState = .closeWait ∨ s.tcpState = .closed then (s, .endOfStream)
  else (s, .waiting)

/-- The part of `tcp_close` for a TCP socket in use. -/
def socketTcpClose (now : UInt32) : Socket × List Emission :=
  match s.tcpState with
  | .established =>
    let sent := tcpSendSeg s { fin := true, ack := true } [] now
    ({ sent.1 with tcpState := .finWait1 }, [sent.2])
  | .closeWait =>
    let sent := tcpSendSeg s { fin := true, ack := true } [] now
    ({ sent.1 with tcpState := .lastAck }, [sent.2])
  | _ => ({ s with inUse := false }, [])

/-- `tcp_close`. -/
def tcpClose (fd : Fin socketMax) (now : UInt32) : Sockets × List Emission :=
  if (sockets fd).isTcp then
    let closed := socketTcpClose (sockets fd) now
    (update sockets fd closed.1, closed.2)
  else (sockets, [])

/-- `tcp_listen`. -/
def tcpListen (fd : Fin socketMax) : Sockets × TcpReply :=
  if !(sockets fd).isTcp then (sockets, .badFd)
  else if (sockets fd).localPort = 0 then (sockets, .invalid)
  else
    (update sockets fd
      { sockets fd with
        tcpState := .listen
        lq := fun slot => { (sockets fd).lq slot with inUse := false, completed := false } },
      .done)

/-- The first entry of a listen queue that meets a condition. -/
def firstEntry (condition : ListenEntry → Bool) : Option (Fin lqSize) :=
  (finRange lqSize).find? fun slot => condition (s.lq slot)

/-- The socket of a connection that `tcp_accept` takes from the queue of `l`. -/
def acceptedSocket (l : Socket) (entry : ListenEntry) : Socket :=
  { zeroSocket with
    inUse := true
    type := .tcp
    localIp := l.localIp
    localPort := l.localPort
    remoteIp := entry.ip
    remotePort := entry.port
    sndIss := entry.iss
    sndUna := entry.iss + 1
    sndNxt := entry.iss + 1
    rcvIrs := entry.rcvNxt - 1
    rcvNxt := entry.rcvNxt
    tcpState := .established }

/-- A socket with an entry removed from its listen queue. -/
def dequeue (l : Socket) (slot : Fin lqSize) : Socket :=
  { l with
    lq := update l.lq slot { l.lq slot with completed := false, inUse := false } }

/-- One round of `tcp_accept`. -/
def tcpAccept (fd : Fin socketMax) : Sockets × TcpReply :=
  let l := sockets fd
  if !l.isTcp || l.tcpState != .listen then (sockets, .badFd)
  else
    match firstEntry l fun entry => entry.inUse && entry.completed with
    | none => (sockets, .waiting)
    | some slot =>
      match firstSocket sockets fun s => !s.inUse with
      | none => (update sockets fd (dequeue l slot), .noBuffers)
      | some newfd =>
        (update (update sockets newfd (acceptedSocket l (l.lq slot))) fd (dequeue l slot),
          .accepted newfd (l.lq slot).ip (l.lq slot).port)

/-! ## Input -/

variable (segment : Segment)

/-- The acknowledgement covers the segment in flight. -/
def acksInFlight : Bool :=
  segment.flags.ack && decide (0 < s.rtBuf.length) &&
    decide (segment.ack - (s.rtSeq + UInt32.ofNat s.rtBuf.length) < 2 ^ 31)

/-- The retransmission record is dropped once the peer acknowledges it. -/
def clearInFlight : Socket :=
  if acksInFlight s segment then { s with rtBuf := [], rtAttempts := 0 } else s

/-- The data that `tcp_input` moves into the receive buffer. -/
def storeData (data : List UInt8) : Socket :=
  if data.length ≤ freeBytes s then
    { s with
      rx := s.rx.pushAll data
      rcvNxt := s.rcvNxt + UInt32.ofNat data.length }
  else s

/-- Only the next bytes are taken, and only if all of them fit. -/
def receiveData (now : UInt32) : Socket × List Emission :=
  if segment.seq = s.rcvNxt ∧ 0 < segment.data.length then
    let sent := tcpSendSeg (storeData s segment.data) { ack := true } [] now
    (sent.1, [sent.2])
  else (s, [])

/-- The acknowledgement number and the end of the stream in `ESTABLISHED`. -/
def receiveFin (now : UInt32) : Socket × List Emission :=
  let acked := if segment.flags.ack then { s with sndUna := segment.ack } else s
  if segment.flags.fin then
    let sent := tcpSendSeg { acked with rcvNxt := acked.rcvNxt + 1, tcpState := .closeWait }
      { ack := true } [] now
    (sent.1, [sent.2])
  else (acked, [])

/-- The `ESTABLISHED` branch of `tcp_input`. -/
def establishedInput (now : UInt32) : Socket × List Emission :=
  let stored := receiveData (clearInFlight s segment) segment now
  let ended := receiveFin stored.1 segment now
  (ended.1, stored.2 ++ ended.2)

/-- The `SYN_SENT` branch of `tcp_input`. -/
def synSentInput (now : UInt32) : Socket × List Emission :=
  if segment.flags.syn && segment.flags.ack && segment.ack == s.sndNxt then
    let sent := tcpSendSeg
      { s with
        rcvIrs := segment.seq
        rcvNxt := segment.seq + 1
        sndUna := segment.ack
        tcpState := .established } { ack := true } [] now
    (sent.1, [sent.2])
  else if segment.flags.rst then ({ s with tcpState := .closed }, [])
  else (s, [])

/-- The `FIN_WAIT_2` branch of `tcp_input`. -/
def finWait2Input (now : UInt32) : Socket × List Emission :=
  if segment.flags.fin then
    let sent := tcpSendSeg { s with rcvNxt := s.rcvNxt + 1 } { ack := true } [] now
    ({ sent.1 with timeWaitStart := now, tcpState := .timeWait }, [sent.2])
  else (s, [])

/-- The part of `tcp_input` for the socket that a segment belongs to. -/
def socketInput (now : UInt32) : Socket × List Emission :=
  match s.tcpState with
  | .synSent => synSentInput s segment now
  | .established => establishedInput s segment now
  | .finWait1 =>
    if segment.flags.ack && segment.ack == s.sndNxt then
      finWait2Input { s with tcpState := .finWait2 } segment now
    else (s, [])
  | .finWait2 => finWait2Input s segment now
  | .lastAck =>
    if segment.flags.ack && segment.ack == s.sndNxt then
      ({ s with tcpState := .closed, inUse := false }, [])
    else (s, [])
  | _ => (s, [])

/-- A TCP socket that is neither closed nor listening. -/
def Socket.active : Bool :=
  s.isTcp && s.tcpState != .listen && s.tcpState != .closed

/-- The segment belongs to the connection of the socket. -/
def belongsTo (srcIp : UInt32) (segment : Segment) (s : Socket) : Bool :=
  s.active && s.localPort == segment.dstPort && s.remoteIp == srcIp &&
    s.remotePort == segment.srcPort

/-- A socket that listens on a port. -/
def listensOn (port : UInt16) (s : Socket) : Bool :=
  s.isTcp && s.tcpState == .listen && s.localPort == port

/-- A connection request is entered into the queue and answered, unless the peer is in it already or
it is full. -/
def listenInput (l : Socket) (srcIp : UInt32) (segment : Segment) (now iss own : UInt32) :
    Socket × List Emission :=
  if ((finRange lqSize).any fun slot =>
      (l.lq slot).inUse && (l.lq slot).ip == srcIp && (l.lq slot).port == segment.srcPort) then
    (l, [])
  else
    match firstEntry l fun entry => !entry.inUse with
    | none => (l, [])
    | some slot =>
      let answer := tcpSendSeg
        { zeroSocket with
          localIp := if l.localIp ≠ 0 then l.localIp else own
          localPort := l.localPort
          remoteIp := srcIp
          remotePort := segment.srcPort
          sndNxt := iss
          rcvNxt := segment.seq + 1 } { syn := true, ack := true } [] now
      ({ l with
          lq := update l.lq slot ⟨srcIp, segment.srcPort, iss, segment.seq + 1, now, true, true⟩ },
        [answer.2])

/-- The entry waits for the acknowledgement that the segment carries. -/
def completes (srcIp : UInt32) (segment : Segment) (entry : ListenEntry) : Bool :=
  entry.inUse && !entry.completed && entry.ip == srcIp && entry.port == segment.srcPort &&
    segment.ack == entry.iss + 1

/-- A half-open entry of a listen queue is completed. -/
def completeEntry (l : Socket) (srcIp : UInt32) (segment : Segment) : Socket :=
  match firstEntry l (completes srcIp segment) with
  | none => l
  | some slot =>
    { l with lq := update l.lq slot { l.lq slot with completed := true } }

/-- `tcp_input` for a segment that belongs to no connection. -/
def strayInput (srcIp : UInt32) (segment : Segment) (now iss own : UInt32) :
    Sockets × List Emission :=
  if segment.flags.syn then
    match firstSocket sockets (listensOn segment.dstPort) with
    | none => (sockets, [])
    | some fd =>
      let entered := listenInput (sockets fd) srcIp segment now iss own
      (update sockets fd entered.1, entered.2)
  else if segment.flags.ack then
    match firstSocket sockets fun l =>
        listensOn segment.dstPort l && (firstEntry l (completes srcIp segment)).isSome with
    | none => (sockets, [])
    | some fd => (update sockets fd (completeEntry (sockets fd) srcIp segment), [])
  else (sockets, [])

/-- `tcp_input` behind its checks. -/
def segmentInput (srcIp : UInt32) (segment : Segment) (now iss own : UInt32) :
    Sockets × List Emission :=
  match firstSocket sockets (belongsTo srcIp segment) with
  | some fd =>
    let handled := socketInput (sockets fd) segment now
    (update sockets fd handled.1, handled.2)
  | none => strayInput sockets srcIp segment now iss own

/-- `tcp_input`. -/
def tcpInput (srcIp : UInt32) (buf : List UInt8) (now iss own : UInt32) :
    Sockets × List Emission :=
  match tcpParse buf with
  | none => (sockets, [])
  | some segment => segmentInput sockets srcIp segment now iss own

/-! ## The clock -/

/-- `rto` for the segment in flight. -/
def Socket.rto : UInt32 := UInt32.ofNat (tcpRtoMs * 2 ^ s.rtAttempts)

/-- The data part of `tcp_tick`. -/
def retransmit (now : UInt32) : Socket × List Emission :=
  if 0 < s.rtBuf.length ∧ s.rto < now - s.rtSendTick then
    if tcpRtMaxAttempts ≤ s.rtAttempts then ({ s with tcpState := .closed, rtBuf := [] }, [])
    else
      ({ s with rtSendTick := now, rtAttempts := s.rtAttempts + 1 },
        [tcpEmit s s.rtSeq { ack := true, psh := true } s.rtBuf])
  else (s, [])

/-- The body of the loop of `tcp_tick` for a TCP socket in use. -/
def tickSocket (now : UInt32) : Socket × List Emission :=
  match s.tcpState with
  | .synSent =>
    if UInt32.ofNat tcpRtoMs < now - s.lastRexmitTick then
      let sent := tcpSendSeg { s with sndNxt := s.sndIss } { syn := true } [] now
      ({ sent.1 with lastRexmitTick := now }, [sent.2])
    else (s, [])
  | .established => retransmit s now
  | .listen =>
    ({ s with
      lq := fun slot =>
        if (s.lq slot).inUse && !(s.lq slot).completed &&
            decide (tcpLqHalfOpenTimeoutMs < now - (s.lq slot).insertedMs) then
          { s.lq slot with inUse := false }
        else s.lq slot }, [])
  | .timeWait =>
    if tcpTimeWaitMs < now - s.timeWaitStart then
      ({ s with tcpState := .closed, inUse := false }, [])
    else (s, [])
  | _ => (s, [])

/-- What `tcp_tick` does with one socket. -/
def tickEntry (now : UInt32) : Socket × List Emission :=
  if s.isTcp then tickSocket s now else (s, [])

/-- `tcp_tick`. -/
def tcpTick (now : UInt32) : Sockets × List Emission :=
  (fun fd => (tickEntry (sockets fd) now).1,
    (finRange socketMax).flatMap fun fd => (tickEntry (sockets fd) now).2)

/-! ## What sending a segment keeps -/

section SendSeg

variable (s : Socket) (flags : TcpFlags) (data : List UInt8) (now : UInt32)

lemma recordInFlight_nil : recordInFlight s flags [] now = s := by
  simp [recordInFlight]

/-- A segment without data only moves the next sequence number. -/
theorem tcpSendSeg_nil : tcpSendSeg s flags [] now =
      ({ s with sndNxt := s.sndNxt + seqLength flags [] }, tcpEmit s s.sndNxt flags []) := by
  simp only [tcpSendSeg, take_nil, recordInFlight_nil]

/-- An acknowledgement leaves the sending side of a socket alone. -/
theorem tcpSendSeg_ack :
    tcpSendSeg s { ack := true } [] now = (s, tcpEmit s s.sndNxt { ack := true } []) := by
  have noLength : seqLength { ack := true } [] = 0 := by decide
  rw [tcpSendSeg_nil, noLength, UInt32.add_zero]

end SendSeg

/-! ## Segments on the wire -/

lemma ofNat_halves (value : UInt32) :
    UInt32.ofNat (value.toNat / 2 ^ 16 % 2 ^ 16 * 2 ^ 16 + value.toNat % 2 ^ 16) = value := by
  have small := value.toNat_lt
  have sum : value.toNat / 2 ^ 16 % 2 ^ 16 * 2 ^ 16 + value.toNat % 2 ^ 16 = value.toNat := by omega
  rw [sum, UInt32.ofNat_toNat]

lemma readFlags_flagsByte (flags : TcpFlags) : readFlags (flagsByte flags).toNat = flags := by
  rcases flags with ⟨fin, syn, rst, psh, ack⟩
  revert fin syn rst psh ack
  decide

/-- Every segment that is sent parses back to itself, with any checksum. -/
theorem tcpParse_tcpPacket (emission : Emission) (csum : Nat) :
    tcpParse (tcpPacket emission csum) = some emission.segment := by
  rcases emission with ⟨dstIp, window, srcPort, dstPort, seq, ack, flags, data⟩
  have header : (0x50 : UInt8).toNat / 16 * 4 = 20 := rfl
  simp only [tcpParse, tcpPacket, encodeBE32, encodeBE16, cons_append, nil_append,
    readBE32, readBE16, getD_cons_succ, getD_cons_zero, header, encodeBE16_word,
    Nat.mod_eq_of_lt srcPort.toNat_lt, Nat.mod_eq_of_lt dstPort.toNat_lt, ofNat_halves,
    readFlags_flagsByte, UInt16.ofNat_toNat, length_cons, drop_succ_cons, drop_zero]
  rw [if_neg (by omega), if_neg (by omega), if_neg (by omega)]

end CupidOs.Net
