import CupidOs.Net.Socket
import CupidOs.Transition.Run

/-!
# UDP sockets are bounded queues of datagrams

`socket_udp_deliver` puts the bytes of a datagram into one ring and its header into another;
`socket_recvfrom` and `udp_try_recv` take from both. The two rings stay in step: a socket is a
queue of whole datagrams, bounded in their number and in their bytes.
-/

namespace CupidOs.Net

open Function List Rings Transition

/-- The payload of a datagram; the length field of UDP has 16 bits. -/
abbrev Payload := { bytes : List UInt8 // bytes.length < 2 ^ 16 }

/-- A UDP socket that is open on a port. -/
def acceptsUdp (port : UInt16) (socket : Socket) : Bool :=
  socket.inUse && socket.type == .udp && socket.localPort == port

/-- The body of `socket_udp_deliver` for the socket it has found. -/
def queueDatagram (socket : Socket) (srcIp : UInt32) (srcPort : UInt16) (data : Payload) : Socket :=
  if (socket.udpMeta.back + 1) % udpMaxQueued = socket.udpMeta.front then socket
  else if sockRxBuf ≤ (socket.rx.used + data.val.length) % 2 ^ 32 then socket
  else
    { socket with
      rx := socket.rx.pushAll data.val
      udpMeta := socket.udpMeta.push ⟨srcIp, srcPort, data.val.length % 2 ^ 16⟩ }

variable (sockets : Sockets)

/-- `socket_udp_deliver`. -/
def socketUdpDeliver (srcIp : UInt32) (srcPort dstPort : UInt16)
    (data : Payload) : Sockets :=
  match firstSocket sockets (acceptsUdp dstPort) with
  | none => sockets
  | some fd => update sockets fd (queueDatagram (sockets fd) srcIp srcPort data)

/-- A received datagram: where it came from and the bytes that were copied. -/
structure Received where
  ip : UInt32
  port : UInt16
  bytes : List UInt8
  deriving DecidableEq

/-- Take the oldest datagram of a socket, with at most `len` of its bytes. -/
def takeDatagram (socket : Socket) (len : Nat) : Option (Socket × Received) :=
  if socket.udpMeta.back = socket.udpMeta.front then none
  else
    let header := socket.udpMeta.cells socket.udpMeta.front
    some ({ socket with
        rx := socket.rx.drop header.len
        udpMeta := socket.udpMeta.drop 1 },
      ⟨header.ip, header.port, socket.rx.peek (min header.len len)⟩)

/-- What the receiving calls return. -/
inductive RecvReply
  | badFd
  | received (datagram : Received)
  | nothing
  deriving DecidableEq

/-- `socket_recvfrom`; `nothing` is its timeout.  The port is returned in network
byte order. -/
def socketRecvfrom (fd : Nat) (len : Nat) : Sockets × RecvReply :=
  if inside : fd < socketMax then
    let socket := sockets ⟨fd, inside⟩
    if socket.inUse && socket.type == .udp then
      match takeDatagram socket len with
      | none => (sockets, .nothing)
      | some (after, datagram) =>
        (update sockets ⟨fd, inside⟩ after, .received { datagram with port := htons datagram.port })
    else (sockets, .badFd)
  else (sockets, .badFd)

/-- `udp_try_recv` of the resolver; `nothing` is its error. -/
def udpTryRecv (fd : Fin socketMax) (len : Nat) : Sockets × RecvReply :=
  if (sockets fd).inUse && (sockets fd).type == .udp then
    match takeDatagram (sockets fd) len with
    | none => (sockets, .nothing)
    | some (after, datagram) => (update sockets fd after, .received datagram)
  else (sockets, .nothing)

/-- A datagram that arrives, or a call that receives one. -/
inductive UdpCall
  | deliver (srcIp : UInt32) (srcPort dstPort : UInt16) (data : Payload)
  | recvfrom (fd len : Nat)
  | tryRecv (fd : Fin socketMax) (len : Nat)

/-- One event on the socket table. -/
def udpStep : Machine Sockets UdpCall RecvReply
  | sockets, .deliver srcIp srcPort dstPort data =>
    (socketUdpDeliver sockets srcIp srcPort dstPort data, .nothing)
  | sockets, .recvfrom fd len => socketRecvfrom sockets fd len
  | sockets, .tryRecv fd len => udpTryRecv sockets fd len

/-! ## The queue a socket stands for -/

/-- A datagram in a queue. -/
structure Datagram where
  ip : UInt32
  port : UInt16
  data : Payload

namespace Datagram

/-- What the socket keeps beside the bytes. -/
def header (datagram : Datagram) : DgramMeta :=
  ⟨datagram.ip, datagram.port, datagram.data.val.length⟩

/-- The bytes of a datagram. -/
def bytes (datagram : Datagram) : List UInt8 := datagram.data.val

end Datagram

/-- The bytes of all datagrams of a queue. -/
def queueBytes (queue : List Datagram) : Nat := (queue.map (·.bytes.length)).sum

/-- A UDP endpoint: the port it is open on, if it is a UDP socket in use, and its
datagrams. -/
structure Endpoint where
  port : Option UInt16
  queue : List Datagram

/-- A datagram is kept whole if there is room for it, or dropped whole. -/
def Endpoint.deliver (endpoint : Endpoint) (datagram : Datagram) : Endpoint :=
  if endpoint.queue.length + 1 < udpMaxQueued ∧
      queueBytes endpoint.queue + datagram.bytes.length < sockRxBuf then
    { endpoint with queue := endpoint.queue ++ [datagram] }
  else endpoint

/-- The oldest datagram is removed; its source and as many of its bytes as fit
are returned. -/
def Endpoint.receive (endpoint : Endpoint) (len : Nat) : Endpoint × Option Received :=
  match endpoint.queue with
  | [] => (endpoint, none)
  | oldest :: rest =>
    ({ endpoint with queue := rest }, some ⟨oldest.ip, oldest.port, oldest.bytes.take len⟩)

/-- The endpoints of the socket table. -/
abbrev Endpoints := Fin socketMax → Endpoint

/-- Receive from an endpoint; `shown` presents the port, `closed` answers for other sockets. -/
def receiveFrom (endpoints : Endpoints) (fd : Fin socketMax) (len : Nat)
    (shown : UInt16 → UInt16) (closed : RecvReply) : Endpoints × RecvReply :=
  if (endpoints fd).port.isSome then
    match (endpoints fd).receive len with
    | (_, none) => (endpoints, .nothing)
    | (after, some datagram) =>
      (update endpoints fd after, .received { datagram with port := shown datagram.port })
  else (endpoints, closed)

/-- One event on the endpoints. -/
def endpointStep : Machine Endpoints UdpCall RecvReply
  | endpoints, .deliver srcIp srcPort dstPort data =>
    (match (finRange socketMax).find? fun fd => (endpoints fd).port == some dstPort with
      | none => endpoints
      | some fd =>
        update endpoints fd ((endpoints fd).deliver ⟨srcIp, srcPort, data⟩),
      .nothing)
  | endpoints, .recvfrom fd len =>
    if inside : fd < socketMax then receiveFrom endpoints ⟨fd, inside⟩ len htons .badFd
    else (endpoints, .badFd)
  | endpoints, .tryRecv fd len => receiveFrom endpoints fd len id .nothing

/-- The port of a UDP socket in use. -/
def udpPort (socket : Socket) : Option UInt16 :=
  if socket.inUse && socket.type == .udp then some socket.localPort else none

/-- A socket holds the headers of an endpoint's datagrams in one ring, their bytes in the other. -/
structure HoldsQueue (socket : Socket) (endpoint : Endpoint) : Prop where
  port : udpPort socket = endpoint.port
  headers : socket.udpMeta.contents = endpoint.queue.map Datagram.header
  bytes : socket.rx.contents = endpoint.queue.flatMap Datagram.bytes

namespace HoldsQueue

variable {socket : Socket} {endpoint : Endpoint}

section

variable (holds : HoldsQueue socket endpoint)
include holds

/-- The ring bytes in use are the bytes of the queued datagrams. -/
theorem used_eq : socket.rx.used = queueBytes endpoint.queue := by
  rw [← Ring.length_contents, holds.bytes, length_flatMap]
  rfl

lemma length_eq : socket.udpMeta.used = endpoint.queue.length := by
  rw [← Ring.length_contents, holds.headers, length_map]

/-- The header ring counts as full when all but one of its cells are in use. -/
theorem full_iff : (socket.udpMeta.back + 1) % udpMaxQueued = socket.udpMeta.front ↔
      ¬ endpoint.queue.length + 1 < udpMaxQueued := by
  have front := socket.udpMeta.front_lt
  have back := socket.udpMeta.back_lt
  rw [← holds.length_eq, Ring.add_mod_eq back (by decide)]
  unfold Ring.used
  split <;> split <;> omega

lemma deliver (srcIp : UInt32) (srcPort : UInt16) (data : Payload) :
    HoldsQueue (queueDatagram socket srcIp srcPort data)
      (endpoint.deliver ⟨srcIp, srcPort, data⟩) := by
  have small := data.property
  have short : socket.rx.used < 65536 := socket.rx.used_lt
  have noWrap : (socket.rx.used + data.val.length) % 2 ^ 32 =
      socket.rx.used + data.val.length := Nat.mod_eq_of_lt (by omega)
  unfold queueDatagram Endpoint.deliver
  rw [noWrap, holds.used_eq]
  by_cases slot : endpoint.queue.length + 1 < udpMaxQueued
  · rw [if_neg (fun full => holds.full_iff.mp full slot)]
    by_cases room : queueBytes endpoint.queue + data.val.length < sockRxBuf
    · rw [if_neg (by omega), if_pos ⟨slot, room⟩]
      refine ⟨holds.port, ?_, ?_⟩
      · rw [Ring.contents_push _ _ (by rw [holds.length_eq]; exact slot), holds.headers,
          Nat.mod_eq_of_lt small, map_append]
        rfl
      · rw [Ring.contents_pushAll _ _ (by rw [holds.used_eq]; exact room), holds.bytes,
          flatMap_append]
        exact congrArg _ (append_nil data.val).symm
    · rw [if_pos (by omega), if_neg (fun both => room both.2)]
      exact holds
  · rw [if_pos (holds.full_iff.mpr slot), if_neg (fun both => slot both.1)]
    exact holds

lemma receive (len : Nat) :
    match takeDatagram socket len with
    | none => endpoint.receive len = (endpoint, none)
    | some (after, datagram) =>
      (endpoint.receive len).2 = some datagram ∧ HoldsQueue after (endpoint.receive len).1 := by
  unfold takeDatagram Endpoint.receive
  cases queued : endpoint.queue with
  | nil =>
    have none : socket.udpMeta.used = 0 := by rw [holds.length_eq, queued]; rfl
    rw [if_pos (socket.udpMeta.used_eq_zero_iff.mp none).symm]
  | cons oldest rest =>
    have headers := holds.headers
    have bytes := holds.bytes
    have filled : socket.udpMeta.front ≠ socket.udpMeta.back := by
      intro same
      have none := socket.udpMeta.used_eq_zero_iff.mpr same
      rw [holds.length_eq, queued] at none
      exact absurd none (by simp)
    rw [socket.udpMeta.contents_eq_cons filled, queued, map_cons] at headers
    rw [queued, flatMap_cons] at bytes
    rcases cons.inj headers with ⟨header, others⟩
    have enough : oldest.bytes.length ≤ socket.rx.used := by
      rw [← Ring.length_contents, bytes, length_append]
      omega
    rw [if_neg (Ne.symm filled)]
    simp only [header]
    refine ⟨?_, holds.port, others, ?_⟩
    · have copied : socket.rx.peek (min oldest.bytes.length len) = oldest.bytes.take len := by
        rw [← Ring.take_contents _ (by omega), bytes,
          take_append_of_le_length (Nat.min_le_left _ _), Nat.min_comm,
          ← take_eq_take_min]
      exact congrArg _ (congrArg _ copied.symm)
    · rw [show oldest.header.len = oldest.bytes.length from rfl,
        Ring.contents_drop _ enough, bytes, drop_left]

end

end HoldsQueue

/-- Every UDP socket has an endpoint with its port and holds the datagrams of it. -/
def HoldsQueues (endpoints : Endpoints) : Prop :=
  ∀ fd, udpPort (sockets fd) = (endpoints fd).port ∧
    ((endpoints fd).port.isSome = true → HoldsQueue (sockets fd) (endpoints fd))

namespace HoldsQueues

variable {sockets : Sockets} {endpoints : Endpoints}

section

variable (holds : HoldsQueues sockets endpoints)
include holds

lemma update {fd : Fin socketMax} {socket : Socket}
    {endpoint : Endpoint} (held : HoldsQueue socket endpoint) :
    HoldsQueues (update sockets fd socket) (update endpoints fd endpoint) := by
  intro other
  by_cases same : other = fd
  · subst same
    rw [update_self, update_self]
    exact ⟨held.port, fun _ => held⟩
  · rw [update_of_ne same, update_of_ne same]
    exact holds other

lemma isUdp_eq (fd : Fin socketMax) :
    ((sockets fd).inUse && (sockets fd).type == .udp) = (endpoints fd).port.isSome := by
  rw [← (holds fd).1, udpPort]
  cases (sockets fd).inUse && (sockets fd).type == .udp <;> rfl

/-- A datagram goes to the same socket as to the endpoint. -/
theorem firstSocket_eq (port : UInt16) : firstSocket sockets (acceptsUdp port) =
      (finRange socketMax).find? fun fd => (endpoints fd).port == some port := by
  unfold firstSocket
  congr 1
  funext fd
  rw [← (holds fd).1, udpPort, acceptsUdp]
  cases (sockets fd).inUse && (sockets fd).type == .udp with
  | false => rfl
  | true => simp only [Bool.true_and, if_true, Option.some_beq_some]

lemma deliver (srcIp : UInt32) (srcPort dstPort : UInt16) (data : Payload) :
    HoldsQueues (socketUdpDeliver sockets srcIp srcPort dstPort data)
      (endpointStep endpoints (.deliver srcIp srcPort dstPort data)).1 := by
  simp only [socketUdpDeliver, endpointStep, holds.firstSocket_eq dstPort]
  cases found : (finRange socketMax).find? fun fd => (endpoints fd).port == some dstPort with
  | none => exact holds
  | some fd =>
    have bound : (endpoints fd).port = some dstPort := by simpa using find?_some found
    exact holds.update (((holds fd).2 (by rw [bound]; rfl)).deliver srcIp srcPort data)

lemma receiveFrom (fd : Fin socketMax) (len : Nat)
    (shown : UInt16 → UInt16) (closed : RecvReply) :
    let outcome : Sockets × RecvReply :=
      if (sockets fd).inUse && (sockets fd).type == .udp then
        match takeDatagram (sockets fd) len with
        | none => (sockets, .nothing)
        | some (after, datagram) =>
          (Function.update sockets fd after,
            .received { datagram with port := shown datagram.port })
      else (sockets, closed)
    outcome.2 = (Net.receiveFrom endpoints fd len shown closed).2 ∧
      HoldsQueues outcome.1 (Net.receiveFrom endpoints fd len shown closed).1 := by
  intro outcome
  simp only [outcome, Net.receiveFrom, holds.isUdp_eq fd]
  by_cases bound : (endpoints fd).port.isSome = true
  · rw [if_pos bound, if_pos bound]
    have received := ((holds fd).2 bound).receive len
    cases taken : takeDatagram (sockets fd) len with
    | none =>
      rw [taken] at received
      simp only [received]
      exact ⟨trivial, holds⟩
    | some result =>
      rcases result with ⟨after, datagram⟩
      rw [taken] at received
      cases answer : (endpoints fd).receive len with
      | mk rest reply =>
        simp only [answer] at received
        rcases received with ⟨rfl, held⟩
        exact ⟨rfl, holds.update held⟩
  · rw [if_neg bound, if_neg bound]
    exact ⟨rfl, holds⟩

/-- Each event does to the sockets what it does to the queues. -/
theorem step (call : UdpCall) : (udpStep sockets call).2 = (endpointStep endpoints call).2 ∧
      HoldsQueues (udpStep sockets call).1 (endpointStep endpoints call).1 := by
  cases call with
  | deliver srcIp srcPort dstPort data => exact ⟨rfl, holds.deliver srcIp srcPort dstPort data⟩
  | recvfrom fd len =>
    simp only [udpStep, socketRecvfrom, endpointStep]
    by_cases inside : fd < socketMax
    · rw [dif_pos inside, dif_pos inside]
      exact holds.receiveFrom ⟨fd, inside⟩ len htons .badFd
    · rw [dif_neg inside, dif_neg inside]
      exact ⟨rfl, holds⟩
  | tryRecv fd len => exact holds.receiveFrom fd len id .nothing

end

end HoldsQueues

/-- UDP sockets are bounded queues of datagrams.  Along every sequence of arriving
datagrams and receiving calls, each call returns what the queues return, every
UDP socket holds exactly the datagrams of its queue, and its ring bytes in use are the
sum of their lengths. -/
theorem udp_sockets_are_bounded_queues {sockets : Sockets} {endpoints : Endpoints}
    (holds : HoldsQueues sockets endpoints) (calls : List UdpCall) :
    udpStep.outputs sockets calls = endpointStep.outputs endpoints calls ∧
      HoldsQueues (udpStep.run sockets calls) (endpointStep.run endpoints calls) ∧
      ∀ fd, (udpPort (udpStep.run sockets calls fd)).isSome = true →
        (udpStep.run sockets calls fd).rx.used =
          queueBytes (endpointStep.run endpoints calls fd).queue := by
  have simulated := Machine.outputs_eq_of_simulation
    (R := HoldsQueues) (fun _ _ call related => related.step call) holds calls
  refine ⟨simulated.1, simulated.2, fun fd bound => ((simulated.2 fd).2 ?_).used_eq⟩
  rwa [← (simulated.2 fd).1]

/-- A table with one UDP socket, just created and bound to port 53. -/
def oneUdpSocket : Sockets := fun fd =>
  if fd = 0 then { zeroSocket with inUse := true, type := .udp, localPort := 53 } else zeroSocket

/-- Its endpoint, with nothing queued. -/
def oneEndpoint : Endpoints := fun fd => ⟨if fd = 0 then some 53 else none, []⟩

lemma oneUdpSocket_holds : HoldsQueues oneUdpSocket oneEndpoint := by
  intro fd
  by_cases first : fd = 0
  · subst first
    exact ⟨rfl, fun _ => ⟨rfl, rfl, rfl⟩⟩
  · simp only [oneUdpSocket, oneEndpoint, if_neg first]
    exact ⟨rfl, nofun⟩

/-- Two datagrams arrive and are received, the first one cut to one byte. -/
theorem udp_sockets_are_bounded_queues_two_datagrams :
    let calls : List UdpCall :=
      [.deliver 1 7 53 ⟨[10, 11], by decide⟩, .deliver 2 8 53 ⟨[12], by decide⟩,
        .recvfrom 0 1, .tryRecv 0 9, .tryRecv 0 9]
    udpStep.outputs oneUdpSocket calls =
        [.nothing, .nothing, .received ⟨1, htons 7, [10]⟩, .received ⟨2, 8, [12]⟩, .nothing] ∧
      (udpStep.run oneUdpSocket calls 0).rx.used = 0 := by
  intro calls
  have queues := udp_sockets_are_bounded_queues oneUdpSocket_holds calls
  refine ⟨queues.1.trans ?_, (queues.2.2 0 ?_).trans ?_⟩
  · decide +kernel
  · decide +kernel
  · decide +kernel

end CupidOs.Net
