import CupidOs.Rings.Ring
import Mathlib.Data.UInt

/-!
# Sockets

The socket table of `kernel/network/socket.h`.  The receive buffer and the queue
of datagram headers are rings; TCP and UDP sockets use the same record.
-/

namespace CupidOs.Net

open Rings

/-- `SOCK_RX_BUF`. -/
def sockRxBuf : Nat := 65536

/-- `SOCKET_MAX`. -/
def socketMax : Nat := 32

instance : NeZero socketMax := ⟨by decide⟩

/-- `LQ_SIZE`. -/
def lqSize : Nat := 8

/-- `UDP_MAX_QUEUED`. -/
def udpMaxQueued : Nat := 8

/-- The `type` of a socket; `unset` is the zero of a cleared record. -/
inductive SockType
  | unset
  | udp
  | tcp
  deriving DecidableEq

/-- `tcp_state_t`. -/
inductive TcpState
  | closed
  | listen
  | synSent
  | synRcvd
  | established
  | finWait1
  | finWait2
  | timeWait
  | closeWait
  | lastAck
  deriving DecidableEq

/-- `udp_dgram_meta_t`. -/
structure DgramMeta where
  ip : UInt32
  port : UInt16
  len : Nat
  deriving DecidableEq

/-- An entry of the listen queue. -/
structure ListenEntry where
  ip : UInt32
  port : UInt16
  iss : UInt32
  rcvNxt : UInt32
  insertedMs : UInt32
  completed : Bool
  inUse : Bool
  deriving DecidableEq

/-- `socket_t`. The front of `rx` is `rx_head` and its back `rx_tail`; `udpMeta` is the other way
round. `rtBuf` holds the `rt_len` bytes in flight. -/
structure Socket where
  type : SockType
  inUse : Bool
  localIp : UInt32
  localPort : UInt16
  remoteIp : UInt32
  remotePort : UInt16
  tcpState : TcpState
  rx : Ring UInt8 sockRxBuf
  udpMeta : Ring DgramMeta udpMaxQueued
  sndUna : UInt32
  sndNxt : UInt32
  sndIss : UInt32
  rcvNxt : UInt32
  rcvIrs : UInt32
  lastRexmitTick : UInt32
  timeWaitStart : UInt32
  rtBuf : List UInt8
  rtSeq : UInt32
  rtSendTick : UInt32
  rtAttempts : Nat
  lq : Fin lqSize → ListenEntry

/-- `zero_socket`. -/
def zeroSocket : Socket where
  type := .unset
  inUse := false
  localIp := 0
  localPort := 0
  remoteIp := 0
  remotePort := 0
  tcpState := .closed
  rx := Ring.empty (fun _ => 0) (by decide)
  udpMeta := Ring.empty (fun _ => ⟨0, 0, 0⟩) (by decide)
  sndUna := 0
  sndNxt := 0
  sndIss := 0
  rcvNxt := 0
  rcvIrs := 0
  lastRexmitTick := 0
  timeWaitStart := 0
  rtBuf := []
  rtSeq := 0
  rtSendTick := 0
  rtAttempts := 0
  lq := fun _ => ⟨0, 0, 0, 0, 0, false, false⟩

/-- `sockets`. -/
abbrev Sockets := Fin socketMax → Socket

/-- The first socket of the table that meets a condition. -/
def firstSocket (sockets : Sockets) (condition : Socket → Bool) : Option (Fin socketMax) :=
  (List.finRange socketMax).find? fun fd => condition (sockets fd)

/-- `htons` and `ntohs`. -/
def htons (value : UInt16) : UInt16 := value >>> 8 ||| value <<< 8

end CupidOs.Net
