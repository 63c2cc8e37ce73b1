import CupidOs.Ssh.Password

/-!
# Sessions and packets

A session reads the bytes that its client sends and writes packets back. What the rest of the
kernel decides is an environment: random bytes, whether a send or an allocation succeeds, the
password file and what the shell prints. Every question to it has its own number. A store behind
the end of a buffer is a fault, and so is a fetch behind the end of a packet.
-/

namespace CupidOs.Ssh

open Bytes Transition Transition.Routine
open Tls (ascii)

/-- What the kernel around a session does. -/
structure Env where
  sha256 : List UInt8 → Vector UInt8 32
  x25519 : List UInt8 → List UInt8 → Vector UInt8 32
  /-- The byte of the key stream of `chacha20_xor` at an offset. -/
  keystream : List UInt8 → Nat → List UInt8 → Nat → UInt8
  poly1305 : List UInt8 → List UInt8 → Vector UInt8 16
  /-- `ecdsa_p256_sign` with the host key. -/
  ecdsaSign : List UInt8 → Option (Vector UInt8 32 × Vector UInt8 32)
  hostPub : Vector UInt8 65
  /-- The password file at the time of each attempt to log in. -/
  passwd : Nat → Option (List UInt8)
  randomByte : Nat → Nat → UInt8
  allocates : Nat → Bool
  sends : Nat → Bool
  /-- What a line that is executed hands to the output sink. -/
  shellOutput : Nat → List (List UInt8)
  shellCwd : Nat → List UInt8

/-- The fields of a request to log in with a password. -/
structure LoginRequest where
  user : List UInt8
  service : List UInt8
  method : List UInt8
  password : List UInt8
  deriving DecidableEq

/-- What a session does with a client. -/
inductive Event where
  /-- `do_auth` came to a decision about a packet, with the password file as it was then. -/
  | processed (attempt : Nat) (encrypted : Bool) (passwd : Option (List UInt8))
      (payload : List UInt8) (request : LoginRequest) (accepted : Bool)
  /-- `shell_execute_line` was called. -/
  | executed (line : List UInt8)
  deriving DecidableEq

/-- `ssh_session_t`, with the bytes still to come, the bytes sent, the number of the next question
to the environment and the events so far. -/
structure Session where
  input : List UInt8
  sent : List UInt8
  clock : Nat
  trace : List Event
  seqIn : UInt64
  seqOut : UInt64
  keyC2sMain : List UInt8
  keyC2sHdr : List UInt8
  keyS2cMain : List UInt8
  keyS2cHdr : List UInt8
  newkeysIn : Bool
  newkeysOut : Bool
  clientChan : Nat
  serverChan : Nat
  clientMaxPacket : Nat
  channelOpen : Bool

/-- `alloc_session`, for a client that will send the given bytes. -/
def allocSession (input : List UInt8) : Session where
  input := input
  sent := []
  clock := 0
  trace := []
  seqIn := 0
  seqOut := 0
  keyC2sMain := List.replicate 32 0
  keyC2sHdr := List.replicate 32 0
  keyS2cMain := List.replicate 32 0
  keyS2cHdr := List.replicate 32 0
  newkeysIn := false
  newkeysOut := false
  clientChan := 0
  serverChan := 0
  clientMaxPacket := 0
  channelOpen := false

/-- What no session should do. -/
inductive Fault where
  /-- Write behind the end of a buffer. -/
  | overflow
  /-- Read behind the end of a packet. -/
  | outside
  /-- Run forever. -/
  | endless
  deriving DecidableEq

/-- A function of `sshd.c` that works on a session. -/
abbrev Sshd (α : Type) := Routine Fault Session α

variable (env : Env)

/-! ## The environment -/

/-- Ask the environment. -/
def ask {α : Type} (answer : Nat → α) : Sshd α := do
  let s ← get
  modify fun s => { s with clock := s.clock + 1 }
  return answer s.clock

/-- `crypto_random_bytes` -/
def cryptoRandomBytes (count : Nat) : Sshd (List UInt8) := do
  let byte ← ask env.randomByte
  return (List.range count).map byte

/-- `kmalloc`, as far as it may fail -/
def kmalloc : Sshd Unit := do
  let granted ← ask env.allocates
  check (granted = true)

/-- Note an event. -/
def log (event : Event) : Sshd Unit := modify fun s => { s with trace := s.trace ++ [event] }

/-- `tcp_send_all` -/
def tcpSendAll (bytes : List UInt8) : Sshd Unit := do
  let sends ← ask env.sends
  check (sends = true)
  modify fun s => { s with sent := s.sent ++ bytes }

/-- `tcp_recv_exact` -/
def tcpRecvExact (count : Nat) : Sshd (List UInt8) := do
  let s ← get
  modify fun s => { s with input := s.input.drop count }
  check (count ≤ s.input.length)
  return s.input.take count

/-! ## The binary packet protocol -/

/-- `build_nonce` -/
def buildNonce (seq : UInt64) : List UInt8 := List.replicate 4 0 ++ encodeBE 8 seq.toNat

/-- `chacha20_xor` -/
def chacha20Xor (key : List UInt8) (counter : Nat) (nonce data : List UInt8) : List UInt8 :=
  data.mapIdx fun i byte => byte ^^^ env.keystream key counter nonce i

/-- The length of the padding behind `count` bytes. -/
def padLength (count : Nat) : Nat :=
  let padlen := 8 - count % 8
  if padlen < 4 then padlen + 8 else padlen

variable (payload : List UInt8)

/-- A packet in clear in the buffer `tx`. -/
def framePacket (padding : List UInt8) : Option (Writer sshBufCap) := do
  let tx ← wbBe32 (.empty sshBufCap) (1 + payload.length + padding.length)
  let tx ← wbByte tx (UInt8.ofNat padding.length)
  let tx ← wbBytes tx payload
  wbBytes tx padding

/-- The branch of `bpp_send` with keys. -/
def sendSealed : Sshd Unit := do
  let s ← get
  let padlen := padLength (1 + payload.length)
  check (4 + (1 + payload.length + padlen) + 16 ≤ sshBufCap)
  let padding ← cryptoRandomBytes env padlen
  let tx ← inside (framePacket payload padding) .overflow
  let nonce := buildNonce s.seqOut
  let header := chacha20Xor env s.keyS2cHdr 0 nonce (tx.bytes.take 4)
  let polyKey := chacha20Xor env s.keyS2cMain 0 nonce (List.replicate 64 0)
  let body := chacha20Xor env s.keyS2cMain 1 nonce (tx.bytes.drop 4)
  let tag := env.poly1305 polyKey (header ++ body)
  let tx ← inside ((Writer.empty sshBufCap).put (header ++ body ++ tag.toList)) .overflow
  tcpSendAll env tx.bytes

/-- The branch of `bpp_send` without keys. -/
def sendClear : Sshd Unit := do
  let padlen := padLength (5 + payload.length)
  check (4 + (1 + payload.length + padlen) ≤ sshBufCap)
  let padding ← cryptoRandomBytes env padlen
  let tx ← inside (framePacket payload padding) .overflow
  tcpSendAll env tx.bytes

/-- The two branches of `bpp_send`. -/
def sendEither : Sshd Unit := do
  let s ← get
  if s.newkeysOut then sendSealed env payload else sendClear env payload

/-- `bpp_send` -/
def bppSend : Sshd Unit := do
  sendEither env payload
  modify fun s => { s with seqOut := s.seqOut + 1 }

/-- The branch of `bpp_recv` with keys. -/
def recvSealed : Sshd (List UInt8) := do
  let s ← get
  let nonce := buildNonce s.seqIn
  let lenEnc ← tcpRecvExact 4
  let inner := decodeBE (chacha20Xor env s.keyC2sHdr 0 nonce lenEnc)
  check (5 ≤ inner ∧ inner ≤ sshPayloadMax)
  let received ← tcpRecvExact (inner + 16)
  let rx ← inside ((Writer.empty sshBufCap).put received) .overflow
  let polyKey := chacha20Xor env s.keyC2sMain 0 nonce (List.replicate 64 0)
  let mac ← inside (wbBytes (.empty (sshPayloadMax + 4)) lenEnc) .overflow
  let mac ← inside (wbBytes mac (rx.bytes.take inner)) .overflow
  check ((env.poly1305 polyKey mac.bytes).toList = rx.bytes.drop inner)
  let clear := chacha20Xor env s.keyC2sMain 1 nonce (rx.bytes.take inner)
  let padlen ← inside clear.head? .outside
  check (padlen.toNat + 1 < inner)
  let out ← inside (slice clear 1 (inner - 1 - padlen.toNat)) .outside
  let pkt ← inside ((Writer.empty sshPayloadMax).put out) .overflow
  return pkt.bytes

/-- The branch of `bpp_recv` without keys. -/
def recvClear : Sshd (List UInt8) := do
  let hdr ← tcpRecvExact 5
  let inner := decodeBE (hdr.take 4)
  let padlen ← inside (hdr.drop 4).head? .outside
  check (1 + padlen.toNat + 1 ≤ inner ∧ inner ≤ sshPayloadMax)
  let received ← tcpRecvExact (inner - 1)
  let rx ← inside ((Writer.empty sshBufCap).put received) .overflow
  let out ← inside (slice rx.bytes 0 (inner - 1 - padlen.toNat)) .outside
  let pkt ← inside ((Writer.empty sshPayloadMax).put out) .overflow
  return pkt.bytes

/-- The two branches of `bpp_recv`. -/
def recvEither : Sshd (List UInt8) := do
  let s ← get
  if s.newkeysIn then recvSealed env else recvClear

/-- `bpp_recv` -/
def bppRecv : Sshd (List UInt8) := do
  let pl ← recvEither env
  modify fun s => { s with seqIn := s.seqIn + 1 }
  return pl

/-- What every caller of `bpp_recv` does first: look at the kind of the message. -/
def recvMessage : Sshd (UInt8 × List UInt8) := do
  let pl ← bppRecv env
  check (1 ≤ pl.length)
  let kind ← inside pl.head? .outside
  return (kind, pl)

/-- `get_be32` at an offset of a packet -/
def getBe32 (p : List UInt8) (off : Nat) : Sshd Nat := do
  let bytes ← inside (slice p off 4) .outside
  return decodeBE bytes

/-- `read_string`: the string and the offset behind it -/
def readString (p : List UInt8) (off : Nat) : Sshd (List UInt8 × Nat) := do
  check (off + 4 ≤ p.length)
  let n ← getBe32 p off
  check (n ≤ p.length - (off + 4))
  let out ← inside (slice p (off + 4) n) .outside
  return (out, off + 4 + n)

end CupidOs.Ssh
