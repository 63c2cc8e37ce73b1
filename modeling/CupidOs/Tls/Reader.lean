import CupidOs.Tls.Record
import CupidOs.Transition.Source

/-!
# Reading handshake messages

The message readers of `kernel/tls/tls_handshake.c` and `kernel/tls/tls12_handshake.c` concatenate
the handshake fragments of the records in a buffer; a message that does not fit into that of TLS
1.3 is drained directly. A reader works on any source of records; the one of the kernel is
`recordSource`.
-/

namespace CupidOs.Tls

open Bytes Crypto Transition

/-- The `TLS_ERR_*` codes. -/
inductive TlsError
  | transport
  | parse
  | badRecord
  | badTag
  | protocol
  | cert
  | finishedMac
  | badSignature
  | noEntropy
  | oom
  | handshakeState
  deriving DecidableEq

/-- A handshake message without its header. -/
structure HsMessage where
  type : UInt8
  body : List UInt8
  deriving DecidableEq

/-- The four bytes before a message body. -/
def HsMessage.header (message : HsMessage) : List UInt8 :=
  [message.type] ++ encodeBE 3 message.body.length

/-- A message on the wire. -/
def HsMessage.encode (message : HsMessage) : List UInt8 := message.header ++ message.body

@[simp]
lemma HsMessage.length_encode (message : HsMessage) :
    message.encode.length = 4 + message.body.length := by
  simp [HsMessage.encode, HsMessage.header]
  omega

/-- The record layer, the bytes that came in but were not parsed, and the transcript. -/
structure Conversation (σ : Type) where
  layer : σ
  carry : List UInt8
  transcript : List UInt8

section

variable {σ : Type}

/-- `sizeof(h->carry)`. -/
def carrySize : Nat := 16384

/-- `h->carry_len < need`. -/
def lacks (need : Nat) (buffer : List UInt8) : Bool := buffer.length < need

/-- What `hs_reader_fill` does with one record. -/
def fillTake (carry : List UInt8) (record : Record) : Except TlsError (List UInt8) :=
  if record.type = rtChangeCipherSpec then
    .ok carry
  else if record.type = rtAlert then
    .error .protocol
  else if record.type ≠ rtHandshake then
    .error .protocol
  else if record.data.length > carrySize - carry.length then
    .error .protocol
  else
    .ok (carry ++ record.data)

variable (source : Source σ Record)

/-- `hs_reader_fill`. -/
def hsReaderFill (need : Nat) (carry : List UInt8) (layer : σ) :
    Except TlsError (List UInt8 × σ) :=
  source.pull (lacks need) fillTake .transport carry layer

/-- One record on the direct path of `hs_read_msg`, with what was copied and what was stashed. -/
def drainTake (mlen : Nat) (acc : List UInt8 × List UInt8) (record : Record) :
    Except TlsError (List UInt8 × List UInt8) :=
  if record.type = rtChangeCipherSpec then
    .ok acc
  else if record.type ≠ rtHandshake then
    .error .protocol
  else
    let take := min (mlen - acc.1.length) record.data.length
    if take < record.data.length then
      if record.data.length - take > carrySize then
        .error .protocol
      else
        .ok (acc.1 ++ record.data.take take, record.data.drop take)
    else
      .ok (acc.1 ++ record.data.take take, acc.2)

/-- `copied < mlen`. -/
def drainLacks (mlen : Nat) (acc : List UInt8 × List UInt8) : Bool := acc.1.length < mlen

/-- The loop of the direct path of `hs_read_msg`. -/
def drain (mlen : Nat) (acc : List UInt8 × List UInt8) (layer : σ) :
    Except TlsError ((List UInt8 × List UInt8) × σ) :=
  source.pull (drainLacks mlen) (drainTake mlen) .transport acc layer

/-- `hs_read_msg`. -/
def hsReadMsg (outMax : Nat) (talk : Conversation σ) :
    Except TlsError (HsMessage × Conversation σ) := do
  let (carry, layer) ← hsReaderFill source 4 talk.carry talk.layer
  let hdr := carry.take 4
  let mlen := decodeBE (hdr.drop 1)
  if mlen > outMax then
    throw .protocol
  let (body, carry, layer) ←
    if 4 + mlen ≤ carrySize then do
      let (carry, layer) ← hsReaderFill source (4 + mlen) carry layer
      pure ((carry.drop 4).take mlen, carry.drop (4 + mlen), layer)
    else do
      let ((body, carry), layer) ← drain source mlen (carry.drop 4, []) layer
      pure (body, carry, layer)
  return (⟨hdr.headD 0, body⟩, ⟨layer, carry, talk.transcript ++ hdr ++ body⟩)

/-- `sizeof(r->buf)` of the TLS 1.2 reader. -/
def buf12Size : Nat := 8192

/-- What `hs12_pull` does with one record. -/
def pull12Take (buf : List UInt8) (record : Record) : Except TlsError (List UInt8) :=
  if record.type = rtAlert then
    .error .protocol
  else if record.type ≠ rtHandshake then
    .error .protocol
  else if record.data.length > buf12Size - buf.length then
    .error .protocol
  else
    .ok (buf ++ record.data)

/-- `hs12_pull`. -/
def hs12Pull (need : Nat) (buf : List UInt8) (layer : σ) :
    Except TlsError (List UInt8 × σ) :=
  source.pull (lacks need) pull12Take .transport buf layer

/-- `hs12_read_msg`. -/
def hs12ReadMsg (outMax : Nat) (doFold : Bool)
    (talk : Conversation σ) : Except TlsError (HsMessage × Conversation σ) := do
  let (buf, layer) ← hs12Pull source 4 talk.carry talk.layer
  let mlen := decodeBE ((buf.drop 1).take 3)
  if mlen > outMax then
    throw .protocol
  let (buf, layer) ← hs12Pull source (4 + mlen) buf layer
  let transcript :=
    if doFold then talk.transcript ++ buf.take (4 + mlen) else talk.transcript
  return (⟨buf.headD 0, (buf.drop 4).take mlen⟩, ⟨layer, buf.drop (4 + mlen), transcript⟩)

end

/-! ## The record layer as a source -/

section

variable {aeads : AeadAlg → Aead} {r after : RecordState} {record : Record} {bufMax : Nat}

/-- A receive key is in use, and it is the same in two states. -/
structure SameKey (r after : RecordState) : Prop where
  key : after.rcv.key = r.rcv.key
  iv : after.rcv.iv = r.rcv.iv
  active : after.rcv.active = r.rcv.active
  alg : after.aeadAlg = r.aeadAlg
  format : after.tls12 = r.tls12

/-- A record that was received has used up at least its header. -/
theorem tlsRecordRecv_eq_ok (received : tlsRecordRecv aeads r bufMax = (.ok record, after)) :
    SameKey r after ∧ after.incoming.flatten.length < r.incoming.flatten.length := by
  have effect := effect_tlsRecordRecv aeads r bufMax
  have positive : 0 < recHeaderSize := by decide
  rw [received] at effect
  cases effect with
  | plain length stream
  | opened12 length stream
  | opened13 length stream =>
    refine ⟨⟨rfl, rfl, rfl, rfl, rfl⟩, ?_⟩
    rw [stream, List.length_append, List.length_append]
    simp only [advanceRcv]
    omega

end

/-- `tls_record_recv` into a buffer of `TLS_REC_MAX_PLAINTEXT` bytes. -/
def recordSource (aeads : AeadAlg → Aead) : Source RecordState Record where
  next r :=
    match tlsRecordRecv aeads r recMaxPlaintext with
    | (.ok record, r) => some (record, r)
    | (.error _, _) => none
  size r := r.incoming.flatten.length
  shrinks {state item rest} handed := by
    split at handed
    · rename_i received
      cases handed
      exact (tlsRecordRecv_eq_ok received).2
    · cases handed

end CupidOs.Tls
