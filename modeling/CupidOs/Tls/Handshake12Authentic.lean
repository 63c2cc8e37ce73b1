import CupidOs.Tls.Handshake12
import CupidOs.Tls.Provenance

/-!
# What a completed TLS 1.2 handshake has checked

The parameters of the secret were signed by the leaf certificate, the chain was accepted and the
Finished message covers all messages before it. The buffer of messages outlives the change of
keys: the Finished message was authenticated if and only if nothing was left in it behind the
ServerHelloDone.
-/

namespace CupidOs.Tls

open Bytes Crypto Transition X509
open List hiding Vector

section

variable {Point : Type} {backend : Backend Point}

/-! ## The parameters of the server -/

/-- ServerECDHParams. -/
def serverParams (group : NamedGroup) (pub : List UInt8) : List UInt8 :=
  [3] ++ encodeBE 2 group.code ++ [UInt8.ofNat pub.length] ++ pub

/-- A ServerKeyExchange. -/
def serverKex (group : NamedGroup) (pub : List UInt8) (scheme : SigScheme) (sig : List UInt8) :
    List UInt8 :=
  serverParams group pub ++ encodeBE 2 scheme.code ++ encodeBE 2 sig.length ++ sig

/-- What the server signs. -/
def kexContent (ctx : TlsCtx) (group : NamedGroup) (pub : List UInt8) : List UInt8 :=
  ctx.clientRandom.toList ++ ctx.serverRandom.toList ++ serverParams group pub

variable {body buf : List UInt8} {ctx : TlsCtx}

lemma take_serverParams {group : NamedGroup} (long : 4 ≤ body.length) (curve : body.headD 0 = 3)
    (code : group.code = decodeBE ((body.drop 1).take 2))
    (pubFits : ((body.drop 3).headD 0).toNat ≤ (body.drop 4).length) :
    body.take (4 + ((body.drop 3).headD 0).toNat) =
      serverParams group ((body.drop 4).take ((body.drop 3).headD 0).toNat) := by
  match body, long with
  | type :: high :: low :: size :: rest, _ =>
    simp only [drop_succ_cons, drop_zero, headD_cons] at curve code pubFits ⊢
    have group16 : encodeBE 2 group.code = [high, low] :=
      encodeBE_of_decodeBE rfl code.symm
    rw [serverParams, group16, length_take_of_le pubFits, UInt8.ofNat_toNat, ← curve, add_comm]
    rfl

variable {pub : List UInt8}

/-- `parse_server_kex` accepts parameters that the leaf has signed together with both
randoms. -/
theorem parseServerKex_eq_ok {group : NamedGroup}
    (parsed : parseServerKex backend ctx body = .ok (group, pub)) :
    ∃ scheme sig, body = serverKex group pub scheme sig ∧
      verifyWith backend scheme (leafKey ctx.chain) sig
        (backend.sha256 (kexContent ctx group pub)) = true := by
  simp only [parseServerKex, bind_eq_ok, require_eq_ok, orElse_eq_ok] at parsed
  obtain ⟨-, long, -, curve, found, isGroup, -, pubFits, -, -, -, -, -, sigLong, -, sigLength,
    scheme, isScheme, -, verified, result⟩ := parsed
  cases result
  have params := take_serverParams long curve (NamedGroup.code_of_ofCode isGroup) pubFits
  rw [params] at verified
  generalize signedEq : body.drop (4 + ((body.drop 3).headD 0).toNat) = signed at *
  refine ⟨scheme, signed.drop 4, ?_, verified⟩
  have schemeCode : encodeBE 2 scheme.code = signed.take 2 :=
    encodeBE_of_decodeBE (length_take_of_le (by omega)) (SigScheme.code_of_ofCode isScheme).symm
  have lengthCode : encodeBE 2 (signed.drop 4).length = (signed.drop 2).take 2 :=
    encodeBE_of_decodeBE (length_take_of_le (by rw [length_drop]; omega)) sigLength.symm
  have split : signed = signed.take 2 ++ ((signed.drop 2).take 2 ++ signed.drop 4) := by
    rw [show signed.drop 4 = (signed.drop 2).drop 2 by rw [drop_drop], take_append_drop,
      take_append_drop]
  rw [serverKex, schemeCode, lengthCode, append_assoc, append_assoc, ← split, ← params,
    ← signedEq, take_append_drop]

/-! ## The certificates of the server -/

variable {after : TlsCtx}

/-- `ingest_certificates` appends the certificates of the message to the chain. -/
theorem ingestCertificates_eq_ok
    (ingested : ingestCertificates backend ctx body = .ok after) :
    ∃ entries certs chain, body = certificateList entries ∧ (∀ entry ∈ entries, entry.2 = []) ∧
      Parsed backend entries certs ∧ chain.certs = ctx.chain.certs ++ certs ∧
      after = { ctx with chain } := by
  simp only [ingestCertificates, bind_eq_ok, require_eq_ok] at ingested
  obtain ⟨-, long, -, whole, chain, looped, -, -, result⟩ := ingested
  cases result
  obtain ⟨entries, certs, bytes, trailers, parsed, grown⟩ :=
    certificateLoop_eq_ok (fun trailer => trailer = [])
      (fun skipped => by cases skipped; exact ⟨[], rfl, rfl⟩) (by rw [length_drop]; omega)
      looped
  refine ⟨entries, certs, chain, ?_, trailers, parsed, grown, rfl⟩
  rw [certificateList, ← bytes, whole]
  exact take_drop_encodeBE long

/-! ## The flight of the client -/

lemma tlsRecordSend_format (aeads : AeadAlg → Aead) (r : RecordState) (type : UInt8)
    (data : List UInt8) : (tlsRecordSend aeads r type data).2.tls12 = r.tls12 := by
  rw [tlsRecordSend]
  split
  · split <;> rfl
  split
  · split
    · rfl
    · split <;> rfl
  split
  · rfl
  split <;> rename_i sent <;> have format := congrArg (fun step => step.2.tls12) sent
  · exact format.symm
  · exact format.symm

lemma sendOrFail_eq_ok {type : UInt8} {data : List UInt8}
    (sent : sendOrFail backend ctx type data = .ok after) :
    ∃ layer, after = { ctx with layer } ∧ layer.tls12 = ctx.layer.tls12 := by
  rw [sendOrFail, sendRecord] at sent
  have format := tlsRecordSend_format backend.aeads ctx.layer type data
  generalize tlsRecordSend backend.aeads ctx.layer type data = outcome at sent format
  obtain ⟨complete, layer⟩ := outcome
  cases complete with
  | false => cases sent
  | true =>
    cases sent
    exact ⟨layer, rfl, format⟩

/-- The Finished message of the client. -/
def clientFinished (backend : Backend Point) (ctx : TlsCtx) (secrets : Secrets12) : HsMessage :=
  finished12 backend (thUpdate ctx (clientKex ctx).encode) secrets "client finished"

lemma sendFlight12_eq_ok {sent : TlsCtx} {secrets : Secrets12}
    (answered : sendFlight12 backend ctx pub = .ok (secrets, sent)) :
    ∃ ecdheShared layer, computeEcdhe backend ctx pub = .ok ecdheShared ∧
      secrets = deriveSecrets12 backend { ctx with ecdheShared } ∧ layer.tls12 = true ∧
      sent = { ctx with
        ecdheShared, layer
        transcript := ctx.transcript ++ (clientKex ctx).encode ++
          (clientFinished backend ctx secrets).encode } := by
  simp only [sendFlight12, sendClientKex, bind_eq_ok, mapError_eq_ok] at answered
  obtain ⟨shared, computed, kexSent, sentKex, changeSent, sentChange, finishedSent, sentFinished,
    result⟩ := answered
  obtain ⟨first, rfl, -⟩ := sendOrFail_eq_ok sentKex
  obtain ⟨second, rfl, format⟩ := sendOrFail_eq_ok sentChange
  obtain ⟨third, rfl, sameFormat⟩ := sendOrFail_eq_ok sentFinished
  cases result
  exact ⟨shared, third, computed, rfl, sameFormat.trans format, rfl⟩

/-! ## The flight of the server -/

lemma hs12Read_eq_ok {rest : List UInt8} {doFold : Bool} {message : HsMessage}
    (read : hs12Read backend ctx buf doFold = .ok (message, after, rest)) :
    ∃ layer log, TakenFrom12 (recordSource backend.aeads) (ctx.talk buf) message
        ⟨layer, rest, after.transcript⟩ log ∧
      after = { ctx with
        layer
        transcript := if doFold then ctx.transcript ++ message.encode else ctx.transcript } := by
  simp only [hs12Read, bind_eq_ok, mapError_eq_ok] at read
  obtain ⟨⟨message, talk⟩, taken, result⟩ := read
  cases result
  obtain ⟨transcript, log, from12⟩ := hs12ReadMsg_taken taken
  refine ⟨talk.layer, log, from12, ?_⟩
  rw [TlsCtx.heard, transcript]
  rfl

/-- What the client knows when it has read the flight of the server. -/
structure Flight12 where
  certificate : HsMessage
  kex : HsMessage
  done : HsMessage
  group : NamedGroup
  pub : List UInt8
  scheme : SigScheme
  sig : List UInt8
  chain : Chain
  /-- The records that were read. -/
  log : List (RecordState × Record)
  layer : RecordState
  /-- What is left in the buffer behind the ServerHelloDone. -/
  buf : List UInt8

/-- The messages of a flight. -/
def Flight12.bytes (flight : Flight12) : List UInt8 :=
  flight.certificate.encode ++ flight.kex.encode ++ flight.done.encode

/-- A context that has read a flight. -/
def Flight12.context (flight : Flight12) (ctx : TlsCtx) : TlsCtx :=
  { ctx with
    layer := flight.layer
    chain := flight.chain
    selectedGroup := some flight.group
    transcript := ctx.transcript ++ flight.bytes }

/-- Its messages are those that arrived, the parameters are signed by the leaf and the chain is
trusted. -/
structure Flight12.Accepted (backend : Backend Point) (ctx : TlsCtx) (flight : Flight12) :
    Prop where
  types : flight.certificate.type = hsCertificate ∧ flight.kex.type = hsServerKeyExchange ∧
    flight.done = ⟨hsServerHelloDone, []⟩
  reads : (recordSource backend.aeads).Reads ctx.layer flight.log flight.layer
  fragments : FragmentLog flight.log
  arrived : payloadBytes flight.log = flight.bytes ++ flight.buf
  listed : ∃ entries certs, flight.certificate.body = certificateList entries ∧
    Parsed backend entries certs ∧ flight.chain.certs = ctx.chain.certs ++ certs
  params : flight.kex.body = serverKex flight.group flight.pub flight.scheme flight.sig
  signed : verifyWith backend flight.scheme (leafKey flight.chain) flight.sig
    (backend.sha256 (kexContent ctx flight.group flight.pub)) = true
  trusted : x509ChainVerify backend.toPrimitives backend.caBundle flight.chain ctx.hostname
    ctx.nowEpoch = .ok ()

lemma recvFlight12_eq_ok
    (received : recvFlight12 backend ctx = .ok (pub, after, buf)) :
    ∃ flight : Flight12, flight.Accepted backend ctx ∧ flight.pub = pub ∧ flight.buf = buf ∧
      after = flight.context ctx := by
  simp only [recvFlight12, bind_eq_ok, mapError_eq_ok, require_eq_ok] at received
  obtain ⟨⟨certificate, _, _⟩, readCertificate, -, isCertificate, _, ingested, ⟨kex, _, _⟩, readKex,
    -, isKex, ⟨group, share⟩, parsed, ⟨⟩, trusted, ⟨done, _, left⟩, readDone, -, isDone, result⟩ :=
    received
  cases result
  obtain ⟨layer1, log1, taken1, rfl⟩ := hs12Read_eq_ok readCertificate
  obtain ⟨entries, certs, chain, body, -, parsedCerts, grown, rfl⟩ :=
    ingestCertificates_eq_ok ingested
  obtain ⟨layer2, log2, taken2, rfl⟩ := hs12Read_eq_ok readKex
  obtain ⟨scheme, sig, params, signed⟩ := parseServerKex_eq_ok parsed
  obtain ⟨layer3, log3, taken3, rfl⟩ := hs12Read_eq_ok readDone
  have empty : done = ⟨hsServerHelloDone, []⟩ := by
    obtain ⟨type, body⟩ := done
    rw [← isDone.1, ← eq_nil_of_length_eq_zero isDone.2]
  refine ⟨⟨certificate, kex, done, group, share, scheme, sig, chain, log1 ++ (log2 ++ log3), layer3,
    left⟩, ?_, rfl, rfl, ?_⟩
  · refine ⟨⟨isCertificate, isKex, empty⟩, taken1.reads.append (taken2.reads.append taken3.reads),
      ?_, ?_, ⟨entries, certs, body, parsedCerts, grown⟩, params, signed, trusted⟩
    · simp only [FragmentLog, forall_mem_append]
      exact ⟨taken1.types, taken2.types, taken3.types⟩
    · have bytes1 := taken1.bytes
      have bytes2 := taken2.bytes
      have bytes3 := taken3.bytes
      simp only [TlsCtx.talk, nil_append] at bytes1 bytes2 bytes3
      calc payloadBytes (log1 ++ (log2 ++ log3))
          = certificate.encode ++ (kex.encode ++ (done.encode ++ left)) := by
            rw [payloadBytes_append, payloadBytes_append, bytes1, append_assoc,
              ← append_assoc _ (payloadBytes log2), bytes2, append_assoc, bytes3]
        _ = _ := by simp only [Flight12.bytes, append_assoc]
  · simp only [Flight12.context, Flight12.bytes, if_true, append_assoc]

/-! ## The end of the handshake -/

/-- The receive key of step 14. -/
def recvKey12 (ctx : TlsCtx) (secrets : Secrets12) : List UInt8 :=
  let kl := cs12KeyLen ctx.selectedCipher
  (secrets.keyBlock.drop kl).take kl

/-- The accepted flight, the secrets, and how the Finished message of the server was read. -/
structure Exchange12 where
  flight : Flight12
  shared : Vector UInt8 32
  secrets : Secrets12
  sent : TlsCtx
  change : Record
  changed : RecordState
  /-- The record layer once the receive key is installed. -/
  keyed : RecordState
  finished : HsMessage
  last : Conversation RecordState
  /-- The records that were read under the key. -/
  log : List (RecordState × Record)

/-- The handshake messages before the server's Finished. -/
def Exchange12.preceding (backend : Backend Point) (ctx : TlsCtx) (x : Exchange12) : List UInt8 :=
  let flown := x.flight.context ctx
  flown.transcript ++ (clientKex flown).encode ++ (clientFinished backend flown x.secrets).encode

/-- What a completed handshake has checked. -/
structure Exchange12.Ran (backend : Backend Point) (ctx : TlsCtx) (x : Exchange12) : Prop where
  accepted : x.flight.Accepted backend ctx
  received : recvFlight12 backend ctx = .ok (x.flight.pub, x.flight.context ctx, x.flight.buf)
  secret : computeEcdhe backend { ctx with selectedGroup := some x.flight.group } x.flight.pub =
    .ok x.shared
  master : x.secrets.master = Rfc.prf backend.sha256 x.shared.toList "master secret"
    (ctx.clientRandom.toList ++ ctx.serverRandom.toList) 48
  answered : sendFlight12 backend (x.flight.context ctx) x.flight.pub = .ok (x.secrets, x.sent)
  changes : tlsRecordRecv backend.aeads x.sent.layer 16 = (.ok x.change, x.changed) ∧
    x.change.type = rtChangeCipherSpec
  installed : x.keyed.rcv.active = true ∧ x.keyed.tls12 = true ∧
    ∃ iv, x.keyed = tlsRecordSetRecvKey x.changed (recvKey12 ctx x.secrets) iv
  taken : TakenFrom12 (recordSource backend.aeads)
    ⟨x.keyed, x.flight.buf, x.preceding backend ctx⟩ x.finished x.last x.log
  opened : ∀ entry ∈ x.log, SameKey x.keyed entry.1 ∧ Opened12 backend.aeads entry.1 entry.2
  isFinished : x.finished.type = hsFinished
  verifyData : x.finished.body = Rfc.prf backend.sha256 x.secrets.master "server finished"
    (backend.sha256 (x.preceding backend ctx)).toList 12

/-- The bytes of the Finished message, and what was read behind it, come from opened records only.
-/
def Exchange12.Sealed (x : Exchange12) : Prop :=
  payloadBytes x.log = x.finished.encode ++ x.last.carry

/-- The record layer of a context once the receive key is installed. -/
def keyedLayer (ctx : TlsCtx) (changed : RecordState) (secrets : Secrets12) : RecordState :=
  (installRecv12 { ctx with layer := changed } secrets).layer

lemma recvRecord_eq_ok {bufMax : Nat} {record : Record}
    (received : recvRecord backend ctx bufMax = .ok (record, after)) :
    ∃ layer, tlsRecordRecv backend.aeads ctx.layer bufMax = (.ok record, layer) ∧
      after = { ctx with layer } := by
  rw [recvRecord] at received
  split at received
  · rename_i record layer arrived
    cases received
    exact ⟨layer, arrived, rfl⟩
  · cases received

lemma recvFinished12_eq_ok {secrets : Secrets12}
    (completed : recvFinished12 backend ctx secrets buf = .ok after) :
    ∃ change changed finished last log,
      tlsRecordRecv backend.aeads ctx.layer 16 = (.ok change, changed) ∧
      change.type = rtChangeCipherSpec ∧
      TakenFrom12 (recordSource backend.aeads)
        ⟨keyedLayer ctx changed secrets, buf, ctx.transcript⟩ finished last log ∧
      finished.type = hsFinished ∧
      finished.body = Rfc.prf backend.sha256 secrets.master "server finished"
        (backend.sha256 ctx.transcript).toList 12 ∧
      after.selectedCipher = ctx.selectedCipher := by
  simp only [recvFinished12, bind_eq_ok, require_eq_ok, Prod.exists] at completed
  obtain ⟨change, _, changes, -, isChange, finished, _, rest, read, -, isFinished, -, macMatches,
    result⟩ := completed
  obtain ⟨changed, recvChange, rfl⟩ := recvRecord_eq_ok changes
  obtain ⟨final, log, taken, rfl⟩ := hs12Read_eq_ok read
  cases result
  refine ⟨change, changed, finished, _, log, recvChange, isChange, taken, isFinished.1, ?_, rfl⟩
  rw [← macMatches, finished12, tls12Prf_eq]
  rfl

lemma selectedCipher_of_tls12
    (completed : tls12HandshakeClient backend ctx = .ok after) :
    after.selectedCipher = ctx.selectedCipher := by
  simp only [tls12HandshakeClient, bind_eq_ok, Prod.exists] at completed
  obtain ⟨pub, _, buf, received, secrets, _, answered, completed⟩ := completed
  obtain ⟨flight, -, -, -, rfl⟩ := recvFlight12_eq_ok received
  obtain ⟨shared, layer, -, -, -, rfl⟩ := sendFlight12_eq_ok answered
  obtain ⟨-, -, -, -, -, -, -, -, -, -, sameCipher⟩ := recvFinished12_eq_ok completed
  exact sameCipher

lemma exists_ran (completed : tls12HandshakeClient backend ctx = .ok after) :
    ∃ x : Exchange12, x.Ran backend ctx := by
  simp only [tls12HandshakeClient, bind_eq_ok] at completed
  obtain ⟨⟨pub, flown, buf⟩, received, ⟨secrets, sent⟩, answered, completed⟩ := completed
  obtain ⟨flight, accepted, rfl, rfl, rfl⟩ := recvFlight12_eq_ok received
  obtain ⟨shared, layer, computed, derived, format, sentEq⟩ := sendFlight12_eq_ok answered
  obtain ⟨change, changed, finished, last, log, recvChange, isChange, taken, isFinished,
    verifyData, -⟩ := recvFinished12_eq_ok completed
  have keyedFormat : (keyedLayer sent changed secrets).tls12 = true := by
    show changed.tls12 = true
    rw [(tlsRecordRecv_eq_ok recvChange).1.format, sentEq]
    exact format
  refine ⟨⟨flight, shared, secrets, sent, change, changed, keyedLayer sent changed secrets, finished,
    last, log⟩, ?_⟩
  exact
    { accepted
      received
      secret := computed
      master := by
        rw [derived]
        exact tls12Prf_eq _ _ _ _
      answered
      changes := ⟨recvChange, isChange⟩
      installed := ⟨rfl, keyedFormat, _, by rw [sentEq]; rfl⟩
      taken := by
        rw [sentEq] at taken ⊢
        exact taken
      opened := fun entry mem => ⟨(sameKey_of_reads taken.reads).1 entry mem,
        opened12_of_reads rfl keyedFormat taken.reads taken.types entry mem⟩
      isFinished
      verifyData := by
        rw [sentEq] at verifyData
        exact verifyData }

/-- The Finished message is sealed if and only if the buffer was empty. -/
theorem Exchange12.Ran.sealed_iff {x : Exchange12} (ran : x.Ran backend ctx) :
    x.Sealed ↔ x.flight.buf = [] := by
  have bytes : x.flight.buf ++ payloadBytes x.log = x.finished.encode ++ x.last.carry :=
    ran.taken.bytes
  rw [Exchange12.Sealed, ← bytes]
  constructor
  · intro same
    exact append_cancel_right (same.symm.trans (nil_append _).symm)
  · intro empty
    rw [empty, nil_append]

/-- A completed handshake has read the server's Finished message from authenticated records if and
only if the records in the clear hold the messages up to the ServerHelloDone and nothing else. -/
theorem finished_sealed_iff {ctx after : TlsCtx}
    (completed : tls12HandshakeClient backend ctx = .ok after) :
    (∃ x : Exchange12, x.Ran backend ctx) ∧
      ∀ x : Exchange12, x.Ran backend ctx →
        (x.Sealed ↔ payloadBytes x.flight.log = x.flight.bytes) := by
  refine ⟨exists_ran completed, fun x ran => ?_⟩
  rw [ran.sealed_iff, ran.accepted.arrived, append_right_eq_self]

end

/-- Every certificate parses, every signature is valid, all hashes are zero, and the AEAD opens
everything or nothing. -/
def exampleBackend (opens : Bool) : Backend Unit where
  toPrimitives := { examplePrimitives true with x509Parse := fun _ => some exampleLeaf }
  aeads _ :=
    { sealWith := fun _ _ _ plaintext => (plaintext, List.replicate 16 0)
      openWith := fun _ _ _ ct _ => if opens then some ct else none }
  x25519 _ _ := Vector.replicate 32 1
  p256Ecdh _ _ := none
  caBundle := []

/-- A context that has read a ServerHello with a suite of TLS 1.2. -/
def exampleCtx (suite : Option CipherSuite) (incoming : List UInt8) : TlsCtx where
  layer := tlsRecordInit [incoming] (List.replicate 8 1000)
  selectedCipher := suite
  selectedGroup := none
  clientPriv := Vector.replicate 32 0
  clientPub := Vector.replicate 32 0
  ecdheShared := Vector.replicate 32 0
  p256Priv := Vector.replicate 32 0
  p256Pub := Vector.replicate 65 0
  clientRandom := Vector.replicate 32 0
  serverRandom := Vector.replicate 32 0
  transcript := []
  handshakeSecret := []
  cHsTraffic := []
  sHsTraffic := []
  chain := x509ChainInit
  hostname := [97]
  nowEpoch := 50

/-- The flight of the example server. -/
def exampleFlight : List UInt8 :=
  HsMessage.encode ⟨hsCertificate, certificateList [([1], [])]⟩ ++
    HsMessage.encode ⟨hsServerKeyExchange,
      serverKex .x25519 (List.replicate 32 9) .rsaPssSha256 [7]⟩ ++
    HsMessage.encode ⟨hsServerHelloDone, []⟩

/-- The Finished message that the zero hashes lead to. -/
def exampleFinished : HsMessage := ⟨hsFinished, List.replicate 12 0⟩

/-- The server protects its Finished message. -/
def sealedCtx : TlsCtx :=
  exampleCtx (some .ecdheRsaChacha20)
    (Record.encode ⟨rtHandshake, exampleFlight⟩ ++ Record.encode ⟨rtChangeCipherSpec, [1]⟩ ++
      Record.encode ⟨rtHandshake, exampleFinished.encode ++ List.replicate 16 0⟩)

/-- The Finished message stands in the clear behind the ServerHelloDone. -/
def coalescedCtx : TlsCtx :=
  exampleCtx (some .ecdheRsaChacha20)
    (Record.encode ⟨rtHandshake, exampleFlight ++ exampleFinished.encode⟩ ++
      Record.encode ⟨rtChangeCipherSpec, [1]⟩)

lemma buf_of_recvFlight12 {Point : Type} {backend : Backend Point} {ctx flown : TlsCtx}
    {pub buf left : List UInt8}
    (leaves : (recvFlight12 backend ctx).map (fun flight => flight.2.2) = .ok left)
    (received : recvFlight12 backend ctx = .ok (pub, flown, buf)) : buf = left := by
  rw [received] at leaves
  cases leaves
  rfl

theorem protected_finished_sealed :
    (tls12HandshakeClient (exampleBackend true) sealedCtx).isOk = true ∧
      ∃ x : Exchange12, x.Ran (exampleBackend true) sealedCtx ∧ x.Sealed := by
  have isOk : (tls12HandshakeClient (exampleBackend true) sealedCtx).isOk = true := by
    decide +kernel
  obtain ⟨after, completed⟩ := exists_eq_ok isOk
  have leaves : (recvFlight12 (exampleBackend true) sealedCtx).map (fun flight => flight.2.2) =
      .ok [] := by decide +kernel
  obtain ⟨⟨x, ran⟩, sealedIff⟩ := finished_sealed_iff completed
  refine ⟨isOk, x, ran, (sealedIff x ran).mpr ?_⟩
  rw [ran.accepted.arrived, buf_of_recvFlight12 leaves ran.received, append_nil]

/-- A handshake completes although its AEAD opens nothing: the Finished message was read
from what the buffer held in the clear. -/
theorem coalesced_finished_accepted :
    (tls12HandshakeClient (exampleBackend false) coalescedCtx).isOk = true ∧
      ¬∃ x : Exchange12, x.Ran (exampleBackend false) coalescedCtx ∧ x.Sealed := by
  refine ⟨by decide +kernel, ?_⟩
  rintro ⟨x, ran, isSealed⟩
  have leaves : (recvFlight12 (exampleBackend false) coalescedCtx).map (fun flight => flight.2.2) =
      .ok exampleFinished.encode := by decide +kernel
  have left := buf_of_recvFlight12 leaves ran.received
  rw [ran.sealed_iff.mp isSealed] at left
  exact absurd left (by decide)

end CupidOs.Tls
