import CupidOs.Tls.Handshake
import CupidOs.Tls.Handshake12Authentic

/-!
# What a completed TLS 1.3 handshake has checked

The messages arrive in the order of RFC 8446, the chain is accepted, the signature and the MAC of
the server cover the messages before them, and the application keys are those of the key schedule.
The record layer also hands out records in the clear, so the messages were received under the key
if and only if no record after the ServerHello has the outer type of a handshake record.
-/

namespace CupidOs.Tls

open Bytes Crypto Transition X509
open List hiding Vector

/-! ## The key schedule of RFC 8446 -/

namespace Rfc

section

variable (sha256 : List UInt8 → Vector UInt8 32)

/-- HKDF-Extract of RFC 5869. -/
def extract (salt ikm : List UInt8) : List UInt8 := hmacSha256 sha256 salt ikm

/-- The string of zeros that stands for an absent secret. -/
def zeros : List UInt8 := List.replicate 32 0

/-- The Handshake Secret of a handshake without a PSK. -/
def handshakeSecret (ecdhe : List UInt8) : List UInt8 :=
  extract sha256 (deriveSecret sha256 (extract sha256 zeros zeros) "derived" []) ecdhe

/-- The Master Secret. -/
def masterSecret (ecdhe : List UInt8) : List UInt8 :=
  extract sha256 (deriveSecret sha256 (handshakeSecret sha256 ecdhe) "derived" []) zeros

/-- The receive and send keys of a traffic secret, as the record layer holds them. -/
def trafficKeys (trafficSecret : List UInt8) (keyLen : Nat) : AeadDir :=
  installKey (expandLabel sha256 trafficSecret "key" [] keyLen)
    (vectorOf 12 (expandLabel sha256 trafficSecret "iv" [] 12))

/-- The MAC of a Finished message over the messages before it. -/
def finishedMac (trafficSecret messages : List UInt8) : List UInt8 :=
  hmacSha256 sha256 (expandLabel sha256 trafficSecret "finished" [] 32) (sha256 messages).toList

/-- The content that the server signs in a CertificateVerify. -/
def certVerifyContent (messages : List UInt8) : List UInt8 :=
  List.replicate 64 0x20 ++ ascii "TLS 1.3, server CertificateVerify" ++ [0x00] ++
    (sha256 messages).toList

end

end Rfc

section

variable {sha256 : List UInt8 → Vector UInt8 32}

lemma deriveSecret_eq {label : String} (short : (ascii label).length ≤ 249)
    (secret messages : List UInt8) :
    tlsKdfDeriveSecret sha256 secret label (sha256 messages).toList =
      Rfc.deriveSecret sha256 secret label messages :=
  hkdfExpandLabel_eq short (by simp) (by decide)

lemma length_deriveSecret (secret : List UInt8) (label : String) (messages : List UInt8) :
    (Rfc.deriveSecret sha256 secret label messages).length = 32 :=
  length_blocks (by decide) (fun _ => length_hmacSha256 _ _ _) 32

lemma hkdfExtract_eq {salt : List UInt8} (length : salt.length = 32) (ikm : List UInt8) :
    hkdfExtract sha256 salt ikm = Rfc.extract sha256 salt ikm := by
  rw [hkdfExtract, if_neg (by omega), Rfc.extract]

lemma trafficKeys_eq (trafficSecret : List UInt8) {keyLen : Nat} (small : keyLen ≤ 32) :
    installKey (tlsKdfTrafficKeys sha256 trafficSecret keyLen).1
        (vectorOf 12 (tlsKdfTrafficKeys sha256 trafficSecret keyLen).2) =
      Rfc.trafficKeys sha256 trafficSecret keyLen := by
  rw [tlsKdfTrafficKeys, Rfc.trafficKeys, Nat.mod_eq_of_lt (by omega),
    hkdfExpandLabel_eq (by decide) (by decide) (by omega),
    hkdfExpandLabel_eq (by decide) (by decide) (by decide)]

end

section

variable {Point : Type} {backend : Backend Point}

/-! ## Hello -/

/-- A context as `tls_ctx_init` leaves it, as far as the handshake depends on it. -/
structure TlsCtx.Fresh (ctx : TlsCtx) : Prop where
  transcript : ctx.transcript = []
  chain : ctx.chain.certs = []
  format : ctx.layer.tls12 = false

variable {ctx : TlsCtx} {sid : Vector UInt8 32} {hello : ServerHello} {body : List UInt8}

lemma sendClientHello_eq_ok {after : TlsCtx} (sent : sendClientHello backend ctx sid = .ok after) :
    ∃ hello layer, buildClientHello ctx sid 1024 = some hello ∧
      after = { ctx with layer, transcript := ctx.transcript ++ hello.encode } ∧
      layer.tls12 = ctx.layer.tls12 := by
  simp only [sendClientHello, bind_eq_ok, orElse_eq_ok] at sent
  obtain ⟨hello, built, mid, sentHello, result⟩ := sent
  obtain ⟨layer, rfl, format⟩ := sendOrFail_eq_ok sentHello
  cases result
  exact ⟨hello, _, built, rfl, (tlsRecordSend_format _ _ _ _).trans format⟩

lemma recvServerHello_eq_ok {after : TlsCtx}
    (received : recvServerHello backend ctx = .ok (hello, after)) :
    ∃ body layer, tlsRecordRecv backend.aeads ctx.layer recMaxPlaintext =
        (.ok ⟨rtHandshake, HsMessage.encode ⟨hsServerHello, body⟩⟩, layer) ∧
      parseServerHello body = .ok hello ∧
      after = { ctx.withHello hello with
        layer
        transcript := ctx.transcript ++ HsMessage.encode ⟨hsServerHello, body⟩ } := by
  simp only [recvServerHello, bind_eq_ok, require_eq_ok, mapError_eq_ok] at received
  obtain ⟨⟨record, arrived⟩, got, -, -, -, type, -, long, -, isHello, -, length, found, parsed,
    result⟩ := received
  obtain ⟨layer, recv, rfl⟩ := recvRecord_eq_ok got
  cases result
  obtain ⟨recordType, data⟩ := record
  simp only at type long isHello length parsed recv
  have whole : HsMessage.encode ⟨hsServerHello, data.drop 4⟩ = data := by
    have field : (data.take 4).drop 1 = (data.drop 1).take 3 := drop_take
    have front := @encode_of_take data _ (by rw [field]; omega) rfl
    have type : (data.take 4).headD 0 = hsServerHello := by
      rw [← isHello]
      cases data <;> rfl
    rwa [type, field, take_of_length_le (by rw [length_drop]; omega),
      take_of_length_le (by omega)] at front
  refine ⟨data.drop 4, layer, ?_, parsed, ?_⟩
  · rw [whole, ← type]
    exact recv
  · rw [whole]
    rfl

/-! ## The handshake keys -/

/-- The AEAD of a suite of TLS 1.3. -/
def aeadAlg13 (cs : Option CipherSuite) : AeadAlg :=
  if cs = some .aes128GcmSha256 then .aes128Gcm else .chacha20Poly1305

/-- A context with the handshake keys of RFC 8446 for its transcript and a secret. -/
def withHandshakeKeys (backend : Backend Point) (ctx : TlsCtx) (ecdheShared : Vector UInt8 32) :
    TlsCtx :=
  let secret := Rfc.handshakeSecret backend.sha256 ecdheShared.toList
  let server := Rfc.deriveSecret backend.sha256 secret "s hs traffic" ctx.transcript
  { ctx with
    ecdheShared
    handshakeSecret := secret
    cHsTraffic := Rfc.deriveSecret backend.sha256 secret "c hs traffic" ctx.transcript
    sHsTraffic := server
    layer := { ctx.layer with
      aeadAlg := aeadAlg13 ctx.selectedCipher
      rcv := Rfc.trafficKeys backend.sha256 server (cipherKeyLen ctx.selectedCipher) } }

lemma cipherKeyLen_le (cs : Option CipherSuite) : cipherKeyLen cs ≤ 32 := by
  rw [cipherKeyLen]
  split <;> decide

/-- `compute_handshake_secrets` follows the key schedule. -/
theorem computeHandshakeSecrets_eq (ctx : TlsCtx) : computeHandshakeSecrets backend ctx =
      let secret := Rfc.handshakeSecret backend.sha256 ctx.ecdheShared.toList
      { ctx with
        handshakeSecret := secret
        cHsTraffic := Rfc.deriveSecret backend.sha256 secret "c hs traffic" ctx.transcript
        sHsTraffic := Rfc.deriveSecret backend.sha256 secret "s hs traffic" ctx.transcript } := by
  have early : hkdfExtract backend.sha256 Rfc.zeros Rfc.zeros =
      Rfc.extract backend.sha256 Rfc.zeros Rfc.zeros := hkdfExtract_eq rfl _
  have secret : hkdfExtract backend.sha256 (tlsKdfDeriveSecret backend.sha256
      (hkdfExtract backend.sha256 Rfc.zeros Rfc.zeros) "derived" (backend.sha256 []).toList)
      ctx.ecdheShared.toList = Rfc.handshakeSecret backend.sha256 ctx.ecdheShared.toList := by
    rw [early, deriveSecret_eq (by decide), hkdfExtract_eq (length_deriveSecret _ _ _)]
    rfl
  simp only [Rfc.zeros] at secret
  simp only [computeHandshakeSecrets, thSnapshot, secret]
  rw [deriveSecret_eq (by decide), deriveSecret_eq (by decide)]

lemma installRecv_eq (ctx : TlsCtx) (trafficSecret : List UInt8) :
    installRecv backend ctx trafficSecret =
      { ctx with layer := { ctx.layer with
        rcv := Rfc.trafficKeys backend.sha256 trafficSecret (cipherKeyLen ctx.selectedCipher) } } := by
  rw [← trafficKeys_eq trafficSecret (cipherKeyLen_le ctx.selectedCipher)]
  rfl

lemma installSend_eq (ctx : TlsCtx) (trafficSecret : List UInt8) :
    installSend backend ctx trafficSecret =
      { ctx with layer := { ctx.layer with
        snd := Rfc.trafficKeys backend.sha256 trafficSecret (cipherKeyLen ctx.selectedCipher) } } := by
  rw [← trafficKeys_eq trafficSecret (cipherKeyLen_le ctx.selectedCipher)]
  rfl

lemma startEncryption_eq_ok {after : TlsCtx}
    (started : startEncryption backend ctx hello = .ok after) :
    ∃ shared, computeEcdhe backend ctx hello.pub = .ok shared ∧
      after = withHandshakeKeys backend ctx shared := by
  simp only [startEncryption, bind_eq_ok, mapError_eq_ok] at started
  obtain ⟨shared, computed, result⟩ := started
  cases result
  refine ⟨shared, computed, ?_⟩
  rw [installHandshakeKeys, computeHandshakeSecrets_eq, installRecv_eq]
  rfl

/-! ## The flight of the server -/

/-- A context that has read some bytes of the transcript. -/
def TlsCtx.advance (ctx : TlsCtx) (layer : RecordState) (bytes : List UInt8) : TlsCtx :=
  { ctx with layer, transcript := ctx.transcript ++ bytes }

/-- A context with another chain. -/
def TlsCtx.withChain (ctx : TlsCtx) (chain : Chain) : TlsCtx := { ctx with chain }

lemma readMessage_eq_ok {after : TlsCtx} {carry rest : List UInt8} {expected : UInt8}
    (small : carry.length ≤ carrySize)
    (read : readMessage backend ctx carry expected = .ok (body, after, rest)) :
    ∃ layer log, TakenFrom (recordSource backend.aeads) (ctx.talk carry) ⟨expected, body⟩
        ⟨layer, rest, after.transcript⟩ log ∧
      after = ctx.advance layer (HsMessage.encode ⟨expected, body⟩) ∧
      rest.length ≤ carrySize := by
  simp only [readMessage, bind_eq_ok, mapError_eq_ok, require_eq_ok] at read
  obtain ⟨⟨⟨type, body⟩, talk⟩, taken, -, rfl, result⟩ := read
  cases result
  obtain ⟨transcript, fits, log, from13⟩ := hsReadMsg_taken small taken
  refine ⟨talk.layer, log, from13, ?_, fits⟩
  rw [TlsCtx.heard, transcript]
  rfl

/-- A Certificate message of TLS 1.3 with what `parse_certificate` ignores. -/
def certificate13 (context : List UInt8) (entries : List (List UInt8 × List UInt8))
    (surplus : List UInt8) : List UInt8 :=
  [UInt8.ofNat context.length] ++ context ++ certificateList entries ++ surplus

lemma skipEntryExtensions_eq_ok {bytes rest : List UInt8}
    (skipped : skipEntryExtensions bytes = .ok rest) :
    ∃ trailer, (∃ extensions, trailer = encodeBE 2 extensions.length ++ extensions) ∧
      bytes = trailer ++ rest := by
  simp only [skipEntryExtensions, bind_eq_ok, require_eq_ok] at skipped
  obtain ⟨-, long, -, fits, result⟩ := skipped
  cases result
  refine ⟨_, ⟨(bytes.drop 2).take (decodeBE (bytes.take 2)), rfl⟩, ?_⟩
  rw [length_take_of_le fits, append_assoc, take_append_drop]
  exact take_drop_encodeBE long

lemma parseCertificate_eq_ok {after : TlsCtx}
    (parsed : parseCertificate backend ctx body = .ok after) :
    ∃ context entries surplus certs chain, body = certificate13 context entries surplus ∧
      Parsed backend entries certs ∧ chain.certs = ctx.chain.certs ++ certs ∧
      after = ctx.withChain chain := by
  simp only [parseCertificate, bind_eq_ok, require_eq_ok] at parsed
  obtain ⟨-, nonempty, -, contextFits, -, listFits, chain, looped, -, -, result⟩ := parsed
  cases result
  generalize restEq : body.drop (1 + (body.headD 0).toNat) = rest at listFits looped
  obtain ⟨entries, certs, bytes, -, parsedCerts, grown⟩ :=
    certificateLoop_eq_ok _ skipEntryExtensions_eq_ok (length_take_le _ _) looped
  refine ⟨(body.drop 1).take (body.headD 0).toNat, entries,
    (rest.drop 3).drop (decodeBE (rest.take 3)), certs, chain, ?_, parsedCerts, grown, rfl⟩
  obtain _ | ⟨size, body⟩ := body
  · simp at nonempty
  · simp only [headD_cons, drop_succ_cons, drop_zero, Nat.add_comm 1] at contextFits restEq ⊢
    have listEq : certificateList entries ++ (rest.drop 3).drop (decodeBE (rest.take 3)) =
        rest := by
      have long : 3 ≤ rest.length := by
        rw [← restEq, length_drop]
        omega
      rw [certificateList, ← bytes, length_take_of_le listFits, append_assoc, take_append_drop]
      exact (take_drop_encodeBE long).symm
    rw [certificate13, append_assoc, listEq, ← restEq, append_assoc,
      take_append_drop, length_take_of_le (by omega), UInt8.ofNat_toNat]
    rfl

lemma parseCertVerify_eq_ok {messages : List UInt8} {done : Unit}
    (verified : parseCertVerify backend ctx (backend.sha256 messages) body = .ok done) :
    ∃ scheme sig, body = encodeBE 2 (SigScheme.code scheme) ++ encodeBE 2 sig.length ++ sig ∧
      verifyWith backend scheme (leafKey ctx.chain) sig
        (backend.sha256 (Rfc.certVerifyContent backend.sha256 messages)) = true := by
  simp only [parseCertVerify, bind_eq_ok, require_eq_ok, orElse_eq_ok] at verified
  obtain ⟨-, long, -, length, scheme, isScheme, valid⟩ := verified
  refine ⟨scheme, body.drop 4, ?_, valid⟩
  have schemeCode : encodeBE 2 scheme.code = body.take 2 :=
    encodeBE_of_decodeBE (length_take_of_le (by omega)) (SigScheme.code_of_ofCode isScheme).symm
  have lengthCode : encodeBE 2 (body.drop 4).length = (body.drop 2).take 2 := by
    apply encodeBE_of_decodeBE (length_take_of_le (by rw [length_drop]; omega))
    rw [length_drop]
    omega
  have split : body.drop 4 = (body.drop 2).drop 2 := by rw [drop_drop]
  rw [schemeCode, lengthCode, append_assoc, split, take_append_drop, take_append_drop]

lemma verifyServerFinished_eq_ok {messages : List UInt8} {done : Unit}
    (verified : verifyServerFinished backend ctx (backend.sha256 messages) body = .ok done) :
    body = Rfc.finishedMac backend.sha256 ctx.sHsTraffic messages := by
  simp only [verifyServerFinished, bind_eq_ok, require_eq_ok] at verified
  obtain ⟨-, -, same⟩ := verified
  rw [← same, finishedMac, tlsKdfFinishedKey, hkdfExpandLabel_eq (by decide) (by decide) (by decide)]
  rfl

/-- The encrypted messages of the server. -/
structure Flight13 where
  extensions : HsMessage
  certificate : HsMessage
  certVerify : HsMessage
  finished : HsMessage
  chain : Chain
  /-- The records that were read. -/
  log : List (RecordState × Record)
  layer : RecordState
  /-- What was read behind the Finished message. -/
  rest : List UInt8

variable (flight : Flight13)

/-- The messages up to the Certificate. -/
def Flight13.toCertificate : List UInt8 :=
  flight.extensions.encode ++ flight.certificate.encode

/-- The messages up to the CertificateVerify. -/
def Flight13.toCertVerify : List UInt8 :=
  flight.toCertificate ++ flight.certVerify.encode

/-- The messages up to the Finished. -/
def Flight13.toFinished : List UInt8 :=
  flight.toCertVerify ++ flight.finished.encode

/-- A flight that was read and accepted by a context whose transcript ends with the
ServerHello. -/
structure Flight13.Accepted (backend : Backend Point) (ctx : TlsCtx) (flight : Flight13) :
    Prop where
  types : flight.extensions.type = hsEncryptedExtensions ∧
    flight.certificate.type = hsCertificate ∧ flight.certVerify.type = hsCertVerify ∧
    flight.finished.type = hsFinished
  reads : (recordSource backend.aeads).Reads ctx.layer flight.log flight.layer
  fragments : HandshakeLog flight.log
  arrived : payloadBytes flight.log = flight.toFinished ++ flight.rest
  listed : ∃ context entries surplus certs,
    flight.certificate.body = certificate13 context entries surplus ∧
    Parsed backend entries certs ∧ flight.chain.certs = ctx.chain.certs ++ certs
  trusted : x509ChainVerify backend.toPrimitives backend.caBundle flight.chain ctx.hostname
    ctx.nowEpoch = .ok ()
  signed : ∃ scheme sig, flight.certVerify.body =
      encodeBE 2 (SigScheme.code scheme) ++ encodeBE 2 sig.length ++ sig ∧
    verifyWith backend scheme (leafKey flight.chain) sig (backend.sha256
      (Rfc.certVerifyContent backend.sha256 (ctx.transcript ++ flight.toCertificate))) = true
  mac : flight.finished.body = Rfc.finishedMac backend.sha256 ctx.sHsTraffic
    (ctx.transcript ++ flight.toCertVerify)

/-- A context that has read a flight. -/
def Flight13.context (ctx : TlsCtx) : TlsCtx :=
  { ctx with
    layer := flight.layer
    chain := flight.chain
    transcript := ctx.transcript ++ flight.toFinished }

lemma recvFlight13_eq_ok {after : TlsCtx} (received : recvFlight13 backend ctx = .ok after) :
    ∃ flight : Flight13, flight.Accepted backend ctx ∧ after = flight.context ctx := by
  simp only [recvFlight13, bind_eq_ok, mapError_eq_ok, Prod.exists] at received
  obtain ⟨extensions, _, carry1, read1, certificate, _, carry2, read2, _, parsed, certVerify, _,
    carry3, read3, ⟨⟩, verified, ⟨⟩, trusted, finished, _, rest, read4, ⟨⟩, macVerified, result⟩ :=
    received
  cases result
  obtain ⟨layer1, log1, taken1, rfl, small1⟩ := readMessage_eq_ok (Nat.zero_le _) read1
  obtain ⟨layer2, log2, taken2, rfl, small2⟩ := readMessage_eq_ok small1 read2
  obtain ⟨context, entries, surplus, certs, chain, body, parsedCerts, grown, rfl⟩ :=
    parseCertificate_eq_ok parsed
  obtain ⟨layer3, log3, taken3, rfl, small3⟩ := readMessage_eq_ok small2 read3
  obtain ⟨layer4, log4, taken4, rfl, small4⟩ := readMessage_eq_ok small3 read4
  refine ⟨⟨⟨hsEncryptedExtensions, extensions⟩, ⟨hsCertificate, certificate⟩,
    ⟨hsCertVerify, certVerify⟩, ⟨hsFinished, finished⟩, chain, log1 ++ (log2 ++ (log3 ++ log4)),
    layer4, rest⟩, ?_, ?_⟩
  · obtain ⟨scheme, sig, signature, valid⟩ := parseCertVerify_eq_ok verified
    have mac := verifyServerFinished_eq_ok macVerified
    have bytes1 := taken1.bytes
    have bytes2 := taken2.bytes
    have bytes3 := taken3.bytes
    have bytes4 := taken4.bytes
    simp only [TlsCtx.talk, nil_append] at bytes1 bytes2 bytes3 bytes4
    simp only [TlsCtx.advance, TlsCtx.withChain, append_assoc] at valid mac
    exact
      { types := ⟨rfl, rfl, rfl, rfl⟩
        reads := taken1.reads.append (taken2.reads.append (taken3.reads.append taken4.reads))
        fragments := by
          simp only [HandshakeLog, forall_mem_append]
          exact ⟨taken1.types, taken2.types, taken3.types, taken4.types⟩
        arrived := by
          simp only [payloadBytes_append, Flight13.toFinished, Flight13.toCertVerify,
            Flight13.toCertificate]
          rw [bytes1, append_assoc, ← append_assoc carry1, bytes2, append_assoc,
            ← append_assoc carry2, bytes3, append_assoc, bytes4]
          simp only [append_assoc]
        listed := ⟨context, entries, surplus, certs, body, parsedCerts, grown⟩
        trusted
        signed := ⟨scheme, sig, signature, valid⟩
        mac := by
          simpa only [Flight13.toCertVerify, Flight13.toCertificate, append_assoc] using mac }
  · simp only [TlsCtx.advance, TlsCtx.withChain, Flight13.context, Flight13.toFinished,
      Flight13.toCertVerify, Flight13.toCertificate, append_assoc]

/-! ## The application keys -/

/-- `compute_application_secrets` follows the key schedule. -/
theorem computeApplicationSecrets_eq {ecdhe : List UInt8}
    (secret : ctx.handshakeSecret = Rfc.handshakeSecret backend.sha256 ecdhe)
    (messages : List UInt8) :
    computeApplicationSecrets backend ctx (backend.sha256 messages) =
      let master := Rfc.masterSecret backend.sha256 ecdhe
      (Rfc.deriveSecret backend.sha256 master "c ap traffic" messages,
        Rfc.deriveSecret backend.sha256 master "s ap traffic" messages) := by
  have master : hkdfExtract backend.sha256 (tlsKdfDeriveSecret backend.sha256 ctx.handshakeSecret
      "derived" (backend.sha256 []).toList) Rfc.zeros = Rfc.masterSecret backend.sha256 ecdhe := by
    rw [deriveSecret_eq (by decide), hkdfExtract_eq (length_deriveSecret _ _ _), secret]
    rfl
  simp only [Rfc.zeros] at master
  simp only [computeApplicationSecrets, master]
  rw [deriveSecret_eq (by decide), deriveSecret_eq (by decide)]

/-- The last steps install the application keys of RFC 8446. -/
theorem finishHandshake_eq_ok {ctx after : TlsCtx} (ecdhe : List UInt8)
    (secret : ctx.handshakeSecret = Rfc.handshakeSecret backend.sha256 ecdhe)
    (completed : finishHandshake backend ctx = .ok after) :
    let master := Rfc.masterSecret backend.sha256 ecdhe
    let keyLen := cipherKeyLen ctx.selectedCipher
    after.layer.rcv = Rfc.trafficKeys backend.sha256
        (Rfc.deriveSecret backend.sha256 master "s ap traffic" ctx.transcript) keyLen ∧
      after.layer.snd = Rfc.trafficKeys backend.sha256
        (Rfc.deriveSecret backend.sha256 master "c ap traffic" ctx.transcript) keyLen ∧
      after.selectedCipher = ctx.selectedCipher := by
  simp only [finishHandshake, sendClientFinished, bind_eq_ok] at completed
  obtain ⟨sent, sentFinished, result⟩ := completed
  obtain ⟨layer, sentEq, -⟩ := sendOrFail_eq_ok sentFinished
  have sentSecret : sent.handshakeSecret = Rfc.handshakeSecret backend.sha256 ecdhe := by
    rw [sentEq]
    exact secret
  have sameCipher : sent.selectedCipher = ctx.selectedCipher := by
    rw [sentEq]
    rfl
  cases result
  rw [thSnapshot, computeApplicationSecrets_eq sentSecret, installApplicationKeys, installRecv_eq,
    installSend_eq]
  simp only [sameCipher, and_self]

/-! ## A run -/

/-- A completed handshake. -/
structure Exchange13 where
  clientHello : HsMessage
  asked : TlsCtx
  serverHello : HsMessage
  found : ServerHello
  group : NamedGroup
  pub : List UInt8
  greeted : TlsCtx
  shared : Vector UInt8 32
  /-- The context once the handshake receive key is installed. -/
  keyed : TlsCtx
  flight : Flight13

/-- The messages of both sides up to the ServerHello. -/
def Exchange13.hellos (x : Exchange13) : List UInt8 :=
  x.clientHello.encode ++ x.serverHello.encode

/-- What a completed handshake of TLS 1.3 has checked. -/
structure Exchange13.Ran (backend : Backend Point) (ctx after : TlsCtx) (sid : Vector UInt8 32)
    (x : Exchange13) : Prop where
  offered : buildClientHello ctx sid 1024 = some x.clientHello
  asks : sendClientHello backend ctx sid = .ok x.asked
  answered : ∃ layer, tlsRecordRecv backend.aeads x.asked.layer recMaxPlaintext =
    (.ok ⟨rtHandshake, x.serverHello.encode⟩, layer)
  isHello : x.serverHello.type = hsServerHello ∧ parseServerHello x.serverHello.body = .ok x.found
  greets : recvServerHello backend x.asked = .ok (x.found, x.greeted)
  secret : x.found.share = some (x.group, x.pub) ∧
    computeEcdhe backend { ctx with selectedGroup := some x.group } x.pub = .ok x.shared
  starts : startEncryption backend x.greeted x.found = .ok x.keyed
  format : x.keyed.layer.tls12 = false
  /-- The receive key is the one that RFC 8446 derives for the server. -/
  recvKey : x.keyed.layer.rcv = Rfc.trafficKeys backend.sha256
    (Rfc.deriveSecret backend.sha256 (Rfc.handshakeSecret backend.sha256 x.shared.toList)
      "s hs traffic" x.hellos) (cipherKeyLen (some x.found.cipher))
  flies : recvFlight13 backend x.keyed = .ok (x.flight.context x.keyed)
  types : x.flight.extensions.type = hsEncryptedExtensions ∧
    x.flight.certificate.type = hsCertificate ∧ x.flight.certVerify.type = hsCertVerify ∧
    x.flight.finished.type = hsFinished
  reads : (recordSource backend.aeads).Reads x.keyed.layer x.flight.log x.flight.layer
  sameKey : ∀ entry ∈ x.flight.log, SameKey x.keyed.layer entry.1
  fragments : HandshakeLog x.flight.log
  arrived : payloadBytes x.flight.log = x.flight.toFinished ++ x.flight.rest
  listed : ∃ context entries surplus,
    x.flight.certificate.body = certificate13 context entries surplus ∧
    Parsed backend entries x.flight.chain.certs
  trusted : x509ChainVerify backend.toPrimitives backend.caBundle x.flight.chain ctx.hostname
    ctx.nowEpoch = .ok ()
  signed : ∃ scheme sig, x.flight.certVerify.body =
      encodeBE 2 (SigScheme.code scheme) ++ encodeBE 2 sig.length ++ sig ∧
    verifyWith backend scheme (leafKey x.flight.chain) sig (backend.sha256
      (Rfc.certVerifyContent backend.sha256 (x.hellos ++ x.flight.toCertificate))) = true
  mac : x.flight.finished.body = Rfc.finishedMac backend.sha256
    (Rfc.deriveSecret backend.sha256 (Rfc.handshakeSecret backend.sha256 x.shared.toList)
      "s hs traffic" x.hellos) (x.hellos ++ x.flight.toCertVerify)
  recvApp : after.layer.rcv = Rfc.trafficKeys backend.sha256
    (Rfc.deriveSecret backend.sha256 (Rfc.masterSecret backend.sha256 x.shared.toList)
      "s ap traffic" (x.hellos ++ x.flight.toFinished)) (cipherKeyLen (some x.found.cipher))
  sendApp : after.layer.snd = Rfc.trafficKeys backend.sha256
    (Rfc.deriveSecret backend.sha256 (Rfc.masterSecret backend.sha256 x.shared.toList)
      "c ap traffic" (x.hellos ++ x.flight.toFinished)) (cipherKeyLen (some x.found.cipher))

/-- The records after the ServerHello were opened with the handshake receive key. -/
def Exchange13.UnderKey (backend : Backend Point) (x : Exchange13) : Prop :=
  ∀ entry ∈ x.flight.log, entry.2.type = rtHandshake → Opened13 backend.aeads entry.1 entry.2

/-- The records that a handshake reads after the ServerHello. -/
def ReadsAfterHello (backend : Backend Point) (ctx : TlsCtx) (sid : Vector UInt8 32)
    (log : List (RecordState × Record)) : Prop :=
  ∃ asked found greeted keyed flown, sendClientHello backend ctx sid = .ok asked ∧
    recvServerHello backend asked = .ok (found, greeted) ∧
    startEncryption backend greeted found = .ok keyed ∧
    recvFlight13 backend keyed = .ok flown ∧
    (recordSource backend.aeads).Reads keyed.layer log flown.layer

/-- The secret depends on the group and the private keys. -/
theorem computeEcdhe_congr {first second : TlsCtx}
    (group : first.selectedGroup = second.selectedGroup)
    (priv : first.clientPriv = second.clientPriv) (p256 : first.p256Priv = second.p256Priv)
    (pub : List UInt8) : computeEcdhe backend first pub = computeEcdhe backend second pub := by
  rw [computeEcdhe, computeEcdhe, group, priv, p256]

lemma share_of_parseServerHello (parsed : parseServerHello body = .ok hello)
    (isTls13 : hello.cipher.isTls13 = true) : ∃ group pub, hello.share = some (group, pub) := by
  simp only [parseServerHello, bind_eq_ok, require_eq_ok, orElse_eq_ok, Prod.exists] at parsed
  obtain ⟨-, -, -, -, -, -, -, -, cipher, -, -, -, -, -, -, -, gotVer, share, -, -, required,
    result⟩ := parsed
  rw [← Except.ok.inj result] at isTls13 ⊢
  obtain ⟨⟨group, pub⟩, shareEq⟩ := Option.isSome_iff_exists.mp (required isTls13).2
  exact ⟨group, pub, shareEq⟩

lemma exists_ran13 {after : TlsCtx} (fresh : ctx.Fresh)
    (completed : tlsHandshakeClient backend ctx sid = .ok after) {suite : CipherSuite}
    (selected : after.selectedCipher = some suite) (isTls13 : suite.isTls13 = true) :
    ∃ x : Exchange13, x.Ran backend ctx after sid := by
  simp only [tlsHandshakeClient, bind_eq_ok, Prod.exists] at completed
  obtain ⟨asked, asks, found, greeted, greets, completed⟩ := completed
  obtain ⟨clientHello, helloLayer, offered, askedEq, askedFormat⟩ := sendClientHello_eq_ok asks
  obtain ⟨body, greetedLayer, answered, isHello, greetedEq⟩ := recvServerHello_eq_ok greets
  split at completed
  · rename_i cipher13
    simp only [bind_eq_ok] at completed
    obtain ⟨keyed, starts, flown, flies, finishes⟩ := completed
    obtain ⟨shared, computed, keyedEq⟩ := startEncryption_eq_ok starts
    obtain ⟨flight, accepted, rfl⟩ := recvFlight13_eq_ok flies
    obtain ⟨group, pub, shareEq⟩ := share_of_parseServerHello isHello cipher13
    refine ⟨⟨clientHello, asked, ⟨hsServerHello, body⟩, found, group, pub, greeted, shared, keyed,
      flight⟩, ?_⟩
    -- Every context of the run is the one before it with some fields replaced.
    subst keyedEq greetedEq askedEq
    have hellos : ctx.transcript ++ clientHello.encode ++ HsMessage.encode ⟨hsServerHello, body⟩ =
        clientHello.encode ++ HsMessage.encode ⟨hsServerHello, body⟩ := by
      rw [fresh.transcript, nil_append]
    have applies := finishHandshake_eq_ok shared.toList rfl finishes
    have signed := accepted.signed
    have mac := accepted.mac
    have format := (tlsRecordRecv_eq_ok answered).1.format.trans (askedFormat.trans fresh.format)
    have secret : computeEcdhe backend { ctx with selectedGroup := some group } pub =
        .ok shared := by
      rw [ServerHello.pub, shareEq] at computed
      rw [← computed]
      refine computeEcdhe_congr ?_ ?_ ?_ pub
      · simp only [TlsCtx.withHello, shareEq]
        rfl
      · rfl
      · rfl
    dsimp only [withHandshakeKeys, Flight13.context, TlsCtx.withHello] at signed mac applies
    rw [hellos] at signed mac
    simp only [hellos] at applies
    exact
      { offered
        asks
        answered := ⟨greetedLayer, answered⟩
        isHello := ⟨rfl, isHello⟩
        greets
        secret := ⟨shareEq, secret⟩
        starts
        format
        recvKey := by
          rw [Exchange13.hellos, ← hellos]
          rfl
        flies
        types := accepted.types
        reads := accepted.reads
        sameKey := (sameKey_of_reads accepted.reads).1
        fragments := accepted.fragments
        arrived := accepted.arrived
        listed := by
          obtain ⟨context, entries, surplus, certs, bodyEq, parsed, grown⟩ := accepted.listed
          have chain : flight.chain.certs = certs := by
            rw [grown]
            exact (congrArg (· ++ certs) fresh.chain).trans (nil_append _)
          exact ⟨context, entries, surplus, bodyEq, by rw [chain]; exact parsed⟩
        trusted := accepted.trusted
        signed
        mac
        recvApp := applies.1
        sendApp := applies.2.1 }
  · rename_i other
    have sameCipher := selectedCipher_of_tls12 completed
    rw [selected, greetedEq] at sameCipher
    have suiteEq : suite = found.cipher := Option.some.inj sameCipher
    rw [suiteEq] at isTls13
    exact absurd isTls13 other

lemma Exchange13.Ran.readsAfterHello {after : TlsCtx} {x : Exchange13}
    (ran : x.Ran backend ctx after sid) : ReadsAfterHello backend ctx sid x.flight.log :=
  ⟨x.asked, x.found, x.greeted, x.keyed, _, ran.asks, ran.greets, ran.starts, ran.flies, ran.reads⟩

lemma ReadsAfterHello.unique {first second : List (RecordState × Record)}
    (one : ReadsAfterHello backend ctx sid first) (other : ReadsAfterHello backend ctx sid second) :
    first = second := by
  obtain ⟨asked, found, greeted, keyed, flown, asks, greets, starts, flies, reads⟩ := one
  obtain ⟨asked', found', greeted', keyed', flown', asks', greets', starts', flies', reads'⟩ := other
  cases asks.symm.trans asks'
  cases greets.symm.trans greets'
  cases starts.symm.trans starts'
  cases flies.symm.trans flies'
  exact reads.unique reads'

lemma Exchange13.Ran.underKey_iff {after : TlsCtx} {x : Exchange13}
    (ran : x.Ran backend ctx after sid) :
    x.UnderKey backend ↔ ∀ entry ∈ x.flight.log, rtHandshake ∉ entry.1.incoming.flatten.head? := by
  have active : x.keyed.layer.rcv.active = true := by
    rw [ran.recvKey]
    rfl
  exact opened13_iff active ran.format ran.reads

/-- A completed handshake of TLS 1.3 has checked all that RFC 8446 asks for, with the
messages after the ServerHello received under the handshake key, if and only if no
record after the ServerHello has the outer type of a handshake record. -/
theorem handshake_authentic_iff {ctx after : TlsCtx} {sid : Vector UInt8 32} (fresh : ctx.Fresh)
    (completed : tlsHandshakeClient backend ctx sid = .ok after) {suite : CipherSuite}
    (selected : after.selectedCipher = some suite) (isTls13 : suite.isTls13 = true) :
    (∃ x : Exchange13, x.Ran backend ctx after sid ∧ x.UnderKey backend) ↔
      ∀ log, ReadsAfterHello backend ctx sid log →
        ∀ entry ∈ log, rtHandshake ∉ entry.1.incoming.flatten.head? := by
  constructor
  · rintro ⟨x, ran, underKey⟩ log reads
    rw [reads.unique ran.readsAfterHello]
    exact ran.underKey_iff.mp underKey
  · intro clearFree
    obtain ⟨x, ran⟩ := exists_ran13 fresh completed selected isTls13
    exact ⟨x, ran, ran.underKey_iff.mpr (clearFree _ ran.readsAfterHello)⟩

end

/-- A ServerHello that selects ChaCha20-Poly1305 and X25519. -/
def exampleServerHello : HsMessage :=
  let extensions := wbe16s [0x002B, 2] ++ [0x03, 0x04] ++
    wbe16s [0x0033, 36, NamedGroup.x25519.code, 32] ++ List.replicate 32 9
  ⟨hsServerHello, [0x03, 0x03] ++ List.replicate 32 0 ++ [0] ++
    encodeBE 2 CipherSuite.chacha20Poly1305Sha256.code ++ [0] ++ encodeBE 2 extensions.length ++
    extensions⟩

/-- The messages of the example server after its ServerHello. -/
def exampleFlight13 : List UInt8 :=
  HsMessage.encode ⟨hsEncryptedExtensions, [0, 0]⟩ ++
    HsMessage.encode ⟨hsCertificate, certificate13 [] [([1], [0, 0])] []⟩ ++
    HsMessage.encode ⟨hsCertVerify, encodeBE 2 SigScheme.rsaPssSha256.code ++ encodeBE 2 1 ++ [7]⟩ ++
    HsMessage.encode ⟨hsFinished, List.replicate 32 0⟩

/-- The server protects its messages. -/
def protectedCtx : TlsCtx :=
  exampleCtx none (Record.encode ⟨rtHandshake, exampleServerHello.encode⟩ ++
    Record.encode ⟨rtApplicationData, exampleFlight13 ++ [rtHandshake] ++ List.replicate 16 0⟩)

/-- The server sends its messages in the clear. -/
def clearCtx : TlsCtx :=
  exampleCtx none (Record.encode ⟨rtHandshake, exampleServerHello.encode⟩ ++
    Record.encode ⟨rtHandshake, exampleFlight13⟩)

/-- The session id of the example client. -/
def exampleSid : Vector UInt8 32 := Vector.replicate 32 0

lemma exampleCtx_fresh (suite : Option CipherSuite) (incoming : List UInt8) :
    (exampleCtx suite incoming).Fresh :=
  ⟨rfl, rfl, rfl⟩

/-- The record layer of the example client once the handshake key is installed. -/
def protectedLayer : Except HandshakeError RecordState := do
  let asked ← sendClientHello (exampleBackend true) protectedCtx exampleSid
  let (found, greeted) ← recvServerHello (exampleBackend true) asked
  let keyed ← startEncryption (exampleBackend true) greeted found
  return keyed.layer

lemma clearFree_of_single {aeads : AeadAlg → Aead} {layer final : RecordState}
    {log : List (RecordState × Record)} (front : rtHandshake ∉ layer.incoming.flatten.head?)
    (drained : ∀ handed, (recordSource aeads).next layer = some handed →
      handed.2.incoming.flatten = [])
    (reads : (recordSource aeads).Reads layer log final) :
    ∀ entry ∈ log, rtHandshake ∉ entry.1.incoming.flatten.head? := by
  have states := (reads.invariant (I := fun r => r = layer ∨ r.incoming.flatten = [])
    (fun {state item rest} known next => by
      rcases known with rfl | empty
      · exact .inr (drained _ next)
      have dry := @Source.next_eq_none _ _ (recordSource aeads) state
        (show state.incoming.flatten.length = 0 by rw [empty]; rfl)
      rw [dry] at next
      cases next) (.inl rfl)).1
  intro entry mem
  rcases states entry mem with same | empty
  · rw [same]
    exact front
  · rw [empty]
    nofun

theorem protected_flight_authentic :
    (tlsHandshakeClient (exampleBackend true) protectedCtx exampleSid).isOk = true ∧
      ∃ after x, Exchange13.Ran (exampleBackend true) protectedCtx after exampleSid x ∧
        x.UnderKey (exampleBackend true) := by
  have isOk : (tlsHandshakeClient (exampleBackend true) protectedCtx exampleSid).isOk = true := by
    decide +kernel
  obtain ⟨after, completed⟩ := exists_eq_ok isOk
  have suite : (tlsHandshakeClient (exampleBackend true) protectedCtx exampleSid).map
      TlsCtx.selectedCipher = .ok (some .chacha20Poly1305Sha256) := by
    decide +kernel
  rw [completed] at suite
  refine ⟨isOk, after, (handshake_authentic_iff (exampleCtx_fresh _ _) completed
    (Except.ok.inj suite) rfl).mpr ?_⟩
  rintro log ⟨asked, found, greeted, keyed, flown, asks, greets, starts, flies, reads⟩
  have layer : protectedLayer = .ok keyed.layer :=
    bind_eq_ok.mpr ⟨asked, asks, bind_eq_ok.mpr ⟨(found, greeted), greets,
      bind_eq_ok.mpr ⟨keyed, starts, rfl⟩⟩⟩
  have fronts : protectedLayer.map (fun layer => layer.incoming.flatten.head?) =
      .ok (some rtApplicationData) := by decide +kernel
  have drains : protectedLayer.map (fun layer =>
      ((recordSource (exampleBackend true).aeads).next layer).map fun handed =>
        handed.2.incoming.flatten) = .ok (some []) := by decide +kernel
  rw [layer] at fronts drains
  have front : keyed.layer.incoming.flatten.head? = some rtApplicationData :=
    Except.ok.inj fronts
  have drained : ((recordSource (exampleBackend true).aeads).next keyed.layer).map
      (fun handed => handed.2.incoming.flatten) = some [] := Except.ok.inj drains
  refine clearFree_of_single (by rw [front]; decide) (fun handed next => ?_) reads
  rw [next] at drained
  exact Option.some.inj drained

/-- A handshake completes although its AEAD opens nothing: all messages after the
ServerHello were read in the clear. -/
theorem clear_flight_accepted :
    (tlsHandshakeClient (exampleBackend false) clearCtx exampleSid).map TlsCtx.selectedCipher =
        .ok (some .chacha20Poly1305Sha256) ∧
      ¬∃ after x, Exchange13.Ran (exampleBackend false) clearCtx after exampleSid x ∧
        x.UnderKey (exampleBackend false) := by
  refine ⟨by decide +kernel, ?_⟩
  rintro ⟨after, x, ran, underKey⟩
  have unread : ∀ entry ∈ x.flight.log, ¬entry.2.type = rtHandshake := by
    intro entry mem type
    obtain ⟨_, _, _, _, _, _, _, _, success, _⟩ := underKey entry mem type
    cases success
  have nothing : payloadBytes x.flight.log = [] := payloadBytes_of_unread unread
  have arrived := congrArg List.length ran.arrived
  simp only [nothing, length_nil, length_append, Flight13.toFinished,
    HsMessage.length_encode] at arrived
  omega

end CupidOs.Tls
