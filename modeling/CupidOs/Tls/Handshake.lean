import CupidOs.Tls.Handshake12

/-!
# The TLS 1.3 handshake

`kernel/tls/tls_handshake.c`: the ClientHello, the ServerHello, the key schedule and
the driver, which hands over to the driver of TLS 1.2 when the server has selected
one of its suites.
-/

namespace CupidOs.Tls

open Bytes Crypto Transition X509

/-- `HS_TYPE_CLIENT_HELLO`. -/
def hsClientHello : UInt8 := 1

/-- `HS_TYPE_SERVER_HELLO`. -/
def hsServerHello : UInt8 := 2

/-- `HS_TYPE_ENCRYPTED_EXTS`. -/
def hsEncryptedExtensions : UInt8 := 8

/-- `HS_TYPE_CERT_VERIFY`. -/
def hsCertVerify : UInt8 := 15

/-! ## ClientHello -/

/-- `wbe16` for each number. -/
def wbe16s (values : List Nat) : List UInt8 := values.flatMap (encodeBE 2)

/-- The extensions of `build_client_hello`. -/
def clientExtensions (ctx : TlsCtx) : List UInt8 :=
  let hl := ctx.hostname.length
  -- server_name
  (wbe16s [0x0000, hl + 5, hl + 3] ++ [0] ++ encodeBE 2 hl ++ ctx.hostname) ++
  -- supported_versions
  (wbe16s [0x002B, 5] ++ [4, 0x03, 0x04, 0x03, 0x03]) ++
  -- ec_point_formats
  (wbe16s [0x000B, 2] ++ [1, 0]) ++
  -- extended_master_secret
  wbe16s [0x0017, 0] ++
  -- supported_groups
  wbe16s [0x000A, 6, 4, NamedGroup.x25519.code, NamedGroup.secp256r1.code] ++
  -- signature_algorithms
  wbe16s [0x000D, 6, 4, 0x0804, 0x0403] ++
  -- signature_algorithms_cert
  wbe16s [0x0032, 22, 20, 0x0804, 0x0805, 0x0806, 0x0403, 0x0503, 0x0603, 0x0401, 0x0501, 0x0601,
    0x0807] ++
  -- psk_key_exchange_modes
  (wbe16s [0x002D, 2] ++ [1, 1]) ++
  -- key_share
  (wbe16s [0x0033, 2 + (4 + 32 + (4 + 65)), 4 + 32 + (4 + 65)] ++
    (wbe16s [NamedGroup.x25519.code, 32] ++ ctx.clientPub.toList) ++
    (wbe16s [NamedGroup.secp256r1.code, 65] ++ ctx.p256Pub.toList))

/-- `build_client_hello` into a buffer of `cap` bytes; `sid` is what
`crypto_random_bytes` returns. -/
def buildClientHello (ctx : TlsCtx) (sid : Vector UInt8 32) (cap : Nat) : Option HsMessage :=
  if cap < 384 + ctx.hostname.length then
    none
  else
    some ⟨hsClientHello, [0x03, 0x03] ++ ctx.clientRandom.toList ++ [32] ++ sid.toList ++
        encodeBE 2 12 ++ wbe16s (CipherSuite.offered.map CipherSuite.code) ++ [1, 0] ++
        encodeBE 2 (clientExtensions ctx).length ++ clientExtensions ctx⟩

/-! ## ServerHello -/

/-- What `parse_server_hello` has found; the share is `server_pub` with its group. -/
structure ServerHello where
  random : Vector UInt8 32
  cipher : CipherSuite
  share : Option (NamedGroup × List UInt8)

/-- The extensions that `parse_server_hello` looks at: `got_ver`, and the last share. -/
abbrev HelloExtensions := Bool × Option (NamedGroup × List UInt8)

/-- One extension of the ServerHello. -/
def takeExtension (type : Nat) (body : List UInt8) (acc : HelloExtensions) :
    Except TlsError HelloExtensions :=
  if type = 0x002B then do
    require (body.length = 2) .protocol
    require (body = [0x03, 0x04]) .protocol
    return (true, acc.2)
  else if type = 0x0033 then do
    require (4 ≤ body.length) .protocol
    let group ← orElse (NamedGroup.ofCode (decodeBE (body.take 2))) .protocol
    let kl := decodeBE ((body.drop 2).take 2)
    require (kl = group.shareLen) .protocol
    require (4 + kl = body.length) .protocol
    return (acc.1, some (group, (body.drop 4).take kl))
  else
    return acc

/-- The loop of `parse_server_hello`, which takes at least four bytes in a round. -/
def parseExtensions : Nat → List UInt8 → HelloExtensions → Except TlsError HelloExtensions
  | 0, _, acc => .ok acc
  | rounds + 1, bytes, acc =>
    if bytes = [] then
      .ok acc
    else do
      require (4 ≤ bytes.length) .protocol
      let type := decodeBE (bytes.take 2)
      let el := decodeBE ((bytes.drop 2).take 2)
      let bytes := bytes.drop 4
      require (el ≤ bytes.length) .protocol
      let acc ← takeExtension type (bytes.take el) acc
      parseExtensions rounds (bytes.drop el) acc

/-- `parse_server_hello`. -/
def parseServerHello (body : List UInt8) : Except TlsError ServerHello := do
  require (2 + 32 + 1 ≤ body.length) .protocol
  require (body.take 2 = [0x03, 0x03]) .protocol
  let random := vectorOf 32 (body.drop 2)
  let sidLen := ((body.drop 34).headD 0).toNat
  require (sidLen ≤ 32) .protocol
  let rest := body.drop 35
  require (sidLen + 3 ≤ rest.length) .protocol
  let rest := rest.drop sidLen
  let cipher ← orElse (CipherSuite.ofCode (decodeBE (rest.take 2))) .protocol
  require ((rest.drop 2).headD 0 = 0) .protocol
  let rest := rest.drop 3
  require (2 ≤ rest.length) .protocol
  let extTotal := decodeBE (rest.take 2)
  let rest := rest.drop 2
  require (extTotal ≤ rest.length) .protocol
  let (gotVer, share) ← parseExtensions extTotal (rest.take extTotal) (false, none)
  require (cipher.isTls13 → gotVer ∧ share.isSome) .protocol
  return ⟨random, cipher, share⟩

/-- What `parse_server_hello` writes into the context. -/
def TlsCtx.withHello (ctx : TlsCtx) (hello : ServerHello) : TlsCtx :=
  { ctx with
    serverRandom := hello.random
    selectedCipher := some hello.cipher
    selectedGroup := (hello.share.map Prod.fst).or ctx.selectedGroup }

/-- `server_pub`, which stays empty without a share. -/
def ServerHello.pub (hello : ServerHello) : List UInt8 := (hello.share.map Prod.snd).getD []

/-- `cipher_key_len`. -/
def cipherKeyLen (cs : Option CipherSuite) : Nat := if cs = some .aes128GcmSha256 then 16 else 32

section Model

variable {Point : Type} (backend : Backend Point)

/-- `parse_certificate` steps over the extensions of an entry. -/
def skipEntryExtensions (bytes : List UInt8) : Except TlsError (List UInt8) := do
  require (2 ≤ bytes.length) .parse
  require (decodeBE (bytes.take 2) ≤ (bytes.drop 2).length) .parse
  return (bytes.drop 2).drop (decodeBE (bytes.take 2))

/-- `parse_certificate`. -/
def parseCertificate (ctx : TlsCtx) (body : List UInt8) : Except TlsError TlsCtx := do
  require (1 ≤ body.length) .parse
  let ctxLen := (body.headD 0).toNat
  require (ctxLen + 3 ≤ (body.drop 1).length) .parse
  let rest := body.drop (1 + ctxLen)
  let listLen := decodeBE (rest.take 3)
  require (listLen ≤ (rest.drop 3).length) .parse
  let chain ← certificateLoop backend skipEntryExtensions listLen 0 ctx.chain
    ((rest.drop 3).take listLen)
  require (chain.certs.length ≠ 0) .cert
  return { ctx with chain }

/-- The signed content of `parse_cert_verify`. -/
def certVerifyContent (hash : Vector UInt8 32) : List UInt8 :=
  List.replicate 64 0x20 ++ ascii "TLS 1.3, server CertificateVerify" ++ [0x00] ++ hash.toList

/-- `parse_cert_verify`, where `hash` is `th_before_cert_verify`. -/
def parseCertVerify (ctx : TlsCtx) (hash : Vector UInt8 32) (body : List UInt8) :
    Except TlsError Unit := do
  require (4 ≤ body.length) .parse
  require (body.length = 4 + decodeBE ((body.drop 2).take 2)) .parse
  let scheme ← orElse
    (SigScheme.ofCode [.rsaPssSha256, .ecdsaP256Sha256] (decodeBE (body.take 2))) .badSignature
  require (verifyWith backend scheme (leafKey ctx.chain) (body.drop 4)
    (backend.sha256 (certVerifyContent hash))) .badSignature

/-- The MAC of a Finished message. -/
def finishedMac (trafficSecret : List UInt8) (hash : Vector UInt8 32) : List UInt8 :=
  hmacSha256 backend.sha256 (tlsKdfFinishedKey backend.sha256 trafficSecret) hash.toList

/-- `verify_server_finished`, where `hash` is `th_before_server_finished`. -/
def verifyServerFinished (ctx : TlsCtx) (hash : Vector UInt8 32) (body : List UInt8) :
    Except TlsError Unit := do
  require (body.length = 32) .parse
  require (finishedMac backend ctx.sHsTraffic hash = body) .finishedMac

/-- `send_client_finished`. -/
def sendClientFinished (ctx : TlsCtx) (hash : Vector UInt8 32) : Except HandshakeError TlsCtx :=
  let finished : HsMessage := ⟨hsFinished, finishedMac backend ctx.cHsTraffic hash⟩
  sendOrFail backend (thUpdate ctx finished.encode) rtHandshake finished.encode

/-- `compute_handshake_secrets`. -/
def computeHandshakeSecrets (ctx : TlsCtx) : TlsCtx :=
  let zeros := List.replicate 32 0
  let early := hkdfExtract backend.sha256 zeros zeros
  let derived := tlsKdfDeriveSecret backend.sha256 early "derived" (backend.sha256 []).toList
  let handshakeSecret := hkdfExtract backend.sha256 derived ctx.ecdheShared.toList
  let hash := (thSnapshot backend ctx).toList
  { ctx with
    handshakeSecret
    cHsTraffic := tlsKdfDeriveSecret backend.sha256 handshakeSecret "c hs traffic" hash
    sHsTraffic := tlsKdfDeriveSecret backend.sha256 handshakeSecret "s hs traffic" hash }

/-- `compute_application_secrets` of client and server; `hash` is `th_after_server_finished`. -/
def computeApplicationSecrets (ctx : TlsCtx) (hash : Vector UInt8 32) : List UInt8 × List UInt8 :=
  let derived := tlsKdfDeriveSecret backend.sha256 ctx.handshakeSecret "derived"
    (backend.sha256 []).toList
  let master := hkdfExtract backend.sha256 derived (List.replicate 32 0)
  (tlsKdfDeriveSecret backend.sha256 master "c ap traffic" hash.toList,
    tlsKdfDeriveSecret backend.sha256 master "s ap traffic" hash.toList)

/-- Install the keys of a traffic secret for receiving. -/
def installRecv (ctx : TlsCtx) (trafficSecret : List UInt8) : TlsCtx :=
  let (key, iv) := tlsKdfTrafficKeys backend.sha256 trafficSecret (cipherKeyLen ctx.selectedCipher)
  { ctx with layer := tlsRecordSetRecvKey ctx.layer key (vectorOf 12 iv) }

/-- Install the keys of a traffic secret for sending. -/
def installSend (ctx : TlsCtx) (trafficSecret : List UInt8) : TlsCtx :=
  let (key, iv) := tlsKdfTrafficKeys backend.sha256 trafficSecret (cipherKeyLen ctx.selectedCipher)
  { ctx with layer := tlsRecordSetSendKey ctx.layer key (vectorOf 12 iv) }

/-- `install_handshake_keys`. -/
def installHandshakeKeys (ctx : TlsCtx) : TlsCtx := installRecv backend ctx ctx.sHsTraffic

/-- `install_client_handshake_send_key`. -/
def installClientHandshakeSendKey (ctx : TlsCtx) : TlsCtx := installSend backend ctx ctx.cHsTraffic

/-- `install_application_keys`. -/
def installApplicationKeys (ctx : TlsCtx) (secrets : List UInt8 × List UInt8) : TlsCtx :=
  installSend backend (installRecv backend ctx secrets.2) secrets.1

/-! ## The driver -/

/-- Step 1: the ClientHello and a ChangeCipherSpec whose failure is ignored. -/
def sendClientHello (ctx : TlsCtx) (sid : Vector UInt8 32) : Except HandshakeError TlsCtx := do
  let hello ← orElse (buildClientHello ctx sid 1024) (.tls .oom)
  let ctx ← sendOrFail backend (thUpdate ctx hello.encode) rtHandshake hello.encode
  return (sendRecord backend ctx rtChangeCipherSpec [0x01]).2

/-- Step 2: the ServerHello, which is one whole record. -/
def recvServerHello (ctx : TlsCtx) : Except HandshakeError (ServerHello × TlsCtx) := do
  let (record, ctx) ← recvRecord backend ctx recMaxPlaintext
  require (record.type ≠ rtAlert) (.tls .protocol)
  require (record.type = rtHandshake) (.tls .protocol)
  require (4 ≤ record.data.length) (.tls .protocol)
  require (record.data.headD 0 = hsServerHello) (.tls .protocol)
  require (decodeBE ((record.data.drop 1).take 3) + 4 = record.data.length) (.tls .protocol)
  let hello ← (parseServerHello (record.data.drop 4)).mapError .tls
  return (hello, thUpdate (ctx.withHello hello) record.data)

/-- Steps 3 and 4: the secret, and the key under which the server goes on. -/
def startEncryption (ctx : TlsCtx) (hello : ServerHello) : Except HandshakeError TlsCtx := do
  let alg := if ctx.selectedCipher = some .aes128GcmSha256 then AeadAlg.aes128Gcm
    else .chacha20Poly1305
  let ctx := { ctx with layer := tlsRecordSetAead ctx.layer alg }
  let ecdheShared ← (computeEcdhe backend ctx hello.pub).mapError .tls
  return installHandshakeKeys backend (computeHandshakeSecrets backend { ctx with ecdheShared })

/-- `hs_read_msg` for a message of a given type. -/
def readMessage (ctx : TlsCtx) (carry : List UInt8) (expected : UInt8) :
    Except HandshakeError (List UInt8 × TlsCtx × List UInt8) := do
  let (message, talk) ← (hsReadMsg (recordSource backend.aeads) msgBufSize
    (ctx.talk carry)).mapError .tls
  require (message.type = expected) (.tls .protocol)
  return (message.body, ctx.heard talk, talk.carry)

/-- Step 5: the encrypted messages of the server. -/
def recvFlight13 (ctx : TlsCtx) : Except HandshakeError TlsCtx := do
  let (_, ctx, carry) ← readMessage backend ctx [] hsEncryptedExtensions
  let (certificate, ctx, carry) ← readMessage backend ctx carry hsCertificate
  let ctx ← (parseCertificate backend ctx certificate).mapError .tls
  let beforeCertVerify := thSnapshot backend ctx
  let (certVerify, ctx, carry) ← readMessage backend ctx carry hsCertVerify
  (parseCertVerify backend ctx beforeCertVerify certVerify).mapError .tls
  (x509ChainVerify backend.toPrimitives backend.caBundle ctx.chain ctx.hostname
    ctx.nowEpoch).mapError .x509
  let beforeFinished := thSnapshot backend ctx
  let (finished, ctx, _) ← readMessage backend ctx carry hsFinished
  (verifyServerFinished backend ctx beforeFinished finished).mapError .tls
  return ctx

/-- Steps 6 and 7: the client's Finished message and the application keys. -/
def finishHandshake (ctx : TlsCtx) : Except HandshakeError TlsCtx := do
  let afterFinished := thSnapshot backend ctx
  let ctx ← sendClientFinished backend (installClientHandshakeSendKey backend ctx) afterFinished
  return installApplicationKeys backend ctx (computeApplicationSecrets backend ctx afterFinished)

/-- `tls_handshake_client`; `sid` is the random session id. -/
def tlsHandshakeClient (ctx : TlsCtx) (sid : Vector UInt8 32) : Except HandshakeError TlsCtx := do
  let ctx ← sendClientHello backend ctx sid
  let (hello, ctx) ← recvServerHello backend ctx
  if hello.cipher.isTls13 then
    let ctx ← startEncryption backend ctx hello
    let ctx ← recvFlight13 backend ctx
    finishHandshake backend ctx
  else
    tls12HandshakeClient backend ctx

end Model

end CupidOs.Tls
