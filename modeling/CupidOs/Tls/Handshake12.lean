import CupidOs.Tls.Context

/-!
# The TLS 1.2 handshake

`kernel/tls/tls12_handshake.c`: the driver that runs after a ServerHello that has
selected a suite of TLS 1.2.
-/

namespace CupidOs.Tls

open Bytes Crypto Transition X509

/-- `HS_T_CERTIFICATE`. -/
def hsCertificate : UInt8 := 11

/-- `HS_T_SERVER_KEY_EXCHANGE`. -/
def hsServerKeyExchange : UInt8 := 12

/-- `HS_T_SERVER_HELLO_DONE`. -/
def hsServerHelloDone : UInt8 := 14

/-- `HS_T_CLIENT_KEY_EXCHANGE`. -/
def hsClientKeyExchange : UInt8 := 16

/-- `HS_T_FINISHED`. -/
def hsFinished : UInt8 := 20

/-- `master_secret` and `key_block` of the driver. -/
structure Secrets12 where
  master : List UInt8
  keyBlock : List UInt8

variable (cs : Option CipherSuite)

/-- Whether a suite uses AES-128-GCM, as `cs12_key_len` and its siblings test. -/
def isAes12 : Bool :=
  cs = some .ecdheRsaAes128Gcm ∨ cs = some .ecdheEcdsaAes128Gcm

/-- `cs12_key_len`. -/
def cs12KeyLen : Nat := if isAes12 cs then 16 else 32

/-- `cs12_iv_len`. -/
def cs12IvLen : Nat := if isAes12 cs then 4 else 12

/-- `cs12_aead_alg`. -/
def cs12AeadAlg : AeadAlg :=
  if isAes12 cs then .aes128Gcm else .chacha20Poly1305

section Model

variable {Point : Type} (backend : Backend Point)

variable (ctx : TlsCtx)

/-- `hs12_read_msg` on a context and a buffer. -/
def hs12Read (buf : List UInt8) (doFold : Bool) :
    Except HandshakeError (HsMessage × TlsCtx × List UInt8) := do
  let (message, talk) ← (hs12ReadMsg (recordSource backend.aeads) msgBufSize doFold
    (ctx.talk buf)).mapError .tls
  return (message, ctx.heard talk, talk.carry)

/-- `ingest_certificates`. -/
def ingestCertificates (body : List UInt8) : Except TlsError TlsCtx := do
  require (3 ≤ body.length) .parse
  require ((body.drop 3).length = decodeBE (body.take 3)) .parse
  let chain ← certificateLoop backend (fun bytes => .ok bytes) body.length 0 ctx.chain (body.drop 3)
  require (chain.certs.length ≠ 0) .cert
  return { ctx with chain }

/-- `parse_server_kex`: the group and the public key of the server. -/
def parseServerKex (body : List UInt8) :
    Except TlsError (NamedGroup × List UInt8) := do
  require (4 ≤ body.length) .parse
  require (body.headD 0 = 3) .protocol
  let group ← orElse (NamedGroup.ofCode (decodeBE ((body.drop 1).take 2))) .protocol
  let pubLen := ((body.drop 3).headD 0).toNat
  require (pubLen ≤ (body.drop 4).length) .parse
  require (pubLen = group.shareLen) .protocol
  let pub := (body.drop 4).take pubLen
  require (group = .secp256r1 → pub.headD 0 = 4) .protocol
  let signed := body.drop (4 + pubLen)
  require (4 ≤ signed.length) .parse
  let sig := signed.drop 4
  require (sig.length = decodeBE ((signed.drop 2).take 2)) .parse
  let scheme ← orElse (SigScheme.ofCode [.rsaPssSha256, .rsaPkcs1Sha256, .ecdsaP256Sha256]
      (decodeBE (signed.take 2))) .badSignature
  let content := ctx.clientRandom.toList ++ ctx.serverRandom.toList ++ body.take (4 + pubLen)
  require (verifyWith backend scheme (leafKey ctx.chain) sig (backend.sha256 content)) .badSignature
  return (group, pub)

/-- The ClientKeyExchange of `send_client_kex`. -/
def clientKex : HsMessage :=
  let pub :=
    match ctx.selectedGroup with
    | some .x25519 => ctx.clientPub.toList
    | _ => ctx.p256Pub.toList
  ⟨hsClientKeyExchange, UInt8.ofNat pub.length :: pub⟩

/-- `send_client_kex`. -/
def sendClientKex : Except HandshakeError TlsCtx :=
  sendOrFail backend (thUpdate ctx (clientKex ctx).encode) rtHandshake (clientKex ctx).encode

/-- Steps 7 and 8 of the driver. -/
def deriveSecrets12 : Secrets12 :=
  let master := tls12Prf backend.sha256 ctx.ecdheShared.toList "master secret"
    (ctx.clientRandom.toList ++ ctx.serverRandom.toList) 48
  let kbLen := 2 * cs12KeyLen ctx.selectedCipher + 2 * cs12IvLen ctx.selectedCipher
  ⟨master, tls12Prf backend.sha256 master "key expansion"
    (ctx.serverRandom.toList ++ ctx.clientRandom.toList) kbLen⟩

variable (secrets : Secrets12)

/-- Step 11: the client's half of the key block, whose IV is padded to twelve bytes. -/
def installSend12 : TlsCtx :=
  let kl := cs12KeyLen ctx.selectedCipher
  let il := cs12IvLen ctx.selectedCipher
  let iv := vectorOf 12 ((secrets.keyBlock.drop (2 * kl)).take il)
  { ctx with layer := tlsRecordSetSendKey ctx.layer (secrets.keyBlock.take kl) iv }

/-- Step 14: the server's half. -/
def installRecv12 : TlsCtx :=
  let kl := cs12KeyLen ctx.selectedCipher
  let il := cs12IvLen ctx.selectedCipher
  let iv := vectorOf 12 ((secrets.keyBlock.drop (2 * kl + il)).take il)
  { ctx with layer := tlsRecordSetRecvKey ctx.layer ((secrets.keyBlock.drop kl).take kl) iv }

/-- A Finished message of TLS 1.2 over the transcript so far. -/
def finished12 (label : String) : HsMessage :=
  ⟨hsFinished, tls12Prf backend.sha256 secrets.master label (thSnapshot backend ctx).toList 12⟩

/-- The server's flight, with its public key and what is left in the buffer. -/
def recvFlight12 : Except HandshakeError (List UInt8 × TlsCtx × List UInt8) := do
  let (certificate, ctx, buf) ← hs12Read backend ctx [] true
  require (certificate.type = hsCertificate) (.tls .protocol)
  let ctx ← (ingestCertificates backend ctx certificate.body).mapError .tls
  let (kex, ctx, buf) ← hs12Read backend ctx buf true
  require (kex.type = hsServerKeyExchange) (.tls .protocol)
  let (group, pub) ← (parseServerKex backend ctx kex.body).mapError .tls
  let ctx := { ctx with selectedGroup := some group }
  (x509ChainVerify backend.toPrimitives backend.caBundle ctx.chain ctx.hostname
    ctx.nowEpoch).mapError .x509
  let (done, ctx, buf) ← hs12Read backend ctx buf true
  require (done.type = hsServerHelloDone ∧ done.body.length = 0) (.tls .protocol)
  return (pub, ctx, buf)

/-- Steps 5 to 12: the client's flight. -/
def sendFlight12 (pub : List UInt8) :
    Except HandshakeError (Secrets12 × TlsCtx) := do
  let ecdheShared ← (computeEcdhe backend ctx pub).mapError .tls
  let ctx ← sendClientKex backend { ctx with ecdheShared }
  let secrets := deriveSecrets12 backend ctx
  let layer := tlsRecordSetTls12 (tlsRecordSetAead ctx.layer (cs12AeadAlg ctx.selectedCipher))
  let ctx ← sendOrFail backend { ctx with layer } rtChangeCipherSpec [0x01]
  let ctx := installSend12 ctx secrets
  let finished := finished12 backend ctx secrets "client finished"
  let ctx ← sendOrFail backend (thUpdate ctx finished.encode) rtHandshake finished.encode
  return (secrets, ctx)

/-- Steps 13 to 15: the server's ChangeCipherSpec and Finished. -/
def recvFinished12 (buf : List UInt8) :
    Except HandshakeError TlsCtx := do
  let (change, ctx) ← recvRecord backend ctx 16
  require (change.type = rtChangeCipherSpec) (.tls .protocol)
  let ctx := installRecv12 ctx secrets
  let (finished, ctx, _) ← hs12Read backend ctx buf false
  require (finished.type = hsFinished ∧ finished.body.length = 12) (.tls .protocol)
  require ((finished12 backend ctx secrets "server finished").body = finished.body)
    (.tls .finishedMac)
  return thUpdate ctx finished.encode

/-- `tls12_handshake_client`. -/
def tls12HandshakeClient : Except HandshakeError TlsCtx := do
  let (pub, ctx, buf) ← recvFlight12 backend ctx
  let (secrets, ctx) ← sendFlight12 backend ctx pub
  recvFinished12 backend ctx secrets buf

end Model

end CupidOs.Tls
