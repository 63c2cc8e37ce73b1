import CupidOs.Tls.Kdf
import CupidOs.Tls.Reader
import CupidOs.Transition.Fallible
import CupidOs.X509.Chain

/-!
# The state of a handshake

`kernel/tls/tls_ctx.h` and what the drivers of TLS 1.2 and TLS 1.3 share: the negotiated
parameters, the signature of the leaf certificate, the certificate lists and the ECDHE secret.
Hash functions, signature checks and curve arithmetic are parameters.
-/

namespace CupidOs.Tls

open Bytes Crypto Transition X509
open List hiding Vector

/-- The cipher suites of the ClientHello. -/
inductive CipherSuite
  | aes128GcmSha256
  | chacha20Poly1305Sha256
  | ecdheRsaAes128Gcm
  | ecdheEcdsaAes128Gcm
  | ecdheRsaChacha20
  | ecdheEcdsaChacha20
  deriving DecidableEq

namespace CipherSuite

/-- `CIPHER_TLS13_*` and `CS12_*`. -/
def code : CipherSuite → Nat
  | aes128GcmSha256 => 0x1301
  | chacha20Poly1305Sha256 => 0x1303
  | ecdheRsaAes128Gcm => 0xC02F
  | ecdheEcdsaAes128Gcm => 0xC02B
  | ecdheRsaChacha20 => 0xCCA8
  | ecdheEcdsaChacha20 => 0xCCA9

/-- The suites in the order in which they are offered. -/
def offered : List CipherSuite :=
  [aes128GcmSha256, chacha20Poly1305Sha256, ecdheRsaAes128Gcm, ecdheEcdsaAes128Gcm,
    ecdheRsaChacha20, ecdheEcdsaChacha20]

/-- The suite of a code. -/
def ofCode (code : Nat) : Option CipherSuite := offered.find? fun suite => suite.code = code

/-- Whether a suite is one of TLS 1.3. -/
def isTls13 (suite : CipherSuite) : Bool :=
  suite = aes128GcmSha256 ∨ suite = chacha20Poly1305Sha256

end CipherSuite

/-- The groups of the ClientHello. -/
inductive NamedGroup
  | x25519
  | secp256r1
  deriving DecidableEq

namespace NamedGroup

/-- `NAMED_GROUP_*`. -/
def code : NamedGroup → Nat
  | x25519 => 0x001D
  | secp256r1 => 0x0017

/-- The group of a code. -/
def ofCode (code : Nat) : Option NamedGroup :=
  [x25519, secp256r1].find? fun group => group.code = code

/-- The size of a public key. -/
def shareLen : NamedGroup → Nat
  | x25519 => 32
  | secp256r1 => 65

lemma code_of_ofCode {code : Nat} {group : NamedGroup} (found : ofCode code = some group) :
    group.code = code := by
  have matched := find?_some found
  exact of_decide_eq_true matched

end NamedGroup

/-- The signature schemes that a handshake signature is checked with. -/
inductive SigScheme
  | rsaPssSha256
  | rsaPkcs1Sha256
  | ecdsaP256Sha256
  deriving DecidableEq

namespace SigScheme

/-- `SIGSCHEME_*` and `SIG12_*`. -/
def code : SigScheme → Nat
  | rsaPssSha256 => 0x0804
  | rsaPkcs1Sha256 => 0x0401
  | ecdsaP256Sha256 => 0x0403

/-- The scheme of a code among some schemes. -/
def ofCode (schemes : List SigScheme) (code : Nat) : Option SigScheme :=
  schemes.find? fun scheme => scheme.code = code

lemma code_of_ofCode {schemes : List SigScheme} {code : Nat} {scheme : SigScheme}
    (found : ofCode schemes code = some scheme) : scheme.code = code := by
  have matched := find?_some found
  exact of_decide_eq_true matched

end SigScheme

/-- The functions of other modules; `p256Ecdh` is the sequence `p256_scalar_from_be`,
`p256_scalar_mul_point`, `p256_jac_to_affine` and `p256_fe_to_be` with its checks. -/
structure Backend (Point : Type) extends Primitives Point where
  aeads : AeadAlg → Aead
  x25519 : (priv : Vector UInt8 32) → (point : List UInt8) → Vector UInt8 32
  p256Ecdh : (priv : Vector UInt8 32) → (peer : Point) → Option (Vector UInt8 32)
  caBundle : List (List UInt8)

/-- What a driver returns on failure: one of the `TLS_ERR_*` or `X509_ERR_*`. -/
inductive HandshakeError
  | tls (error : TlsError)
  | x509 (error : X509Error)
  deriving DecidableEq

/-- The part of `tls_ctx_t` that the drivers read or later calls depend on; the transcript is what
was hashed. -/
structure TlsCtx where
  layer : RecordState
  selectedCipher : Option CipherSuite
  selectedGroup : Option NamedGroup
  clientPriv : Vector UInt8 32
  clientPub : Vector UInt8 32
  ecdheShared : Vector UInt8 32
  p256Priv : Vector UInt8 32
  p256Pub : Vector UInt8 65
  clientRandom : Vector UInt8 32
  serverRandom : Vector UInt8 32
  transcript : List UInt8
  handshakeSecret : List UInt8
  cHsTraffic : List UInt8
  sHsTraffic : List UInt8
  chain : Chain
  hostname : List UInt8
  nowEpoch : UInt64

/-- Bytes as a buffer, with zeros behind them. -/
def vectorOf (size : Nat) (bytes : List UInt8) : Vector UInt8 size :=
  Vector.ofFn fun index => bytes.getD index 0

/-- `th_update`. -/
def thUpdate (ctx : TlsCtx) (bytes : List UInt8) : TlsCtx :=
  { ctx with transcript := ctx.transcript ++ bytes }

/-- `sizeof(msg_buf)` of both drivers. -/
def msgBufSize : Nat := 20480

section Model

variable {Point : Type} (backend : Backend Point)

/-- `th_snapshot` and `th_snap`. -/
def thSnapshot (ctx : TlsCtx) : Vector UInt8 32 := backend.sha256 ctx.transcript

/-- `tls_record_send` on a context; the data is not folded into the transcript. -/
def sendRecord (ctx : TlsCtx) (type : UInt8) (data : List UInt8) : Bool × TlsCtx :=
  let (sent, layer) := tlsRecordSend backend.aeads ctx.layer type data
  (sent, { ctx with layer })

/-- A send whose failure ends the handshake. -/
def sendOrFail (ctx : TlsCtx) (type : UInt8) (data : List UInt8) : Except HandshakeError TlsCtx :=
  match sendRecord backend ctx type data with
  | (true, ctx) => .ok ctx
  | (false, _) => .error (.tls .transport)

/-- `tls_record_recv` on a context, where any failure is one of the transport. -/
def recvRecord (ctx : TlsCtx) (bufMax : Nat) : Except HandshakeError (Record × TlsCtx) :=
  match tlsRecordRecv backend.aeads ctx.layer bufMax with
  | (.ok record, layer) => .ok (record, { ctx with layer })
  | (.error _, _) => .error (.tls .transport)

/-- What a context and a reassembly buffer are to a reader. -/
def TlsCtx.talk (ctx : TlsCtx) (carry : List UInt8) : Conversation RecordState :=
  ⟨ctx.layer, carry, ctx.transcript⟩

/-- A context after a reader. -/
def TlsCtx.heard (ctx : TlsCtx) (talk : Conversation RecordState) : TlsCtx :=
  { ctx with layer := talk.layer, transcript := talk.transcript }

/-- `ctx->chain.certs[0].pubkey`; an absent certificate is one of zeros. -/
def leafKey (chain : Chain) : PubKey := (chain.certs.head?.map Cert.pubkey).getD .none

/-- The check of a handshake signature in `parse_cert_verify` and `parse_server_kex`. -/
def verifyWith (scheme : SigScheme) (pk : PubKey) (sig : List UInt8) (hash : Vector UInt8 32) :
    Bool :=
  match scheme, pk with
  | .rsaPssSha256, .rsa modulus exponent =>
    backend.rsaPssVerifySha256 modulus exponent sig hash 32
  | .rsaPkcs1Sha256, .rsa modulus exponent =>
    backend.rsaPkcs1v15VerifySha256 modulus exponent sig hash
  | .ecdsaP256Sha256, .ecP256 point =>
    match backend.p256PubFromUncompressed point, readEcdsaSig sig with
    | some pub, some (r, s) => backend.ecdsaP256Verify pub hash r s
    | _, _ => false
  | _, _ => false

/-- `TLS_CTX_CERT_BUF`. -/
def certBufSize : Nat := 16384

/-- The loop over a certificate list; `skip` steps over what follows a certificate. -/
def certificateLoop (skip : List UInt8 → Except TlsError (List UInt8)) :
    Nat → Nat → Chain → List UInt8 → Except TlsError Chain
  | 0, _, chain, _ => .ok chain
  | rounds + 1, used, chain, bytes =>
    if bytes = [] then
      .ok chain
    else do
      require (3 ≤ bytes.length) .parse
      let certLen := decodeBE (bytes.take 3)
      let bytes := bytes.drop 3
      require (certLen ≤ bytes.length) .parse
      require (used + certLen ≤ certBufSize) .oom
      let chain ← (x509ChainAdd backend.toPrimitives chain (bytes.take certLen)).mapError
        fun _ => .cert
      let bytes ← skip (bytes.drop certLen)
      certificateLoop skip rounds (used + certLen) chain bytes

/-- `compute_ecdhe`, and the third step of `tls_handshake_client`. -/
def computeEcdhe (ctx : TlsCtx) (serverPub : List UInt8) : Except TlsError (Vector UInt8 32) := do
  let shared ←
    match ctx.selectedGroup with
    | some .x25519 => do
        require (serverPub.length = 32) .protocol
        pure (backend.x25519 ctx.clientPriv serverPub)
    | some .secp256r1 => do
        require (serverPub.length = 65) .protocol
        let peer ← orElse (backend.p256PubFromUncompressed serverPub) .protocol
        orElse (backend.p256Ecdh ctx.p256Priv peer) .protocol
    | none => .error .protocol
  require (shared.toList.any (· ≠ 0)) .protocol
  return shared

end Model

/-! ## Certificate lists -/

section

variable {Point : Type} {backend : Backend Point}

/-- An entry of a certificate list: the certificate and what follows it. -/
def encodeEntry (entry : List UInt8 × List UInt8) : List UInt8 :=
  encodeBE 3 entry.1.length ++ entry.1 ++ entry.2

/-- A certificate list with its length. -/
def certificateList (entries : List (List UInt8 × List UInt8)) : List UInt8 :=
  encodeBE 3 (entries.flatMap encodeEntry).length ++ entries.flatMap encodeEntry

/-- The certificates are the parsed entries. -/
def Parsed (backend : Backend Point) (entries : List (List UInt8 × List UInt8))
    (certs : List Cert) : Prop :=
  List.Forall₂ (fun entry cert => backend.x509Parse entry.1 = some cert) entries certs

lemma x509ChainAdd_eq_ok {primitives : Primitives Point} {chain after : Chain}
    {der : List UInt8} (added : x509ChainAdd primitives chain der = .ok after) :
    ∃ cert, primitives.x509Parse der = some cert ∧ after.certs = chain.certs ++ [cert] := by
  rw [x509ChainAdd] at added
  split at added
  · cases added
  split at added
  · cases added
  rename_i cert parsed
  cases added
  exact ⟨cert, parsed, rfl⟩

variable {bytes : List UInt8}

lemma encodeBE_of_decodeBE {width value : Nat}
    (length : bytes.length = width) (decoded : decodeBE bytes = value) :
    encodeBE width value = bytes := by
  rw [← length, ← decoded, encodeBE_decodeBE]

lemma take_drop_encodeBE {width : Nat} (long : width ≤ bytes.length) :
    bytes = encodeBE width (decodeBE (bytes.take width)) ++ bytes.drop width := by
  rw [encodeBE_of_decodeBE (length_take_of_le long) rfl, take_append_drop]

/-- The loop appends the certificates of the list to the chain. -/
theorem certificateLoop_eq_ok {skip : List UInt8 → Except TlsError (List UInt8)}
    (Trailer : List UInt8 → Prop)
    (skips : ∀ {bytes rest}, skip bytes = .ok rest → ∃ trailer, Trailer trailer ∧
      bytes = trailer ++ rest)
    {rounds used : Nat} {chain after : Chain}
    (enough : bytes.length ≤ rounds)
    (looped : certificateLoop backend skip rounds used chain bytes = .ok after) :
    ∃ entries certs, bytes = entries.flatMap encodeEntry ∧
      (∀ entry ∈ entries, Trailer entry.2) ∧ Parsed backend entries certs ∧
      after.certs = chain.certs ++ certs := by
  induction rounds generalizing used chain bytes with
  | zero =>
    cases looped
    exact ⟨[], [], eq_nil_of_length_eq_zero (Nat.le_zero.mp enough), nofun, .nil, by simp⟩
  | succ rounds ih =>
    rw [certificateLoop] at looped
    split at looped
    · rename_i empty
      cases looped
      exact ⟨[], [], empty, nofun, .nil, by simp⟩
    simp only [bind_eq_ok, require_eq_ok, mapError_eq_ok] at looped
    obtain ⟨-, lengthFits, -, certFits, -, -, next, added, rest, skipped, later⟩ := looped
    obtain ⟨cert, parsed, grown⟩ := x509ChainAdd_eq_ok added
    obtain ⟨trailer, isTrailer, trailerEq⟩ := skips skipped
    have shorter : rest.length ≤ rounds := by
      have lengths := congrArg List.length trailerEq
      simp only [length_drop, length_append] at lengths
      omega
    obtain ⟨entries, certs, bytesEq, trailers, parsedRest, chainEq⟩ := ih shorter later
    refine ⟨((bytes.drop 3).take (decodeBE (bytes.take 3)), trailer) :: entries,
      cert :: certs, ?_, ?_, .cons parsed parsedRest, ?_⟩
    · rw [flatMap_cons, encodeEntry, length_take_of_le certFits, append_assoc,
        append_assoc, ← bytesEq, ← trailerEq, take_append_drop]
      exact take_drop_encodeBE lengthFits
    · intro entry mem
      rcases mem_cons.mp mem with rfl | mem
      · exact isTrailer
      · exact trailers entry mem
    · rw [chainEq, grown, append_assoc]
      rfl

end

end CupidOs.Tls
