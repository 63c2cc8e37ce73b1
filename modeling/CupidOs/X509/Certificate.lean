import CupidOs.X509.Chain
import CupidOs.X509.Cursor

/-!
# The certificate parser

`x509_parse` of `kernel/crypto/x509.c` and the parsers it calls, over cursors into the input. The
loops are given one round more than the input has bytes, and stop with `endless` if these are used
up.
-/

namespace CupidOs.X509.Spans

open Transition

/-! ## Identifiers -/

/-- `OID_RSA_ENCRYPTION` -/
def oidRsaEncryption : List UInt8 := [0x2A, 0x86, 0x48, 0x86, 0xF7, 0x0D, 0x01, 0x01, 0x01]

/-- `OID_SHA256_RSA` -/
def oidSha256Rsa : List UInt8 := [0x2A, 0x86, 0x48, 0x86, 0xF7, 0x0D, 0x01, 0x01, 0x0B]

/-- `OID_SHA384_RSA` -/
def oidSha384Rsa : List UInt8 := [0x2A, 0x86, 0x48, 0x86, 0xF7, 0x0D, 0x01, 0x01, 0x0C]

/-- `OID_SHA512_RSA` -/
def oidSha512Rsa : List UInt8 := [0x2A, 0x86, 0x48, 0x86, 0xF7, 0x0D, 0x01, 0x01, 0x0D]

/-- `OID_RSASSA_PSS` -/
def oidRsassaPss : List UInt8 := [0x2A, 0x86, 0x48, 0x86, 0xF7, 0x0D, 0x01, 0x01, 0x0A]

/-- `OID_EC_PUBLIC_KEY` -/
def oidEcPublicKey : List UInt8 := [0x2A, 0x86, 0x48, 0xCE, 0x3D, 0x02, 0x01]

/-- `OID_PRIME256V1` -/
def oidPrime256v1 : List UInt8 := [0x2A, 0x86, 0x48, 0xCE, 0x3D, 0x03, 0x01, 0x07]

/-- `OID_ECDSA_SHA256` -/
def oidEcdsaSha256 : List UInt8 := [0x2A, 0x86, 0x48, 0xCE, 0x3D, 0x04, 0x03, 0x02]

/-- `OID_CE_SAN` -/
def oidCeSan : List UInt8 := [0x55, 0x1D, 0x11]

/-- `OID_CE_BC` -/
def oidCeBc : List UInt8 := [0x55, 0x1D, 0x13]

/-- `OID_CE_KU`, `OID_CE_EKU`, `OID_CE_SKI`, `OID_CE_AKI`, `OID_CE_CRL`, `OID_CE_POL`,
`OID_PE_AIA` and `OID_CT_SCT`: the extensions that are recognised but not enforced. -/
def oidsUnenforced : List (List UInt8) :=
  [[0x55, 0x1D, 0x0F], [0x55, 0x1D, 0x25], [0x55, 0x1D, 0x0E], [0x55, 0x1D, 0x23],
    [0x55, 0x1D, 0x1F], [0x55, 0x1D, 0x20], [0x2B, 0x06, 0x01, 0x05, 0x05, 0x07, 0x01, 0x01],
    [0x2B, 0x06, 0x01, 0x04, 0x01, 0xD6, 0x79, 0x02, 0x04, 0x02]]

/-- `OID_AT_CN` -/
def oidAtCn : List UInt8 := [0x55, 0x04, 0x03]

/-- `ASN1_TAG_UTF8` -/
def asn1TagUtf8 : UInt8 := 0x0C

/-- `ASN1_TAG_PRINTABLE` -/
def asn1TagPrintable : UInt8 := 0x13

/-- `ASN1_TAG_IA5` -/
def asn1TagIa5 : UInt8 := 0x16

/-- `ASN1_TAG_SET` -/
def asn1TagSet : UInt8 := 0x31

/-- `ASN1_TAG_CTX0` -/
def asn1TagCtx0 : UInt8 := 0xA0

/-- `ASN1_TAG_CTX1` -/
def asn1TagCtx1 : UInt8 := 0xA1

/-- `ASN1_TAG_CTX2` -/
def asn1TagCtx2 : UInt8 := 0xA2

/-- `ASN1_TAG_CTX3` -/
def asn1TagCtx3 : UInt8 := 0xA3

/-- `X509_MAX_SAN_DNS` -/
def x509MaxSanDns : Nat := 128

/-! ## Certificates -/

/-- `X509_PK_*` -/
inductive PkType
  | none
  | rsa
  | ecP256
  deriving DecidableEq

/-- `x509_pubkey_t`, with `none` for spans that are not stored. -/
structure PubKeySpans where
  type : PkType
  rsa : Option (Span × Span)
  ec : Option Span
  deriving DecidableEq

/-- `x509_cert_t`, with `none` for spans that are not stored. -/
structure CertSpans where
  tbs : Span
  sig : Span
  issuer : Span
  subject : Span
  notBefore : UInt64
  notAfter : UInt64
  pubkey : PubKeySpans
  sigAlg : SigAlg
  san : List Span
  cn : Option Span
  version : UInt8
  isCa : Bool
  deriving DecidableEq

variable (der : List UInt8)

/-- A loop over the values at a cursor. -/
def whileRemaining {σ : Type} (cursor : σ → Cursor) (step : σ → Except Stop σ) (state : σ) :
    Except Stop σ :=
  repeatWhile (fun state => decide (asn1Remaining (cursor state) > 0)) step .endless
    (der.length + 1) state

/-- The loops that skip what is left. -/
def skipRest (c : Cursor) : Except Stop Unit := do
  let _ ← whileRemaining der id (asn1SkipAny der) c
  return ()

/-- A chain of comparisons with identifiers. -/
def matchOid {α : Type} (oid : Span) : List (List UInt8 × α) → α → Except Stop α
  | [], other => .ok other
  | (want, found) :: table, other => do
      if ← asn1OidEquals der oid want then return found else matchOid oid table other

/-- `parse_alg` -/
def parseAlg (parent : Cursor) : Except Stop (SigAlg × Cursor) := do
  let (alg, parent) ← orReturn (asn1Open der asn1TagSequence parent)
  let (oid, alg) ← asn1ReadOid der alg
  let sigAlg ← matchOid der oid [(oidSha256Rsa, .rsaPkcs1Sha256), (oidSha384Rsa, .rsaPkcs1Sha384),
      (oidSha512Rsa, .rsaPkcs1Sha512), (oidRsassaPss, .rsaPssSha256),
      (oidEcdsaSha256, .ecdsaP256Sha256)] .none
  skipRest der alg
  return (sigAlg, parent)

/-- The branch of `parse_spki` for RSA keys. -/
def parseRsaKey (spki alg : Cursor) : Except Stop PubKeySpans := do
  skipRest der alg
  let (bit, _) ← asn1ReadBitString der spki
  let (rsa, _) ← orReturn (asn1Open der asn1TagSequence (asn1Init bit))
  let (modulus, rsa) ← asn1ReadUint der rsa
  let (exponent, _) ← asn1ReadUint der rsa
  return { type := .rsa, rsa := some (modulus, exponent), ec := none }

/-- The branch of `parse_spki` for keys on elliptic curves. -/
def parseEcKey (spki alg : Cursor) : Except Stop PubKeySpans := do
  let (curveOid, alg) ← asn1ReadOid der alg
  skipRest der alg
  let (bit, _) ← asn1ReadBitString der spki
  if ← asn1OidEquals der curveOid oidPrime256v1 then
    require (bit.len = 65) .rejected
    let first ← byteAt der bit.start
    require (first = 0x04) .rejected
    return { type := .ecP256, rsa := none, ec := some bit }
  else
    return { type := .none, rsa := none, ec := some bit }

/-- The branch of `parse_spki` for other keys. -/
def parseOtherKey (spki alg : Cursor) : Except Stop PubKeySpans := do
  skipRest der alg
  let (_, _) ← asn1ReadBitString der spki
  return { type := .none, rsa := none, ec := none }

/-- `parse_spki` -/
def parseSpki (parent : Cursor) : Except Stop (PubKeySpans × Cursor) := do
  let (spki, parent) ← orReturn (asn1Open der asn1TagSequence parent)
  let (alg, spki) ← orReturn (asn1Open der asn1TagSequence spki)
  let (oid, alg) ← asn1ReadOid der alg
  let parse ← matchOid der oid
    [(oidRsaEncryption, parseRsaKey der), (oidEcPublicKey, parseEcKey der)] (parseOtherKey der)
  let key ← parse spki alg
  return (key, parent)

/-! ## Names -/

/-- Whether a reader succeeded. -/
def attempt {α : Type} (reader : Except Stop α) : Except Stop (Option α) :=
  match reader with
  | .ok value => .ok (some value)
  | .error .rejected => .ok none
  | .error stop => .error stop

/-- The variables of `scan_dn_for_cn`; `failed` is set where it returns. -/
structure Scan where
  cn : Option Span
  cursor : Cursor
  failed : Bool

/-- One attribute of a name. -/
def readAttribute (cn : Option Span) (rdn : Cursor) : Except Stop (Option Span × Cursor) := do
  let (atv, rdn) ← orReturn (asn1Open der asn1TagSequence rdn)
  let (oid, atv) ← asn1ReadOid der atv
  let ((tag, value), _) ← orReturn (asn1ReadAny der atv)
  if ← asn1OidEquals der oid oidAtCn then
    if tag = asn1TagUtf8 ∨ tag = asn1TagPrintable ∨ tag = asn1TagIa5 then
      return (some value, rdn)
    else
      return (cn, rdn)
  else
    return (cn, rdn)

/-- A loop of `scan_dn_for_cn`. -/
def scanLoop (step : Scan → Except Stop Scan) (scan : Scan) : Except Stop Scan :=
  repeatWhile (fun scan => !scan.failed && decide (asn1Remaining scan.cursor > 0)) step .endless
    (der.length + 2) scan

/-- The body of the inner loop of `scan_dn_for_cn`. -/
def scanAttribute (scan : Scan) : Except Stop Scan := do
  match ← attempt (readAttribute der scan.cn scan.cursor) with
  | none => return { scan with failed := true }
  | some (cn, rdn) => return { scan with cn := cn, cursor := rdn }

/-- The body of the outer loop of `scan_dn_for_cn`. -/
def scanRdn (scan : Scan) : Except Stop Scan := do
  match ← attempt (orReturn (asn1Open der asn1TagSet scan.cursor)) with
  | none => return { scan with failed := true }
  | some (rdn, name) =>
    let inner ← scanLoop der (scanAttribute der) ⟨scan.cn, rdn, false⟩
    return ⟨inner.cn, name, inner.failed⟩

/-- `scan_dn_for_cn` -/
def scanDnForCn (dn : Span) : Except Stop (Option Span) := do
  let scan ← scanLoop der (scanRdn der) ⟨none, asn1Init dn, false⟩
  return scan.cn

/-! ## Extensions -/

/-- What the extensions set, and the cursor behind those that were read. -/
structure Extensions where
  cursor : Cursor
  san : List Span
  isCa : Bool

/-- A BOOLEAN at a cursor. -/
def readBoolean (c : Cursor) : Except Stop (Bool × Cursor) := do
  let (body, c) ← orReturn (asn1ReadTlv der asn1TagBoolean c)
  require (body.len = 1) .rejected
  let byte ← byteAt der body.start
  return (decide (byte ≠ 0), c)

variable (state : Extensions)

/-- One name of a subject alternative name. -/
def readGeneralName : Except Stop Extensions := do
  let ((tag, name), c) ← orReturn (asn1ReadAny der state.cursor)
  -- A dNSName is [2] IMPLICIT IA5String.
  if tag = 0x82 ∧ state.san.length < x509MaxSanDns then
    return { state with cursor := c, san := state.san ++ [name] }
  else
    return { state with cursor := c }

/-- The branch of `parse_extensions` for subject alternative names. -/
def parseSan (value : Span) (state : Extensions) : Except Stop Extensions := do
  let (san, _) ← orReturn (asn1Open der asn1TagSequence (asn1Init value))
  let final ← whileRemaining der Extensions.cursor (readGeneralName der)
    { state with cursor := san }
  return { state with san := final.san }

/-- The branch of `parse_extensions` for basic constraints. -/
def parseBasicConstraints (value : Span) (state : Extensions) : Except Stop Extensions := do
  let (bc, _) ← orReturn (asn1Open der asn1TagSequence (asn1Init value))
  if asn1Remaining bc > 0 ∧ (← asn1PeekTag der bc) = some asn1TagBoolean then
    let (isCa, _) ← readBoolean der bc
    return { state with isCa := isCa }
  else
    return state

/-- The branches of `parse_extensions` for extensions that set nothing. -/
def parseUnenforced (_ : Span) (state : Extensions) : Except Stop Extensions := .ok state

/-- The flag that an extension is critical, which is optional. -/
def readCritical (ext : Cursor) : Except Stop (Bool × Cursor) := do
  if (← asn1PeekTag der ext) = some asn1TagBoolean then
    readBoolean der ext
  else
    return (false, ext)

/-- The body of the loop of `parse_extensions`. -/
def parseExtension : Except Stop Extensions := do
  let (ext, exts) ← orReturn (asn1Open der asn1TagSequence state.cursor)
  let (oid, ext) ← asn1ReadOid der ext
  let (critical, ext) ← readCritical der ext
  let (value, _) ← asn1ReadOctetString der ext
  let recognised ← matchOid der oid
    ((oidCeSan, some (parseSan der)) :: (oidCeBc, some (parseBasicConstraints der)) ::
      oidsUnenforced.map fun oid => (oid, some parseUnenforced)) none
  match recognised with
  | some parse => parse value { state with cursor := exts }
  | none => do
      require (critical = false) .rejected
      return { state with cursor := exts }

/-- `parse_extensions` -/
def parseExtensions : Except Stop Extensions := do
  let (extsOuter, left) ← orReturn (asn1Open der asn1TagCtx3 state.cursor)
  let (exts, _) ← orReturn (asn1Open der asn1TagSequence extsOuter)
  let final ← whileRemaining der Extensions.cursor (parseExtension der)
    { state with cursor := exts }
  return { final with cursor := left }

/-! ## The certificate -/

/-- The version field, which is optional. -/
def parseVersion (tbs : Cursor) : Except Stop (UInt8 × Cursor) := do
  if asn1Remaining tbs > 0 ∧ (← asn1PeekTag der tbs) = some asn1TagCtx0 then
    let (vex, tbs) ← orReturn (asn1Open der asn1TagCtx0 tbs)
    let (digits, _) ← asn1ReadUint der vex
    require (digits.len = 1) .rejected
    let byte ← byteAt der digits.start
    let version := byte + 1
    require (version ≤ 3) .rejected
    return (version, tbs)
  else
    return (1, tbs)

/-- The span of a SEQUENCE with its header, and its body. -/
def readSequence (c : Cursor) : Except Stop ((Span × Span) × Cursor) := do
  let (body, left) ← orReturn (asn1ReadTlv der asn1TagSequence c)
  return ((⟨c.p, body.start + body.len - c.p⟩, body), left)

/-- The two times of the validity. -/
def parseValidity (tbs : Cursor) : Except Stop ((UInt64 × UInt64) × Cursor) := do
  let (val, tbs) ← orReturn (asn1Open der asn1TagSequence tbs)
  let (notBefore, val) ← asn1ReadTime der val
  let (notAfter, val) ← asn1ReadTime der val
  require (asn1Remaining val = 0) .rejected
  return ((notBefore, notAfter), tbs)

/-- The fields behind the key: unique identifiers and extensions. -/
def parseTail : Except Stop Extensions := do
  let tag ← asn1PeekTag der state.cursor
  if tag = some asn1TagCtx1 ∨ tag = some asn1TagCtx2 then
    let left ← asn1SkipAny der state.cursor
    return { state with cursor := left }
  else if tag = some asn1TagCtx3 then
    parseExtensions der state
  else
    .error .rejected

/-- `x509_parse` -/
def x509Parse : Except Stop CertSpans := do
  let (cert, _) ← orReturn (asn1Open der asn1TagSequence (asn1Init ⟨0, der.length⟩))
  let ((tbsSpan, tbsBody), cert) ← readSequence der cert
  let (outerSigAlg, cert) ← parseAlg der cert
  let (sig, _) ← asn1ReadBitString der cert
  let (version, tbs) ← parseVersion der (asn1Init tbsBody)
  let (_, tbs) ← asn1ReadUint der tbs
  let (tbsSigAlg, tbs) ← parseAlg der tbs
  require (tbsSigAlg = outerSigAlg) .rejected
  let ((issuer, _), tbs) ← readSequence der tbs
  let ((notBefore, notAfter), tbs) ← parseValidity der tbs
  let ((subject, dn), tbs) ← readSequence der tbs
  let cn ← scanDnForCn der dn
  let (pubkey, tbs) ← parseSpki der tbs
  let extensions ← whileRemaining der Extensions.cursor (parseTail der) ⟨tbs, [], false⟩
  return {
    tbs := tbsSpan
    sig := sig
    issuer := issuer
    subject := subject
    notBefore := notBefore
    notAfter := notAfter
    pubkey := pubkey
    sigAlg := tbsSigAlg
    san := extensions.san
    cn := cn
    version := version
    isCa := extensions.isCa }

end CupidOs.X509.Spans
