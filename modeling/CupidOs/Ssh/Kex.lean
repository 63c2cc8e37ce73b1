import CupidOs.Ssh.SessionSpec

/-!
# Key exchange

`do_kex` in three parts: what is exchanged before the hash input, the hash input, and the reply
with the keys. The banner and both `KEXINIT` messages go into a buffer of 8192 bytes, but their
sizes are bounded only by their packets. This is the only fault.
-/

namespace CupidOs.Ssh

open Bytes Transition Transition.Routine
open List hiding Vector
open Tls (ascii)

variable (env : Env)

/-! ## Messages -/

/-- The version string of the server. -/
def serverVersion : String := "SSH-2.0-CupidOS_ssh_0.1"

/-- `hostkey_blob` -/
def hostkeyBlob : Option (Writer 256) := do
  let out ← wbCstr (.empty 256) "ecdsa-sha2-nistp256"
  let out ← wbCstr out "nistp256"
  wbString out env.hostPub.toList

/-- `build_kexinit` -/
def buildKexinit (cookie : List UInt8) : Option (Writer sshBufCap) := do
  let out ← wbByte (.empty sshBufCap) sshMsgKexinit
  let out ← wbBytes out cookie
  let out ← wbCstr out "curve25519-sha256"
  let out ← wbCstr out "ecdsa-sha2-nistp256"
  let out ← wbCstr out "chacha20-poly1305@openssh.com"
  let out ← wbCstr out "chacha20-poly1305@openssh.com"
  let out ← wbCstr out "hmac-sha2-256"
  let out ← wbCstr out "hmac-sha2-256"
  let out ← wbCstr out "none"
  let out ← wbCstr out "none"
  let out ← wbCstr out ""
  let out ← wbCstr out ""
  let out ← wbBool out false
  wbBe32 out 0

/-! ## The first part -/

/-- The body of the loop of `read_client_banner`, with the banner so far. -/
def bannerRound (vC : Writer 256) : Sshd (Writer 256 ⊕ Writer 256) := do
  if vC.bytes.length < 255 then
    let byte ← tcpRecvExact 1
    let c ← inside byte.head? .outside
    if c = 10 then
      return .inl vC
    else if c = 13 then
      return .inr vC
    else
      let vC ← inside (wbByte vC c) .overflow
      return .inr vC
  else
    return .inl vC

/-- `read_client_banner` -/
def readClientBanner : Sshd (List UInt8) := do
  let s ← get
  let vC ← loop .endless bannerRound (s.input.length + 1) (.empty 256)
  let _ ← inside (wbByte vC 0) .overflow
  check (vC.bytes.take 4 = ascii "SSH-")
  return vC.bytes

/-- What goes into the exchange hash. -/
structure KexOffer where
  vC : List UInt8
  iC : List UInt8
  iS : List UInt8
  ks : List UInt8
  clientPub : List UInt8
  serverPub : List UInt8
  sharedK : List UInt8

/-- A random scalar as `do_kex` clamps it. -/
def clampScalar (priv : List UInt8) : List UInt8 :=
  (priv.modify 0 (· &&& 248)).modify 31 fun byte => (byte &&& 127) ||| 64

/-- `do_kex` up to the hash input. -/
def kexExchange : Sshd KexOffer := do
  tcpSendAll env (ascii serverVersion ++ [13, 10])
  let vC ← readClientBanner
  let cookie ← cryptoRandomBytes env 16
  let iS ← inside (buildKexinit cookie) .overflow
  kmalloc env
  bppSend env iS.bytes
  let (kind, iC) ← recvMessage env
  check (kind = sshMsgKexinit)
  kmalloc env
  let (kind, pl) ← recvMessage env
  check (kind = sshMsgKexEcdhInit)
  let (clientPub, _) ← readString pl 1
  check (clientPub.length = 32)
  let priv ← cryptoRandomBytes env 32
  let serverPub := env.x25519 (clampScalar priv) (9 :: replicate 31 0)
  let sharedK := env.x25519 (clampScalar priv) clientPub
  kmalloc env
  let ks ← inside (hostkeyBlob env) .overflow
  kmalloc env
  return ⟨vC, iC, iS.bytes, ks.bytes, clientPub, serverPub.toList, sharedK.toList⟩

/-! ## The hash input -/

/-- The hash input that `do_kex` puts into the buffer `Hin`. -/
def hashInput (offer : KexOffer) : Option (Writer 8192) := do
  let hin ← wbString (.empty 8192) offer.vC
  let hin ← wbCstr hin serverVersion
  let hin ← wbString hin offer.iC
  let hin ← wbString hin offer.iS
  let hin ← wbString hin offer.ks
  let hin ← wbString hin offer.clientPub
  let hin ← wbString hin offer.serverPub
  wbMpint32 hin offer.sharedK

/-! ## The reply -/

/-- `sig_blob`, built from `sig_inner` -/
def signatureBlob (r s : List UInt8) : Option (Writer 160) := do
  let inner ← wbMpint32 (.empty 96) r
  let inner ← wbMpint32 inner s
  let out ← wbCstr (.empty 160) "ecdsa-sha2-nistp256"
  wbString out inner.bytes

/-- The `KEX_ECDH_REPLY` message. -/
def kexReply (ks serverPub sigBlob : List UInt8) : Option (Writer 512) := do
  let msg ← wbByte (.empty 512) sshMsgKexEcdhReply
  let msg ← wbString msg ks
  let msg ← wbString msg serverPub
  wbString msg sigBlob

/-- The bytes that `derive_key` hashes: `stage`, built from `Kbuf`. -/
def deriveStage (sharedK h suffix : List UInt8) : Option (Writer 256) := do
  let kbuf ← wbMpint32 (.empty 48) sharedK
  let stage ← wbBytes (.empty 256) kbuf.bytes
  let stage ← wbBytes stage h
  wbBytes stage suffix

/-- The loop of `derive_key`, for a key of 64 bytes. -/
def deriveMore (sharedK h : List UInt8) : Nat → Writer 64 → Option (Writer 64)
  | 0, out => some out
  | fuel + 1, out =>
    if out.bytes.length < 64 then do
      let stage ← deriveStage sharedK h out.bytes
      let block := env.sha256 stage.bytes
      let out ← wbBytes out (block.toList.take (64 - out.bytes.length))
      deriveMore sharedK h fuel out
    else
      some out

/-- `derive_key` for a key of 64 bytes -/
def deriveKey (sharedK h : List UInt8) (letter : UInt8) : Option (Writer 64) := do
  let stage ← deriveStage sharedK h (letter :: h)
  let block := env.sha256 stage.bytes
  let out ← wbBytes (.empty 64) block.toList
  deriveMore env sharedK h 64 out

/-- `derive_keys`, and the switch to encryption of what is sent -/
def deriveKeys (sharedK h : List UInt8) : Sshd Unit := do
  let c ← inside (deriveKey env sharedK h 67) .overflow
  let d ← inside (deriveKey env sharedK h 68) .overflow
  modify fun s => { s with
    keyC2sMain := c.bytes.take 32
    keyC2sHdr := c.bytes.drop 32
    keyS2cMain := d.bytes.take 32
    keyS2cHdr := d.bytes.drop 32
    newkeysOut := true }

/-- `do_kex` behind the hash input. -/
def kexFinish (offer : KexOffer) (hin : Writer 8192) : Sshd Unit := do
  let h := (env.sha256 hin.bytes).toList
  match env.ecdsaSign (env.sha256 h).toList with
  | none => giveUp
  | some (r, s) =>
    let sigBlob ← inside (signatureBlob r.toList s.toList) .overflow
    let msg ← inside (kexReply offer.ks offer.serverPub sigBlob.bytes) .overflow
    bppSend env msg.bytes
    bppSend env [sshMsgNewkeys]
    deriveKeys env offer.sharedK h
    let (kind, _) ← recvMessage env
    check (kind = sshMsgNewkeys)
    modify fun s => { s with newkeysIn := true }

/-- `do_kex` -/
def doKex : Sshd Unit := do
  let offer ← kexExchange env
  let hin ← inside (hashInput offer) .overflow
  kexFinish env offer hin

/-! ## Sizes -/

lemma exists_buildKexinit {cookie : List UInt8} (length : cookie.length = 16) :
    ∃ out, buildKexinit cookie = some out ∧ out.bytes.length = 190 := by
  simp only [buildKexinit, wbByte, wbBytes, wbBool, wbBe32, wbCstr_eq, put_bind]
  apply Writer.exists_put_sized
  · simp only [length_append, length_encodeString, length, length_encodeBE]
    decide
  · decide

lemma exists_hostkeyBlob : ∃ out, hostkeyBlob env = some out ∧ out.bytes.length = 104 := by
  simp only [hostkeyBlob, wbCstr_eq, wbString_eq, put_bind]
  apply Writer.exists_put_sized
  · simp only [length_append, length_encodeString, Vector.length_toList]
    decide
  · decide

lemma exists_signatureBlob {r s : List UInt8} (rLength : r.length = 32) (sLength : s.length = 32) :
    ∃ out, signatureBlob r s = some out ∧ out.bytes.length ≤ 101 := by
  have rSize := length_encodeMpint_le r
  have sSize := length_encodeMpint_le s
  have name : (ascii "ecdsa-sha2-nistp256").length = 19 := by decide
  obtain ⟨inner, innerPut, innerBytes⟩ := Writer.exists_put_empty (by
    rw [length_append]
    omega : (encodeMpint r ++ encodeMpint s).length ≤ 96)
  have outLength : (encodeString (ascii "ecdsa-sha2-nistp256") ++
      encodeString inner.bytes).length ≤ 101 := by
    simp only [length_append, length_encodeString, innerBytes]
    omega
  obtain ⟨out, outPut, outBytes⟩ := Writer.exists_put_empty
    (outLength.trans (by decide : 101 ≤ 160))
  refine ⟨out, ?_, by rwa [outBytes]⟩
  simp only [signatureBlob, wbMpint32_eq, wbCstr_eq, wbString_eq, put_bind]
  rw [← bind_assoc, put_bind, innerPut]
  exact outPut

lemma exists_kexReply {ks serverPub sigBlob : List UInt8} (ksLength : ks.length = 104)
    (pubLength : serverPub.length = 32) (sigLength : sigBlob.length ≤ 101) :
    ∃ out, kexReply ks serverPub sigBlob = some out := by
  simp only [kexReply, wbByte, wbString_eq, put_bind, Writer.exists_put_empty_iff, length_append,
    length_encodeString, length_singleton]
  omega

variable {sharedK h : List UInt8}

lemma exists_deriveStage {suffix : List UInt8} (kLength : sharedK.length = 32)
    (hLength : h.length = 32) (suffixLength : suffix.length ≤ 64) :
    ∃ stage, deriveStage sharedK h suffix = some stage := by
  have kSize := length_encodeMpint_le sharedK
  obtain ⟨kbuf, kbufPut, kbufBytes⟩ :=
    Writer.exists_put_empty (by omega : (encodeMpint sharedK).length ≤ 48)
  have room : (kbuf.bytes ++ (h ++ suffix)).length ≤ 256 := by
    rw [kbufBytes, length_append, length_append]
    omega
  obtain ⟨stage, stagePut, -⟩ := Writer.exists_put_empty room
  refine ⟨stage, ?_⟩
  rw [deriveStage, wbMpint32_eq, kbufPut]
  exact (put_then _ _ fun _ => put_then _ _ fun _ => rfl).trans stagePut

lemma exists_deriveMore (kLength : sharedK.length = 32) (hLength : h.length = 32) (fuel : Nat)
    (out : Writer 64) : ∃ final, deriveMore env sharedK h fuel out = some final := by
  induction fuel generalizing out with
  | zero => exact ⟨out, rfl⟩
  | succ fuel ih =>
    rw [deriveMore]
    split
    · obtain ⟨stage, staged⟩ := exists_deriveStage kLength hLength out.fits
      obtain ⟨later, put, -⟩ := Writer.exists_put out
        ((env.sha256 stage.bytes).toList.take (64 - out.bytes.length)) (by
        rw [length_take]
        omega)
      obtain ⟨final, more⟩ := ih later
      refine ⟨final, ?_⟩
      rw [staged]
      simp only [wbBytes, put, Option.bind_eq_bind, Option.bind_some]
      exact more
    · exact ⟨out, rfl⟩

lemma exists_deriveKey (kLength : sharedK.length = 32) (hLength : h.length = 32) (letter : UInt8) :
    ∃ out, deriveKey env sharedK h letter = some out := by
  have suffixLength : (letter :: h).length ≤ 64 := by
    rw [length_cons]
    omega
  obtain ⟨stage, staged⟩ := exists_deriveStage kLength hLength suffixLength
  obtain ⟨out, put, -⟩ := Writer.exists_put_empty (by
    rw [Vector.length_toList]
    decide : (env.sha256 stage.bytes).toList.length ≤ 64)
  obtain ⟨final, more⟩ := exists_deriveMore env kLength hLength 64 out
  refine ⟨final, ?_⟩
  rw [deriveKey, staged]
  simp only [wbBytes, put, Option.bind_eq_bind, Option.bind_some]
  exact more

/-! ## The parts -/

/-- The sizes of what is exchanged. -/
structure KexOffer.Sized (offer : KexOffer) : Prop where
  vC : offer.vC.length ≤ 255
  iC : offer.iC.length < sshPayloadMax
  iS : offer.iS.length = 190
  ks : offer.ks.length = 104
  clientPub : offer.clientPub.length = 32
  serverPub : offer.serverPub.length = 32
  sharedK : offer.sharedK.length = 32

/-- What the client chooses of the hash input. -/
def KexOffer.chosen (offer : KexOffer) : Nat :=
  offer.vC.length + offer.iC.length + (encodeMpint offer.sharedK).length

/-- The hash input fits its buffer if and only if the client offers little enough. -/
theorem exists_hashInput_iff {offer : KexOffer} (sized : offer.Sized) :
    (∃ hin, hashInput offer = some hin) ↔ offer.chosen ≤ 7783 := by
  have version : (ascii serverVersion).length = 23 := by decide
  simp only [hashInput, wbCstr_eq, wbString_eq, wbMpint32_eq, put_bind,
    Writer.exists_put_empty_iff, length_append, length_encodeString, version, sized.iS, sized.ks,
    sized.clientPub, sized.serverPub, KexOffer.chosen]
  omega

lemma keeps_bannerRound (vC : Writer 256) (s : Session) (short : vC.bytes.length ≤ 255) :
    Keeps Quiet (bannerRound vC) s (Rounds (fun vC _ => vC.bytes.length ≤ 255)
      (fun vC _ => vC.bytes.length ≤ 255) (fun _ t => t.input.length) s.input.length) := by
  unfold bannerRound
  split
  · rename_i more
    apply keeps_bind (keeps_tcpRecvExact s 1)
    rintro byte t - ⟨byteLength, consumed⟩
    obtain ⟨c, rfl⟩ := length_eq_one_iff.mp byteLength
    apply keeps_inside_bind rfl
    have less : t.input.length < s.input.length := by omega
    split
    · exact keeps_pure short
    split
    · exact keeps_pure ⟨short, less⟩
    obtain ⟨later, put, bytes⟩ := Writer.exists_put vC [c] (by
      rw [length_singleton]
      omega)
    refine keeps_inside_bind put (keeps_pure ⟨?_, less⟩)
    change later.bytes.length ≤ 255
    rw [bytes, length_append, length_singleton]
    omega
  · exact keeps_pure short

lemma keeps_readClientBanner (s : Session) :
    Keeps Quiet readClientBanner s fun vC _ => vC.length ≤ 255 := by
  apply keeps_get_bind
  apply keeps_bind (keeps_loop _ _ keeps_bannerRound (Nat.zero_le _) (Nat.lt_succ_self _))
  intro vC t _ short
  obtain ⟨ended, put, -⟩ := Writer.exists_put vC [0] (by
    rw [length_singleton]
    omega)
  exact keeps_inside_bind put (keeps_check_bind fun _ => keeps_pure short)

lemma keeps_kexExchange (s : Session) :
    Keeps Quiet (kexExchange env) s fun offer _ => offer.Sized := by
  refine keeps_bind (keeps_tcpSendAll env s _) fun _ s _ _ => ?_
  refine keeps_bind (keeps_readClientBanner s) fun vC s _ vCLength => ?_
  refine keeps_bind (keeps_cryptoRandomBytes env s 16) fun cookie s _ cookieLength => ?_
  obtain ⟨iS, built, iSLength⟩ := exists_buildKexinit cookieLength
  apply keeps_inside_bind built
  refine keeps_bind (keeps_kmalloc env s) fun _ s _ _ => ?_
  refine keeps_bind (keeps_bppSend env s _) fun _ s _ _ => ?_
  apply keeps_bind (keeps_recvMessage env s)
  rintro ⟨kind, iC⟩ s - ⟨-, -, iCLength⟩
  refine keeps_check_bind fun _ => ?_
  refine keeps_bind (keeps_kmalloc env s) fun _ s _ _ => ?_
  apply keeps_bind (keeps_recvMessage env s)
  rintro ⟨kind, pl⟩ s - -
  refine keeps_check_bind fun _ => ?_
  apply keeps_bind (keeps_readString s pl 1)
  rintro ⟨clientPub, off⟩ s - -
  refine keeps_check_bind fun pubLength => ?_
  refine keeps_bind (keeps_cryptoRandomBytes env s 32) fun priv s _ _ => ?_
  refine keeps_bind (keeps_kmalloc env s) fun _ s _ _ => ?_
  obtain ⟨ks, blob, ksLength⟩ := exists_hostkeyBlob env
  apply keeps_inside_bind blob
  refine keeps_bind (keeps_kmalloc env s) fun _ s _ _ => keeps_pure ?_
  exact ⟨vCLength, iCLength, iSLength, ksLength, pubLength, Vector.length_toList,
    Vector.length_toList⟩

lemma keeps_deriveKeys (kLength : sharedK.length = 32) (hLength : h.length = 32) (s : Session) :
    Keeps Quiet (deriveKeys env sharedK h) s fun _ _ => True := by
  obtain ⟨c, cEq⟩ := exists_deriveKey env kLength hLength 67
  obtain ⟨d, dEq⟩ := exists_deriveKey env kLength hLength 68
  refine keeps_inside_bind cEq <| keeps_inside_bind dEq ?_
  exact keeps_modify (.of_same rfl rfl (Nat.le_refl _)) trivial

lemma keeps_kexFinish {offer : KexOffer} (sized : offer.Sized) (hin : Writer 8192) (s : Session) :
    Keeps Quiet (kexFinish env offer hin) s fun _ t => t.newkeysIn = true := by
  unfold kexFinish
  dsimp only
  split
  · exact keeps_giveUp
  rename_i r sig signed
  obtain ⟨blob, blobEq, blobLength⟩ :=
    exists_signatureBlob (r.length_toList) (sig.length_toList)
  obtain ⟨msg, msgEq⟩ := exists_kexReply sized.ks sized.serverPub blobLength
  refine keeps_inside_bind blobEq <| keeps_inside_bind msgEq ?_
  refine keeps_bind (keeps_bppSend env s _) fun _ s _ _ => ?_
  refine keeps_bind (keeps_bppSend env s _) fun _ s _ _ => ?_
  refine keeps_bind (keeps_deriveKeys env sized.sharedK (Vector.length_toList) s)
    fun _ s _ _ => ?_
  apply keeps_bind (keeps_recvMessage env s)
  rintro ⟨kind, pl⟩ s - -
  refine keeps_check_bind fun _ => ?_
  exact keeps_modify ⟨⟨[], by simp, nofun⟩, fun _ => rfl, Nat.le_refl _⟩ rfl

end CupidOs.Ssh
