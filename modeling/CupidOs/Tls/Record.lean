import CupidOs.Crypto.Aead
import CupidOs.Transition.Run

/-!
# The record layer

`kernel/tls/tls_record.c`: records have a header of five bytes and, once a direction has a key,
are protected with an AEAD in the wire format of TLS 1.2 or TLS 1.3.

The transport may move fewer bytes than asked for. `incoming` holds the bytes that arrive, one
list for what one call of `xport_recv` finds at most, and `writes` the number of bytes that each
later call of `xport_send` takes.
-/

namespace CupidOs.Tls

open Bytes Crypto
open List hiding Vector

/-- `TLS_REC_HEADER_SIZE`. -/
def recHeaderSize : Nat := 5

/-- `TLS_REC_MAX_PLAINTEXT`. -/
def recMaxPlaintext : Nat := 16384

/-- `TLS_REC_MAX_CIPHERTEXT`. -/
def recMaxCiphertext : Nat := 16384 + 256

/-- `TLS_RT_CHANGE_CIPHER_SPEC`. -/
def rtChangeCipherSpec : UInt8 := 20

/-- `TLS_RT_ALERT`. -/
def rtAlert : UInt8 := 21

/-- `TLS_RT_HANDSHAKE`. -/
def rtHandshake : UInt8 := 22

/-- `TLS_RT_APPLICATION_DATA`. -/
def rtApplicationData : UInt8 := 23

/-- `TLS_AEAD_CHACHA20_POLY1305` and `TLS_AEAD_AES_128_GCM`. -/
inductive AeadAlg
  | chacha20Poly1305
  | aes128Gcm
  deriving DecidableEq

/-- `tls_aead_dir_t`. -/
structure AeadDir where
  key : List UInt8
  iv : Vector UInt8 12
  seq : UInt64
  active : Bool
  deriving DecidableEq

/-- A record as a caller hands it over or gets it back. -/
structure Record where
  type : UInt8
  data : List UInt8
  deriving DecidableEq

/-- `tls_record_state_t` with the bytes its transport callbacks move. -/
structure RecordState where
  snd : AeadDir
  rcv : AeadDir
  aeadAlg : AeadAlg
  tls12 : Bool
  incoming : List (List UInt8)
  writes : List Nat
  outgoing : List UInt8
  deriving DecidableEq

/-- The negative results of `tls_record_recv`: `-1`, `-2` and `-3`. -/
inductive RecvError
  | transport
  | parse
  | badTag
  deriving DecidableEq

/-- A direction without a key. -/
def AeadDir.zero : AeadDir := ⟨replicate 32 0, Vector.replicate 12 0, 0, false⟩

/-- `tls_record_init` on a transport. -/
def tlsRecordInit (incoming : List (List UInt8)) (writes : List Nat) : RecordState where
  snd := .zero
  rcv := .zero
  aeadAlg := .chacha20Poly1305
  tls12 := false
  incoming := incoming
  writes := writes
  outgoing := []

/-- A direction that a key was installed in. -/
def installKey (key : List UInt8) (iv : Vector UInt8 12) : AeadDir where
  key := key.take 32 ++ replicate (32 - key.length) 0
  iv := iv
  seq := 0
  active := true

/-- `tls_record_set_aead`. -/
def tlsRecordSetAead (r : RecordState) (alg : AeadAlg) : RecordState := { r with aeadAlg := alg }

/-- `tls_record_set_tls12`. -/
def tlsRecordSetTls12 (r : RecordState) : RecordState := { r with tls12 := true }

/-- `tls_record_set_send_key`. -/
def tlsRecordSetSendKey (r : RecordState) (key : List UInt8) (iv : Vector UInt8 12) : RecordState :=
  { r with snd := installKey key iv }

/-- `tls_record_set_recv_key`. -/
def tlsRecordSetRecvKey (r : RecordState) (key : List UInt8) (iv : Vector UInt8 12) : RecordState :=
  { r with rcv := installKey key iv }

/-! ## The transport -/

/-- `xport_full_recv`: the bytes, or nothing if a call finds no byte before they are complete. -/
def xportFullRecv : List (List UInt8) → Nat → Option (List UInt8) × List (List UInt8)
  | incoming, 0 => (some [], incoming)
  | [], _ + 1 => (none, [])
  | chunk :: rest, want + 1 =>
    if want + 1 < chunk.length then
      (some (chunk.take (want + 1)), chunk.drop (want + 1) :: rest)
    else if chunk = [] then
      (none, rest)
    else
      match xportFullRecv rest (want + 1 - chunk.length) with
      | (some bytes, rest) => (some (chunk ++ bytes), rest)
      | (none, rest) => (none, rest)

/-- `xport_full_send`: whether everything was taken, what was taken, and the calls
that are left. -/
def xportFullSend : List Nat → List UInt8 → Bool × List UInt8 × List Nat
  | writes, [] => (true, [], writes)
  | [], _ :: _ => (false, [], [])
  | taken :: writes, byte :: bytes =>
    if taken = 0 then
      (false, [], writes)
    else
      let (complete, sent, writes) := xportFullSend writes ((byte :: bytes).drop taken)
      (complete, (byte :: bytes).take taken ++ sent, writes)

/-- Hand bytes to the transport. -/
def sendBytes (r : RecordState) (bytes : List UInt8) : Bool × RecordState :=
  let (complete, sent, writes) := xportFullSend r.writes bytes
  (complete, { r with writes, outgoing := r.outgoing ++ sent })

/-! ## Headers, nonces and additional data -/

/-- A record header. -/
def header (type : UInt8) (len : Nat) : List UInt8 := [type, 0x03, 0x03] ++ encodeBE 2 len

/-- `hdr[0]`. -/
def headerType (hdr : List UInt8) : UInt8 := hdr.getD 0 0

/-- The length in `hdr[3]` and `hdr[4]`. -/
def headerLen (hdr : List UInt8) : Nat := decodeBE (hdr.drop 3)

/-- A sequence number on the wire. -/
def seqBytes (seq : UInt64) : List UInt8 := encodeBE 8 seq.toNat

/-- `compose_nonce`; the ChaCha20 nonce of TLS 1.2 is composed in the same way. -/
def composeNonce (iv : Vector UInt8 12) (seq : UInt64) : List UInt8 :=
  iv.toList.take 4 ++ xorBytes (iv.toList.drop 4) (seqBytes seq)

/-- The additional data of TLS 1.2. -/
def tls12Aad (seq : UInt64) (type : UInt8) (len : Nat) : List UInt8 :=
  seqBytes seq ++ [type, 0x03, 0x03] ++ encodeBE 2 len

/-- The bytes of the key that a suite reads. -/
def aeadKey (alg : AeadAlg) (key : List UInt8) : List UInt8 :=
  match alg with
  | .aes128Gcm => key.take 16
  | .chacha20Poly1305 => key

/-! ## Sending -/

section Model

variable (aeads : AeadAlg → Aead)

/-- The protected record of `tls12_send_encrypted`. -/
def tls12Protect (alg : AeadAlg) (dir : AeadDir) (type : UInt8) (data : List UInt8) : List UInt8 :=
  let aad := tls12Aad dir.seq type data.length
  match alg with
  | .aes128Gcm =>
    let nonce := dir.iv.toList.take 4 ++ seqBytes dir.seq
    let (ct, tag) := (aeads alg).sealWith (aeadKey alg dir.key) nonce aad data
    header type (8 + data.length + 16) ++ (seqBytes dir.seq ++ ct ++ tag)
  | .chacha20Poly1305 =>
    let nonce := composeNonce dir.iv dir.seq
    let (ct, tag) := (aeads alg).sealWith (aeadKey alg dir.key) nonce aad data
    header type (data.length + 16) ++ (ct ++ tag)

/-- The protected record of the TLS 1.3 branch of `tls_record_send`. -/
def tls13Protect (alg : AeadAlg) (dir : AeadDir) (type : UInt8) (data : List UInt8) : List UInt8 :=
  let hdr := header rtApplicationData (data.length + 1 + 16)
  let inner := data ++ [type]
  let (ct, tag) :=
    (aeads alg).sealWith (aeadKey alg dir.key) (composeNonce dir.iv dir.seq) hdr inner
  hdr ++ (ct ++ tag)

/-- A state whose sending direction has used its sequence number. -/
def advanceSnd (r : RecordState) : RecordState :=
    { r with snd := { r.snd with seq := r.snd.seq + 1 } }

/-- `tls_record_send`; `true` is the result `0`. The data shares a 32-bit address space with the
stack, so `len + 1` does not wrap. -/
def tlsRecordSend (r : RecordState) (type : UInt8) (data : List UInt8) : Bool × RecordState :=
  if r.snd.active ∧ r.tls12 then
    if data.length > recMaxPlaintext then
      (false, r)
    else
      sendBytes (advanceSnd r) (tls12Protect aeads r.aeadAlg r.snd type data)
  else if r.snd.active then
    if data.length + 1 > recMaxPlaintext then
      (false, r)
    else if data.length + 1 + 16 > recMaxCiphertext then
      (false, r)
    else
      sendBytes (advanceSnd r) (tls13Protect aeads r.aeadAlg r.snd type data)
  else if data.length > recMaxPlaintext then
    (false, r)
  else
    match sendBytes r (header type data.length) with
    | (false, r) => (false, r)
    | (true, r) => sendBytes r data

/-! ## Receiving -/

/-- A state whose receiving direction has used its sequence number. -/
def advanceRcv (r : RecordState) : RecordState :=
    { r with rcv := { r.rcv with seq := r.rcv.seq + 1 } }

/-- The end of `tls12_recv_encrypted`: `cipher` starts with the ciphertext. -/
def tls12Open (r : RecordState) (type : UInt8) (nonce cipher : List UInt8) (ptLen bufMax : Nat) :
    Except RecvError Record × RecordState :=
  if ptLen > bufMax then
    (.error .parse, r)
  else
    match (aeads r.aeadAlg).openWith (aeadKey r.aeadAlg r.rcv.key) nonce
        (tls12Aad r.rcv.seq type ptLen) (cipher.take ptLen) (cipher.drop ptLen) with
    | none => (.error .badTag, r)
    | some data => (.ok ⟨type, data⟩, advanceRcv r)

/-- `tls12_recv_encrypted`. -/
def tls12RecvEncrypted (r : RecordState) (type : UInt8) (bodyLen bufMax : Nat) :
    Except RecvError Record × RecordState :=
  if bodyLen > recMaxCiphertext then
    (.error .parse, r)
  else
    match xportFullRecv r.incoming bodyLen with
    | (none, incoming) => (.error .transport, { r with incoming })
    | (some cipher, incoming) =>
      let r := { r with incoming }
      match r.aeadAlg with
      | .aes128Gcm =>
        if bodyLen < 8 + 16 then
          (.error .parse, r)
        else
          tls12Open aeads r type (r.rcv.iv.toList.take 4 ++ cipher.take 8) (cipher.drop 8)
            (bodyLen - 8 - 16) bufMax
      | .chacha20Poly1305 =>
        if bodyLen < 16 then
          (.error .parse, r)
        else
          tls12Open aeads r type (composeNonce r.rcv.iv r.rcv.seq) cipher (bodyLen - 16) bufMax

/-- Strip the padding of an opened TLS 1.3 record and split off its type. -/
def unwrapInner (inner : List UInt8) (bufMax : Nat) : Except RecvError Record :=
  match inner.reverse.dropWhile (· == 0) with
  | [] => .error .parse
  | innerType :: reversed =>
    if reversed.length > bufMax then .error .parse else .ok ⟨innerType, reversed.reverse⟩

/-- The TLS 1.3 branch of `tls_record_recv`. -/
def tls13RecvEncrypted (r : RecordState) (hdr : List UInt8) (bodyLen bufMax : Nat) :
    Except RecvError Record × RecordState :=
  if bodyLen < 16 then
    (.error .parse, r)
  else if bodyLen > recMaxCiphertext then
    (.error .parse, r)
  else
    match xportFullRecv r.incoming bodyLen with
    | (none, incoming) => (.error .transport, { r with incoming })
    | (some cipher, incoming) =>
      let r := { r with incoming }
      let ptLen := bodyLen - 16
      if ptLen > (bufMax + 1) % 2 ^ 32 then
        (.error .parse, r)
      else
        match (aeads r.aeadAlg).openWith (aeadKey r.aeadAlg r.rcv.key)
            (composeNonce r.rcv.iv r.rcv.seq) hdr (cipher.take ptLen) (cipher.drop ptLen) with
        | none => (.error .badTag, r)
        | some inner => (unwrapInner inner bufMax, advanceRcv r)

/-- The branches of `tls_record_recv` that return a body as it arrived. -/
def recvPlain (r : RecordState) (type : UInt8) (bodyLen bufMax : Nat) :
    Except RecvError Record × RecordState :=
  if bodyLen > bufMax then
    (.error .parse, r)
  else
    match xportFullRecv r.incoming bodyLen with
    | (none, incoming) => (.error .transport, { r with incoming })
    | (some body, incoming) => (.ok ⟨type, body⟩, { r with incoming })

/-- `tls_record_recv` once it has read a header. -/
def recvBody (r : RecordState) (hdr : List UInt8) (bufMax : Nat) :
    Except RecvError Record × RecordState :=
  let type := headerType hdr
  let bodyLen := headerLen hdr
  if r.rcv.active ∧ r.tls12 then
    if type = rtChangeCipherSpec then
      recvPlain r type bodyLen bufMax
    else
      tls12RecvEncrypted aeads r type bodyLen bufMax
  else if r.rcv.active ∧ type = rtApplicationData then
    tls13RecvEncrypted aeads r hdr bodyLen bufMax
  else if bodyLen > recMaxPlaintext then
    (.error .parse, r)
  else
    recvPlain r type bodyLen bufMax

/-- `tls_record_recv` into a buffer of `bufMax` bytes. -/
def tlsRecordRecv (r : RecordState) (bufMax : Nat) : Except RecvError Record × RecordState :=
  match xportFullRecv r.incoming recHeaderSize with
  | (none, incoming) => (.error .transport, { r with incoming })
  | (some hdr, incoming) => recvBody aeads { r with incoming } hdr bufMax

variable {aeads}

lemma recvBody_tls12 {r : RecordState} (active : r.rcv.active = true) (format : r.tls12 = true)
    (hdr : List UInt8) (bufMax : Nat) :
    recvBody aeads r hdr bufMax =
      if headerType hdr = rtChangeCipherSpec then
        recvPlain r (headerType hdr) (headerLen hdr) bufMax
      else
        tls12RecvEncrypted aeads r (headerType hdr) (headerLen hdr) bufMax := by
  simp only [recvBody, active, format, and_self, if_true]

lemma recvBody_tls13 {r : RecordState} (active : r.rcv.active = true)
    (format : r.tls12 = false) (hdr : List UInt8) (bufMax : Nat) :
    recvBody aeads r hdr bufMax =
      if headerType hdr = rtApplicationData then
        tls13RecvEncrypted aeads r hdr (headerLen hdr) bufMax
      else if headerLen hdr > recMaxPlaintext then
        (.error .parse, r)
      else
        recvPlain r (headerType hdr) (headerLen hdr) bufMax := by
  simp only [recvBody, active, format, Bool.false_eq_true, and_false, if_false, true_and]

end Model

/-! ## What the transport delivers -/

variable {bytes : List UInt8}

/-- What `xport_full_recv` makes of the bytes that arrive. -/
inductive Received (incoming : List (List UInt8)) (want : Nat) :
    Option (List UInt8) × List (List UInt8) → Prop
  | complete {bytes rest} (length : bytes.length = want)
      (stream : incoming.flatten = bytes ++ rest.flatten) (kept : [] ∉ incoming → [] ∉ rest) :
      Received incoming want (some bytes, rest)
  | fails {rest} (reason : [] ∈ incoming ∨ incoming.flatten.length < want) :
      Received incoming want (none, rest)

lemma received_xportFullRecv (incoming : List (List UInt8)) (want : Nat) :
    Received incoming want (xportFullRecv incoming want) := by
  fun_induction xportFullRecv incoming want with
  | case1 incoming => exact .complete rfl rfl id
  | case2 want => exact .fails (.inr (Nat.succ_pos want))
  | case3 chunk chunks want longer =>
    refine .complete ?_ ?_ fun nonempty => ?_
    · rw [length_take]
      omega
    · rw [flatten_cons, flatten_cons, ← append_assoc, take_append_drop]
    · rw [mem_cons, not_or] at nonempty ⊢
      refine ⟨fun empty => ?_, nonempty.2⟩
      have short := drop_eq_nil_iff.mp empty.symm
      omega
  | case4 chunks want => exact .fails (.inl mem_cons_self)
  | case5 chunk chunks want short nonempty bytes rest tail ih =>
    rw [tail] at ih
    cases ih with
    | complete length stream kept =>
      refine .complete ?_ ?_ fun all => kept fun mem => all (mem_cons_of_mem _ mem)
      · rw [length_append]
        omega
      · rw [flatten_cons, stream, append_assoc]
  | case6 chunk chunks want short nonempty rest tail ih =>
    rw [tail] at ih
    cases ih with
    | fails reason =>
      refine .fails (reason.imp (mem_cons_of_mem _) fun few => ?_)
      rw [flatten_cons, length_append]
      omega

lemma flatten_of_xportFullRecv {incoming rest : List (List UInt8)} {want : Nat}
    (received : xportFullRecv incoming want = (some bytes, rest)) :
    bytes.length = want ∧ incoming.flatten = bytes ++ rest.flatten := by
  have outcome := received_xportFullRecv incoming want
  rw [received] at outcome
  cases outcome with
  | complete length stream => exact ⟨length, stream⟩

/-- Bytes that have arrived are received, however the transport cuts them. -/
theorem xportFullRecv_of_flatten {incoming : List (List UInt8)} (nonempty : [] ∉ incoming)
    {rest : List UInt8} (arrived : incoming.flatten = bytes ++ rest) :
    ∃ remaining, xportFullRecv incoming bytes.length = (some bytes, remaining) ∧
      remaining.flatten = rest ∧ [] ∉ remaining := by
  have outcome := received_xportFullRecv incoming bytes.length
  generalize xportFullRecv incoming bytes.length = result at outcome ⊢
  cases outcome with
  | complete length stream kept =>
    obtain ⟨rfl, same⟩ := append_inj (stream.symm.trans arrived) length
    exact ⟨_, rfl, same, kept nonempty⟩
  | fails reason =>
    rcases reason with empty | short
    · exact absurd empty nonempty
    · rw [arrived, length_append] at short
      omega

lemma xportFullSend_complete {writes : List Nat}
    (complete : (xportFullSend writes bytes).1 = true) :
    (xportFullSend writes bytes).2.1 = bytes := by
  induction writes generalizing bytes with
  | nil =>
    cases bytes with
    | nil => rfl
    | cons byte bytes => cases complete
  | cons taken writes ih =>
    cases bytes with
    | nil => rfl
    | cons byte bytes =>
      rw [xportFullSend] at complete ⊢
      split at complete
      · cases complete
      rename_i positive
      rw [if_neg positive]
      have tail := ih complete
      show (byte :: bytes).take taken ++ _ = byte :: bytes
      rw [tail, take_append_drop]

lemma sendBytes_complete {r : RecordState}
    (complete : (sendBytes r bytes).1 = true) :
    (sendBytes r bytes).2.outgoing = r.outgoing ++ bytes := by
  show r.outgoing ++ _ = _
  rw [xportFullSend_complete complete]

/-! ## Headers -/

lemma length_header (type : UInt8) (len : Nat) : (header type len).length = recHeaderSize := by
  simp [header, recHeaderSize]

lemma headerType_header (type : UInt8) (len : Nat) : headerType (header type len) = type :=
  rfl

lemma headerLen_header (type : UInt8) (len : Nat) (fits : len < 65536) :
    headerLen (header type len) = len := by
  show decodeBE (encodeBE 2 len) = len
  rw [decodeBE_encodeBE, Nat.mod_eq_of_lt (by omega)]

@[simp]
lemma length_seqBytes (seq : UInt64) : (seqBytes seq).length = 8 :=
  length_encodeBE _ _

lemma tlsRecordRecv_of_arrived (aeads : AeadAlg → Aead) {r : RecordState} (bufMax : Nat)
    (nonempty : [] ∉ r.incoming) {type : UInt8} {len : Nat}
    (arrived : r.incoming.flatten = header type len ++ bytes) :
    ∃ remaining, tlsRecordRecv aeads r bufMax =
        recvBody aeads { r with incoming := remaining } (header type len) bufMax ∧
      remaining.flatten = bytes ∧ [] ∉ remaining := by
  obtain ⟨remaining, received, rest, restNonempty⟩ := xportFullRecv_of_flatten nonempty arrived
  rw [length_header] at received
  refine ⟨remaining, ?_, rest, restNonempty⟩
  rw [tlsRecordRecv, received]

/-! ## What a call does -/

/-- What `tls_record_recv` makes of the bytes that have arrived: a failure, a body in the clear, or
one that was opened. -/
inductive RecvEffect (aeads : AeadAlg → Aead) (r : RecordState) (bufMax : Nat) :
    Except RecvError Record × RecordState → Prop
  | failed (error : RecvError) (incoming : List (List UInt8)) :
      RecvEffect aeads r bufMax (.error error, { r with incoming })
  | plain {hdr body incoming} (length : hdr.length = recHeaderSize)
      (stream : r.incoming.flatten = hdr ++ body ++ incoming.flatten)
      (clear : r.rcv.active = true → if r.tls12 then headerType hdr = rtChangeCipherSpec
        else headerType hdr ≠ rtApplicationData) :
      RecvEffect aeads r bufMax (.ok ⟨headerType hdr, body⟩, { r with incoming })
  | opened12 {front nonce ct tag data incoming} (length : recHeaderSize ≤ front.length)
      (stream : r.incoming.flatten = front ++ (ct ++ tag) ++ incoming.flatten)
      (format : r.tls12 = true) (success : (aeads r.aeadAlg).openWith
        (aeadKey r.aeadAlg r.rcv.key) nonce (tls12Aad r.rcv.seq (headerType front) ct.length) ct
          tag = some data) :
      RecvEffect aeads r bufMax (.ok ⟨headerType front, data⟩, advanceRcv { r with incoming })
  | opened13 {hdr ct tag inner incoming result} (length : hdr.length = recHeaderSize)
      (stream : r.incoming.flatten = hdr ++ (ct ++ tag) ++ incoming.flatten)
      (format : r.tls12 = false) (application : headerType hdr = rtApplicationData)
      (room : ct.length ≤ bufMax + 1) (success : (aeads r.aeadAlg).openWith
        (aeadKey r.aeadAlg r.rcv.key) (composeNonce r.rcv.iv r.rcv.seq) hdr ct tag = some inner)
      (unwrapped : unwrapInner inner bufMax = result) :
      RecvEffect aeads r bufMax (result, advanceRcv { r with incoming })

section

variable {aeads : AeadAlg → Aead} {r : RecordState} {hdr : List UInt8}
  {incoming : List (List UInt8)}

lemma headerType_append (length : hdr.length = recHeaderSize) (later : List UInt8) :
    headerType (hdr ++ later) = headerType hdr := by
  cases hdr with
  | nil => cases length
  | cons type fields => rfl

lemma exists_append_of_le {count : Nat} (enough : count ≤ bytes.length) :
    ∃ front back, bytes = front ++ back ∧ front.length = count :=
  ⟨_, _, (take_append_drop count bytes).symm, length_take_of_le enough⟩

lemma effect_tls12Open {front ct tag : List UInt8} (length : recHeaderSize ≤ front.length)
    (stream : r.incoming.flatten = front ++ (ct ++ tag) ++ incoming.flatten)
    (format : r.tls12 = true) (nonce : List UInt8) (bufMax : Nat) :
    RecvEffect aeads r bufMax (tls12Open aeads { r with incoming } (headerType front) nonce
      (ct ++ tag) ct.length bufMax) := by
  rw [tls12Open, take_left, drop_left]
  split
  · exact .failed _ incoming
  split
  · exact .failed _ incoming
  · rename_i success
    exact .opened12 length stream format success

variable (length : hdr.length = recHeaderSize)
  (stream : r.incoming.flatten = hdr ++ incoming.flatten)
include length stream

lemma effect_recvPlain (clear : r.rcv.active = true → if r.tls12 then
      headerType hdr = rtChangeCipherSpec else headerType hdr ≠ rtApplicationData)
    (bodyLen bufMax : Nat) : RecvEffect aeads r bufMax
      (recvPlain { r with incoming } (headerType hdr) bodyLen bufMax) := by
  rw [recvPlain]
  split
  · exact .failed _ incoming
  split
  · exact .failed _ _
  rename_i body rest received
  refine .plain length ?_ clear
  rw [stream, (flatten_of_xportFullRecv received).2, append_assoc]

lemma effect_tls12RecvEncrypted (format : r.tls12 = true) (bodyLen bufMax : Nat) :
    RecvEffect aeads r bufMax
      (tls12RecvEncrypted aeads { r with incoming } (headerType hdr) bodyLen bufMax) := by
  rw [tls12RecvEncrypted]
  split
  · exact .failed _ incoming
  split
  · exact .failed _ _
  rename_i cipher rest received
  obtain ⟨total, body⟩ := flatten_of_xportFullRecv received
  simp only
  split <;> split
  · exact .failed _ rest
  · obtain ⟨explicit, sealed, rfl, eight⟩ := exists_append_of_le (by omega : 8 ≤ cipher.length)
    rw [length_append] at total
    obtain ⟨ct, tag, rfl, ctLength⟩ :=
      exists_append_of_le (by omega : bodyLen - 8 - 16 ≤ sealed.length)
    rw [← eight, drop_left, eight, ← ctLength, ← headerType_append length explicit]
    refine effect_tls12Open ?_ ?_ format _ bufMax
    · rw [length_append]
      omega
    · rw [stream, body]
      simp only [append_assoc]
  · exact .failed _ rest
  · obtain ⟨ct, tag, rfl, ctLength⟩ :=
      exists_append_of_le (by omega : bodyLen - 16 ≤ cipher.length)
    rw [← ctLength]
    refine effect_tls12Open length.ge ?_ format _ bufMax
    rw [stream, body, append_assoc hdr]

lemma effect_tls13RecvEncrypted (format : r.tls12 = false)
    (application : headerType hdr = rtApplicationData) (bodyLen bufMax : Nat) :
    RecvEffect aeads r bufMax
      (tls13RecvEncrypted aeads { r with incoming } hdr bodyLen bufMax) := by
  rw [tls13RecvEncrypted]
  split
  · exact .failed _ incoming
  split
  · exact .failed _ incoming
  split
  · exact .failed _ _
  rename_i cipher rest received
  obtain ⟨total, body⟩ := flatten_of_xportFullRecv received
  obtain ⟨ct, tag, rfl, ctLength⟩ := exists_append_of_le (by omega : bodyLen - 16 ≤ cipher.length)
  simp only
  rw [← ctLength, take_left, drop_left]
  split
  · exact .failed _ rest
  rename_i buffered
  split
  · exact .failed _ rest
  rename_i success
  have wrapped := Nat.mod_le (bufMax + 1) (2 ^ 32)
  refine .opened13 length ?_ format application (by omega) success rfl
  rw [stream, body, append_assoc hdr]

end

lemma effect_tlsRecordRecv (aeads : AeadAlg → Aead) (r : RecordState) (bufMax : Nat) :
    RecvEffect aeads r bufMax (tlsRecordRecv aeads r bufMax) := by
  rw [tlsRecordRecv]
  split
  · exact .failed _ _
  rename_i hdr incoming received
  obtain ⟨length, stream⟩ := flatten_of_xportFullRecv received
  have plain := @effect_recvPlain aeads _ _ _ length stream
  simp only [recvBody]
  split
  · rename_i encrypted
    split
    · rename_i change
      exact plain (fun _ => by rw [if_pos encrypted.2]; exact change) _ _
    · exact effect_tls12RecvEncrypted length stream encrypted.2 _ _
  rename_i unencrypted
  have format : r.rcv.active = true → r.tls12 = false := fun active =>
    Bool.eq_false_iff.mpr fun tls12 => unencrypted ⟨active, tls12⟩
  split
  · rename_i encrypted
    exact effect_tls13RecvEncrypted length stream (format encrypted.1) encrypted.2 _ _
  rename_i clear
  split
  · exact .failed _ incoming
  · refine plain (fun active => ?_) _ _
    rw [format active, if_neg Bool.false_ne_true]
    exact fun application => clear ⟨active, application⟩

end CupidOs.Tls
