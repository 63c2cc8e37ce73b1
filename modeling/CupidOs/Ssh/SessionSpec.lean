import CupidOs.Ssh.Session

/-!
# What the packet functions keep

`Adds kind` is how a session may change: it logs events of the given kind only, it
does not turn encryption off, and it gets no input back.  The functions under the
messages log nothing.
-/

namespace CupidOs.Ssh

open Bytes Transition Transition.Routine
open List hiding Vector

/-- The session goes on and logs only events of a kind. -/
structure Adds (kind : Event → Prop) (s t : Session) : Prop where
  trace : ∃ added, t.trace = s.trace ++ added ∧ ∀ event ∈ added, kind event
  newkeysIn : s.newkeysIn = true → t.newkeysIn = true
  input : t.input.length ≤ s.input.length

/-- The session goes on and logs nothing. -/
abbrev Quiet : Session → Session → Prop := Adds fun _ => False

section Adds

variable {kind : Event → Prop} {s t u : Session}

lemma Adds.of_same (trace : t.trace = s.trace) (newkeysIn : t.newkeysIn = s.newkeysIn)
    (input : t.input.length ≤ s.input.length) : Adds kind s t :=
  ⟨⟨[], by rw [trace, append_nil], nofun⟩, fun on => newkeysIn.trans on, input⟩

lemma Adds.trans (first : Adds kind s t) (second : Adds kind t u) : Adds kind s u := by
  obtain ⟨early, earlyEq, earlyKind⟩ := first.trace
  obtain ⟨late, lateEq, lateKind⟩ := second.trace
  refine ⟨⟨early ++ late, by rw [lateEq, earlyEq, append_assoc], ?_⟩,
    fun on => second.newkeysIn (first.newkeysIn on), second.input.trans first.input⟩
  intro event mem
  rcases mem_append.mp mem with mem | mem
  · exact earlyKind event mem
  · exact lateKind event mem

instance : IsPreorder Session (Adds kind) where
  refl _ := .of_same rfl rfl le_rfl
  trans _ _ _ := .trans

lemma Adds.mono {other : Event → Prop} (adds : Adds kind s t)
    (implies : ∀ event, kind event → other event) : Adds other s t := by
  obtain ⟨added, addedEq, addedKind⟩ := adds.trace
  exact ⟨⟨added, addedEq, fun event mem => implies event (addedKind event mem)⟩,
    adds.newkeysIn, adds.input⟩

lemma Adds.quiet_trace (quiet : Quiet s t) : t.trace = s.trace := by
  obtain ⟨added, addedEq, none⟩ := quiet.trace
  rw [addedEq, eq_nil_iff_forall_not_mem.mpr none, append_nil]

/-- A routine that logs nothing may be called where events of a kind are logged. -/
theorem keeps_louder {α : Type} {routine : Sshd α} {post : α → Session → Prop}
    (keeps : Keeps Quiet routine s post) : Keeps (Adds kind) routine s post :=
  Routine.Keeps.weaken keeps fun _ quiet => quiet.mono fun _ => False.elim

end Adds

/-! ## The environment -/

variable (env : Env) (s : Session)

lemma keeps_ask {α : Type} (answer : Nat → α) :
    Keeps Quiet (ask answer) s fun value _ => ∃ n, value = answer n :=
  keeps_get_bind <| keeps_modify_bind (.of_same rfl rfl le_rfl) <| keeps_pure ⟨_, rfl⟩

lemma keeps_cryptoRandomBytes (count : Nat) :
    Keeps Quiet (cryptoRandomBytes env count) s fun bytes _ => bytes.length = count := by
  refine keeps_bind (keeps_ask s env.randomByte) fun byte _ _ _ => keeps_pure ?_
  rw [length_map, length_range]

lemma keeps_kmalloc : Keeps Quiet (kmalloc env) s fun _ _ => True := by
  refine keeps_bind (keeps_ask s env.allocates) fun granted t _ _ => ?_
  unfold check
  split
  · exact keeps_pure trivial
  · exact keeps_giveUp

lemma keeps_tcpSendAll (bytes : List UInt8) :
    Keeps Quiet (tcpSendAll env bytes) s fun _ _ => True := by
  refine keeps_bind (keeps_ask s env.sends) fun sends t _ _ => keeps_check_bind fun _ => ?_
  exact keeps_modify (.of_same rfl rfl le_rfl) trivial

lemma keeps_tcpRecvExact (count : Nat) : Keeps Quiet (tcpRecvExact count) s fun bytes t =>
      bytes.length = count ∧ t.input.length + count = s.input.length := by
  have shorter : (s.input.drop count).length ≤ s.input.length := by
    rw [length_drop]
    omega
  refine keeps_get_bind <| keeps_modify_bind (.of_same rfl rfl shorter) <|
    keeps_check_bind fun enough => keeps_pure ⟨?_, ?_⟩
  · rw [length_take]
    omega
  · rw [length_drop]
    omega

/-! ## Packets -/

@[simp]
lemma length_chacha20Xor (key : List UInt8) (counter : Nat) (nonce data : List UInt8) :
    (chacha20Xor env key counter nonce data).length = data.length := by
  rw [chacha20Xor, length_mapIdx]

variable (payload : List UInt8)

lemma exists_framePacket {payload padding : List UInt8}
    (room : 4 + (1 + payload.length + padding.length) ≤ sshBufCap) :
    ∃ tx, framePacket payload padding = some tx ∧
      tx.bytes.length = 4 + (1 + payload.length + padding.length) := by
  simp only [framePacket, wbByte, wbBytes, wbBe32, put_bind]
  apply Writer.exists_put_sized _ room
  simp only [length_append, length_encodeBE, length_singleton]
  omega

lemma keeps_sendSealed : Keeps Quiet (sendSealed env payload) s fun _ _ => True := by
  refine keeps_get_bind <| keeps_check_bind fun room => ?_
  apply keeps_bind (keeps_cryptoRandomBytes env s _)
  intro padding t _ length
  rw [← length] at room
  obtain ⟨tx, framed, size⟩ :=
    exists_framePacket (by omega : 4 + (1 + payload.length + padding.length) ≤ sshBufCap)
  apply keeps_inside_bind framed
  -- What is encrypted in place keeps its length.
  have sealedRoom : ∀ header body : List UInt8, ∀ tag : Vector UInt8 16,
      header.length = min 4 tx.bytes.length → body.length = tx.bytes.length - 4 →
      (header ++ body ++ tag.toList).length ≤ sshBufCap := by
    intro header body tag headerLength bodyLength
    simp only [length_append, Vector.length_toList]
    omega
  obtain ⟨wire, put, -⟩ := Writer.exists_put_empty (sealedRoom _ _ _
    ((length_chacha20Xor env _ _ _ _).trans (length_take ..))
    ((length_chacha20Xor env _ _ _ _).trans (length_drop ..)))
  exact keeps_inside_bind put (keeps_tcpSendAll env t _)

lemma keeps_sendClear : Keeps Quiet (sendClear env payload) s fun _ _ => True := by
  refine keeps_check_bind fun room => ?_
  apply keeps_bind (keeps_cryptoRandomBytes env s _)
  intro padding t _ length
  rw [← length] at room
  obtain ⟨tx, framed, -⟩ := exists_framePacket room
  exact keeps_inside_bind framed (keeps_tcpSendAll env t _)

lemma keeps_bppSend : Keeps Quiet (bppSend env payload) s fun _ _ => True := by
  have either : Keeps Quiet (sendEither env payload) s fun _ _ => True := by
    apply keeps_get_bind
    split
    · exact keeps_sendSealed env s payload
    · exact keeps_sendClear env s payload
  refine keeps_bind either fun _ t _ _ => ?_
  exact keeps_modify (.of_same rfl rfl le_rfl) trivial

/-- A packet takes input and is not longer than the buffer for it. -/
def Received (s : Session) (pl : List UInt8) (t : Session) : Prop :=
  t.input.length < s.input.length ∧ pl.length < sshPayloadMax

/-- The end of both branches of `bpp_recv`: the payload is copied out. -/
theorem keeps_copyPayload {bytes : List UInt8} {start count : Nat} {t : Session}
    (inside : start + count ≤ bytes.length) (small : count < sshPayloadMax)
    (consumed : t.input.length < s.input.length) :
    Keeps Quiet (do
      let out ← Routine.inside (slice bytes start count) .outside
      let pkt ← Routine.inside ((Writer.empty sshPayloadMax).put out) .overflow
      return pkt.bytes : Sshd (List UInt8)) t (Received s) := by
  have length : ((bytes.drop start).take count).length = count := by
    rw [length_take, length_drop]
    omega
  apply keeps_inside_bind (slice_of_le inside)
  obtain ⟨pkt, pktPut, pktBytes⟩ := Writer.exists_put_empty
    (by omega : ((bytes.drop start).take count).length ≤ sshPayloadMax)
  refine keeps_inside_bind pktPut (keeps_pure ⟨consumed, ?_⟩)
  rw [pktBytes, length]
  exact small

lemma keeps_recvSealed : Keeps Quiet (recvSealed env) s (Received s) := by
  apply keeps_get_bind
  apply keeps_bind (keeps_tcpRecvExact s 4)
  rintro lenEnc t - ⟨lenLength, consumed⟩
  dsimp only
  generalize decodeBE (chacha20Xor env s.keyC2sHdr 0 (buildNonce s.seqIn) lenEnc) = inner
  refine keeps_check_bind fun bounds => ?_
  apply keeps_bind (keeps_tcpRecvExact t (inner + 16))
  rintro received u - ⟨receivedLength, consumedMore⟩
  have maxEq : sshPayloadMax = 32768 := rfl
  have capEq : sshBufCap = 65536 := rfl
  obtain ⟨rx, rxPut, rxBytes⟩ :=
    Writer.exists_put_empty (by omega : received.length ≤ sshBufCap)
  apply keeps_inside_bind rxPut
  obtain ⟨front, frontPut, frontBytes⟩ :=
    Writer.exists_put_empty (by omega : lenEnc.length ≤ sshPayloadMax + 4)
  apply keeps_inside_bind frontPut
  have bodyLength : (rx.bytes.take inner).length = inner := by
    rw [rxBytes, length_take]
    omega
  obtain ⟨mac, macPut, -⟩ := Writer.exists_put front (rx.bytes.take inner) (by
    rw [frontBytes, bodyLength]
    omega)
  apply keeps_inside_bind macPut
  refine keeps_check_bind fun _ => ?_
  have clearLength := length_chacha20Xor env s.keyC2sMain 1 (buildNonce s.seqIn)
    (rx.bytes.take inner)
  generalize chacha20Xor env s.keyC2sMain 1 (buildNonce s.seqIn) (rx.bytes.take inner) = clear
    at clearLength ⊢
  rw [bodyLength] at clearLength
  cases clear with
  | nil =>
    simp only [length_nil] at clearLength
    omega
  | cons padlen rest =>
    apply keeps_inside_bind rfl
    refine keeps_check_bind fun padded => ?_
    exact keeps_copyPayload s (by omega) (by omega) (by omega)

lemma keeps_recvClear : Keeps Quiet recvClear s (Received s) := by
  apply keeps_bind (keeps_tcpRecvExact s 5)
  rintro hdr t - ⟨hdrLength, consumed⟩
  dsimp only
  have lastLength : (hdr.drop 4).length = 1 := by
    rw [length_drop]
    omega
  obtain ⟨padlen, lastEq⟩ := length_eq_one_iff.mp lastLength
  rw [lastEq]
  apply keeps_inside_bind rfl
  generalize decodeBE (hdr.take 4) = inner
  refine keeps_check_bind fun bounds => ?_
  apply keeps_bind (keeps_tcpRecvExact t (inner - 1))
  rintro received u - ⟨receivedLength, consumedMore⟩
  have maxEq : sshPayloadMax = 32768 := rfl
  have capEq : sshBufCap = 65536 := rfl
  obtain ⟨rx, rxPut, rxBytes⟩ :=
    Writer.exists_put_empty (by omega : received.length ≤ sshBufCap)
  apply keeps_inside_bind rxPut
  exact keeps_copyPayload s (by rw [rxBytes]; omega) (by omega) (by omega)

lemma keeps_bppRecv : Keeps Quiet (bppRecv env) s (Received s) := by
  have either : Keeps Quiet (recvEither env) s (Received s) := by
    apply keeps_get_bind
    split
    · exact keeps_recvSealed env s
    · exact keeps_recvClear s
  refine keeps_bind either fun pl t _ received => ?_
  exact keeps_modify_bind (.of_same rfl rfl le_rfl) (keeps_pure received)

lemma keeps_recvMessage : Keeps Quiet (recvMessage env) s fun message t =>
      message.2.head? = some message.1 ∧ Received s message.2 t := by
  apply keeps_bind (keeps_bppRecv env s)
  intro pl t _ received
  refine keeps_check_bind fun nonempty => ?_
  cases pl with
  | nil => cases nonempty
  | cons kind rest => exact keeps_inside_bind rfl (keeps_pure ⟨rfl, received⟩)

lemma keeps_getBe32 {p : List UInt8} {off : Nat} (inside : off + 4 ≤ p.length) :
    Keeps Quiet (getBe32 p off) s fun n t =>
      t = s ∧ n = decodeBE ((p.drop off).take 4) := by
  exact keeps_inside_bind (slice_of_le inside) (keeps_pure ⟨rfl, rfl⟩)

/-- What `read_string` returns lies in the packet, behind its length. -/
def ReadsString (p : List UInt8) (off : Nat) (read : List UInt8 × Nat) : Prop :=
  off + 4 ≤ p.length ∧ read.2 = off + 4 + read.1.length ∧ read.2 ≤ p.length ∧
    read.1.length = decodeBE ((p.drop off).take 4) ∧
    read.1 = (p.drop (off + 4)).take read.1.length

lemma keeps_readString (p : List UInt8) (off : Nat) :
    Keeps Quiet (readString p off) s fun read t => t = s ∧ ReadsString p off read := by
  refine keeps_check_bind fun header => ?_
  apply keeps_bind (keeps_getBe32 s header)
  rintro n t - ⟨rfl, nEq⟩
  refine keeps_check_bind fun fits => ?_
  have length : ((p.drop (off + 4)).take n).length = n := by
    rw [length_take, length_drop]
    omega
  refine keeps_inside_bind (slice_of_le (by omega)) (keeps_pure ⟨rfl, header, ?_, ?_, ?_, ?_⟩)
  · rw [length]
  · simp only
    omega
  · rw [length, nEq]
  · rw [length]

end CupidOs.Ssh
