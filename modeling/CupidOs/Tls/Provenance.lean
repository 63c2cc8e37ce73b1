import CupidOs.Tls.Reassembly
import CupidOs.Tls.RecordAuthentic
import CupidOs.Transition.Fallible

/-!
# Where the bytes of a message come from

The bytes of a message that a reader returns are those that it had carried over, followed by the
payloads of the records that it pulled. The outer type of a record tells whether it was opened
with the receive key.
-/

namespace CupidOs.Tls

open Bytes Crypto List Transition

section

variable {σ : Type} {source : Source σ Record}

variable (log : List (σ × Record))

/-- The records of a log. -/
def logged : List Record := log.map Prod.snd

/-- The handshake bytes of a log. -/
def payloadBytes : List UInt8 := (payloads (logged log)).flatten

lemma payloadBytes_append (first second : List (σ × Record)) :
    payloadBytes (first ++ second) = payloadBytes first ++ payloadBytes second := by
  simp [payloadBytes, logged, payloads_append]

variable {record : Record}

lemma payloadBytes_snoc_ccs (type : record.type = rtChangeCipherSpec) (log : List (σ × Record))
    (state : σ) : payloadBytes (log ++ [(state, record)]) = payloadBytes log := by
  rw [payloadBytes_append]
  simp [payloadBytes, logged, payloads, type, rtChangeCipherSpec, rtHandshake]

lemma payloadBytes_snoc_handshake (type : record.type = rtHandshake) (log : List (σ × Record))
    (state : σ) : payloadBytes (log ++ [(state, record)]) = payloadBytes log ++ record.data := by
  rw [payloadBytes_append]
  simp [payloadBytes, logged, payloads, type]

lemma payloadBytes_of_unread {log : List (σ × Record)}
    (unread : ∀ entry ∈ log, ¬entry.2.type = rtHandshake) : payloadBytes log = [] := by
  have none : (logged log).filter (fun record => record.type = rtHandshake) = [] := by
    refine filter_eq_nil_iff.mpr fun record mem => ?_
    obtain ⟨entry, inLog, rfl⟩ := mem_map.mp mem
    simpa using unread entry inLog
  rw [payloadBytes, payloads, none]
  rfl

/-- The records of a log are fragments or ignored. -/
def HandshakeLog : Prop :=
  ∀ entry ∈ log, entry.2.type = rtChangeCipherSpec ∨ entry.2.type = rtHandshake

/-- A record that is read extends the bytes of a log, or it is ignored. -/
theorem HandshakeLog.snoc {log : List (σ × Record)} {base before after : List UInt8} (state : σ)
    (held : HandshakeLog log ∧ before = base ++ payloadBytes log)
    (grows : record.type = rtChangeCipherSpec ∧ after = before ∨
      record.type = rtHandshake ∧ after = before ++ record.data) :
    HandshakeLog (log ++ [(state, record)]) ∧
      after = base ++ payloadBytes (log ++ [(state, record)]) := by
  obtain ⟨types, rfl⟩ := held
  rcases grows with ⟨ccs, rfl⟩ | ⟨handshake, rfl⟩
  · refine ⟨forall_mem_append.mpr ⟨types, forall_mem_singleton.mpr (.inl ccs)⟩, ?_⟩
    rw [payloadBytes_snoc_ccs ccs]
  · refine ⟨forall_mem_append.mpr ⟨types, forall_mem_singleton.mpr (.inr handshake)⟩, ?_⟩
    rw [payloadBytes_snoc_handshake handshake, append_assoc]

variable {carry after : List UInt8} {layer rest : σ}

lemma fillTake_eq_ok (took : fillTake carry record = .ok after) :
    (record.type = rtChangeCipherSpec ∧ after = carry ∨
      record.type = rtHandshake ∧ after = carry ++ record.data) ∧
      (carry.length ≤ carrySize → after.length ≤ carrySize) := by
  rw [fillTake] at took
  split at took
  · rename_i ccs
    cases took
    exact ⟨.inl ⟨ccs, rfl⟩, id⟩
  split at took
  · cases took
  split at took
  · cases took
  rename_i handshake
  split at took
  · cases took
  cases took
  refine ⟨.inr ⟨not_not.mp handshake, rfl⟩, fun small => ?_⟩
  rw [length_append]
  omega

lemma hsReaderFill_reads {need : Nat} (fits : carry.length ≤ carrySize)
    (filled : hsReaderFill source need carry layer = .ok (after, rest)) :
    ∃ log, source.Reads layer log rest ∧ HandshakeLog log ∧
      after = carry ++ payloadBytes log ∧ need ≤ after.length ∧ after.length ≤ carrySize := by
  have reached := Source.pull_reads
    (J := fun log acc => (HandshakeLog log ∧ acc = carry ++ payloadBytes log) ∧
      acc.length ≤ carrySize)
    (fun {log acc state item after} holds _ took =>
      have ⟨grows, small⟩ := fillTake_eq_ok took
      ⟨HandshakeLog.snoc state holds.1 grows, small holds.2⟩)
    ⟨⟨nofun, (append_nil carry).symm⟩, fits⟩ filled
  obtain ⟨log, reads, ⟨⟨types, bytes⟩, small⟩, done⟩ := reached
  exact ⟨log, reads, types, bytes, Nat.not_lt.mp (of_decide_eq_false done), small⟩

lemma drainTake_eq_ok {mlen : Nat} {acc after : List UInt8 × List UInt8}
    (wanted : acc.1.length < mlen) (clean : acc.2 = [])
    (took : drainTake mlen acc record = .ok after) :
    (record.type = rtChangeCipherSpec ∧ after.1 ++ after.2 = acc.1 ++ acc.2 ∨
      record.type = rtHandshake ∧ after.1 ++ after.2 = acc.1 ++ acc.2 ++ record.data) ∧
      after.1.length ≤ mlen ∧ after.2.length ≤ carrySize ∧
      (after.1.length < mlen → after.2 = []) := by
  rw [drainTake] at took
  split at took
  · rename_i ccs
    cases took
    exact ⟨.inl ⟨ccs, rfl⟩, Nat.le_of_lt wanted, by simp [clean], fun _ => clean⟩
  split at took
  · cases took
  rename_i handshake
  have taken := length_take_le (min (mlen - acc.1.length) record.data.length) record.data
  simp only at took
  split at took
  · rename_i surplus
    split at took
    · cases took
    rename_i room
    cases took
    refine ⟨.inr ⟨not_not.mp handshake, ?_⟩, ?_, ?_, fun short => ?_⟩
    · simp [clean]
    · simp only [length_append]
      omega
    · simp only [length_drop]
      omega
    · simp only [length_append, length_take] at short
      omega
  · rename_i whole
    cases took
    refine ⟨.inr ⟨not_not.mp handshake, ?_⟩, ?_, by simp [clean], fun _ => clean⟩
    · simp [clean, take_of_length_le (Nat.not_lt.mp whole)]
    · simp only [length_append]
      omega

lemma drain_reads {mlen : Nat} {copied : List UInt8} (short : copied.length ≤ mlen)
    {after : List UInt8 × List UInt8}
    (drained : drain source mlen (copied, []) layer = .ok (after, rest)) :
    ∃ log, source.Reads layer log rest ∧ HandshakeLog log ∧
      after.1 ++ after.2 = copied ++ payloadBytes log ∧ after.1.length = mlen ∧
      after.2.length ≤ carrySize := by
  have reached := Source.pull_reads
    (J := fun log acc => (HandshakeLog log ∧ acc.1 ++ acc.2 = copied ++ payloadBytes log) ∧
      acc.1.length ≤ mlen ∧ acc.2.length ≤ carrySize ∧ (acc.1.length < mlen → acc.2 = []))
    (fun {log acc state item after} holds wanted took => by
      obtain ⟨held, -, -, clean⟩ := holds
      have lacking : acc.1.length < mlen := of_decide_eq_true wanted
      obtain ⟨grows, bounds⟩ := drainTake_eq_ok lacking (clean lacking) took
      exact ⟨HandshakeLog.snoc state held grows, bounds⟩)
    ⟨⟨nofun, rfl⟩, short, Nat.zero_le _, fun _ => rfl⟩ drained
  obtain ⟨log, reads, ⟨⟨types, bytes⟩, small, tidy, -⟩, done⟩ := reached
  exact ⟨log, reads, types, bytes, Nat.le_antisymm small
    (Nat.not_lt.mp (of_decide_eq_false done)), tidy⟩

/-- A message that a reader has taken from what it carried and from the records of a
log. -/
structure TakenFrom (source : Source σ Record) (talk : Conversation σ) (message : HsMessage)
    (after : Conversation σ) (log : List (σ × Record)) : Prop where
  reads : source.Reads talk.layer log after.layer
  types : HandshakeLog log
  bytes : talk.carry ++ payloadBytes log = message.encode ++ after.carry

lemma header_eq {body : List UInt8} (held : 4 ≤ carry.length)
    (length : body.length = decodeBE ((carry.take 4).drop 1)) :
    HsMessage.header ⟨(carry.take 4).headD 0, body⟩ = carry.take 4 := by
  have four : (carry.take 4).length = 4 := length_take_of_le held
  generalize carry.take 4 = hdr at length four
  obtain ⟨type, fields, rfl⟩ : ∃ type fields, hdr = type :: fields := by
    cases hdr with
    | nil => cases four
    | cons type fields => exact ⟨type, fields, rfl⟩
  have three : fields.length = 3 := by simpa using four
  have encoded := encodeBE_decodeBE fields
  rw [three] at encoded
  rw [HsMessage.header, length]
  exact congrArg (type :: ·) encoded

lemma encode_of_take {bytes : List UInt8} {mlen : Nat} (enough : 4 + mlen ≤ bytes.length)
    (field : mlen = decodeBE ((bytes.take 4).drop 1)) :
    HsMessage.encode ⟨(bytes.take 4).headD 0, (bytes.drop 4).take mlen⟩ =
      bytes.take (4 + mlen) := by
  have length : ((bytes.drop 4).take mlen).length = mlen :=
    length_take_of_le (by rw [length_drop]; omega)
  rw [HsMessage.encode, header_eq (by omega) (length.trans field), take_add]

lemma hsReadMsg_taken {outMax : Nat} {talk after : Conversation σ} {message : HsMessage}
    (fits : talk.carry.length ≤ carrySize)
    (read : hsReadMsg source outMax talk = .ok (message, after)) :
    after.transcript = talk.transcript ++ message.encode ∧ after.carry.length ≤ carrySize ∧
      ∃ log, TakenFrom source talk message after log := by
  rw [hsReadMsg] at read
  obtain ⟨⟨carry, layer⟩, filled, read⟩ := bind_eq_ok.mp read
  obtain ⟨first, firstReads, firstTypes, firstBytes, held, small⟩ := hsReaderFill_reads fits filled
  simp only at read
  split at read
  · cases read
  split at read
  · rename_i short
    obtain ⟨⟨whole, finished⟩, filledAgain, read⟩ := bind_eq_ok.mp read
    obtain ⟨second, secondReads, secondTypes, secondBytes, complete, smaller⟩ :=
      hsReaderFill_reads small filledAgain
    cases read
    have sameHeader : carry.take 4 = whole.take 4 := by
      rw [secondBytes, take_append_of_le_length held]
    rw [sameHeader] at complete ⊢
    have split := encode_of_take complete rfl
    refine ⟨?_, ?_, first ++ second, firstReads.append secondReads,
      forall_mem_append.mpr ⟨firstTypes, secondTypes⟩, ?_⟩
    · rw [split, take_add, append_assoc]
    · simp only [length_drop]
      omega
    · rw [payloadBytes_append, ← append_assoc, ← firstBytes, ← secondBytes, split, take_append_drop]
  · rename_i long
    obtain ⟨⟨⟨body, rest⟩, finished⟩, drained, read⟩ := bind_eq_ok.mp read
    have copied : (carry.drop 4).length ≤ decodeBE ((carry.take 4).drop 1) := by
      rw [length_drop]
      omega
    obtain ⟨second, secondReads, secondTypes, secondBytes, length, smaller⟩ :=
      drain_reads copied drained
    cases read
    simp only at length secondBytes smaller
    refine ⟨?_, smaller, first ++ second, firstReads.append secondReads,
      forall_mem_append.mpr ⟨firstTypes, secondTypes⟩, ?_⟩
    · rw [HsMessage.encode, header_eq held length, append_assoc]
    · rw [payloadBytes_append, ← append_assoc, ← firstBytes, HsMessage.encode,
        header_eq held length, append_assoc, secondBytes, ← append_assoc,
        take_append_drop]

/-! ## TLS 1.2 -/

lemma pull12Take_eq_ok {buf : List UInt8} (took : pull12Take buf record = .ok after) :
    record.type = rtHandshake ∧ after = buf ++ record.data := by
  rw [pull12Take] at took
  split at took
  · cases took
  split at took
  · cases took
  rename_i handshake
  split at took
  · cases took
  · cases took
    exact ⟨not_not.mp handshake, rfl⟩

/-- The TLS 1.2 reader takes nothing but fragments. -/
def FragmentLog : Prop :=
  ∀ entry ∈ log, entry.2.type = rtHandshake

lemma hs12Pull_reads {need : Nat} {buf : List UInt8}
    (filled : hs12Pull source need buf layer = .ok (after, rest)) :
    ∃ log, source.Reads layer log rest ∧ FragmentLog log ∧ after = buf ++ payloadBytes log ∧
      need ≤ after.length := by
  have reached := Source.pull_reads
    (J := fun log acc => FragmentLog log ∧ acc = buf ++ payloadBytes log)
    (fun {log acc state item after} holds _ took => by
      obtain ⟨types, bytes⟩ := holds
      obtain ⟨handshake, grown⟩ := pull12Take_eq_ok took
      refine ⟨forall_mem_append.mpr ⟨types, forall_mem_singleton.mpr handshake⟩, ?_⟩
      rw [payloadBytes_snoc_handshake handshake, grown, bytes, append_assoc])
    ⟨nofun, (append_nil buf).symm⟩ filled
  obtain ⟨log, reads, ⟨types, bytes⟩, done⟩ := reached
  exact ⟨log, reads, types, bytes, Nat.not_lt.mp (of_decide_eq_false done)⟩

/-- A message that the TLS 1.2 reader has taken. -/
structure TakenFrom12 (source : Source σ Record) (talk : Conversation σ) (message : HsMessage)
    (after : Conversation σ) (log : List (σ × Record)) : Prop where
  reads : source.Reads talk.layer log after.layer
  types : FragmentLog log
  bytes : talk.carry ++ payloadBytes log = message.encode ++ after.carry

lemma hs12ReadMsg_taken {outMax : Nat} {doFold : Bool} {talk after : Conversation σ}
    {message : HsMessage} (read : hs12ReadMsg source outMax doFold talk = .ok (message, after)) :
    after.transcript = (if doFold then talk.transcript ++ message.encode else talk.transcript) ∧
      ∃ log, TakenFrom12 source talk message after log := by
  rw [hs12ReadMsg] at read
  obtain ⟨⟨buf, layer⟩, filled, read⟩ := bind_eq_ok.mp read
  obtain ⟨first, firstReads, firstTypes, firstBytes, held⟩ := hs12Pull_reads filled
  simp only at read
  split at read
  · cases read
  obtain ⟨⟨whole, finished⟩, filledAgain, read⟩ := bind_eq_ok.mp read
  obtain ⟨second, secondReads, secondTypes, secondBytes, complete⟩ := hs12Pull_reads filledAgain
  cases read
  have fields : (buf.drop 1).take 3 = (whole.take 4).drop 1 := by
    rw [secondBytes, take_append_of_le_length held, drop_take]
  have type : whole.headD 0 = (whole.take 4).headD 0 := by
    cases whole <;> rfl
  rw [fields] at complete ⊢
  have split := encode_of_take complete rfl
  rw [type]
  refine ⟨by rw [split], first ++ second, firstReads.append secondReads,
    forall_mem_append.mpr ⟨firstTypes, secondTypes⟩, ?_⟩
  rw [payloadBytes_append, ← append_assoc, ← firstBytes, ← secondBytes, split, take_append_drop]

end

/-! ## Records that were opened -/

section

variable {aeads : AeadAlg → Aead} {r after : RecordState} {record : Record}

lemma SameKey.refl (r : RecordState) : SameKey r r := ⟨rfl, rfl, rfl, rfl, rfl⟩

lemma SameKey.trans {first second third : RecordState} (before : SameKey first second)
    (later : SameKey second third) : SameKey first third :=
  ⟨later.key.trans before.key, later.iv.trans before.iv, later.active.trans before.active,
    later.alg.trans before.alg, later.format.trans before.format⟩

/-- The record at the front was opened with the receive key in the format of TLS 1.3. -/
def Opened13 (aeads : AeadAlg → Aead) (r : RecordState) (record : Record) : Prop :=
  ∃ hdr ct tag inner later, r.incoming.flatten = hdr ++ (ct ++ tag) ++ later ∧
    hdr.length = recHeaderSize ∧ headerType hdr = rtApplicationData ∧
    (aeads r.aeadAlg).openWith (aeadKey r.aeadAlg r.rcv.key) (composeNonce r.rcv.iv r.rcv.seq)
      hdr ct tag = some inner ∧
    unwrapInner inner recMaxPlaintext = .ok record

/-- The record at the front was opened with the receive key in the format of TLS 1.2. -/
def Opened12 (aeads : AeadAlg → Aead) (r : RecordState) (record : Record) : Prop :=
  ∃ front nonce ct tag later, r.incoming.flatten = front ++ (ct ++ tag) ++ later ∧
    headerType front = record.type ∧
    (aeads r.aeadAlg).openWith (aeadKey r.aeadAlg r.rcv.key) nonce
      (tls12Aad r.rcv.seq record.type ct.length) ct tag = some record.data

variable {bufMax : Nat}

/-- A record of TLS 1.3 was opened, or it came in the clear under its own type. -/
theorem tlsRecordRecv_tls13 (active : r.rcv.active = true) (format : r.tls12 = false)
    (received : tlsRecordRecv aeads r recMaxPlaintext = (.ok record, after)) :
    Opened13 aeads r record ∨
      record.type ∈ r.incoming.flatten.head? ∧ record.type ≠ rtApplicationData := by
  have effect := effect_tlsRecordRecv aeads r recMaxPlaintext
  rw [received] at effect
  cases effect with
  | plain length stream clear =>
    have other := clear active
    rw [format, if_neg Bool.false_ne_true] at other
    rw [append_assoc] at stream
    exact .inr ⟨headerType_mem_head? length stream, other⟩
  | opened12 _ _ tls12 =>
    rw [format] at tls12
    cases tls12
  | opened13 length stream _ application _ success unwrapped =>
    exact .inl ⟨_, _, _, _, _, stream, length, application, success, unwrapped⟩

/-- A record of TLS 1.2 was opened, or it is a ChangeCipherSpec. -/
theorem tlsRecordRecv_tls12 (active : r.rcv.active = true) (format : r.tls12 = true)
    (received : tlsRecordRecv aeads r bufMax = (.ok record, after)) :
    Opened12 aeads r record ∨ record.type = rtChangeCipherSpec := by
  have effect := effect_tlsRecordRecv aeads r bufMax
  rw [received] at effect
  cases effect with
  | plain _ _ clear =>
    have change := clear active
    rw [format, if_pos rfl] at change
    exact .inr change
  | opened12 _ stream _ success => exact .inl ⟨_, _, _, _, _, stream, rfl, success⟩
  | opened13 _ _ tls13 =>
    rw [format] at tls13
    cases tls13

lemma received_of_next {handed : Record × RecordState}
    (next : (recordSource aeads).next r = some handed) :
    tlsRecordRecv aeads r recMaxPlaintext = (.ok handed.1, handed.2) := by
  simp only [recordSource] at next
  split at next
  · rename_i received
    cases next
    exact received
  · cases next

variable {start final : RecordState} {log : List (RecordState × Record)}

lemma sameKey_of_reads (reads : (recordSource aeads).Reads start log final) :
    (∀ entry ∈ log, SameKey start entry.1) ∧ SameKey start final :=
  reads.invariant (I := SameKey start)
    (fun same next => same.trans (tlsRecordRecv_eq_ok (received_of_next next)).1) (.refl start)

/-- All fragments were opened if and only if none came in the clear as a handshake record. -/
theorem opened13_iff (active : start.rcv.active = true) (format : start.tls12 = false)
    (reads : (recordSource aeads).Reads start log final) :
    (∀ entry ∈ log, entry.2.type = rtHandshake → Opened13 aeads entry.1 entry.2) ↔
      ∀ entry ∈ log, rtHandshake ∉ entry.1.incoming.flatten.head? := by
  have how : ∀ entry ∈ log, Opened13 aeads entry.1 entry.2 ∨
      entry.2.type ∈ entry.1.incoming.flatten.head? ∧ entry.2.type ≠ rtApplicationData := by
    intro entry mem
    obtain ⟨rest, next⟩ := reads.handed mem
    have same := (sameKey_of_reads reads).1 entry mem
    exact tlsRecordRecv_tls13 (same.active.trans active) (same.format.trans format)
      (received_of_next next)
  constructor
  · intro opened entry mem clear
    have notOpened : ¬Opened13 aeads entry.1 entry.2 := by
      rintro ⟨hdr, ct, tag, inner, later, stream, length, application, -, -⟩
      rw [stream] at clear
      cases hdr with
      | nil => cases length
      | cons byte fields =>
        have first : byte = rtHandshake := Option.some.inj clear
        have applied : byte = rtApplicationData := application
        rw [first] at applied
        exact absurd applied (by decide)
    obtain ⟨front, -⟩ := (how entry mem).resolve_left notOpened
    have type : entry.2.type = rtHandshake := Option.some.inj (front.symm.trans clear)
    exact notOpened (opened entry mem type)
  · intro clearFree entry mem type
    apply (how entry mem).resolve_right
    rintro ⟨front, -⟩
    rw [type] at front
    exact clearFree entry mem front

lemma opened12_of_reads (active : start.rcv.active = true) (format : start.tls12 = true)
    (reads : (recordSource aeads).Reads start log final) (fragments : FragmentLog log) :
    ∀ entry ∈ log, Opened12 aeads entry.1 entry.2 := by
  intro entry mem
  obtain ⟨rest, next⟩ := reads.handed mem
  have same := (sameKey_of_reads reads).1 entry mem
  refine (tlsRecordRecv_tls12 (same.active.trans active) (same.format.trans format)
    (received_of_next next)).resolve_right fun change => ?_
  rw [fragments entry mem] at change
  exact absurd change (by decide)

end

end CupidOs.Tls
