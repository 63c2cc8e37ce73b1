import CupidOs.Tls.Record

/-!
# Records that are sent and received

The record that a sender protects under a sequence number is the one that a receiver with its key
opens under the same number. Two content types do not survive: the receiver takes a
ChangeCipherSpec of TLS 1.2 as it arrives, although it was encrypted, and the padding of TLS 1.3
swallows the content type zero.
-/

namespace CupidOs.Tls

open Bytes Crypto Transition
open List hiding Vector

/-- The calls of `tls_record_send`. -/
def sending (aeads : AeadAlg → Aead) : Machine RecordState Record Bool := fun r record =>
  let outcome := tlsRecordSend aeads r record.type record.data
  (outcome.2, outcome.1)

/-- The calls of `tls_record_recv`, each with the size of its buffer. -/
def receiving (aeads : AeadAlg → Aead) : Machine RecordState Nat (Except RecvError Record) :=
  fun r bufMax =>
    let outcome := tlsRecordRecv aeads r bufMax
    (outcome.2, outcome.1)

/-- The suites of the source over arbitrary block functions. -/
def suites (functions : BlockFunctions) : AeadAlg → Aead
  | .chacha20Poly1305 => chacha20poly1305 functions
  | .aes128Gcm => aes128Gcm functions

lemma suites_correct (functions : BlockFunctions) (alg : AeadAlg) :
    (suites functions alg).Correct := by
  cases alg with
  | chacha20Poly1305 => exact chacha20poly1305_correct functions
  | aes128Gcm => exact aes128Gcm_correct functions

/-- The content types that a wire format carries. -/
def Travels (tls12 : Bool) (type : UInt8) : Prop :=
  if tls12 then type ≠ rtChangeCipherSpec else type ≠ 0

instance (tls12 : Bool) (type : UInt8) : Decidable (Travels tls12 type) :=
  inferInstanceAs (Decidable (ite _ _ _))

/-- The receiving direction of one state mirrors the sending direction of another. -/
structure Mirrors (sender receiver : RecordState) : Prop where
  active : sender.snd.active = true
  dir : receiver.rcv = sender.snd
  alg : receiver.aeadAlg = sender.aeadAlg
  format : receiver.tls12 = sender.tls12

section

variable {aeads : AeadAlg → Aead}

/-- The bytes of a protected record. -/
def protectRecord (aeads : AeadAlg → Aead) (r : RecordState) (record : Record) : List UInt8 :=
  if r.tls12 then tls12Protect aeads r.aeadAlg r.snd record.type record.data
  else tls13Protect aeads r.aeadAlg r.snd record.type record.data

/-- The lengths that `tls_record_send` accepts. -/
def Sendable (tls12 : Bool) (len : Nat) : Prop :=
  if tls12 then len ≤ recMaxPlaintext else len < recMaxPlaintext

instance (tls12 : Bool) (len : Nat) : Decidable (Sendable tls12 len) :=
  inferInstanceAs (Decidable (ite _ _ _))

variable {r sender receiver : RecordState} {type : UInt8} {bufMax : Nat} {data rest : List UInt8}

lemma tlsRecordSend_of_active (active : r.snd.active = true) (record : Record) :
    tlsRecordSend aeads r record.type record.data =
      if Sendable r.tls12 record.data.length then
        sendBytes (advanceSnd r) (protectRecord aeads r record)
      else
        (false, r) := by
  cases format : r.tls12 with
  | true =>
    simp only [tlsRecordSend, active, format, and_self, if_true, Sendable, protectRecord]
    by_cases fits : record.data.length ≤ recMaxPlaintext
    · rw [if_neg (by omega), if_pos fits]
    · rw [if_pos (by omega), if_neg fits]
  | false =>
    simp only [tlsRecordSend, active, format, and_false, if_true, if_false, Bool.false_eq_true,
      Sendable, protectRecord]
    by_cases fits : record.data.length < recMaxPlaintext
    · have ciphertextFits : ¬record.data.length + 1 + 16 > recMaxCiphertext := by
        simp only [recMaxPlaintext, recMaxCiphertext] at fits ⊢
        omega
      rw [if_neg (by omega), if_neg ciphertextFits, if_pos fits]
    · rw [if_pos (by omega), if_neg fits]

variable {record : Record}

lemma tlsRecordSend_accepted (active : r.snd.active = true)
    (accepted : (tlsRecordSend aeads r record.type record.data).1 = true) :
    Sendable r.tls12 record.data.length ∧
      (tlsRecordSend aeads r record.type record.data).2.snd = { r.snd with seq := r.snd.seq + 1 } ∧
      (tlsRecordSend aeads r record.type record.data).2.aeadAlg = r.aeadAlg ∧
      (tlsRecordSend aeads r record.type record.data).2.tls12 = r.tls12 ∧
      (tlsRecordSend aeads r record.type record.data).2.outgoing =
        r.outgoing ++ protectRecord aeads r record := by
  rw [tlsRecordSend_of_active active] at accepted ⊢
  by_cases sendable : Sendable r.tls12 record.data.length
  · rw [if_pos sendable] at accepted ⊢
    exact ⟨sendable, rfl, rfl, rfl, sendBytes_complete accepted⟩
  · rw [if_neg sendable] at accepted
    cases accepted

/-! ## Receiving what was protected -/

/-- A body in the clear that is longer than the record it stands for is not that
record. -/
theorem recvPlain_ne_of_longer {bodyLen : Nat} (longer : record.data.length < bodyLen) :
    (recvPlain r type bodyLen bufMax).1 ≠ .ok record := by
  rw [recvPlain]
  split
  · simp
  split
  · simp
  rename_i body incoming received
  intro same
  have lengths := (flatten_of_xportFullRecv received).1
  cases same
  exact absurd lengths (Nat.ne_of_lt longer)

lemma tls12Open_sealed (aeads : AeadAlg → Aead) (correct : (aeads r.aeadAlg).Correct)
    (type : UInt8) (nonce data : List UInt8) (fits : data.length ≤ bufMax) :
    tls12Open aeads r type nonce ((aeads r.aeadAlg).sealBytes (aeadKey r.aeadAlg r.rcv.key) nonce
        (tls12Aad r.rcv.seq type data.length) data) data.length bufMax =
      (.ok ⟨type, data⟩, advanceRcv r) := by
  rw [tls12Open, if_neg (by omega), correct.open_sealBytes]

/-- What follows the header of a protected record of TLS 1.2. -/
def tls12Fragment (aeads : AeadAlg → Aead) (alg : AeadAlg) (dir : AeadDir) (type : UInt8)
    (data : List UInt8) : List UInt8 :=
  let aad := tls12Aad dir.seq type data.length
  match alg with
  | .aes128Gcm =>
    let nonce := dir.iv.toList.take 4 ++ seqBytes dir.seq
    seqBytes dir.seq ++ (aeads alg).sealBytes (aeadKey alg dir.key) nonce aad data
  | .chacha20Poly1305 =>
    (aeads alg).sealBytes (aeadKey alg dir.key) (composeNonce dir.iv dir.seq) aad data

/-- The explicit nonce and the tag. -/
def tls12Overhead : AeadAlg → Nat
  | .aes128Gcm => 8 + 16
  | .chacha20Poly1305 => 16

lemma length_tls12Fragment {alg : AeadAlg} (correct : (aeads alg).Correct) (dir : AeadDir)
    (type : UInt8) (data : List UInt8) :
    (tls12Fragment aeads alg dir type data).length = data.length + tls12Overhead alg := by
  cases alg with
  | aes128Gcm =>
    rw [tls12Fragment, length_append, length_seqBytes, correct.length_sealBytes, tls12Overhead]
    omega
  | chacha20Poly1305 => exact correct.length_sealBytes _ _ _ _

lemma tls12Protect_eq {alg : AeadAlg} (correct : (aeads alg).Correct) (dir : AeadDir)
    (type : UInt8) (data : List UInt8) :
    tls12Protect aeads alg dir type data =
      header type (tls12Fragment aeads alg dir type data).length ++
        tls12Fragment aeads alg dir type data := by
  rw [length_tls12Fragment correct]
  cases alg with
  | aes128Gcm =>
    rw [show data.length + tls12Overhead .aes128Gcm = 8 + data.length + 16 from by
      rw [tls12Overhead]; omega]
    simp only [tls12Protect, tls12Fragment, Aead.sealBytes, append_assoc]
  | chacha20Poly1305 => rfl

/-- The fragment of a protected record of TLS 1.2 is opened. -/
theorem tls12RecvEncrypted_protected (correct : (aeads r.aeadAlg).Correct)
    (sendable : data.length ≤ recMaxPlaintext) (nonempty : [] ∉ r.incoming)
    (arrived : r.incoming.flatten = tls12Fragment aeads r.aeadAlg r.rcv type data ++ rest) :
    ∃ remaining, tls12RecvEncrypted aeads r type
          (tls12Fragment aeads r.aeadAlg r.rcv type data).length recMaxPlaintext =
        (.ok ⟨type, data⟩, advanceRcv { r with incoming := remaining }) ∧
      remaining.flatten = rest ∧ [] ∉ remaining := by
  obtain ⟨remaining, received, restEq, restNonempty⟩ := xportFullRecv_of_flatten nonempty arrived
  refine ⟨remaining, ?_, restEq, restNonempty⟩
  have length := length_tls12Fragment correct r.rcv type data
  have small : ¬(tls12Fragment aeads r.aeadAlg r.rcv type data).length > recMaxCiphertext := by
    rw [length]
    have overhead : tls12Overhead r.aeadAlg ≤ 24 := by cases r.aeadAlg <;> decide
    simp only [recMaxPlaintext, recMaxCiphertext] at sendable ⊢
    omega
  have opened := fun nonce => tls12Open_sealed aeads (r := { r with incoming := remaining })
    correct type nonce data sendable
  rw [tls12RecvEncrypted, if_neg small, received]
  cases algEq : r.aeadAlg with
  | aes128Gcm =>
    simp only [algEq, tls12Overhead] at length opened ⊢
    rw [length, if_neg (by omega), tls12Fragment,
      take_left' (length_seqBytes _), drop_left' (length_seqBytes _),
      show data.length + (8 + 16) - 8 - 16 = data.length from by omega]
    exact opened _
  | chacha20Poly1305 =>
    simp only [algEq, tls12Overhead] at length opened ⊢
    rw [length, if_neg (by omega), tls12Fragment, Nat.add_sub_cancel]
    exact opened _

/-- Nothing is left of the padding once the type is split off. -/
theorem unwrapInner_append (nonzero : type ≠ 0) (fits : data.length ≤ bufMax) :
    unwrapInner (data ++ [type]) bufMax = .ok ⟨type, data⟩ := by
  have kept : ¬(type == 0) = true := by simpa using nonzero
  rw [unwrapInner, reverse_append, reverse_singleton, singleton_append,
    dropWhile_cons, if_neg kept]
  show (if data.reverse.length > bufMax then _ else _) = _
  rw [if_neg (by rw [length_reverse]; omega), reverse_reverse]

lemma type_ne_zero_of_unwrapInner {inner : List UInt8}
    (unwrapped : unwrapInner inner bufMax = .ok record) : record.type ≠ 0 := by
  rw [unwrapInner] at unwrapped
  split at unwrapped
  · cases unwrapped
  rename_i innerType reversed stripped
  split at unwrapped
  · cases unwrapped
  cases unwrapped
  have nonempty : inner.reverse.dropWhile (· == 0) ≠ [] := by rw [stripped]; exact cons_ne_nil _ _
  have kept := head_dropWhile_not (· == 0) nonempty
  simpa [stripped] using kept

/-- What follows the header of a protected record of TLS 1.3. -/
def tls13Fragment (aeads : AeadAlg → Aead) (alg : AeadAlg) (dir : AeadDir) (type : UInt8)
    (data : List UInt8) : List UInt8 :=
  (aeads alg).sealBytes (aeadKey alg dir.key) (composeNonce dir.iv dir.seq)
    (header rtApplicationData (data.length + 1 + 16)) (data ++ [type])

/-- The fragment of a protected record of TLS 1.3 is opened and unwrapped. -/
theorem tls13RecvEncrypted_protected (correct : (aeads r.aeadAlg).Correct)
    (sendable : data.length < recMaxPlaintext) (nonempty : [] ∉ r.incoming)
    (arrived : r.incoming.flatten = tls13Fragment aeads r.aeadAlg r.rcv type data ++ rest) :
    ∃ remaining, tls13RecvEncrypted aeads r (header rtApplicationData (data.length + 1 + 16))
          (data.length + 1 + 16) recMaxPlaintext =
        (unwrapInner (data ++ [type]) recMaxPlaintext,
          advanceRcv { r with incoming := remaining }) ∧
      remaining.flatten = rest ∧ [] ∉ remaining := by
  obtain ⟨remaining, received, restEq, restNonempty⟩ := xportFullRecv_of_flatten nonempty arrived
  refine ⟨remaining, ?_, restEq, restNonempty⟩
  have plainLength : (data ++ [type]).length = data.length + 1 := length_append
  have length : (tls13Fragment aeads r.aeadAlg r.rcv type data).length = data.length + 1 + 16 := by
    rw [tls13Fragment, correct.length_sealBytes, plainLength]
  have opened := correct.open_sealBytes (aeadKey r.aeadAlg r.rcv.key)
    (composeNonce r.rcv.iv r.rcv.seq) (header rtApplicationData (data.length + 1 + 16))
    (data ++ [type])
  rw [plainLength] at opened
  rw [length, tls13Fragment] at received
  simp only [recMaxPlaintext] at sendable ⊢
  rw [tls13RecvEncrypted, if_neg (by omega), if_neg (by rw [recMaxCiphertext]; omega), received]
  simp only [Nat.add_sub_cancel, opened]
  rw [if_neg (by omega)]

/-! ## One record -/

/-- The receiver gets the record if and only if its type travels, and then mirrors the sender again.
-/
theorem tlsRecordRecv_protected (correct : ∀ alg, (aeads alg).Correct)
    (mirrors : Mirrors sender receiver) (sendable : Sendable sender.tls12 record.data.length)
    (nonempty : [] ∉ receiver.incoming)
    (arrived : receiver.incoming.flatten = protectRecord aeads sender record ++ rest) :
    (Travels sender.tls12 record.type → ∃ remaining, tlsRecordRecv aeads receiver recMaxPlaintext =
          (.ok record, advanceRcv { receiver with incoming := remaining }) ∧
        remaining.flatten = rest ∧ [] ∉ remaining) ∧
    (¬Travels sender.tls12 record.type →
      (tlsRecordRecv aeads receiver recMaxPlaintext).1 ≠ .ok record) := by
  have active : receiver.rcv.active = true := by rw [mirrors.dir, mirrors.active]
  cases format : sender.tls12 with
  | true =>
    have receiverFormat : receiver.tls12 = true := by rw [mirrors.format, format]
    rw [format, Sendable, if_pos rfl] at sendable
    rw [protectRecord, if_pos format, ← mirrors.alg, ← mirrors.dir,
      tls12Protect_eq (correct _), append_assoc] at arrived
    obtain ⟨remaining, received, bodyArrived, bodyNonempty⟩ :=
      tlsRecordRecv_of_arrived aeads recMaxPlaintext nonempty arrived
    have length := length_tls12Fragment (correct receiver.aeadAlg) receiver.rcv record.type
      record.data
    have overhead : tls12Overhead receiver.aeadAlg ≤ 24 ∧ 0 < tls12Overhead receiver.aeadAlg := by
      cases receiver.aeadAlg <;> decide
    have lenEq := headerLen_header record.type
      (tls12Fragment aeads receiver.aeadAlg receiver.rcv record.type record.data).length
      (by simp only [recMaxPlaintext] at sendable; omega)
    rw [received, recvBody_tls12 (r := { receiver with incoming := remaining }) active
      receiverFormat, headerType_header, lenEq, Travels, if_pos rfl]
    constructor
    · intro travels
      rw [if_neg travels]
      exact tls12RecvEncrypted_protected (r := { receiver with incoming := remaining })
        (correct _) sendable bodyNonempty bodyArrived
    · intro changes
      rw [if_pos (not_not.mp changes)]
      exact recvPlain_ne_of_longer (by omega)
  | false =>
    have receiverFormat : receiver.tls12 = false := by rw [mirrors.format, format]
    rw [format, Sendable, if_neg (by simp)] at sendable
    rw [protectRecord, if_neg (by simp [format]), ← mirrors.alg, ← mirrors.dir] at arrived
    have split : tls13Protect aeads receiver.aeadAlg receiver.rcv record.type record.data =
        header rtApplicationData (record.data.length + 1 + 16) ++
          tls13Fragment aeads receiver.aeadAlg receiver.rcv record.type record.data := rfl
    rw [split, append_assoc] at arrived
    obtain ⟨remaining, received, bodyArrived, bodyNonempty⟩ :=
      tlsRecordRecv_of_arrived aeads recMaxPlaintext nonempty arrived
    have lenEq := headerLen_header rtApplicationData (record.data.length + 1 + 16)
      (by simp only [recMaxPlaintext] at sendable; omega)
    rw [received, recvBody_tls13 (r := { receiver with incoming := remaining }) active
      receiverFormat, headerType_header, lenEq, if_pos rfl, Travels, if_neg Bool.false_ne_true]
    obtain ⟨after, opened, afterArrived, afterNonempty⟩ :=
      tls13RecvEncrypted_protected (r := { receiver with incoming := remaining })
        (correct _) sendable bodyNonempty bodyArrived
    rw [opened]
    constructor
    · intro travels
      rw [unwrapInner_append travels (le_of_lt sendable)]
      exact ⟨after, rfl, afterArrived, afterNonempty⟩
    · intro zero unwrapped
      exact type_ne_zero_of_unwrapInner unwrapped (not_not.mp zero)

/-! ## Every sequence of records -/

/-- Each record arrives in order, and both sequence numbers are equal after it. -/
def ReceivedUnchanged (aeads : AeadAlg → Aead) (sender receiver : RecordState)
    (records : List Record) : Prop :=
  (receiving aeads).outputs receiver (replicate records.length recMaxPlaintext) =
      records.map .ok ∧
    ∀ count ≤ records.length,
      ((receiving aeads).run receiver (replicate count recMaxPlaintext)).rcv.seq =
        ((sending aeads).run sender (records.take count)).snd.seq

lemma receivedUnchanged_nil (mirrors : Mirrors sender receiver) :
    ReceivedUnchanged aeads sender receiver [] := by
  refine ⟨rfl, fun count bound => ?_⟩
  rw [Nat.le_zero.mp bound]
  show receiver.rcv.seq = sender.snd.seq
  rw [mirrors.dir]

lemma receivedUnchanged_cons_iff (mirrors : Mirrors sender receiver) (record : Record)
    (records : List Record) :
    ReceivedUnchanged aeads sender receiver (record :: records) ↔
      (tlsRecordRecv aeads receiver recMaxPlaintext).1 = .ok record ∧
        ReceivedUnchanged aeads (tlsRecordSend aeads sender record.type record.data).2
          (tlsRecordRecv aeads receiver recMaxPlaintext).2 records := by
  constructor
  · rintro ⟨outputs, numbers⟩
    rw [length_cons, replicate_succ, Machine.outputs, map_cons] at outputs
    obtain ⟨first, others⟩ := cons.inj outputs
    refine ⟨first, others, fun count bound => ?_⟩
    exact numbers (count + 1) (Nat.succ_le_succ bound)
  · rintro ⟨first, others, numbers⟩
    refine ⟨?_, fun count bound => ?_⟩
    · rw [length_cons, replicate_succ, Machine.outputs, map_cons]
      exact congrArg₂ cons first others
    · cases count with
      | zero =>
        show receiver.rcv.seq = sender.snd.seq
        rw [mirrors.dir]
      | succ count => exact numbers count (Nat.le_of_succ_le_succ bound)

lemma outgoing_run_sending (active : sender.snd.active = true) {records : List Record}
    (accepted : ∀ result ∈ (sending aeads).outputs sender records, result = true) :
    ∃ later, ((sending aeads).run sender records).outgoing = sender.outgoing ++ later := by
  induction records generalizing sender with
  | nil => exact ⟨[], (append_nil _).symm⟩
  | cons record records ih =>
    rw [Machine.outputs, forall_mem_cons] at accepted
    obtain ⟨-, sndEq, -, -, outgoingEq⟩ := tlsRecordSend_accepted active accepted.1
    obtain ⟨later, laterEq⟩ := ih (by rw [sending, sndEq]; exact active) accepted.2
    refine ⟨protectRecord aeads sender record ++ later, ?_⟩
    rw [Machine.run_cons, laterEq, sending, outgoingEq, append_assoc]

/-- Records are received as they were sent if and only if their types travel. -/
theorem receivedUnchanged_iff (correct : ∀ alg, (aeads alg).Correct)
    (mirrors : Mirrors sender receiver) {records : List Record}
    (accepted : ∀ result ∈ (sending aeads).outputs sender records, result = true)
    (nonempty : [] ∉ receiver.incoming) (arrived : ((sending aeads).run sender records).outgoing =
      sender.outgoing ++ receiver.incoming.flatten) :
    ReceivedUnchanged aeads sender receiver records ↔
      ∀ record ∈ records, Travels sender.tls12 record.type := by
  induction records generalizing sender receiver with
  | nil => exact iff_of_true (receivedUnchanged_nil mirrors) (forall_mem_nil _)
  | cons record records ih =>
    rw [Machine.outputs, forall_mem_cons] at accepted
    obtain ⟨sendable, sndEq, algEq, formatEq, outgoingEq⟩ :=
      tlsRecordSend_accepted mirrors.active accepted.1
    have nextActive : (tlsRecordSend aeads sender record.type record.data).2.snd.active = true := by
      rw [sndEq]
      exact mirrors.active
    obtain ⟨later, laterEq⟩ := outgoing_run_sending nextActive accepted.2
    have stream : receiver.incoming.flatten = protectRecord aeads sender record ++ later := by
      rw [Machine.run_cons, sending, laterEq, outgoingEq, append_assoc] at arrived
      exact (append_cancel_left arrived).symm
    obtain ⟨arrives, lost⟩ := tlsRecordRecv_protected correct mirrors sendable nonempty stream
    rw [receivedUnchanged_cons_iff mirrors, forall_mem_cons]
    by_cases travels : Travels sender.tls12 record.type
    · obtain ⟨remaining, received, remainingEq, remainingNonempty⟩ := arrives travels
      have mirrorsNext : Mirrors (tlsRecordSend aeads sender record.type record.data).2
          (advanceRcv { receiver with incoming := remaining }) := by
        refine ⟨nextActive, ?_, ?_, ?_⟩
        · rw [sndEq, ← mirrors.dir]
          rfl
        · rw [algEq, ← mirrors.alg]
          rfl
        · rw [formatEq, ← mirrors.format]
          rfl
      have later := ih mirrorsNext accepted.2 remainingNonempty (by
        show _ = _ ++ remaining.flatten
        rw [remainingEq]
        exact laterEq)
      rw [formatEq] at later
      rw [received, later]
      exact and_congr (iff_of_true rfl travels) Iff.rfl
    · exact iff_of_false (fun both => lost travels both.1) (fun both => travels both.1)

end

/-! ## An exchange of one record -/

section Exchange

variable (functions : BlockFunctions) (tls12 : Bool) (record : Record)

/-- A sender with a key whose transport takes a hundred bytes at once. -/
def exampleSender : RecordState :=
  { tlsRecordInit [] [100] with
    snd := installKey (replicate 32 1) (Vector.replicate 12 2), tls12 := tls12 }

/-- A receiver with the key of `exampleSender`, to which all bytes come in one piece. -/
def exampleReceiver : RecordState :=
  { tlsRecordInit [protectRecord (suites functions) (exampleSender tls12) record] [] with
    rcv := installKey (replicate 32 1) (Vector.replicate 12 2), tls12 := tls12 }

lemma exampleMirrors : Mirrors (exampleSender tls12) (exampleReceiver functions tls12 record) :=
  ⟨rfl, rfl, rfl, rfl⟩

/-- A transport that takes everything at once completes a send. -/
theorem xportFullSend_of_room {taken : Nat} {bytes : List UInt8} (writes : List Nat)
    (positive : 0 < taken) (room : bytes.length ≤ taken) :
    (xportFullSend (taken :: writes) bytes).1 = true := by
  cases bytes with
  | nil => rfl
  | cons byte bytes =>
    rw [xportFullSend, if_neg (by omega), drop_of_length_le room]
    cases writes <;> rfl

lemma length_protectRecord {aeads : AeadAlg → Aead} (correct : ∀ alg, (aeads alg).Correct)
    (r : RecordState) :
    record.data.length < (protectRecord aeads r record).length ∧
      (protectRecord aeads r record).length ≤ record.data.length + 29 := by
  rw [protectRecord]
  split
  · have overhead : tls12Overhead r.aeadAlg ≤ 24 := by cases r.aeadAlg <;> decide
    rw [tls12Protect_eq (correct _), length_append, length_header,
      length_tls12Fragment (correct _), recHeaderSize]
    omega
  · simp only [tls13Protect, length_append, length_header, (correct _).length_ciphertext,
      (correct _).length_tag, length_singleton, recHeaderSize]
    omega

/-- The exchange of a short record meets what the round trip asks for. -/
theorem exampleExchange (short : record.data.length ≤ 50) :
    (∀ result ∈ (sending (suites functions)).outputs (exampleSender tls12) [record],
        result = true) ∧
      [] ∉ (exampleReceiver functions tls12 record).incoming ∧
      ((sending (suites functions)).run (exampleSender tls12) [record]).outgoing =
        (exampleSender tls12).outgoing ++
          (exampleReceiver functions tls12 record).incoming.flatten := by
  have lengths := length_protectRecord record (suites_correct functions) (exampleSender tls12)
  have sendable : Sendable (exampleSender tls12).tls12 record.data.length := by
    rw [Sendable, recMaxPlaintext]
    split <;> omega
  have accepted : (tlsRecordSend (suites functions) (exampleSender tls12) record.type
      record.data).1 = true := by
    rw [tlsRecordSend_of_active rfl, if_pos sendable]
    exact xportFullSend_of_room [] (by decide) (by omega)
  refine ⟨?_, ?_, ?_⟩
  · intro result mem
    rw [mem_singleton.mp mem]
    exact accepted
  · intro mem
    have empty := congrArg length (mem_singleton.mp mem)
    rw [length_nil] at empty
    omega
  · have outgoing := (tlsRecordSend_accepted (r := exampleSender tls12) rfl accepted).2.2.2.2
    simpa [exampleReceiver, tlsRecordInit, sending] using outgoing

lemma exampleExchange_lost (short : record.data.length ≤ 50) (lost : ¬Travels tls12 record.type) :
    Mirrors (exampleSender tls12) (exampleReceiver functions tls12 record) ∧
      (∀ result ∈ (sending (suites functions)).outputs (exampleSender tls12) [record],
        result = true) ∧
      ¬ReceivedUnchanged (suites functions) (exampleSender tls12)
        (exampleReceiver functions tls12 record) [record] := by
  obtain ⟨accepted, nonempty, arrived⟩ := exampleExchange functions tls12 record short
  have mirrors := exampleMirrors functions tls12 record
  refine ⟨mirrors, accepted, fun received => lost ?_⟩
  have travel := (receivedUnchanged_iff (suites_correct functions) mirrors accepted nonempty
    arrived).mp received
  exact travel record (mem_singleton_self record)

end Exchange

/-- For both suites and both wire formats, every sequence of accepted records is
received unchanged and in order, however the transport cuts the bytes, exactly if
no record of TLS 1.2 is a ChangeCipherSpec and no record of TLS 1.3 has type zero. -/
theorem records_received_unchanged_iff (functions : BlockFunctions)
    {sender receiver : RecordState} (mirrors : Mirrors sender receiver) {records : List Record}
    (accepted : ∀ result ∈ (sending (suites functions)).outputs sender records, result = true)
    (nonempty : [] ∉ receiver.incoming)
    (arrived : ((sending (suites functions)).run sender records).outgoing =
      sender.outgoing ++ receiver.incoming.flatten) :
    ReceivedUnchanged (suites functions) sender receiver records ↔
      ∀ record ∈ records, Travels sender.tls12 record.type :=
  receivedUnchanged_iff (suites_correct functions) mirrors accepted nonempty arrived

/-- Block functions that return zeros. -/
def zeroFunctions : BlockFunctions where
  chacha20Block _ _ _ := Vector.replicate 64 0
  aes128EncryptBlock _ _ := Vector.replicate 16 0
  ghashMul _ _ := Vector.replicate 16 0

/-- An application record whose data ends in a zero arrives in TLS 1.3. -/
theorem application_record_received : ReceivedUnchanged (suites zeroFunctions) (exampleSender false)
      (exampleReceiver zeroFunctions false ⟨23, [7, 0]⟩) [⟨23, [7, 0]⟩] :=
  have exchange := exampleExchange zeroFunctions false ⟨23, [7, 0]⟩ (by decide)
  (records_received_unchanged_iff zeroFunctions (exampleMirrors zeroFunctions false ⟨23, [7, 0]⟩)
    exchange.1 exchange.2.1 exchange.2.2).mpr (by decide)

/-- The type zero is taken for padding in TLS 1.3, and an encrypted ChangeCipherSpec
is returned as it is on the wire in TLS 1.2. -/
theorem padding_type_and_change_cipher_spec_lost :
    (Mirrors (exampleSender false) (exampleReceiver zeroFunctions false ⟨0, [7]⟩) ∧
      (∀ result ∈ (sending (suites zeroFunctions)).outputs (exampleSender false) [⟨0, [7]⟩],
        result = true) ∧
      ¬ReceivedUnchanged (suites zeroFunctions) (exampleSender false)
        (exampleReceiver zeroFunctions false ⟨0, [7]⟩) [⟨0, [7]⟩]) ∧
    (Mirrors (exampleSender true) (exampleReceiver zeroFunctions true ⟨20, [1]⟩) ∧
      (∀ result ∈ (sending (suites zeroFunctions)).outputs (exampleSender true) [⟨20, [1]⟩],
        result = true) ∧
      ¬ReceivedUnchanged (suites zeroFunctions) (exampleSender true)
        (exampleReceiver zeroFunctions true ⟨20, [1]⟩) [⟨20, [1]⟩]) := by
  exact ⟨exampleExchange_lost _ _ _ (by decide) (by decide),
    exampleExchange_lost _ _ _ (by decide) (by decide)⟩

end CupidOs.Tls
