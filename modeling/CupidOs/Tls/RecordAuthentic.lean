import CupidOs.Tls.RecordRoundTrip

/-!
# Records that an attacker cannot forge

An AEAD that opens nothing but what the peer has sealed makes each record that is opened under a
sequence number the one that the peer sealed under it. In TLS 1.2 every record but a
ChangeCipherSpec is opened; in TLS 1.3 only application data is, so the attacker must not choose
another outer type.
-/

namespace CupidOs.Tls

open Bytes Crypto Transition
open List hiding Vector

/-! ## What the peer seals -/

/-- The nonce of TLS 1.2. -/
def tls12Nonce (alg : AeadAlg) (dir : AeadDir) : List UInt8 :=
  match alg with
  | .aes128Gcm => dir.iv.toList.take 4 ++ seqBytes dir.seq
  | .chacha20Poly1305 => composeNonce dir.iv dir.seq

/-- Nonce, additional data and plaintext of one protected record. -/
def sealInputs (tls12 : Bool) (alg : AeadAlg) (dir : AeadDir) (record : Record) :
    List UInt8 × List UInt8 × List UInt8 :=
  if tls12 then
    (tls12Nonce alg dir, tls12Aad dir.seq record.type record.data.length, record.data)
  else
    (composeNonce dir.iv dir.seq, header rtApplicationData (record.data.length + 1 + 16),
      record.data ++ [record.type])

/-- The records of a list that `tls_record_send` protects. -/
def accepted (tls12 : Bool) (records : List Record) : List Record :=
  records.filter fun record => Sendable tls12 record.data.length

/-- A direction after a number of records. -/
def AeadDir.after (dir : AeadDir) (count : Nat) : AeadDir :=
  { dir with seq := dir.seq + UInt64.ofNat count }

lemma AeadDir.after_zero (dir : AeadDir) : dir.after 0 = dir := by
  simp [AeadDir.after]

lemma AeadDir.after_succ (dir : AeadDir) (count : Nat) :
    dir.after (count + 1) = { dir.after count with seq := (dir.after count).seq + 1 } := by
  simp [AeadDir.after, UInt64.ofNat_add, UInt64.add_assoc]

lemma AeadDir.after_advanced (dir : AeadDir) (count : Nat) :
    ({ dir with seq := dir.seq + 1 } : AeadDir).after count = dir.after (count + 1) := by
  simp [AeadDir.after, UInt64.ofNat_add, UInt64.add_assoc, UInt64.add_comm]

lemma AeadDir.after_seq_inj {dir : AeadDir} {first second : Nat} (firstFits : first < 2 ^ 64)
    (secondFits : second < 2 ^ 64) (same : (dir.after first).seq = (dir.after second).seq) :
    first = second := by
  have numbers : UInt64.ofNat first = UInt64.ofNat second := by
    simpa [AeadDir.after] using same
  have values := congrArg UInt64.toNat numbers
  rwa [UInt64.toNat_ofNat', UInt64.toNat_ofNat', Nat.mod_eq_of_lt firstFits,
    Nat.mod_eq_of_lt secondFits] at values

lemma seqBytes_inj {first second : UInt64} (same : seqBytes first = seqBytes second) :
    first = second :=
  UInt64.toNat_inj.mp (encodeBE_inj first.toNat_lt second.toNat_lt same)

lemma composeNonce_inj {iv : Vector UInt8 12} {first second : UInt64}
    (same : composeNonce iv first = composeNonce iv second) : first = second := by
  have keys := append_cancel_left same
  exact seqBytes_inj (xorBytes_left_inj (by simp) (by simp) keys)

section

variable {aeads : AeadAlg → Aead}

/-- The peer has sealed a plaintext among the records of a list. -/
def SealedBy (aeads : AeadAlg → Aead) (peer : RecordState) (records : List Record)
    (nonce aad plaintext : List UInt8) : Prop :=
  ∃ earlier record later, records = earlier ++ record :: later ∧
    Sendable peer.tls12 record.data.length ∧
    sealInputs peer.tls12 peer.aeadAlg ((sending aeads).run peer earlier).snd record =
      (nonce, aad, plaintext)

/-- The AEAD opens under the peer's key only what the peer has sealed. -/
structure Unforgeable (aeads : AeadAlg → Aead) (peer : RecordState) (records : List Record) :
    Prop where
  length_ciphertext : ∀ key nonce aad plaintext,
    ((aeads peer.aeadAlg).sealWith key nonce aad plaintext).1.length = plaintext.length
  opened : ∀ nonce aad ct tag plaintext,
    (aeads peer.aeadAlg).openWith (aeadKey peer.aeadAlg peer.snd.key) nonce aad ct tag =
        some plaintext →
      SealedBy aeads peer records nonce aad plaintext ∧
        (aeads peer.aeadAlg).sealWith (aeadKey peer.aeadAlg peer.snd.key) nonce aad plaintext =
          (ct, tag)

lemma run_sending {peer : RecordState} (active : peer.snd.active = true)
    (records : List Record) :
    ((sending aeads).run peer records).snd = peer.snd.after (accepted peer.tls12 records).length ∧
      ((sending aeads).run peer records).tls12 = peer.tls12 := by
  induction records generalizing peer with
  | nil => exact ⟨peer.snd.after_zero.symm, rfl⟩
  | cons record records ih =>
    rw [Machine.run_cons, sending, tlsRecordSend_of_active active, accepted, filter_cons]
    by_cases sendable : Sendable peer.tls12 record.data.length
    · have nextActive : (sendBytes (advanceSnd peer)
          (protectRecord aeads peer record)).2.snd.active = true := active
      obtain ⟨dir, format⟩ := ih nextActive
      rw [if_pos sendable, if_pos (decide_eq_true sendable)]
      exact ⟨dir.trans (peer.snd.after_advanced _), format⟩
    · rw [if_neg sendable, if_neg (by simpa using sendable)]
      exact ih active

/-- What was sealed is numbered by its place among the accepted records. -/
theorem SealedBy.index {peer : RecordState} (active : peer.snd.active = true)
    {records : List Record} {nonce aad plaintext : List UInt8}
    (seals : SealedBy aeads peer records nonce aad plaintext) :
    ∃ index record, (accepted peer.tls12 records)[index]? = some record ∧
      sealInputs peer.tls12 peer.aeadAlg (peer.snd.after index) record =
        (nonce, aad, plaintext) := by
  obtain ⟨earlier, record, later, split, sendable, inputs⟩ := seals
  refine ⟨(accepted peer.tls12 earlier).length, record, ?_, ?_⟩
  · rw [split, accepted, filter_append, filter_cons, if_pos (decide_eq_true sendable)]
    exact getElem?_append_right (Nat.le_refl _) |>.trans (by simp)
  · rw [← (run_sending active earlier).1, inputs]

/-! ## One call -/

/-- A receiver that has opened the first records of the peer. -/
structure Follows (peer r : RecordState) (count : Nat) : Prop where
  dir : r.rcv = peer.snd.after count
  alg : r.aeadAlg = peer.aeadAlg
  format : r.tls12 = peer.tls12

/-- A call returns no record but a ChangeCipherSpec, or the peer's next record and uses its number.
-/
inductive Outcome (r : RecordState) (next : Option Record) :
    Except RecvError Record × RecordState → Prop
  | skipped {incoming : List (List UInt8)} {result : Except RecvError Record}
      (skips : ∀ record, result = .ok record → record.type = rtChangeCipherSpec) :
      Outcome r next (result, { r with incoming })
  | opened {incoming : List (List UInt8)} {record : Record} (isNext : next = some record) :
      Outcome r next (.ok record, advanceRcv { r with incoming })

lemma Outcome.error {r : RecordState} {next : Option Record} (incoming : List (List UInt8))
    (error : RecvError) : Outcome r next (.error error, { r with incoming }) :=
  .skipped nofun

lemma tls12Aad_inj {firstSeq secondSeq : UInt64} {firstType secondType : UInt8}
    {firstLen secondLen : Nat}
    (same : tls12Aad firstSeq firstType firstLen = tls12Aad secondSeq secondType secondLen) :
    firstSeq = secondSeq ∧ firstType = secondType := by
  simp only [tls12Aad, append_assoc] at same
  obtain ⟨seqs, rest⟩ := append_inj same (by simp)
  exact ⟨seqBytes_inj seqs, (cons.inj rest).1⟩

variable {peer r : RecordState} {records : List Record} {count : Nat}

/-- The next outer type, if there is one, belongs to a protected record. -/
def OuterProtected (r : RecordState) : Prop :=
  ∀ type ∈ r.incoming.flatten.head?, type = rtChangeCipherSpec ∨ type = rtApplicationData

instance (r : RecordState) : Decidable (OuterProtected r) :=
  inferInstanceAs (Decidable (∀ type ∈ r.incoming.flatten.head?, _))

lemma headerType_mem_head? {incoming later hdr : List UInt8} (length : hdr.length = recHeaderSize)
    (stream : incoming = hdr ++ later) : headerType hdr ∈ incoming.head? := by
  cases hdr with
  | nil => cases length
  | cons type fields =>
    rw [stream]
    rfl

/-- The records other than ChangeCipherSpec. -/
def content (records : List Record) : List Record :=
  records.filter fun record => record.type ≠ rtChangeCipherSpec

/-- The records that a list of calls has returned. -/
def returned (results : List (Except RecvError Record)) : List Record :=
  results.filterMap Except.toOption

lemma content_returned_skipped {result : Except RecvError Record}
    (skips : ∀ record, result = .ok record → record.type = rtChangeCipherSpec)
    (results : List (Except RecvError Record)) :
    content (returned (result :: results)) = content (returned results) := by
  cases result with
  | error error => rfl
  | ok record => simp [content, returned, Except.toOption, skips record rfl]

section

variable (unforgeable : Unforgeable aeads peer records)
  (active : peer.snd.active = true) (few : (accepted peer.tls12 records).length < 2 ^ 64)
  (typed : peer.tls12 = false → ∀ record ∈ accepted peer.tls12 records, record.type ≠ 0)
  (follows : Follows peer r count) (bound : count ≤ (accepted peer.tls12 records).length)
include unforgeable active few typed follows bound

/-- Unlike TLS 1.2, a plaintext that is not unwrapped has used its number. -/
theorem tlsRecordRecv_outcome (outer : peer.tls12 = false → OuterProtected r) (bufMax : Nat) :
    Outcome r (accepted peer.tls12 records)[count]? (tlsRecordRecv aeads r bufMax) := by
  have effect := effect_tlsRecordRecv aeads r bufMax
  generalize tlsRecordRecv aeads r bufMax = outcome at effect
  cases effect with
  | failed error incoming => exact .error incoming error
  | @plain hdr body incoming length stream clear =>
    refine .skipped fun record same => ?_
    cases same
    have isActive : r.rcv.active = true := by
      rw [follows.dir]
      exact active
    have types := clear isActive
    split at types
    · exact types
    · rename_i format
      rw [append_assoc] at stream
      have sealedRecord := outer (by rw [← follows.format]; exact Bool.eq_false_iff.mpr format) _
        (headerType_mem_head? length stream)
      exact sealedRecord.resolve_right types
  | @opened12 front nonce ct tag data incoming length stream format success =>
    rw [follows.alg, follows.dir] at success
    obtain ⟨index, record, place, inputs⟩ := (unforgeable.opened _ _ _ _ _ success).1.index active
    rw [sealInputs, if_pos (follows.format.symm.trans format)] at inputs
    obtain ⟨-, inputs⟩ := Prod.mk.inj inputs
    obtain ⟨aads, plaintexts⟩ := Prod.mk.inj inputs
    obtain ⟨seqs, types⟩ := tls12Aad_inj aads
    have inside := (List.getElem?_eq_some_iff.mp place).1
    have same := AeadDir.after_seq_inj (by omega) (by omega) seqs
    refine .opened ?_
    rw [← same, place, ← types, ← plaintexts]
  | @opened13 hdr ct tag inner incoming result length stream format application room success
      unwrapped =>
    rw [follows.alg, follows.dir] at success
    have peerFormat := follows.format.symm.trans format
    obtain ⟨seals, sealing⟩ := unforgeable.opened _ _ _ _ _ success
    obtain ⟨index, record, place, inputs⟩ := seals.index active
    rw [sealInputs, if_neg (by simp [peerFormat])] at inputs
    obtain ⟨nonces, inputs⟩ := Prod.mk.inj inputs
    obtain ⟨-, plaintexts⟩ := Prod.mk.inj inputs
    have inside := (List.getElem?_eq_some_iff.mp place).1
    have same := AeadDir.after_seq_inj (by omega) (by omega) (composeNonce_inj nonces)
    have innerLength : inner.length = ct.length := by
      rw [← unforgeable.length_ciphertext _ _ _ inner, sealing]
    have fits : record.data.length ≤ bufMax := by
      rw [← plaintexts, length_append, length_singleton] at innerLength
      omega
    rw [← unwrapped, ← plaintexts,
      unwrapInner_append (typed peerFormat record (mem_of_getElem? place)) fits]
    refine .opened ?_
    rw [← same, place]

/-! ## Every run -/

/-- From a receiver that follows the peer, a run returns the next records. -/
theorem content_returned_of_follows {calls : List Nat}
    (outer : (receiving aeads).Along (fun r _ => peer.tls12 = false → OuterProtected r) r calls) :
    content (returned ((receiving aeads).outputs r calls)) <+:
      content ((accepted peer.tls12 records).drop count) := by
  induction calls generalizing r count with
  | nil => exact nil_prefix
  | cons bufMax calls ih =>
    have step := tlsRecordRecv_outcome unforgeable active few typed follows bound outer.1 bufMax
    have later := outer.2
    rw [Machine.outputs]
    simp only [receiving] at later ⊢
    generalize tlsRecordRecv aeads r bufMax = outcome at step later
    cases step with
    | skipped skips =>
      rw [content_returned_skipped skips]
      exact ih ⟨follows.dir, follows.alg, follows.format⟩ bound later
    | @opened incoming record isNext =>
      obtain ⟨inside, recordEq⟩ := List.getElem?_eq_some_iff.mp isNext
      have next : Follows peer (advanceRcv { r with incoming }) (count + 1) := by
        refine ⟨?_, follows.alg, follows.format⟩
        rw [AeadDir.after_succ, ← follows.dir]
        rfl
      rw [drop_eq_getElem_cons inside, recordEq]
      show content ([record] ++ returned _) <+: content ([record] ++ _)
      rw [content, content, filter_append, filter_append]
      exact (prefix_append_right_inj _).mpr (ih next inside later)

end

/-- Once the receive key is active, no attacker on the transport makes the receiver
return anything but the peer's records, in order and without a gap: always in
TLS 1.2, and in TLS 1.3 as long as the attacker keeps to the outer types of
protected records and the peer to types that padding does not hide. -/
theorem returned_records_were_sent {peer receiver : RecordState} (mirrors : Mirrors peer receiver)
    {records : List Record} (unforgeable : Unforgeable aeads peer records)
    (few : (accepted peer.tls12 records).length < 2 ^ 64)
    (typed : peer.tls12 = false → ∀ record ∈ accepted peer.tls12 records, record.type ≠ 0)
    {calls : List Nat}
    (outer : (receiving aeads).Along (fun r _ => peer.tls12 = false → OuterProtected r)
      receiver calls) :
    content (returned ((receiving aeads).outputs receiver calls)) <+:
      content (accepted peer.tls12 records) := by
  have follows : Follows peer receiver 0 :=
    ⟨mirrors.dir.trans peer.snd.after_zero.symm, mirrors.alg, mirrors.format⟩
  exact content_returned_of_follows unforgeable mirrors.active few typed follows (Nat.zero_le _)
    outer

end

/-- An AEAD that opens what a ledger lists. -/
def ledgerAead (ledger : List (List UInt8 × List UInt8 × List UInt8)) : Aead where
  sealWith _ _ _ plaintext := (plaintext, replicate 16 0)
  openWith _ nonce aad ct tag :=
    if (nonce, aad, ct) ∈ ledger ∧ tag = replicate 16 0 then some ct else none

lemma ledgerAead_unforgeable {peer : RecordState} {records : List Record}
    {ledger : List (List UInt8 × List UInt8 × List UInt8)} (listed : ∀ entry ∈ ledger,
      SealedBy (fun _ => ledgerAead ledger) peer records entry.1 entry.2.1 entry.2.2) :
    Unforgeable (fun _ => ledgerAead ledger) peer records := by
  refine ⟨fun _ _ _ _ => rfl, fun nonce aad ct tag plaintext success => ?_⟩
  simp only [ledgerAead, Option.ite_none_right_eq_some, Option.some.injEq] at success
  obtain ⟨⟨mem, zeros⟩, same⟩ := success
  subst same zeros
  exact ⟨listed _ mem, rfl⟩

/-- The two records of the example. -/
def exampleRecords : List Record := [⟨23, [7]⟩, ⟨22, [8, 0]⟩]

/-- The ledger of the example records. -/
def exampleLedger : List (List UInt8 × List UInt8 × List UInt8) :=
  [sealInputs false .chacha20Poly1305 (exampleSender false).snd ⟨23, [7]⟩,
    sealInputs false .chacha20Poly1305 ((exampleSender false).snd.after 1) ⟨22, [8, 0]⟩]

/-- A receiver of TLS 1.3 with the key of `exampleSender`. -/
def listener (incoming : List (List UInt8)) : RecordState :=
  { tlsRecordInit incoming [] with
    rcv := installKey (replicate 32 1) (Vector.replicate 12 2) }

lemma exampleLedger_unforgeable :
    Unforgeable (fun _ => ledgerAead exampleLedger) (exampleSender false) exampleRecords := by
  refine ledgerAead_unforgeable fun entry mem => ?_
  rw [exampleLedger, mem_cons, mem_singleton] at mem
  rcases mem with rfl | rfl
  · exact ⟨[], _, [⟨22, [8, 0]⟩], rfl, by decide, rfl⟩
  · exact ⟨[⟨23, [7]⟩], _, [], rfl, by decide, by decide⟩

/-- The attacker replays the first record before it lets the second one through. -/
def replayed : List (List UInt8) :=
  let first := protectRecord (fun _ => ledgerAead exampleLedger) (exampleSender false) ⟨23, [7]⟩
  let second := protectRecord (fun _ => ledgerAead exampleLedger)
    { exampleSender false with snd := (exampleSender false).snd.after 1 } ⟨22, [8, 0]⟩
  [first, first, second]

lemma exampleSender_mirrors_listener (incoming : List (List UInt8)) :
    Mirrors (exampleSender false) (listener incoming) :=
  ⟨rfl, rfl, rfl, rfl⟩

theorem replay_returns_sent_records :
    (receiving fun _ => ledgerAead exampleLedger).outputs (listener replayed) [100, 100, 100] =
        [.ok ⟨23, [7]⟩, .error .badTag, .ok ⟨22, [8, 0]⟩] ∧
      content (returned ((receiving fun _ => ledgerAead exampleLedger).outputs (listener replayed)
        [100, 100, 100])) <+: content (accepted false exampleRecords) :=
  ⟨by decide, returned_records_were_sent (exampleSender_mirrors_listener replayed)
    exampleLedger_unforgeable (by decide) (by decide) (by decide +kernel)⟩

/-- A handshake record in the clear is returned although the key is active and the
peer has sealed nothing. -/
theorem clear_record_returned : Mirrors (exampleSender false) (listener [[22, 3, 3, 0, 1, 7]]) ∧
      Unforgeable (fun _ => ledgerAead []) (exampleSender false) [] ∧
      ¬content (returned ((receiving fun _ => ledgerAead []).outputs
        (listener [[22, 3, 3, 0, 1, 7]]) [recMaxPlaintext])) <+: content (accepted false []) :=
  ⟨exampleSender_mirrors_listener _, ledgerAead_unforgeable nofun, by decide⟩

end CupidOs.Tls
