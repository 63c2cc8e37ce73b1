import CupidOs.Net.Retransmit

/-!
# The byte stream of a connection

A sender that calls `tcp_send` and `tcp_close` and a receiver that calls `tcp_recv` exchange
segments over a network that loses, repeats, reorders and delays them: every segment ever sent can
be delivered at any time, any number of times, or never.
-/

namespace CupidOs.Net

open List Rings Transition

/-- The two ends, the segments sent in each direction, and the bytes that `tcp_send` has taken and
`tcp_recv` has returned. -/
structure Connection where
  sender : Socket
  receiver : Socket
  toReceiver : List Segment
  toSender : List Segment
  accepted : List UInt8
  returned : List UInt8

/-- A round of a call, a tick of the sender, or the delivery of a copy of some segment. -/
inductive StreamCall
  | send (left : List UInt8) (now : UInt32)
  | tick (now : UInt32)
  | close (now : UInt32)
  | deliver (index : Nat) (now : UInt32)
  | acknowledge (index : Nat) (now : UInt32)
  | recv (len : Nat)

/-- The bytes that a round of `tcp_send` takes. -/
def tookBytes (left : List UInt8) : SendRound → List UInt8
  | .took count => left.take count
  | _ => []

/-- `tcp_input` for a segment from the peer of a socket. -/
def peerInput (s : Socket) (segment : Segment) (now : UInt32) : Socket × List Emission :=
  if belongsTo s.remoteIp segment s then socketInput s segment now else (s, [])

/-- `tcp_close` of one socket. -/
def closeEntry (s : Socket) (now : UInt32) : Socket × List Emission :=
  if s.isTcp then socketTcpClose s now else (s, [])

/-- The segments of a list of emissions. -/
def emitted (emissions : List Emission) : List Segment := emissions.map (·.segment)

/-- The bytes that a round of `tcp_recv` returns. -/
def returnedBytes : RecvRound → List UInt8
  | .data bytes => bytes
  | _ => []

/-- A connection under these events; the result is that of `tcp_recv`. -/
def streamStep : Machine Connection StreamCall (Option RecvRound)
  | c, .send left now =>
    let round := socketSend c.sender left now
    ({ c with
      sender := round.1
      toReceiver := c.toReceiver ++ emitted round.2.1
      accepted := c.accepted ++ tookBytes left round.2.2 }, none)
  | c, .tick now =>
    let ticked := tickEntry c.sender now
    ({ c with sender := ticked.1, toReceiver := c.toReceiver ++ emitted ticked.2 }, none)
  | c, .close now =>
    let closed := closeEntry c.sender now
    ({ c with sender := closed.1, toReceiver := c.toReceiver ++ emitted closed.2 }, none)
  | c, .deliver index now =>
    match c.toReceiver[index]? with
    | none => (c, none)
    | some segment =>
      let handled := peerInput c.receiver segment now
      ({ c with receiver := handled.1, toSender := c.toSender ++ emitted handled.2 }, none)
  | c, .acknowledge index now =>
    match c.toSender[index]? with
    | none => (c, none)
    | some segment =>
      let handled := peerInput c.sender segment now
      ({ c with sender := handled.1, toReceiver := c.toReceiver ++ emitted handled.2 }, none)
  | c, .recv len =>
    let round := socketRecv c.receiver len
    ({ c with receiver := round.1, returned := c.returned ++ returnedBytes round.2 }, some round.2)

/-- Right after the handshake nothing is buffered, and the segments under way carry neither data nor
the end of the stream. -/
structure Connected (c : Connection) : Prop where
  sender : c.sender.isTcp = true ∧ c.sender.tcpState = .established ∧ c.sender.rtBuf = []
  receiver : c.receiver.isTcp = true ∧ c.receiver.tcpState = .established ∧
    c.receiver.rx.contents = []
  ports : c.sender.localPort = c.receiver.remotePort ∧ c.sender.remotePort = c.receiver.localPort
  sequence : c.sender.sndNxt = c.receiver.rcvNxt
  leftovers : ∀ segment ∈ c.toReceiver, segment.data = [] ∧ segment.flags.fin = false
  fresh : c.accepted = [] ∧ c.returned = []

/-- Fewer than `2 ^ 31` bytes are sent. -/
def FewBytes (c : Connection) (call : StreamCall) : Prop :=
  (streamStep c call).1.accepted.length < 2 ^ 31

/-- The end of the stream is delivered in order: with the sequence number that the
receiver expects. -/
def FinInOrder (c : Connection) : StreamCall → Prop
  | .deliver index _ =>
    ∀ segment ∈ c.toReceiver[index]?, c.receiver.tcpState = .established →
      segment.flags.fin = true → segment.seq = c.receiver.rcvNxt
  | _ => True

/-- What has been returned is a prefix of what has been accepted. -/
def ReturnsPrefix (c : Connection) (call : StreamCall) : Prop :=
  (streamStep c call).1.returned <+: (streamStep c call).1.accepted

/-- The end of the stream is reported in `CLOSE_WAIT` only when everything has been
returned. -/
def EndsComplete (c : Connection) (call : StreamCall) : Prop :=
  (streamStep c call).2 = some .endOfStream → c.receiver.tcpState = .closeWait →
    c.returned = c.accepted

/-! ## Segments of the stream -/

/-- The sequence number of the byte at `offset`. -/
def seqOf (base : UInt32) (offset : Nat) : UInt32 := base + UInt32.ofNat offset

variable {base : UInt32}

lemma seqOf_inj {first second : Nat} (firstSmall : first < 2 ^ 32) (secondSmall : second < 2 ^ 32)
    (same : seqOf base first = seqOf base second) : first = second := by
  have cancelled : UInt32.ofNat first = UInt32.ofNat second := by
    simpa [seqOf] using same
  have values := congrArg UInt32.toNat cancelled
  rwa [UInt32.toNat_ofNat', UInt32.toNat_ofNat', Nat.mod_eq_of_lt firstSmall,
    Nat.mod_eq_of_lt secondSmall] at values

lemma seqOf_add (base : UInt32) (first second : Nat) :
    seqOf base first + UInt32.ofNat second = seqOf base (first + second) := by
  simp only [seqOf, UInt32.ofNat_add, UInt32.add_assoc]

/-- The bytes `data` stand at the sequence number `seq` of the stream. -/
def InStream (base : UInt32) (accepted : List UInt8) (seq : UInt32) (data : List UInt8) : Prop :=
  ∃ offset, offset ≤ accepted.length ∧ seq = seqOf base offset ∧ data <+: accepted.drop offset

variable {accepted : List UInt8}

lemma InStream.grow {seq : UInt32} {data : List UInt8}
    (inStream : InStream base accepted seq data) (more : List UInt8) :
    InStream base (accepted ++ more) seq data := by
  rcases inStream with ⟨offset, inside, seqEq, here⟩
  refine ⟨offset, by rw [length_append]; omega, seqEq, here.trans ?_⟩
  rw [drop_append_of_le_length inside]
  exact prefix_append _ _

/-- A segment of the sender: data of the stream, or its end. -/
def FromStream (base : UInt32) (accepted : List UInt8) (ended : Prop) (segment : Segment) : Prop :=
  (segment.data = [] ∨ InStream base accepted segment.seq segment.data) ∧
    (segment.flags.fin = true →
      ended ∧ segment.data = [] ∧ segment.seq = seqOf base accepted.length)

/-- The sender: its next sequence number, and the segment it may send again. -/
structure SenderSound (base : UInt32) (accepted : List UInt8) (s : Socket) : Prop where
  opened : s.tcpState ≠ .synSent
  next : ¬Ended s → s.sndNxt = seqOf base accepted.length
  flying : s.rtBuf = [] ∨ InStream base accepted s.rtSeq s.rtBuf

/-- The receiver: what it has returned and buffered is a prefix of the stream. -/
structure ReceiverSound (base : UInt32) (accepted returned : List UInt8) (s : Socket) : Prop where
  opened : s.tcpState ≠ .synSent
  returnedPrefix : returned ++ s.rx.contents <+: accepted
  next : s.tcpState = .established → s.rcvNxt = seqOf base (returned ++ s.rx.contents).length

/-- What holds of a connection whatever the network does. -/
structure StreamSound (base : UInt32) (c : Connection) : Prop where
  few : c.accepted.length < 2 ^ 31
  sender : SenderSound base c.accepted c.sender
  receiver : ReceiverSound base c.accepted c.returned c.receiver
  segments : ∀ segment ∈ c.toReceiver, FromStream base c.accepted (Ended c.sender) segment

variable {segment : Segment} {s : Socket} {ended : Prop}

lemma FromStream.of_open
    (data : segment.data = [] ∨ InStream base accepted segment.seq segment.data)
    (noFin : segment.flags.fin = false) : FromStream base accepted ended segment := by
  refine ⟨data, fun fin => ?_⟩
  rw [noFin] at fin
  cases fin

lemma FromStream.mono {before after : Prop}
    (here : FromStream base accepted before segment) (stays : before → after) :
    FromStream base accepted after segment :=
  ⟨here.1, fun fin => ⟨stays (here.2 fin).1, (here.2 fin).2⟩⟩

/-- While the stream goes on, none of its segments is an end. -/
theorem FromStream.grow
    (here : FromStream base accepted ended segment) (going : ¬ended) (more : List UInt8)
    (after : Prop) : FromStream base (accepted ++ more) after segment := by
  refine ⟨here.1.imp_right fun inStream => inStream.grow more, fun fin => ?_⟩
  exact absurd (here.2 fin).1 going

/-! ## The sender -/

/-- What input and ticks keep of the sending side. -/
structure SenderKeeps (before after : Socket) : Prop where
  opened : after.tcpState ≠ .synSent
  sndNxt : after.sndNxt = before.sndNxt
  rtSeq : after.rtSeq = before.rtSeq
  rtBuf : after.rtBuf = [] ∨ after.rtBuf = before.rtBuf
  ended : Ended before → Ended after

lemma SenderKeeps.refl (opened : s.tcpState ≠ .synSent) : SenderKeeps s s :=
  ⟨opened, rfl, rfl, Or.inr rfl, id⟩

lemma SenderKeeps.sound {before after : Socket}
    (keeps : SenderKeeps before after) (sound : SenderSound base accepted before) :
    SenderSound base accepted after := by
  refine ⟨keeps.opened, fun going => ?_, ?_⟩
  · rw [keeps.sndNxt]
    exact sound.next fun ended => going (keeps.ended ended)
  · rcases keeps.rtBuf with empty | same
    · exact Or.inl empty
    · rw [same, keeps.rtSeq]
      exact sound.flying

lemma peerInput_keeps (opened : s.tcpState ≠ .synSent) (segment : Segment) (now : UInt32) :
    SenderKeeps s (peerInput s segment now).1 ∧ Quiet (peerInput s segment now).2 := by
  simp only [peerInput]
  split
  · by_cases established : s.tcpState = .established
    · simp only [socketInput, established]
      have handled := establishedInput_handled s segment now
      refine ⟨⟨?_, handled.sndNxt, handled.rtSeq, ?_, fun ended => absurd established ended.1⟩,
        handled.quiet⟩
      · rw [handled.tcpState]
        split <;> simp [established]
      · rw [handled.rtBuf]
        split <;> simp
    · have handled := socketInput_handled s segment now established
      refine ⟨⟨?_, handled.sndNxt, handled.rtSeq, .inr handled.rtBuf, fun ended => ?_⟩,
        handled.quiet⟩
      · rcases handled.state opened with same | ended
        · rwa [same]
        · exact ended.1
      · rcases handled.state opened with same | ended
        · rwa [Ended, same]
        · exact ended.2
  · exact ⟨.refl opened, quiet_nil⟩

/-- A tick sends nothing but what may be sent again. -/
lemma tickEntry_keeps (opened : s.tcpState ≠ .synSent) (now : UInt32) :
    SenderKeeps s (tickEntry s now).1 ∧ ∀ emission ∈ (tickEntry s now).2,
      emission.segment.seq = s.rtSeq ∧ emission.segment.data <+: s.rtBuf ∧
        emission.segment.flags.fin = false := by
  simp only [tickEntry]
  split
  · unfold tickSocket
    split
    case h_1 sent => exact absurd sent opened
    case h_2 established =>
      simp only [retransmit]
      split
      · split
        · exact ⟨⟨by simp, rfl, rfl, .inl rfl, fun ended => absurd established ended.1⟩, forall_mem_nil _⟩
        · refine ⟨⟨opened, rfl, rfl, .inr rfl, id⟩, fun emission member => ?_⟩
          rw [mem_singleton.mp member]
          exact ⟨rfl, take_prefix _ _, rfl⟩
      · exact ⟨.refl opened, forall_mem_nil _⟩
    case h_3 listening => exact ⟨⟨by simp [listening], rfl, rfl, .inr rfl, id⟩, forall_mem_nil _⟩
    case h_4 waiting =>
      split
      · exact ⟨⟨by simp, rfl, rfl, .inr rfl, fun _ => by simp [Ended]⟩, forall_mem_nil _⟩
      · exact ⟨.refl opened, forall_mem_nil _⟩
    case h_5 => exact ⟨.refl opened, forall_mem_nil _⟩
  · exact ⟨.refl opened, forall_mem_nil _⟩

/-- A round of `tcp_send` either does nothing or adds a segment at the end of the
stream. -/
theorem socketSend_extends (sound : SenderSound base accepted s)
    (left : List UInt8) (now : UInt32) :
    (socketSend s left now).1 = s ∧ (socketSend s left now).2.1 = [] ∧
        tookBytes left (socketSend s left now).2.2 = [] ∨
      ¬Ended s ∧ SenderSound base (accepted ++ tookBytes left (socketSend s left now).2.2)
          (socketSend s left now).1 ∧
        ∀ emission ∈ (socketSend s left now).2.1, emission.segment.flags.fin = false ∧
          InStream base (accepted ++ tookBytes left (socketSend s left now).2.2)
            emission.segment.seq emission.segment.data := by
  simp only [socketSend]
  split
  case isTrue => exact Or.inl ⟨rfl, rfl, by simp [tookBytes]⟩
  case isFalse hasData =>
    split
    · exact Or.inl ⟨rfl, rfl, rfl⟩
    split
    · exact Or.inl ⟨rfl, rfl, rfl⟩
    case isFalse established =>
      split
      case isFalse => exact Or.inl ⟨rfl, rfl, rfl⟩
      case isTrue empty =>
        have state : s.tcpState = .established := by simpa using established
        have going : ¬Ended s := fun ended => ended.1 state
        have took : tookBytes left (.took (min left.length tcpMss)) = left.take tcpMss := by
          rw [tookBytes, take_eq_take_iff]
          omega
        have next := sound.next going
        have here : InStream base (accepted ++ left.take tcpMss) s.sndNxt (left.take tcpMss) := by
          refine ⟨accepted.length, by simp, next, ?_⟩
          rw [drop_left]
        have positive : 0 < (left.take tcpMss).length := by
          have := length_pos_iff.mpr hasData
          simp only [length_take, tcpMss]
          omega
        have twice : (left.take tcpMss).take tcpMss = left.take tcpMss := by
          rw [take_take, Nat.min_self]
        refine Or.inr ⟨going, ?_, ?_⟩
        · rw [took]
          simp only [tcpSendSeg, twice, recordInFlight, positive, and_self, if_true]
          refine ⟨by simp [state], fun _ => ?_, Or.inr here⟩
          rw [next, length_append]
          have length : seqLength { psh := true, ack := true } (left.take tcpMss) =
              UInt32.ofNat (left.take tcpMss).length := by
            simp [seqLength]
          rw [length, seqOf_add]
        · intro emission member
          rw [took]
          rw [mem_singleton.mp member]
          refine ⟨rfl, ?_⟩
          simpa only [tcpSendSeg, tcpEmit, twice] using here

lemma closeEntry_sound (sound : SenderSound base accepted s)
    (now : UInt32) :
    SenderSound base accepted (closeEntry s now).1 ∧ (Ended s → Ended (closeEntry s now).1) ∧
      ∀ emission ∈ (closeEntry s now).2, Ended (closeEntry s now).1 ∧ emission.segment.data = [] ∧
          emission.segment.seq = seqOf base accepted.length := by
  -- a connection that goes on is ended by a last segment
  have ends : ∀ t : Socket, ¬Ended s → t.tcpState = .finWait1 ∨ t.tcpState = .lastAck →
      t.rtBuf = s.rtBuf ∧ t.rtSeq = s.rtSeq → SenderSound base accepted t ∧ (Ended s → Ended t) ∧
        ∀ emission ∈ [tcpEmit s s.sndNxt { fin := true, ack := true } []], Ended t ∧
          emission.segment.data = [] ∧ emission.segment.seq = seqOf base accepted.length := by
    rintro t going state ⟨same, start⟩
    have ended : t.tcpState ≠ .synSent ∧ Ended t := by
      rcases state with state | state <;> simp [Ended, state]
    refine ⟨⟨ended.1, fun goesOn => absurd ended.2 goesOn, by rw [same, start]; exact sound.flying⟩,
      fun _ => ended.2, fun emission member => ?_⟩
    rw [mem_singleton.mp member]
    exact ⟨ended.2, rfl, sound.next going⟩
  simp only [closeEntry]
  split
  · simp only [socketTcpClose, tcpSendSeg_nil]
    split
    case h_1 established => exact ends _ (fun ended => ended.1 established) (.inl rfl) ⟨rfl, rfl⟩
    case h_2 waiting => exact ends _ (fun ended => ended.2 waiting) (.inr rfl) ⟨rfl, rfl⟩
    case h_3 => exact ⟨⟨sound.opened, sound.next, sound.flying⟩, id, forall_mem_nil _⟩
  · exact ⟨sound, id, forall_mem_nil _⟩

/-! ## The receiver -/

/-- The bytes that `receiveData` stores. -/
def storedBytes (s : Socket) (segment : Segment) : List UInt8 :=
  if segment.seq = s.rcvNxt ∧ segment.data.length ≤ freeBytes s then segment.data else []

lemma storeData_fits {data : List UInt8} (fits : data.length ≤ freeBytes s) :
    (storeData s data).rx.contents = s.rx.contents ++ data ∧
      (storeData s data).rcvNxt = s.rcvNxt + UInt32.ofNat data.length := by
  have room := s.rx.used_lt
  rw [storeData, if_pos fits]
  refine ⟨Ring.contents_pushAll _ _ ?_, rfl⟩
  simp only [freeBytes, sockRxBuf] at fits room ⊢
  omega

lemma receiveData_stores (s : Socket) (segment : Segment) (now : UInt32) :
    (receiveData s segment now).1.rx.contents = s.rx.contents ++ storedBytes s segment ∧
      (receiveData s segment now).1.rcvNxt =
        s.rcvNxt + UInt32.ofNat (storedBytes s segment).length := by
  simp only [receiveData, tcpSendSeg_ack, storedBytes]
  by_cases fits : segment.data.length ≤ freeBytes s
  · by_cases hasData : 0 < segment.data.length
    · by_cases expected : segment.seq = s.rcvNxt
      · rw [if_pos ⟨expected, hasData⟩, if_pos ⟨expected, fits⟩]
        exact storeData_fits fits
      · rw [if_neg fun both => expected both.1, if_neg fun both => expected both.1]
        simp
    · have noData : segment.data = [] := length_eq_zero_iff.mp (by omega)
      simp [noData]
  · rw [if_neg (fun both => fits both.2 : ¬(segment.seq = s.rcvNxt ∧ _)), storeData, if_neg fits]
    split <;> simp

lemma clearInFlight_receiver (s : Socket) (segment : Segment) :
    (clearInFlight s segment).rx = s.rx ∧ (clearInFlight s segment).rcvNxt = s.rcvNxt := by
  simp only [clearInFlight]
  split <;> exact ⟨rfl, rfl⟩

lemma receiveFin_receiver (s : Socket) (segment : Segment) (now : UInt32) :
    (receiveFin s segment now).1.rx = s.rx ∧
      (segment.flags.fin = false → (receiveFin s segment now).1.rcvNxt = s.rcvNxt) := by
  simp only [receiveFin, tcpSendSeg_ack]
  cases segment.flags.fin with
  | true =>
    refine ⟨?_, fun fin => Bool.noConfusion fin⟩
    simp only [if_true]
    split <;> rfl
  | false =>
    simp only [Bool.false_eq_true, if_false]
    split <;> exact ⟨rfl, fun _ => rfl⟩

/-- A segment in `ESTABLISHED` appends the bytes that are stored. -/
theorem establishedInput_stores (s : Socket) (segment : Segment) (now : UInt32) :
    (establishedInput s segment now).1.rx.contents = s.rx.contents ++ storedBytes s segment ∧
      (segment.flags.fin = false → (establishedInput s segment now).1.rcvNxt =
        s.rcvNxt + UInt32.ofNat (storedBytes s segment).length) := by
  rcases clearInFlight_receiver s segment with ⟨sameRx, sameNxt⟩
  have free : freeBytes (clearInFlight s segment) = freeBytes s := by
    rw [freeBytes, freeBytes, sameRx]
  have same : storedBytes (clearInFlight s segment) segment = storedBytes s segment := by
    simp only [storedBytes, free, sameNxt]
  rcases receiveData_stores (clearInFlight s segment) segment now with ⟨contents, next⟩
  rw [same, sameRx] at contents
  rw [same, sameNxt] at next
  have finished := receiveFin_receiver (receiveData (clearInFlight s segment) segment now).1 segment now
  simp only [establishedInput]
  rw [finished.1]
  exact ⟨contents, fun noFin => (finished.2 noFin).trans next⟩

lemma prefix_append_of_drop {first second whole : List UInt8} (left : first <+: whole)
    (right : second <+: whole.drop first.length) : first ++ second <+: whole := by
  rcases left with ⟨rest, rfl⟩
  rw [drop_left] at right
  exact prefix_append_right_inj first |>.mpr right

/-- In `ESTABLISHED`, only the next bytes of the stream are stored. -/
theorem storedBytes_next {returned : List UInt8}
    (sound : ReceiverSound base accepted returned s) (established : s.tcpState = .established)
    (few : accepted.length < 2 ^ 31) (here : FromStream base accepted ended segment) :
    returned ++ (s.rx.contents ++ storedBytes s segment) <+: accepted := by
  rw [← append_assoc]
  have short := sound.returnedPrefix.length_le
  apply prefix_append_of_drop sound.returnedPrefix
  rw [storedBytes]
  split
  case isFalse => exact nil_prefix
  case isTrue stored =>
    rcases here.1 with empty | ⟨offset, inside, seqEq, data⟩
    · rw [empty]
      exact nil_prefix
    have same : offset = (returned ++ s.rx.contents).length := by
      refine seqOf_inj (by omega) (by omega) (?_ : seqOf base _ = seqOf base _)
      rw [← seqEq, stored.1, sound.next established]
    rw [← same]
    exact data

lemma socketInput_receiverSound {returned : List UInt8}
    (sound : ReceiverSound base accepted returned s) (few : accepted.length < 2 ^ 31)
    (here : FromStream base accepted ended segment) (now : UInt32) :
    ReceiverSound base accepted returned (socketInput s segment now).1 := by
  by_cases established : s.tcpState = .established
  · simp only [socketInput, established]
    rcases establishedInput_stores s segment now with ⟨contents, next⟩
    have state := (establishedInput_handled s segment now).tcpState
    constructor
    · rw [state]
      split <;> simp [established]
    · rw [contents]
      exact storedBytes_next sound established few here
    · intro after
      have noFin : segment.flags.fin = false := by
        rw [state] at after
        cases fin : segment.flags.fin with
        | false => rfl
        | true => simp [fin] at after
      rw [next noFin, contents, sound.next established, seqOf_add, ← append_assoc,
        @length_append _ (returned ++ s.rx.contents)]
  · have handled := socketInput_handled s segment now established
    have state := handled.state sound.opened
    refine ⟨?_, ?_, fun after => ?_⟩
    · rcases state with same | ended
      · rw [same]
        exact sound.opened
      · exact ended.1
    · rw [handled.rx]
      exact sound.returnedPrefix
    · rcases state with same | ended
      · exact absurd (same.symm.trans after) established
      · exact absurd after ended.2.1

/-- `tcp_recv` moves bytes from the buffer to what has been returned. -/
theorem socketRecv_returns (s : Socket) (len : Nat) (returned : List UInt8) :
    (returned ++ returnedBytes (socketRecv s len).2) ++ (socketRecv s len).1.rx.contents =
        returned ++ s.rx.contents ∧
      (socketRecv s len).1.tcpState = s.tcpState ∧ (socketRecv s len).1.rcvNxt = s.rcvNxt := by
  simp only [socketRecv]
  split
  · simp [returnedBytes]
  split
  · have enough : min s.rx.used len ≤ s.rx.used := min_le_left _ _
    simp only [returnedBytes, Ring.contents_drop s.rx enough, ← Ring.take_contents s.rx enough,
      append_assoc, take_append_drop, and_self]
  · split <;> simp [returnedBytes]

/-! ## One event -/

section Events

variable {base : UInt32} {c : Connection}

lemma mem_emitted {emissions : List Emission} {segment : Segment}
    (member : segment ∈ emitted emissions) :
    ∃ emission ∈ emissions, emission.segment = segment :=
  mem_map.mp member

variable {s : Socket} {now : UInt32}

section

variable (sound : StreamSound base c)
include sound

/-- The segments under way after the sender has changed without sending bytes. -/
theorem StreamSound.sender_step {emissions : List Emission}
    (sender : SenderSound base c.accepted s) (ended : Ended c.sender → Ended s)
    (sent : ∀ emission ∈ emissions, FromStream base c.accepted (Ended s) emission.segment) :
    StreamSound base { c with sender := s, toReceiver := c.toReceiver ++ emitted emissions } := by
  refine ⟨sound.few, sender, sound.receiver, fun segment member => ?_⟩
  rcases mem_append.mp member with old | new
  · exact (sound.segments segment old).mono ended
  · rcases mem_emitted new with ⟨emission, here, rfl⟩
    exact sent emission here

lemma StreamSound.send {left : List UInt8}
    (few : FewBytes c (.send left now)) : StreamSound base (streamStep c (.send left now)).1 := by
  simp only [FewBytes, streamStep] at few ⊢
  rcases socketSend_extends sound.sender left now with ⟨same, unsent, nothing⟩ | ⟨going, sender, sent⟩
  · rw [same, unsent, nothing]
    simpa [emitted] using sound
  refine ⟨few, sender, ?_, fun segment member => ?_⟩
  · refine ⟨sound.receiver.opened, ?_, sound.receiver.next⟩
    exact sound.receiver.returnedPrefix.trans (prefix_append _ _)
  · rcases mem_append.mp member with old | new
    · exact (sound.segments segment old).grow going _ _
    · rcases mem_emitted new with ⟨emission, here, rfl⟩
      rcases sent emission here with ⟨noFin, inStream⟩
      exact .of_open (Or.inr inStream) noFin

lemma StreamSound.tick (now : UInt32) : StreamSound base (streamStep c (.tick now)).1 := by
  obtain ⟨keeps, sent⟩ := tickEntry_keeps sound.sender.opened now
  apply sound.sender_step (keeps.sound sound.sender) keeps.ended
  intro emission member
  rcases sent emission member with ⟨seqEq, data, noFin⟩
  refine .of_open ?_ noFin
  rcases sound.sender.flying with empty | ⟨offset, inside, start, here⟩
  · rw [empty] at data
    exact Or.inl (prefix_nil.mp data)
  · exact Or.inr ⟨offset, inside, seqEq.trans start, data.trans here⟩

lemma StreamSound.close (now : UInt32) : StreamSound base (streamStep c (.close now)).1 := by
  rcases closeEntry_sound sound.sender now with ⟨sender, ended, sent⟩
  apply sound.sender_step sender ended
  intro emission member
  rcases sent emission member with ⟨closed, empty, seqEq⟩
  exact ⟨Or.inl empty, fun _ => ⟨closed, empty, seqEq⟩⟩

lemma StreamSound.acknowledge (index : Nat) (now : UInt32) :
    StreamSound base (streamStep c (.acknowledge index now)).1 := by
  simp only [streamStep]
  cases c.toSender[index]? with
  | none => exact sound
  | some segment =>
    obtain ⟨keeps, quiet⟩ := peerInput_keeps sound.sender.opened segment now
    apply sound.sender_step (keeps.sound sound.sender) keeps.ended
    exact fun emission member => .of_open (.inl (quiet emission member).1) (quiet emission member).2

lemma StreamSound.deliver (index : Nat) (now : UInt32) :
    StreamSound base (streamStep c (.deliver index now)).1 := by
  simp only [streamStep]
  cases found : c.toReceiver[index]? with
  | none => exact sound
  | some segment =>
    have here := sound.segments segment (mem_of_getElem? found)
    refine ⟨sound.few, sound.sender, ?_, sound.segments⟩
    simp only [peerInput]
    split
    · exact socketInput_receiverSound sound.receiver sound.few here now
    · exact sound.receiver

lemma StreamSound.recv (len : Nat) : StreamSound base (streamStep c (.recv len)).1 := by
  rcases socketRecv_returns c.receiver len c.returned with ⟨same, state, next⟩
  refine ⟨sound.few, sound.sender, ⟨?_, ?_, ?_⟩, sound.segments⟩
  · simp only [streamStep, state]
    exact sound.receiver.opened
  · simp only [streamStep, same]
    exact sound.receiver.returnedPrefix
  · simp only [streamStep, same, state, next]
    exact sound.receiver.next

lemma streamStep_sound {call : StreamCall}
    (few : FewBytes c call) : StreamSound base (streamStep c call).1 := by
  cases call with
  | send left now => exact sound.send few
  | tick now => exact sound.tick now
  | close now => exact sound.close now
  | deliver index now => exact sound.deliver index now
  | acknowledge index now => exact sound.acknowledge index now
  | recv len => exact sound.recv len

lemma StreamSound.returned_isPrefix : c.returned <+: c.accepted :=
  (prefix_append _ _).trans sound.receiver.returnedPrefix

end

/-- In `CLOSE_WAIT` the receiver has the whole stream. -/
def EndKnown (c : Connection) : Prop :=
  c.receiver.tcpState = .closeWait →
    c.returned ++ c.receiver.rx.contents = c.accepted ∧ Ended c.sender

section

variable (known : EndKnown c)
include known

lemma EndKnown.of_sender {after : Connection}
    (receiver : after.receiver = c.receiver) (returned : after.returned = c.returned)
    (accepted : after.accepted = c.accepted) (ended : Ended c.sender → Ended after.sender) :
    EndKnown after := by
  intro state
  rw [receiver] at state ⊢
  rw [returned, accepted]
  exact ⟨(known state).1, ended (known state).2⟩

lemma EndKnown.send (sound : StreamSound base c) (left : List UInt8)
    (now : UInt32) : EndKnown (streamStep c (.send left now)).1 := by
  intro state
  rcases known state with ⟨whole, ended⟩
  rcases socketSend_extends sound.sender left now with ⟨same, -, nothing⟩ | ⟨going, -⟩
  · simp only [streamStep, same, nothing, append_nil]
    exact ⟨whole, ended⟩
  · exact absurd ended going

/-- An end of the stream that arrives in order ends the whole stream. -/
theorem EndKnown.deliver (sound : StreamSound base c) {index : Nat}
    (inOrder : FinInOrder c (.deliver index now)) :
    EndKnown (streamStep c (.deliver index now)).1 := by
  simp only [streamStep]
  cases found : c.toReceiver[index]? with
  | none => exact known
  | some segment =>
    have here := sound.segments segment (mem_of_getElem? found)
    intro state
    simp only [peerInput] at state ⊢
    split at state
    case isFalse other =>
      rw [if_neg other]
      exact known state
    case isTrue belongs =>
      rw [if_pos belongs]
      by_cases established : c.receiver.tcpState = .established
      · simp only [socketInput, established] at state ⊢
        have fin : segment.flags.fin = true := by
          rw [(establishedInput_handled _ segment now).tcpState] at state
          cases fin : segment.flags.fin with
          | true => rfl
          | false => simp [fin, established] at state
        rcases here.2 fin with ⟨ended, empty, last⟩
        have short := sound.receiver.returnedPrefix.length_le
        have few := sound.few
        have all : c.accepted.length = (c.returned ++ c.receiver.rx.contents).length := by
          refine seqOf_inj (by omega) (by omega) (?_ : seqOf base _ = seqOf base _)
          rw [← last, inOrder segment found established fin, sound.receiver.next established]
        have stored : storedBytes c.receiver segment = [] := by
          rw [storedBytes, empty]
          split <;> rfl
        rw [(establishedInput_stores c.receiver segment now).1, stored, append_nil]
        exact ⟨sound.receiver.returnedPrefix.eq_of_length all.symm, ended⟩
      · have handled := socketInput_handled _ segment now established
        rcases handled.state sound.receiver.opened with same | left
        · rw [handled.rx]
          exact known (same.symm.trans state)
        · exact absurd state left.2.2

lemma EndKnown.step (sound : StreamSound base c) {call : StreamCall}
    (inOrder : FinInOrder c call) : EndKnown (streamStep c call).1 := by
  cases call with
  | send left now => exact known.send sound left now
  | tick now =>
    exact known.of_sender rfl rfl rfl (tickEntry_keeps sound.sender.opened now).1.ended
  | close now => exact known.of_sender rfl rfl rfl (closeEntry_sound sound.sender now).2.1
  | deliver index now => exact known.deliver sound inOrder
  | acknowledge index now =>
    simp only [streamStep]
    cases c.toSender[index]? with
    | none => exact known
    | some segment =>
      exact known.of_sender rfl rfl rfl (peerInput_keeps sound.sender.opened segment now).1.ended
  | recv len =>
    rcases socketRecv_returns c.receiver len c.returned with ⟨same, state, -⟩
    intro after
    simp only [streamStep, same] at after ⊢
    exact known (state.symm.trans after)

lemma EndKnown.endsComplete (call : StreamCall) : EndsComplete c call := by
  intro reported waiting
  cases call with
  | recv len =>
    have empty : c.receiver.rx.contents = [] := by
      simp only [streamStep, Option.some.injEq, socketRecv] at reported
      split at reported
      · cases reported
      split at reported
      · cases reported
      case isFalse drained =>
        rw [← length_eq_zero_iff, Ring.length_contents]
        omega
    have whole := (known waiting).1
    rwa [empty, append_nil] at whole
  | send left now => cases reported
  | tick now => cases reported
  | close now => cases reported
  | deliver index now =>
    simp only [streamStep] at reported
    split at reported <;> cases reported
  | acknowledge index now =>
    simp only [streamStep] at reported
    split at reported <;> cases reported

end

end Events

lemma Connected.sound {c : Connection} (connected : Connected c) :
    StreamSound c.sender.sndNxt c := by
  obtain ⟨acceptedNil, returnedNil⟩ := connected.fresh
  refine ⟨by simp [acceptedNil], ⟨?_, ?_, Or.inl connected.sender.2.2⟩, ⟨?_, ?_, ?_⟩, ?_⟩
  · simp [connected.sender.2.1]
  · intro _
    simp [acceptedNil, seqOf]
  · simp [connected.receiver.2.1]
  · rw [returnedNil, connected.receiver.2.2]
    exact nil_prefix
  · intro _
    rw [returnedNil, connected.receiver.2.2, connected.sequence]
    simp [seqOf]
  · intro segment member
    rcases connected.leftovers segment member with ⟨empty, noFin⟩
    exact .of_open (Or.inl empty) noFin

/-- Whatever the network does with the segments of a connection, the bytes returned
are a prefix of the bytes accepted; and if the end of the stream only reaches an
`ESTABLISHED` receiver in order, it is reported in `CLOSE_WAIT` only after every byte
has been returned. -/
theorem stream_prefix_and_complete_when_fin_in_order (c : Connection) (calls : List StreamCall)
    (connected : Connected c) (few : streamStep.Along FewBytes c calls) :
    streamStep.Along ReturnsPrefix c calls ∧
      (streamStep.Along FinInOrder c calls → streamStep.Along EndsComplete c calls) := by
  constructor
  · exact Machine.along_of_invariant (I := StreamSound c.sender.sndNxt)
      (fun _ _ sound small => streamStep_sound sound small)
      (fun _ _ sound small => (streamStep_sound sound small).returned_isPrefix)
      connected.sound few
  · intro inOrder
    have start : EndKnown c := fun waiting => by
      rw [connected.receiver.2.1] at waiting
      cases waiting
    exact Machine.along_of_invariant (I := fun c' => StreamSound c.sender.sndNxt c' ∧ EndKnown c')
      (G := fun c' call => FewBytes c' call ∧ FinInOrder c' call)
      (fun _ _ known guard =>
        ⟨streamStep_sound known.1 guard.1, known.2.step known.1 guard.2⟩)
      (fun _ call known _ => known.2.endsComplete call)
      ⟨connected.sound, start⟩ (Machine.along_and.mpr ⟨few, inOrder⟩)

/-- A connection from port 5000 to port 80. -/
def exampleConnection : Connection where
  sender :=
    { zeroSocket with
      inUse := true, type := .tcp, tcpState := .established, localPort := 5000, remotePort := 80 }
  receiver :=
    { zeroSocket with
      inUse := true, type := .tcp, tcpState := .established, localPort := 80, remotePort := 5000 }
  toReceiver := []
  toSender := []
  accepted := []
  returned := []

lemma exampleConnection_connected : Connected exampleConnection :=
  ⟨⟨rfl, rfl, rfl⟩, ⟨rfl, rfl, rfl⟩, ⟨rfl, rfl⟩, rfl, by simp [exampleConnection], ⟨rfl, rfl⟩⟩

/-- A byte that is delivered twice before the end of the stream. -/
def exampleCalls : List StreamCall :=
  [.send [1] 0, .deliver 0 0, .deliver 0 0, .close 0, .deliver 1 0, .recv 10, .recv 10]

theorem stream_prefix_and_complete_when_fin_in_order_one_byte :
    streamStep.Along ReturnsPrefix exampleConnection exampleCalls ∧
      streamStep.Along EndsComplete exampleConnection exampleCalls := by
  have few : streamStep.Along FewBytes exampleConnection exampleCalls := by
    simp only [exampleCalls, Machine.along_cons_iff, Machine.along_nil, FewBytes]
    decide
  have inOrder : streamStep.Along FinInOrder exampleConnection exampleCalls := by
    simp only [exampleCalls, Machine.along_cons_iff, Machine.along_nil, FinInOrder]
    decide
  have stream := stream_prefix_and_complete_when_fin_in_order exampleConnection exampleCalls
    exampleConnection_connected few
  exact ⟨stream.1, stream.2 inOrder⟩

/-- The segment with the byte is lost, and the end of the stream arrives. -/
def overtakenConnection : Connection :=
  streamStep.run exampleConnection [.send [1] 0, .close 0, .deliver 1 0]

/-- The end of the stream is reported although nothing has been returned. -/
theorem fin_overtakes_the_byte_before_it :
    overtakenConnection.receiver.tcpState = .closeWait ∧ overtakenConnection.accepted = [1] ∧
      overtakenConnection.returned = [] ∧
      (streamStep overtakenConnection (.recv 10)).2 = some .endOfStream := by
  decide

end CupidOs.Net
