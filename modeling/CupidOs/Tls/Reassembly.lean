import CupidOs.Tls.Reader

/-!
# Reassembly of handshake messages

Handshake messages arrive in records that need not respect their boundaries.  The
reader gives them back one by one as long as its carry buffer takes each record
whole: a record that is pulled while bytes of an unfinished message are carried
has to fit behind them.
-/

namespace CupidOs.Tls

open Bytes Crypto List Transition

/-- The fragments of the handshake stream. -/
def payloads (records : List Record) : List (List UInt8) :=
  (records.filter fun record => record.type = rtHandshake).map Record.data

/-- The records of a handshake: fragments of its messages, and ChangeCipherSpecs that
are ignored. -/
structure HandshakeStream (records : List Record) : Prop where
  types : ∀ record ∈ records, record.type = rtChangeCipherSpec ∨ record.type = rtHandshake
  sizes : ∀ payload ∈ payloads records, payload.length ≤ recMaxPlaintext

/-- With `held` bytes held, each fragment that starts between `start` and `start + need` ends at
most `carrySize` bytes behind `start`. -/
def RoomFor (start need held : Nat) (fragments : List (List UInt8)) : Prop :=
  ∀ earlier fragment later, fragments = earlier ++ fragment :: later →
    start ≤ held + earlier.flatten.length → held + earlier.flatten.length < start + need →
      held + earlier.flatten.length + fragment.length ≤ start + carrySize

/-- Fragments are taken off the stream, each behind fewer than `position` bytes. -/
inductive Taken (position : Nat) : List UInt8 → List (List UInt8) → List UInt8 →
    List (List UInt8) → Prop
  | done {carry fragments} : Taken position carry fragments carry fragments
  | more {carry fragment fragments buffer rest} (wanted : carry.length < position)
      (others : Taken position (carry ++ fragment) fragments buffer rest) :
      Taken position carry (fragment :: fragments) buffer rest

/-! ## Fragments -/

lemma payloads_append (first second : List Record) :
    payloads (first ++ second) = payloads first ++ payloads second := by
  simp [payloads]

lemma payloads_cons_ccs {record : Record} (type : record.type = rtChangeCipherSpec)
    (records : List Record) : payloads (record :: records) = payloads records := by
  simp [payloads, type, rtChangeCipherSpec, rtHandshake]

lemma payloads_cons_handshake {record : Record} (type : record.type = rtHandshake)
    (records : List Record) : payloads (record :: records) = record.data :: payloads records := by
  simp [payloads, type]

variable {need held : Nat} {fragments : List (List UInt8)} {body : List UInt8}

lemma roomFor_of_held (enough : need ≤ held) (fragments : List (List UInt8)) :
    RoomFor 0 need held fragments := by
  intro earlier fragment later _ _ below
  omega

lemma roomFor_cons_iff {start : Nat} {fragment : List UInt8} :
    RoomFor start need held (fragment :: fragments) ↔
      (start ≤ held → held < start + need → held + fragment.length ≤ start + carrySize) ∧
        RoomFor start need (held + fragment.length) fragments := by
  constructor
  · intro room
    refine ⟨by simpa using room [] fragment fragments rfl, fun earlier next later split => ?_⟩
    have shifted := room (fragment :: earlier) next later (by rw [split]; rfl)
    simpa [Nat.add_assoc] using shifted
  · rintro ⟨first, others⟩ earlier next later split
    cases earlier with
    | nil =>
      cases split
      simpa using first
    | cons head earlier =>
      obtain ⟨rfl, rest⟩ := cons.inj split
      simpa [Nat.add_assoc] using others earlier next later rest

lemma RoomFor.mono {more : Nat} (le : need ≤ more) (room : RoomFor 0 more held fragments) :
    RoomFor 0 need held fragments :=
  fun earlier fragment later split above below =>
    room earlier fragment later split above (by omega)

namespace Taken

variable {position : Nat} {carry buffer : List UInt8} {rest : List (List UInt8)}

lemma bytes (taken : Taken position carry fragments buffer rest) :
    buffer ++ rest.flatten = carry ++ fragments.flatten := by
  induction taken with
  | done => rfl
  | more _ _ ih => rw [ih, flatten_cons, append_assoc]

lemma trans {next : Nat} {last : List UInt8} {unread : List (List UInt8)} (le : position ≤ next)
    (first : Taken position carry fragments buffer rest)
    (second : Taken next buffer rest last unread) : Taken next carry fragments last unread := by
  induction first with
  | done => exact second
  | more wanted _ ih => exact .more (by omega) (ih second)

/-- The same fragments are taken behind bytes in front of the buffer. -/
lemma behind (front : List UInt8) (taken : Taken position carry fragments buffer rest) :
    Taken (front.length + position) (front ++ carry) fragments (front ++ buffer) rest := by
  induction taken with
  | done => exact .done
  | more wanted _ ih =>
    refine .more (by rw [length_append]; omega) ?_
    rwa [append_assoc]

/-- What was taken before a position puts no bound on room behind it. -/
lemma roomFor_iff {start : Nat} (taken : Taken position carry fragments buffer rest) :
    RoomFor (position + start) need carry.length fragments ↔
      RoomFor (position + start) need buffer.length rest := by
  induction taken with
  | done => rfl
  | more wanted _ ih =>
    rw [roomFor_cons_iff, ← length_append, ← ih]
    exact and_iff_right fun above => by omega

end Taken

/-- Positions of the stream may be counted from a later point. -/
lemma roomFor_shift {done start : Nat} : RoomFor (done + start) need (done + held) fragments ↔
    RoomFor start need held fragments := by
  refine forall₄_congr fun earlier fragment later split => ?_
  constructor <;> intro room above below <;> have fits := room (by omega) (by omega) <;> omega

/-! ## The two loops -/

section

variable {σ : Type} {source : Source σ Record}

/-- The source hands out these fragments next, with ChangeCipherSpecs in between. -/
def Hands (source : Source σ Record) (state : σ) (fragments : List (List UInt8)) : Prop :=
  ∃ records, source.Delivers state records ∧ HandshakeStream records ∧ payloads records = fragments

/-- The carry buffer after a fill that has taken some fragments of the stream. -/
structure Filled (source : Source σ Record) (need : Nat) (carry : List UInt8) (state : σ)
    (fragments : List (List UInt8)) (buffer : List UInt8) (rest : List (List UInt8)) (after : σ) :
    Prop where
  hands : Hands source after rest
  result : hsReaderFill source need carry state = .ok (buffer, after)
  enough : need ≤ buffer.length
  small : buffer.length ≤ carrySize
  taken : Taken need carry fragments buffer rest

variable {need mlen : Nat} {state : σ} {fragment carry : List UInt8} {message : HsMessage}

/-- A loop that ignores ChangeCipherSpecs gets to the next fragment. -/
theorem Hands.pull {α ε : Type} {more : α → Bool} (take : α → Record → Except ε α) (dry : ε)
    {acc : α} (hands : Hands source state (fragment :: fragments)) (wanted : more acc = true)
    (skips : ∀ record, record.type = rtChangeCipherSpec → take acc record = .ok acc) :
    fragment.length ≤ recMaxPlaintext ∧ ∃ next, Hands source next fragments ∧
      source.pull more take dry acc state =
        (take acc ⟨rtHandshake, fragment⟩).bind fun acc => source.pull more take dry acc next := by
  obtain ⟨records, delivers, stream, parts⟩ := hands
  induction records generalizing state with
  | nil => cases parts
  | cons record records ih =>
    obtain ⟨next, handed, later⟩ := delivers
    obtain ⟨type, types⟩ := forall_mem_cons.mp stream.types
    have sizes := stream.sizes
    rcases type with ccs | handshake
    · rw [payloads_cons_ccs ccs] at parts sizes
      obtain ⟨size, after, hands, round⟩ := ih later ⟨types, sizes⟩ parts
      refine ⟨size, after, hands, ?_⟩
      rw [Source.pull_of_next wanted handed, skips record ccs, ← round]
      rfl
    · rw [payloads_cons_handshake handshake] at parts sizes
      obtain ⟨size, sizes⟩ := forall_mem_cons.mp sizes
      obtain ⟨rfl, rfl⟩ := cons.inj parts
      refine ⟨size, next, ⟨records, later, ⟨types, sizes⟩, rfl⟩, ?_⟩
      rw [Source.pull_of_next wanted handed, ← handshake]

lemma filled_of_held (held : need ≤ carry.length) (small : carry.length ≤ carrySize)
    (hands : Hands source state fragments) :
    Filled source need carry state fragments carry fragments state := by
  refine ⟨hands, ?_, held, small, .done⟩
  have done : lacks need carry = false := decide_eq_false (by omega)
  rw [hsReaderFill, Source.pull_of_done done]

lemma Hands.fill (hands : Hands source state (fragment :: fragments))
    (wanted : carry.length < need) :
    ∃ next, Hands source next fragments ∧ hsReaderFill source need carry state =
      if fragment.length > carrySize - carry.length then .error .protocol
      else hsReaderFill source need (carry ++ fragment) next := by
  have more : lacks need carry = true := decide_eq_true wanted
  obtain ⟨-, next, later, round⟩ := hands.pull fillTake .transport more
    fun _ ccs => if_pos ccs
  refine ⟨next, later, round.trans ?_⟩
  rw [fillTake, if_neg (by simp [rtHandshake, rtChangeCipherSpec]),
    if_neg (by simp [rtHandshake, rtAlert]), if_neg (not_not.mpr rfl)]
  split <;> rfl

/-- Filling the carry buffer from a stream that has enough bytes. -/
theorem hsReaderFill_delivered (need : Nat) (hands : Hands source state fragments)
    (enough : need ≤ carry.length + fragments.flatten.length) (small : carry.length ≤ carrySize) :
    (RoomFor 0 need carry.length fragments →
      ∃ buffer rest after, Filled source need carry state fragments buffer rest after) ∧
    (¬RoomFor 0 need carry.length fragments →
      hsReaderFill source need carry state = .error .protocol) := by
  induction fragments generalizing carry state with
  | nil =>
    have held : need ≤ carry.length := by simpa using enough
    exact ⟨fun _ => ⟨_, _, _, filled_of_held held small hands⟩,
      fun noRoom => absurd (roomFor_of_held held _) noRoom⟩
  | cons fragment fragments ih =>
    by_cases held : need ≤ carry.length
    · exact ⟨fun _ => ⟨_, _, _, filled_of_held held small hands⟩,
        fun noRoom => absurd (roomFor_of_held held _) noRoom⟩
    have wanted : carry.length < need := Nat.lt_of_not_le held
    obtain ⟨next, later, round⟩ := hands.fill wanted
    simp only [roomFor_cons_iff, Nat.zero_le, Nat.zero_add, wanted, true_implies]
    by_cases fits : carry.length + fragment.length ≤ carrySize
    · rw [if_neg (by omega)] at round
      rw [and_iff_right fits, round, ← length_append]
      obtain ⟨filled, refused⟩ := ih later (by simpa [Nat.add_assoc] using enough)
        (show (carry ++ fragment).length ≤ carrySize by simpa using fits)
      refine ⟨fun room => ?_, refused⟩
      obtain ⟨buffer, rest, after, fill⟩ := filled room
      exact ⟨buffer, rest, after, fill.hands, round.trans fill.result, fill.enough, fill.small,
        .more wanted fill.taken⟩
    · refine ⟨fun room => absurd room.1 fits, fun _ => ?_⟩
      rw [round, if_pos (by omega)]

lemma hsReaderFill_again {less : Nat} (le : less ≤ need) {first : List UInt8 × σ}
    (filled : hsReaderFill source less carry state = .ok first) :
    hsReaderFill source need first.1 first.2 = hsReaderFill source need carry state := by
  have weaker : ∀ buffer, lacks less buffer = true → lacks need buffer = true := by
    intro buffer wanted
    simp only [lacks, decide_eq_true_eq] at wanted ⊢
    omega
  have composed : ((hsReaderFill source less carry state).bind fun stopped =>
      hsReaderFill source need stopped.1 stopped.2) = hsReaderFill source need carry state :=
    Source.pull_pull weaker carry state
  rw [filled] at composed
  exact composed

/-- The outcome of the direct path on a stream that has enough bytes. -/
structure Drained (source : Source σ Record) (mlen : Nat) (copied : List UInt8) (state : σ)
    (fragments : List (List UInt8)) (body leftover : List UInt8) (rest : List (List UInt8))
    (after : σ) : Prop where
  hands : Hands source after rest
  result : drain source mlen (copied, []) state = .ok ((body, leftover), after)
  length : body.length = mlen
  small : leftover.length ≤ carrySize
  taken : Taken mlen copied fragments (body ++ leftover) rest

variable {copied : List UInt8}

lemma Hands.drain (hands : Hands source state (fragment :: fragments))
    (wanted : copied.length < mlen) :
    fragment.length ≤ carrySize ∧ ∃ next, Hands source next fragments ∧
      drain source mlen (copied, []) state =
        drain source mlen (copied ++ fragment.take (mlen - copied.length),
          fragment.drop (mlen - copied.length)) next := by
  have more : drainLacks mlen (copied, []) = true := decide_eq_true wanted
  obtain ⟨size, next, later, round⟩ := hands.pull (drainTake mlen) .transport more
    fun _ ccs => if_pos ccs
  refine ⟨size, next, later, round.trans ?_⟩
  have fits : fragment.length ≤ carrySize := size
  rw [drainTake, if_neg (by simp [rtHandshake, rtChangeCipherSpec]), if_neg (not_not.mpr rfl)]
  by_cases exceeds : mlen - copied.length < fragment.length
  · simp only [Nat.min_eq_left (Nat.le_of_lt exceeds)]
    rw [if_pos exceeds, if_neg (by omega)]
    rfl
  · have under : fragment.length ≤ mlen - copied.length := by omega
    simp only [Nat.min_eq_right under, lt_irrefl, if_false]
    rw [take_of_length_le under, drop_of_length_le under, take_of_length_le (Nat.le_refl _)]
    rfl

lemma drain_of_done {acc : List UInt8 × List UInt8} (done : acc.1.length = mlen) (state : σ) :
    drain source mlen acc state = .ok (acc, state) := by
  have stops : drainLacks mlen acc = false := decide_eq_false (by omega)
  exact Source.pull_of_done stops state

lemma drained_of_copied (done : copied.length = mlen) (hands : Hands source state fragments) :
    Drained source mlen copied state fragments copied [] fragments state :=
  ⟨hands, drain_of_done done state, done, Nat.zero_le _, by rw [append_nil]; exact .done⟩

/-- Draining a message from a stream that has enough bytes. -/
theorem drain_delivered (hands : Hands source state fragments)
    (enough : mlen ≤ copied.length + fragments.flatten.length) (within : copied.length ≤ mlen) :
    ∃ body leftover rest after,
      Drained source mlen copied state fragments body leftover rest after := by
  induction fragments generalizing copied state with
  | nil =>
    have done : copied.length = mlen := by
      rw [flatten_nil, length_nil] at enough
      omega
    exact ⟨_, _, _, _, drained_of_copied done hands⟩
  | cons fragment fragments ih =>
    by_cases done : copied.length = mlen
    · exact ⟨_, _, _, _, drained_of_copied done hands⟩
    have wanted : copied.length < mlen := Nat.lt_of_le_of_ne within done
    obtain ⟨size, next, later, round⟩ := hands.drain wanted
    by_cases exceeds : mlen - copied.length ≤ fragment.length
    · have length : (copied ++ fragment.take (mlen - copied.length)).length = mlen := by
        rw [length_append, length_take]
        omega
      refine ⟨_, _, fragments, next, later, round.trans (drain_of_done length next), length, ?_, ?_⟩
      · rw [length_drop]
        omega
      · rw [append_assoc, take_append_drop]
        exact .more wanted .done
    · rw [take_of_length_le (by omega), drop_of_length_le (by omega)] at round
      rw [flatten_cons, length_append] at enough
      have joined : (copied ++ fragment).length ≤ mlen := by
        rw [length_append]
        omega
      obtain ⟨body, leftover, rest, after, drained⟩ :=
        ih later (by rw [length_append]; omega) joined
      exact ⟨body, leftover, rest, after, drained.hands, round.trans drained.result,
        drained.length, drained.small, .more wanted drained.taken⟩

/-! ## One message -/

/-- How much of a message goes through the carry buffer. -/
def carried (message : HsMessage) : Nat :=
  if 4 + message.body.length ≤ carrySize then 4 + message.body.length else 4

lemma header_of_take {unread later : List UInt8}
    (bytes : carry ++ unread = message.encode ++ later) (held : 4 ≤ carry.length) :
    carry.take 4 = message.header := by
  have headers := congrArg (take 4) bytes
  have length : message.header.length = 4 := by simp [HsMessage.header]
  rw [take_append_of_le_length held, HsMessage.encode, append_assoc, take_left' length] at headers
  exact headers

lemma decodeBE_header (short : message.body.length < 2 ^ 24) :
    decodeBE (message.header.drop 1) = message.body.length := by
  show decodeBE (encodeBE 3 message.body.length) = _
  rw [decodeBE_encodeBE, Nat.mod_eq_of_lt (by omega)]

section

variable {outMax : Nat} {talk : Conversation σ} {carry : List UInt8} {layer : σ}
  {message : HsMessage}

lemma hsReadMsg_of_error {error : TlsError}
    (failed : hsReaderFill source 4 talk.carry talk.layer = .error error) :
    hsReadMsg source outMax talk = .error error := by
  rw [hsReadMsg, failed]
  rfl

lemma hsReadMsg_eq (filled : hsReaderFill source 4 talk.carry talk.layer = .ok (carry, layer))
    (header : carry.take 4 = message.header) (short : message.body.length < 2 ^ 24)
    (fits : message.body.length ≤ outMax) :
    hsReadMsg source outMax talk =
      if 4 + message.body.length ≤ carrySize then
        (hsReaderFill source (4 + message.body.length) carry layer).bind fun stopped =>
          .ok (⟨message.type, (stopped.1.drop 4).take message.body.length⟩,
            ⟨stopped.2, stopped.1.drop (4 + message.body.length), talk.transcript ++
              message.header ++ (stopped.1.drop 4).take message.body.length⟩)
      else
        (drain source message.body.length (carry.drop 4, []) layer).bind fun stopped =>
          .ok (⟨message.type, stopped.1.1⟩,
            ⟨stopped.2, stopped.1.2, talk.transcript ++ message.header ++ stopped.1.1⟩) := by
  have decoded := decodeBE_header short
  simp only [hsReadMsg, filled, bind, Except.bind, header, decoded, if_neg (Nat.not_lt.mpr fits)]
  split
  · cases hsReaderFill source (4 + message.body.length) carry layer <;> rfl
  · cases drain source message.body.length (carry.drop 4, []) layer <;> rfl

/-- A message that was read off the front of the stream. -/
structure MessageRead (source : Source σ Record) (outMax : Nat) (talk : Conversation σ)
    (message : HsMessage) (fragments : List (List UInt8)) (leftover : List UInt8)
    (rest : List (List UInt8)) (after : σ) : Prop where
  hands : Hands source after rest
  result : hsReadMsg source outMax talk =
    .ok (message, ⟨after, leftover, talk.transcript ++ message.encode⟩)
  small : leftover.length ≤ carrySize
  taken : Taken message.encode.length talk.carry fragments (message.encode ++ leftover) rest

variable {buffer later : List UInt8} {rest : List (List UInt8)} {after : σ}
  (short : message.body.length < 2 ^ 24) (fits : message.body.length ≤ outMax)
include short fits

/-- Once enough of the stream is carried, the message is cut off its front. -/
theorem messageRead_of_filled {first : List UInt8 × σ}
    (carries : 4 + message.body.length ≤ carrySize)
    (filledHeader : hsReaderFill source 4 talk.carry talk.layer = .ok first)
    (header : first.1.take 4 = message.header)
    (filled : Filled source (4 + message.body.length) talk.carry talk.layer fragments buffer rest
      after) (bytes : buffer ++ rest.flatten = message.encode ++ later) :
    ∃ leftover, MessageRead source outMax talk message fragments leftover rest after := by
  have again := hsReaderFill_again (Nat.le_add_right 4 message.body.length) filledHeader
  rw [filled.result] at again
  have front : buffer.take (4 + message.body.length) = message.encode := by
    have fronts := congrArg (take (4 + message.body.length)) bytes
    rwa [take_append_of_le_length filled.enough, take_left' message.length_encode] at fronts
  have body : (buffer.drop 4).take message.body.length = message.body := by
    rw [take_drop, front, HsMessage.encode, drop_left' (by simp [HsMessage.header])]
  refine ⟨buffer.drop (4 + message.body.length), filled.hands, ?_, ?_, ?_⟩
  · rw [hsReadMsg_eq filledHeader header short fits, if_pos carries, again]
    show Except.ok _ = _
    rw [body, append_assoc, ← HsMessage.encode]
  · have small := filled.small
    rw [length_drop]
    omega
  · rw [message.length_encode, ← front, take_append_drop]
    exact filled.taken

/-- A message that is too long for the carry buffer is drained once its header is
carried. -/
theorem messageRead_of_drained (drains : ¬4 + message.body.length ≤ carrySize)
    (filled : Filled source 4 talk.carry talk.layer fragments buffer rest after)
    (header : buffer.take 4 = message.header)
    (bytes : buffer ++ rest.flatten = message.encode ++ later) :
    ∃ leftover unread after, MessageRead source outMax talk message fragments leftover unread
      after := by
  have small := filled.small
  have split : buffer = message.header ++ buffer.drop 4 := by rw [← header, take_append_drop]
  have bodies : buffer.drop 4 ++ rest.flatten = message.body ++ later := by
    rw [split, HsMessage.encode, append_assoc, append_assoc] at bytes
    exact append_cancel_left bytes
  have lengths := congrArg length bodies
  rw [length_append, length_append] at lengths
  have copied : (buffer.drop 4).length ≤ message.body.length := by
    rw [length_drop]
    omega
  obtain ⟨body, leftover, unread, after, drained⟩ :=
    drain_delivered filled.hands (by omega) copied
  have bodyEq : body = message.body := by
    rw [← drained.taken.bytes, append_assoc] at bodies
    exact (append_inj bodies drained.length).1
  refine ⟨leftover, unread, after, drained.hands, ?_, drained.small, ?_⟩
  · rw [hsReadMsg_eq filled.result header short fits, if_neg drains, drained.result, bodyEq]
    show Except.ok _ = _
    rw [append_assoc, ← HsMessage.encode]
  · have taken := drained.taken.behind message.header
    rw [← split, ← length_append, bodyEq, ← append_assoc, ← HsMessage.encode] at taken
    exact filled.taken.trans (by rw [message.length_encode]; omega) taken

/-- The next message of the stream is read, unless a fragment of it does not fit. -/
theorem hsReadMsg_delivered (hands : Hands source talk.layer fragments)
    (small : talk.carry.length ≤ carrySize)
    (bytes : talk.carry ++ fragments.flatten = message.encode ++ later) :
    (RoomFor 0 (carried message) talk.carry.length fragments →
      ∃ leftover rest after, MessageRead source outMax talk message fragments leftover rest after) ∧
    (¬RoomFor 0 (carried message) talk.carry.length fragments →
      hsReadMsg source outMax talk = .error .protocol) := by
  have lengths := congrArg length bytes
  rw [length_append, length_append, message.length_encode] at lengths
  have carriedLe : 4 ≤ carried message := by
    rw [carried]
    split <;> omega
  obtain ⟨headerFilled, headerRefused⟩ := hsReaderFill_delivered 4 hands (by omega) small
  by_cases headerRoom : RoomFor 0 4 talk.carry.length fragments
  · obtain ⟨buffer, rest, afterHeader, filled⟩ := headerFilled headerRoom
    have filledBytes := filled.taken.bytes.trans bytes
    have header := header_of_take filledBytes filled.enough
    by_cases carries : 4 + message.body.length ≤ carrySize
    · have carriedEq : carried message = 4 + message.body.length := if_pos carries
      obtain ⟨messageFilled, messageRefused⟩ := hsReaderFill_delivered (4 + message.body.length)
        hands (by omega) small
      rw [carriedEq]
      refine ⟨fun room => ?_, fun noRoom => ?_⟩
      · obtain ⟨_, unread, after, messageFill⟩ := messageFilled room
        obtain ⟨leftover, read⟩ := messageRead_of_filled short fits carries filled.result header
          messageFill (messageFill.taken.bytes.trans bytes)
        exact ⟨leftover, unread, after, read⟩
      · rw [hsReadMsg_eq filled.result header short fits, if_pos carries,
          hsReaderFill_again (Nat.le_add_right 4 _) filled.result, messageRefused noRoom]
        rfl
    · have carriedEq : carried message = 4 := if_neg carries
      rw [carriedEq]
      exact ⟨fun _ => messageRead_of_drained short fits carries filled header filledBytes,
        fun noRoom => absurd headerRoom noRoom⟩
  · refine ⟨fun room => absurd (room.mono carriedLe) headerRoom, fun _ => ?_⟩
    exact hsReadMsg_of_error (headerRefused headerRoom)

end

/-! ## Every sequence of messages -/

/-- The bytes of a sequence of messages. -/
def encodeAll (messages : List HsMessage) : List UInt8 := messages.flatMap HsMessage.encode

/-- Each fragment pulled while a message is carried fits behind what is carried of it. -/
def CarryFits (held : Nat) (messages : List HsMessage) (fragments : List (List UInt8)) : Prop :=
  ∀ before message after, messages = before ++ message :: after →
    RoomFor (encodeAll before).length (carried message) held fragments

/-- Successive calls of `hs_read_msg`, each with the size of its buffer. -/
def readMsgs (source : Source σ Record) :
    List Nat → Conversation σ → Except TlsError (List HsMessage × Conversation σ)
  | [], talk => .ok ([], talk)
  | outMax :: rest, talk =>
    (hsReadMsg source outMax talk).bind fun first =>
      (readMsgs source rest first.2).bind fun others => .ok (first.1 :: others.1, others.2)

lemma carryFits_cons_iff {messages : List HsMessage} {carry leftover : List UInt8}
    {rest : List (List UInt8)} (taken : Taken message.encode.length carry fragments
      (message.encode ++ leftover) rest) :
    CarryFits carry.length (message :: messages) fragments ↔
      RoomFor 0 (carried message) carry.length fragments ∧
        CarryFits leftover.length messages rest := by
  have shift : ∀ (before : List HsMessage) (need : Nat),
      RoomFor (encodeAll (message :: before)).length need carry.length fragments ↔
        RoomFor (encodeAll before).length need leftover.length rest := by
    intro before need
    rw [encodeAll, flatMap_cons, length_append, taken.roomFor_iff, length_append, roomFor_shift,
      encodeAll]
  constructor
  · intro fits
    refine ⟨fits [] message messages rfl, fun before next after split => ?_⟩
    exact (shift before _).mp (fits (message :: before) next after (by rw [split]; rfl))
  · rintro ⟨first, others⟩ before next after split
    cases before with
    | nil =>
      obtain ⟨rfl, -⟩ := cons.inj split
      exact first
    | cons head before =>
      obtain ⟨rfl, tailSplit⟩ := cons.inj split
      exact (shift before _).mpr (others before next after tailSplit)

/-- The messages in order, with exactly their bytes in the transcript and nothing left over. -/
def ReadExactly (source : Source σ Record) (reads : List (HsMessage × Nat))
    (talk : Conversation σ) : Prop :=
  ∃ layer, readMsgs source (reads.map Prod.snd) talk =
    .ok (reads.map Prod.fst, ⟨layer, [], talk.transcript ++ encodeAll (reads.map Prod.fst)⟩)

variable {reads : List (HsMessage × Nat)}

lemma readExactly_cons_iff {outMax : Nat} {talk : Conversation σ}
    {after : σ} {leftover : List UInt8} (first : hsReadMsg source outMax talk =
      .ok (message, ⟨after, leftover, talk.transcript ++ message.encode⟩)) :
    ReadExactly source ((message, outMax) :: reads) talk ↔
      ReadExactly source reads ⟨after, leftover, talk.transcript ++ message.encode⟩ := by
  simp only [ReadExactly, map_cons, readMsgs, first, encodeAll, flatMap_cons,
    append_assoc, Except.bind]
  refine exists_congr fun layer => ?_
  cases readMsgs source (reads.map Prod.snd)
      ⟨after, leftover, talk.transcript ++ message.encode⟩ with
  | error error => exact iff_of_false nofun nofun
  | ok others =>
    simp only [Except.ok.injEq, Prod.ext_iff, cons.injEq, true_and]

/-- Messages are read as they were sent if and only if the carry buffer takes their
fragments. -/
theorem readExactly_iff {talk : Conversation σ} (hands : Hands source talk.layer fragments)
    (small : talk.carry.length ≤ carrySize)
    (short : ∀ read ∈ reads, read.1.body.length < 2 ^ 24)
    (fits : ∀ read ∈ reads, read.1.body.length ≤ read.2)
    (bytes : talk.carry ++ fragments.flatten = encodeAll (reads.map Prod.fst)) :
    ReadExactly source reads talk ↔
      CarryFits talk.carry.length (reads.map Prod.fst) fragments := by
  induction reads generalizing talk fragments with
  | nil =>
    have empty : talk.carry = [] := (append_eq_nil_iff.mp bytes).1
    refine iff_of_true ⟨talk.layer, ?_⟩ ?_
    · rw [← empty]
      simp [readMsgs, encodeAll]
    · intro before message after split
      cases before <;> cases split
  | cons read reads ih =>
    obtain ⟨firstShort, short⟩ := forall_mem_cons.mp short
    obtain ⟨firstFits, fits⟩ := forall_mem_cons.mp fits
    rw [map_cons, encodeAll, flatMap_cons, ← encodeAll] at bytes
    obtain ⟨succeeds, fails⟩ := hsReadMsg_delivered firstShort firstFits hands small bytes
    by_cases room : RoomFor 0 (carried read.1) talk.carry.length fragments
    · obtain ⟨leftover, rest, after, message⟩ := succeeds room
      rw [← message.taken.bytes, append_assoc] at bytes
      have later := @ih rest ⟨after, leftover, talk.transcript ++ read.1.encode⟩
        message.hands message.small short fits (append_cancel_left bytes)
      rw [map_cons, carryFits_cons_iff message.taken, and_iff_right room, ← later]
      exact readExactly_cons_iff message.result
    · have failed := fails room
      refine iff_of_false ?_ fun carries => room (carries [] _ _ rfl)
      rintro ⟨layer, result⟩
      rw [map_cons, readMsgs, failed] at result
      cases result

end

/-! ## The record layer -/

/-- A record in the clear. -/
def Record.encode (record : Record) : List UInt8 :=
  header record.type record.data.length ++ record.data

/-- Records in the clear are delivered, however the transport cuts them. -/
theorem delivers_clear (aeads : AeadAlg → Aead) {records : List Record} {r : RecordState}
    (inactive : r.rcv.active = false)
    (sizes : ∀ record ∈ records, record.data.length ≤ recMaxPlaintext)
    (nonempty : [] ∉ r.incoming) {rest : List UInt8}
    (arrived : r.incoming.flatten = records.flatMap Record.encode ++ rest) :
    (recordSource aeads).Delivers r records := by
  induction records generalizing r with
  | nil => trivial
  | cons record records ih =>
    obtain ⟨size, sizes⟩ := forall_mem_cons.mp sizes
    rw [flatMap_cons, Record.encode, append_assoc, append_assoc] at arrived
    obtain ⟨body, received, bodyArrived, bodyNonempty⟩ :=
      tlsRecordRecv_of_arrived aeads recMaxPlaintext nonempty arrived
    obtain ⟨after, bodyReceived, afterArrived, afterNonempty⟩ :=
      xportFullRecv_of_flatten bodyNonempty bodyArrived
    have lenEq := headerLen_header record.type record.data.length
      (by simp only [recMaxPlaintext] at size; omega)
    refine ⟨{ r with incoming := after }, ?_, ih inactive sizes afterNonempty afterArrived⟩
    have result : tlsRecordRecv aeads r recMaxPlaintext =
        (.ok record, { r with incoming := after }) := by
      simp only [received, recvBody, inactive, Bool.false_eq_true, false_and, if_false,
        headerType_header, lenEq, if_neg (Nat.not_lt.mpr size), recvPlain, bodyReceived]
    simp only [recordSource, result]

/-- A whole flight that fits into the carry buffer is carried. -/
theorem carryFits_of_small {messages : List HsMessage}
    (small : fragments.flatten.length ≤ carrySize) : CarryFits 0 messages fragments := by
  intro before message after _ earlier fragment later split _ _
  have lengths := congrArg (fun fragments => fragments.flatten.length) split
  simp only [flatten_append, flatten_cons, length_append] at lengths
  omega

/-- For every sequence of messages and every way of cutting their bytes into
handshake records, `hs_read_msg` returns exactly these messages and feeds exactly
their bytes to the transcript, if and only if the carry buffer takes each record
that is pulled into it. -/
theorem messages_read_exactly_iff (aeads : AeadAlg → Aead) {reads : List (HsMessage × Nat)}
    {records : List Record} {r : RecordState} (transcript : List UInt8)
    (delivers : (recordSource aeads).Delivers r records) (stream : HandshakeStream records)
    (short : ∀ read ∈ reads, read.1.body.length < 2 ^ 24)
    (fits : ∀ read ∈ reads, read.1.body.length ≤ read.2)
    (bytes : (payloads records).flatten = encodeAll (reads.map Prod.fst)) :
    ReadExactly (recordSource aeads) reads ⟨r, [], transcript⟩ ↔
      CarryFits 0 (reads.map Prod.fst) (payloads records) :=
  @readExactly_iff _ _ _ reads ⟨r, [], transcript⟩ ⟨records, delivers, stream, rfl⟩ (Nat.zero_le _)
    short fits bytes

/-- A record layer without keys, to which records come in the clear. -/
def clearLayer (records : List Record) : RecordState :=
  tlsRecordInit (records.map Record.encode) []

lemma delivers_clearLayer (aeads : AeadAlg → Aead) {records : List Record}
    (sizes : ∀ record ∈ records, record.data.length ≤ recMaxPlaintext) :
    (recordSource aeads).Delivers (clearLayer records) records := by
  refine delivers_clear aeads rfl sizes ?_ (append_nil _).symm
  intro mem
  obtain ⟨record, -, empty⟩ := mem_map.mp mem
  cases empty

/-- An AEAD that opens nothing. -/
def sealedShut : AeadAlg → Aead := fun _ =>
  ⟨fun _ _ _ plaintext => (plaintext, []), fun _ _ _ _ _ => none⟩

/-- Two messages whose headers are cut, with a ChangeCipherSpec in between. -/
theorem cut_headers_read_exactly :
    ReadExactly (recordSource sealedShut) [(⟨8, [1, 2]⟩, 20480), (⟨20, [9]⟩, 20480)]
      ⟨clearLayer [⟨22, [8, 0, 0]⟩, ⟨20, [1]⟩, ⟨22, [2, 1, 2, 20]⟩, ⟨22, [0, 0, 1, 9]⟩], [], []⟩ :=
  (messages_read_exactly_iff sealedShut [] (delivers_clearLayer _ (by decide))
    ⟨by decide, by decide⟩ (by decide) (by decide) (by decide)).mpr
    (carryFits_of_small (by decide))

/-- A record of full size after a record that ends one byte into a message. -/
def unluckyCut (body : List UInt8) : List Record :=
  [⟨22, [8, 0, 0, 0, 11]⟩, ⟨22, [0, 0x3F, 0xFD] ++ body⟩]

/-- The messages that `unluckyCut` carries: EncryptedExtensions and a Certificate. -/
def unluckyReads (body : List UInt8) : List (HsMessage × Nat) :=
  [(⟨8, []⟩, 20480), (⟨11, body⟩, 20480)]

lemma unluckyCut_stream (length : body.length = 16381) : HandshakeStream (unluckyCut body) := by
  refine ⟨by simp [unluckyCut, rtHandshake], ?_⟩
  show ∀ payload ∈ [[8, 0, 0, 0, 11], [0, 0x3F, 0xFD] ++ body], _
  simp [recMaxPlaintext, length]

lemma unluckyCut_bytes (length : body.length = 16381) :
    (payloads (unluckyCut body)).flatten = encodeAll ((unluckyReads body).map Prod.fst) := by
  have lengthBytes : encodeBE 3 16381 = [0, 0x3F, 0xFD] := by decide
  show ([8, 0, 0, 0, 11] : List UInt8) ++ ([0, 0x3F, 0xFD] ++ body ++ []) =
    [8, 0, 0, 0] ++ (11 :: (encodeBE 3 body.length ++ body) ++ [])
  rw [length, lengthBytes]
  rfl

lemma unluckyCut_not_carried (length : body.length = 16381) :
    ¬CarryFits 0 ((unluckyReads body).map Prod.fst) (payloads (unluckyCut body)) := by
  intro carries
  have room := carries [⟨8, []⟩] ⟨11, body⟩ [] rfl [[8, 0, 0, 0, 11]] ([0, 0x3F, 0xFD] ++ body) []
    rfl
  simp [encodeAll, carried, carrySize, length] at room

/-- A Certificate is refused because its first byte arrived with the message before
it, although every record is within the limit and the caller's buffer is large
enough. -/
theorem unlucky_cut_not_read :
    (recordSource sealedShut).Delivers (clearLayer (unluckyCut (replicate 16381 0)))
        (unluckyCut (replicate 16381 0)) ∧
      HandshakeStream (unluckyCut (replicate 16381 0)) ∧
      (∀ read ∈ unluckyReads (replicate 16381 0), read.1.body.length ≤ read.2) ∧
      (payloads (unluckyCut (replicate 16381 0))).flatten =
        encodeAll ((unluckyReads (replicate 16381 0)).map Prod.fst) ∧
      ¬ReadExactly (recordSource sealedShut) (unluckyReads (replicate 16381 0))
        ⟨clearLayer (unluckyCut (replicate 16381 0)), [], []⟩ := by
  have length : (replicate 16381 (0 : UInt8)).length = 16381 := length_replicate
  generalize replicate 16381 (0 : UInt8) = body at length
  have delivers : (recordSource sealedShut).Delivers (clearLayer (unluckyCut body))
      (unluckyCut body) :=
    delivers_clearLayer _ (by simp [unluckyCut, recMaxPlaintext, length])
  have short : ∀ read ∈ unluckyReads body, read.1.body.length < 2 ^ 24 := by
    simp [unluckyReads, length]
  have fits : ∀ read ∈ unluckyReads body, read.1.body.length ≤ read.2 := by
    simp [unluckyReads, length]
  refine ⟨delivers, unluckyCut_stream length, fits, unluckyCut_bytes length, fun exact => ?_⟩
  exact unluckyCut_not_carried length ((@readExactly_iff _ _ _ _
    ⟨clearLayer (unluckyCut body), [], []⟩ ⟨_, delivers, unluckyCut_stream length, rfl⟩
    (Nat.zero_le _) short fits (unluckyCut_bytes length)).mp exact)

end CupidOs.Tls
