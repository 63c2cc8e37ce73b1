import CupidOs.Net.Ports

/-!
# Retransmission of the segment in flight

`tcp_send` leaves one segment in flight and `tcp_tick` sends it again until it is acknowledged.
Both are handled in `ESTABLISHED` only, so that leaving this state with a segment in flight
abandons it.
-/

namespace CupidOs.Net

open Function Transition

/-- The calls that move the data of a connection. -/
inductive TransferCall
  | send (fd : Fin socketMax) (left : List UInt8) (now : UInt32)
  | close (fd : Fin socketMax) (now : UInt32)
  | input (srcIp : UInt32) (buf : List UInt8) (now iss own : UInt32)
  | tick (now : UInt32)

/-- The socket table under these calls. -/
def transferStep : Machine Sockets TransferCall (List Emission)
  | sockets, .send fd left now =>
    (update sockets fd (socketSend (sockets fd) left now).1, (socketSend (sockets fd) left now).2.1)
  | sockets, .close fd now => tcpClose sockets fd now
  | sockets, .input srcIp buf now iss own => tcpInput sockets srcIp buf now iss own
  | sockets, .tick now => tcpTick sockets now

variable (sockets : Sockets)

/-- The socket that an arriving segment belongs to, with the segment. -/
def receiverOf (srcIp : UInt32) (buf : List UInt8) :
    Option (Fin socketMax × Segment) :=
  (tcpParse buf).bind fun segment =>
    (firstSocket sockets (belongsTo srcIp segment)).map fun fd => (fd, segment)

/-- Which sockets had their last segment acknowledged, whatever their state. -/
def nextAcked (acked : Fin socketMax → Bool) :
    TransferCall → Fin socketMax → Bool
  | .send fd left now =>
    if (socketSend (sockets fd) left now).2.1 = [] then acked else update acked fd false
  | .input srcIp buf _ _ _ =>
    match receiverOf sockets srcIp buf with
    | none => acked
    | some (fd, segment) =>
      if acksInFlight (sockets fd) segment then update acked fd true else acked
  | _ => acked

/-- The socket table together with what has been acknowledged. -/
def trackedStep : Machine (Sockets × (Fin socketMax → Bool)) TransferCall (List Emission) :=
  fun state call =>
    (((transferStep state.1 call).1, nextAcked state.1 state.2 call), (transferStep state.1 call).2)

/-- In time, the segment in flight is sent again or the connection is given up. -/
def Recovers (s : Socket) : Prop :=
  ∀ now, s.rto < now - s.rtSendTick →
    tcpEmit s s.rtSeq { ack := true, psh := true } s.rtBuf ∈ (tickEntry s now).2 ∨
      tcpRtMaxAttempts ≤ s.rtAttempts ∧ (tickEntry s now).1.tcpState = .closed

/-- No socket in use abandons a segment that was not acknowledged. -/
def NothingAbandoned (state : Sockets × (Fin socketMax → Bool)) : Prop :=
  ∀ fd, (state.1 fd).isTcp = true → (state.1 fd).rtBuf ≠ [] → state.2 fd = false →
    Recovers (state.1 fd)

/-- While a segment is in flight, a connection is not closed and not ended by a segment that does
not acknowledge it. -/
def LeavesNothingInFlight : TransferCall → Prop
  | .close fd _ =>
    (sockets fd).isTcp = true → (sockets fd).tcpState = .established → (sockets fd).rtBuf = []
  | .input srcIp buf _ _ _ =>
    ∀ receiver ∈ receiverOf sockets srcIp buf,
      (sockets receiver.1).tcpState = .established → receiver.2.flags.fin = true →
        (sockets receiver.1).rtBuf = [] ∨ acksInFlight (sockets receiver.1) receiver.2 = true
  | _ => True

/-- Segments are in flight in `ESTABLISHED` only. -/
def InFlightEstablished : Prop :=
  ∀ fd, (sockets fd).isTcp = true → (sockets fd).rtBuf ≠ [] → (sockets fd).tcpState = .established

/-- A segment that is in flight in `ESTABLISHED` has not been acknowledged. -/
structure TransferSound (state : Sockets × (Fin socketMax → Bool)) : Prop where
  established : InFlightEstablished state.1
  unacked : ∀ fd, (state.1 fd).isTcp = true → (state.1 fd).rtBuf ≠ [] → state.2 fd = false

/-! ## One socket -/

variable (s : Socket)

lemma rto_lt : s.rto < 0xFFFFFFFF := by
  rw [UInt32.lt_iff_toNat_lt]
  have value : s.rto.toNat = 500 * 2 ^ s.rtAttempts % 2 ^ 32 := by
    simp [Socket.rto, tcpRtoMs]
  rw [value]
  generalize 2 ^ s.rtAttempts = scale
  have top : (0xFFFFFFFF : UInt32).toNat = 4294967295 := rfl
  omega

variable {s : Socket} {segment : Segment}

/-- In `ESTABLISHED`, the segment in flight is taken care of. -/
theorem recovers_of_established (tcp : s.isTcp = true) (established : s.tcpState = .established)
    (flying : s.rtBuf ≠ []) : Recovers s := by
  intro now due
  have positive : 0 < s.rtBuf.length := List.length_pos_iff.mpr flying
  simp only [tickEntry, tcp, if_true, tickSocket, established, retransmit, positive, due, and_self]
  by_cases last : tcpRtMaxAttempts ≤ s.rtAttempts
  · rw [if_pos last]
    exact Or.inr ⟨last, rfl⟩
  · rw [if_neg last]
    exact Or.inl (List.mem_singleton.mpr rfl)

/-- After the end of either stream there is no timer for the segment in flight. -/
theorem not_recovers_of_ended (ended : s.tcpState = .finWait1 ∨ s.tcpState = .closeWait) :
    ¬Recovers s := by
  have idle : ∀ now, tickEntry s now = (s, []) := by
    intro now
    simp only [tickEntry, tickSocket]
    rcases ended with waiting | waiting
    · simp [waiting]
    · simp [waiting]
  intro recovers
  have due : s.rto < 0xFFFFFFFF + s.rtSendTick - s.rtSendTick := by
    rw [UInt32.add_sub_cancel]
    exact rto_lt s
  rcases recovers (0xFFFFFFFF + s.rtSendTick) due with sent | ⟨-, closed⟩
  · rw [idle] at sent
    cases sent
  rw [idle] at closed
  rcases ended with waiting | waiting
  · rw [waiting] at closed
    cases closed
  · rw [waiting] at closed
    cases closed

/-! ## One call -/

variable {sockets : Sockets} {srcIp : UInt32} {buf : List UInt8} {acked : Bool}

lemma receiverOf_some {fd : Fin socketMax}
    (found : receiverOf sockets srcIp buf = some (fd, segment)) :
    tcpParse buf = some segment ∧ firstSocket sockets (belongsTo srcIp segment) = some fd := by
  simp only [receiverOf, Option.bind_eq_some_iff, Option.map_eq_some_iff, Prod.mk.injEq] at found
  rcases found with ⟨parsed, read, other, first, rfl, rfl⟩
  exact ⟨read, first⟩

lemma tcpInput_of_receiver {fd : Fin socketMax}
    (found : receiverOf sockets srcIp buf = some (fd, segment)) (now iss own : UInt32) :
    (tcpInput sockets srcIp buf now iss own).1 =
      update sockets fd (socketInput (sockets fd) segment now).1 := by
  rcases receiverOf_some found with ⟨read, first⟩
  simp only [tcpInput, read, segmentInput, first]

/-- Two tables with the same connections, as far as retransmission is concerned. -/
def SameTransfer (first second : Socket) : Prop :=
  first.isTcp = second.isTcp ∧ first.rtBuf = second.rtBuf ∧ first.tcpState = second.tcpState

/-- A segment that belongs to no connection changes listen queues only. -/
theorem tcpInput_of_stray (stray : receiverOf sockets srcIp buf = none) (now iss own : UInt32)
    (fd : Fin socketMax) :
    SameTransfer ((tcpInput sockets srcIp buf now iss own).1 fd) (sockets fd) := by
  have same : ∀ s : Socket, SameTransfer s s := fun s => ⟨rfl, rfl, rfl⟩
  have update : ∀ (target : Fin socketMax) (s : Socket), SameTransfer s (sockets target) →
      SameTransfer (update sockets target s fd) (sockets fd) := by
    intro target s kept
    by_cases here : fd = target
    · rw [here, update_self]
      exact kept
    · rw [update_of_ne here]
      exact same _
  unfold tcpInput
  split
  · exact same _
  case h_2 segment read =>
    have missing : firstSocket sockets (belongsTo srcIp segment) = none := by
      simpa [receiverOf, read] using stray
    simp only [segmentInput, missing, strayInput]
    split
    · split
      · exact same _
      · apply update
        simp only [listenInput]
        split
        · exact same _
        · split <;> exact same _
    · split
      · split
        · exact same _
        · apply update
          simp only [completeEntry]
          split <;> exact same _
      · exact same _

/-- The state of a socket that is not in the way of the invariant. -/
def SocketSound (s : Socket) (acked : Bool) : Prop :=
  s.isTcp = true → s.rtBuf ≠ [] → s.tcpState = .established ∧ acked = false

lemma transferSound_iff {state : Sockets × (Fin socketMax → Bool)} :
    TransferSound state ↔ ∀ fd, SocketSound (state.1 fd) (state.2 fd) :=
  ⟨fun sound fd tcp flying => ⟨sound.established fd tcp flying, sound.unacked fd tcp flying⟩,
    fun sound => ⟨fun fd tcp flying => (sound fd tcp flying).1,
      fun fd tcp flying => (sound fd tcp flying).2⟩⟩

section

variable (sound : SocketSound s acked)
include sound

lemma socketSend_sound (left : List UInt8) (now : UInt32) : SocketSound (socketSend s left now).1
      (if (socketSend s left now).2.1 = [] then acked else false) := by
  simp only [socketSend]
  split
  · exact sound
  split
  · exact sound
  split
  · exact sound
  case isFalse established =>
    split
    · intro tcp flying
      refine ⟨?_, by simp⟩
      have same : (tcpSendSeg s { ack := true, psh := true } (left.take tcpMss) now).1.tcpState =
          s.tcpState := by
        simp only [tcpSendSeg, recordInFlight]
        split <;> rfl
      rw [same]
      simpa using established
    · exact sound

lemma tickEntry_sound (now : UInt32) : SocketSound (tickEntry s now).1 acked := by
  simp only [tickEntry]
  split
  case isTrue tcp =>
    unfold tickSocket
    split
    case h_1 sent =>
      split
      · rw [tcpSendSeg_nil]
        exact sound
      · exact sound
    case h_2 established =>
      simp only [retransmit]
      split
      · split
        · exact fun _ flying => absurd rfl flying
        · exact sound
      · exact sound
    case h_3 => exact sound
    case h_4 waiting =>
      split
      · exact fun inUse => by simp [Socket.isTcp] at inUse
      · exact sound
    case h_5 => exact sound
  case isFalse => exact sound

lemma socketTcpClose_sound (tcp : s.isTcp = true)
    (empty : s.tcpState = .established → s.rtBuf = []) (now : UInt32) :
    SocketSound (socketTcpClose s now).1 acked := by
  unfold socketTcpClose
  split
  case h_1 established =>
    rw [tcpSendSeg_nil]
    exact fun _ flying => absurd (empty established) flying
  case h_2 waiting =>
    rw [tcpSendSeg_nil]
    intro _ flying
    have established := (sound tcp flying).1
    rw [waiting] at established
    cases established
  case h_3 => exact fun inUse => by simp [Socket.isTcp] at inUse

lemma socketInput_sound (tcp : s.isTcp = true)
    (kept : s.tcpState = .established → segment.flags.fin = true →
      s.rtBuf = [] ∨ acksInFlight s segment = true) (now : UInt32) :
    SocketSound (socketInput s segment now).1 (if acksInFlight s segment then true else acked) := by
  intro _ flying
  by_cases established : s.tcpState = .established
  · simp only [socketInput, established] at flying ⊢
    have handled := establishedInput_handled s segment now
    rw [handled.rtBuf] at flying
    cases covered : acksInFlight s segment with
    | true => simp [covered] at flying
    | false =>
      simp only [covered, Bool.false_eq_true, if_false] at flying ⊢
      refine ⟨?_, (sound tcp flying).2⟩
      rw [handled.tcpState]
      split
      case isTrue fin =>
        rcases kept established fin with empty | acks
        · exact absurd empty flying
        · rw [covered] at acks
          cases acks
      case isFalse => exact established
  · rw [(socketInput_handled s segment now established).rtBuf] at flying
    exact absurd (sound tcp flying).1 established

end

section Calls

variable {state : Sockets × (Fin socketMax → Bool)} {fd : Fin socketMax}

section

variable (sound : TransferSound state)
include sound

lemma transferSound_update {s : Socket} {bit : Bool}
    (entry : SocketSound s bit) {acked : Fin socketMax → Bool} (ackedHere : acked fd = bit)
    (ackedElsewhere : ∀ other, other ≠ fd → acked other = state.2 other) :
    TransferSound (update state.1 fd s, acked) := by
  rw [transferSound_iff] at sound ⊢
  intro other
  by_cases here : other = fd
  · subst here
    simpa only [update_self, ackedHere] using entry
  · simpa only [update_of_ne here, ackedElsewhere other here] using sound other

/-- A connection that keeps its state while a segment is in flight keeps the
invariant. -/
theorem trackedStep_sound {call : TransferCall}
    (kept : LeavesNothingInFlight state.1 call) : TransferSound (trackedStep state call).1 := by
  have entries := transferSound_iff.mp sound
  cases call with
  | send fd left now =>
    apply transferSound_update sound (socketSend_sound (entries fd) left now)
    · simp only [nextAcked]
      split <;> simp
    · intro other different
      simp only [nextAcked]
      split
      · rfl
      · exact update_of_ne different _ _
  | close fd now =>
    simp only [trackedStep, transferStep, tcpClose, nextAcked]
    split
    case isTrue tcp =>
      exact transferSound_update sound (socketTcpClose_sound (entries fd) tcp (kept tcp) now) rfl
        fun _ _ => rfl
    case isFalse => exact sound
  | tick now => exact transferSound_iff.mpr fun fd => tickEntry_sound (entries fd) now
  | input srcIp buf now iss own =>
    simp only [trackedStep, transferStep, nextAcked]
    cases found : receiverOf state.1 srcIp buf with
    | none =>
      refine transferSound_iff.mpr fun fd tcp flying => ?_
      rcases tcpInput_of_stray found now iss own fd with ⟨sameTcp, sameBuf, sameState⟩
      simp only [sameTcp, sameBuf, sameState] at tcp flying ⊢
      exact entries fd tcp flying
    | some receiver =>
      rcases receiver with ⟨fd, segment⟩
      rw [tcpInput_of_receiver found]
      have belongs := firstSocket_some (receiverOf_some found).2
      simp only [belongsTo, Bool.and_eq_true] at belongs
      have tcp := (Socket.active_iff.mp belongs.1.1.1).1
      apply transferSound_update sound
        (socketInput_sound (entries fd) tcp (kept (fd, segment) found) now)
      · simp only
        split <;> simp
      · intro other different
        simp only
        split
        · exact update_of_ne different _ _
        · rfl

lemma nothingAbandoned_of_sound : NothingAbandoned state :=
  fun fd tcp flying _ => recovers_of_established tcp (sound.established fd tcp flying) flying

lemma close_abandons {now : UInt32} (tcp : (state.1 fd).isTcp = true)
    (established : (state.1 fd).tcpState = .established) (flying : (state.1 fd).rtBuf ≠ []) :
    ¬NothingAbandoned (trackedStep state (.close fd now)).1 := by
  intro nothing
  have closed : (trackedStep state (.close fd now)).1.1 fd =
      (socketTcpClose (state.1 fd) now).1 := by
    simp only [trackedStep, transferStep, tcpClose, tcp, if_true, update_self]
  have recovers := nothing fd
  rw [closed] at recovers
  simp only [socketTcpClose, established, tcpSendSeg_nil] at recovers
  refine not_recovers_of_ended ?_ (recovers tcp flying (sound.unacked fd tcp flying))
  exact Or.inl rfl

/-- The end of the peer's stream abandons the segment in flight that it does not
acknowledge. -/
theorem fin_abandons {srcIp : UInt32} {buf : List UInt8} {now iss own : UInt32} {segment : Segment}
    (found : receiverOf state.1 srcIp buf = some (fd, segment))
    (established : (state.1 fd).tcpState = .established) (fin : segment.flags.fin = true)
    (flying : (state.1 fd).rtBuf ≠ []) (uncovered : acksInFlight (state.1 fd) segment = false) :
    ¬NothingAbandoned (trackedStep state (.input srcIp buf now iss own)).1 := by
  intro nothing
  have belongs := firstSocket_some (receiverOf_some found).2
  simp only [belongsTo, Bool.and_eq_true] at belongs
  have tcp := (Socket.active_iff.mp belongs.1.1.1).1
  have ended : (trackedStep state (.input srcIp buf now iss own)).1.1 fd =
      (establishedInput (state.1 fd) segment now).1 := by
    simp only [trackedStep, transferStep, tcpInput_of_receiver found, update_self,
      socketInput, established]
  have acked : (trackedStep state (.input srcIp buf now iss own)).1.2 fd = false := by
    simp only [trackedStep, nextAcked, found, uncovered]
    exact sound.unacked fd tcp flying
  have recovers := nothing fd
  have handled := establishedInput_handled (state.1 fd) segment now
  rw [ended, handled.isTcp, handled.rtBuf, uncovered] at recovers
  refine not_recovers_of_ended ?_ (recovers tcp flying acked)
  right
  rw [handled.tcpState, if_pos fin]

/-- A call abandons nothing if no connection leaves `ESTABLISHED` with a segment in flight. -/
theorem nothingAbandoned_step_iff (call : TransferCall) :
    NothingAbandoned (trackedStep state call).1 ↔ LeavesNothingInFlight state.1 call := by
  refine ⟨fun nothing => ?_, fun kept => nothingAbandoned_of_sound (trackedStep_sound sound kept)⟩
  cases call with
  | send fd left now => trivial
  | tick now => trivial
  | close fd now =>
    intro tcp established
    by_contra flying
    exact close_abandons sound tcp established flying nothing
  | input srcIp buf now iss own =>
    rintro ⟨fd, segment⟩ found established fin
    by_contra flying
    rw [not_or] at flying
    exact fin_abandons sound found established fin flying.1 (by simpa using flying.2) nothing

end

end Calls

/-- From a table in which segments are in flight in `ESTABLISHED` only, a run of
`tcp_send`, `tcp_close`, `tcp_input` and `tcp_tick` abandons no segment exactly if no
connection leaves `ESTABLISHED` while a segment is in flight. -/
theorem nothing_abandoned_iff_leaves_nothing_in_flight (sockets : Sockets)
    (calls : List TransferCall) (start : InFlightEstablished sockets) :
    trackedStep.Along (fun state call => NothingAbandoned (trackedStep state call).1)
        (sockets, fun _ => false) calls ↔
      trackedStep.Along (fun state call => LeavesNothingInFlight state.1 call)
        (sockets, fun _ => false) calls := by
  apply Machine.along_iff_of_invariant (I := TransferSound)
  · intro state call sound kept
    exact trackedStep_sound sound kept
  · intro state call sound
    exact nothingAbandoned_step_iff sound call
  · exact ⟨start, fun _ _ _ => rfl⟩

/-- A table with one connection. -/
def oneConnection : Sockets :=
  update (fun _ => zeroSocket) 0
    { zeroSocket with
      inUse := true, type := .tcp, tcpState := .established, localPort := 5000, remoteIp := 7
      remotePort := 80 }

theorem nothing_abandoned_iff_leaves_nothing_in_flight_one_connection :
    InFlightEstablished oneConnection ∧
      (trackedStep.Along (fun state call => NothingAbandoned (trackedStep state call).1)
          (oneConnection, fun _ => false) [.send 0 [1] 0, .tick 600] ↔
        trackedStep.Along (fun state call => LeavesNothingInFlight state.1 call)
          (oneConnection, fun _ => false) [.send 0 [1] 0, .tick 600]) := by
  have start : InFlightEstablished oneConnection := by
    intro fd _ flying
    have empty : ∀ fd, (oneConnection fd).rtBuf = [] := by decide
    exact absurd (empty fd) flying
  exact ⟨start, nothing_abandoned_iff_leaves_nothing_in_flight oneConnection _ start⟩

/-- One byte is sent and the connection is closed before the byte is acknowledged:
it is still in flight, and no tick sends it again. -/
theorem close_abandons_the_byte_in_flight :
    ((transferStep.run oneConnection [.send 0 [1] 0, .close 0 0]) 0).rtBuf = [1] ∧
      ((transferStep.run oneConnection [.send 0 [1] 0, .close 0 0]) 0).isTcp = true ∧
      ¬Recovers ((transferStep.run oneConnection [.send 0 [1] 0, .close 0 0]) 0) :=
  ⟨by decide, by decide, not_recovers_of_ended (Or.inl (by decide))⟩

end CupidOs.Net
