import CupidOs.Net.Tcp

/-!
# Acknowledgement of received data

A connection that is established answers data only if the segment starts at `rcv_nxt`
or ends the stream.  Data that is sent again because its ACK was lost gets no answer.
-/

namespace CupidOs.Net

open Function List

/-- One of the replies is an ACK to the peer with the `rcv_nxt` that the socket is left with. -/
def Acknowledges (peer : UInt32) (s : Socket) (replies : List Emission) : Prop :=
  ∃ reply ∈ replies, reply.dstIp = peer ∧ reply.segment.flags.ack = true ∧
    reply.segment.ack = s.rcvNxt

/-- `tcp_input` acknowledges what it makes of a segment for the socket `fd`. -/
def InputAcknowledged (sockets : Sockets) (fd : Fin socketMax) (srcIp : UInt32) (buf : List UInt8)
    (now iss own : UInt32) : Prop :=
  Acknowledges (sockets fd).remoteIp ((tcpInput sockets srcIp buf now iss own).1 fd)
    (tcpInput sockets srcIp buf now iss own).2

variable (s : Socket)

@[simp]
lemma rcvNxt_clearInFlight (segment : Segment) :
    (clearInFlight s segment).rcvNxt = s.rcvNxt := by
  rw [clearInFlight]
  split <;> rfl

@[simp]
lemma remoteIp_clearInFlight (segment : Segment) :
    (clearInFlight s segment).remoteIp = s.remoteIp := by
  rw [clearInFlight]
  split <;> rfl

@[simp]
lemma remoteIp_storeData (data : List UInt8) :
    (storeData s data).remoteIp = s.remoteIp := by
  rw [storeData]
  split <;> rfl

lemma establishedInput_acknowledges_iff {segment : Segment} (now : UInt32)
    (data : segment.data ≠ []) :
    Acknowledges s.remoteIp (establishedInput s segment now).1 (establishedInput s segment now).2 ↔
      segment.seq = s.rcvNxt ∨ segment.flags.fin = true := by
  have nonempty : 0 < segment.data.length := length_pos_iff.mpr data
  by_cases inOrder : segment.seq = s.rcvNxt <;> cases fin : segment.flags.fin <;>
    cases ack : segment.flags.ack <;>
    simp [Acknowledges, establishedInput, receiveData, receiveFin, tcpSendSeg_nil, tcpEmit,
      inOrder, fin, ack, nonempty]

/-- For every established socket and every segment that carries data for its connection,
`tcp_input` emits an ACK with the current `rcv_nxt` if and only if the segment starts
there or has the FIN flag. -/
theorem data_acknowledged_iff {sockets : Sockets} {fd : Fin socketMax} {srcIp : UInt32}
    {buf : List UInt8} {segment : Segment} (now iss own : UInt32)
    (parsed : tcpParse buf = some segment)
    (found : firstSocket sockets (belongsTo srcIp segment) = some fd)
    (established : (sockets fd).tcpState = .established) (data : segment.data ≠ []) :
    InputAcknowledged sockets fd srcIp buf now iss own ↔
      segment.seq = (sockets fd).rcvNxt ∨ segment.flags.fin = true := by
  rw [← establishedInput_acknowledges_iff (sockets fd) now data]
  simp only [InputAcknowledged, tcpInput, parsed, segmentInput, found, socketInput, established,
    update_self]

/-- A connection to port 80 that waits for byte `rcvNxt`. -/
def connectionAt (rcvNxt : UInt32) : Sockets := fun _ =>
  { zeroSocket with
    type := .tcp, inUse := true, localPort := 80, remoteIp := 7, remotePort := 9
    tcpState := .established, rcvNxt := rcvNxt }

/-- One byte of data at byte 5 of the stream. -/
def oneByte : List UInt8 :=
  tcpPacket ⟨1, 0, ⟨9, 80, 5, 0, { ack := true }, [42]⟩⟩ 0

theorem data_acknowledged_in_order : InputAcknowledged (connectionAt 5) 0 7 oneByte 0 0 0 :=
  (@data_acknowledged_iff _ _ _ _ ⟨9, 80, 5, 0, { ack := true }, [42]⟩ 0 0 0
    (by decide +kernel) (by decide +kernel) rfl (by decide)).mpr (.inl rfl)

/-- The byte arrives and is acknowledged; the ACK is lost, the byte is sent again, and
nothing is answered. -/
theorem retransmission_not_acknowledged :
    ((tcpInput (connectionAt 5) 7 oneByte 0 0 0).1 0).tcpState = .established ∧
      ((tcpInput (connectionAt 5) 7 oneByte 0 0 0).1 0).rcvNxt = 6 ∧
      ¬ InputAcknowledged (tcpInput (connectionAt 5) 7 oneByte 0 0 0).1 0 7 oneByte 0 0 0 := by
  have silent : (tcpInput (tcpInput (connectionAt 5) 7 oneByte 0 0 0).1 7 oneByte 0 0 0).2 = [] := by
    decide +kernel
  refine ⟨by decide +kernel, by decide +kernel, ?_⟩
  rw [InputAcknowledged, silent]
  rintro ⟨reply, member, _⟩
  cases member

end CupidOs.Net
