import CupidOs.Ssh.Connection

/-!
# What a connection keeps

No function of a connection has a fault, and the only events are lines that are
executed.
-/

namespace CupidOs.Ssh

open Bytes List Transition Transition.Routine
open Tls (ascii)

variable (env : Env)

/-! ## Output -/

lemma keeps_ignored {moves : Session → Session → Prop} [IsPreorder Session moves] {α : Type}
    {routine : Sshd α} {s : Session} {post : α → Session → Prop}
    (keeps : Keeps moves routine s post) :
    Keeps moves (do let _ ← attempt routine) s fun _ _ => True :=
  keeps_bind keeps.attempt fun _ _ _ _ => keeps_pure trivial

/-- A message with the bytes of a known number of fields. -/
theorem exists_built {cap : Nat} {build : Option (Writer cap)} {data : List UInt8}
    (written : build = (Writer.empty cap).put data) (room : data.length ≤ cap) :
    ∃ out, build = some out := by
  obtain ⟨out, put, -⟩ := Writer.exists_put_empty room
  exact ⟨out, written.trans put⟩

variable (pl buf : List UInt8) (s : Session)

lemma keeps_channelDataRound (_ : True) : Keeps Quiet (channelDataRound env buf) s
      (Rounds (fun _ _ => True) (fun _ _ => True) (fun buf _ => buf.length) buf.length) := by
  unfold channelDataRound
  split
  · exact keeps_pure trivial
  rename_i nonempty
  apply keeps_get_bind
  dsimp only
  generalize capEq : min (if s.clientMaxPacket ≠ 0 then s.clientMaxPacket else 1024) 4096 = cap
  have capBounds : 1 ≤ cap ∧ cap ≤ 4096 := by
    split at capEq <;> omega
  have positive := length_pos_iff.mpr nonempty
  have taken : (buf.take (min buf.length cap)).length = min buf.length cap := by
    rw [length_take]
    omega
  obtain ⟨frame, built⟩ := exists_built (put_then (.empty (9 + 4096)) [sshMsgChannelData] fun _ =>
      put_then _ (encodeBE 4 s.clientChan) fun _ =>
      put_then _ (encodeBE 4 (min buf.length cap)) fun later =>
        (rfl : wbBytes later (buf.take (min buf.length cap)) = later.put _)) (by
    simp only [length_append, length_singleton, length_encodeBE, taken]
    omega)
  apply keeps_inside_bind built
  refine keeps_bind (keeps_bppSend env s _) fun _ t _ _ => keeps_pure ⟨trivial, ?_⟩
  change (buf.drop (min buf.length cap)).length < buf.length
  rw [length_drop]
  omega

lemma keeps_sendChannelData : Keeps Quiet (sendChannelData env buf) s fun _ _ => True :=
  keeps_ignored (keeps_loop _ _ (keeps_channelDataRound env) trivial (Nat.lt_succ_self _))

lemma keeps_flushFor {count : Nat} (small : count ≤ 1024) (out : Writer 1024) (s : Session) :
    Keeps Quiet (flushFor env count out) s fun out _ => out.bytes.length + count ≤ 1024 := by
  unfold flushFor
  split
  · refine keeps_bind (keeps_sendChannelData env _ s) fun _ _ _ _ => keeps_pure ?_
    rw [Writer.bytes_empty, length_nil]
    omega
  · rename_i room
    exact keeps_pure (by omega)

lemma keeps_sinkLoop (out : Writer 1024) (s : Session) :
    Keeps Quiet (sinkLoop env buf out) s fun _ _ => True := by
  induction buf generalizing out s with
  | nil => exact keeps_pure trivial
  | cons c buf ih =>
    rw [sinkLoop]
    generalize pieceEq : (if c = 10 then [13, 10] else [c]) = piece
    have small : piece.length ≤ 1024 := by
      split at pieceEq
      · rw [← pieceEq]
        decide
      · rw [← pieceEq, length_singleton]
        decide
    apply keeps_bind (keeps_flushFor env small out s)
    intro out t _ room
    obtain ⟨later, put, -⟩ := Writer.exists_put out piece room
    exact keeps_inside_bind put (ih later t)

lemma keeps_sshOutputSink : Keeps Quiet (sshOutputSink env buf) s fun _ _ => True :=
  keeps_bind (keeps_sinkLoop env buf _ s) fun _ t _ _ => keeps_sendChannelData env _ t

lemma keeps_sinkAll (bufs : List (List UInt8)) (s : Session) :
    Keeps Quiet (sinkAll env bufs) s fun _ _ => True := by
  induction bufs generalizing s with
  | nil => exact keeps_pure trivial
  | cons buf bufs ih => exact keeps_bind (keeps_sshOutputSink env buf s) fun _ t _ _ => ih t

lemma keeps_sendPrompt : Keeps Quiet (sendPrompt env) s fun _ _ => True := by
  refine keeps_bind (keeps_ask s env.shellCwd) fun _ t _ _ => ?_
  exact keeps_bind (keeps_sendChannelData env _ t) fun _ u _ _ => keeps_sendChannelData env _ u

lemma keeps_sendChannelReply (kind : UInt8) (s : Session) :
    Keeps Quiet (sendChannelReply env kind) s fun _ _ => True := by
  apply keeps_get_bind
  obtain ⟨p, built⟩ := exists_built
    (put_then (.empty 5) [kind] fun later => (rfl : wbBe32 later s.clientChan = later.put _)) (by
      rw [length_append, length_encodeBE, length_singleton])
  exact keeps_inside_bind built (keeps_ignored (keeps_bppSend env s _))

lemma exists_exitStatus (chan status : Nat) : ∃ p, exitStatus chan status = some p := by
  simp only [exitStatus, wbByte, wbBool, wbBe32, wbCstr_eq, put_bind, Writer.exists_put_empty_iff,
    length_append, length_encodeBE, length_encodeString, length_singleton]
  decide

lemma keeps_sendExitAndClose (status : Nat) (s : Session) :
    Keeps Quiet (sendExitAndClose env status) s fun _ _ => True := by
  apply keeps_get_bind
  obtain ⟨p, built⟩ := exists_exitStatus s.clientChan status
  apply keeps_inside_bind built
  refine keeps_bind (keeps_bppSend env s _).attempt fun _ t _ _ => ?_
  exact keeps_bind (keeps_sendChannelReply env _ t) fun _ u _ _ => keeps_sendChannelReply env _ u

/-! ## Commands and the shell -/

/-- A line that is executed. -/
def IsExecution : Event → Prop
  | .executed _ => True
  | .processed .. => False

/-- How a connection moves a session. -/
abbrev Executes : Session → Session → Prop := Adds IsExecution

lemma keeps_execLineToChannel (line : List UInt8) (s : Session) :
    Keeps Executes (execLineToChannel env line) s fun _ _ => True := by
  have logged : Executes s { s with trace := s.trace ++ [.executed line] } := by
    refine ⟨⟨_, rfl, ?_⟩, id, Nat.le_refl _⟩
    intro event mem
    rw [mem_singleton.mp mem]
    trivial
  apply keeps_modify_bind logged
  refine keeps_bind (keeps_louder (keeps_ask _ env.shellOutput)) fun bufs t _ _ => ?_
  exact keeps_louder (keeps_sinkAll env bufs t)

lemma keeps_globalRequest : Keeps Quiet (globalRequest env pl) s fun _ _ => True := by
  apply keeps_bind (keeps_readString s pl 1).attempt
  intro result t _ _
  cases result with
  | none => exact keeps_pure trivial
  | some read =>
    dsimp only
    split
    · rename_i more
      rw [drop_eq_getElem_cons more]
      apply keeps_inside_bind rfl
      split
      · exact keeps_ignored (keeps_bppSend env t _)
      · exact keeps_pure trivial
    · exact keeps_pure trivial

lemma keeps_doExecRequest (cmd : List UInt8) (s : Session) :
    Keeps Executes (doExecRequest env cmd) s fun _ _ => True := by
  have maxEq : sshLineMax = 512 := rfl
  unfold doExecRequest
  dsimp only
  generalize nEq : (if cmd.length ≥ sshLineMax then sshLineMax - 1 else cmd.length) = n
  have small : n ≤ 511 := by
    split at nEq <;> omega
  have taken : (cmd.take n).length ≤ 511 := by
    rw [length_take]
    omega
  obtain ⟨copied, put, copiedEq⟩ :=
    Writer.exists_put_empty (by omega : (cmd.take n).length ≤ sshLineMax)
  apply keeps_inside_bind put
  obtain ⟨line, putNul, -⟩ := Writer.exists_put copied [0] (by
    rw [copiedEq, length_singleton]
    omega)
  apply keeps_inside_bind putNul
  refine keeps_bind (keeps_execLineToChannel env _ s) fun _ t _ _ => ?_
  exact keeps_louder (keeps_sendExitAndClose env 0 t)

/-- The line of a shell has room for its terminator. -/
def Shell.HasRoom (shell : Shell) : Prop := shell.line.bytes.length ≤ 511

variable {shell : Shell}

lemma Shell.HasRoom.exists_put (room : shell.HasRoom) (c : UInt8) :
    ∃ line, wbByte shell.line c = some line ∧ line.bytes = shell.line.bytes ++ [c] := by
  apply Writer.exists_put shell.line [c]
  rw [length_singleton]
  exact Nat.succ_le_succ room

lemma keeps_shellLine (room : shell.HasRoom) (s : Session) :
    Keeps Executes (shellLine env shell) s fun _ _ => True := by
  obtain ⟨line, put, -⟩ := room.exists_put 0
  apply keeps_inside_bind put
  refine keeps_bind (keeps_louder (keeps_sendChannelData env _ s)) fun _ t _ _ => ?_
  have prompt : ∀ u, Keeps Executes (do
      sendChannelData env [13, 10]
      sendPrompt env
      return false) u fun _ _ => True := fun u =>
    keeps_bind (keeps_louder (keeps_sendChannelData env _ u)) fun _ v _ _ =>
      keeps_bind (keeps_louder (keeps_sendPrompt env v)) fun _ _ _ _ => keeps_pure trivial
  split
  · exact keeps_bind (keeps_louder (keeps_sendExitAndClose env 0 t)) fun _ _ _ _ =>
      keeps_pure trivial
  split
  · exact keeps_bind (keeps_execLineToChannel env _ t) fun _ u _ _ => prompt u
  · exact prompt t

/-- The shell that a step leaves, if any, has room. -/
def StaysRoomy (result : Option Shell) (_ : Session) : Prop :=
  ∀ shell, result = some shell → shell.HasRoom

lemma StaysRoomy.some {line : Writer sshLineMax} (room : line.bytes.length ≤ 511) (skip : Bool)
    (t : Session) : StaysRoomy (.some ⟨line, skip⟩) t := by
  rintro _ ⟨⟩
  exact room

lemma keeps_shellChar (room : shell.HasRoom) (c : UInt8) (s : Session) :
    Keeps Executes (shellChar env shell c) s StaysRoomy := by
  unfold shellChar
  split
  · split
    · exact keeps_pure (.some room _ s)
    · apply keeps_bind (keeps_shellLine env room s)
      intro ends t _ _
      cases ends with
      | true => exact keeps_pure nofun
      | false => exact keeps_pure (.some (Nat.zero_le _) _ t)
  split
  · split
    · refine keeps_bind (keeps_louder (keeps_sendChannelData env _ s)) fun _ t _ _ =>
        keeps_pure (.some ?_ _ t)
      change shell.line.bytes.dropLast.length ≤ 511
      rw [length_dropLast]
      exact (Nat.sub_le _ _).trans room
    · exact keeps_pure (.some room _ s)
  split
  · exact keeps_bind (keeps_louder (keeps_sendExitAndClose env 0 s)) fun _ _ _ _ =>
      keeps_pure nofun
  split
  · rename_i short
    obtain ⟨line, put, bytes⟩ := room.exists_put c
    apply keeps_inside_bind put
    refine keeps_bind (keeps_louder (keeps_sendChannelData env _ s)) fun _ t _ _ =>
      keeps_pure (.some ?_ _ t)
    rw [bytes, length_append, length_singleton]
    exact short.2
  · exact keeps_pure (.some room _ s)

lemma keeps_shellChars (data : List UInt8) (room : shell.HasRoom) (s : Session) :
    Keeps Executes (shellChars env data shell) s StaysRoomy := by
  induction data generalizing shell s with
  | nil => exact keeps_pure (.some room _ s)
  | cons c data ih =>
    apply keeps_bind (keeps_shellChar env room c s)
    intro result t _ roomy
    cases result with
    | none => exact keeps_pure nofun
    | some later => exact ih (roomy later rfl) t

lemma keeps_channelData : Keeps Quiet (channelData pl) s fun _ _ => True := by
  refine keeps_check_bind fun header => ?_
  apply keeps_bind (keeps_getBe32 s (by omega : 1 + 4 ≤ pl.length))
  rintro recp _ - ⟨rfl, -⟩
  apply keeps_bind (keeps_getBe32 _ (by omega : 5 + 4 ≤ pl.length))
  rintro n _ - ⟨rfl, -⟩
  refine keeps_get_bind <| keeps_check_bind fun fits => ?_
  rw [slice_of_le (by omega)]
  exact keeps_pure trivial

lemma keeps_shellRound (shell : Shell) (s : Session) (room : shell.HasRoom) :
    Keeps Executes (shellRound env shell) s
      (Rounds (fun _ _ => True) (fun shell _ => shell.HasRoom) (fun _ t => t.input.length)
        s.input.length) := by
  apply keeps_get_bind
  split
  swap
  · exact keeps_pure trivial
  apply keeps_bind (keeps_louder (keeps_recvMessage env s))
  rintro ⟨kind, pl⟩ t - ⟨-, consumed, -⟩
  dsimp only
  split
  · refine keeps_bind (keeps_louder (keeps_channelData pl t)) fun data u quiet _ => ?_
    apply keeps_bind (keeps_shellChars env data room u)
    intro result v moved roomy
    cases result with
    | none => exact keeps_pure trivial
    | some later =>
      refine keeps_pure ⟨roomy later rfl, ?_⟩
      exact Nat.lt_of_le_of_lt (moved.input.trans quiet.input) consumed
  split
  · exact keeps_pure ⟨room, consumed⟩
  split
  · exact keeps_bind (keeps_louder (keeps_sendExitAndClose env 0 t)) fun _ _ _ _ =>
      keeps_pure trivial
  split
  · refine keeps_bind (keeps_louder (keeps_globalRequest env pl t)) fun _ u quiet _ => ?_
    exact keeps_pure ⟨room, Nat.lt_of_le_of_lt quiet.input consumed⟩
  · exact keeps_pure ⟨room, consumed⟩

lemma keeps_shellLoop : Keeps Executes (shellLoop env) s fun _ _ => True := by
  refine keeps_bind (keeps_louder (keeps_sendChannelData env _ s)) fun _ t _ _ => ?_
  refine keeps_bind (keeps_louder (keeps_sendPrompt env t)) fun _ u _ _ => ?_
  apply keeps_get_bind
  exact keeps_loop _ _ (keeps_shellRound env) (Nat.zero_le _) (Nat.lt_succ_self _)

/-! ## The connection -/

lemma exists_openConfirmation (clientChan serverChan : Nat) :
    ∃ resp, openConfirmation clientChan serverChan = some resp := by
  simp only [openConfirmation, wbByte, wbBe32, put_bind, Writer.exists_put_empty_iff, length_append,
    length_encodeBE, length_singleton]
  decide

lemma keeps_channelOpen : Keeps Quiet (channelOpen env pl) s fun _ _ => True := by
  apply keeps_bind (keeps_readString s pl 1)
  rintro ⟨typ, off⟩ _ - ⟨rfl, -⟩
  refine keeps_check_bind fun _ => keeps_check_bind fun fits => ?_
  apply keeps_bind (keeps_getBe32 _ (by omega : off + 4 ≤ pl.length))
  rintro clientChan _ - ⟨rfl, -⟩
  apply keeps_bind (keeps_getBe32 _ (by omega : off + 8 + 4 ≤ pl.length))
  rintro clientMaxPacket _ - ⟨rfl, -⟩
  apply keeps_modify_bind (.of_same rfl rfl (Nat.le_refl _))
  obtain ⟨resp, built⟩ := exists_openConfirmation clientChan 0
  exact keeps_inside_bind built (keeps_bppSend env _ _)

lemma keeps_openRound (locals : Unit) (s : Session) (_ : True) :
    Keeps Quiet (openRound env locals) s (Rounds (fun _ _ => True) (fun _ _ => True)
      (fun _ t => t.input.length) s.input.length) := by
  apply keeps_bind (keeps_recvMessage env s)
  rintro ⟨kind, pl⟩ t - ⟨-, consumed, -⟩
  dsimp only
  split
  · exact keeps_bind (keeps_channelOpen env pl t) fun _ _ _ _ => keeps_pure trivial
  split
  · refine keeps_bind (keeps_globalRequest env pl t) fun _ u quiet _ => ?_
    exact keeps_pure ⟨trivial, Nat.lt_of_le_of_lt quiet.input consumed⟩
  · exact keeps_pure ⟨trivial, consumed⟩

lemma keeps_replyIf (want kind : UInt8) (s : Session) :
    Keeps Quiet (replyIf env want kind) s fun _ _ => True := by
  unfold replyIf
  split
  · exact keeps_sendChannelReply env kind s
  · exact keeps_pure trivial

lemma keeps_channelRequest : Keeps Executes (channelRequest env pl) s fun _ _ => True := by
  refine keeps_check_bind fun header => ?_
  apply keeps_bind (keeps_louder (keeps_getBe32 s header))
  rintro recp _ - ⟨rfl, -⟩
  refine keeps_get_bind <| keeps_check_bind fun _ => ?_
  apply keeps_bind (keeps_louder (keeps_readString _ pl 5))
  rintro ⟨req, off⟩ t - ⟨rfl, -⟩
  refine keeps_check_bind fun more => ?_
  rw [drop_eq_getElem_cons more]
  apply keeps_inside_bind rfl
  have reply : ∀ kind u, Keeps Executes (replyIf env (pl.get ⟨off, more⟩) kind) u fun _ _ => True :=
    fun kind u => keeps_louder (keeps_replyIf env _ kind u)
  split
  · exact keeps_bind (reply _ _) fun _ _ _ _ => keeps_pure trivial
  split
  · refine keeps_bind (reply _ _) fun _ u _ _ => ?_
    exact keeps_bind (keeps_shellLoop env u) fun _ _ _ _ => keeps_pure trivial
  split
  · apply keeps_bind (keeps_louder (keeps_readString _ pl _))
    rintro ⟨cmd, next⟩ u - -
    refine keeps_bind (reply _ u) fun _ v _ _ => ?_
    exact keeps_bind (keeps_doExecRequest env cmd v) fun _ _ _ _ => keeps_pure trivial
  · exact keeps_bind (reply _ _) fun _ _ _ _ => keeps_pure trivial

lemma keeps_requestRound (locals : Unit) (s : Session) (_ : True) :
    Keeps Executes (requestRound env locals) s (Rounds (fun _ _ => True) (fun _ _ => True)
      (fun _ t => t.input.length) s.input.length) := by
  apply keeps_get_bind
  split
  swap
  · exact keeps_pure trivial
  apply keeps_bind (keeps_louder (keeps_recvMessage env s))
  rintro ⟨kind, pl⟩ t - ⟨-, consumed, -⟩
  dsimp only
  split
  · apply keeps_bind (keeps_channelRequest env pl t)
    intro done u moved _
    cases done with
    | true => exact keeps_pure trivial
    | false => exact keeps_pure ⟨trivial, Nat.lt_of_le_of_lt moved.input consumed⟩
  split
  · exact keeps_bind (keeps_louder (keeps_sendExitAndClose env 0 t)) fun _ _ _ _ =>
      keeps_pure trivial
  · exact keeps_pure ⟨trivial, consumed⟩

/-- A connection has no fault and logs only the lines that it executes. -/
theorem keeps_doConnection : Keeps Executes (doConnection env) s fun _ _ => True := by
  apply keeps_get_bind
  refine keeps_bind (keeps_louder (keeps_loop _ _ (keeps_openRound env) trivial
    (Nat.lt_succ_self _))) fun _ t _ _ => ?_
  exact keeps_get_bind (keeps_loop _ _ (keeps_requestRound env) trivial (Nat.lt_succ_self _))

end CupidOs.Ssh
