import CupidOs.Ssh.Auth
import CupidOs.Ssh.Kex

/-!
# Channels

`do_connection` opens one channel and runs a command or the shell on it.  The only
event that it logs is a line that is executed.
-/

namespace CupidOs.Ssh

open Bytes Transition Transition.Routine
open Tls (ascii)

variable (env : Env)

/-! ## Output -/

/-- The body of the loop of `send_channel_data`, with what is still to be sent. -/
def channelDataRound (buf : List UInt8) : Sshd (Unit ⊕ List UInt8) := do
  if buf = [] then
    return .inl ()
  else
    let s ← get
    let cap := min (if s.clientMaxPacket ≠ 0 then s.clientMaxPacket else 1024) 4096
    let n := min buf.length cap
    let frame ← inside (do
      let frame ← wbByte (.empty (9 + 4096)) sshMsgChannelData
      let frame ← wbBe32 frame s.clientChan
      let frame ← wbBe32 frame n
      wbBytes frame (buf.take n)) .overflow
    bppSend env frame.bytes
    return .inr (buf.drop n)

/-- `send_channel_data`, as its callers use it: they do not look at the result -/
def sendChannelData (buf : List UInt8) : Sshd Unit := do
  let _ ← attempt (loop .endless (channelDataRound env) (buf.length + 1) buf)

/-- What `ssh_output_sink` does before it writes bytes to `out` that have no room there. -/
def flushFor (count : Nat) (out : Writer 1024) : Sshd (Writer 1024) := do
  if out.bytes.length + count > 1024 then
    sendChannelData env out.bytes
    return .empty 1024
  else
    return out

/-- The loop of `ssh_output_sink`. -/
def sinkLoop : List UInt8 → Writer 1024 → Sshd (Writer 1024)
  | [], out => return out
  | c :: buf, out => do
      let piece := if c = 10 then [13, 10] else [c]
      let out ← flushFor env piece.length out
      let out ← inside (wbBytes out piece) .overflow
      sinkLoop buf out

/-- `ssh_output_sink` -/
def sshOutputSink (buf : List UInt8) : Sshd Unit := do
  let out ← sinkLoop env buf (.empty 1024)
  sendChannelData env out.bytes

/-- The calls of the sink while a line is executed. -/
def sinkAll : List (List UInt8) → Sshd Unit
  | [] => return ()
  | buf :: bufs => do
      sshOutputSink env buf
      sinkAll bufs

/-- `send_prompt` -/
def sendPrompt : Sshd Unit := do
  let cwd ← ask env.shellCwd
  sendChannelData env (cstr cwd)
  sendChannelData env (ascii "> ")

/-- `exec_line_to_channel` -/
def execLineToChannel (line : List UInt8) : Sshd Unit := do
  log (.executed line)
  let bufs ← ask env.shellOutput
  sinkAll env bufs

/-- `send_channel_success` and `send_channel_failure`, whose results are not looked at -/
def sendChannelReply (kind : UInt8) : Sshd Unit := do
  let s ← get
  let p ← inside (do
    let p ← wbByte (.empty 5) kind
    wbBe32 p s.clientChan) .overflow
  let _ ← attempt (bppSend env p.bytes)

/-- The exit status message of `send_exit_and_close`. -/
def exitStatus (chan status : Nat) : Option (Writer 64) := do
  let p ← wbByte (.empty 64) sshMsgChannelRequest
  let p ← wbBe32 p chan
  let p ← wbCstr p "exit-status"
  let p ← wbBool p false
  wbBe32 p status

/-- `send_exit_and_close` -/
def sendExitAndClose (status : Nat) : Sshd Unit := do
  let s ← get
  let p ← inside (exitStatus s.clientChan status) .overflow
  let _ ← attempt (bppSend env p.bytes)
  sendChannelReply env sshMsgChannelEof
  sendChannelReply env sshMsgChannelClose

/-! ## Commands and the shell -/

/-- A client asks for something global. -/
def globalRequest (pl : List UInt8) : Sshd Unit := do
  match ← attempt (readString pl 1) with
  | none => return ()
  | some (_, off) =>
    if off < pl.length then
      let want ← inside (pl.drop off).head? .outside
      if want ≠ 0 then
        let _ ← attempt (bppSend env [sshMsgRequestFailure])
    else
      return ()

/-- `do_exec_request` -/
def doExecRequest (cmd : List UInt8) : Sshd Unit := do
  let n := if cmd.length ≥ sshLineMax then sshLineMax - 1 else cmd.length
  let line ← inside (wbBytes (.empty sshLineMax) (cmd.take n)) .overflow
  let line ← inside (wbByte line 0) .overflow
  execLineToChannel env (cstr line.bytes)
  sendExitAndClose env 0

/-- The locals of `shell_loop`. -/
structure Shell where
  line : Writer sshLineMax
  skipLfAfterCr : Bool

/-- The end of a line of `shell_loop`: whether the shell ends. -/
def shellLine (shell : Shell) : Sshd Bool := do
  let line ← inside (wbByte shell.line 0) .overflow
  sendChannelData env [13, 10]
  if cstr line.bytes = ascii "exit" then
    sendExitAndClose env 0
    return true
  else
    if shell.line.bytes.length > 0 then
      execLineToChannel env (cstr line.bytes)
    sendChannelData env [13, 10]
    sendPrompt env
    return false

/-- One character of `shell_loop`: how the shell goes on, or that it ends. -/
def shellChar (shell : Shell) (c : UInt8) : Sshd (Option Shell) := do
  if c = 13 ∨ c = 10 then
    if c = 10 ∧ shell.skipLfAfterCr = true then
      return some { shell with skipLfAfterCr := false }
    else if ← shellLine env shell then
      return none
    else
      return some ⟨.empty sshLineMax, decide (c = 13)⟩
  else if c = 0x7F ∨ c = 8 then
    if shell.line.bytes.length > 0 then
      sendChannelData env [8, 32, 8]
      return some ⟨shell.line.back, false⟩
    else
      return some { shell with skipLfAfterCr := false }
  else if c = 4 then
    sendExitAndClose env 0
    return none
  else if 32 ≤ c.toNat ∧ shell.line.bytes.length < sshLineMax - 1 then
    let line ← inside (wbByte shell.line c) .overflow
    sendChannelData env [c]
    return some ⟨line, false⟩
  else
    return some shell

/-- The loop of `shell_loop` over the characters of a packet. -/
def shellChars : List UInt8 → Shell → Sshd (Option Shell)
  | [], shell => return some shell
  | c :: data, shell => do
      match ← shellChar env shell c with
      | none => return none
      | some shell => shellChars data shell

/-- The characters of a data packet. -/
def channelData (pl : List UInt8) : Sshd (List UInt8) := do
  check (1 + 8 ≤ pl.length)
  let recp ← getBe32 pl 1
  let n ← getBe32 pl 5
  let s ← get
  check (recp = s.serverChan ∧ n ≤ pl.length - 9)
  inside (slice pl 9 n) .outside

/-- The body of the loop of `shell_loop`. -/
def shellRound (shell : Shell) : Sshd (Unit ⊕ Shell) := do
  let s ← get
  if s.channelOpen then
    let (kind, pl) ← recvMessage env
    if kind = sshMsgChannelData then
      let data ← channelData pl
      match ← shellChars env data shell with
      | none => return .inl ()
      | some shell => return .inr shell
    else if kind = sshMsgChannelWindowAdjust then
      return .inr shell
    else if kind = sshMsgChannelEof ∨ kind = sshMsgChannelClose ∨ kind = sshMsgDisconnect then
      sendExitAndClose env 0
      return .inl ()
    else if kind = sshMsgGlobalRequest then
      globalRequest env pl
      return .inr shell
    else
      return .inr shell
  else
    return .inl ()

/-- `shell_loop` -/
def shellLoop : Sshd Unit := do
  sendChannelData env (ascii "cupid-os ssh shell" ++ [13, 10])
  sendPrompt env
  let s ← get
  loop .endless (shellRound env) (s.input.length + 1) ⟨.empty sshLineMax, false⟩

/-! ## The connection -/

/-- The confirmation of a channel. -/
def openConfirmation (clientChan serverChan : Nat) : Option (Writer 64) := do
  let resp ← wbByte (.empty 64) sshMsgChannelOpenConfirmation
  let resp ← wbBe32 resp clientChan
  let resp ← wbBe32 resp serverChan
  let resp ← wbBe32 resp sshWindow
  wbBe32 resp sshMaxPacket

/-- A client opens a channel. -/
def channelOpen (pl : List UInt8) : Sshd Unit := do
  let (typ, off) ← readString pl 1
  check (cstreqn typ "session" = true)
  check (off + 12 ≤ pl.length)
  let clientChan ← getBe32 pl off
  let clientMaxPacket ← getBe32 pl (off + 8)
  modify fun s => { s with
    clientChan := clientChan
    clientMaxPacket := clientMaxPacket
    serverChan := 0
    channelOpen := true }
  let resp ← inside (openConfirmation clientChan 0) .overflow
  bppSend env resp.bytes

/-- The body of the first loop of `do_connection`. -/
def openRound (_ : Unit) : Sshd (Unit ⊕ Unit) := do
  let (kind, pl) ← recvMessage env
  if kind = sshMsgChannelOpen then
    channelOpen env pl
    return .inl ()
  else if kind = sshMsgGlobalRequest then
    globalRequest env pl
    return .inr ()
  else
    return .inr ()

/-- A reply, if the client wants one. -/
def replyIf (want : UInt8) (kind : UInt8) : Sshd Unit :=
  if want ≠ 0 then sendChannelReply env kind else return ()

/-- A request on a channel: whether the connection is done. -/
def channelRequest (pl : List UInt8) : Sshd Bool := do
  check (1 + 4 ≤ pl.length)
  let recp ← getBe32 pl 1
  let s ← get
  check (recp = s.serverChan)
  let (req, off) ← readString pl 5
  check (off < pl.length)
  let want ← inside (pl.drop off).head? .outside
  if cstreqn req "pty-req" then
    replyIf env want sshMsgChannelSuccess
    return false
  else if cstreqn req "shell" then
    replyIf env want sshMsgChannelSuccess
    shellLoop env
    return true
  else if cstreqn req "exec" then
    let (cmd, _) ← readString pl (off + 1)
    replyIf env want sshMsgChannelSuccess
    doExecRequest env cmd
    return true
  else
    replyIf env want sshMsgChannelFailure
    return false

/-- The body of the second loop of `do_connection`. -/
def requestRound (_ : Unit) : Sshd (Unit ⊕ Unit) := do
  let s ← get
  if s.channelOpen then
    let (kind, pl) ← recvMessage env
    if kind = sshMsgChannelRequest then
      if ← channelRequest env pl then return .inl () else return .inr ()
    else if kind = sshMsgChannelClose ∨ kind = sshMsgDisconnect then
      sendExitAndClose env 0
      return .inl ()
    else
      return .inr ()
  else
    return .inl ()

/-- `do_connection` -/
def doConnection : Sshd Unit := do
  let s ← get
  loop .endless (openRound env) (s.input.length + 1) ()
  let s ← get
  loop .endless (requestRound env) (s.input.length + 1) ()

/-! ## The session -/

/-- The message of `send_disconnect`. -/
def disconnectMessage (msg : String) : Option (Writer 256) := do
  let p ← wbByte (.empty 256) sshMsgDisconnect
  let p ← wbBe32 p 11
  let p ← wbCstr p msg
  wbCstr p ""

/-- The calls of `session_entry` up to the first one that fails. -/
def sessionBody : Sshd Unit := do
  doKex env
  doAuth env
  doConnection env

/-- `session_entry` -/
def sessionEntry : Sshd Unit := do
  let _ ← attempt (sessionBody env)
  let p ← inside (disconnectMessage "connection closed") .overflow
  let _ ← attempt (bppSend env p.bytes)

end CupidOs.Ssh
