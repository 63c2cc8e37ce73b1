import CupidOs.Ssh.SessionSpec

/-!
# Logging in

`do_auth` decides about at most three packets, and a decision is an event. Every decision is about
a packet that spells out a request with a password for `ssh-connection`, it is the result of
`check_password`, and `do_auth` succeeds only behind an event that accepts.
-/

namespace CupidOs.Ssh

open Bytes List Transition Transition.Routine
open Tls (ascii)

variable (env : Env)

/-! ## The service -/

/-- The answer to the request for the service. -/
def serviceAccept : Option (Writer 64) := do
  let resp ← wbByte (.empty 64) sshMsgServiceAccept
  wbCstr resp "ssh-userauth"

/-- The body of the first loop of `do_auth`. -/
def serviceRound (_ : Unit) : Sshd (Unit ⊕ Unit) := do
  let (kind, pl) ← recvMessage env
  if kind = sshMsgServiceRequest then
    let (svc, _) ← readString pl 1
    check (cstreqn svc "ssh-userauth" = true)
    let resp ← inside serviceAccept .overflow
    bppSend env resp.bytes
    return .inl ()
  else
    -- SSH_MSG_IGNORE and everything else
    return .inr ()

/-! ## The attempts -/

/-- `check_password` as `do_auth` calls it, with the name in `user_buf` -/
def checkLogin (passwd : Option (List UInt8)) (user pass : List UInt8) : Option Bool :=
  if user.length < 32 then do
    let userBuf ← (Writer.empty 32).put user
    let userBuf ← userBuf.put [0]
    checkPassword env.sha256 passwd userBuf.bytes pass
  else
    some false

/-- The branch of `do_auth` for the method `password`. -/
def passwordMethod (attempt : Nat) (pl user svc method : List UInt8) (off : Nat) : Sshd Bool := do
  check (off < pl.length)
  let (pass, _) ← readString pl (off + 1)
  let passwd ← ask env.passwd
  let accepted ← inside (checkLogin env passwd user pass) .overflow
  let s ← get
  log (.processed attempt s.newkeysIn passwd pl ⟨user, svc, method, pass⟩ accepted)
  return accepted

/-- The failure message of `do_auth`. -/
def authFailure : Option (Writer 128) := do
  let resp ← wbByte (.empty 128) sshMsgUserauthFailure
  let resp ← wbCstr resp "password"
  wbBool resp false

/-- What `do_auth` does with a request. -/
def authRequest (attempt : Nat) (pl : List UInt8) : Sshd Bool := do
  let (user, off) ← readString pl 1
  let (svc, off) ← readString pl off
  let (method, off) ← readString pl off
  check (cstreqn svc "ssh-connection" = true)
  if cstreqn method "password" then
    passwordMethod env attempt pl user svc method off
  else
    return false

/-- The body of the second loop of `do_auth`: whether the client is in. -/
def authAttempt (attempt : Nat) : Sshd Bool := do
  let (kind, pl) ← recvMessage env
  if kind = sshMsgUserauthRequest then
    let accepted ← authRequest env attempt pl
    if accepted then
      bppSend env [sshMsgUserauthSuccess]
      return true
    else
      let resp ← inside authFailure .overflow
      bppSend env resp.bytes
      return false
  else
    return false

/-- The second loop of `do_auth`, with the number of attempts that are left. -/
def authAttempts : Nat → Sshd Unit
  | 0 => giveUp
  | left + 1 => do
      if ← authAttempt env (3 - left) then
        return ()
      else
        authAttempts left

/-- `do_auth` -/
def doAuth : Sshd Unit := do
  let s ← get
  loop .endless (serviceRound env) (s.input.length + 1) ()
  authAttempts env 3

/-! ## What is decided -/

/-- The packet of a request to log in, with anything behind it. -/
def Spells (payload : List UInt8) (request : LoginRequest) : Prop :=
  ∃ flag rest, payload = sshMsgUserauthRequest :: (encodeString request.user ++
    (encodeString request.service ++ (encodeString request.method ++
      flag :: (encodeString request.password ++ rest))))

/-- The decisions that `do_auth` makes once the keys are in use. -/
def IsDecision : Event → Prop
  | .processed attempt encrypted passwd payload request accepted =>
    1 ≤ attempt ∧ attempt ≤ 3 ∧ encrypted = true ∧ (∃ n, passwd = env.passwd n) ∧
      Spells payload request ∧
      request.service = ascii "ssh-connection" ∧ request.method = ascii "password" ∧
      (accepted = true → cstr request.user = ascii "root" ∧
        Matches env.sha256 passwd (cstr request.password))
  | .executed _ => False

/-- An event that lets the client in. -/
def Event.Accepts : Event → Prop
  | .processed _ _ _ _ _ accepted => accepted = true
  | .executed _ => False

lemma ReadsString.drop_eq {p : List UInt8} {off : Nat} {read : List UInt8 × Nat}
    (reads : ReadsString p off read) : p.drop off = encodeString read.1 ++ p.drop read.2 := by
  obtain ⟨header, next, fits, size, bytes⟩ := reads
  have headerLength : ((p.drop off).take 4).length = 4 := by
    rw [length_take, length_drop]
    omega
  have encoded : encodeBE 4 read.1.length = (p.drop off).take 4 := by
    have back := encodeBE_decodeBE ((p.drop off).take 4)
    rwa [headerLength, ← size] at back
  have behind : p.drop read.2 = (p.drop (off + 4)).drop read.1.length := by
    rw [drop_drop, next]
  calc p.drop off = (p.drop off).take 4 ++ (p.drop off).drop 4 := (take_append_drop ..).symm
    _ = encodeBE 4 read.1.length ++ p.drop (off + 4) := by rw [encoded, drop_drop]
    _ = encodeBE 4 read.1.length ++
          ((p.drop (off + 4)).take read.1.length ++ (p.drop (off + 4)).drop read.1.length) := by
        rw [take_append_drop]
    _ = encodeString read.1 ++ p.drop read.2 := by
        rw [← bytes, ← behind, encodeString, append_assoc]

/-- The name goes through `user_buf` unchanged, so `check_password` decides. -/
theorem checkLogin_spec (passwd : Option (List UInt8)) (user pass : List UInt8) :
    ∃ accepted, checkLogin env passwd user pass = some accepted ∧
      (accepted = true → cstr user = ascii "root" ∧ Matches env.sha256 passwd (cstr pass)) := by
  unfold checkLogin
  split
  · rename_i short
    obtain ⟨copied, put, copiedEq⟩ :=
      Writer.exists_put_empty (by omega : user.length ≤ 32)
    obtain ⟨userBuf, putNul, userBufEq⟩ := Writer.exists_put copied [0] (by
      rw [copiedEq, length_singleton]
      omega)
    obtain ⟨accepted, checked, iff⟩ :=
      checkPassword_spec env.sha256 passwd userBuf.bytes pass
    refine ⟨accepted, ?_, fun isTrue => ?_⟩
    · simp only [put, putNul, Option.bind_eq_bind, Option.bind_some]
      exact checked
    · obtain ⟨root, -, matched⟩ := iff.mp isTrue
      rw [userBufEq, copiedEq, cstr_append_nul] at root
      exact ⟨root, matched⟩
  · exact ⟨false, rfl, nofun⟩

/-! ## The parts -/

lemma exists_serviceAccept : ∃ resp, serviceAccept = some resp := by
  simp only [serviceAccept, wbByte, wbCstr_eq, put_bind, Writer.exists_put_empty_iff]
  decide

lemma exists_authFailure : ∃ resp, authFailure = some resp := by
  simp only [authFailure, wbByte, wbBool, wbCstr_eq, put_bind, Writer.exists_put_empty_iff]
  decide

lemma keeps_serviceRound (locals : Unit) (s : Session) (encrypted : s.newkeysIn = true) :
    Keeps Quiet (serviceRound env locals) s
      (Rounds (fun _ t => t.newkeysIn = true) (fun _ t => t.newkeysIn = true)
        (fun _ t => t.input.length) s.input.length) := by
  apply keeps_bind (keeps_recvMessage env s)
  rintro ⟨kind, pl⟩ t quiet ⟨-, consumed, -⟩
  have still := quiet.newkeysIn encrypted
  dsimp only
  split
  · apply keeps_bind (keeps_readString t pl 1)
    rintro ⟨svc, off⟩ _ - ⟨rfl, -⟩
    refine keeps_check_bind fun _ => ?_
    obtain ⟨resp, built⟩ := exists_serviceAccept
    apply keeps_inside_bind built
    refine keeps_bind (keeps_bppSend env _ _) fun _ u sent _ => keeps_pure ?_
    exact sent.newkeysIn still
  · exact keeps_pure ⟨still, consumed⟩

variable {pl : List UInt8} {s : Session}

lemma keeps_passwordMethod {attempt off : Nat} {user svc method : List UInt8}
    (first : 1 ≤ attempt) (last : attempt ≤ 3) (encrypted : s.newkeysIn = true)
    (spelled : pl = sshMsgUserauthRequest :: (encodeString user ++ (encodeString svc ++
      (encodeString method ++ pl.drop off)))) (service : svc = ascii "ssh-connection")
    (byPassword : method = ascii "password") :
    Keeps (Adds (IsDecision env)) (passwordMethod env attempt pl user svc method off) s
      fun accepted t => t.newkeysIn = true ∧
        (accepted = true → ∃ event ∈ t.trace, event.Accepts) := by
  refine keeps_check_bind fun more => ?_
  apply keeps_bind (keeps_louder (keeps_readString s pl (off + 1)))
  rintro ⟨pass, next⟩ _ - ⟨rfl, reads⟩
  apply keeps_bind (keeps_louder (keeps_ask _ env.passwd))
  rintro passwd t asked ⟨n, passwdEq⟩
  obtain ⟨accepted, checked, right⟩ := checkLogin_spec env passwd user pass
  apply keeps_inside_bind checked
  have still := asked.newkeysIn encrypted
  -- The flag in front of the password is not looked at.
  have spells : Spells pl ⟨user, svc, method, pass⟩ := by
    refine ⟨pl.get ⟨off, more⟩, pl.drop next, ?_⟩
    have rest : pl.drop off = pl.get ⟨off, more⟩ :: (encodeString pass ++ pl.drop next) := by
      rw [drop_eq_getElem_cons more, reads.drop_eq]
      rfl
    rw [← rest]
    exact spelled
  have decision : IsDecision env
      (.processed attempt t.newkeysIn passwd pl ⟨user, svc, method, pass⟩ accepted) :=
    ⟨first, last, still, ⟨n, passwdEq⟩, spells, service, byPassword, right⟩
  refine keeps_get_bind <| keeps_modify_bind ?_ <| keeps_pure ⟨still, fun isTrue => ?_⟩
  · refine ⟨⟨_, rfl, ?_⟩, id, le_rfl⟩
    intro event mem
    rw [mem_singleton.mp mem]
    exact decision
  · exact ⟨_, mem_append_right _ (mem_singleton_self _), isTrue⟩

/-- What is left of a packet behind the strings that were read from it. -/
theorem spelled_of_reads {kind : UInt8} {user svc method : List UInt8 × Nat}
    (isKind : pl.head? = some kind) (userReads : ReadsString pl 1 user)
    (svcReads : ReadsString pl user.2 svc) (methodReads : ReadsString pl svc.2 method) :
    pl = kind :: (encodeString user.1 ++ (encodeString svc.1 ++
      (encodeString method.1 ++ pl.drop method.2))) := by
  rw [← methodReads.drop_eq, ← svcReads.drop_eq, ← userReads.drop_eq, drop_one]
  exact (cons_head?_tail isKind).symm

lemma keeps_authRequest {attempt : Nat} (first : 1 ≤ attempt) (last : attempt ≤ 3)
    (encrypted : s.newkeysIn = true) (isRequest : pl.head? = some sshMsgUserauthRequest) :
    Keeps (Adds (IsDecision env)) (authRequest env attempt pl) s fun accepted t =>
      t.newkeysIn = true ∧ (accepted = true → ∃ event ∈ t.trace, event.Accepts) := by
  apply keeps_bind (keeps_louder (keeps_readString s pl 1))
  rintro user _ - ⟨rfl, userReads⟩
  apply keeps_bind (keeps_louder (keeps_readString _ pl user.2))
  rintro svc _ - ⟨rfl, svcReads⟩
  apply keeps_bind (keeps_louder (keeps_readString _ pl svc.2))
  rintro method _ - ⟨rfl, methodReads⟩
  refine keeps_check_bind fun service => ?_
  split
  · rename_i byPassword
    exact keeps_passwordMethod env first last encrypted
      (spelled_of_reads isRequest userReads svcReads methodReads) (eq_of_beq service)
      (eq_of_beq byPassword)
  · exact keeps_pure ⟨encrypted, nofun⟩

lemma keeps_authAttempt {attempt : Nat} (first : 1 ≤ attempt) (last : attempt ≤ 3)
    (encrypted : s.newkeysIn = true) :
    Keeps (Adds (IsDecision env)) (authAttempt env attempt) s fun accepted t =>
      t.newkeysIn = true ∧ (accepted = true → ∃ event ∈ t.trace, event.Accepts) := by
  apply keeps_bind (keeps_louder (keeps_recvMessage env s))
  rintro ⟨kind, pl⟩ t received ⟨isKind, -⟩
  have still := received.newkeysIn encrypted
  dsimp only
  split
  · rename_i isRequest
    rw [isRequest] at isKind
    apply keeps_bind (keeps_authRequest env first last still isKind)
    rintro accepted u - ⟨still, logged⟩
    cases accepted with
    | true =>
      refine keeps_bind (keeps_louder (keeps_bppSend env u _)) fun _ v sent _ => keeps_pure ?_
      obtain ⟨event, mem, accepts⟩ := logged rfl
      obtain ⟨added, addedEq, -⟩ := sent.trace
      refine ⟨sent.newkeysIn still, fun _ => ⟨event, ?_, accepts⟩⟩
      rw [addedEq]
      exact mem_append_left _ mem
    | false =>
      obtain ⟨resp, built⟩ := exists_authFailure
      apply keeps_inside_bind built
      refine keeps_bind (keeps_louder (keeps_bppSend env u _)) fun _ v sent _ => keeps_pure ?_
      exact ⟨sent.newkeysIn still, nofun⟩
  · exact keeps_pure ⟨still, nofun⟩

lemma keeps_authAttempts {left : Nat} (few : left ≤ 3) (encrypted : s.newkeysIn = true) :
    Keeps (Adds (IsDecision env)) (authAttempts env left) s fun _ t =>
      ∃ event ∈ t.trace, event.Accepts := by
  induction left generalizing s with
  | zero => exact keeps_giveUp
  | succ left ih =>
    apply keeps_bind (keeps_authAttempt env (by omega) (by omega) encrypted)
    rintro accepted t - ⟨still, logged⟩
    cases accepted with
    | true => exact keeps_pure (logged rfl)
    | false => exact ih (by omega) still

/-- Every decision is about a request, and success follows one that accepts. -/
theorem keeps_doAuth (encrypted : s.newkeysIn = true) :
    Keeps (Adds (IsDecision env)) (doAuth env) s fun _ t => ∃ event ∈ t.trace, event.Accepts := by
  apply keeps_get_bind
  refine keeps_bind (keeps_louder (keeps_loop _ _ (keeps_serviceRound env) encrypted
    (Nat.lt_succ_self _))) ?_
  intro _ t _ still
  exact keeps_authAttempts env (Nat.le_refl 3) still

end CupidOs.Ssh
