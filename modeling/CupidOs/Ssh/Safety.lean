import CupidOs.Ssh.ConnectionSpec

/-!
# Whole sessions

A session stays inside its buffers, whatever its client sends, if and only if the hash input of
the key exchange fits its buffer. It executes a line only behind a login with the right name and
password, if and only if it stays inside its buffers, as long as no login that it looks at holds a
terminator: names and passwords are compared up to the first zero byte.
-/

namespace CupidOs.Ssh

open Bytes Transition Transition.Routine
open List hiding Vector
open Tls (ascii)

variable (env : Env)

/-! ## Buffers -/

/-- No store and no fetch of a session leaves its object, and the session ends. -/
def StaysInside (input : List UInt8) : Prop :=
  ∀ reason, sessionEntry env (allocSession input) ≠ .error (.fault reason)

/-- In front of the hash, the banner, the `KEXINIT` payload of the client and the encoded secret
have at most 7783 bytes. -/
def OffersLittle (input : List UInt8) : Prop :=
  ∀ offer t, kexExchange env (allocSession input) = .ok (offer, t) → offer.chosen ≤ 7783

variable {input : List UInt8} {s t : Session} {event : Event}

lemma keeps_doKex (little : OffersLittle env input) :
    Keeps Quiet (doKex env) (allocSession input) fun _ t => t.newkeysIn = true := by
  apply keeps_bind (keeps_kexExchange env _).called
  rintro offer t - ⟨sized, called⟩
  obtain ⟨hin, fits⟩ := (exists_hashInput_iff sized).mpr (little offer t called)
  exact keeps_inside_bind fits (keeps_kexFinish env sized hin t)

/-- A client that offers too much makes `do_kex` leave its buffer. -/
theorem doKex_overflows (much : ¬ OffersLittle env input) :
    doKex env (allocSession input) = .error (.fault .overflow) := by
  simp only [OffersLittle, not_forall] at much
  obtain ⟨offer, t, called, overlong⟩ := much
  have sized := ((keeps_kexExchange env _).of_ok called).2
  have none : hashInput offer = none := by
    by_contra some
    obtain ⟨hin, fits⟩ := Option.ne_none_iff_exists'.mp some
    exact absurd ((exists_hashInput_iff sized).mp ⟨hin, fits⟩) overlong
  rw [doKex, bind_of_ok called, none]
  rfl

lemma sessionEntry_overflows (much : ¬ OffersLittle env input) :
    sessionEntry env (allocSession input) = .error (.fault .overflow) := by
  have body : sessionBody env (allocSession input) = .error (.fault .overflow) :=
    bind_of_error (doKex_overflows env much)
  exact bind_of_error (attempt_of_fault body)

lemma exists_disconnectMessage : ∃ p, disconnectMessage "connection closed" = some p := by
  simp only [disconnectMessage, wbByte, wbBe32, wbCstr_eq, put_bind, Writer.exists_put_empty_iff]
  decide

/-! ## The order of events -/

/-- The events of a session, if it stays inside its buffers. -/
def sessionTrace (input : List UInt8) : Option (List Event) :=
  match sessionEntry env (allocSession input) with
  | .ok (_, t) => some t.trace
  | .error (.gaveUp t) => some t.trace
  | .error (.fault _) => none

/-- Decisions come first, and a line is executed only behind one that accepts. -/
structure Staged (trace : List Event) : Prop where
  stages : ∃ decisions executions, trace = decisions ++ executions ∧
    (∀ event ∈ decisions, IsDecision env event) ∧
    (∀ event ∈ executions, IsExecution event) ∧
    (executions ≠ [] → ∃ event ∈ decisions, event.Accepts)

lemma Staged.quiet (staged : Staged env s.trace) (quiet : Quiet s t) : Staged env t.trace := by
  rw [quiet.quiet_trace]
  exact staged

lemma attempt_of_ok {α : Type} {routine : Sshd α} {result : α} (ok : routine s = .ok (result, t)) :
    attempt routine s = .ok (some result, t) := by
  rw [attempt, ok]

lemma attempt_of_gaveUp {α : Type} {routine : Sshd α} (failed : routine s = .error (.gaveUp t)) :
    attempt routine s = .ok (none, t) := by
  rw [attempt, failed]

lemma sessionBody_staged (little : OffersLittle env input) :
    ∃ result t, attempt (sessionBody env) (allocSession input) = .ok (result, t) ∧
      Staged env t.trace := by
  have nothing : Staged env (allocSession input).trace :=
    ⟨[], [], rfl, nofun, nofun, fun nonempty => absurd rfl nonempty⟩
  rcases (keeps_doKex env little).cases with ⟨_, s, kexOk, kexQuiet, encrypted⟩ | ⟨s, failed, quiet⟩
  swap
  · exact ⟨none, s, attempt_of_gaveUp (bind_of_error failed), nothing.quiet env quiet⟩
  have noEvents : s.trace = [] := kexQuiet.quiet_trace
  rcases (keeps_doAuth env encrypted).cases with ⟨_, t, authOk, adds, accepts⟩ | ⟨t, failed, adds⟩
  swap
  · obtain ⟨decisions, traceEq, decided⟩ := adds.trace
    rw [noEvents, nil_append] at traceEq
    refine ⟨none, t, attempt_of_gaveUp ((bind_of_ok kexOk).trans (bind_of_error failed)), ?_⟩
    exact ⟨decisions, [], by rw [traceEq, append_nil], decided, nofun,
      fun nonempty => absurd rfl nonempty⟩
  obtain ⟨decisions, decidedEq, decided⟩ := adds.trace
  rw [noEvents, nil_append] at decidedEq
  rw [decidedEq] at accepts
  have staged : ∀ u, Executes t u → Staged env u.trace := by
    intro u executes
    obtain ⟨executions, executedEq, executed⟩ := executes.trace
    exact ⟨decisions, executions, by rw [executedEq, decidedEq], decided, executed,
      fun _ => accepts⟩
  have called : sessionBody env (allocSession input) = doConnection env t :=
    (bind_of_ok kexOk).trans (bind_of_ok authOk)
  rcases (keeps_doConnection env t).cases with ⟨_, u, ok, executes, -⟩ | ⟨u, failed, executes⟩
  · exact ⟨some _, u, attempt_of_ok (called.trans ok), staged u executes⟩
  · exact ⟨none, u, attempt_of_gaveUp (called.trans failed), staged u executes⟩

lemma sessionTrace_staged (little : OffersLittle env input) :
    ∃ trace, sessionTrace env input = some trace ∧ Staged env trace := by
  obtain ⟨result, s, body, staged⟩ := sessionBody_staged env little
  obtain ⟨p, built⟩ := exists_disconnectMessage
  have farewell : Keeps Quiet (do
      let p ← inside (disconnectMessage "connection closed") .overflow
      let _ ← attempt (bppSend env p.bytes) : Sshd Unit) s fun _ _ => True :=
    keeps_inside_bind built (keeps_ignored (keeps_bppSend env s _))
  have called : sessionEntry env (allocSession input) = (do
      let p ← inside (disconnectMessage "connection closed") .overflow
      let _ ← attempt (bppSend env p.bytes) : Sshd Unit) s := bind_of_ok body
  rw [sessionTrace, called]
  rcases farewell.cases with ⟨_, t, ok, quiet, -⟩ | ⟨t, failed, quiet⟩
  · rw [ok]
    exact ⟨t.trace, rfl, staged.quiet env quiet⟩
  · rw [failed]
    exact ⟨t.trace, rfl, staged.quiet env quiet⟩

lemma sessionTrace_eq_none_iff (input : List UInt8) :
    sessionTrace env input = none ↔ ¬ StaysInside env input := by
  unfold sessionTrace StaysInside
  cases run : sessionEntry env (allocSession input) with
  | ok final => simp
  | error halt =>
    cases halt with
    | gaveUp t => simp
    | fault reason => simp

/-- A session stays inside its buffers if and only if the hash input of its key exchange fits. -/
theorem session_stays_inside_iff (input : List UInt8) :
    StaysInside env input ↔ OffersLittle env input := by
  constructor
  · intro inside
    by_contra much
    exact inside .overflow (sessionEntry_overflows env much)
  · intro little
    obtain ⟨trace, traced, -⟩ := sessionTrace_staged env little
    by_contra leaves
    rw [(sessionTrace_eq_none_iff env input).mpr leaves] at traced
    cases traced

/-! ## Logins -/

/-- The password that goes with each password file: no other one without a terminator matches. -/
structure Configuration where
  password : Option (List UInt8) → List UInt8
  unique : ∀ n pass, (0 : UInt8) ∉ pass → Matches env.sha256 (env.passwd n) pass →
    pass = password (env.passwd n)

variable {env}

/-- The login is one of three attempts, encrypted, as `root` and with every byte of the password. -/
def Configuration.IsExactLogin (config : Configuration env) : Event → Prop
  | .processed attempt encrypted passwd payload request accepted =>
    attempt ≤ 3 ∧ encrypted = true ∧ Spells payload request ∧
      request = ⟨ascii "root", ascii "ssh-connection", ascii "password",
        config.password passwd⟩ ∧ accepted = true
  | .executed _ => False

/-- A session executes lines only behind such a login. -/
def Configuration.Authentic (config : Configuration env) (input : List UInt8) : Prop :=
  ∃ trace, sessionTrace env input = some trace ∧
    ∀ before line after, trace = before ++ .executed line :: after →
      ∃ event ∈ before, config.IsExactLogin event

/-- Neither the name nor the password of a login holds a terminator. -/
def Event.NoNul : Event → Prop
  | .processed _ _ _ _ request _ => (0 : UInt8) ∉ request.user ∧ (0 : UInt8) ∉ request.password
  | .executed _ => True

variable (env) in
/-- No login that `do_auth` processes holds a terminator. -/
def LogsInPlainly (input : List UInt8) : Prop :=
  ∀ trace, sessionTrace env input = some trace → ∀ event ∈ trace, event.NoNul

lemma Configuration.isExactLogin_of_accepts (config : Configuration env)
    (decision : IsDecision env event) (accepts : event.Accepts) (noNul : event.NoNul) :
    config.IsExactLogin event := by
  cases event with
  | executed line => exact accepts.elim
  | processed attempt encrypted passwd payload request accepted =>
    obtain ⟨-, last, isEncrypted, ⟨n, rfl⟩, spells, service, method, right⟩ := decision
    obtain ⟨userPlain, passwordPlain⟩ := noNul
    obtain ⟨root, matched⟩ := right accepts
    rw [cstr_of_noNul userPlain] at root
    rw [cstr_of_noNul passwordPlain] at matched
    have password := config.unique n _ passwordPlain matched
    refine ⟨last, isEncrypted, spells, ?_, accepts⟩
    obtain ⟨user, service', method', password'⟩ := request
    simp only at root service method password
    rw [root, service, method, password]

/-- In front of every line that is executed there is a decision that accepts. -/
lemma Staged.accepted_before {trace before after : List Event} {line : List UInt8}
    (staged : Staged env trace) (split : trace = before ++ .executed line :: after) :
    ∃ event ∈ before, IsDecision env event ∧ event.Accepts := by
  obtain ⟨decisions, executions, rfl, decided, -, gate⟩ := staged.stages
  -- The line that is executed is not among the decisions, so they all lie in front of it.
  obtain ⟨more, beforeEq, rest⟩ : ∃ more, before = decisions ++ more ∧
      executions = more ++ .executed line :: after := by
    rcases append_eq_append_iff.mp split with found | ⟨more, decisionsEq, rest⟩
    · exact found
    cases more with
    | nil => exact ⟨[], by rw [append_nil] at decisionsEq ⊢; exact decisionsEq.symm, rest.symm⟩
    | cons head tail =>
      have listed : head ∈ decisions := by
        rw [decisionsEq]
        exact mem_append_right _ mem_cons_self
      have decision := decided head listed
      rw [← (cons.inj rest).1] at decision
      exact decision.elim
  obtain ⟨event, mem, accepts⟩ := gate (by rw [rest]; simp)
  refine ⟨event, ?_, decided event mem, accepts⟩
  rw [beforeEq]
  exact mem_append_left _ mem

/-- If no login that is processed holds a terminator, a session executes lines only behind a login
as `root` with exactly the configured password if and only if it stays inside its buffers. -/
theorem session_authentic_iff (config : Configuration env) (input : List UInt8)
    (plainly : LogsInPlainly env input) : config.Authentic input ↔ OffersLittle env input := by
  constructor
  · rintro ⟨trace, traced, -⟩
    by_contra much
    rw [sessionTrace, sessionEntry_overflows env much] at traced
    cases traced
  · intro little
    obtain ⟨trace, traced, staged⟩ := sessionTrace_staged env little
    refine ⟨trace, traced, ?_⟩
    intro before line after split
    obtain ⟨event, first, decision, accepts⟩ := staged.accepted_before split
    have listed : event ∈ trace := by
      rw [split]
      exact mem_append_left _ first
    exact ⟨event, first,
      config.isExactLogin_of_accepts decision accepts (plainly trace traced event listed)⟩

/-! ## Concrete sessions -/

/-- An environment in which nothing fails and every cryptographic function gives zeros. -/
def plainEnv : Env where
  sha256 _ := Vector.replicate 32 0
  x25519 _ _ := Vector.replicate 32 0
  keystream _ _ _ _ := 0
  poly1305 _ _ := Vector.replicate 16 0
  ecdsaSign _ := some (Vector.replicate 32 0, Vector.replicate 32 0)
  hostPub := Vector.replicate 65 0
  passwd _ := none
  randomByte _ _ := 0
  allocates _ := true
  sends _ := true
  shellOutput _ := []
  shellCwd _ := []

/-- A packet in clear with four bytes of padding. -/
def clearPacket (payload : List UInt8) : List UInt8 :=
  encodeBE 4 (payload.length + 5) ++ [4] ++ payload ++ replicate 4 0

/-- The same packet behind the key exchange of `plainEnv`. -/
def sealedPacket (payload : List UInt8) : List UInt8 := clearPacket payload ++ replicate 16 0

/-- The key exchange of a client with a `KEXINIT` message. -/
def clientKex (kexinit : List UInt8) : List UInt8 :=
  ascii "SSH-2.0-x" ++ [10] ++ clearPacket (sshMsgKexinit :: kexinit) ++
    clearPacket (sshMsgKexEcdhInit :: encodeString (replicate 32 9)) ++
    clearPacket [sshMsgNewkeys]

/-- A client that logs in and has `ls` executed. -/
def clientLogin (user password : List UInt8) : List UInt8 :=
  clientKex [] ++ sealedPacket (sshMsgServiceRequest :: encodeString (ascii "ssh-userauth")) ++
    sealedPacket (sshMsgUserauthRequest :: (encodeString user ++
      encodeString (ascii "ssh-connection") ++ encodeString (ascii "password") ++ [0] ++
      encodeString password)) ++
    sealedPacket (sshMsgChannelOpen :: (encodeString (ascii "session") ++ replicate 12 0)) ++
    sealedPacket (sshMsgChannelRequest :: (replicate 4 0 ++ encodeString (ascii "exec") ++
      [0] ++ encodeString (ascii "ls")))

/-- The default password is the only one that matches when there is no password file. -/
def plainConfiguration : Configuration plainEnv where
  password _ := ascii "cupid"
  unique _ _ _ matched := matched

/-- The login that `clientLogin` sends, as `plainEnv` decides about it. -/
def loginEvent (user password : List UInt8) : Event :=
  .processed 1 true none (sshMsgUserauthRequest :: (encodeString user ++
      encodeString (ascii "ssh-connection") ++ encodeString (ascii "password") ++ [0] ++
      encodeString password))
    ⟨user, ascii "ssh-connection", ascii "password", password⟩ true

/-- A login without a zero byte. -/
theorem plain_login_authentic :
    plainConfiguration.Authentic (clientLogin (ascii "root") (ascii "cupid")) := by
  have run : sessionTrace plainEnv (clientLogin (ascii "root") (ascii "cupid")) =
      some [loginEvent (ascii "root") (ascii "cupid"), .executed (ascii "ls")] := by
    decide +kernel
  refine (session_authentic_iff plainConfiguration _ ?_).mpr ?_
  · intro trace traced event mem
    rw [run] at traced
    obtain rfl := Option.some_inj.mp traced
    rcases mem_cons.mp mem with rfl | mem
    · exact ⟨by decide, by decide⟩
    · rw [mem_singleton.mp mem]
      trivial
  · by_contra much
    rw [sessionTrace, sessionEntry_overflows plainEnv much] at run
    cases run

/-- A zero byte and anything else behind the name and the password are not noticed. -/
theorem login_with_nul_executes : ¬ plainConfiguration.Authentic
    (clientLogin (ascii "root" ++ [0, 1]) (ascii "cupid" ++ [0, 2])) := by
  rintro ⟨trace, traced, behind⟩
  have run : sessionTrace plainEnv
      (clientLogin (ascii "root" ++ [0, 1]) (ascii "cupid" ++ [0, 2])) =
      some [loginEvent (ascii "root" ++ [0, 1]) (ascii "cupid" ++ [0, 2]),
        .executed (ascii "ls")] := by
    decide +kernel
  rw [run] at traced
  obtain rfl := Option.some_inj.mp traced
  obtain ⟨event, mem, exact⟩ := behind [_] _ [] rfl
  rw [mem_singleton.mp mem] at exact
  have user := congrArg LoginRequest.user exact.2.2.2.1
  exact absurd user (by decide)

/-- A `KEXINIT` message of 7801 bytes is accepted and does not fit the hash input. -/
theorem long_kexinit_overflows : ¬ StaysInside plainEnv (clientKex (replicate 7800 0)) := by
  have chosen : (kexExchange plainEnv
      (allocSession (clientKex (replicate 7800 0)))).toOption.map (·.1.chosen) =
      some 7814 := by decide +kernel
  have much : ¬ OffersLittle plainEnv (clientKex (replicate 7800 0)) := by
    intro little
    cases called : kexExchange plainEnv (allocSession (clientKex (replicate 7800 0))) with
    | error halt =>
      rw [called] at chosen
      cases chosen
    | ok value =>
      rw [called] at chosen
      have size : value.1.chosen = 7814 := Option.some_inj.mp chosen
      have small := little value.1 value.2 called
      omega
  intro inside
  exact inside .overflow (sessionEntry_overflows plainEnv much)

end CupidOs.Ssh
