import CupidOs.Net.Tcp
import CupidOs.Transition.Run
import Mathlib.Data.Fintype.Pigeonhole

/-!
# The connections of the socket table

`tcp_input` gives a segment to the first socket with its local port, remote address and remote
port. Local ports come from `socket_bind`, the ephemeral allocator, a formula in `tcp_connect`,
and the listening socket in `tcp_accept`.
-/

namespace CupidOs.Net

open Function Transition

/-- The socket table and `ephemeral_next`. -/
structure SocketLayer where
  sockets : Sockets
  ephemeralNext : UInt16

/-- `port_in_use`. -/
def portInUse (sockets : Sockets) (port : UInt16) : Bool :=
  (List.finRange socketMax).any fun fd => (sockets fd).inUse && (sockets fd).localPort == port

/-- The advance of `ephemeral_next`. -/
def nextPort (port : UInt16) : UInt16 :=
  if port + 1 < 49152 ∨ port + 1 = 0 then 49152 else port + 1

/-- The loop of `alloc_ephemeral`: the port, and `ephemeral_next` after it. -/
def ephemeralLoop (sockets : Sockets) : Nat → UInt16 → UInt16 × UInt16
  | 0, next => (0, next)
  | tries + 1, next =>
    if portInUse sockets next then ephemeralLoop sockets tries (nextPort next)
    else (next, nextPort next)

variable (layer : SocketLayer)

/-- `alloc_ephemeral`. -/
def allocEphemeral : UInt16 × UInt16 :=
  ephemeralLoop layer.sockets 16384 layer.ephemeralNext

/-- `socket_create`, with the descriptor it returns; `unset` stands for a type that is not known. -/
def socketCreate (type : SockType) : SocketLayer × Option (Fin socketMax) :=
  if type = .unset then (layer, none)
  else
    match firstSocket layer.sockets fun s => !s.inUse with
    | none => (layer, none)
    | some fd =>
      ({ layer with
        sockets := update layer.sockets fd
          { zeroSocket with inUse := true, type := type, tcpState := .closed } }, some fd)

/-- `host_port` of `socket_bind`. -/
def hostPort (port : UInt16) : UInt16 := if port ≠ 0 then htons port else 0

/-- `socket_bind`; the port is in network byte order. -/
def socketBind (fd : Nat) (ip : UInt32) (port : UInt16) : SocketLayer :=
  if inside : fd < socketMax then
    let s := layer.sockets ⟨fd, inside⟩
    if !s.inUse then layer
    else if hostPort port ≠ 0 then
      if portInUse layer.sockets (hostPort port) then layer
      else
        { layer with
          sockets := update layer.sockets ⟨fd, inside⟩
            { s with localIp := ip, localPort := hostPort port } }
    else
      { sockets := update layer.sockets ⟨fd, inside⟩
          { s with localIp := ip, localPort := (allocEphemeral layer).1 }
        ephemeralNext := (allocEphemeral layer).2 }
  else layer

/-- `socket_close`. -/
def socketClose (fd : Nat) (now : UInt32) : SocketLayer :=
  if inside : fd < socketMax then
    let s := layer.sockets ⟨fd, inside⟩
    if !s.inUse then layer
    else if s.type = .tcp then
      { layer with sockets := (tcpClose layer.sockets ⟨fd, inside⟩ now).1 }
    else
      { layer with
        sockets := update layer.sockets ⟨fd, inside⟩
          { s with inUse := false, type := .unset } }
  else layer

/-- A call of the socket layer, an arriving segment, or a tick. Descriptors are those of the table.
-/
inductive SocketCall
  | create (type : SockType)
  | bind (fd : Nat) (ip : UInt32) (port : UInt16)
  | connect (fd : Fin socketMax) (ip : UInt32) (port : UInt16) (iss now : UInt32)
  | listen (fd : Fin socketMax)
  | accept (fd : Fin socketMax)
  | close (fd : Nat) (now : UInt32)
  | input (srcIp : UInt32) (buf : List UInt8) (now iss own : UInt32)
  | tick (now : UInt32)

/-- The descriptor that `tcp_accept` returns. -/
def TcpReply.descriptor : TcpReply → Option (Fin socketMax)
  | .accepted fd _ _ => some fd
  | _ => none

/-- The socket layer, with the descriptors that `socket_create` and `socket_accept` return. -/
def socketStep : Machine SocketLayer SocketCall (Option (Fin socketMax))
  | layer, .create type => socketCreate layer type
  | layer, .bind fd ip port => (socketBind layer fd ip port, none)
  | layer, .connect fd ip port iss now =>
    ({ layer with sockets := (tcpConnect layer.sockets fd ip (htons port) iss now).1 }, none)
  | layer, .listen fd => ({ layer with sockets := (tcpListen layer.sockets fd).1 }, none)
  | layer, .accept fd =>
    let accepted := tcpAccept layer.sockets fd
    ({ layer with sockets := accepted.1 }, accepted.2.descriptor)
  | layer, .close fd now => (socketClose layer fd now, none)
  | layer, .input srcIp buf now iss own =>
    ({ layer with sockets := (tcpInput layer.sockets srcIp buf now iss own).1 }, none)
  | layer, .tick now => ({ layer with sockets := (tcpTick layer.sockets now).1 }, none)

/-- The socket layer at boot. -/
def bootLayer : SocketLayer := ⟨fun _ => zeroSocket, 49152⟩

/-! ## Connections -/

/-- The triple by which `tcp_input` finds a connection. -/
def Socket.endpoint (s : Socket) : UInt16 × UInt32 × UInt16 :=
  (s.localPort, s.remoteIp, s.remotePort)

/-- Active sockets have different triples. -/
def ConnectionsUnique (sockets : Sockets) : Prop :=
  ∀ first second, (sockets first).active = true → (sockets second).active = true →
    (sockets first).endpoint = (sockets second).endpoint → first = second

/-- The connections are unique after the call, and the first match of a segment is the only one. -/
def StaysUnique (call : SocketCall) : Prop :=
  let sockets := (socketStep layer call).1.sockets
  ConnectionsUnique sockets ∧
    ∀ srcIp segment, ∀ fd ∈ firstSocket sockets (belongsTo srcIp segment), ∀ other,
      belongsTo srcIp segment (sockets other) = true → other = fd

/-- The descriptors in use that came from `socket_accept`. -/
def noteAccepted : (Fin socketMax → Bool) → SocketCall → Option (Fin socketMax) →
    Fin socketMax → Bool
  | accepted, .create _, some fd => update accepted fd false
  | accepted, .accept _, some fd => update accepted fd true
  | accepted, _, _ => accepted

/-- Descriptors that came from `socket_accept` are neither connected nor made to listen, and a
socket is only connected without a bind while no socket has the port of its formula. -/
def TakesOwnPort (state : SocketLayer × (Fin socketMax → Bool)) : SocketCall → Prop
  | .connect fd _ _ _ _ =>
    state.2 fd = false ∧ ((state.1.sockets fd).localPort = 0 →
      portInUse state.1.sockets (connectPort (state.1.sockets fd) fd) = false)
  | .listen fd => state.2 fd = false
  | _ => True

/-- A listening TCP socket. -/
def Socket.listening (s : Socket) : Bool := s.isTcp && s.tcpState == .listen

/-- A socket holds the triple of its connection, and a listening one those of its queue. -/
def Socket.Holds (s : Socket) (triple : UInt16 × UInt32 × UInt16) : Option (Fin lqSize) → Prop
  | none => s.active = true ∧ s.endpoint = triple
  | some slot =>
    s.listening = true ∧ (s.lq slot).inUse = true ∧
      (s.localPort, (s.lq slot).ip, (s.lq slot).port) = triple

/-- A triple is held in one place at most. -/
def Separate (sockets : Sockets) : Prop :=
  ∀ triple first second firstSlot secondSlot, (sockets first).Holds triple firstSlot →
    (sockets second).Holds triple secondSlot → first = second ∧ firstSlot = secondSlot

/-- A socket that shares its port came from `socket_accept`, or it listens and all the others came
from `socket_accept`. -/
structure Ports (sockets : Sockets) (accepted : Fin socketMax → Bool) : Prop where
  listeners : ∀ fd, (sockets fd).listening = true →
    accepted fd = false ∧ (sockets fd).localPort ≠ 0
  owned : ∀ fd other, fd ≠ other → (sockets fd).inUse = true → (sockets other).inUse = true →
    (sockets other).localPort = (sockets fd).localPort → (sockets fd).localPort ≠ 0 →
    accepted fd = false → (sockets fd).listening = true ∧ accepted other = true

/-- The socket is where it was, or it is no longer in use. -/
def SamePlace (before after : Socket) : Prop :=
  after.inUse = true → before.inUse = true ∧ after.localPort = before.localPort ∧
    after.listening = before.listening

/-- What a call does to a socket that it gives no new triple. -/
structure Keeps (before after : Socket) : Prop where
  place : SamePlace before after
  holds : ∀ triple slot, after.Holds triple slot → before.Holds triple slot

variable {s : Socket}

lemma Socket.active_iff :
    s.active = true ↔ s.isTcp = true ∧ s.tcpState ≠ .listen ∧ s.tcpState ≠ .closed := by
  simp [Socket.active, and_assoc]

lemma Socket.listening_iff :
    s.listening = true ↔ s.isTcp = true ∧ s.tcpState = .listen := by
  simp [Socket.listening]

lemma Socket.inUse_of_isTcp (tcp : s.isTcp = true) : s.inUse = true := by
  simp only [Socket.isTcp, Bool.and_eq_true] at tcp
  exact tcp.1

lemma Socket.inUse_of_listening (listens : s.listening = true) : s.inUse = true :=
  inUse_of_isTcp (listening_iff.mp listens).1

lemma Socket.Holds.inUse {triple : UInt16 × UInt32 × UInt16} {slot : Option (Fin lqSize)}
    (holds : s.Holds triple slot) : s.inUse = true ∧ s.localPort = triple.1 := by
  cases slot with
  | none => exact ⟨inUse_of_isTcp (active_iff.mp holds.1).1, congrArg Prod.fst holds.2⟩
  | some slot => exact ⟨inUse_of_listening holds.1, congrArg Prod.fst holds.2.2⟩

lemma Socket.not_holds (inactive : s.active = false) (silent : s.listening = false)
    (triple : UInt16 × UInt32 × UInt16) (slot : Option (Fin lqSize)) : ¬s.Holds triple slot := by
  cases slot with
  | none => simp [Holds, inactive]
  | some slot => simp [Holds, silent]

lemma Socket.listening_of_active (active : s.active = true) : s.listening = false := by
  simp [Socket.listening, (active_iff.mp active).2.1]

/-- A connection holds one triple. -/
lemma Socket.holds_active (active : s.active = true) (triple : UInt16 × UInt32 × UInt16)
    (slot : Option (Fin lqSize)) (holds : s.Holds triple slot) :
    slot = none ∧ s.endpoint = triple := by
  cases slot with
  | none => exact ⟨rfl, holds.2⟩
  | some slot =>
    have listening := holds.1
    rw [listening_of_active active] at listening
    cases listening

lemma SamePlace.refl (s : Socket) : SamePlace s s := fun used => ⟨used, rfl, rfl⟩

lemma Keeps.refl (s : Socket) : Keeps s s := ⟨.refl s, fun _ _ holds => holds⟩

lemma Keeps.of_unused {after : Socket} (unused : after.inUse = false) : Keeps s after := by
  constructor
  · intro used
    rw [unused] at used
    cases used
  · intro triple slot holds
    have used := holds.inUse.1
    rw [unused] at used
    cases used

/-- A connection keeps its triple until it ends, and does not begin to listen. -/
lemma Keeps.of_active {after : Socket} (active : s.active = true)
    (same : after.endpoint = s.endpoint) (state : after.tcpState ≠ .listen) : Keeps s after := by
  have silent : after.listening = false := by simp [Socket.listening, state]
  constructor
  · intro used
    refine ⟨Socket.inUse_of_isTcp (Socket.active_iff.mp active).1, congrArg Prod.fst same, ?_⟩
    rw [silent, Socket.listening_of_active active]
  · intro triple slot holds
    cases slot with
    | none => exact ⟨active, same.symm.trans holds.2⟩
    | some slot =>
      have listening := holds.1
      rw [silent] at listening
      cases listening

/-- A listening socket may drop entries of its queue. -/
lemma Keeps.of_queue {lq : Fin lqSize → ListenEntry}
    (kept : ∀ slot, (lq slot).inUse = true → (s.lq slot).inUse = true ∧
      (lq slot).ip = (s.lq slot).ip ∧ (lq slot).port = (s.lq slot).port) :
    Keeps s { s with lq := lq } := by
  refine ⟨fun used => ⟨used, rfl, rfl⟩, fun triple slot holds => ?_⟩
  cases slot with
  | none => exact holds
  | some slot =>
    rcases holds with ⟨listening, used, same⟩
    rcases kept slot used with ⟨before, ip, port⟩
    refine ⟨listening, before, ?_⟩
    rw [← ip, ← port]
    exact same

variable {sockets : Sockets} {fd : Fin socketMax} {port : UInt16} {layer : SocketLayer}
  {accepted : Fin socketMax → Bool}

/-- What holds of every socket before and after a call, as only one of them changes. -/
lemma forall_update {R : Socket → Socket → Prop} (refl : ∀ s, R s s) (here : R (sockets fd) s)
    (other : Fin socketMax) : R (sockets other) (update sockets fd s other) := by
  by_cases same : other = fd
  · rw [same, update_self]
    exact here
  · rw [update_of_ne same]
    exact refl _

section

variable (separate : Separate sockets)
include separate

lemma Separate.connectionsUnique : ConnectionsUnique sockets :=
  fun first second firstActive secondActive same =>
    (separate _ first second none none ⟨firstActive, rfl⟩ ⟨secondActive, same.symm⟩).1

lemma Separate.mono {after : Sockets}
    (kept : ∀ fd triple slot, (after fd).Holds triple slot → (sockets fd).Holds triple slot) :
    Separate after :=
  fun triple first second firstSlot secondSlot firstHolds secondHolds =>
    separate triple first second firstSlot secondSlot (kept first triple firstSlot firstHolds)
      (kept second triple secondSlot secondHolds)

/-- A socket may change if its triples are apart from each other and from those of the others. -/
theorem Separate.set
    (own : ∀ triple first second, s.Holds triple first → s.Holds triple second → first = second)
    (apart : ∀ triple slot, s.Holds triple slot → ∀ other ≠ fd, ∀ held,
      ¬(sockets other).Holds triple held) : Separate (update sockets fd s) := by
  intro triple first second firstSlot secondSlot firstHolds secondHolds
  by_cases firstHere : first = fd <;> by_cases secondHere : second = fd
  · rw [firstHere, update_self] at firstHolds
    rw [secondHere, update_self] at secondHolds
    exact ⟨firstHere.trans secondHere.symm, own triple _ _ firstHolds secondHolds⟩
  · rw [firstHere, update_self] at firstHolds
    rw [update_of_ne secondHere] at secondHolds
    exact absurd secondHolds (apart triple _ firstHolds second secondHere _)
  · rw [update_of_ne firstHere] at firstHolds
    rw [secondHere, update_self] at secondHolds
    exact absurd firstHolds (apart triple _ secondHolds first firstHere _)
  · rw [update_of_ne firstHere] at firstHolds
    rw [update_of_ne secondHere] at secondHolds
    exact separate triple first second firstSlot secondSlot firstHolds secondHolds

/-- A socket may be given one triple that nobody holds. -/
lemma Separate.add (new : UInt16 × UInt32 × UInt16) (place : Option (Fin lqSize))
    (added : ∀ triple slot, s.Holds triple slot →
      slot = place ∧ triple = new ∨ (sockets fd).Holds triple slot)
    (free : ∀ other slot, ¬(sockets other).Holds new slot) : Separate (update sockets fd s) := by
  apply separate.set
  · intro triple first second firstHolds secondHolds
    rcases added triple first firstHolds with ⟨rfl, rfl⟩ | firstBefore <;>
      rcases added triple second secondHolds with ⟨rfl, same⟩ | secondBefore
    · rfl
    · exact absurd secondBefore (free fd second)
    · exact absurd (same ▸ firstBefore) (free fd first)
    · exact (separate triple fd fd first second firstBefore secondBefore).2
  · intro triple slot holds other there held otherHolds
    rcases added triple slot holds with ⟨-, rfl⟩ | before
    · exact free other held otherHolds
    · exact there (separate triple other fd held slot otherHolds before).1

/-- A socket may move its triples to a port that is not in use. -/
lemma Separate.bind {ip : UInt32}
    (unused : ∀ other, (sockets other).inUse = true → (sockets other).localPort ≠ port) :
    Separate (update sockets fd { sockets fd with localIp := ip, localPort := port }) := by
  have moved : ∀ triple slot,
      Socket.Holds { sockets fd with localIp := ip, localPort := port } triple slot →
        triple.1 = port ∧ (sockets fd).Holds ((sockets fd).localPort, triple.2) slot := by
    rintro triple (_ | slot) holds
    · rcases holds with ⟨active, rfl⟩
      exact ⟨rfl, active, rfl⟩
    · rcases holds with ⟨listening, used, rfl⟩
      exact ⟨rfl, listening, used, rfl⟩
  apply separate.set
  · intro triple first second firstHolds secondHolds
    exact (separate _ fd fd _ _ (moved _ _ firstHolds).2 (moved _ _ secondHolds).2).2
  · intro triple slot holds other _ held otherHolds
    exact unused other otherHolds.inUse.1 (otherHolds.inUse.2.trans (moved _ _ holds).1)

/-- A socket may hold nothing. -/
lemma Separate.release (idle : ∀ triple slot, ¬s.Holds triple slot) :
    Separate (update sockets fd s) :=
  separate.set (fun triple first _ holds => absurd holds (idle triple first))
    fun triple slot holds => absurd holds (idle triple slot)

end

lemma Ports.mono (ports : Ports sockets accepted) {after : Sockets}
    (place : ∀ fd, SamePlace (sockets fd) (after fd)) : Ports after accepted := by
  constructor
  · intro fd listening
    rcases place fd (Socket.inUse_of_listening listening) with ⟨-, port, same⟩
    rw [port]
    exact ports.listeners fd (same ▸ listening)
  · intro fd other differ used otherUsed shared bound own
    rcases place fd used with ⟨usedBefore, port, same⟩
    rcases place other otherUsed with ⟨otherBefore, otherPort, -⟩
    rw [port, otherPort] at shared
    rw [port] at bound
    rw [same]
    exact ports.owned fd other differ usedBefore otherBefore shared bound own

/-- A socket may change if it shares its port only as such sockets do. -/
theorem Ports.set (ports : Ports sockets accepted) {after : Fin socketMax → Bool}
    (same : ∀ other ≠ fd, after other = accepted other)
    (listener : s.listening = true → after fd = false ∧ s.localPort ≠ 0)
    (shared : ∀ other ≠ fd, (sockets other).inUse = true → s.localPort ≠ 0 →
      (sockets other).localPort = s.localPort →
      (after fd = false → s.listening = true ∧ accepted other = true) ∧
        (accepted other = false → (sockets other).listening = true ∧ after fd = true)) :
    Ports (update sockets fd s) after := by
  constructor
  · intro other listening
    by_cases here : other = fd
    · rw [here, update_self] at listening ⊢
      exact listener listening
    · rw [update_of_ne here] at listening ⊢
      rw [same other here]
      exact ports.listeners other listening
  · intro first second differ used otherUsed equal bound own
    by_cases firstHere : first = fd
    · subst firstHere
      rw [update_self] at equal bound ⊢
      rw [update_of_ne differ.symm] at otherUsed equal
      rw [same second differ.symm]
      exact (shared second differ.symm otherUsed bound equal).1 own
    · rw [update_of_ne firstHere] at used equal bound ⊢
      rw [same first firstHere] at own
      by_cases secondHere : second = fd
      · rw [secondHere, update_self] at equal
        rw [secondHere]
        exact (shared first firstHere used (equal ▸ bound) equal.symm).2 own
      · rw [update_of_ne secondHere] at otherUsed equal
        rw [same second secondHere]
        exact ports.owned first second differ used otherUsed equal bound own

/-- What every call keeps: where the ports are, where the triples are, and where the allocator
starts. -/
structure LayerSound (state : SocketLayer × (Fin socketMax → Bool)) : Prop where
  ports : Ports state.1.sockets state.2
  separate : Separate state.1.sockets
  high : 49152 ≤ state.1.ephemeralNext.toNat

section

variable (sound : LayerSound (layer, accepted))
include sound

lemma LayerSound.mono {after : Sockets} (keeps : ∀ fd, Keeps (layer.sockets fd) (after fd)) :
    LayerSound ({ layer with sockets := after }, accepted) :=
  ⟨sound.ports.mono fun fd => (keeps fd).place, sound.separate.mono fun fd => (keeps fd).holds,
    sound.high⟩

lemma LayerSound.update (keeps : Keeps (layer.sockets fd) s) :
    LayerSound ({ layer with sockets := update layer.sockets fd s }, accepted) :=
  sound.mono (forall_update Keeps.refl keeps)

end

/-! ## Binding -/

lemma portInUse_eq_false_iff : portInUse sockets port = false ↔
      ∀ fd, (sockets fd).inUse = true → (sockets fd).localPort ≠ port := by
  simp [portInUse, List.any_eq_false]

lemma nextPort_toNat (high : 49152 ≤ port.toNat) :
    (nextPort port).toNat = if port.toNat = 65535 then 49152 else port.toNat + 1 := by
  have small := port.toNat_lt
  have sum : (port + 1).toNat = (port.toNat + 1) % 65536 := by
    simp [UInt16.toNat_add]
  have below : port + 1 < 49152 ↔ (port.toNat + 1) % 65536 < 49152 := by
    rw [UInt16.lt_iff_toNat_lt, sum]
    rfl
  have zero : port + 1 = 0 ↔ (port.toNat + 1) % 65536 = 0 := by
    rw [← UInt16.toNat_inj, sum]
    rfl
  simp only [nextPort, below, zero]
  split
  · rw [if_pos (by omega)]
    rfl
  · rw [if_neg (by omega), sum]
    omega

lemma iterate_nextPort_toNat (high : 49152 ≤ port.toNat) (count : Nat) :
    (nextPort^[count] port).toNat = 49152 + (port.toNat - 49152 + count) % 16384 := by
  have small := port.toNat_lt
  induction count with
  | zero =>
    simp only [iterate_zero, id]
    omega
  | succ count ih =>
    rw [iterate_succ_apply', nextPort_toNat (by omega), ih]
    split <;> omega

lemma exists_unused_port (sockets : Sockets) (high : 49152 ≤ port.toNat) :
    ∃ count < socketMax + 1, portInUse sockets (nextPort^[count] port) = false := by
  by_contra full
  have used (count : Fin (socketMax + 1)) :
      ∃ fd, (sockets fd).localPort = nextPort^[count] port := by
    by_contra unused
    exact full ⟨count, count.isLt, portInUse_eq_false_iff.mpr fun fd _ same => unused ⟨fd, same⟩⟩
  choose holder held using used
  obtain ⟨first, second, differ, same⟩ :=
    Fintype.exists_ne_map_eq_of_card_lt holder (by simp)
  have ports := held second
  rw [← same, held first] at ports
  have values := congrArg UInt16.toNat ports
  have bounds := And.intro first.isLt second.isLt
  simp only [iterate_nextPort_toNat high, socketMax] at values bounds
  exact differ (Fin.ext (by omega))

lemma le_nextPort (high : 49152 ≤ port.toNat) : 49152 ≤ (nextPort port).toNat := by
  rw [nextPort_toNat high]
  split <;> omega

lemma ephemeralLoop_unused {tries : Nat} (high : 49152 ≤ port.toNat)
    (found : ∃ count < tries, portInUse sockets (nextPort^[count] port) = false) :
    portInUse sockets (ephemeralLoop sockets tries port).1 = false ∧
      49152 ≤ (ephemeralLoop sockets tries port).1.toNat := by
  induction tries generalizing port with
  | zero =>
    rcases found with ⟨count, less, -⟩
    cases less
  | succ tries ih =>
    simp only [ephemeralLoop]
    cases here : portInUse sockets port with
    | false => exact ⟨here, high⟩
    | true =>
      rw [if_pos rfl]
      rcases found with ⟨count, less, unused⟩
      cases count with
      | zero => simp [here] at unused
      | succ count => exact ih (le_nextPort high) ⟨count, by omega, by simpa using unused⟩

lemma ephemeralLoop_next {tries : Nat} (high : 49152 ≤ port.toNat) :
    49152 ≤ (ephemeralLoop sockets tries port).2.toNat := by
  induction tries generalizing port with
  | zero => exact high
  | succ tries ih =>
    simp only [ephemeralLoop]
    split
    · exact ih (le_nextPort high)
    · exact le_nextPort high

lemma allocEphemeral_unused (high : 49152 ≤ layer.ephemeralNext.toNat) :
    portInUse layer.sockets (allocEphemeral layer).1 = false ∧ (allocEphemeral layer).1 ≠ 0 := by
  obtain ⟨count, less, unused⟩ := exists_unused_port layer.sockets high
  have found := ephemeralLoop_unused high ⟨count, less.trans (by decide : _ < 16384), unused⟩
  refine ⟨found.1, fun zero => ?_⟩
  have bound := found.2
  rw [← allocEphemeral, zero] at bound
  simp at bound

section

variable (sound : LayerSound (layer, accepted))
include sound

/-- A socket may move to a port that is not in use. -/
lemma LayerSound.bind {next : UInt16} (high : 49152 ≤ next.toNat) (bound : port ≠ 0)
    (unused : portInUse layer.sockets port = false) (fd : Fin socketMax) (ip : UInt32) :
    LayerSound (⟨Function.update layer.sockets fd
      { layer.sockets fd with localIp := ip, localPort := port }, next⟩, accepted) := by
  have free := portInUse_eq_false_iff.mp unused
  refine ⟨sound.ports.set (fun _ _ => rfl) ?_ fun other _ used _ same => ?_, ?_, high⟩
  · exact fun listening => ⟨(sound.ports.listeners fd listening).1, bound⟩
  · exact absurd same (free other used)
  · exact sound.separate.bind free

lemma LayerSound.socketBind (fd : Nat) (ip : UInt32) (port : UInt16) :
    LayerSound (socketBind layer fd ip port, accepted) := by
  simp only [Net.socketBind]
  split
  · split
    · exact sound
    · split
      case isTrue bound =>
        split
        · exact sound
        case isFalse unused => exact sound.bind sound.high bound (by simpa using unused) _ ip
      case isFalse =>
        have found := allocEphemeral_unused sound.high
        exact sound.bind (ephemeralLoop_next sound.high) found.2 found.1 _ ip
  · exact sound

end

/-! ## Input and the clock -/

section Input

variable (s : Socket) (segment : Segment) (now : UInt32)

/-- Segments that carry neither data nor an end. -/
def Quiet (emissions : List Emission) : Prop :=
  ∀ emission ∈ emissions, emission.segment.data = [] ∧ emission.segment.flags.fin = false

lemma quiet_nil : Quiet [] := nofun

lemma quiet_ack (seq : UInt32) : Quiet [tcpEmit s seq { ack := true } []] := by
  intro emission member
  rw [List.mem_singleton.mp member]
  exact ⟨rfl, rfl⟩

/-- What every segment keeps of its connection. -/
structure Handled (after : Socket × List Emission) : Prop where
  endpoint : after.1.endpoint = s.endpoint
  sndNxt : after.1.sndNxt = s.sndNxt
  rtSeq : after.1.rtSeq = s.rtSeq
  quiet : Quiet after.2

/-- What a segment in `ESTABLISHED` does: it clears the record if it acknowledges it. -/
structure HandledOpen (after : Socket × List Emission) : Prop extends Handled s after where
  isTcp : after.1.isTcp = s.isTcp
  rtBuf : after.1.rtBuf = if acksInFlight s segment then [] else s.rtBuf
  tcpState : after.1.tcpState = if segment.flags.fin then .closeWait else s.tcpState

lemma establishedInput_handled : HandledOpen s segment (establishedInput s segment now) := by
  have quiet : Quiet (establishedInput s segment now).2 := by
    simp only [establishedInput, receiveData, receiveFin, tcpSendSeg_ack]
    refine fun emission member => (List.mem_append.mp member).elim ?_ ?_ <;> split
    all_goals first | exact quiet_ack _ _ emission | exact quiet_nil emission
  refine ⟨⟨?_, ?_, ?_, quiet⟩, ?_, ?_, ?_⟩
  all_goals
    simp only [establishedInput, receiveFin, receiveData, storeData, clearInFlight, tcpSendSeg_ack]
    split_ifs <;> rfl

/-- The sender sends nothing more. -/
def Ended : Prop := s.tcpState ≠ .established ∧ s.tcpState ≠ .closeWait

/-- What a segment in another state does: once the connection is open, the state can only change to
one without data. -/
structure HandledClosing (after : Socket × List Emission) : Prop extends Handled s after where
  rtBuf : after.1.rtBuf = s.rtBuf
  rx : after.1.rx = s.rx
  state : s.tcpState ≠ .synSent → after.1.tcpState = s.tcpState ∨
    after.1.tcpState ≠ .synSent ∧ Ended after.1

lemma socketInput_handled (other : s.tcpState ≠ .established) :
    HandledClosing s (socketInput s segment now) := by
  have same : HandledClosing s (s, []) := ⟨⟨rfl, rfl, rfl, quiet_nil⟩, rfl, rfl, fun _ => .inl rfl⟩
  unfold socketInput
  split
  case h_1 sent =>
    simp only [synSentInput, tcpSendSeg_ack]
    split
    · exact ⟨⟨rfl, rfl, rfl, quiet_ack _ _⟩, rfl, rfl, fun opened => absurd sent opened⟩
    split
    · exact ⟨⟨rfl, rfl, rfl, quiet_nil⟩, rfl, rfl, fun opened => absurd sent opened⟩
    · exact same
  case h_2 established => exact absurd established other
  case h_3 =>
    simp only [finWait2Input, tcpSendSeg_ack]
    split
    · split
      · exact ⟨⟨rfl, rfl, rfl, quiet_ack _ _⟩, rfl, rfl, fun _ => .inr (by simp [Ended])⟩
      · exact ⟨⟨rfl, rfl, rfl, quiet_nil⟩, rfl, rfl, fun _ => .inr (by simp [Ended])⟩
    · exact same
  case h_4 =>
    simp only [finWait2Input, tcpSendSeg_ack]
    split
    · exact ⟨⟨rfl, rfl, rfl, quiet_ack _ _⟩, rfl, rfl, fun _ => .inr (by simp [Ended])⟩
    · exact same
  case h_5 =>
    split
    · exact ⟨⟨rfl, rfl, rfl, quiet_nil⟩, rfl, rfl, fun _ => .inr (by simp [Ended])⟩
    · exact same
  case h_6 => exact same

/-- A segment keeps the triple of its connection. -/
lemma socketInput_keeps (active : s.active = true) : Keeps s (socketInput s segment now).1 := by
  apply Keeps.of_active active
  · by_cases established : s.tcpState = .established
    · simp only [socketInput, established]
      exact (establishedInput_handled s segment now).endpoint
    · exact (socketInput_handled s segment now established).endpoint
  · have state := (Socket.active_iff.mp active).2.1
    cases before : s.tcpState with
    | established =>
      simp only [socketInput, before]
      rw [(establishedInput_handled s segment now).tcpState, before]
      split <;> decide
    | _ =>
      simp only [socketInput, synSentInput, finWait2Input, tcpSendSeg_ack, before]
      repeat' split
      all_goals simp_all

/-- `tcp_tick` keeps the triples of connections and drops entries of listen queues. -/
lemma tickSocket_keeps (tcp : s.isTcp = true) : Keeps s (tickSocket s now).1 := by
  unfold tickSocket
  split
  case h_1 sent =>
    split
    · rw [tcpSendSeg_nil]
      exact Keeps.of_active (by simp [Socket.active, tcp, sent]) rfl (by simp [sent])
    · exact Keeps.refl s
  case h_2 established =>
    have active : s.active = true := by simp [Socket.active, tcp, established]
    simp only [retransmit]
    split
    · split
      · exact Keeps.of_active active rfl (by simp)
      · exact Keeps.of_active active rfl (by simp [established])
    · exact Keeps.refl s
  case h_3 =>
    apply Keeps.of_queue
    intro slot used
    split at used
    · cases used
    case isFalse young =>
      rw [if_neg young]
      exact ⟨used, rfl, rfl⟩
  case h_4 =>
    split
    · exact Keeps.of_unused rfl
    · exact Keeps.refl s
  case h_5 => exact Keeps.refl s

/-- `tcp_close` keeps the triple of a connection that has an end to send. -/
lemma socketTcpClose_keeps (tcp : s.isTcp = true) : Keeps s (socketTcpClose s now).1 := by
  unfold socketTcpClose
  split
  case h_1 established =>
    rw [tcpSendSeg_nil]
    exact Keeps.of_active (by simp [Socket.active, tcp, established]) rfl (by simp)
  case h_2 waiting =>
    rw [tcpSendSeg_nil]
    exact Keeps.of_active (by simp [Socket.active, tcp, waiting]) rfl (by simp)
  case h_3 => exact Keeps.of_unused rfl

lemma completeEntry_keeps (srcIp : UInt32) : Keeps s (completeEntry s srcIp segment) := by
  unfold completeEntry
  split
  · exact Keeps.refl s
  case h_2 slot _ =>
    apply Keeps.of_queue
    intro other used
    by_cases here : other = slot
    · rw [here, update_self] at used ⊢
      exact ⟨used, rfl, rfl⟩
    · rw [update_of_ne here] at used ⊢
      exact ⟨used, rfl, rfl⟩

lemma dequeue_keeps (slot : Fin lqSize) : Keeps s (dequeue s slot) := by
  apply Keeps.of_queue
  intro other used
  by_cases here : other = slot
  · rw [here, update_self] at used
    cases used
  · rw [update_of_ne here] at used ⊢
    exact ⟨used, rfl, rfl⟩

end Input

lemma firstSocket_some {condition : Socket → Bool}
    (found : firstSocket sockets condition = some fd) : condition (sockets fd) = true :=
  List.find?_some (p := fun fd => condition (sockets fd)) found

lemma firstSocket_none {condition : Socket → Bool} (missing : firstSocket sockets condition = none)
    (fd : Fin socketMax) : condition (sockets fd) ≠ true :=
  List.find?_eq_none.mp missing fd (List.mem_finRange fd)

lemma listening_of_listensOn (listens : listensOn port s = true) :
    s.listening = true ∧ s.localPort = port := by
  simp only [listensOn, Bool.and_eq_true, beq_iff_eq] at listens
  exact ⟨by simp [Socket.listening, listens], listens.2⟩

section

variable (sound : LayerSound (layer, accepted))
include sound

/-- No two sockets listen on one port. -/
lemma LayerSound.listener_unique {first second : Fin socketMax}
    (firstListens : (layer.sockets first).listening = true)
    (secondListens : (layer.sockets second).listening = true)
    (shared : (layer.sockets second).localPort = (layer.sockets first).localPort) :
    first = second := by
  by_contra differ
  rcases sound.ports.listeners first firstListens with ⟨own, bound⟩
  have other := (sound.ports.owned first second differ (Socket.inUse_of_listening firstListens)
    (Socket.inUse_of_listening secondListens) shared bound own).2
  rw [(sound.ports.listeners second secondListens).1] at other
  cases other

/-- A connection request that belongs to no connection and to no entry of the queue gets an entry
with a triple that nobody holds. -/
lemma LayerSound.enqueue {slot : Fin lqSize} {entry : ListenEntry}
    (listens : (layer.sockets fd).listening = true)
    (stray : ∀ other, (layer.sockets other).active = true →
      (layer.sockets other).endpoint ≠ ((layer.sockets fd).localPort, entry.ip, entry.port))
    (fresh : ∀ other, ((layer.sockets fd).lq other).inUse = true →
      (((layer.sockets fd).lq other).ip, ((layer.sockets fd).lq other).port) ≠
        (entry.ip, entry.port)) :
    LayerSound (⟨Function.update layer.sockets fd
      { layer.sockets fd with lq := Function.update (layer.sockets fd).lq slot entry },
      layer.ephemeralNext⟩, accepted) := by
  refine ⟨sound.ports.mono (forall_update SamePlace.refl fun used => ⟨used, rfl, rfl⟩),
    sound.separate.add ((layer.sockets fd).localPort, entry.ip, entry.port) (some slot) ?_ ?_,
    sound.high⟩
  · rintro triple (_ | held) holds
    · exact .inr holds
    rcases holds with ⟨-, used, rfl⟩
    dsimp only at used ⊢
    by_cases here : held = slot
    · rw [here, update_self]
      exact .inl ⟨rfl, rfl⟩
    · rw [update_of_ne here] at used ⊢
      exact .inr ⟨listens, used, rfl⟩
  · rintro other (_ | held) holds
    · exact stray other holds.1 holds.2
    · obtain rfl := sound.listener_unique listens holds.1 holds.inUse.2
      exact fresh held holds.2.1 (congrArg Prod.snd holds.2.2)

lemma LayerSound.strayInput {srcIp : UInt32} {segment : Segment}
    (missing : firstSocket layer.sockets (belongsTo srcIp segment) = none)
    (now iss own : UInt32) :
    LayerSound ({ layer with
      sockets := (strayInput layer.sockets srcIp segment now iss own).1 }, accepted) := by
  unfold Net.strayInput
  split
  · split
    · exact sound
    case h_2 fd found =>
      rcases listening_of_listensOn (firstSocket_some found) with ⟨listens, port⟩
      simp only [listenInput]
      split
      · rw [update_eq_self]
        exact sound
      case isFalse fresh =>
        split
        · rw [update_eq_self]
          exact sound
        · apply sound.enqueue listens
          · intro other active same
            apply firstSocket_none missing other
            simp only [Socket.endpoint, Prod.mk.injEq, port] at same
            simp [belongsTo, active, same]
          · intro other used same
            apply fresh
            simp only [Prod.mk.injEq] at same
            simp only [List.any_eq_true]
            exact ⟨other, List.mem_finRange other, by simp [used, same]⟩
  · split
    · split
      · exact sound
      · exact sound.update (completeEntry_keeps _ _ _)
    · exact sound

lemma LayerSound.tcpInput (srcIp : UInt32) (buf : List UInt8) (now iss own : UInt32) :
    LayerSound ({ layer with sockets := (tcpInput layer.sockets srcIp buf now iss own).1 },
      accepted) := by
  unfold Net.tcpInput
  split
  · exact sound
  case h_2 segment _ =>
    unfold segmentInput
    split
    case h_1 fd found =>
      have belongs := firstSocket_some found
      simp only [belongsTo, Bool.and_eq_true] at belongs
      exact sound.update (socketInput_keeps _ _ _ belongs.1.1.1)
    case h_2 missing => exact sound.strayInput missing now iss own

lemma LayerSound.tcpTick (now : UInt32) :
    LayerSound ({ layer with sockets := (tcpTick layer.sockets now).1 }, accepted) := by
  apply sound.mono
  intro fd
  simp only [Net.tcpTick, tickEntry]
  split
  case isTrue tcp => exact tickSocket_keeps _ now tcp
  case isFalse => exact Keeps.refl _

/-! ## Calls -/

lemma LayerSound.socketClose (fd : Nat) (now : UInt32) :
    LayerSound (socketClose layer fd now, accepted) := by
  simp only [Net.socketClose]
  split
  · split
    · exact sound
    · split
      · simp only [tcpClose]
        split
        case isTrue tcp => exact sound.update (socketTcpClose_keeps _ now tcp)
        case isFalse => exact sound
      · exact sound.update (Keeps.of_unused rfl)
  · exact sound

lemma LayerSound.socketCreate (type : SockType) :
    LayerSound ((socketCreate layer type).1,
      noteAccepted accepted (.create type) (socketCreate layer type).2) := by
  simp only [Net.socketCreate]
  split
  · exact sound
  split
  · exact sound
  case h_2 fd _ =>
    have idle : ∀ triple slot, ¬Socket.Holds
        { zeroSocket with inUse := true, type := type, tcpState := .closed } triple slot :=
      Socket.not_holds (by simp [Socket.active]) (by simp [Socket.listening])
    refine ⟨sound.ports.set (fun other there => update_of_ne there _ _) ?_ ?_,
      sound.separate.release idle, sound.high⟩
    · simp [Socket.listening]
    · exact fun other _ _ bound => absurd rfl bound

/-- A bound socket that did not come from `socket_accept` has its port alone, until it listens. -/
lemma LayerSound.alone (used : (layer.sockets fd).inUse = true)
    (bound : (layer.sockets fd).localPort ≠ 0) (own : accepted fd = false)
    (silent : (layer.sockets fd).listening ≠ true) {other : Fin socketMax} (there : other ≠ fd)
    (otherUsed : (layer.sockets other).inUse = true) :
    (layer.sockets other).localPort ≠ (layer.sockets fd).localPort := fun shared =>
  silent (sound.ports.owned fd other there.symm used otherUsed shared bound own).1

lemma LayerSound.tcpListen (own : accepted fd = false) :
    LayerSound ({ layer with sockets := (tcpListen layer.sockets fd).1 }, accepted) := by
  simp only [Net.tcpListen]
  split
  · exact sound
  case isFalse tcp =>
    have used : (layer.sockets fd).inUse = true := Socket.inUse_of_isTcp (by simpa using tcp)
    split
    · exact sound
    case isFalse bound =>
      by_cases already : (layer.sockets fd).listening = true
      · have state := (Socket.listening_iff.mp already).2
        rw [← state]
        exact sound.update (Keeps.of_queue nofun)
      · have idle : ∀ triple slot, ¬Socket.Holds
            { layer.sockets fd with
              tcpState := .listen
              lq := fun slot =>
                { (layer.sockets fd).lq slot with inUse := false, completed := false } }
            triple slot := by
          rintro triple (_ | slot) holds
          · exact (Socket.active_iff.mp holds.1).2.1 rfl
          · cases holds.2.1
        refine ⟨sound.ports.set (fun _ _ => rfl) (fun _ => ⟨own, bound⟩) ?_,
          sound.separate.release idle, sound.high⟩
        exact fun other there otherUsed _ same =>
          absurd same (sound.alone used bound own already there otherUsed)

lemma LayerSound.tcpConnect (own : accepted fd = false)
    (free : (layer.sockets fd).localPort = 0 →
      portInUse layer.sockets (connectPort (layer.sockets fd) fd) = false)
    (ip : UInt32) (port : UInt16) (iss now : UInt32) :
    LayerSound ({ layer with sockets := (tcpConnect layer.sockets fd ip port iss now).1 },
      accepted) := by
  simp only [Net.tcpConnect]
  split
  · exact sound
  case isFalse tcp =>
    have isTcp : (layer.sockets fd).isTcp = true := by simpa using tcp
    split
    · exact sound
    case isFalse notOther =>
      have closed : (layer.sockets fd).tcpState = .closed := by simpa using notOther
      have silent : (layer.sockets fd).listening ≠ true := by simp [Socket.listening, closed]
      -- a port that was bound is the socket's own, and the port of the formula is not in use
      have alone : ∀ other ≠ fd, (layer.sockets other).inUse = true →
          (layer.sockets other).localPort ≠ connectPort (layer.sockets fd) fd := by
        intro other there used
        by_cases unbound : (layer.sockets fd).localPort = 0
        · exact portInUse_eq_false_iff.mp (free unbound) other used
        · rw [connectPort, if_neg unbound]
          exact sound.alone (Socket.inUse_of_isTcp isTcp) unbound own silent there used
      rw [tcpSendSeg_nil]
      refine ⟨sound.ports.set (fun _ _ => rfl) ?_ fun other there used _ same => ?_,
        sound.separate.add (connectPort (layer.sockets fd) fd, ip, port) none ?_ ?_, sound.high⟩
      · simp [Socket.listening]
      · exact absurd same (alone other there used)
      · intro triple slot holds
        obtain ⟨place, same⟩ := Socket.holds_active
          (by exact Socket.active_iff.mpr ⟨isTcp, by simp, by simp⟩) triple slot holds
        exact .inl ⟨place, same.symm⟩
      · intro other slot holds
        by_cases here : other = fd
        · subst here
          exact Socket.not_holds (by simp [Socket.active, closed]) (by simpa using silent) _ _ holds
        · exact alone other here holds.inUse.1 holds.inUse.2

end

/-- A new socket may share the port of a listening one if it comes from `socket_accept`. -/
lemma Ports.accept (ports : Ports sockets accepted) {newfd : Fin socketMax}
    (listens : (sockets fd).listening = true) (silent : s.listening = false)
    (shares : s.localPort = (sockets fd).localPort) :
    Ports (Function.update sockets newfd s) (Function.update accepted newfd true) := by
  refine ports.set (fun other there => update_of_ne there _ _) ?_ ?_
  · intro listening
    rw [silent] at listening
    cases listening
  · intro other _ used bound same
    rw [update_self]
    refine ⟨nofun, fun own => ⟨?_, rfl⟩⟩
    by_cases here : other = fd
    · rw [here]
      exact listens
    · rw [shares] at same bound
      exact (ports.owned other fd here used (Socket.inUse_of_listening listens) same.symm
        (same.symm ▸ bound) own).1

/-- The triple of an entry goes over to the socket that `tcp_accept` makes. -/
theorem Separate.accept (separate : Separate sockets) {newfd : Fin socketMax} {slot : Fin lqSize}
    (listens : (sockets fd).listening = true) (used : ((sockets fd).lq slot).inUse = true) :
    Separate (Function.update (Function.update sockets fd (dequeue (sockets fd) slot)) newfd
      (acceptedSocket (sockets fd) ((sockets fd).lq slot))) := by
  have keeps := forall_update (R := Keeps) Keeps.refl (dequeue_keeps (sockets fd) slot)
  apply (separate.mono fun other => (keeps other).holds).add
    ((sockets fd).localPort, ((sockets fd).lq slot).ip, ((sockets fd).lq slot).port) none
  · intro triple held holds
    obtain ⟨place, same⟩ := Socket.holds_active rfl triple held holds
    exact .inl ⟨place, same.symm⟩
  · intro other held holds
    have before := (keeps other).holds _ held holds
    rcases separate _ fd other (some slot) held ⟨listens, used, rfl⟩ before with ⟨rfl, rfl⟩
    have still := holds.2.1
    rw [update_self] at still
    simp [dequeue] at still

lemma LayerSound.tcpAccept (sound : LayerSound (layer, accepted)) (fd : Fin socketMax) :
    LayerSound ({ layer with sockets := (tcpAccept layer.sockets fd).1 },
      noteAccepted accepted (.accept fd) (tcpAccept layer.sockets fd).2.descriptor) := by
  simp only [Net.tcpAccept]
  split
  · exact sound
  case isFalse listener =>
    have listens : (layer.sockets fd).listening = true := by
      simpa [Socket.listening] using listener
    cases entry : firstEntry (layer.sockets fd) fun entry => entry.inUse && entry.completed with
    | none => exact sound
    | some slot =>
      have ready : (((layer.sockets fd).lq slot).inUse &&
          ((layer.sockets fd).lq slot).completed) = true :=
        List.find?_some (p := fun slot => ((layer.sockets fd).lq slot).inUse &&
          ((layer.sockets fd).lq slot).completed) entry
      simp only [Bool.and_eq_true] at ready
      cases free : firstSocket layer.sockets fun s => !s.inUse with
      | none => exact sound.update (dequeue_keeps _ slot)
      | some newfd =>
        have unused : (layer.sockets newfd).inUse = false := by simpa using firstSocket_some free
        have other : newfd ≠ fd := by
          rintro rfl
          rw [Socket.inUse_of_listening listens] at unused
          cases unused
        have swap := update_comm other
          (acceptedSocket (layer.sockets fd) ((layer.sockets fd).lq slot))
          (dequeue (layer.sockets fd) slot) layer.sockets
        refine ⟨?_, ?_, sound.high⟩
        · refine (sound.ports.accept listens
            (s := acceptedSocket (layer.sockets fd) ((layer.sockets fd).lq slot)) rfl rfl).mono ?_
          apply forall_update SamePlace.refl
          rw [update_of_ne other.symm]
          exact (dequeue_keeps _ slot).place
        · simp only [swap]
          exact sound.separate.accept listens ready.1

/-! ## Runs -/

theorem LayerSound.step {state : SocketLayer × (Fin socketMax → Bool)} (sound : LayerSound state)
    (call : SocketCall) (own : TakesOwnPort state call) :
    LayerSound (socketStep.observe noteAccepted state call).1 := by
  cases call with
  | create type => exact sound.socketCreate type
  | bind fd ip port => exact sound.socketBind fd ip port
  | connect fd ip port iss now => exact sound.tcpConnect own.1 own.2 ip (htons port) iss now
  | listen fd => exact sound.tcpListen own
  | accept fd => exact sound.tcpAccept fd
  | close fd now => exact sound.socketClose fd now
  | input srcIp buf now iss own => exact sound.tcpInput srcIp buf now iss _
  | tick now => exact sound.tcpTick now

lemma belongsTo_unique (unique : ConnectionsUnique sockets) {srcIp : UInt32} {segment : Segment}
    {first second : Fin socketMax} (firstBelongs : belongsTo srcIp segment (sockets first) = true)
    (secondBelongs : belongsTo srcIp segment (sockets second) = true) : first = second := by
  simp only [belongsTo, Bool.and_eq_true, beq_iff_eq] at firstBelongs secondBelongs
  apply unique first second firstBelongs.1.1.1 secondBelongs.1.1.1
  simp only [Socket.endpoint, firstBelongs, secondBelongs]

lemma LayerSound.boot : LayerSound (bootLayer, fun _ => false) := by
  have idle : ∀ triple slot, ¬zeroSocket.Holds triple slot := Socket.not_holds rfl rfl
  refine ⟨⟨fun fd listening => ?_, fun fd other _ used => ?_⟩, ?_, le_rfl⟩
  · cases listening
  · cases used
  · exact fun triple _ _ slot _ holds => absurd holds (idle triple slot)

/-- Along every run from boot no two active sockets share a triple, and a segment has one match at
most, if no socket is connected without a bind while the port of its formula is in use, and none
that came from `socket_accept` is connected or made to listen. -/
theorem connections_stay_unique_of_own_ports {calls : List SocketCall}
    (own : (socketStep.observe noteAccepted).Along TakesOwnPort (bootLayer, fun _ => false) calls) :
    socketStep.Along StaysUnique bootLayer calls := by
  apply (Machine.along_observe_iff (P := StaysUnique)).mp
  apply Machine.along_of_invariant (I := LayerSound) _ _ LayerSound.boot own
  · exact fun state call sound own => sound.step call own
  · intro state call sound own
    have unique := (sound.step call own).separate.connectionsUnique
    exact ⟨unique, fun srcIp segment fd found other belongs =>
      belongsTo_unique unique belongs (firstSocket_some found)⟩

/-- A server with two connections of one client, of which one is asked for twice, and a client that
binds its socket before it connects to the same host. -/
def servedCalls : List SocketCall :=
  [.create .tcp, .bind 0 0 (htons 22), .listen 0,
    .input 7 (tcpPacket ⟨0, 0, 4000, 22, 5, 0, { syn := true }, []⟩ 0) 0 9 1,
    .input 7 (tcpPacket ⟨0, 0, 4001, 22, 5, 0, { syn := true }, []⟩ 0) 0 9 1,
    .input 7 (tcpPacket ⟨0, 0, 4000, 22, 5, 0, { syn := true }, []⟩ 0) 0 9 1,
    .accept 0, .accept 0, .create .tcp, .bind 3 0 0, .connect 3 7 80 1000 0]

theorem connections_stay_unique_served :
    (∀ fd ∈ [1, 2, 3], ((socketStep.run bootLayer servedCalls).sockets fd).active = true) ∧
      socketStep.Along StaysUnique bootLayer servedCalls := by
  refine ⟨by decide +kernel, connections_stay_unique_of_own_ports ?_⟩
  simp only [servedCalls, Machine.along_cons_iff, Machine.along_nil, TakesOwnPort, true_and,
    and_true]
  decide +kernel

/-- Socket 1 is bound to an ephemeral port and connected; socket 0 is connected to
the same peer without being bound. -/
def clashingCalls : List SocketCall :=
  [.create .tcp, .create .tcp, .bind 1 0 0, .connect 1 7 80 1000 0, .connect 0 7 80 2000 0]

/-- Both sockets are in `SYN_SENT` with the local port 49152 and the same peer. -/
theorem connect_reuses_the_port_of_a_connection :
    ((socketStep.run bootLayer clashingCalls).sockets 0).active = true ∧
      ((socketStep.run bootLayer clashingCalls).sockets 1).active = true ∧
      ((socketStep.run bootLayer clashingCalls).sockets 0).endpoint =
        ((socketStep.run bootLayer clashingCalls).sockets 1).endpoint ∧
      ¬ConnectionsUnique (socketStep.run bootLayer clashingCalls).sockets := by
  have first : ((socketStep.run bootLayer clashingCalls).sockets 0).active = true := by decide
  have second : ((socketStep.run bootLayer clashingCalls).sockets 1).active = true := by decide
  have same : ((socketStep.run bootLayer clashingCalls).sockets 0).endpoint =
      ((socketStep.run bootLayer clashingCalls).sockets 1).endpoint := by decide
  exact ⟨first, second, same, fun unique => absurd (unique 0 1 first second same) (by decide)⟩

end CupidOs.Net
