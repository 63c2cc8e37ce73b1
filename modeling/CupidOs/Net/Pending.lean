import CupidOs.Bytes.OnesComplement
import CupidOs.Rings.Ring
import CupidOs.Transition.Run
import Mathlib.Data.List.FinRange

/-!
# The receive ring and its re-entrant consumer

`net_process_pending` hands the frame at the tail of the receive ring to its handler and advances
the tail behind it. A handler that sends to an address without an ARP entry waits in
`arp_resolve`, which calls `net_process_pending` again. The calls under way are kept on a stack;
an event runs the code up to the next point at which a handler, `tcp_tick` or nothing is running.
-/

namespace CupidOs.Net

open Bytes List Rings Transition

/-- `NET_RX_RING_SIZE`. -/
def netRxRingSize : Nat := 64

/-- `NET_IF_MTU + 14`, the largest frame. -/
def netFrameMax : Nat := 1500 + 14

/-- `ARP_CACHE_SIZE`. -/
def arpCacheSize : Nat := 16

/-- `ARP_TTL_MS`. -/
def arpTtlMs : UInt32 := 300000

/-- The spins of `arp_resolve`. -/
def arpSpins : Nat := 500

instance : NeZero arpCacheSize := ⟨by decide⟩

/-- `arp_entry_t`. -/
structure ArpEntry where
  ip : UInt32
  mac : List UInt8
  lastUsedMs : UInt32
  insertedMs : UInt32
  valid : Bool

/-- The table `cache`. -/
abbrev ArpCache := Fin arpCacheSize → ArpEntry

variable (cache : ArpCache)

/-- `cache_find`. -/
def cacheFind (ip : UInt32) : Option (Fin arpCacheSize) :=
  (finRange arpCacheSize).find? fun slot => (cache slot).valid && (cache slot).ip == ip

/-- The least recently used slot, as `cache_slot_for` finds it. -/
def cacheLru : Fin arpCacheSize :=
  (finRange arpCacheSize).foldl (fun lru slot =>
      if (cache slot).valid && decide ((cache slot).lastUsedMs < (cache lru).lastUsedMs) then slot
      else lru) 0

/-- `cache_slot_for`. -/
def cacheSlotFor (ip : UInt32) : Fin arpCacheSize :=
  match cacheFind cache ip with
  | some slot => slot
  | none =>
    ((finRange arpCacheSize).find? fun slot => !(cache slot).valid).getD (cacheLru cache)

/-- `cache_put`. -/
def cachePut (ip : UInt32) (mac : List UInt8) (now : UInt32) : ArpCache :=
  Function.update cache (cacheSlotFor cache ip) ⟨ip, mac, now, now, true⟩

/-- `arp_tick`. -/
def arpTick (now : UInt32) : ArpCache := fun slot =>
  if (cache slot).valid && decide (arpTtlMs < now - (cache slot).insertedMs) then
    { cache slot with valid := false }
  else cache slot

/-- `arp_input`: what it does to the cache of an interface with the address `own`. -/
def arpInput (own : UInt32) (frame : List UInt8) (now : UInt32) : ArpCache :=
  let arp := frame.drop 14
  let sender := UInt32.ofNat (readLE 4 arp 14)
  let target := UInt32.ofNat (readLE 4 arp 24)
  if frame.length < 14 + 28 then cache
  else if readBE16 arp 0 ≠ 1 ∨ readBE16 arp 2 ≠ 0x0800 then cache
  else if arp.getD 4 0 ≠ 6 ∨ arp.getD 5 0 ≠ 4 then cache
  else if readBE16 arp 6 = 1 then
    if target = own then cachePut cache sender ((arp.drop 8).take 6) now else cache
  else if readBE16 arp 6 = 2 then cachePut cache sender ((arp.drop 8).take 6) now
  else cache

/-- A slot of the ring: the frame, and the number it was enqueued with. -/
structure RxSlot where
  number : Nat
  frame : List UInt8

/-- The handler that a frame is dispatched to. -/
inductive Handler
  | arp
  | ipv4
  | ignored
  deriving DecidableEq

/-- The dispatch on the type of a frame. -/
def handlerOf (frame : List UInt8) : Handler :=
  if 14 ≤ frame.length then
    if readBE16 frame 12 = 0x0806 then .arp
    else if readBE16 frame 12 = 0x0800 then .ipv4
    else .ignored
  else .ignored

/-- `net_process_pending` while a handler runs, behind its loop, or `arp_resolve` with the spins
left. -/
inductive Activity
  | handling (handler : Handler)
  | ticking
  | resolving (ip : UInt32) (spins : Nat)
  deriving DecidableEq

/-- The front of `ring` is `rx_tail` and its back `rx_head`; `enqueued` counts the frames taken into
the ring and `dispatched` lists their numbers in the order of dispatch. -/
structure RxState where
  own : UInt32
  ring : Ring RxSlot netRxRingSize
  cache : ArpCache
  stack : List Activity
  enqueued : Nat
  dispatched : List Nat

/-- A frame arrives, `net_process_pending` is called, the running code sends, or it returns. -/
inductive RxEvent
  | enqueue (frame : List UInt8)
  | process (now : UInt32)
  | send (ip : UInt32) (now : UInt32)
  | finish (now : UInt32)

variable (state : RxState)

/-- `net_rx_enqueue`. -/
def netRxEnqueue (frame : List UInt8) : RxState :=
  if frame.length = 0 ∨ netFrameMax < frame.length then state
  else if (state.ring.back + 1) % netRxRingSize = state.ring.front then state
  else
    { state with
      ring := state.ring.push ⟨state.enqueued, frame⟩
      enqueued := state.enqueued + 1 }

/-- What dispatching a frame does at once: ARP frames are entered into the cache. -/
def dispatchFrame (slot : RxSlot) (now : UInt32) : RxState :=
  { state with
    cache := if handlerOf slot.frame = .arp then arpInput state.cache state.own slot.frame now
      else state.cache
    stack := .handling (handlerOf slot.frame) :: state.stack
    dispatched := state.dispatched ++ [slot.number] }

/-- The loop of `net_process_pending` up to the next handler, or behind it. -/
def netProcessPending (now : UInt32) : RxState :=
  if state.ring.front ≠ state.ring.back then
    dispatchFrame state (state.ring.cells state.ring.front) now
  else { state with stack := .ticking :: state.stack }

/-- `arp_resolve` for running code. -/
def arpResolve (ip now : UInt32) : RxState :=
  match cacheFind state.cache ip with
  | some slot =>
    { state with
      cache := Function.update state.cache slot { state.cache slot with lastUsedMs := now } }
  | none => netProcessPending { state with stack := .resolving ip arpSpins :: state.stack } now

/-- `arp_resolve` after a round of its loop. -/
def resumeResolve (ip : UInt32) (spins : Nat) (now : UInt32) : RxState :=
  if (cacheFind state.cache ip).isSome ∨ spins ≤ 1 then state
  else netProcessPending { state with stack := .resolving ip (spins - 1) :: state.stack } now

/-- The running code returns. -/
def finishCall (now : UInt32) : RxState :=
  match state.stack with
  | .handling _ :: rest =>
    netProcessPending { state with ring := state.ring.drop 1, stack := rest } now
  | .ticking :: .resolving ip spins :: rest =>
    resumeResolve { state with cache := arpTick state.cache now, stack := rest } ip spins now
  | .ticking :: rest => { state with cache := arpTick state.cache now, stack := rest }
  | _ => state

/-- Code that can send is running: an IPv4 handler, `tcp_tick`, or no part of the
receive path. -/
def canSend : Bool :=
  match state.stack with
  | [] => true
  | .handling handler :: _ => handler == .ipv4
  | .ticking :: _ => true
  | .resolving _ _ :: _ => false

/-- The receive path. -/
def rxStep : Machine RxState RxEvent Unit
  | state, .enqueue frame => (netRxEnqueue state frame, ())
  | state, .process now => (if state.stack = [] then netProcessPending state now else state, ())
  | state, .send ip now => (if canSend state then arpResolve state ip now else state, ())
  | state, .finish now => (finishCall state now, ())

/-- The receive path of an interface with the address `own`, at boot. -/
def bootRx (own : UInt32) : RxState where
  own := own
  ring := Ring.empty (fun _ => ⟨0, []⟩) (by decide)
  cache := fun _ => ⟨0, [], 0, 0, false⟩
  stack := []
  enqueued := 0
  dispatched := []

/-! ## Order of dispatch -/

/-- A handler is running or suspended. -/
def Activity.isHandling : Activity → Bool
  | .handling _ => true
  | _ => false

/-- `arp_resolve` waits. -/
def Activity.isResolving : Activity → Bool
  | .resolving _ _ => true
  | _ => false

/-- The numbers of the frames in the ring behind the one that is being handled. -/
def waiting : List Nat :=
  (state.ring.contents.map (·.number)).drop (if state.stack.any (·.isHandling) then 1 else 0)

/-- The frames dispatched, followed by those that wait, are those enqueued, once and in order. -/
def InOrderOnce : Prop :=
  state.dispatched ++ waiting state = range state.enqueued

/-- The loop of `net_process_pending` starts, or it goes on behind a handler. -/
def loopRound : RxEvent → Bool
  | .process _ => state.stack.isEmpty
  | .finish _ => state.stack.head?.any (·.isHandling)
  | _ => false

/-- Frames are dispatched once and in order; a round of the loop dispatches a frame if one waits;
a call leaves the loop only when all frames are dispatched; and at most one call of
`net_process_pending` is under way, in at most one of `arp_resolve`. -/
structure Delivers (event : RxEvent) : Prop where
  order : InOrderOnce (rxStep state event).1
  round : loopRound state event = true →
    (rxStep state event).1.dispatched.length = min (state.dispatched.length + 1) state.enqueued
  drained : (rxStep state event).1.stack ≠ state.stack →
    (rxStep state event).1.stack.head? = some .ticking →
      (rxStep state event).1.dispatched = range state.enqueued
  depth : (rxStep state event).1.stack.length ≤ 2

/-- What `net_process_pending` calls sends only to next hops that are in the ARP cache. -/
def Resolves : RxEvent → Prop
  | .send ip _ => canSend state = true → state.stack ≠ [] → (cacheFind state.cache ip).isSome = true
  | _ => True

/-- What holds of the receive path as long as nothing in it waits for ARP. -/
structure RxSound (state : RxState) : Prop where
  order : state.dispatched ++ (state.ring.contents.map (·.number)).drop
    (if state.stack.head?.any (·.isHandling) then 1 else 0) = range state.enqueued
  suspended : ∀ activity ∈ state.stack.tail, activity.isResolving = true
  current : state.stack.head?.any (·.isHandling) = true → state.ring.front ≠ state.ring.back
  depth : state.stack.length ≤ 2

/-- The state behind a round of the loop. -/
structure Looped (state next : RxState) : Prop where
  sound : RxSound next
  round : next.dispatched.length = min (state.dispatched.length + 1) state.enqueued
  drained : next.stack.head? = some .ticking → next.dispatched = range state.enqueued

variable {state : RxState}

lemma RxSound.inOrderOnce (sound : RxSound state) : InOrderOnce state := by
  have first : state.stack.any (·.isHandling) = state.stack.head?.any (·.isHandling) := by
    cases stackEq : state.stack with
    | nil => rfl
    | cons top rest =>
      have below : rest.any (·.isHandling) = false := by
        refine any_eq_false.mpr fun activity member handles => ?_
        have waits := sound.suspended activity (by rw [stackEq]; exact member)
        cases activity with
        | resolving ip spins => cases handles
        | _ => cases waits
      rw [any_cons, below, Bool.or_false]
      rfl
  rw [InOrderOnce, waiting, first]
  exact sound.order

/-- Without a handler under way, the loop dispatches the oldest frame. -/
theorem netProcessPending_looped (now : UInt32)
    (below : ∀ activity ∈ state.stack, activity.isResolving = true) (depth : state.stack.length ≤ 1)
    (order : state.dispatched ++ state.ring.contents.map (·.number) = range state.enqueued) :
    Looped state (netProcessPending state now) := by
  have count := congrArg length order
  rw [length_append, length_map, length_range, Ring.length_contents] at count
  unfold netProcessPending
  split
  case isTrue filled =>
    have used := mt state.ring.used_eq_zero_iff.mp filled
    refine ⟨⟨?_, below, fun _ => filled, Nat.succ_le_succ depth⟩, ?_, nofun⟩
    · simp only [dispatchFrame, head?_cons, Option.any_some, Activity.isHandling, if_true]
      rw [← order, state.ring.contents_eq_cons filled]
      simp
    · simp only [dispatchFrame, length_append, length_singleton]
      omega
  case isFalse empty =>
    have none := state.ring.used_eq_zero_iff.mpr (not_not.mp empty)
    refine ⟨⟨order, below, nofun, Nat.succ_le_succ depth⟩, ?_, fun _ => ?_⟩
    · dsimp only
      omega
    · dsimp only
      rw [← order, length_eq_zero_iff.mp (state.ring.length_contents.trans none)]
      simp

section

variable {event : RxEvent} {next : RxState} (result : (rxStep state event).1 = next)
include result

lemma delivers_of_idle (sound : RxSound next) (idle : loopRound state event = false)
    (stays : next.stack.head? = some .ticking → next.stack = state.stack) :
    RxSound (rxStep state event).1 ∧ Delivers state event := by
  subst result
  exact ⟨sound, sound.inOrderOnce, fun rounds => absurd rounds (by rw [idle]; decide),
    fun moved top => absurd (stays top) moved, sound.depth⟩

lemma delivers_of_looped {first : RxState} (looped : Looped first next)
    (dispatched : first.dispatched = state.dispatched)
    (enqueued : first.enqueued = state.enqueued) : RxSound (rxStep state event).1 ∧
      Delivers state event := by
  subst result
  refine ⟨looped.sound, looped.sound.inOrderOnce, fun _ => ?_, fun _ top => ?_, looped.sound.depth⟩
  · rw [looped.round, dispatched, enqueued]
  · rw [looped.drained top, enqueued]

end

section

variable (sound : RxSound state)
include sound

lemma netRxEnqueue_sound (frame : List UInt8) : RxSound (netRxEnqueue state frame) := by
  unfold netRxEnqueue
  split
  · exact sound
  split
  · exact sound
  case isFalse free =>
    have room : state.ring.used + 1 < netRxRingSize := by
      have back := state.ring.back_lt
      have front := state.ring.front_lt
      simp only [Ring.used, netRxRingSize] at *
      split <;> omega
    have contents := state.ring.contents_push ⟨state.enqueued, frame⟩ room
    refine ⟨?_, sound.suspended, ?_, sound.depth⟩
    · simp only [contents, map_append, map_cons, map_nil, range_succ]
      rw [← sound.order, append_assoc]
      congr 1
      apply drop_append_of_le_length
      split
      · rename_i handles
        rw [state.ring.contents_eq_cons (sound.current handles)]
        simp
      · exact Nat.zero_le _
    · intro _ same
      have empty := (Ring.used_eq_zero_iff _).mpr same
      have used := state.ring.used_push ⟨state.enqueued, frame⟩ room
      simp only at empty
      omega

lemma RxSound.of_cache : RxSound { state with cache := cache } :=
  ⟨sound.order, sound.suspended, sound.current, sound.depth⟩

lemma send_delivers {ip now : UInt32} (resolves : Resolves state (.send ip now)) :
    RxSound (rxStep state (.send ip now)).1 ∧ Delivers state (.send ip now) := by
  have result : (rxStep state (.send ip now)).1 =
    if canSend state then arpResolve state ip now else state := rfl
  cases sending : canSend state with
  | false =>
    rw [sending] at result
    exact delivers_of_idle result sound rfl fun _ => rfl
  | true =>
    rw [sending, if_pos rfl, arpResolve] at result
    cases found : cacheFind state.cache ip with
    | some slot =>
      rw [found] at result
      exact delivers_of_idle result (sound.of_cache _) rfl fun _ => rfl
    | none =>
      have outside : state.stack = [] := by
        by_contra inside
        have hit := resolves sending inside
        rw [found] at hit
        cases hit
      have order := sound.order
      rw [outside] at order
      rw [found, outside] at result
      exact delivers_of_looped result (netProcessPending_looped now
        (forall_mem_singleton.mpr rfl) le_rfl order) rfl rfl

lemma finish_delivers (now : UInt32) :
    RxSound (rxStep state (.finish now)).1 ∧ Delivers state (.finish now) := by
  have suspended := sound.suspended
  have depth := sound.depth
  have order := sound.order
  have result : (rxStep state (.finish now)).1 = finishCall state now := rfl
  unfold finishCall at result
  split at result
  case h_1 handler rest stackEq =>
    rw [stackEq] at suspended depth order
    have filled := mt state.ring.used_eq_zero_iff.mp (sound.current (by rw [stackEq]; rfl))
    refine delivers_of_looped result (netProcessPending_looped now suspended
      (Nat.le_of_succ_le_succ depth) ?_) rfl rfl
    rw [Ring.contents_drop state.ring (Nat.pos_of_ne_zero filled), map_drop]
    exact order
  case h_2 ip spins rest stackEq =>
    rw [stackEq] at depth order
    obtain rfl : rest = [] := by simpa using depth
    unfold resumeResolve at result
    split at result
    · refine delivers_of_idle result ⟨order, nofun, nofun, Nat.zero_le _⟩ ?_ nofun
      rw [loopRound, stackEq]
      rfl
    · exact delivers_of_looped result (netProcessPending_looped now
        (forall_mem_singleton.mpr rfl) le_rfl order) rfl rfl
  case h_3 rest unresolved stackEq =>
    rw [stackEq] at suspended order
    obtain rfl : rest = [] := by
      cases rest with
      | nil => rfl
      | cons activity rest =>
        have waits := suspended activity mem_cons_self
        cases activity with
        | resolving ip spins => exact absurd rfl (unresolved ip spins rest)
        | _ => cases waits
    refine delivers_of_idle result ⟨order, nofun, nofun, Nat.zero_le _⟩ ?_ nofun
    rw [loopRound, stackEq]
    rfl
  case h_4 unhandled _ _ =>
    refine delivers_of_idle result sound ?_ fun _ => rfl
    cases stackEq : state.stack with
    | nil => rw [loopRound, stackEq]; rfl
    | cons top rest =>
      cases top with
      | handling handler => exact absurd stackEq (unhandled handler rest)
      | _ => rw [loopRound, stackEq]; rfl

/-- Every event delivers and leaves the receive path sound, if nothing in it waits for ARP. -/
theorem rxStep_delivers {event : RxEvent} (resolves : Resolves state event) :
    RxSound (rxStep state event).1 ∧ Delivers state event := by
  cases event with
  | enqueue frame =>
    have stack : (netRxEnqueue state frame).stack = state.stack := by
      unfold netRxEnqueue
      split
      · rfl
      · split <;> rfl
    exact delivers_of_idle rfl (netRxEnqueue_sound sound frame) rfl fun _ => stack
  | process now =>
    have result : (rxStep state (.process now)).1 =
      if state.stack = [] then netProcessPending state now else state := rfl
    by_cases outside : state.stack = []
    · have order := sound.order
      rw [outside] at order
      rw [if_pos outside] at result
      exact delivers_of_looped result (netProcessPending_looped now (by simp [outside])
        (by simp [outside]) order) rfl rfl
    · rw [if_neg outside] at result
      exact delivers_of_idle result sound (by simp [loopRound, outside]) fun _ => rfl
  | send ip now => exact send_delivers sound resolves
  | finish now => exact finish_delivers sound now

end

/-- A handler or a `tcp_tick` that waits for ARP has another call under way inside of it. -/
theorem resolves_of_delivers {event : RxEvent} (delivers : Delivers state event) :
    Resolves state event := by
  cases event with
  | send ip now =>
    intro sending inside
    cases found : cacheFind state.cache ip with
    | some slot => rfl
    | none =>
      exfalso
      have depth := delivers.depth
      have longer : (rxStep state (.send ip now)).1.stack.length = state.stack.length + 2 := by
        simp only [rxStep, sending, if_true, arpResolve, found, netProcessPending, dispatchFrame]
        split <;> rfl
      have some := length_pos_of_ne_nil inside
      omega
  | _ => trivial

/-- Along every run from boot, every frame is dispatched once and in the order of arrival, each call
of `net_process_pending` empties the ring, and the calls nest no deeper than one call in one of
`arp_resolve`, if and only if no handler and no `tcp_tick` sends to a next hop that is missing from
the ARP cache. -/
theorem frames_delivered_iff_resolves (own : UInt32) (events : List RxEvent) :
    rxStep.Along Delivers (bootRx own) events ↔ rxStep.Along Resolves (bootRx own) events := by
  apply Machine.along_iff_of_invariant (I := RxSound)
  · intro state event sound resolves
    exact (rxStep_delivers sound resolves).1
  · intro state event sound
    exact ⟨resolves_of_delivers, fun resolves => (rxStep_delivers sound resolves).2⟩
  · exact ⟨rfl, nofun, nofun, Nat.zero_le _⟩

/-- An echo request from `10.0.2.2` to `10.0.2.15`. -/
def echoRequestFrame : List UInt8 :=
  [2, 2, 2, 2, 2, 2, 1, 1, 1, 1, 1, 1, 8, 0,
    0x45, 0, 0, 28, 0, 1, 0, 0, 64, 1, 0x62, 0xd0, 10, 0, 2, 2, 10, 0, 2, 15,
    8, 0, 0xf7, 0xfd, 0, 1, 0, 1]

/-- The echo request arrives and is dispatched; `icmp_input` replies to the sender,
which is not in the ARP cache: the same frame is dispatched again and two handlers
are under way. -/
theorem echo_request_is_dispatched_twice : (rxStep.run (bootRx 0x0f02000a)
        [.enqueue echoRequestFrame, .process 0, .send 0x0202000a 0]).dispatched = [0, 0] ∧
      (rxStep.run (bootRx 0x0f02000a)
        [.enqueue echoRequestFrame, .process 0, .send 0x0202000a 0]).stack =
        [.handling .ipv4, .resolving 0x0202000a 500, .handling .ipv4] ∧
      ¬InOrderOnce (rxStep.run (bootRx 0x0f02000a)
        [.enqueue echoRequestFrame, .process 0, .send 0x0202000a 0]) := by
  refine ⟨by decide +kernel, by decide +kernel, ?_⟩
  unfold InOrderOnce
  decide +kernel

end CupidOs.Net
