import CupidOs.Scheduler.Exclusive
import CupidOs.Sync.Tickets

/-!
# The big kernel lock

`bkl.c` together with the scheduler. The lock has one depth for the whole machine, and `schedule`
takes it on one stack and releases it on another. So the model counts the pairs of `bkl_lock` and
`bkl_unlock` that each thread has open, in `pairs` for the running threads and in `saved` for
those in a slot. The counters say what the code on a stack will still do.
-/

namespace CupidOs.Smp

open Function Scheduler Sync Transition

/-- `bkl_t` -/
structure Bkl where
  ticketHead : UInt32
  ticketTail : UInt32
  ownerCpu : Option Cpu
  depth : UInt32
  deriving DecidableEq

/-- `bkl_init` -/
def bklInit : Bkl := ⟨0, 0, none, 0⟩

/-- The kernel with its lock.  A processor in the loop of `bkl_lock` waits with a ticket. -/
structure System where
  kernel : Kernel
  klock : Bkl
  waiting : Cpu → Option UInt32
  pairs : Cpu → Nat
  saved : Slot → Nat

/-- The stores of `bkl_lock` in front of its loop, or all of it if the processor has the lock. -/
def bklLock (c : Cpu) (s : System) : System :=
  if s.klock.ownerCpu = some c then
    { s with
      klock := { s.klock with depth := s.klock.depth + 1 }
      pairs := update s.pairs c (s.pairs c + 1) }
  else
    { s with
      klock := { s.klock with ticketTail := s.klock.ticketTail + 1 }
      waiting := update s.waiting c (some s.klock.ticketTail) }

/-- One turn of the loop of `bkl_lock`, with the stores behind the loop if it ends. -/
def bklSpin (c : Cpu) (ticket : UInt32) (s : System) : System :=
  if s.klock.ticketHead ≠ ticket then s
  else
    { s with
      klock := { s.klock with ownerCpu := some c, depth := 1 }
      waiting := update s.waiting c none
      pairs := update s.pairs c (s.pairs c + 1) }

/-- The stores of `bkl_unlock` to the lock -/
def Bkl.unlock (lock : Bkl) : Bkl :=
  if lock.depth = 0 then lock
  else if lock.depth - 1 = 0 then
    { lock with depth := lock.depth - 1, ownerCpu := none, ticketHead := lock.ticketHead + 1 }
  else
    { lock with depth := lock.depth - 1 }

/-- `bkl_unlock` -/
def bklUnlock (c : Cpu) (s : System) : System :=
  { s with
    klock := s.klock.unlock
    pairs := update s.pairs c (s.pairs c - 1) }

/-- The slot that `schedule_locked` decides for. -/
def chosen (c : Cpu) (smashed : Bool) (k : Kernel) : Slot :=
  (searched c smashed k).2.2.getD idleSlot

/-- The process that `schedule_locked` switches to has never run. -/
def NeverRan (c : Cpu) (smashed : Bool) (k : Kernel) : Prop :=
  (selected c smashed k).isSome ∧
    ((searched c smashed k).1.table (chosen c smashed k)).context.fresh = true

/-- The open pairs of the threads in the slots, when `context_switch` has saved the current
one. -/
def savePairs (cur pairs : Nat) (saved : Slot → Nat) (i : Slot) : Nat :=
  if cur = i + 1 then pairs else saved i

/-- `schedule_locked`. A process that has never run has no pair open. -/
def switch (c : Cpu) (smashed : Bool) (s : System) : System :=
  let kernel := scheduleLocked c smashed s.kernel
  if (selected c smashed s.kernel).isSome then
    let saved := savePairs (searched c smashed s.kernel).2.1 (s.pairs c) s.saved
    let next := chosen c smashed s.kernel
    let resumed := if (kernel.table next).context.fresh then 0 else saved next
    { s with kernel, saved, pairs := update s.pairs c resumed }
  else
    { s with kernel }

/-- A call of the lock, one turn of the loop in `bkl_lock`, or a section of `process.c`. -/
inductive Action where
  | lock
  | spin
  | unlock
  | inside (call : Call)
  deriving DecidableEq

/-- The section on a processor. -/
def enter (c : Cpu) (s : System) : Call → System
  | .schedule smashed => switch c smashed s
  | call => { s with kernel := perform s.kernel c call }

/-- In the loop of `bkl_lock` a processor only goes on with the loop; sections are inside a pair. -/
def act (s : System) (c : Cpu) (action : Action) : System :=
  match s.waiting c, action with
  | some ticket, .spin => bklSpin c ticket s
  | some _, _ => s
  | none, .lock => bklLock c s
  | none, .spin => s
  | none, .unlock => bklUnlock c s
  | none, .inside call => if s.pairs c = 0 then s else enter c s call

/-- All processors together. -/
def systemMachine : Machine System (Cpu × Action) Unit := fun s call => (act s call.1 call.2, ())

/-- Behind the start of the scheduler nobody has the lock. -/
def start : System := ⟨boot, bklInit, fun _ => none, fun _ => 0, fun _ => 0⟩

/-! ## The tickets -/

/-- The lock as a ticket lock. -/
def System.tickets (s : System) : Tickets Cpu :=
  ⟨s.klock.ticketHead, s.klock.ticketTail, s.klock.ownerCpu.isSome, s.waiting⟩

/-- The tickets are in order, and the lock has a depth only if it has an owner. -/
structure Orderly (s : System) : Prop where
  fair : s.tickets.Fair
  owned : s.klock.depth ≠ 0 → s.klock.ownerCpu.isSome

variable {s : System} {c : Cpu}

lemma klock_enter (c : Cpu) (s : System) (call : Call) : (enter c s call).klock = s.klock := by
  cases call with
  | schedule smashed =>
    rw [enter, switch]
    dsimp only
    split <;> rfl
  | _ => simp only [enter]

lemma waiting_enter (c : Cpu) (s : System) (call : Call) :
    (enter c s call).waiting = s.waiting := by
  cases call with
  | schedule smashed =>
    rw [enter, switch]
    dsimp only
    split <;> rfl
  | _ => simp only [enter]

lemma Orderly.enter (orderly : Orderly s) (c : Cpu) (call : Call) : Orderly (enter c s call) := by
  have tickets : (Smp.enter c s call).tickets = s.tickets := by
    rw [System.tickets, klock_enter, waiting_enter]
    rfl
  refine ⟨?_, ?_⟩
  · rw [tickets]
    exact orderly.fair
  · rw [klock_enter]
    exact orderly.owned

lemma Orderly.lock (orderly : Orderly s) (free : s.waiting c = none) : Orderly (bklLock c s) := by
  unfold bklLock
  split
  · rename_i owner
    refine ⟨orderly.fair, fun _ => ?_⟩
    rw [owner]
    rfl
  · exact ⟨orderly.fair.take free (by decide), orderly.owned⟩

lemma Orderly.spin (orderly : Orderly s) {ticket : UInt32} (waits : s.waiting c = some ticket) :
    Orderly (bklSpin c ticket s) := by
  unfold bklSpin
  split
  · exact orderly
  rename_i served
  obtain rfl := not_not.mp served
  exact ⟨orderly.fair.serve waits, fun _ => rfl⟩

/-- `bkl_unlock` is a release if it ends the last level of the lock. -/
theorem Orderly.unlock (orderly : Orderly s) (c : Cpu) : Orderly (bklUnlock c s) := by
  unfold bklUnlock Bkl.unlock
  by_cases none : s.klock.depth = 0
  · rw [if_pos none]
    exact ⟨orderly.fair, orderly.owned⟩
  have owned := orderly.owned none
  rw [if_neg none]
  split
  · rename_i last
    exact ⟨orderly.fair.release owned, fun deep => absurd last deep⟩
  · exact ⟨orderly.fair, fun _ => owned⟩

lemma orderly_start : Orderly start := by
  refine ⟨⟨?_, nofun, nofun, nofun⟩, nofun⟩
  decide +kernel

end CupidOs.Smp
