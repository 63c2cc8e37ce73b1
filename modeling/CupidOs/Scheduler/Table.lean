import CupidOs.Transition.Run
import Mathlib.Data.Fintype.Basic

/-!
# The process table

`process.c` as a machine whose calls are the critical sections under the big kernel lock. Any
processor may make any call at any time, so the runs cover every interleaving.

A stack is a number that `kmalloc` hands out once, behind those of the boot stacks. The current
process of a processor and the stack that it executes on are set apart, as the source sets them at
different times.
-/

namespace CupidOs.Scheduler

open Function List Transition

/-- `MAX_PROCESSES` -/
def maxProcesses : Nat := 32

/-- `SMP_MAX_CPUS` -/
def smpMaxCpus : Nat := 32

/-- An index of `process_table`. -/
abbrev Slot := Fin maxProcesses

/-- A processor. -/
abbrev Cpu := Fin smpMaxCpus

/-- `process_state_t` -/
inductive ProcessState where
  | ready
  | running
  | blocked
  | terminated
  deriving DecidableEq

/-- The stack that the saved `esp` points into, and whether `eip` is the entry point. -/
structure Context where
  stack : Nat
  fresh : Bool
  deriving DecidableEq

/-- `process_t` -/
structure Process where
  pid : Nat
  state : ProcessState
  stackBase : Option Nat
  onCpu : UInt8
  context : Context
  deriving DecidableEq

/-- A slot behind `memset`. -/
def Process.zero : Process := ⟨0, .ready, none, 0, ⟨0, false⟩⟩

/-- What the scheduler keeps for a processor, and the stack that the processor executes on. -/
structure CpuState where
  current : Nat
  stack : Nat
  deriving DecidableEq

/-- The state of `process.c`, the freed stacks and the number of the next stack. -/
structure Kernel where
  table : Slot → Process
  nextScheduleIndex : Slot
  processCount : UInt32
  schedulerActive : Bool
  cpus : Cpu → CpuState
  nextStack : Nat
  freed : List Nat

/-- The slot of a process number. -/
def slotOf (pid : Nat) : Option Slot :=
  if bounds : 1 ≤ pid ∧ pid ≤ maxProcesses then some ⟨pid - 1, by omega⟩ else none

namespace Kernel

/-- Write a slot. -/
def set (k : Kernel) (i : Slot) (p : Process) : Kernel :=
  { k with table := update k.table i p }

/-- Write what is kept for a processor. -/
def setCpu (k : Kernel) (c : Cpu) (state : CpuState) : Kernel :=
  { k with cpus := update k.cpus c state }

/-- `this_cpu()->current_pid = pid` -/
def setCurrent (k : Kernel) (c : Cpu) (pid : Nat) : Kernel :=
  k.setCpu c { k.cpus c with current := pid }

/-- `kfree` of a stack, unless the pointer is null -/
def kfree (k : Kernel) (stack : Option Nat) : Kernel :=
  { k with freed := k.freed ++ stack.toList }

/-- Free the stack of a process and clear its slot. -/
def clear (k : Kernel) (i : Slot) : Kernel :=
  (k.kfree (k.table i).stackBase).set i .zero

end Kernel

/-! ## Creating and ending processes -/

/-- The body of the loop of `process_reap_terminated`. -/
def reapSlot (k : Kernel) (i : Slot) : Kernel :=
  if (k.table i).state ≠ .terminated ∨ (k.table i).pid = 0 then k
  else
    let k := k.clear i
    { k with processCount := if k.processCount > 0 then k.processCount - 1 else k.processCount }

/-- `process_reap_terminated` -/
def processReapTerminated (k : Kernel) : Kernel := (finRange maxProcesses).foldl reapSlot k

/-- `find_free_slot` -/
def findFreeSlot (k : Kernel) : Option Slot :=
  (finRange maxProcesses).find? fun i => (k.table i).pid = 0

/-- `process_create_common`.  The entry point may be null, and `kmalloc` may fail. -/
def processCreate (entry granted : Bool) (k : Kernel) : Kernel :=
  let k := processReapTerminated k
  if entry = false then k
  else if k.processCount.toNat ≥ maxProcesses then k
  else
    match findFreeSlot k with
    | none => k
    | some i =>
      if granted = false then k
      else
        let k := k.set i ⟨i + 1, .ready, some k.nextStack, 0xFF, ⟨k.nextStack, true⟩⟩
        { k with processCount := k.processCount + 1, nextStack := k.nextStack + 1 }

variable (c : Cpu)

/-- The process that `process_exit` ends. -/
def exitPid (k : Kernel) : Nat :=
  if (k.cpus c).current = 0 then
    match (finRange maxProcesses).find? fun i =>
        (k.table i).pid ≠ 0 ∧ (k.table i).state = .running with
    | some i => (k.table i).pid
    | none => 0
  else
    (k.cpus c).current

/-- Mark a process as terminated and leave it, while its stack stays in use. -/
def terminate (i : Slot) (k : Kernel) : Kernel :=
  (k.set i { k.table i with state := .terminated, onCpu := 0xFF }).setCurrent c 0

/-- `process_exit` up to its call of `schedule` -/
def processExit (k : Kernel) : Kernel :=
  if exitPid c k = 0 ∨ exitPid c k = 1 then k
  else
    match slotOf (exitPid c k) with
    | none => k
    | some i => terminate c i k

/-- `process_kill` up to `schedule`. The numbers from 96 to 99 are not in the table. -/
def processKill (pid : Nat) (k : Kernel) : Kernel :=
  if pid = 0 ∨ pid = 1 then k
  else if 96 ≤ pid ∧ pid ≤ 99 then k
  else
    match slotOf pid with
    | none => k
    | some i =>
      if (k.table i).pid = 0 then k
      else if pid = (k.cpus c).current then terminate c i k
      else
        let k := k.clear i
        { k with processCount := k.processCount - 1 }

/-- `process_block` -/
def processBlock (pid : Nat) (k : Kernel) : Kernel :=
  if pid = 0 ∨ pid = 1 then k
  else
    match slotOf pid with
    | none => k
    | some i =>
      if (k.table i).pid = pid ∧ (k.table i).state = .ready then
        k.set i { k.table i with state := .blocked }
      else k

/-- `process_unblock` -/
def processUnblock (pid : Nat) (k : Kernel) : Kernel :=
  match slotOf pid with
  | none => k
  | some i =>
    if (k.table i).pid = pid ∧ (k.table i).state = .blocked then
      k.set i { k.table i with state := .ready }
    else k

/-! ## Scheduling -/

/-- Mark the current process as ready, if it is still running. -/
def markReady (i : Slot) (k : Kernel) : Kernel :=
  if (k.table i).pid ≠ 0 ∧ (k.table i).state = .running then
    k.set i { k.table i with state := .ready, onCpu := 0xFF }
  else k

/-- The start of `schedule_locked`: the current process is made ready, or ended if its canary is
gone. The result has the number that is current from then on. -/
def retire (smashed : Bool) (k : Kernel) : Kernel × Nat :=
  match slotOf (k.cpus c).current with
  | none => (k, (k.cpus c).current)
  | some i =>
    let k := markReady i k
    if (k.table i).stackBase.isSome ∧ smashed = true then
      let k := k.clear i
      ({ k with processCount := k.processCount - 1 }.setCurrent c 0, 0)
    else
      (k, (k.cpus c).current)

/-- The slot can be switched to. -/
def isCandidate (k : Kernel) (cur : Nat) (i : Slot) : Bool :=
  (k.table i).pid ≠ 0 ∧ (k.table i).pid ≠ cur ∧ (k.table i).state = .ready

/-- The slot behind another one, in a circle. -/
def nextSlot (i : Slot) : Slot := ⟨(i + 1) % maxProcesses, Nat.mod_lt _ (by decide)⟩

/-- The search of `schedule_locked`: where it stops, and what it found. -/
def search (k : Kernel) (cur : Nat) : Nat → Slot → Slot × Option Slot
  | 0, index => (index, none)
  | searches + 1, index =>
    if isCandidate k cur (nextSlot index) then (nextSlot index, some (nextSlot index))
    else search k cur searches (nextSlot index)

/-- The slot of the idle process. -/
def idleSlot : Slot := ⟨0, by decide⟩

/-- `context_switch` on a processor, with the stores in front of it. -/
def switchTo (cur : Nat) (next : Slot) (k : Kernel) : Kernel :=
  let k := k.set next { k.table next with state := .running, onCpu := UInt8.ofNat c }
  let k' :=
    match slotOf cur with
    | some old => k.set old { k.table old with context := ⟨(k.cpus c).stack, false⟩ }
    | none => k
  k'.setCpu c ⟨(k.table next).pid, (k'.table next).context.stack⟩

/-- `schedule_locked` behind its search: the state, the current number and what was found. -/
def searched (smashed : Bool) (k : Kernel) : Kernel × Nat × Option Slot :=
  let (k, cur) := retire c smashed k
  let (index, found) := search k cur maxProcesses k.nextScheduleIndex
  ({ k with nextScheduleIndex := index }, cur, found)

/-- The end of `schedule_locked`. -/
def resume : Kernel × Nat × Option Slot → Kernel
  | (k, cur, found) =>
    let next := found.getD idleSlot
    if found = none ∧ (k.table idleSlot).pid = 0 then
      match slotOf cur with
      | some i => k.set i { k.table i with state := .running }
      | none => k
    else if (k.table next).pid = cur ∧ cur ≠ 0 then
      k.set next { k.table next with state := .running, onCpu := UInt8.ofNat c }
    else
      switchTo c cur next k

/-- `schedule_locked`.  The flag tells whether the canary of the current stack is gone. -/
def scheduleLocked (smashed : Bool) (k : Kernel) : Kernel :=
  if k.processCount = 0 ∨ k.schedulerActive = false then k
  else resume c (searched c smashed k)

/-! ## Runs -/

/-- The calls of `process.c`. -/
inductive Call where
  | schedule (smashed : Bool)
  | create (entry granted : Bool)
  | exit
  | kill (pid : Nat)
  | list
  | block (pid : Nat)
  | unblock (pid : Nat)
  deriving DecidableEq

/-- One critical section on a processor.  `process_list` reaps before it prints. -/
def perform (k : Kernel) (c : Cpu) : Call → Kernel
  | .schedule smashed => scheduleLocked c smashed k
  | .create entry granted => processCreate entry granted k
  | .exit => processExit c k
  | .kill pid => processKill c pid k
  | .list => processReapTerminated k
  | .block pid => processBlock pid k
  | .unblock pid => processUnblock pid k

/-- All processors together. -/
def kernelMachine : Machine Kernel (Cpu × Call) Unit := fun k call => (perform k call.1 call.2, ())

/-- `process_register_current` on a processor, for the thread that runs there already -/
def processRegisterCurrent (k : Kernel) : Kernel :=
  let k := processReapTerminated k
  if k.processCount.toNat ≥ maxProcesses then k
  else
    match findFreeSlot k with
    | none => k
    | some i =>
      let k := k.set i ⟨i + 1, .running, none, UInt8.ofNat c, ⟨0, false⟩⟩
      { k with processCount := k.processCount + 1 }.setCurrent c (i + 1)

/-- The memory that `process_init` clears, with every processor on its boot stack. -/
def emptyKernel : Kernel where
  table _ := .zero
  nextScheduleIndex := ⟨0, by decide⟩
  processCount := 0
  schedulerActive := false
  cpus c := ⟨0, c + 1⟩
  nextStack := smpMaxCpus + 1
  freed := []

/-- The boot processor: the first one. -/
def bootCpu : Cpu := ⟨0, by decide⟩

/-- `process_init`, the registration of the main thread and `process_start_scheduler` -/
def boot : Kernel :=
  { processRegisterCurrent bootCpu (processCreate true true emptyKernel) with
    schedulerActive := true }

/-! ## What the operations leave alone -/

variable (k : Kernel) (i : Slot)

@[simp]
lemma table_set_self (p : Process) : (k.set i p).table i = p :=
  update_self ..

@[simp]
lemma table_set_of_ne {i j : Slot} (p : Process) (ne : j ≠ i) :
    (k.set i p).table j = k.table j :=
  update_of_ne ne ..

@[simp]
lemma cpus_clear : (k.clear i).cpus = k.cpus :=
  rfl

@[simp]
lemma table_clear_self : (k.clear i).table i = .zero :=
  table_set_self ..

@[simp]
lemma table_clear_of_ne {i j : Slot} (ne : j ≠ i) : (k.clear i).table j = k.table j :=
  table_set_of_ne _ _ ne

@[simp]
lemma table_setCurrent (pid : Nat) : (k.setCurrent c pid).table = k.table :=
  rfl

@[simp]
lemma cpus_setCurrent_self (pid : Nat) :
    (k.setCurrent c pid).cpus c = { k.cpus c with current := pid } :=
  update_self ..

lemma cpus_setCurrent_of_ne {c d : Cpu} (pid : Nat) (ne : d ≠ c) :
    (k.setCurrent c pid).cpus d = k.cpus d :=
  update_of_ne ne ..

@[simp]
lemma cpus_markReady (k : Kernel) : (markReady i k).cpus = k.cpus := by
  unfold markReady
  split <;> rfl

@[simp]
lemma freed_markReady (k : Kernel) : (markReady i k).freed = k.freed := by
  unfold markReady
  split <;> rfl

lemma table_markReady_of_ne {i j : Slot} (ne : j ≠ i) : (markReady i k).table j = k.table j := by
  unfold markReady
  split
  · exact table_set_of_ne k _ ne
  · rfl

/-- The mark leaves the number, the stack and the context. -/
theorem table_markReady_self (k : Kernel) : ((markReady i k).table i).pid = (k.table i).pid ∧
      ((markReady i k).table i).stackBase = (k.table i).stackBase ∧
        ((markReady i k).table i).context = (k.table i).context := by
  unfold markReady
  split
  · rw [table_set_self]
    exact ⟨rfl, rfl, rfl⟩
  · exact ⟨rfl, rfl, rfl⟩

lemma slotOf_eq_some_iff {pid : Nat} {i : Slot} : slotOf pid = some i ↔ pid = i + 1 := by
  unfold slotOf
  constructor
  · intro some
    split at some
    · rename_i bounds
      obtain rfl := Option.some_inj.mp some
      simp only
      omega
    · cases some
  · rintro rfl
    have bound := i.isLt
    rw [dif_pos ⟨by omega, by omega⟩]
    rfl

/-- What is reaped from a table. -/
def reaped (p : Process) : Process := if p.state ≠ .terminated ∨ p.pid = 0 then p else .zero

lemma table_reapSlot (j : Slot) :
    (reapSlot k i).table j = if j = i then reaped (k.table j) else k.table j := by
  unfold reapSlot reaped
  by_cases same : j = i
  · subst same
    rw [if_pos rfl]
    split
    · rfl
    · exact table_clear_self k j
  · rw [if_neg same]
    split
    · rfl
    · exact table_clear_of_ne k same

lemma foldl_reapSlot (slots : List Slot) (k : Kernel) : (slots.foldl reapSlot k).cpus = k.cpus ∧
      ∀ j, (slots.foldl reapSlot k).table j =
        if j ∈ slots then reaped (k.table j) else k.table j := by
  induction slots generalizing k with
  | nil => exact ⟨rfl, fun j => by simp⟩
  | cons i slots ih =>
    obtain ⟨cpus, table⟩ := ih (reapSlot k i)
    have sameCpus : (reapSlot k i).cpus = k.cpus := by
      unfold reapSlot
      split <;> rfl
    refine ⟨cpus.trans sameCpus, fun j => ?_⟩
    have twice : ∀ p, reaped (reaped p) = reaped p := by
      intro p
      unfold reaped
      split <;> rfl
    rw [foldl_cons, table, table_reapSlot]
    by_cases same : j = i
    · subst same
      simp [twice]
    · simp [same]

@[simp]
lemma cpus_processReapTerminated : (processReapTerminated k).cpus = k.cpus :=
  (foldl_reapSlot _ k).1

lemma table_processReapTerminated (j : Slot) :
    (processReapTerminated k).table j = reaped (k.table j) := by
  rw [processReapTerminated, (foldl_reapSlot _ k).2, if_pos (mem_finRange j)]

end CupidOs.Scheduler
