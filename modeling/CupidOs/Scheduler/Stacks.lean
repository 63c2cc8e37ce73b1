import CupidOs.Scheduler.Table

/-!
# The stacks of processes are freed once

Every stack that `kmalloc` hands out is in one slot until it is passed to `kfree`, and the call
that frees it clears the slot. So no stack is freed twice.

Whether a processor still executes on the stack is another matter: none of the three places that
free one asks. A call is safe exactly if no slot that it clears has a stack that some processor
executes on.
-/

namespace CupidOs.Scheduler

open List Option Transition

variable {k : Kernel} {c d : Cpu}

/-! ## What a call does -/

/-- The slots that `process_reap_terminated` clears. -/
def reapable (k : Kernel) (i : Slot) : Bool := (k.table i).state = .terminated ∧ (k.table i).pid ≠ 0

/-- The slot that `schedule_locked` clears, if the canary of the current process is gone. -/
def smashedSlot (k : Kernel) (c : Cpu) (smashed : Bool) : Option Slot :=
  if k.processCount = 0 ∨ k.schedulerActive = false then none
  else (slotOf (k.cpus c).current).filter fun i => (k.table i).stackBase.isSome ∧ smashed = true

/-- The slot that `process_kill` clears, unless the process is the one that kills. -/
def killedSlot (k : Kernel) (c : Cpu) (pid : Nat) : Option Slot :=
  if pid = 0 ∨ pid = 1 ∨ 96 ≤ pid ∧ pid ≤ 99 ∨ pid = (k.cpus c).current then none
  else (slotOf pid).filter fun i => (k.table i).pid ≠ 0

/-- The slots that a call clears. -/
def clearedSlots (k : Kernel) (c : Cpu) : Call → List Slot
  | .schedule smashed => (smashedSlot k c smashed).toList
  | .create _ _ => (finRange maxProcesses).filter (reapable k)
  | .exit => []
  | .kill pid => (killedSlot k c pid).toList
  | .list => (finRange maxProcesses).filter (reapable k)
  | .block _ => []
  | .unblock _ => []

/-- A new process in a free slot. -/
def place (i : Slot) (k : Kernel) : Kernel :=
  { k.set i ⟨i + 1, .ready, some k.nextStack, 0xFF, ⟨k.nextStack, true⟩⟩ with
    processCount := k.processCount + 1, nextStack := k.nextStack + 1 }

lemma table_place_of_ne {i j : Slot} (ne : j ≠ i) : (place i k).table j = k.table j :=
  table_set_of_ne _ _ ne

lemma cpus_place (i : Slot) (k : Kernel) : (place i k).cpus = k.cpus :=
  rfl

/-- What a call can do to the table. -/
inductive Effect (k : Kernel) (c : Cpu) : Call → Kernel → Prop
  | schedules (smashed : Bool) : Effect k c (.schedule smashed) (scheduleLocked c smashed k)
  | nothing {call : Call} (clears : clearedSlots k c call = []) : Effect k c call k
  | reaps {call : Call} (clears : clearedSlots k c call = (finRange maxProcesses).filter (reapable k)) :
      Effect k c call (processReapTerminated k)
  | creates {entry granted : Bool} {k' : Kernel} (reaped : k' = processReapTerminated k) (i : Slot)
      (free : (k'.table i).pid = 0) : Effect k c (.create entry granted) (place i k')
  | exits (i : Slot) (pid : exitPid c k = i + 1) (high : 1 < exitPid c k) :
      Effect k c .exit (terminate c i k)
  | leaves (i : Slot) (high : 1 < i.val + 1) (clears : killedSlot k c (i + 1) = none) :
      Effect k c (.kill (i + 1)) (terminate c i k)
  | kills (i : Slot) (high : 1 < i.val + 1) (clears : killedSlot k c (i + 1) = some i)
      (other : (k.cpus c).current ≠ i + 1) :
      Effect k c (.kill (i + 1)) { k.clear i with processCount := k.processCount - 1 }
  | marks {call : Call} (i : Slot) (state : ProcessState) (clears : clearedSlots k c call = [])
      (waits : (k.table i).state = .ready ∨ (k.table i).state = .blocked) :
      Effect k c call (k.set i { k.table i with state := state })

lemma effect_create (k : Kernel) (c : Cpu) (entry granted : Bool) :
    Effect k c (.create entry granted) (processCreate entry granted k) := by
  have reaps : Effect k c (.create entry granted) (processReapTerminated k) := .reaps rfl
  unfold processCreate
  generalize reaped : processReapTerminated k = k' at reaps
  dsimp only
  split
  · exact reaps
  split
  · exact reaps
  split
  · exact reaps
  rename_i i free
  split
  · exact reaps
  · have unused := find?_some free
    exact .creates reaped.symm i (of_decide_eq_true unused)

lemma effect_kill (k : Kernel) (c : Cpu) (pid : Nat) :
    Effect k c (.kill pid) (processKill c pid k) := by
  have spared (none : killedSlot k c pid = none) : clearedSlots k c (.kill pid) = [] := by
    rw [clearedSlots, none, toList_none]
  unfold processKill
  split
  · rename_i low
    exact .nothing (spared (if_pos (by tauto)))
  rename_i low
  split
  · rename_i virtual
    exact .nothing (spared (if_pos (by tauto)))
  rename_i virtual
  split
  · rename_i slot
    exact .nothing (spared (by rw [killedSlot, slot]; exact ite_self _))
  rename_i i slot
  obtain rfl := slotOf_eq_some_iff.mp slot
  split
  · rename_i nobody
    exact .nothing (spared (by simp [killedSlot, slot, nobody]))
  rename_i somebody
  split
  · rename_i own
    exact .leaves i (by omega) (if_pos (by tauto))
  · rename_i other
    refine .kills i (by omega) ?_ (Ne.symm other)
    rw [killedSlot, if_neg (by tauto), slot, filter_some, if_pos (decide_eq_true somebody)]

lemma effect_perform (k : Kernel) (c : Cpu) (call : Call) : Effect k c call (perform k c call) := by
  cases call with
  | schedule smashed => exact .schedules smashed
  | create entry granted => exact effect_create k c entry granted
  | exit =>
    unfold perform processExit
    dsimp only
    split
    · exact .nothing rfl
    rename_i high
    split
    · exact .nothing rfl
    · rename_i i slot
      exact .exits i (slotOf_eq_some_iff.mp slot) (by omega)
  | kill pid => exact effect_kill k c pid
  | list => exact .reaps rfl
  | block pid =>
    unfold perform processBlock
    dsimp only
    split
    · exact .nothing rfl
    split
    · exact .nothing rfl
    split
    · rename_i i _ ready
      exact .marks i .blocked rfl (.inl ready.2)
    · exact .nothing rfl
  | unblock pid =>
    unfold perform processUnblock
    dsimp only
    split
    · exact .nothing rfl
    split
    · rename_i i _ blocked
      exact .marks i .ready rfl (.inr blocked.2)
    · exact .nothing rfl

/-- The parts of a call keep a property: what is kept for a processor and where the search starts do
not matter, and a slot is only cleared if its number allows it. -/
structure Stable (P : Kernel → Prop) (Clearable : Nat → Prop) : Prop where
  cpus : ∀ {k} cpus index, P k → P { k with cpus := cpus, nextScheduleIndex := index }
  set : ∀ {k i} p, P k → p.pid = (k.table i).pid → p.stackBase = (k.table i).stackBase →
    P (k.set i p)
  clear : ∀ {k i}, P k → Clearable (k.table i).pid →
    P { k.clear i with processCount := k.processCount - 1 }
  reapSlot : ∀ {k} i, P k → P (reapSlot k i)
  place : ∀ {k i}, P k → (k.table i).pid = 0 → P (place i k)
  occupied : ∀ pid, pid ≠ 0 → Clearable pid

/-! ## What the parts keep, a call keeps -/

namespace Stable

variable {P : Kernel → Prop} {Clearable : Nat → Prop} (stable : Stable P Clearable) (holds : P k)
include stable holds

lemma reap : P (processReapTerminated k) := by
  unfold processReapTerminated
  induction finRange maxProcesses generalizing k with
  | nil => exact holds
  | cons i slots ih => exact ih (stable.reapSlot i holds)

lemma terminate (c : Cpu) (i : Slot) : P (terminate c i k) :=
  stable.cpus _ _ (stable.set { k.table i with state := .terminated, onCpu := 0xFF } holds rfl rfl)

lemma retire (smashed : Bool)
    (clearable : ∀ i : Slot, (k.cpus c).current = i + 1 → Clearable (k.table i).pid) :
    P (retire c smashed k).1 := by
  unfold Scheduler.retire
  split
  · exact holds
  rename_i i slot
  have marked : P (markReady i k) := by
    unfold markReady
    split
    · exact stable.set _ holds rfl rfl
    · exact holds
  dsimp only
  split
  · refine stable.cpus _ _ (stable.clear marked ?_)
    rw [(table_markReady_self i k).1]
    exact clearable i (slotOf_eq_some_iff.mp slot)
  · exact marked

lemma switchTo (c : Cpu) (cur : Nat) (next : Slot) : P (switchTo c cur next k) := by
  have running := stable.set { k.table next with state := .running, onCpu := UInt8.ofNat c } holds
    rfl rfl
  unfold Scheduler.switchTo
  generalize k.set next { k.table next with state := .running, onCpu := UInt8.ofNat c } = k'
    at running
  dsimp only
  split
  · rename_i old _
    exact stable.cpus _ _ (stable.set { k'.table old with context := ⟨(k'.cpus c).stack, false⟩ }
      running rfl rfl)
  · exact stable.cpus _ _ running

lemma resume (c : Cpu) (cur : Nat) (found : Option Slot) : P (resume c (k, cur, found)) := by
  unfold Scheduler.resume
  dsimp only
  split
  · split
    · exact stable.set _ holds rfl rfl
    · exact holds
  split
  · exact stable.set _ holds rfl rfl
  · exact stable.switchTo holds c cur _

/-- The step lemma. -/
theorem perform (call : Call)
    (clearable : ∀ i : Slot, (k.cpus c).current = i + 1 → Clearable (k.table i).pid) :
    P (perform k c call) := by
  have effect := effect_perform k c call
  generalize Scheduler.perform k c call = k' at effect
  cases effect with
  | schedules smashed =>
    unfold scheduleLocked
    split
    · exact holds
    · exact stable.resume (stable.cpus _ _ (stable.retire holds smashed clearable)) c _ _
  | nothing => exact holds
  | reaps => exact stable.reap holds
  | creates reaped i free => exact stable.place (reaped ▸ stable.reap holds) free
  | exits i => exact stable.terminate holds c i
  | leaves i => exact stable.terminate holds c i
  | kills i _ clears =>
    have kept : (slotOf (i + 1)).filter (fun i => (k.table i).pid ≠ 0) = some i := by
      unfold killedSlot at clears
      split at clears
      · cases clears
      · exact clears
    exact stable.clear holds (stable.occupied _ (of_decide_eq_true (mem_filter_iff.mp kept).2))
  | marks i => exact stable.set _ holds rfl rfl

end Stable

/-- Every slot has its own number and its own stack, and no stack was freed twice. -/
structure WellFormed (k : Kernel) : Prop where
  numbered : ∀ i, (k.table i).pid = 0 ∨ (k.table i).pid = i + 1
  owned : ∀ i stack, (k.table i).stackBase = some stack → stack < k.nextStack ∧ stack ∉ k.freed
  distinct : ∀ i j stack, (k.table i).stackBase = some stack → (k.table j).stackBase = some stack →
    i = j
  below : ∀ stack ∈ k.freed, stack < k.nextStack
  once : k.freed.Nodup

/-! ## A call keeps the table well formed -/

namespace WellFormed

section

variable (wellFormed : WellFormed k)
include wellFormed

/-- Only the slots, the freed stacks and the number of the next stack matter. -/
theorem of_eq {k' : Kernel} (table : k'.table = k.table)
    (freed : k'.freed = k.freed) (nextStack : k'.nextStack = k.nextStack) : WellFormed k' := by
  refine ⟨?_, ?_, ?_, ?_, ?_⟩
  · rw [table]
    exact wellFormed.numbered
  · rw [table, freed, nextStack]
    exact wellFormed.owned
  · rw [table]
    exact wellFormed.distinct
  · rw [freed, nextStack]
    exact wellFormed.below
  · rw [freed]
    exact wellFormed.once

/-- A slot is written: its stack stays, is freed, or is a new one. -/
theorem change {k' : Kernel} (i : Slot) {p : Process} (gone : Option Nat)
    (table : k'.table = Function.update k.table i p) (pid : p.pid = 0 ∨ p.pid = i + 1)
    (grows : k.nextStack ≤ k'.nextStack) (freed : k'.freed = k.freed ++ gone.toList)
    (own : ∀ stack ∈ gone, (k.table i).stackBase = some stack)
    (base : ∀ stack, p.stackBase = some stack → (k.table i).stackBase = some stack ∧ gone = none ∨
      stack = k.nextStack ∧ stack < k'.nextStack) : WellFormed k' := by
  have source : ∀ j stack, (k'.table j).stackBase = some stack →
      (k.table j).stackBase = some stack ∧ stack ∉ gone ∨
        j = i ∧ stack = k.nextStack ∧ stack < k'.nextStack := by
    intro j stack has
    rw [table] at has
    by_cases same : j = i
    · subst same
      rw [Function.update_self] at has
      rcases base stack has with ⟨old, rfl⟩ | new
      · exact .inl ⟨old, nofun⟩
      · exact .inr ⟨rfl, new⟩
    · rw [Function.update_of_ne same] at has
      exact .inl ⟨has, fun out => same (wellFormed.distinct j i stack has (own stack out))⟩
  have below : ∀ stack ∈ k'.freed, stack < k.nextStack := by
    intro stack mem
    rw [freed, mem_append, mem_toList] at mem
    rcases mem with old | out
    · exact wellFormed.below stack old
    · exact (wellFormed.owned i stack (own stack out)).1
  refine ⟨fun j => ?_, fun j stack has => ?_, fun a b stack hasA hasB => ?_,
    fun stack mem => (below stack mem).trans_le grows, ?_⟩
  · rw [table]
    by_cases same : j = i
    · subst same
      rwa [Function.update_self]
    · rw [Function.update_of_ne same]
      exact wellFormed.numbered j
  · rcases source j stack has with ⟨old, stays⟩ | ⟨-, new, bound⟩
    · obtain ⟨bound, live⟩ := wellFormed.owned j stack old
      refine ⟨bound.trans_le grows, ?_⟩
      rw [freed, mem_append, mem_toList]
      exact not_or.mpr ⟨live, stays⟩
    · exact ⟨bound, fun mem => absurd (below stack mem) (by omega)⟩
  · rcases source a stack hasA with ⟨oldA, -⟩ | ⟨rfl, new, -⟩
    · rcases source b stack hasB with ⟨oldB, -⟩ | ⟨-, new, -⟩
      · exact wellFormed.distinct a b stack oldA oldB
      · have bound := (wellFormed.owned a stack oldA).1
        omega
    · rcases source b stack hasB with ⟨oldB, -⟩ | ⟨rfl, -⟩
      · have bound := (wellFormed.owned b stack oldB).1
        omega
      · rfl
  · rw [freed]
    refine wellFormed.once.append (by cases gone <;> simp) fun stack old out => ?_
    exact (wellFormed.owned i stack (own stack (mem_toList.mp out))).2 old

lemma put (i : Slot) {p : Process} (pid : p.pid = 0 ∨ p.pid = i + 1)
    (base : ∀ stack, p.stackBase = some stack → (k.table i).stackBase = some stack) :
    WellFormed (k.set i p) :=
  wellFormed.change i none rfl pid le_rfl (append_nil _).symm nofun
    fun stack has => .inl ⟨base stack has, rfl⟩

lemma set (i : Slot) {p : Process} (pid : p.pid = (k.table i).pid)
    (base : p.stackBase = (k.table i).stackBase) : WellFormed (k.set i p) := by
  refine wellFormed.put i ?_ fun stack has => base.symm.trans has
  rw [pid]
  exact wellFormed.numbered i

lemma clear (i : Slot) : WellFormed (k.clear i) :=
  wellFormed.change i (k.table i).stackBase rfl (.inl rfl) le_rfl rfl (fun _ => id) nofun

lemma place (i : Slot) : WellFormed (place i k) := by
  refine wellFormed.change i none rfl (.inr rfl) (Nat.le_succ _) (append_nil _).symm nofun ?_
  rintro stack ⟨⟩
  exact .inr ⟨rfl, Nat.lt_succ_self _⟩

end

lemma stable : Stable WellFormed fun _ => True where
  cpus := fun _ _ wellFormed => wellFormed.of_eq rfl rfl rfl
  set := fun _ wellFormed pid base => wellFormed.set _ pid base
  clear := fun wellFormed _ => (wellFormed.clear _).of_eq rfl rfl rfl
  place := fun wellFormed _ => wellFormed.place _
  occupied := fun _ _ => trivial
  reapSlot := by
    intro k i wellFormed
    unfold reapSlot
    split
    · exact wellFormed
    · exact (wellFormed.clear i).of_eq rfl rfl rfl

lemma perform (wellFormed : WellFormed k) (c : Cpu) (call : Call) : WellFormed (perform k c call) :=
  stable.perform wellFormed call fun _ _ => trivial

end WellFormed

lemma wellFormed_emptyKernel : WellFormed emptyKernel := by
  refine ⟨fun _ => .inl rfl, ?_, ?_, ?_, nodup_nil⟩
  · intro i stack base
    cases base
  · intro i j stack base
    cases base
  · intro stack mem
    cases mem

lemma wellFormed_boot : WellFormed boot := by
  have created : WellFormed (processCreate true true emptyKernel) :=
    wellFormed_emptyKernel.perform bootCpu (.create true true)
  have idle := WellFormed.stable.reap created
  have registered : WellFormed
      (processRegisterCurrent bootCpu (processCreate true true emptyKernel)) := by
    unfold processRegisterCurrent
    generalize processReapTerminated (processCreate true true emptyKernel) = k at idle
    dsimp only
    split
    · exact idle
    split
    · exact idle
    rename_i i _
    have put := idle.put i (p := ⟨i + 1, .running, none, UInt8.ofNat bootCpu, ⟨0, false⟩⟩)
      (.inr rfl) nofun
    exact put.of_eq rfl rfl rfl
  unfold boot
  generalize processRegisterCurrent bootCpu (processCreate true true emptyKernel) = k at registered
  exact registered.of_eq rfl rfl rfl

/-! ## What a call frees -/

/-- The stacks of some slots. -/
def stacksOf (k : Kernel) (slots : List Slot) : List Nat :=
  slots.flatMap fun i => (k.table i).stackBase.toList

@[simp]
lemma stacksOf_nil (k : Kernel) : stacksOf k [] = [] :=
  rfl

lemma mem_stacksOf {slots : List Slot} {stack : Nat} :
    stack ∈ stacksOf k slots ↔ ∃ i ∈ slots, (k.table i).stackBase = some stack := by
  simp [stacksOf]

lemma freed_clear (k : Kernel) (i : Slot) : (k.clear i).freed = k.freed ++ stacksOf k [i] := by
  simp [stacksOf, Kernel.clear, Kernel.kfree, Kernel.set]

lemma freed_reapSlot (k : Kernel) (i : Slot) : (reapSlot k i).freed =
      if reapable k i = true then k.freed ++ (k.table i).stackBase.toList else k.freed := by
  unfold reapSlot reapable
  by_cases dead : (k.table i).state = .terminated ∧ (k.table i).pid ≠ 0
  · rw [if_neg (by tauto), if_pos (decide_eq_true dead)]
    rfl
  · rw [if_pos (by tauto), if_neg (by rw [decide_eq_true_iff]; exact dead)]

lemma freed_reapSlots (slots : List Slot) (nodup : slots.Nodup) (k : Kernel) :
    (slots.foldl reapSlot k).freed = k.freed ++ stacksOf k (slots.filter (reapable k)) := by
  induction slots generalizing k with
  | nil => simp
  | cons i slots ih =>
    obtain ⟨notMem, nodup⟩ := nodup_cons.mp nodup
    -- Clearing one slot changes neither the test nor the stack of a later one.
    have same : ∀ j ∈ slots, (reapSlot k i).table j = k.table j := by
      intro j mem
      rw [table_reapSlot, if_neg (ne_of_mem_of_not_mem mem notMem)]
    have tests : slots.filter (reapable (reapSlot k i)) = slots.filter (reapable k) := by
      refine filter_congr fun j mem => ?_
      rw [reapable, reapable, same j mem]
    have stacks' : stacksOf (reapSlot k i) (slots.filter (reapable k)) =
        stacksOf k (slots.filter (reapable k)) := by
      refine flatMap_congr fun j mem => ?_
      rw [same j (mem_of_mem_filter mem)]
    rw [foldl_cons, ih nodup, tests, stacks', filter_cons]
    have freed := freed_reapSlot k i
    by_cases dead : reapable k i = true
    · rw [if_pos dead] at freed ⊢
      rw [freed, append_assoc]
      rfl
    · rw [if_neg dead] at freed ⊢
      rw [freed]

lemma freed_processReapTerminated (k : Kernel) : (processReapTerminated k).freed =
      k.freed ++ stacksOf k ((finRange maxProcesses).filter (reapable k)) :=
  freed_reapSlots _ (nodup_finRange _) k

lemma freed_retire (c : Cpu) (smashed : Bool) (k : Kernel) :
    (retire c smashed k).1.freed = k.freed ++ stacksOf k
      ((slotOf (k.cpus c).current).filter fun i =>
        (k.table i).stackBase.isSome ∧ smashed = true).toList := by
  unfold retire
  cases slot : slotOf (k.cpus c).current with
  | none => simp
  | some i =>
    have base := (table_markReady_self i k).2.1
    dsimp only
    rw [filter_some, base]
    by_cases gone : (k.table i).stackBase.isSome ∧ smashed = true
    · rw [if_pos gone, if_pos (decide_eq_true gone)]
      apply (freed_clear (markReady i k) i).trans
      rw [freed_markReady]
      simp [stacksOf, base]
    · rw [if_neg gone, decide_eq_false gone]
      simp

lemma freed_resume (c : Cpu) (decided : Kernel × Nat × Option Slot) :
    (resume c decided).freed = decided.1.freed := by
  obtain ⟨k, cur, found⟩ := decided
  unfold resume switchTo
  dsimp only
  split
  · split <;> rfl
  split
  · rfl
  · dsimp only [Kernel.setCpu]
    split <;> rfl

lemma freed_scheduleLocked (k : Kernel) (c : Cpu) (smashed : Bool) :
    (scheduleLocked c smashed k).freed = k.freed ++ stacksOf k (smashedSlot k c smashed).toList := by
  unfold scheduleLocked smashedSlot
  split
  · simp
  · rw [freed_resume]
    exact freed_retire c smashed k

lemma freed_perform (k : Kernel) (c : Cpu) (call : Call) :
    (perform k c call).freed = k.freed ++ stacksOf k (clearedSlots k c call) := by
  have effect := effect_perform k c call
  generalize perform k c call = k' at effect
  cases effect with
  | schedules smashed => exact freed_scheduleLocked k c smashed
  | nothing clears => rw [clears, stacksOf_nil, append_nil]
  | reaps clears => rw [clears, freed_processReapTerminated]
  | creates reaped i =>
    exact (congrArg Kernel.freed reaped).trans (freed_processReapTerminated k)
  | exits i => exact (append_nil _).symm
  | leaves i _ clears => rw [clearedSlots, clears]; exact (append_nil _).symm
  | kills i _ clears => rw [clearedSlots, clears]; exact freed_clear k i
  | marks i state clears => rw [clears]; exact (append_nil _).symm

/-! ## Runs -/

/-- A call frees no stack a second time, and it frees none that some processor executes on. -/
def FreesSafely (k : Kernel) (call : Cpu × Call) : Prop :=
  (kernelMachine k call).1.freed.Nodup ∧
    ∀ stack ∈ (kernelMachine k call).1.freed, stack ∉ k.freed → ∀ d, (k.cpus d).stack ≠ stack

/-- Some processor executes on the stack of the slot. -/
def Executed (k : Kernel) (i : Slot) : Prop :=
  ∃ d, (k.table i).stackBase = some (k.cpus d).stack

/-- A call clears a slot although some processor executes on its stack. -/
def ClearsExecuted (k : Kernel) : Cpu × Call → Prop
  | (c, call) => ∃ i ∈ clearedSlots k c call, Executed k i

lemma freesSafely_iff (wellFormed : WellFormed k) (call : Cpu × Call) :
    FreesSafely k call ↔ ¬ ClearsExecuted k call := by
  obtain ⟨c, call⟩ := call
  have freed : (kernelMachine k (c, call)).1.freed =
      k.freed ++ stacksOf k (clearedSlots k c call) :=
    freed_perform k c call
  unfold FreesSafely
  rw [freed]
  constructor
  · rintro ⟨-, safe⟩ ⟨i, cleared, d, base⟩
    have live := (wellFormed.owned i _ base).2
    have mem : (k.cpus d).stack ∈ stacksOf k (clearedSlots k c call) :=
      mem_stacksOf.mpr ⟨i, cleared, base⟩
    exact safe _ (mem_append_right _ mem) live d rfl
  · intro safe
    refine ⟨freed ▸ (wellFormed.perform c call).once, ?_⟩
    rintro stack mem new d rfl
    rcases mem_append.mp mem with old | cleared
    · exact new old
    · obtain ⟨i, cleared, base⟩ := mem_stacksOf.mp cleared
      exact safe ⟨i, cleared, d, base⟩

end CupidOs.Scheduler
