import CupidOs.Scheduler.Exclusive
import Mathlib.Data.Fintype.Card

/-!
# Round robin

On one processor `schedule_locked` searches behind the slot that it picked last.  So a process that
waits comes nearer with each process that is picked before it, and as long as a process waits, each
call of `schedule` picks one.
-/

namespace CupidOs.Scheduler

open Finset Transition

/-- The process that a call switches to. -/
def picked (k : Kernel) : Call → Option Nat
  | .schedule smashed => selected bootCpu smashed k
  | _ => none

/-- `process.c` on one processor.  The result is the process that is switched to. -/
def oneCpu : Machine Kernel Call (Option Nat) := fun k call =>
  (perform k bootCpu call, picked k call)

/-- A call of `schedule` picks a process that was ready.  If there is none, it picks the idle
process or stays. -/
def PicksReady (k : Kernel) : Call → Prop
  | .schedule smashed =>
    (∃ i : Slot, selected bootCpu smashed k = some (i.val + 1) ∧ Marked k i .ready) ∨
      (∀ i, ¬ Marked k i .ready) ∧ ∀ pid ∈ selected bootCpu smashed k, pid = 1
  | _ => True

/-- A process is ready, and a call does not pick it. -/
def Passes (i : Slot) (k : Kernel) (call : Call) : Prop :=
  Marked k i .ready ∧ picked k call ≠ some (i.val + 1)

instance (i : Slot) (k : Kernel) (call : Call) : Decidable (Passes i k call) :=
  inferInstanceAs (Decidable (_ ∧ _))

/-- The call is one of `schedule`. -/
def Call.isSchedule : Call → Bool
  | .schedule _ => true
  | _ => false

/-- The slots with a process. -/
def occupied (k : Kernel) : Finset Slot := univ.filter fun i => (k.table i).pid ≠ 0

/-- The scheduler is on and knows the number of processes. -/
structure Counted (k : Kernel) : Prop where
  active : k.schedulerActive = true
  counts : k.processCount.toNat = (occupied k).card

variable {k k' : Kernel} {c : Cpu} {i j : Slot} {smashed : Bool} {call : Call}

/-! ## The number of processes -/

lemma mem_occupied : i ∈ occupied k ↔ (k.table i).pid ≠ 0 := by
  simp [occupied]

namespace Counted

variable (counted : Counted k)
include counted

lemma of_pids (active : k'.schedulerActive = k.schedulerActive)
    (count : k'.processCount = k.processCount)
    (pids : ∀ i, (k'.table i).pid = (k.table i).pid) : Counted k' := by
  have same : occupied k' = occupied k := by
    ext i
    rw [mem_occupied, mem_occupied, pids]
  exact ⟨active.trans counted.active, by rw [count, same, counted.counts]⟩

lemma set {p : Process} (pid : p.pid = (k.table i).pid) : Counted (k.set i p) := by
  refine counted.of_pids rfl rfl fun j => ?_
  by_cases same : j = i
  · subst same
    rw [table_set_self, pid]
  · rw [table_set_of_ne _ _ same]

lemma one_le (somebody : (k.table i).pid ≠ 0) : 1 ≤ k.processCount := by
  have some := card_pos.mpr ⟨i, mem_occupied.mpr somebody⟩
  rwa [UInt32.le_iff_toNat_le, UInt32.toNat_one, counted.counts]

lemma clear (somebody : (k.table i).pid ≠ 0) :
    Counted { k.clear i with processCount := k.processCount - 1 } := by
  have rest : occupied { k.clear i with processCount := k.processCount - 1 } =
      (occupied k).erase i := by
    ext j
    rw [mem_erase, mem_occupied, mem_occupied]
    by_cases same : j = i
    · subst same
      simp [Process.zero]
    · simp [same]
  have here := card_erase_add_one (mem_occupied.mpr somebody)
  have counts := counted.counts
  refine ⟨counted.active, ?_⟩
  rw [rest, UInt32.toNat_sub_of_le _ _ (counted.one_le somebody), UInt32.toNat_one]
  omega

lemma place (free : (k.table i).pid = 0) : Counted (place i k) := by
  have more : occupied (Scheduler.place i k) = insert i (occupied k) := by
    ext j
    rw [mem_insert, mem_occupied, mem_occupied]
    by_cases same : j = i
    · subst same
      simp [Scheduler.place]
    · rw [table_place_of_ne same]
      simp [same]
  have new : i ∉ occupied k := fun mem => mem_occupied.mp mem free
  have few := card_lt_univ_of_notMem new
  have counts := counted.counts
  rw [← counts, Fintype.card_fin, maxProcesses] at few
  refine ⟨counted.active, ?_⟩
  rw [more, card_insert_of_notMem new, ← counts]
  refine (UInt32.toNat_add _ _).trans ?_
  rw [UInt32.toNat_one]
  omega

lemma on_of_marked {state : ProcessState} (marked : Marked k i state) :
    ¬ (k.processCount = 0 ∨ k.schedulerActive = false) := by
  rintro (none | inactive)
  · have some := counted.one_le marked.1
    rw [none] at some
    cases some
  · rw [counted.active] at inactive
    cases inactive

omit counted

lemma stable : Stable Counted (· ≠ 0) where
  cpus := fun _ _ counted => counted.of_pids rfl rfl fun _ => rfl
  set := fun _ counted pid _ => counted.set pid
  clear := fun counted somebody => counted.clear somebody
  place := fun counted free => counted.place free
  occupied := fun _ => id
  reapSlot := by
    intro k i counted
    unfold reapSlot
    split
    · exact counted
    · rename_i dead
      have somebody := (not_or.mp dead).2
      have positive : (k.clear i).processCount > 0 :=
        UInt32.lt_of_lt_of_le (by decide) (counted.one_le somebody)
      dsimp only
      rw [if_pos positive]
      exact counted.clear somebody

end Counted

/-! ## The search -/

lemma nextScheduleIndex_switchTo (cur : Nat) (next : Slot) (k : Kernel) :
    (switchTo bootCpu cur next k).nextScheduleIndex = k.nextScheduleIndex := by
  unfold switchTo
  dsimp only
  split <;> rfl

lemma nextScheduleIndex_reap (k : Kernel) :
    (processReapTerminated k).nextScheduleIndex = k.nextScheduleIndex := by
  unfold processReapTerminated
  induction List.finRange maxProcesses generalizing k with
  | nil => rfl
  | cons i slots ih =>
    refine (ih _).trans ?_
    unfold reapSlot
    split <;> rfl

lemma nextScheduleIndex_perform (other : ∀ smashed, call ≠ .schedule smashed) :
    (perform k bootCpu call).nextScheduleIndex = k.nextScheduleIndex := by
  have effect := effect_perform k bootCpu call
  generalize perform k bootCpu call = k' at effect
  cases effect with
  | schedules smashed => exact absurd rfl (other smashed)
  | reaps => exact nextScheduleIndex_reap k
  | creates reaped i =>
    have placed : ∀ k, (place i k).nextScheduleIndex = k.nextScheduleIndex := fun _ => rfl
    rw [placed, reaped, nextScheduleIndex_reap]
  | _ => rfl

/-! ## One processor -/

/-- Only the first processor has a process, and it is in a table that the scheduler knows. -/
structure Alone (k : Kernel) : Prop extends Sound k where
  others : ∀ d, d ≠ bootCpu → (k.cpus d).current = 0
  counted : Counted k

lemma alone_boot : Alone boot :=
  ⟨sound_boot, by decide +kernel, by decide +kernel, by decide +kernel⟩

namespace Alone

variable (alone : Alone k)
include alone

lemma step (call : Call) : Alone (oneCpu k call).1 := by
  have free : ∀ pid, 0 < pid → ¬ ∃ d, d ≠ bootCpu ∧ (k.cpus d).current = pid := by
    rintro _ positive ⟨d, ne, rfl⟩
    rw [alone.others d ne] at positive
    cases positive
  refine ⟨@Sound.step k alone.toSound (bootCpu, call) ?_ ?_, fun d ne => ?_,
    Counted.stable.perform alone.counted call fun i has => ?_⟩
  · cases call with
    | schedule smashed => exact fun falls => free 1 Nat.one_pos falls.2.2
    | _ => exact not_false
  · cases call with
    | kill pid => exact fun theft => free pid (Nat.zero_lt_of_lt theft.1) theft.2
    | exit =>
      rintro ⟨idle, i, -, -, d, has⟩
      refine free (i + 1) (Nat.succ_pos _) ⟨d, ?_, has⟩
      rintro rfl
      omega
    | _ => exact not_false
  · by_cases schedules : ∃ smashed, call = .schedule smashed
    · obtain ⟨smashed, rfl⟩ := schedules
      exact (congrArg CpuState.current ((schedules bootCpu smashed k).cpus_of_ne ne)).trans
        (alone.others d ne)
    · rcases current_perform k bootCpu d (fun smashed same => schedules ⟨smashed, same⟩)
        with same | none
      · exact same.trans (alone.others d ne)
      · exact none
  · have number := (alone.running has).1
    omega

/-- While a process is ready, a call of `schedule` picks it or one that is nearer. -/
theorem schedule_of_marked (smashed : Bool) (ready : Marked k j .ready) :
    ∃ n : Slot, selected bootCpu smashed k = some (n.val + 1) ∧ Marked k n .ready ∧
      (scheduleLocked bootCpu smashed k).nextScheduleIndex = n ∧
        (n = j ∨ gap n j < gap k.nextScheduleIndex j) := by
  obtain ⟨n, found, index, nearer⟩ := alone.toSound.searched_of_marked (c := bootCpu) smashed ready
  have candidate := isCandidate_of_searched found
  have marked := (alone.toSound.isCandidate_retire_iff smashed n).mp candidate
  have ends := schedules bootCpu smashed k
  refine ⟨n, ?_⟩
  generalize scheduleLocked bootCpu smashed k = k', selected bootCpu smashed k = chosen at ends ⊢
  cases ends with
  | off off => exact absurd off (alone.counted.on_of_marked ready)
  | lonely decided =>
    rw [decided] at found
    cases found
  | again decided choice own =>
    rw [decided] at found candidate
    obtain rfl : _ = some n := found
    obtain rfl := choice
    exact absurd own (of_decide_eq_true candidate).2.1
  | switches decided choice _ somebody =>
    have number := numbered_searched alone.wellFormed decided somebody
    rw [decided] at found index
    obtain rfl : _ = some n := found
    obtain rfl := choice
    refine ⟨congrArg some number, marked, ?_, nearer⟩
    rw [nextScheduleIndex_switchTo, index]

lemma picksReady (call : Call) : PicksReady k call := by
  cases call with
  | schedule smashed =>
    by_cases ready : ∃ i, Marked k i .ready
    · obtain ⟨j, ready⟩ := ready
      obtain ⟨n, selects, marked, -⟩ := alone.schedule_of_marked smashed ready
      exact .inl ⟨n, selects, marked⟩
    · have nothing := not_exists.mp ready
      refine .inr ⟨nothing, fun pid selects => ?_⟩
      have ends := schedules bootCpu smashed k
      rw [Option.mem_def.mp selects] at ends
      generalize scheduleLocked bootCpu smashed k = k' at ends
      cases ends with
      | @switches k' cur found next decided choice other somebody =>
        have number := numbered_searched alone.wellFormed decided somebody
        cases found with
        | some i =>
          have candidate := isCandidate_of_searched (congrArg (fun decided => decided.2.2) decided)
          exact absurd ((alone.toSound.isCandidate_retire_iff smashed i).mp candidate) (nothing i)
        | none =>
          obtain rfl : next = idleSlot := choice
          exact number
  | _ => trivial

/-- A call that passes a process by brings it nearer if it is one of `schedule`. -/
lemma gap_step (passes : Passes j k call) :
    gap (perform k bootCpu call).nextScheduleIndex j + (if call.isSchedule = true then 1 else 0) ≤
      gap k.nextScheduleIndex j := by
  by_cases schedules : ∃ smashed, call = .schedule smashed
  · obtain ⟨smashed, rfl⟩ := schedules
    obtain ⟨n, selects, -, index, nearer⟩ := alone.schedule_of_marked smashed passes.1
    have less := nearer.resolve_left fun same => passes.2 (same ▸ selects)
    simp only [perform, Call.isSchedule, if_true, index]
    exact less
  · rw [nextScheduleIndex_perform fun smashed is => schedules ⟨smashed, is⟩]
    cases call with
    | schedule smashed => exact absurd ⟨smashed, rfl⟩ schedules
    | _ => exact le_rfl

/-- At most as many calls of `schedule` pass a process by that is ready as there are slots in front
of it. -/
lemma countP_le {calls : List Call} (passes : oneCpu.Along (Passes j) k calls) :
    calls.countP Call.isSchedule ≤ gap k.nextScheduleIndex j := by
  induction calls generalizing k with
  | nil => exact Nat.zero_le _
  | cons call calls ih =>
    have first := alone.gap_step passes.1
    have rest := ih (alone.step call) passes.2
    rw [List.countP_cons]
    exact (Nat.add_le_add_right rest _).trans first

end Alone

/-- On one processor, from every table, in whatever way processes are created, blocked, unblocked
and ended meanwhile: a call of `schedule` picks a process that was ready, and the idle process or
none only if nothing is ready; and a process that stays ready is passed by at most 31 times, so it
is picked by one of 32 calls of `schedule`. -/
theorem round_robin (alone : Alone k) (calls : List Call) :
    oneCpu.Along PicksReady k calls ∧
      ∀ j : Slot, oneCpu.Along (Passes j) k calls →
        calls.countP Call.isSchedule ≤ maxProcesses - 1 := by
  constructor
  · exact Machine.along_of_invariant (G := fun _ _ => True)
      (fun _ call alone _ => alone.step call) (fun _ call alone _ => alone.picksReady call) alone
      (Machine.along_forall_iff.mpr fun _ _ => trivial)
  · intro j passes
    have near : gap k.nextScheduleIndex j < maxProcesses := Nat.mod_lt _ (by decide)
    have few := alone.countP_le passes
    omega

/-- A new process is picked before the idle process. -/
theorem round_robin_new_process :
    [Call.schedule false].countP Call.isSchedule ≤ maxProcesses - 1 :=
  (round_robin (alone_boot.step (.create true true)) [.schedule false]).2 idleSlot
    (by decide +kernel)

end CupidOs.Scheduler
