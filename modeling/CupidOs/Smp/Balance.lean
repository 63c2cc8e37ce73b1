import CupidOs.Smp.Bkl

/-!
# Balance of the big kernel lock

A thread that was saved inside `schedule` closes the pair of `schedule` when it goes on. A process
that has never run starts at its entry point, where nothing closes the pair that the thread before
it had opened, and the lock stays with the processor.

The depth of the lock is the number of pairs that the thread of its owner has open, in a run in
which every `bkl_unlock` closes a pair and `schedule` is not called inside of one, exactly if no
process is started that has never run. Then a waiting processor is served after as many last pairs
as there are processors.
-/

namespace CupidOs.Smp

open Function Option Scheduler Sync Transition

variable {s : System} {k : Kernel} {c : Cpu}

/-! ## The threads in the slots -/

/-- The slot of the main thread, which runs before it is ever saved. -/
def mainSlot : Slot := ⟨1, by decide⟩

/-- The process of a slot has never run or was saved inside one pair. -/
def Started (p : Process) (pairs : Nat) : Prop := p.context.fresh = true ∨ pairs = 1

/-- A process that can be switched to has never run or was saved inside one pair. -/
def Resumable (k : Kernel) (saved : Slot → Nat) : Prop :=
  ∀ i, (k.table i).pid ≠ 0 → Started (k.table i) (saved i) ∨
    i = mainSlot ∧ (k.table i).state ≠ .ready ∧ (k.table i).state ≠ .blocked

namespace Resumable

variable {saved : Slot → Nat}

section

variable (resumable : Resumable k saved)
include resumable

lemma of_table_eq {k' : Kernel} (table : k'.table = k.table) :
    Resumable k' saved := by
  unfold Resumable
  rw [table]
  exact resumable

lemma set (i : Slot) {p : Process} (written : p.pid ≠ 0 → Started p (saved i) ∨
      i = mainSlot ∧ p.state ≠ .ready ∧ p.state ≠ .blocked) : Resumable (k.set i p) saved := by
  intro j
  by_cases same : j = i
  · subst same
    rw [table_set_self]
    exact written
  · rw [table_set_of_ne k p same]
    exact resumable j

lemma clear (i : Slot) : Resumable (k.clear i) saved := by
  intro j
  by_cases same : j = i
  · subst same
    rw [table_clear_self]
    exact fun nonzero => absurd rfl nonzero
  · rw [table_clear_of_ne k same]
    exact resumable j

lemma reap : Resumable (processReapTerminated k) saved := by
  intro i
  rw [table_processReapTerminated, reaped]
  split
  · exact resumable i
  · exact fun nonzero => absurd rfl nonzero

lemma terminate (c : Cpu) (i : Slot) : Resumable (terminate c i k) saved := by
  have marked : Resumable (k.set i { k.table i with state := .terminated, onCpu := 0xFF }) saved :=
    resumable.set i fun nonzero => (resumable i nonzero).imp id
      fun isMain => ⟨isMain.1, nofun, nofun⟩
  exact marked.of_table_eq rfl

/-- A process that is ready or blocked can change between the two. -/
theorem setState {i : Slot}
    (waits : (k.table i).state = .ready ∨ (k.table i).state = .blocked) (state : ProcessState) :
    Resumable (k.set i { k.table i with state := state }) saved := by
  refine resumable.set i fun nonzero => .inl ?_
  apply (resumable i nonzero).resolve_right
  rintro ⟨-, notReady, notBlocked⟩
  exact waits.elim notReady notBlocked

/-- Every call but `schedule`. -/
theorem perform (c : Cpu) {call : Call}
    (other : ∀ smashed, call ≠ .schedule smashed) : Resumable (perform k c call) saved := by
  have effect := effect_perform k c call
  generalize Scheduler.perform k c call = k' at effect
  cases effect with
  | schedules smashed => exact absurd rfl (other smashed)
  | nothing => exact resumable
  | reaps => exact resumable.reap
  | creates same i =>
    have reaped := resumable.reap
    rw [← same] at reaped
    exact (reaped.set i fun _ => .inl (.inl rfl)).of_table_eq rfl
  | exits i => exact resumable.terminate c i
  | leaves i => exact resumable.terminate c i
  | kills i => exact (resumable.clear i).of_table_eq rfl
  | marks i state _ waits => exact resumable.setState waits state

end

end Resumable

/-- Inside `schedule_locked` the main thread may be marked as ready before it is saved. -/
def AlmostResumable (k : Kernel) (cur : Nat) (saved : Slot → Nat) : Prop :=
  ∀ i, (k.table i).pid ≠ 0 → Started (k.table i) (saved i) ∨
    i = mainSlot ∧ (cur = i + 1 ∨ (k.table i).state ≠ .ready ∧ (k.table i).state ≠ .blocked)

variable {saved : Slot → Nat}

lemma Resumable.retire (resumable : Resumable k saved) (c : Cpu) (smashed : Bool) :
    AlmostResumable (retire c smashed k).1 (retire c smashed k).2 saved := by
  have almost : ∀ cur, AlmostResumable k cur saved := fun cur i nonzero =>
    (resumable i nonzero).imp id fun isMain => ⟨isMain.1, .inr isMain.2⟩
  unfold Scheduler.retire
  split
  · exact almost _
  rename_i j slot
  have number := slotOf_eq_some_iff.mp slot
  have marked : AlmostResumable (markReady j k) (j + 1) saved := by
    intro i nonzero
    by_cases same : i = j
    · subst same
      obtain ⟨pid, -, context⟩ := table_markReady_self i k
      rw [pid] at nonzero
      refine (resumable i nonzero).imp (fun started => ?_) fun isMain => ⟨isMain.1, .inl rfl⟩
      rw [Started, context]
      exact started
    · rw [table_markReady_of_ne k same] at nonzero ⊢
      exact almost _ i nonzero
  dsimp only
  split
  · intro i
    rw [table_setCurrent]
    dsimp only
    by_cases same : i = j
    · subst same
      rw [table_clear_self]
      exact fun nonzero => absurd rfl nonzero
    · rw [table_clear_of_ne _ same, table_markReady_of_ne k same]
      exact almost 0 i
  · rw [cpus_markReady, number]
    exact marked

variable {cur : Nat} {call : Cpu × Action}

lemma AlmostResumable.resumable (almost : AlmostResumable k cur saved)
    (nobody : ∀ i : Slot, cur ≠ i + 1) : Resumable k saved := by
  intro i nonzero
  exact (almost i nonzero).imp id fun isMain => ⟨isMain.1, isMain.2.resolve_left (nobody i)⟩

lemma AlmostResumable.set_running {i : Slot} {p : Process}
    (almost : AlmostResumable k (i + 1) saved) (pid : p.pid = (k.table i).pid)
    (context : p.context = (k.table i).context) (running : p.state = .running) :
    Resumable (k.set i p) saved := by
  intro j
  by_cases same : j = i
  · subst same
    rw [table_set_self, pid]
    intro nonzero
    refine (almost j nonzero).imp (fun started => ?_) fun isMain => ⟨isMain.1, ?_, ?_⟩
    · rw [Started, context]
      exact started
    · rw [running]
      decide
    · rw [running]
      decide
  · rw [table_set_of_ne k p same]
    intro nonzero
    refine (almost j nonzero).imp id fun isMain => ⟨isMain.1, isMain.2.resolve_left fun is => ?_⟩
    exact same (Fin.ext (by omega))

lemma context_switchTo_of_ne (c : Cpu) (next : Slot) (k : Kernel) {i : Slot} (other : cur ≠ i + 1) :
    ((switchTo c cur next k).table i).context = (k.table i).context := by
  have marked : ((k.set next
      { k.table next with state := .running, onCpu := UInt8.ofNat c }).table i).context =
        (k.table i).context := by
    by_cases same : i = next
    · subst same
      rw [table_set_self]
    · rw [table_set_of_ne _ _ same]
  unfold switchTo
  dsimp only [Kernel.setCpu]
  split
  · rename_i old slot
    have number := slotOf_eq_some_iff.mp slot
    have ne : i ≠ old := by
      rintro rfl
      exact other number
    rw [table_set_of_ne _ _ ne, marked]
  · exact marked

/-- The thread that is left is saved with its open pairs. -/
theorem AlmostResumable.switchTo {pairs : Nat} (almost : AlmostResumable k cur saved) (c : Cpu)
    (next : Slot) (inside : pairs = 1) :
    Resumable (switchTo c cur next k) (savePairs cur pairs saved) := by
  intro i nonzero
  by_cases isOld : cur = i + 1
  · rw [savePairs, if_pos isOld]
    exact .inl (.inr inside)
  obtain ⟨pid, state⟩ := sameStatus_switchTo c cur next k i
  rw [savePairs, if_neg isOld, Started, context_switchTo_of_ne c next k isOld, state]
  rw [pid] at nonzero
  by_cases isNext : i = next
  · subst isNext
    rw [table_set_self] at nonzero ⊢
    exact (almost i nonzero).imp id fun isMain => ⟨isMain.1, nofun, nofun⟩
  · rw [table_set_of_ne _ _ isNext] at nonzero ⊢
    exact (almost i nonzero).imp id fun isMain => ⟨isMain.1, isMain.2.resolve_left isOld⟩

/-- What is known of the table in which `schedule_locked` decides. -/
lemma Resumable.searched (resumable : Resumable k saved) {smashed : Bool} {k' : Kernel}
    {found : Option Slot} (decided : searched c smashed k = (k', cur, found)) :
    AlmostResumable k' cur saved := by
  have almost : AlmostResumable (Scheduler.searched c smashed k).1
      (Scheduler.searched c smashed k).2.1 saved := resumable.retire c smashed
  rwa [decided] at almost

lemma Resumable.scheduleLocked (resumable : Resumable k saved) (wellFormed : WellFormed k)
    {smashed : Bool} {k' : Kernel} (ends : Schedules c smashed k none k') :
    Resumable k' saved := by
  cases ends with
  | off => exact resumable
  | lonely decided =>
    have almost := resumable.searched decided
    split
    · rename_i i slot
      obtain rfl := slotOf_eq_some_iff.mp slot
      exact almost.set_running rfl rfl rfl
    rename_i none
    refine almost.resumable fun i is => ?_
    rw [slotOf_eq_some_iff.mpr is] at none
    cases none
  | @again k' cur found next decided choice own somebody =>
    obtain rfl : cur = next + 1 :=
      own.symm.trans (numbered_searched wellFormed decided somebody)
    exact (resumable.searched decided).set_running rfl rfl rfl

lemma Resumable.switch (resumable : Resumable s.kernel s.saved)
    (wellFormed : WellFormed s.kernel) (smashed : Bool) (inside : s.pairs c = 1) :
    Resumable (switch c smashed s).kernel (switch c smashed s).saved := by
  have ends := schedules c smashed s.kernel
  unfold Smp.switch
  generalize Scheduler.scheduleLocked c smashed s.kernel = kernel,
    selected c smashed s.kernel = picked at ends ⊢
  cases picked with
  | none => exact resumable.scheduleLocked wellFormed ends
  | some pid =>
    cases ends with
    | switches decided =>
      rw [isSome_some, if_pos rfl, decided]
      exact (resumable.searched decided).switchTo c _ inside

/-- Behind a switch one pair is open, unless the process has never run. -/
theorem pairs_switch_eq_one_iff (resumable : Resumable s.kernel s.saved)
    (wellFormed : WellFormed s.kernel) (smashed : Bool) (inside : s.pairs c = 1) :
    (switch c smashed s).pairs c = 1 ↔ ¬ NeverRan c smashed s.kernel := by
  have ends := schedules c smashed s.kernel
  unfold Smp.switch NeverRan Smp.chosen
  generalize scheduleLocked c smashed s.kernel = kernel, selected c smashed s.kernel = picked
    at ends ⊢
  cases picked with
  | none => simpa using inside
  | some pid =>
    cases ends with
    | @switches k' cur found next decided choice different somebody =>
      have candidate := fun i => @isCandidate_of_searched s.kernel c smashed i
      rw [decided] at candidate
      have pid := numbered_searched wellFormed decided somebody
      have other : cur ≠ next + 1 := fun same => different (pid.trans same.symm)
      have context := context_switchTo_of_ne c next k' other
      rw [isSome_some, if_pos rfl, decided]
      dsimp only
      rw [← choice, update_self, context, savePairs, if_neg other]
      have started : Started (k'.table next) (s.saved next) := by
        apply (resumable.searched decided _ somebody).resolve_right
        rintro ⟨isMain, own | ⟨notReady, -⟩⟩
        · exact other own
        · cases found with
          | none => exact absurd (choice ▸ isMain) (by decide)
          | some i => exact notReady (choice ▸ (of_decide_eq_true (candidate i rfl)).2.2)
      rcases started with fresh | saved
      · simp [fresh]
      · simp [saved]

/-! ## One action -/

/-- The depth of the lock that belongs to a processor. -/
def System.depthOf (s : System) (c : Cpu) : Nat :=
  if s.klock.ownerCpu = some c then s.klock.depth.toNat else 0

/-- The depth that belongs to a processor is the number of pairs that its thread has open. So it is
0 while the thread executes code outside of all pairs. -/
def Balanced (s : System) : Prop := ∀ c, s.depthOf c = s.pairs c

/-- What the callers keep to: the pairs of a thread can be counted, `bkl_unlock` closes one, and
`schedule` is not called inside of one (its own is the only one in the section). -/
def Disciplined (s : System) : Cpu × Action → Prop
  | (c, .lock) => s.pairs c + 1 < 2 ^ 32
  | (c, .unlock) => s.waiting c = none → s.pairs c ≠ 0
  | (c, .inside (.schedule _)) => s.pairs c ≤ 1
  | _ => True

/-- A processor switches to a process that has never run. -/
def StartsProcess (s : System) : Cpu × Action → Prop
  | (c, .inside (.schedule smashed)) =>
    s.waiting c = none ∧ s.pairs c ≠ 0 ∧ NeverRan c smashed s.kernel
  | _ => False

/-- The invariant of the system. -/
structure Consistent (s : System) : Prop where
  orderly : Orderly s
  wellFormed : WellFormed s.kernel
  resumable : Resumable s.kernel s.saved
  balanced : Balanced s

lemma Balanced.own (balanced : Balanced s) (isOpen : s.pairs c ≠ 0) :
    s.klock.ownerCpu = some c ∧ s.klock.depth.toNat = s.pairs c := by
  have depth := balanced c
  unfold System.depthOf at depth
  split at depth
  · rename_i owner
    exact ⟨owner, depth⟩
  · exact absurd depth.symm isOpen

lemma Balanced.of_eq {s' : System} (balanced : Balanced s)
    (owner : s'.klock.ownerCpu = s.klock.ownerCpu) (depth : s'.klock.depth = s.klock.depth)
    (pairs : s'.pairs = s.pairs) : Balanced s' := by
  intro d
  rw [System.depthOf, owner, depth, pairs]
  exact balanced d

/-- A processor that has the lock has all open pairs. -/
lemma balanced_of_owner (owner : s.klock.ownerCpu = some c)
    (own : s.klock.depth.toNat = s.pairs c) (others : ∀ d, d ≠ c → s.pairs d = 0) :
    Balanced s := by
  intro d
  unfold System.depthOf
  rw [owner]
  by_cases same : d = c
  · subst same
    rw [if_pos rfl, own]
  · rw [if_neg (fun is => same (some_inj.mp is).symm), others d same]

lemma Balanced.others (balanced : Balanced s) (owner : s.klock.ownerCpu = some c) {d : Cpu}
    (ne : d ≠ c) : s.pairs d = 0 := by
  rw [← balanced d, System.depthOf, owner, if_neg fun is => ne (some_inj.mp is).symm]

lemma Balanced.lock (balanced : Balanced s) (c : Cpu) (few : s.pairs c + 1 < 2 ^ 32) :
    Balanced (bklLock c s) := by
  unfold bklLock
  split
  · rename_i owner
    have own := balanced c
    rw [System.depthOf, if_pos owner] at own
    refine balanced_of_owner owner ?_ fun d ne => ?_
    · dsimp only
      rw [update_self, UInt32.toNat_add, UInt32.toNat_one]
      omega
    · exact (update_of_ne ne ..).trans (balanced.others owner ne)
  · exact balanced.of_eq rfl rfl rfl

lemma Balanced.spin (balanced : Balanced s) (orderly : Orderly s) {ticket : UInt32}
    (waits : s.waiting c = some ticket) : Balanced (bklSpin c ticket s) := by
  unfold bklSpin
  split
  · exact balanced
  rename_i served
  obtain rfl := not_not.mp served
  have free : s.klock.ownerCpu = none := by
    have notHeld := orderly.fair.held_eq_false waits
    exact isNone_iff_eq_none.mp (by simpa [System.tickets] using notHeld)
  have closed : ∀ d, s.pairs d = 0 := by
    intro d
    rw [← balanced d, System.depthOf, free, if_neg (some_ne_none d).symm]
  refine balanced_of_owner rfl ?_ fun d ne => ?_
  · dsimp only
    rw [update_self, closed c]
    rfl
  · exact (update_of_ne ne ..).trans (closed d)

/-- `bkl_unlock` takes one level off, and it releases the lock with the last one. -/
theorem unlock_eq (lock : Bkl) (levels : lock.depth.toNat ≠ 0) :
    lock.unlock = if lock.depth.toNat = 1 then
      { lock with depth := 0, ownerCpu := none, ticketHead := lock.ticketHead + 1 }
    else { lock with depth := lock.depth - 1 } := by
  have some : lock.depth ≠ 0 := fun zero => levels (by rw [zero]; rfl)
  have last : lock.depth - 1 = 0 ↔ lock.depth.toNat = 1 := by
    rw [← UInt32.toNat_inj, UInt32.toNat_sub]
    have bound := lock.depth.toNat_lt
    simp only [UInt32.toNat_one, UInt32.toNat_zero]
    omega
  unfold Bkl.unlock
  rw [if_neg some]
  by_cases one : lock.depth.toNat = 1
  · rw [if_pos (last.mpr one), if_pos one, last.mpr one]
  · rw [if_neg (mt last.mp one), if_neg one]

lemma Balanced.unlock (balanced : Balanced s) (isOpen : s.pairs c ≠ 0) :
    Balanced (bklUnlock c s) := by
  obtain ⟨owner, depth⟩ := balanced.own isOpen
  have levels : s.klock.depth.toNat ≠ 0 := by omega
  have others : ∀ d, d ≠ c → (bklUnlock c s).pairs d = 0 := fun d ne =>
    (update_of_ne ne ..).trans (balanced.others owner ne)
  have own : (bklUnlock c s).pairs c = s.pairs c - 1 := update_self ..
  have klock : (bklUnlock c s).klock = s.klock.unlock := rfl
  rw [unlock_eq _ levels] at klock
  by_cases last : s.klock.depth.toNat = 1
  · rw [if_pos last] at klock
    intro d
    rw [System.depthOf, klock, if_neg nofun]
    by_cases same : d = c
    · subst same
      omega
    · exact (others d same).symm
  · rw [if_neg last] at klock
    refine balanced_of_owner ?_ ?_ others
    · rw [klock]
      exact owner
    · have bound := s.klock.depth.toNat_lt
      rw [klock, own]
      dsimp only
      rw [UInt32.toNat_sub, UInt32.toNat_one]
      omega

/-- A switch keeps the balance exactly if the process has run before. -/
theorem balanced_switch_iff (consistent : Consistent s) (inside : s.pairs c = 1) (smashed : Bool) :
    Balanced (switch c smashed s) ↔ ¬ NeverRan c smashed s.kernel := by
  have one := pairs_switch_eq_one_iff consistent.resumable consistent.wellFormed smashed inside
  have klock : (switch c smashed s).klock = s.klock := klock_enter c s (.schedule smashed)
  obtain ⟨owner, depth⟩ := consistent.balanced.own (by rw [inside]; decide)
  rw [← one]
  constructor
  · intro next
    rw [← next c, System.depthOf, klock, if_pos owner, depth, inside]
  · intro pair
    refine balanced_of_owner (by rw [klock]; exact owner) (by rw [klock, depth, inside, pair]) ?_
    intro d ne
    have kept : (switch c smashed s).pairs d = s.pairs d := by
      unfold switch
      dsimp only
      split
      · exact update_of_ne ne ..
      · rfl
    rw [kept, consistent.balanced.others owner ne]

lemma Consistent.enter (consistent : Consistent s) (call : Call) (inside : s.pairs c ≠ 0)
    (disciplined : Disciplined s (c, .inside call)) (free : s.waiting c = none)
    (calm : ¬ StartsProcess s (c, .inside call)) : Consistent (enter c s call) := by
  have orderly := consistent.orderly.enter c call
  cases call with
  | schedule smashed =>
    have one : s.pairs c = 1 := by
      have atMost : s.pairs c ≤ 1 := disciplined
      omega
    refine ⟨orderly, ?_, consistent.resumable.switch consistent.wellFormed smashed one,
      (balanced_switch_iff consistent one smashed).mpr fun starts => calm ⟨free, inside, starts⟩⟩
    have scheduled := consistent.wellFormed.perform c (.schedule smashed)
    rw [Smp.enter, switch]
    dsimp only
    split
    · exact scheduled
    · exact scheduled
  | _ =>
    refine ⟨orderly, ?_, ?_, ?_⟩
    all_goals simp only [Smp.enter]
    · exact consistent.wellFormed.perform c _
    · exact consistent.resumable.perform c fun _ => by simp
    · exact consistent.balanced.of_eq rfl rfl rfl

/-- The step lemma. -/
theorem Consistent.act (consistent : Consistent s) (disciplined : Disciplined s call)
    (calm : ¬ StartsProcess s call) : Consistent (systemMachine s call).1 := by
  have kept : ∀ s', Orderly s' → Balanced s' → s'.kernel = s.kernel → s'.saved = s.saved →
      Consistent s' := by
    intro s' orderly balanced kernel saved
    refine ⟨orderly, ?_, ?_, balanced⟩
    · rw [kernel]
      exact consistent.wellFormed
    · rw [kernel, saved]
      exact consistent.resumable
  obtain ⟨c, action⟩ := call
  have balanced := consistent.balanced
  change Consistent (Smp.act s c action)
  unfold Smp.act
  split
  · rename_i waits
    refine kept _ (consistent.orderly.spin waits) (balanced.spin consistent.orderly waits) ?_ ?_
    · rw [bklSpin]
      split <;> rfl
    · rw [bklSpin]
      split <;> rfl
  · exact consistent
  · rename_i free
    refine kept _ (consistent.orderly.lock free) (balanced.lock c disciplined) ?_ ?_
    · rw [bklLock]
      split <;> rfl
    · rw [bklLock]
      split <;> rfl
  · exact consistent
  · rename_i free
    exact kept _ (consistent.orderly.unlock c) (balanced.unlock (disciplined free)) rfl rfl
  · rename_i free
    split
    · exact consistent
    · rename_i inside
      exact consistent.enter _ inside disciplined free calm

lemma not_startsProcess (consistent : Consistent s) (disciplined : Disciplined s call)
    (balanced : Balanced (systemMachine s call).1) : ¬ StartsProcess s call := by
  obtain ⟨c, action⟩ := call
  unfold StartsProcess
  split
  · rename_i smashed same
    obtain ⟨rfl, rfl⟩ := Prod.mk.inj same
    rintro ⟨free, inside, starts⟩
    have one : s.pairs c = 1 := by
      have atMost : s.pairs c ≤ 1 := disciplined
      omega
    have next : act s c (.inside (.schedule smashed)) = switch c smashed s := by
      simp [act, free, inside, enter]
    rw [systemMachine, next] at balanced
    exact (balanced_switch_iff consistent one smashed).mp balanced starts
  · exact not_false

lemma consistent_start : Consistent start := by
  have resumable : Resumable boot fun _ => 0 := by
    unfold Resumable Started
    decide +kernel
  exact ⟨orderly_start, wellFormed_boot, resumable, fun _ => rfl⟩

/-! ## Those who wait -/

variable {w : Cpu} {ticket : UInt32}

/-- A thread closes its last pair. -/
def closesLast (s : System) : Cpu × Action → Bool
  | (c, .unlock) => s.waiting c = none ∧ s.pairs c = 1
  | _ => false

lemma waiting_act (waits : s.waiting w = some ticket) (later : s.klock.ticketHead ≠ ticket)
    (call : Cpu × Action) : (systemMachine s call).1.waiting w = some ticket := by
  obtain ⟨c, action⟩ := call
  change (act s c action).waiting w = some ticket
  unfold act
  by_cases same : w = c
  · subst same
    rw [waits]
    cases action with
    | spin =>
      dsimp only
      rw [bklSpin, if_pos later]
      exact waits
    | _ => exact waits
  · split
    · rw [bklSpin]
      split
      · exact waits
      · exact (update_of_ne same ..).trans waits
    · exact waits
    · rw [bklLock]
      split
      · exact waits
      · exact (update_of_ne same ..).trans waits
    · exact waits
    · exact waits
    · split
      · exact waits
      · rw [waiting_enter]
        exact waits

/-- The next ticket is served whenever a thread closes its last pair. -/
theorem ticketHead_act (balanced : Balanced s) (disciplined : Disciplined s call) :
    (systemMachine s call).1.klock.ticketHead =
      if closesLast s call = true then s.klock.ticketHead + 1 else s.klock.ticketHead := by
  obtain ⟨c, action⟩ := call
  change (act s c action).klock.ticketHead = _
  unfold act
  split
  · rw [bklSpin]
    split <;> rfl
  · rename_i action _ _ _ waits _
    cases action <;> simp [closesLast, waits]
  · rw [bklLock]
    split <;> rfl
  · rfl
  · rename_i free
    have depth := (balanced.own (disciplined free)).2
    have levels : s.klock.depth.toNat ≠ 0 := by
      rw [depth]
      exact disciplined free
    rw [bklUnlock, unlock_eq _ levels, depth]
    simp only [closesLast, free, true_and, decide_eq_true_eq]
    split <;> rfl
  · split
    · rfl
    · rw [klock_enter]
      rfl

/-- Whenever a thread closes its last pair, the processors that wait come nearer. -/
theorem ahead_act (balanced : Balanced s) (disciplined : Disciplined s call)
    (later : s.klock.ticketHead ≠ ticket) :
    ahead (systemMachine s call).1.klock.ticketHead ticket + (closesLast s call).toNat ≤
      ahead s.klock.ticketHead ticket := by
  rw [ticketHead_act balanced disciplined]
  cases closesLast s call with
  | true => exact (ahead_release later.symm).le
  | false => exact le_rfl

/-- A processor is served after as many last pairs as there are tickets in front of its own. -/
theorem served {calls : List (Cpu × Action)} (waits : s.waiting w = some ticket)
    (orderly : systemMachine.Along (fun s call => Balanced s ∧ Disciplined s call) s calls)
    (enough : ahead s.klock.ticketHead ticket ≤ systemMachine.tally closesLast s calls) :
    ∃ first rest, calls = first ++ rest ∧
      (systemMachine.run s first).klock.ticketHead = ticket := by
  induction calls generalizing s with
  | nil =>
    have none := ahead_eq_zero_iff.mp (Nat.le_zero.mp enough)
    exact ⟨[], [], rfl, none.symm⟩
  | cons call calls ih =>
    by_cases now : s.klock.ticketHead = ticket
    · exact ⟨[], call :: calls, rfl, now⟩
    have nearer := ahead_act orderly.1.1 orderly.1.2 now
    have enough' : ahead s.klock.ticketHead ticket ≤ (closesLast s call).toNat +
        systemMachine.tally closesLast (systemMachine s call).1 calls := enough
    obtain ⟨first, rest, split, serves⟩ :=
      ih (waiting_act waits now call) orderly.2 (by omega)
    exact ⟨call :: first, rest, by rw [split, List.cons_append], serves⟩

/-! ## Runs -/

/-- The lock is always balanced, and whoever waits is served before as many last pairs are closed as
there are processors. -/
def BalancedRun (calls : List (Cpu × Action)) : Prop :=
  (∀ before after, calls = before ++ after → Balanced (systemMachine.run start before)) ∧
    ∀ before during after w ticket, calls = before ++ (during ++ after) →
      (systemMachine.run start before).waiting w = some ticket →
      smpMaxCpus ≤ systemMachine.tally closesLast (systemMachine.run start before) during →
        ∃ first rest, during = first ++ rest ∧
          (systemMachine.run start (before ++ first)).klock.ticketHead = ticket

/-- In a run in which every `bkl_unlock` closes a pair and `schedule` is not called inside of one,
the depth of the lock is the number of open pairs at every moment, and everybody who waits is
served in time, if and only if no processor switches to a process that has never run. -/
theorem bkl_balanced_iff {calls : List (Cpu × Action)}
    (disciplined : systemMachine.Along Disciplined start calls) : BalancedRun calls ↔
      systemMachine.Along (fun s call => ¬ StartsProcess s call) start calls := by
  have always := Machine.forall_before_iff_along (I := Consistent) (E := Balanced)
    (fun _ _ consistent disciplined calm => consistent.act disciplined calm)
    (fun _ _ consistent disciplined => not_startsProcess consistent disciplined)
    (fun _ => Consistent.balanced) consistent_start disciplined
  refine ⟨fun balanced => always.mp balanced.1, fun calm => ⟨always.mpr calm, ?_⟩⟩
  have keeps : ∀ s call, Consistent s → Disciplined s call ∧ ¬ StartsProcess s call →
      Consistent (systemMachine s call).1 := fun _ _ consistent guard =>
    consistent.act guard.1 guard.2
  rintro before during after w ticket rfl waits enough
  have guarded := Machine.along_and.mpr ⟨disciplined, calm⟩
  rw [Machine.along_append_iff, Machine.along_append_iff] at guarded
  have consistent := Machine.run_invariant keeps consistent_start guarded.1
  have bound := consistent.orderly.fair.ahead_le waits
  rw [Fintype.card_fin] at bound
  have orderly := Machine.along_of_invariant keeps
    (fun _ _ consistent guard => And.intro consistent.balanced guard.1) consistent guarded.2.1
  obtain ⟨first, rest, parts, serves⟩ := served waits orderly (le_trans bound enough)
  refine ⟨first, rest, parts, ?_⟩
  rw [Machine.run_append]
  exact serves

/-- A processor waits until another one has closed both of its pairs. -/
theorem bkl_balanced_two_cpus : BalancedRun [(bootCpu, .lock), (bootCpu, .spin), (bootCpu, .lock),
    (secondCpu, .lock), (bootCpu, .unlock), (bootCpu, .unlock), (secondCpu, .spin)] := by
  refine (bkl_balanced_iff ?_).mpr ⟨id, id, id, id, id, id, id, trivial⟩
  simp only [Machine.along_cons_iff, Machine.along_nil, Disciplined]
  decide +kernel

/-- The first switch of a second processor starts the idle process, and the lock stays with the
processor. -/
theorem idle_keeps_lock : ¬ BalancedRun [(secondCpu, .lock), (secondCpu, .spin),
      (secondCpu, .inside (.schedule false))] := by
  rintro ⟨balanced, -⟩
  have now := balanced _ [] (List.append_nil _).symm secondCpu
  exact absurd now (by decide +kernel)

end CupidOs.Smp
