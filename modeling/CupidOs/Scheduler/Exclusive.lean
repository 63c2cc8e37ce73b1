import CupidOs.Scheduler.Stacks

/-!
# A process runs on one processor

A processor gets a new current process only from `schedule_locked`, which picks a process that is
marked as ready or falls back to the idle process. What a processor executes is marked as running,
unless another processor ended it. So in a run in which nobody does that, a process is current on
two processors only if a call of `schedule` finds nothing ready while the idle process runs
elsewhere.
-/

namespace CupidOs.Scheduler

open Option Transition

variable {k : Kernel} {c d : Cpu}

/-- No process is current on two processors. -/
def Exclusive (k : Kernel) : Prop :=
  ∀ c d, c ≠ d → (k.cpus c).current = (k.cpus d).current → (k.cpus c).current = 0

/-- The process that a call of `schedule` switches to. -/
def selected (c : Cpu) (smashed : Bool) (k : Kernel) : Option Nat :=
  let (k', cur, found) := searched c smashed k
  if k.processCount = 0 ∨ k.schedulerActive = false then none
  else if found = none ∧ (k'.table idleSlot).pid = 0 then none
  else if (k'.table (found.getD idleSlot)).pid = cur ∧ cur ≠ 0 then none
  else some (k'.table (found.getD idleSlot)).pid

/-- Another processor has the process that a call of `schedule` switches to. -/
def SelectsTaken (c : Cpu) (smashed : Bool) (k : Kernel) : Prop :=
  ∃ pid d, selected c smashed k = some pid ∧ d ≠ c ∧ (k.cpus d).current = pid

/-- There is a process in the slot, and it is marked so. -/
def Marked (k : Kernel) (i : Slot) (state : ProcessState) : Prop :=
  (k.table i).pid ≠ 0 ∧ (k.table i).state = state

instance (k : Kernel) (i : Slot) (state : ProcessState) : Decidable (Marked k i state) :=
  inferInstanceAs (Decidable (_ ∧ _))

/-- A processor schedules while nothing is ready and the idle process runs elsewhere. -/
def FallsBack (k : Kernel) : Cpu × Call → Prop
  | (c, .schedule _) => (k.processCount ≠ 0 ∧ k.schedulerActive = true) ∧
      (∀ i, ¬ Marked k i .ready) ∧ ∃ d, d ≠ c ∧ (k.cpus d).current = 1
  | _ => False

/-- A call ends a process that another processor executes. A processor without a process ends the
first one of the table that is running. -/
def Theft (k : Kernel) : Cpu × Call → Prop
  | (c, .kill pid) => 1 < pid ∧ ∃ d, d ≠ c ∧ (k.cpus d).current = pid
  | (c, .exit) => (k.cpus c).current = 0 ∧ ∃ i : Slot, 0 < i.val ∧
      (∀ j < i, ¬ Marked k j .running) ∧ ∃ d, (k.cpus d).current = i + 1
  | _ => False

/-! ## The current processes -/

/-- What `retire` does to the processors. -/
theorem cpus_retire (c : Cpu) (smashed : Bool) (k : Kernel) :
    (∀ d, d ≠ c → (retire c smashed k).1.cpus d = k.cpus d) ∧
      ((retire c smashed k).1.cpus c).current = (retire c smashed k).2 ∧
      ((retire c smashed k).2 = 0 ∨ (retire c smashed k).2 = (k.cpus c).current) := by
  unfold retire
  split
  · exact ⟨fun _ _ => rfl, rfl, .inr rfl⟩
  rename_i i _
  have cpus := cpus_markReady i k
  dsimp only
  split
  · refine ⟨fun d ne => ?_, by simp, .inl rfl⟩
    rw [cpus_setCurrent_of_ne _ _ ne]
    dsimp only
    rw [cpus_clear, cpus]
  · exact ⟨fun d _ => congrFun cpus d, rfl, .inr (by rw [cpus])⟩

lemma cpus_switchTo_of_ne (cur : Nat) (next : Slot) (k : Kernel) (ne : d ≠ c) :
    (switchTo c cur next k).cpus d = k.cpus d := by
  unfold switchTo
  dsimp only
  rw [Kernel.setCpu]
  dsimp only
  rw [Function.update_of_ne ne]
  split <;> rfl

lemma current_switchTo (c : Cpu) (cur : Nat) (next : Slot) (k : Kernel) :
    ((switchTo c cur next k).cpus c).current = (k.table next).pid := by
  unfold switchTo
  dsimp only
  rw [Kernel.setCpu]
  dsimp only
  rw [Function.update_self, table_set_self]

variable {smashed : Bool} {i : Slot} {k' : Kernel}

/-- The ways in which `schedule_locked` ends, with the process that it selects. -/
inductive Schedules (c : Cpu) (smashed : Bool) (k : Kernel) : Option Nat → Kernel → Prop
  | off (off : k.processCount = 0 ∨ k.schedulerActive = false) : Schedules c smashed k none k
  | lonely {k' : Kernel} {cur : Nat} (decided : searched c smashed k = (k', cur, none))
      (nobody : (k'.table idleSlot).pid = 0) :
      Schedules c smashed k none (match slotOf cur with
        | some i => k'.set i { k'.table i with state := .running }
        | none => k')
  | again {k' : Kernel} {cur : Nat} {found : Option Slot} {next : Slot}
      (decided : searched c smashed k = (k', cur, found)) (choice : next = found.getD idleSlot)
      (own : (k'.table next).pid = cur) (somebody : (k'.table next).pid ≠ 0) :
      Schedules c smashed k none
        (k'.set next { k'.table next with state := .running, onCpu := UInt8.ofNat c })
  | switches {k' : Kernel} {cur : Nat} {found : Option Slot} {next : Slot}
      (decided : searched c smashed k = (k', cur, found)) (choice : next = found.getD idleSlot)
      (other : (k'.table next).pid ≠ cur) (somebody : (k'.table next).pid ≠ 0)
      (on : k.processCount ≠ 0 ∧ k.schedulerActive = true) :
      Schedules c smashed k (some (k'.table next).pid) (switchTo c cur next k')

lemma isCandidate_of_search {cur : Nat} (searches : Nat) (index : Slot)
    (found : (search k cur searches index).2 = some i) : isCandidate k cur i = true := by
  induction searches generalizing index with
  | zero => cases found
  | succ searches ih =>
    rw [search] at found
    split at found
    · rename_i candidate
      obtain rfl := some_inj.mp found
      exact candidate
    · exact ih _ found

lemma isCandidate_of_searched (found : (searched c smashed k).2.2 = some i) :
    isCandidate (searched c smashed k).1 (searched c smashed k).2.1 i = true :=
  isCandidate_of_search maxProcesses (retire c smashed k).1.nextScheduleIndex found

lemma schedules (c : Cpu) (smashed : Bool) (k : Kernel) :
    Schedules c smashed k (selected c smashed k) (scheduleLocked c smashed k) := by
  have candidate : ∀ i, (searched c smashed k).2.2 = some i → _ :=
    fun _ found => (of_decide_eq_true (isCandidate_of_searched found)).1
  unfold selected scheduleLocked resume
  generalize decided : searched c smashed k = outcome at candidate
  obtain ⟨k', cur, found⟩ := outcome
  dsimp only
  split_ifs with off nobody again
  · exact .off off
  · obtain ⟨rfl, idle⟩ := nobody
    exact .lonely decided idle
  · exact .again decided rfl again.1 (again.1 ▸ again.2)
  · have somebody : (k'.table (found.getD idleSlot)).pid ≠ 0 := by
      cases found with
      | none => exact fun zero => nobody ⟨rfl, zero⟩
      | some i => exact candidate i rfl
    refine .switches decided rfl (fun own => again ⟨own, ?_⟩) somebody ?_
    · exact own ▸ somebody
    · exact (not_or.mp off).imp_right eq_true_of_ne_false

lemma numbered_searched (wellFormed : WellFormed k) {cur : Nat} {found : Option Slot}
    (decided : searched c smashed k = (k', cur, found)) (somebody : (k'.table i).pid ≠ 0) :
    (k'.table i).pid = i + 1 := by
  have wellFormed := WellFormed.stable.retire (c := c) wellFormed smashed fun _ _ => trivial
  have numbered := wellFormed.numbered i
  have table : (retire c smashed k).1.table = k'.table := congrArg (fun d => d.1.table) decided
  rw [table] at numbered
  exact numbered.resolve_left somebody

namespace Schedules

variable {chosen : Option Nat} {pid : Nat}

lemma cpus_of_ne (ends : Schedules c smashed k chosen k') (ne : d ≠ c) :
    k'.cpus d = k.cpus d := by
  have cpus : (searched c smashed k).1.cpus d = k.cpus d := (cpus_retire c smashed k).1 d ne
  cases ends with
  | off => rfl
  | lonely decided =>
    rw [decided] at cpus
    split <;> exact cpus
  | again decided =>
    rw [decided] at cpus
    exact cpus
  | switches decided =>
    rw [decided] at cpus
    exact (cpus_switchTo_of_ne _ _ _ ne).trans cpus

lemma current_of_some (ends : Schedules c smashed k (some pid) k') :
    (k'.cpus c).current = pid ∧ pid ≠ 0 := by
  cases ends with
  | switches _ _ _ somebody => exact ⟨current_switchTo _ _ _ _, somebody⟩

lemma current_of_none (ends : Schedules c smashed k none k') :
    (k'.cpus c).current = 0 ∨ (k'.cpus c).current = (k.cpus c).current := by
  obtain ⟨-, same, value⟩ := cpus_retire c smashed k
  have kept : ((searched c smashed k).1.cpus c).current = 0 ∨
      ((searched c smashed k).1.cpus c).current = (k.cpus c).current := by
    rw [← same] at value
    exact value
  cases ends with
  | off => exact .inr rfl
  | lonely decided =>
    rw [decided] at kept
    split <;> exact kept
  | again decided =>
    rw [decided] at kept
    exact kept

end Schedules

/-- A call other than `schedule` keeps the current process of a processor or takes it away. -/
theorem current_perform (k : Kernel) (c d : Cpu) {call : Call}
    (other : ∀ smashed, call ≠ .schedule smashed) :
    ((perform k c call).cpus d).current = (k.cpus d).current ∨
      ((perform k c call).cpus d).current = 0 := by
  have terminated : ∀ i, ((terminate c i k).cpus d).current = (k.cpus d).current ∨
      ((terminate c i k).cpus d).current = 0 := by
    intro i
    by_cases same : d = c
    · subst same
      exact .inr (by simp [terminate])
    · rw [terminate, cpus_setCurrent_of_ne _ _ same]
      exact .inl rfl
  have effect := effect_perform k c call
  generalize perform k c call = k' at effect
  cases effect with
  | schedules smashed => exact absurd rfl (other smashed)
  | nothing => exact .inl rfl
  | reaps => exact .inl (by rw [cpus_processReapTerminated])
  | creates reaped => exact .inl (by rw [cpus_place, reaped, cpus_processReapTerminated])
  | exits i => exact terminated i
  | leaves i => exact terminated i
  | kills i => exact .inl rfl
  | marks i => exact .inl rfl

/-! ## One call -/

/-- A processor may lose its process, or get one that no other has. -/
theorem Exclusive.of_current (exclusive : Exclusive k) (c : Cpu)
    (others : ∀ d, d ≠ c → (k'.cpus d).current = (k.cpus d).current ∨ (k'.cpus d).current = 0)
    (own : ∀ d, d ≠ c → (k'.cpus c).current = (k.cpus d).current → (k'.cpus c).current = 0) :
    Exclusive k' := by
  intro a b ne same
  by_cases first : a = c
  · subst first
    rcases others b (Ne.symm ne) with kept | gone
    · exact own b (Ne.symm ne) (same.trans kept)
    · rw [same, gone]
  by_cases second : b = c
  · subst second
    rcases others a ne with kept | gone
    · rw [same]
      exact own a ne (same.symm.trans kept)
    · exact gone
  rcases others a first with keptA | gone
  · rcases others b second with keptB | gone
    · rw [keptA] at same ⊢
      exact exclusive a b ne (same.trans keptB)
    · rw [same, gone]
  · exact gone

lemma exclusive_schedule_iff (exclusive : Exclusive k) (c : Cpu) (smashed : Bool) :
    Exclusive (scheduleLocked c smashed k) ↔ ¬ SelectsTaken c smashed k := by
  have ends := schedules c smashed k
  unfold SelectsTaken
  generalize scheduleLocked c smashed k = k', selected c smashed k = chosen at ends ⊢
  constructor
  · rintro kept ⟨pid, d, rfl, ne, taken⟩
    obtain ⟨current, nonzero⟩ := ends.current_of_some
    have same : (k'.cpus c).current = (k'.cpus d).current := by
      rw [ends.cpus_of_ne ne, taken, current]
    exact nonzero (current.symm.trans (kept c d (Ne.symm ne) same))
  · intro free
    refine exclusive.of_current c (fun d ne => .inl (by rw [ends.cpus_of_ne ne])) ?_
    intro d ne same
    cases chosen with
    | none =>
      rcases ends.current_of_none with zero | kept
      · exact zero
      · rw [kept] at same ⊢
        exact exclusive c d (Ne.symm ne) same
    | some pid =>
      exact absurd ⟨pid, d, rfl, ne, same.symm.trans ends.current_of_some.1⟩ free

lemma Exclusive.perform (exclusive : Exclusive k) (c : Cpu) {call : Call}
    (other : ∀ smashed, call ≠ .schedule smashed) : Exclusive (perform k c call) := by
  refine exclusive.of_current c (fun d _ => current_perform k c d other) ?_
  intro d ne same
  rcases current_perform k c c other with kept | gone
  · have old := exclusive c d (Ne.symm ne) (kept.symm.trans same)
    exact kept.trans old
  · exact gone

lemma exclusive_boot : Exclusive boot := by
  have currents : ∀ c : Cpu, c ≠ bootCpu → (boot.cpus c).current = 0 := by decide +kernel
  intro c d ne same
  by_cases first : c = bootCpu
  · subst first
    rw [same]
    exact currents d (Ne.symm ne)
  · exact currents c first

/-! ## What the processors execute -/

/-- The process is in its slot and marked as running. -/
def Runs (k : Kernel) (pid : Nat) : Prop :=
  ∃ i : Slot, pid = i + 1 ∧ (k.table i).pid = i + 1 ∧ (k.table i).state = .running

/-- Every processor with a process has one that is marked as running, and no other processor has
it. -/
structure Sound (k : Kernel) : Prop where
  wellFormed : WellFormed k
  runs : ∀ c, (k.cpus c).current = 0 ∨ Runs k (k.cpus c).current
  exclusive : Exclusive k

/-- The slot looks the same to the scheduler. -/
def SameStatus (p q : Process) : Prop := q.pid = p.pid ∧ q.state = p.state

/-- The slot of the process that a processor has looks the same. -/
def KeepsOwn (d : Cpu) (k k' : Kernel) : Prop :=
  ∀ i : Slot, (k.cpus d).current = i + 1 → SameStatus (k.table i) (k'.table i)

lemma Sound.running (sound : Sound k) (has : (k.cpus d).current = i + 1) :
    (k.table i).pid = i + 1 ∧ (k.table i).state = .running := by
  rcases sound.runs d with idle | ⟨j, number, pid, state⟩
  · omega
  · obtain rfl : i = j := Fin.ext (by omega)
    exact ⟨pid, state⟩

lemma Sound.runs_of_keepsOwn (sound : Sound k) (kept : KeepsOwn d k k')
    (same : (k'.cpus d).current = (k.cpus d).current) :
    (k'.cpus d).current = 0 ∨ Runs k' (k'.cpus d).current := by
  rw [same]
  rcases sound.runs d with idle | ⟨i, number, pid, state⟩
  · exact .inl idle
  · obtain ⟨samePid, sameState⟩ := kept i number
    exact .inr ⟨i, number, samePid.trans pid, sameState.trans state⟩

lemma keepsOwn_set {p : Process} (other : (k.cpus d).current ≠ i + 1) :
    KeepsOwn d k (k.set i p) := by
  intro j has
  have ne : j ≠ i := fun same => other (same ▸ has)
  rw [table_set_of_ne k p ne]
  exact ⟨rfl, rfl⟩

lemma keepsOwn_clear (other : (k.cpus d).current ≠ i + 1) : KeepsOwn d k (k.clear i) :=
  @keepsOwn_set (k.kfree _) _ _ _ other

lemma Sound.keepsOwn_set (sound : Sound k) {p : Process}
    (notRunning : (k.table i).pid = 0 ∨ (k.table i).state ≠ .running) :
    KeepsOwn d k (k.set i p) := by
  refine Scheduler.keepsOwn_set fun has => ?_
  obtain ⟨pid, state⟩ := sound.running has
  rcases notRunning with free | other
  · omega
  · exact other state

lemma Sound.keepsOwn_reap (sound : Sound k) : KeepsOwn d k (processReapTerminated k) := by
  intro i has
  have running := (sound.running has).2
  rw [table_processReapTerminated, reaped, if_pos (.inl (by rw [running]; decide))]
  exact ⟨rfl, rfl⟩

lemma KeepsOwn.trans {k'' : Kernel} (first : KeepsOwn d k k') (second : KeepsOwn d k' k'')
    (same : (k'.cpus d).current = (k.cpus d).current) : KeepsOwn d k k'' := by
  intro i has
  have one := first i has
  have two := second i (same.trans has)
  exact ⟨two.1.trans one.1, two.2.trans one.2⟩

lemma Sound.keepsOwn_place (sound : Sound k) (free : ((processReapTerminated k).table i).pid = 0) :
    KeepsOwn d k (place i (processReapTerminated k)) := by
  intro j has
  have kept := sound.keepsOwn_reap j has
  have pid := kept.1.trans (sound.running has).1
  have ne : j ≠ i := by
    rintro rfl
    omega
  rw [table_place_of_ne ne]
  exact kept

lemma Sound.theft_of_exitPid (sound : Sound k) (ends : exitPid c k = i + 1)
    (high : 1 < exitPid c k) (ne : d ≠ c) (has : (k.cpus d).current = i + 1) :
    Theft k (c, .exit) := by
  rw [ends] at high
  unfold exitPid at ends
  split at ends
  · rename_i idle
    refine ⟨idle, i, by omega, fun j less running => ?_, d, has⟩
    split at ends
    · rename_i first found
      obtain ⟨used, index, bound, rfl, earlier⟩ := List.find?_eq_some_iff_getElem.mp found
      have number := (sound.wellFormed.numbered _).resolve_left (of_decide_eq_true used).1
      have here : i.val = index := by
        rw [ends, List.getElem_finRange] at number
        exact Nat.succ.inj number
      have unmarked := earlier j (here ▸ less)
      rw [List.getElem_finRange, Bool.not_eq_true', decide_eq_false_iff_not] at unmarked
      exact unmarked running
    · cases ends
  · have none := sound.exclusive d c ne (has.trans ends.symm)
    omega

lemma Sound.runs_perform (sound : Sound k) {call : Call}
    (other : ∀ smashed, call ≠ .schedule smashed) (honest : ¬ Theft k (c, call)) (d : Cpu) :
    ((perform k c call).cpus d).current = 0 ∨
      Runs (perform k c call) ((perform k c call).cpus d).current := by
  have terminated : ∀ i : Slot, (∀ d, d ≠ c → (k.cpus d).current ≠ i + 1) →
      ((terminate c i k).cpus d).current = 0 ∨
        Runs (terminate c i k) ((terminate c i k).cpus d).current := by
    intro i others
    by_cases same : d = c
    · subst same
      exact .inl (by simp [terminate])
    refine sound.runs_of_keepsOwn (d := d) (Scheduler.keepsOwn_set (others d same)) ?_
    rw [terminate, cpus_setCurrent_of_ne _ _ same]
    rfl
  have reaped := cpus_processReapTerminated k
  have effect := effect_perform k c call
  generalize perform k c call = k' at effect
  cases effect with
  | schedules smashed => exact absurd rfl (other smashed)
  | nothing => exact sound.runs d
  | reaps => exact sound.runs_of_keepsOwn sound.keepsOwn_reap (by rw [reaped])
  | creates same i free =>
    rw [same] at free ⊢
    exact sound.runs_of_keepsOwn (sound.keepsOwn_place free) (by rw [cpus_place, reaped])
  | exits i pid high =>
    exact terminated i fun d ne has => honest (sound.theft_of_exitPid pid high ne has)
  | leaves i high => exact terminated i fun d ne has => honest ⟨high, d, ne, has⟩
  | kills i high _ own =>
    refine sound.runs_of_keepsOwn (keepsOwn_clear ?_) rfl
    by_cases same : d = c
    · subst same
      exact own
    · exact fun has => honest ⟨high, d, same, has⟩
  | marks i _ _ waits =>
    refine sound.runs_of_keepsOwn (sound.keepsOwn_set (.inr ?_)) rfl
    rcases waits with ready | blocked
    · rw [ready]
      decide
    · rw [blocked]
      decide

lemma Sound.keepsOwn_retire (sound : Sound k) (smashed : Bool) (ne : d ≠ c) :
    KeepsOwn d k (retire c smashed k).1 := by
  unfold retire
  split
  · exact fun _ _ => ⟨rfl, rfl⟩
  rename_i i slot
  have number := slotOf_eq_some_iff.mp slot
  have other : (k.cpus d).current ≠ i + 1 := by
    intro has
    have zero := sound.exclusive d c ne (has.trans number.symm)
    omega
  have marked : KeepsOwn d k (markReady i k) := by
    unfold markReady
    split
    · exact Scheduler.keepsOwn_set other
    · exact fun _ _ => ⟨rfl, rfl⟩
  have cpus := cpus_markReady i k
  generalize markReady i k = k' at marked cpus
  dsimp only
  split
  · refine marked.trans ?_ (by rw [cpus])
    exact keepsOwn_clear (k := k') (by rw [cpus]; exact other)
  · exact marked

lemma Sound.pid_retire (sound : Sound k) (smashed : Bool) (stays : (retire c smashed k).2 = i + 1) :
    ((retire c smashed k).1.table i).pid = i + 1 := by
  have value := (cpus_retire c smashed k).2.2
  have has : (k.cpus c).current = i + 1 := by
    rw [stays] at value
    rcases value with zero | same
    · cases zero
    · exact same.symm
  have pid := (sound.running has).1
  unfold retire at stays ⊢
  rw [slotOf_eq_some_iff.mpr has] at stays ⊢
  dsimp only at stays ⊢
  split at stays
  · cases stays
  rename_i kept
  rw [if_neg kept]
  exact (table_markReady_self i k).1.trans pid

/-- `context_switch` keeps what the scheduler sees of the slots, but for the one it switches to. -/
theorem sameStatus_switchTo (c : Cpu) (cur : Nat) (next : Slot) (k : Kernel) (i : Slot) : SameStatus
      ((k.set next { k.table next with state := .running, onCpu := UInt8.ofNat c }).table i)
      ((switchTo c cur next k).table i) := by
  unfold switchTo
  dsimp only [Kernel.setCpu]
  split
  · rename_i old _
    by_cases same : i = old
    · subst same
      rw [table_set_self]
      exact ⟨rfl, rfl⟩
    · rw [table_set_of_ne _ _ same]
      exact ⟨rfl, rfl⟩
  · exact ⟨rfl, rfl⟩

/-- What is known when `schedule_locked` has searched the table. -/
structure Searched (c : Cpu) (k k' : Kernel) (cur : Nat) : Prop where
  others : ∀ d, d ≠ c → KeepsOwn d k k' ∧ k'.cpus d = k.cpus d
  current : (k'.cpus c).current = cur
  inTable : cur = 0 ∨ ∃ i : Slot, cur = i + 1
  stays : ∀ i : Slot, cur = i + 1 → (k'.table i).pid = i + 1
  notOther : ∀ d, d ≠ c → ∀ i : Slot, cur = i + 1 → (k'.cpus d).current ≠ i + 1

lemma Sound.searched (sound : Sound k) {cur : Nat} {found : Option Slot}
    (decided : searched c smashed k = (k', cur, found)) : Searched c k k' cur := by
  obtain ⟨others, current, value⟩ := cpus_retire c smashed k
  have facts : Searched c k (Scheduler.searched c smashed k).1
      (Scheduler.searched c smashed k).2.1 := by
    refine ⟨fun d ne => ⟨sound.keepsOwn_retire smashed ne, others d ne⟩,
      current, ?_, fun i stays => sound.pid_retire smashed stays,
      fun d ne i stays has => ?_⟩
    · rcases value with zero | same
      · exact .inl zero
      rcases sound.runs c with idle | ⟨i, number, -, -⟩
      · exact .inl (same.trans idle)
      · exact .inr ⟨i, same.trans number⟩
    · have stays : (retire c smashed k).2 = i + 1 := stays
      have has : ((retire c smashed k).1.cpus d).current = i + 1 := has
      rw [others d ne] at has
      rcases value with zero | same
      · omega
      have none := sound.exclusive d c ne (has.trans (stays.symm.trans same))
      omega
  rwa [decided] at facts

lemma Sound.runs_schedule (sound : Sound k) {chosen : Option Nat}
    (ends : Schedules c smashed k chosen k')
    (free : ∀ pid, chosen = some pid → ∀ d, d ≠ c → (k.cpus d).current ≠ pid) (d : Cpu) :
    (k'.cpus d).current = 0 ∨ Runs k' (k'.cpus d).current := by
  by_cases same : d = c
  · subst same
    cases ends with
    | off => exact sound.runs d
    | lonely decided =>
      have state := sound.searched decided
      split
      · rename_i i slot
        have number := slotOf_eq_some_iff.mp slot
        refine .inr ⟨i, state.current.trans number, ?_, by rw [table_set_self]⟩
        rw [table_set_self]
        exact state.stays i number
      · rename_i none
        rcases state.inTable with zero | ⟨i, number⟩
        · exact .inl (state.current.trans zero)
        · rw [slotOf_eq_some_iff.mpr number] at none
          cases none
    | @again k' cur found next decided choice own somebody =>
      have state := sound.searched decided
      have pid := numbered_searched sound.wellFormed decided somebody
      refine .inr ⟨next, state.current.trans (own.symm.trans pid), ?_, ?_⟩
      · rw [table_set_self]
        exact pid
      · rw [table_set_self]
    | @switches k' cur found next decided choice other somebody =>
      have pid := numbered_searched sound.wellFormed decided somebody
      obtain ⟨samePid, sameState⟩ := sameStatus_switchTo d cur next k' next
      rw [table_set_self] at samePid sameState
      exact .inr ⟨next, (current_switchTo ..).trans pid, samePid.trans pid, sameState⟩
  refine sound.runs_of_keepsOwn ?_ (by rw [ends.cpus_of_ne same])
  cases ends with
  | off => exact fun _ _ => ⟨rfl, rfl⟩
  | lonely decided =>
    have state := sound.searched decided
    obtain ⟨kept, cpus⟩ := state.others d same
    refine kept.trans ?_ (by rw [cpus])
    split
    · rename_i i slot
      exact Scheduler.keepsOwn_set (state.notOther d same i (slotOf_eq_some_iff.mp slot))
    · exact fun _ _ => ⟨rfl, rfl⟩
  | @again k' cur found next decided choice own somebody =>
    have state := sound.searched decided
    obtain ⟨kept, cpus⟩ := state.others d same
    have pid := numbered_searched sound.wellFormed decided somebody
    refine kept.trans ?_ (by rw [cpus])
    exact Scheduler.keepsOwn_set (state.notOther d same next (own.symm.trans pid))
  | @switches k' cur found next decided choice other somebody =>
    have state := sound.searched decided
    obtain ⟨kept, cpus⟩ := state.others d same
    have pid := numbered_searched sound.wellFormed decided somebody
    refine kept.trans (fun i has => ?_) (by rw [cpus])
    have notNext : i ≠ next := by
      rintro rfl
      rw [cpus] at has
      exact free _ rfl d same (has.trans pid.symm)
    have status := sameStatus_switchTo c cur next k' i
    rw [table_set_of_ne _ _ notNext] at status
    exact status

/-! ## The search -/

/-- The number of slots that a search behind `i` looks at before it comes to `j`. -/
def gap (i j : Slot) : Nat := (j + 31 - i) % 32

variable {j : Slot} {cur : Nat}

lemma gap_nextSlot (other : nextSlot i ≠ j) : gap (nextSlot i) j + 1 = gap i j := by
  have iBound : i.val < 32 := i.isLt
  have jBound : j.val < 32 := j.isLt
  have values : (i.val + 1) % 32 ≠ j.val := fun same => other (Fin.ext same)
  simp only [gap, nextSlot, maxProcesses]
  omega

/-- The search stops at a candidate or in front of it. -/
lemma search_stops (candidate : isCandidate k cur j = true) {searches : Nat}
    (near : gap i j < searches) :
    ∃ n, search k cur searches i = (n, some n) ∧ (n = j ∨ gap n j < gap i j) := by
  induction searches generalizing i with
  | zero => cases near
  | succ searches ih =>
    rw [search]
    by_cases here : nextSlot i = j
    · rw [here, if_pos candidate]
      exact ⟨j, rfl, .inl rfl⟩
    have step := gap_nextSlot here
    split
    · exact ⟨_, rfl, .inr (by omega)⟩
    · obtain ⟨n, stops, nearer⟩ := @ih (nextSlot i) (by omega)
      exact ⟨n, stops, nearer.imp_right fun less => by omega⟩

lemma table_retire_of_ne (smashed : Bool) (other : (k.cpus c).current ≠ j + 1) :
    (retire c smashed k).1.table j = k.table j := by
  unfold retire
  split
  · rfl
  · rename_i i slot
    have ne : j ≠ i := by
      rintro rfl
      exact other (slotOf_eq_some_iff.mp slot)
    dsimp only
    split
    · rw [table_setCurrent]
      exact (table_clear_of_ne _ ne).trans (table_markReady_of_ne k ne)
    · exact table_markReady_of_ne k ne

/-- The search looks for what was ready before the call. -/
lemma Sound.isCandidate_retire_iff (sound : Sound k) (smashed : Bool) (j : Slot) :
    isCandidate (retire c smashed k).1 (retire c smashed k).2 j = true ↔ Marked k j .ready := by
  by_cases own : (k.cpus c).current = j + 1
  · obtain ⟨number, running⟩ := sound.running own
    refine iff_of_false ?_ fun ready => ?_
    · unfold retire isCandidate
      rw [slotOf_eq_some_iff.mpr own]
      dsimp only
      split
      · simp [Process.zero]
      · simp [table_markReady_self, number, own]
    · rw [ready.2] at running
      cases running
  · unfold isCandidate
    rw [table_retire_of_ne smashed own, decide_eq_true_iff]
    refine ⟨fun ⟨used, _, ready⟩ => ⟨used, ready⟩, fun ⟨used, ready⟩ => ⟨used, ?_, ready⟩⟩
    rw [(sound.wellFormed.numbered j).resolve_left used]
    rcases (cpus_retire c smashed k).2.2 with zero | same
    · omega
    · omega

lemma nextScheduleIndex_retire (c : Cpu) (smashed : Bool) (k : Kernel) :
    (retire c smashed k).1.nextScheduleIndex = k.nextScheduleIndex := by
  unfold retire
  split
  · rfl
  · have marked : ∀ i, (markReady i k).nextScheduleIndex = k.nextScheduleIndex := by
      intro i
      unfold markReady
      split <;> rfl
    dsimp only
    split
    · exact marked _
    · exact marked _

/-- What the search finds while a process is ready. -/
lemma Sound.searched_of_marked (sound : Sound k) (smashed : Bool) (ready : Marked k j .ready) :
    ∃ n, (Scheduler.searched c smashed k).2.2 = some n ∧
      (Scheduler.searched c smashed k).1.nextScheduleIndex = n ∧
        (n = j ∨ gap n j < gap k.nextScheduleIndex j) := by
  have near : gap k.nextScheduleIndex j < maxProcesses := Nat.mod_lt _ (by decide)
  have index := nextScheduleIndex_retire c smashed k
  rw [← index] at near ⊢
  obtain ⟨n, stops, nearer⟩ :=
    search_stops ((sound.isCandidate_retire_iff smashed j).mpr ready) near
  exact ⟨n, congrArg Prod.snd stops, congrArg Prod.fst stops, nearer⟩

/-- Another processor has what is selected exactly if nothing is ready and it has the idle
process. -/
theorem Sound.selectsTaken_iff (sound : Sound k) (c : Cpu) (smashed : Bool) :
    SelectsTaken c smashed k ↔ FallsBack k (c, .schedule smashed) := by
  have ends := schedules c smashed k
  unfold SelectsTaken FallsBack
  generalize scheduleLocked c smashed k = k', selected c smashed k = chosen at ends ⊢
  constructor
  · rintro ⟨pid, d, rfl, ne, taken⟩
    cases ends with
    | @switches k' cur found next decided choice other somebody on =>
      have has := taken.trans (numbered_searched sound.wellFormed decided somebody)
      cases found with
      | some i =>
        obtain rfl : next = i := choice
        have candidate := isCandidate_of_searched (congrArg (fun decided => decided.2.2) decided)
        have ready := (sound.isCandidate_retire_iff smashed next).mp candidate
        have running := (sound.running has).2
        rw [ready.2] at running
        cases running
      | none =>
        obtain rfl : next = idleSlot := choice
        refine ⟨on, fun i ready => ?_, d, ne, has⟩
        obtain ⟨n, some, -⟩ := sound.searched_of_marked smashed ready
        rw [decided] at some
        cases some
  · rintro ⟨on, nothing, d, ne, has⟩
    have unfound : (Scheduler.searched c smashed k).2.2 = none := by
      refine eq_none_iff_forall_ne_some.mpr fun i found => nothing i ?_
      exact (sound.isCandidate_retire_iff smashed i).mp (isCandidate_of_searched found)
    have idle : ((Scheduler.searched c smashed k).1.table idleSlot).pid = 1 :=
      (sound.keepsOwn_retire smashed ne idleSlot has).1.trans (sound.running has).1
    cases ends with
    | off off => exact absurd off (not_or.mpr ⟨on.1, by simp [on.2]⟩)
    | lonely decided nobody =>
      rw [decided, nobody] at idle
      cases idle
    | again decided choice own =>
      have state := sound.searched decided
      rw [decided] at unfound idle
      obtain rfl : _ = none := unfound
      obtain rfl := choice
      refine absurd ?_ (state.notOther d ne idleSlot (own.symm.trans idle))
      rw [(state.others d ne).2]
      exact has
    | switches decided choice =>
      rw [decided] at unfound idle
      obtain rfl : _ = none := unfound
      obtain rfl := choice
      exact ⟨_, d, rfl, ne, has.trans idle.symm⟩

/-- The step lemma. -/
theorem Sound.step (sound : Sound k) {call : Cpu × Call} (calm : ¬ FallsBack k call)
    (honest : ¬ Theft k call) : Sound (kernelMachine k call).1 := by
  obtain ⟨c, call⟩ := call
  have wellFormed := sound.wellFormed.perform c call
  by_cases isSchedule : ∃ smashed, call = .schedule smashed
  · obtain ⟨smashed, rfl⟩ := isSchedule
    have free := mt (sound.selectsTaken_iff c smashed).mp calm
    refine ⟨wellFormed, fun d => ?_, (exclusive_schedule_iff sound.exclusive c smashed).mpr free⟩
    exact sound.runs_schedule (schedules c smashed k)
      (fun pid chosen d ne has => free ⟨pid, d, chosen, ne, has⟩) d
  · have other : ∀ smashed, call ≠ .schedule smashed := fun smashed is => isSchedule ⟨smashed, is⟩
    exact ⟨wellFormed, sound.runs_perform other honest, sound.exclusive.perform c other⟩

lemma sound_boot : Sound boot := by
  have runs : ∀ c : Cpu, (boot.cpus c).current = 0 ∨ ∃ i : Slot, (boot.cpus c).current = i + 1 ∧
      (boot.table i).pid = i + 1 ∧ (boot.table i).state = .running := by
    decide +kernel
  exact ⟨wellFormed_boot, runs, exclusive_boot⟩

/-! ## Runs -/

/-- The processors that wake up first behind the boot processor. -/
def secondCpu : Cpu := ⟨1, by decide⟩

@[inherit_doc secondCpu]
def thirdCpu : Cpu := ⟨2, by decide⟩

/-- In a run in which no call ends a process that another processor executes, no process is current
on two processors at any moment if and only if no processor schedules while nothing is ready and
the idle process runs elsewhere. -/
theorem exclusive_always_iff {calls : List (Cpu × Call)}
    (honest : kernelMachine.Along (fun k call => ¬ Theft k call) boot calls) :
    (∀ before after, calls = before ++ after → Exclusive (kernelMachine.run boot before)) ↔
      kernelMachine.Along (fun k call => ¬ FallsBack k call) boot calls := by
  refine Machine.forall_before_iff_along (fun _ _ sound honest calm => sound.step calm honest)
    (fun k call sound _ kept => ?_) (fun _ => Sound.exclusive) sound_boot honest
  obtain ⟨c, call⟩ := call
  cases call with
  | schedule smashed =>
    have free := (exclusive_schedule_iff sound.exclusive c smashed).mp kept
    exact mt (sound.selectsTaken_iff c smashed).mpr free
  | _ => exact not_false

theorem exclusive_always_second_cpu :
    Exclusive boot ∧ Exclusive (kernelMachine.run boot [(secondCpu, .schedule false)]) := by
  have always := (@exclusive_always_iff [(secondCpu, .schedule false)] ⟨id, trivial⟩).mpr
    ⟨fun falls => absurd falls.2.2 (by decide +kernel), trivial⟩
  exact ⟨always [] _ rfl, always _ [] rfl⟩

/-- Two processors with nothing to do both get the idle process. -/
theorem idle_on_two_cpus : ¬ Exclusive (kernelMachine.run boot
      [(secondCpu, .schedule false), (thirdCpu, .schedule false)]) := by
  intro exclusive
  have same := exclusive secondCpu thirdCpu (by decide) (by decide +kernel)
  exact absurd same (by decide +kernel)

end CupidOs.Scheduler
