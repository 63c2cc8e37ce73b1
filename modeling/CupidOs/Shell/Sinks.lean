import CupidOs.Scheduler.Table

/-!
# Output sinks

The process of an SSH session executes the lines that the client sends, and what they print goes to
the channel by way of `process_output_sinks`.  Each process has an entry there; entry 0 stands in
for the processes that have none.  `exec_line_to_channel` sets both entries and clears them
again, and other processes, sessions among them, do what they like between its stores.
-/

namespace CupidOs.Shell

open Function Scheduler Transition

/-- Where a session stands.  The points between `between` and `gone` are those of
`exec_line_to_channel` after each of its first three stores. -/
inductive Point where
  | fresh | between | fallbackSet | executing | ownCleared | gone
deriving DecidableEq

/-- A byte on a channel, with the session to which the process that printed it belongs. -/
structure Delivered (S : Type) where
  byte : UInt8
  printer : Option S
deriving DecidableEq

/-- The table of the sinks and what is to be known about processes and sessions.  A process belongs
to the session that it serves, and what a process starts belongs where it belongs. -/
structure Sinks (S : Type) where
  active : Bool
  sinks : Nat → Option S
  owner : Nat → Option (Option S)
  point : S → Point
  channel : S → List (Delivered S)

namespace Sinks

variable {S : Type} [DecidableEq S]

/-- `shell_set_process_output_sink` with `ssh_output_sink`; with no session,
`shell_clear_process_output_sink` -/
def setProcessOutputSink (s : Sinks S) (pid : Nat) (sink : Option S) : Sinks S :=
  if pid > maxProcesses then s else { s with sinks := update s.sinks pid sink }

/-- The sink that `shell_output_write_current` calls. -/
def currentSink (s : Sinks S) (pid : Nat) : Option S :=
  if !s.active then s.sinks 0
  else if pid ≤ maxProcesses ∧ (s.sinks pid).isSome then s.sinks pid
  else s.sinks 0

/-- What `ssh_output_sink` sends. -/
def sinkBytes (buf : List UInt8) : List UInt8 :=
  buf.flatMap fun c => if c = 10 then [13, 10] else [c]

/-- `shell_output_write_current` -/
def outputWriteCurrent (s : Sinks S) (pid : Nat) (printer : Option S) (buf : List UInt8) :
    Sinks S :=
  match s.currentSink pid with
  | none => s
  | some session =>
    let sent := (sinkBytes buf).map (Delivered.mk · printer)
    { s with channel := update s.channel session (s.channel session ++ sent) }

-- The process of each session.
variable (pid : S → Nat)

/-- The next store of `exec_line_to_channel`. -/
def execStep (s : Sinks S) (session : S) : Sinks S :=
  let goto (s : Sinks S) (next : Point) := { s with point := update s.point session next }
  match s.point session with
  | .between => goto (s.setProcessOutputSink 0 (some session)) .fallbackSet
  | .fallbackSet => goto (s.setProcessOutputSink (pid session) (some session)) .executing
  | .executing => goto (s.setProcessOutputSink (pid session) none) .ownCleared
  | .ownCleared => goto (s.setProcessOutputSink 0 none) .between
  | .fresh | .gone => s

/-- What can happen next. -/
inductive Event (S : Type) where
  | activate
  | accept (session : S)
  | step (session : S)
  | spawn (parent child : Nat)
  | exit (pid : Nat)
  | print (pid : Nat) (buf : List UInt8)

/-- `process_create` finds a slot for the process. -/
def Vacant (s : Sinks S) (pid : Nat) : Prop :=
  s.owner pid = none ∧ 0 < pid ∧ pid ≤ maxProcesses

instance (s : Sinks S) (pid : Nat) : Decidable (s.Vacant pid) :=
  inferInstanceAs (Decidable (_ ∧ _))

/-- The system executes one event.  A session that makes a step arrives at a point. -/
def next : Machine (Sinks S) (Event S) (Option (S × Point)) := fun s event =>
  (match event with
    | .activate => { s with active := true }
    | .accept session =>
      if s.point session = .fresh ∧ s.Vacant (pid session) then
        { s with
          owner := update s.owner (pid session) (some (some session))
          point := update s.point session .between }
      else s
    | .step session => s.execStep pid session
    | .spawn parent child =>
      if s.owner parent ≠ none ∧ s.Vacant child then
        { s with owner := update s.owner child (s.owner parent) }
      else s
    | .exit ended =>
      if ended ≤ 1 then s
      else
        { s with
          owner := update s.owner ended none
          point := fun session =>
            if pid session = ended ∧ s.point session ≠ .fresh then .gone else s.point session }
    | .print printer buf =>
      match s.owner printer with
      | none => s
      | some owner => s.outputWriteCurrent printer owner buf,
    match event with
    | .step session => some (session, (s.execStep pid session).point session)
    | _ => none)

/-- No session yet, and no process but the boot code and the idle process. -/
def boot : Sinks S where
  active := false
  sinks _ := none
  owner pid := if pid ≤ 1 then some none else none
  point _ := .fresh
  channel _ := []

/-- Each channel has only what its own processes printed. -/
def Isolated (s : Sinks S) : Prop :=
  ∀ session, ∀ sent ∈ s.channel session, sent.printer = some session

/-- The lines of the sessions: the points at which they arrived, the latest first. -/
abbrev Lines (S : Type) := List (S × Point)

/-- A session arrives at the next point of its line. -/
def noteLine (lines : Lines S) (_ : Event S) (arrived : Option (S × Point)) : Lines S :=
  arrived.toList ++ lines

/-- The session that was the last to arrive at `entered`, if none has arrived at `left` since. -/
def lastTo (entered left : Point) (p : S → Prop) [DecidablePred p] : Lines S → Option S
  | [] => none
  | (session, point) :: lines =>
    if p session ∧ point = entered then some session
    else if p session ∧ point = left then none
    else lastTo entered left p lines

/-- The session that has begun a line since a line ended, the last one if there are several. -/
def begunLast (lines : Lines S) : Option S :=
  lastTo .fallbackSet .between (fun _ => True) lines

/-- The session that executes a line in a process, or did when the process was ended. -/
def executingIn (process : Nat) (lines : Lines S) : Option S :=
  lastTo .executing .ownCleared (fun session => pid session = process) lines

/-- What a process prints goes to no session to which it does not belong.  If a line is executed in
it, that can only be a line in the middle of which a session was ended; otherwise it is the line
begun last that counts. -/
def Entitled (h : Sinks S × Lines S) : Event S → Prop
  | .print printer buf => ∀ owner, h.1.owner printer = some owner → buf ≠ [] →
      if h.1.active = true ∧ printer ≠ 0 ∧ executingIn pid printer h.2 ≠ none then
        ∀ session, executingIn pid printer h.2 = some session → h.1.point session = .gone →
          owner = some session
      else ∀ session, begunLast h.2 = some session → owner = some session
  | _ => True

/-! ## The entries -/

/-- A session stands where its process is, and an entry of a process is of the session that
executes a line in it, or of one that did when it ended. -/
structure Kept (s : Sinks S) : Prop where
  entry : ∀ {process session}, process ≠ 0 → s.sinks process = some session →
    pid session = process ∧ (s.point session = .executing ∨ s.point session = .gone)
  served : ∀ {session}, s.point session ≠ .fresh → s.point session ≠ .gone →
    s.owner (pid session) = some (some session) ∧ 0 < pid session ∧ pid session ≤ maxProcesses
  bounded : ∀ {process}, s.owner process ≠ none → process ≤ maxProcesses

/-- The entries hold what the lines have stored in them. -/
structure Told (s : Sinks S) (lines : Lines S) : Prop where
  shared : s.sinks 0 = begunLast lines
  own : ∀ {process}, process ≠ 0 → s.sinks process = executingIn pid process lines

variable {pid} {s : Sinks S}

omit [DecidableEq S] in
lemma kept_boot : Kept pid (boot : Sinks S) where
  entry := by simp [boot]
  served := by simp [boot]
  bounded known := by grind [boot, maxProcesses]

omit [DecidableEq S] in
/-- The bounds of a process are those of the table. -/
lemma setProcessOutputSink_eq {process : Nat} (fits : process ≤ maxProcesses) (sink : Option S) :
    s.setProcessOutputSink process sink = { s with sinks := update s.sinks process sink } :=
  if_neg (by omega)

/-- A store of `exec_line_to_channel` on the way from one of its points to the next. -/
lemma Kept.execStep (kept : Kept pid s) (session : S) : Kept pid (s.execStep pid session) := by
  have entry := @kept.entry
  have served := @kept.served
  unfold Sinks.execStep
  cases atPoint : s.point session with
  | fresh | gone => exact kept
  | between | fallbackSet | executing | ownCleared =>
    obtain ⟨own, positive, fits⟩ := @served session (by simp [atPoint]) (by simp [atPoint])
    simp only [setProcessOutputSink_eq, fits, Nat.zero_le]
    refine ⟨?_, ?_, kept.bounded⟩
    · intro process other used found
      dsimp only at found ⊢
      grind [update_apply]
    · intro other started ended
      dsimp only at started ended ⊢
      grind [update_apply]

/-- No event breaks the connection between the entries and the sessions. -/
lemma Kept.next (kept : Kept pid s) (event : Event S) : Kept pid (next pid s event).1 := by
  have entry := @kept.entry
  have served := @kept.served
  have bounded := @kept.bounded
  cases event with
  | activate => exact ⟨entry, served, bounded⟩
  | step session => exact kept.execStep session
  | accept session =>
    dsimp only [Sinks.next]
    split_ifs with room
    · obtain ⟨new, vacant, positive, fits⟩ := room
      refine ⟨?_, ?_, ?_⟩ <;> dsimp only <;> grind [update_apply]
    · exact kept
  | spawn parent child =>
    dsimp only [Sinks.next]
    split_ifs with room
    · obtain ⟨known, vacant, positive, fits⟩ := room
      refine ⟨entry, ?_, ?_⟩ <;> dsimp only <;> grind [update_apply]
    · exact kept
  | exit ended =>
    dsimp only [Sinks.next]
    split_ifs with refused
    · exact kept
    · refine ⟨?_, ?_, ?_⟩ <;> dsimp only <;> grind [update_apply]
  | print printer buf =>
    dsimp only [Sinks.next, outputWriteCurrent]
    split
    · exact kept
    · split
      · exact kept
      · exact ⟨entry, served, bounded⟩

/-- Only a session that arrives at the next point of its line changes an entry. -/
lemma Told.next {lines : Lines S} (told : Told pid s lines) (kept : Kept pid s) (event : Event S) :
    Told pid (next pid s event).1 (noteLine lines event (next pid s event).2) := by
  have shared := told.shared
  have own := @told.own
  cases event with
  | step session =>
    dsimp only [Sinks.next, noteLine, Option.toList_some, List.singleton_append, execStep]
    cases atPoint : s.point session with
    | fresh | gone => constructor <;> grind [begunLast, executingIn, lastTo]
    | between | fallbackSet | executing | ownCleared =>
      obtain ⟨-, positive, fits⟩ := @kept.served session (by simp [atPoint]) (by simp [atPoint])
      simp only [setProcessOutputSink_eq, fits, Nat.zero_le, update_self]
      constructor <;> grind [begunLast, executingIn, lastTo, update_apply]
  | activate => exact ⟨shared, own⟩
  | accept session | spawn parent child | exit ended =>
    dsimp only [Sinks.next, noteLine, Option.toList_none, List.nil_append]
    split_ifs <;> exact ⟨shared, own⟩
  | print printer buf =>
    dsimp only [Sinks.next, outputWriteCurrent, noteLine, Option.toList_none, List.nil_append]
    split
    · exact told
    · split
      · exact told
      · exact ⟨shared, own⟩

/-! ## The channels -/

omit [DecidableEq S] in
/-- Where the output of a process goes. -/
lemma Kept.foreign_iff (kept : Kept pid s) {lines : Lines S} (told : Told pid s lines)
    {printer : Nat} {owner : Option S} (known : s.owner printer = some owner) :
    (∀ session, s.currentSink printer = some session → owner = some session) ↔
      if s.active = true ∧ printer ≠ 0 ∧ executingIn pid printer lines ≠ none then
        ∀ session, executingIn pid printer lines = some session → s.point session = .gone →
          owner = some session
      else ∀ session, begunLast lines = some session → owner = some session := by
  have fits : printer ≤ maxProcesses := kept.bounded (by simp [known])
  rw [← told.shared]
  split_ifs with own
  · obtain ⟨active, used, found⟩ := own
    rw [← told.own used] at found ⊢
    obtain ⟨session, found⟩ := Option.ne_none_iff_exists'.mp found
    have current : s.currentSink printer = some session := by
      simp [currentSink, active, fits, found]
    obtain ⟨rfl, executing | gone⟩ := kept.entry used found
    · obtain ⟨own, -⟩ := @kept.served session (by simp [executing]) (by simp [executing])
      grind
    · grind
  · have current : s.currentSink printer = s.sinks 0 := by
      grind [currentSink, told.own]
    rw [current]

lemma sinkBytes_eq_nil_iff (buf : List UInt8) : sinkBytes buf = [] ↔ buf = [] := by
  cases buf <;> grind [sinkBytes]

/-- Output arrives on the channel of the session whose sink is found. -/
lemma isolated_outputWriteCurrent_iff (printer : Nat) (owner : Option S) (buf : List UInt8) :
    Isolated (s.outputWriteCurrent printer owner buf) ↔ Isolated s ∧
      (buf ≠ [] → ∀ session, s.currentSink printer = some session → owner = some session) := by
  unfold outputWriteCurrent
  cases found : s.currentSink printer with
  | none => simp
  | some session =>
    have arrives : (∀ sent ∈ (sinkBytes buf).map (Delivered.mk · owner),
        sent.printer = some session) ↔ (buf ≠ [] → owner = some session) := by
      rw [Ne, ← sinkBytes_eq_nil_iff]
      cases sinkBytes buf <;> simp +contextual
    simp only [Option.some.injEq, forall_eq', ← arrives, Isolated]
    constructor
    · intro isolated
      refine ⟨fun other sent old => isolated other sent ?_,
        fun sent new => isolated session sent ?_⟩
      · grind [update_apply]
      · simp [update_self, new]
    · rintro ⟨isolated, new⟩ other sent here
      grind [update_apply]

/-- One event keeps the channels apart exactly if what it prints may go where it goes. -/
lemma isolated_next_iff (kept : Kept pid s) {lines : Lines S} (told : Told pid s lines)
    (event : Event S) :
    Isolated (next pid s event).1 ↔ Isolated s ∧ Entitled pid (s, lines) event := by
  cases event with
  | print printer buf =>
    dsimp only [next, Entitled]
    cases known : s.owner printer with
    | none => simp
    | some owner =>
      rw [isolated_outputWriteCurrent_iff, kept.foreign_iff told known]
      simp only [Option.some.injEq, forall_eq']
  | activate => simp [next, Entitled, Isolated]
  | accept session | spawn parent child | exit ended =>
    dsimp only [next, Entitled]
    split_ifs <;> simp [Isolated]
  | step session =>
    have same : (s.execStep pid session).channel = s.channel := by
      cases atPoint : s.point session <;> grind [execStep, setProcessOutputSink]
    simp only [next, Entitled, Isolated, same, and_true]

/-- The channels are kept apart in a run exactly if a line is executed in each process that prints,
and not one left behind by a session to which it does not belong, or else the process belongs to the
session that began a line last, if there is one since a line ended. -/
theorem isolated_iff (pid : S → Nat) (events : List (Event S)) :
    Isolated ((next pid).run boot events) ↔
      ((next pid).observe noteLine).Along (Entitled pid) (boot, []) events := by
  suffices ∀ {s : Sinks S} {lines}, Kept pid s → Told pid s lines →
      (Isolated ((next pid).run s events) ↔ Isolated s ∧
        ((next pid).observe noteLine).Along (Entitled pid) (s, lines) events) by
    rw [@this boot [] kept_boot ⟨rfl, fun _ => rfl⟩, and_iff_right]
    simp [Isolated, boot]
  induction events with
  | nil => simp
  | cons event events ih =>
    intro s lines kept told
    rw [Machine.run_cons, ih (kept.next event) (told.next kept event),
      isolated_next_iff kept told event, Machine.along_cons_iff, and_assoc]
    rfl

/-- A process of the console prints while a session executes a line. -/
theorem console_output_sent : ¬ Isolated ((next fun _ : Unit => 3).run boot
    [.activate, .spawn 1 2, .accept (), .step (), .step (), .print 2 [120]]) := by
  intro isolated
  have := isolated () ⟨120, none⟩ (by decide)
  exact absurd this (by decide)

end Sinks

end CupidOs.Shell
