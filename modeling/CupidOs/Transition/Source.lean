import Mathlib.Data.List.Basic

/-!
# Loops that pull from a finite source

A source hands out items until it is dry; each item makes what is left smaller. `pull` takes items
while it wants more, and fails when an item is refused or the source is dry. `Delivers` says what
a source hands out next, and `Reads` is the log of what was taken, with the states in which it was
asked.
-/

namespace CupidOs.Transition

variable {σ ρ α ε : Type}

/-- Something that hands out items and shrinks with each of them. -/
structure Source (σ ρ : Type) where
  next : σ → Option (ρ × σ)
  size : σ → Nat
  shrinks : ∀ {state item rest}, next state = some (item, rest) → size rest < size state

namespace Source

/-- The loop with a bound on its rounds. -/
def loop (source : Source σ ρ) (more : α → Bool) (take : α → ρ → Except ε α) (dry : ε) :
    Nat → α → σ → Except ε (α × σ)
  | 0, acc, state => if more acc then .error dry else .ok (acc, state)
  | rounds + 1, acc, state =>
    if more acc then
      match source.next state with
      | none => .error dry
      | some (item, rest) =>
        match take acc item with
        | .error error => .error error
        | .ok acc => loop source more take dry rounds acc rest
    else
      .ok (acc, state)

/-- Take items while more are wanted. -/
def pull (source : Source σ ρ) (more : α → Bool) (take : α → ρ → Except ε α) (dry : ε)
    (acc : α) (state : σ) : Except ε (α × σ) :=
  source.loop more take dry (source.size state) acc state

section

variable {source : Source σ ρ} {more : α → Bool} {take : α → ρ → Except ε α} {dry : ε} {acc : α}
  {state : σ}

lemma loop_of_done (done : more acc = false) (rounds : Nat) (state : σ) :
    source.loop more take dry rounds acc state = .ok (acc, state) := by
  cases rounds <;> simp [loop, done]

lemma next_eq_none {state : σ} (empty : source.size state = 0) : source.next state = none := by
  cases nextEq : source.next state with
  | none => rfl
  | some handed =>
    have shrunk : source.size handed.2 < source.size state := source.shrinks nextEq
    omega

/-- Any two bounds that the size of the state does not exceed give the same loop. -/
theorem loop_congr {first second : Nat} (firstEnough : source.size state ≤ first)
    (secondEnough : source.size state ≤ second) :
    source.loop more take dry first acc state = source.loop more take dry second acc state := by
  induction first generalizing second acc state with
  | zero =>
    have dried := next_eq_none (Nat.le_zero.mp firstEnough)
    cases second with
    | zero => rfl
    | succ second => simp only [loop, dried]
  | succ first ih =>
    cases nextEq : source.next state with
    | none => cases second <;> simp only [loop, nextEq]
    | some handed =>
      have shrunk : source.size handed.2 < source.size state := source.shrinks nextEq
      cases second with
      | zero => omega
      | succ second =>
        simp only [loop, nextEq]
        cases take acc handed.1 with
        | error error => rfl
        | ok after => simp only [ih (show source.size handed.2 ≤ first by omega)
            (show source.size handed.2 ≤ second by omega)]

lemma pull_of_done (done : more acc = false) (state : σ) :
    source.pull more take dry acc state = .ok (acc, state) :=
  loop_of_done done _ state

lemma pull_of_dry (wanted : more acc = true) (dried : source.next state = none) :
    source.pull more take dry acc state = .error dry := by
  rw [pull]
  cases source.size state <;> simp only [loop, wanted, dried, if_true]

lemma pull_of_next {rest : σ} {item : ρ} (wanted : more acc = true)
    (handed : source.next state = some (item, rest)) :
    source.pull more take dry acc state =
      (take acc item).bind fun acc => source.pull more take dry acc rest := by
  have shrunk := source.shrinks handed
  rw [pull]
  cases sizeEq : source.size state with
  | zero => omega
  | succ size =>
    simp only [loop, wanted, handed, if_true]
    cases take acc item with
    | error error => rfl
    | ok after => exact loop_congr (by omega) (Nat.le_refl _)

lemma pull_invariant {I : α → σ → Prop}
    (kept : ∀ {acc state item rest after}, I acc state → more acc = true →
      source.next state = some (item, rest) → take acc item = .ok after → I after rest) {after : α}
    {rest : σ} (start : I acc state)
    (stopped : source.pull more take dry acc state = .ok (after, rest)) :
    I after rest ∧ more after = false := by
  rw [pull] at stopped
  generalize source.size state = rounds at stopped
  induction rounds generalizing acc state with
  | zero =>
    rw [loop] at stopped
    split at stopped
    · cases stopped
    rename_i done
    cases stopped
    exact ⟨start, Bool.eq_false_iff.mpr done⟩
  | succ rounds ih =>
    rw [loop] at stopped
    split at stopped
    · rename_i wanted
      split at stopped
      · cases stopped
      rename_i item next handed
      split at stopped
      · cases stopped
      · rename_i taken took
        exact ih (kept start wanted handed took) stopped
    · rename_i done
      cases stopped
      exact ⟨start, Bool.eq_false_iff.mpr done⟩

lemma pull_pull {less : α → Bool} (weaker : ∀ acc, less acc = true → more acc = true)
    (acc : α) (state : σ) :
    ((source.pull less take dry acc state).bind fun stopped =>
        source.pull more take dry stopped.1 stopped.2) =
      source.pull more take dry acc state := by
  generalize sizeEq : source.size state = size
  induction size using Nat.strongRecOn generalizing acc state with
  | ind size ih =>
    cases wanted : less acc with
    | false =>
      rw [pull_of_done wanted]
      rfl
    | true =>
      cases nextEq : source.next state with
      | none =>
        rw [pull_of_dry wanted nextEq, pull_of_dry (weaker acc wanted) nextEq]
        rfl
      | some handed =>
        obtain ⟨item, rest⟩ := handed
        rw [pull_of_next wanted nextEq, pull_of_next (weaker acc wanted) nextEq]
        cases take acc item with
        | error error => rfl
        | ok after => exact ih _ (by rw [← sizeEq]; exact source.shrinks nextEq) after rest rfl

end

/-- What a source hands out next. -/
def Delivers (source : Source σ ρ) : σ → List ρ → Prop
  | _, [] => True
  | state, item :: items => ∃ rest, source.next state = some (item, rest) ∧ source.Delivers rest items

/-- The states in which a source was asked, with what it handed out, from one state to another. -/
def Reads (source : Source σ ρ) : σ → List (σ × ρ) → σ → Prop
  | start, [], final => start = final
  | start, entry :: log, final =>
    entry.1 = start ∧ ∃ rest, source.next start = some (entry.2, rest) ∧ source.Reads rest log final

section

variable {source : Source σ ρ} {final start : σ}

lemma Reads.append {middle : σ} {first second : List (σ × ρ)}
    (before : source.Reads start first middle) (after : source.Reads middle second final) :
    source.Reads start (first ++ second) final := by
  induction first generalizing start with
  | nil =>
    cases before
    exact after
  | cons entry log ih =>
    obtain ⟨asked, rest, handed, later⟩ := before
    exact ⟨asked, rest, handed, ih later⟩

variable {log : List (σ × ρ)}

/-- What is kept by each item holds wherever a source was asked, and at the end. -/
theorem Reads.invariant {I : σ → Prop}
    (kept : ∀ {state item rest}, I state → source.next state = some (item, rest) → I rest)
    (reads : source.Reads start log final) (holds : I start) :
    (∀ entry ∈ log, I entry.1) ∧ I final := by
  induction log generalizing start with
  | nil =>
    cases reads
    exact ⟨nofun, holds⟩
  | cons entry log ih =>
    obtain ⟨asked, rest, handed, later⟩ := reads
    obtain ⟨inLog, atEnd⟩ := ih later (kept holds handed)
    refine ⟨fun other mem => ?_, atEnd⟩
    rcases List.mem_cons.mp mem with rfl | mem
    · rw [asked]
      exact holds
    · exact inLog other mem

lemma Reads.size_le (reads : source.Reads start log final) :
    source.size final ≤ source.size start := by
  induction log generalizing start with
  | nil =>
    cases reads
    exact Nat.le_refl _
  | cons entry log ih =>
    obtain ⟨-, rest, handed, later⟩ := reads
    exact Nat.le_of_lt (Nat.lt_of_le_of_lt (ih later) (source.shrinks handed))

lemma Reads.unique {first second : List (σ × ρ)}
    (one : source.Reads start first final) (other : source.Reads start second final) :
    first = second := by
  induction first generalizing start second with
  | nil =>
    cases one
    cases second with
    | nil => rfl
    | cons entry log =>
      obtain ⟨-, rest, handed, later⟩ := other
      have shrunk := source.shrinks handed
      have bound := later.size_le
      omega
  | cons entry log ih =>
    obtain ⟨asked, rest, handed, later⟩ := one
    cases second with
    | nil =>
      cases other
      have shrunk := source.shrinks handed
      have bound := later.size_le
      omega
    | cons entry' log' =>
      obtain ⟨asked', rest', handed', later'⟩ := other
      rw [handed] at handed'
      obtain ⟨items, rests⟩ := Prod.mk.inj (Option.some.inj handed')
      rw [← rests] at later'
      rw [ih later later', Prod.ext (asked.trans asked'.symm) items]

lemma Reads.handed (reads : source.Reads start log final)
    {entry : σ × ρ} (mem : entry ∈ log) : ∃ rest, source.next entry.1 = some (entry.2, rest) := by
  induction log generalizing start with
  | nil => cases mem
  | cons first log ih =>
    obtain ⟨asked, rest, handed, later⟩ := reads
    rcases List.mem_cons.mp mem with rfl | mem
    · exact ⟨rest, by rw [asked]; exact handed⟩
    · exact ih later mem

lemma pull_reads {more : α → Bool} {take : α → ρ → Except ε α} {dry : ε}
    {J : List (σ × ρ) → α → Prop}
    (kept : ∀ {log acc state item after}, J log acc → more acc = true →
      take acc item = .ok after → J (log ++ [(state, item)]) after)
    {acc after : α} {state rest : σ} (start : J [] acc)
    (stopped : source.pull more take dry acc state = .ok (after, rest)) :
    ∃ log, source.Reads state log rest ∧ J log after ∧ more after = false := by
  have reached := pull_invariant (I := fun acc now => ∃ log, source.Reads state log now ∧ J log acc)
    (fun ⟨log, reads, holds⟩ wanted handed took =>
      ⟨log ++ [(_, _)], reads.append ⟨rfl, _, handed, rfl⟩, kept holds wanted took⟩)
    ⟨[], rfl, start⟩ stopped
  obtain ⟨⟨log, reads, holds⟩, done⟩ := reached
  exact ⟨log, reads, holds, done⟩

end

end Source

end CupidOs.Transition
