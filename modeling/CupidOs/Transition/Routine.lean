import CupidOs.Transition.Fallible
import Mathlib.Order.Defs.Unbundled

/-!
# Routines with a state

A routine works on a state. It returns a result, gives up and leaves the state for its caller, or
is stopped by a fault. `Keeps` says that it has no fault, that it moves the state along a preorder
however it ends, and what holds of its result. The rules follow the way routines are put together.
-/

namespace CupidOs.Transition

/-- How a routine ends without a result. -/
inductive Halt (φ σ : Type) where
  | gaveUp (state : σ)
  | fault (reason : φ)

/-- A computation on a state that may end without a result. -/
abbrev Routine (φ σ α : Type) := StateT σ (Except (Halt φ σ)) α

namespace Routine

variable {φ σ α β : Type}

/-- Return to the caller without a result. -/
def giveUp : Routine φ σ α := fun state => .error (.gaveUp state)

/-- Stop for good. -/
def fault (reason : φ) : Routine φ σ α := fun _ => .error (.fault reason)

/-- Go on if a condition holds. -/
def check (condition : Prop) [Decidable condition] : Routine φ σ Unit :=
  if condition then pure () else giveUp

/-- Call a routine and look at whether it returned a result. -/
def attempt (routine : Routine φ σ α) : Routine φ σ (Option α) := fun state =>
  match routine state with
  | .ok (result, later) => .ok (some result, later)
  | .error (.gaveUp later) => .ok (none, later)
  | .error (.fault reason) => .error (.fault reason)

/-- Repeat a body until it gives a result, for a bounded number of rounds. -/
def loop (stuck : φ) (body : β → Routine φ σ (α ⊕ β)) : Nat → β → Routine φ σ α
  | 0, _ => fault stuck
  | fuel + 1, locals => do
      match ← body locals with
      | .inl result => return result
      | .inr locals => loop stuck body fuel locals

/-- A fetch or a store that is a fault where it leaves its object. -/
def inside (step : Option α) (outside : φ) : Routine φ σ α :=
  match step with
  | some result => pure result
  | none => fault outside

variable {routine : Routine φ σ α} {next : α → Routine φ σ β}

lemma bind_of_ok {state later : σ} {result : α}
    (ok : routine state = .ok (result, later)) : (routine >>= next) state = next result later := by
  change (routine state >>= fun pair => next pair.1 pair.2) = _
  rw [ok]
  rfl

lemma bind_of_error {state : σ} {halt : Halt φ σ}
    (failed : routine state = .error halt) : (routine >>= next) state = .error halt := by
  change (routine state >>= fun pair => next pair.1 pair.2) = _
  rw [failed]
  rfl

lemma attempt_of_fault {state : σ} {reason : φ} (failed : routine state = .error (.fault reason)) :
    attempt routine state = .error (.fault reason) := by
  rw [attempt, failed]

/-- The routine has no fault, it moves the state along a relation, and its result has a
property. -/
def Keeps (moves : σ → σ → Prop) (routine : Routine φ σ α) (state : σ)
    (post : α → σ → Prop) : Prop :=
  match routine state with
  | .ok (result, later) => moves state later ∧ post result later
  | .error (.gaveUp later) => moves state later
  | .error (.fault _) => False

section Keeps

variable {moves : σ → σ → Prop} {routine : Routine φ σ α} {state : σ} {post : α → σ → Prop}
  {result : α} {goal : β → σ → Prop}

section

variable (keeps : Keeps moves routine state post)
include keeps

lemma Keeps.of_ok {later : σ}
    (ok : routine state = .ok (result, later)) : moves state later ∧ post result later := by
  rw [Keeps, ok] at keeps
  exact keeps

lemma Keeps.cases :
    (∃ result later, routine state = .ok (result, later) ∧ moves state later ∧ post result later) ∨
      ∃ later, routine state = .error (.gaveUp later) ∧ moves state later := by
  unfold Keeps at keeps
  split at keeps
  · rename_i result later ok
    exact .inl ⟨result, later, ok, keeps⟩
  · rename_i later failed
    exact .inr ⟨later, failed, keeps⟩
  · exact keeps.elim

/-- The property of a result together with the call that gave it. -/
theorem Keeps.called : Keeps moves routine state fun result later =>
      post result later ∧ routine state = .ok (result, later) := by
  unfold Keeps at keeps ⊢
  split
  · rename_i result later ok
    rw [ok] at keeps
    exact ⟨keeps.1, keeps.2, ok⟩
  · rename_i later failed
    rw [failed] at keeps
    exact keeps
  rename_i reason failed
  rw [failed] at keeps
  exact keeps

lemma Keeps.weaken {coarser : σ → σ → Prop}
    (implies : ∀ later, moves state later → coarser state later) :
    Keeps coarser routine state post := by
  unfold Keeps at keeps ⊢
  split
  · rename_i result later ok
    rw [ok] at keeps
    exact ⟨implies later keeps.1, keeps.2⟩
  · rename_i later failed
    rw [failed] at keeps
    exact implies later keeps
  rename_i reason failed
  rw [failed] at keeps
  exact keeps

lemma Keeps.attempt : Keeps moves (attempt routine) state fun result later =>
      ∀ value, result = some value → post value later := by
  unfold Keeps Routine.attempt
  unfold Keeps at keeps
  cases call : routine state with
  | ok value =>
    obtain ⟨result, later⟩ := value
    rw [call] at keeps
    refine ⟨keeps.1, ?_⟩
    rintro _ ⟨⟩
    exact keeps.2
  | error halt =>
    rw [call] at keeps
    cases halt with
    | gaveUp later => exact ⟨keeps, nofun⟩
    | fault reason => exact keeps

lemma keeps_bind [IsTrans σ moves]
    (later : ∀ result later, moves state later → post result later →
      Keeps moves (next result) later goal) : Keeps moves (routine >>= next) state goal := by
  unfold Keeps at keeps
  have unfolded : (routine >>= next) state =
      (routine state >>= fun pair => next pair.1 pair.2) := rfl
  unfold Keeps
  rw [unfolded]
  cases call : routine state with
  | ok value =>
    obtain ⟨result, middle⟩ := value
    rw [call] at keeps
    have second := later result middle keeps.1 keeps.2
    unfold Keeps at second
    change match next result middle with
      | .ok (result, final) => moves state final ∧ goal result final
      | .error (.gaveUp final) => moves state final
      | .error (.fault _) => False
    split
    · rename_i final ok
      rw [ok] at second
      exact ⟨trans_of moves keeps.1 second.1, second.2⟩
    · rename_i final failed
      rw [failed] at second
      exact trans_of moves keeps.1 second
    rename_i reason failed
    rw [failed] at second
    exact second
  | error halt =>
    rw [call] at keeps
    cases halt with
    | gaveUp middle => exact keeps
    | fault reason => exact keeps

end

lemma keeps_get_bind {next : σ → Routine φ σ β} (later : Keeps moves (next state) state goal) :
    Keeps moves ((get : Routine φ σ σ) >>= next) state goal :=
  later

lemma keeps_inside_bind {step : Option α} {outside : φ}
    (found : step = some result) (later : Keeps moves (next result) state goal) :
    Keeps moves (inside step outside >>= next) state goal := by
  subst found
  exact later

lemma keeps_modify {change : σ → σ} {goal : PUnit → σ → Prop}
    (moved : moves state (change state)) (holds : goal ⟨⟩ (change state)) :
    Keeps moves (modify change : Routine φ σ PUnit) state goal :=
  ⟨moved, holds⟩

variable [IsPreorder σ moves]

lemma keeps_pure (holds : post result state) :
    Keeps moves (pure result : Routine φ σ α) state post :=
  ⟨refl_of moves state, holds⟩

lemma keeps_giveUp : Keeps moves (giveUp : Routine φ σ α) state post :=
  refl_of moves state

lemma keeps_check_bind {condition : Prop} [Decidable condition] {next : Unit → Routine φ σ β}
    (later : condition → Keeps moves (next ()) state goal) :
    Keeps moves (check condition >>= next) state goal := by
  unfold check
  split
  · rename_i holds
    exact later holds
  · exact refl_of moves state

lemma keeps_modify_bind {change : σ → σ} {next : PUnit → Routine φ σ β}
    (moved : moves state (change state)) (later : Keeps moves (next ⟨⟩) (change state) goal) :
    Keeps moves ((modify change : Routine φ σ PUnit) >>= next) state goal := by
  have changed : Keeps moves (modify change : Routine φ σ PUnit) state fun _ later =>
      later = change state := ⟨moved, rfl⟩
  apply keeps_bind changed
  rintro ⟨⟩ _ _ rfl
  exact later

/-- What holds behind a round of a loop: the goal, or the invariant with a smaller measure. -/
def Rounds (goal : α → σ → Prop) (invariant : β → σ → Prop) (measure : β → σ → Nat)
    (bound : Nat) : α ⊕ β → σ → Prop
  | .inl result, later => goal result later
  | .inr locals, later => invariant locals later ∧ measure locals later < bound

/-- A loop keeps what its body keeps, and ends with enough rounds for a decreasing measure. -/
theorem keeps_loop {stuck : φ} {body : β → Routine φ σ (α ⊕ β)} {goal : α → σ → Prop}
    (invariant : β → σ → Prop) (measure : β → σ → Nat)
    (round : ∀ locals state, invariant locals state →
      Keeps moves (body locals) state (Rounds goal invariant measure (measure locals state)))
    {fuel : Nat} {locals : β} (holds : invariant locals state)
    (enough : measure locals state < fuel) :
    Keeps moves (loop stuck body fuel locals) state goal := by
  induction fuel generalizing state locals with
  | zero => omega
  | succ fuel ih =>
    apply keeps_bind (round locals state holds)
    intro result later _ ended
    cases result with
    | inl value => exact keeps_pure ended
    | inr next => exact ih ended.1 (Nat.lt_of_lt_of_le ended.2 (Nat.le_of_lt_succ enough))

end Keeps

-- A comparison of two goals must not run the routines in them.
attribute [irreducible] Keeps

end Routine

end CupidOs.Transition
