import Mathlib.Data.List.Basic

/-!
# Runs of operation machines

A component is driven by an arbitrary list of calls. A `Machine` executes one call on a state and
returns a result; the rules here carry a fact about one call over to every call of every run.
`Along` states a property of the state before a call together with that call, for each call of the
run.
-/

namespace CupidOs.Transition

open List

universe u v w x

/-- A deterministic component: a call maps a state to the next state and the value returned. -/
abbrev Machine (σ : Type u) (α : Type v) (ρ : Type w) :=
  σ → α → σ × ρ

namespace Machine

variable {σ : Type u} {α : Type v} {ρ : Type w} {τ : Type x}

/-- The state after a list of calls. -/
def run (machine : Machine σ α ρ) : σ → List α → σ
  | state, [] => state
  | state, call :: calls => run machine (machine state call).1 calls

/-- The values that a list of calls returns. -/
def outputs (machine : Machine σ α ρ) : σ → List α → List ρ
  | _, [] => []
  | state, call :: calls => (machine state call).2 :: outputs machine (machine state call).1 calls

/-- `P` holds before every call of the run that starts in `state`. -/
def Along (machine : Machine σ α ρ) (P : σ → α → Prop) : σ → List α → Prop
  | _, [] => True
  | state, call :: calls => P state call ∧ Along machine P (machine state call).1 calls

instance decidableAlong (machine : Machine σ α ρ) (P : σ → α → Prop)
    [∀ state call, Decidable (P state call)] :
    (state : σ) → (calls : List α) → Decidable (machine.Along P state calls)
  | _, [] => inferInstanceAs (Decidable True)
  | state, call :: calls =>
    have := decidableAlong machine P (machine state call).1 calls
    inferInstanceAs (Decidable (P state call ∧ _))

/-- How many calls of the run that starts in `state` are marked. -/
def tally (machine : Machine σ α ρ) (marked : σ → α → Bool) : σ → List α → Nat
  | _, [] => 0
  | state, call :: calls =>
    (marked state call).toNat + tally machine marked (machine state call).1 calls

/-- A machine with a second state that observes the calls and the values they return. -/
def observe (machine : Machine σ α ρ) (next : τ → α → ρ → τ) : Machine (σ × τ) α ρ :=
  fun state call =>
    let outcome := machine state.1 call
    ((outcome.1, next state.2 call outcome.2), outcome.2)

section

variable (machine : Machine σ α ρ)
include machine

@[simp]
lemma run_nil (state : σ) : machine.run state [] = state :=
  rfl

@[simp]
lemma run_cons (state : σ) (call : α) (calls : List α) :
    machine.run state (call :: calls) = machine.run (machine state call).1 calls :=
  rfl

lemma run_append (state : σ) (first second : List α) :
    machine.run state (first ++ second) = machine.run (machine.run state first) second := by
  induction first generalizing state with
  | nil => rfl
  | cons call calls ih => exact ih (machine state call).1

@[simp]
lemma along_nil (P : σ → α → Prop) (state : σ) : machine.Along P state [] :=
  trivial

@[simp]
lemma along_cons_iff (P : σ → α → Prop) (state : σ) (call : α) (calls : List α) :
    machine.Along P state (call :: calls) ↔
      P state call ∧ machine.Along P (machine state call).1 calls :=
  Iff.rfl

lemma along_append_iff (P : σ → α → Prop) (state : σ) (first second : List α) :
    machine.Along P state (first ++ second) ↔
      machine.Along P state first ∧ machine.Along P (machine.run state first) second := by
  induction first generalizing state with
  | nil => simp
  | cons call calls ih =>
    simp only [cons_append, along_cons_iff, run_cons, ih, and_assoc]

end

variable {machine : Machine σ α ρ} {P : σ → α → Prop} {state : σ} {calls : List α}

lemma along_and {Q : σ → α → Prop} :
    machine.Along (fun state call => P state call ∧ Q state call) state calls ↔
      machine.Along P state calls ∧ machine.Along Q state calls := by
  induction calls generalizing state with
  | nil => simp
  | cons call calls ih =>
    simp only [along_cons_iff, ih]
    tauto

lemma along_forall_iff {P : α → Prop} :
    machine.Along (fun _ call => P call) state calls ↔ ∀ call ∈ calls, P call := by
  induction calls generalizing state with
  | nil => simp
  | cons call calls ih => simp only [along_cons_iff, ih, forall_mem_cons]

@[simp]
lemma observe_fst (machine : Machine σ α ρ) (next : τ → α → ρ → τ) (state : σ × τ) (call : α) :
    (machine.observe next state call).1 =
      ((machine state.1 call).1, next state.2 call (machine state.1 call).2) :=
  rfl

lemma along_observe_iff {next : τ → α → ρ → τ} {image : τ} :
    (machine.observe next).Along (fun state call => P state.1 call) (state, image) calls ↔
      machine.Along P state calls := by
  induction calls generalizing state image with
  | nil => exact Iff.rfl
  | cons call calls ih => simp only [along_cons_iff, observe_fst, ih]

/-- A repeated call walks through a known sequence of states. -/
theorem run_replicate {call : α} (states : Nat → σ) (count : Nat)
    (steps : ∀ index < count, (machine (states index) call).1 = states (index + 1)) :
    machine.run (states 0) (replicate count call) = states count := by
  induction count with
  | zero => rfl
  | succ count ih =>
    rw [replicate_succ', run_append, ih fun index less => steps index (by omega)]
    exact steps count (Nat.lt_succ_self count)

lemma along_replicate {call : α} (states : Nat → σ) (count : Nat)
    (steps : ∀ index < count, (machine (states index) call).1 = states (index + 1))
    (holds : ∀ index < count, P (states index) call) :
    machine.Along P (states 0) (replicate count call) := by
  induction count with
  | zero => trivial
  | succ count ih =>
    have shorter : ∀ index < count, (machine (states index) call).1 = states (index + 1) :=
      fun index less => steps index (by omega)
    rw [replicate_succ', along_append_iff, run_replicate states count shorter]
    exact ⟨ih shorter fun index less => holds index (by omega),
      holds count (Nat.lt_succ_self count), trivial⟩

section

variable {I : σ → Prop} {G : σ → α → Prop}
  (preserved : ∀ state call, I state → G state call → I (machine state call).1)
include preserved

/-- An invariant that every guarded call preserves holds in the final state of a guarded run. -/
theorem run_invariant (start : I state) (guarded : machine.Along G state calls) :
    I (machine.run state calls) := by
  induction calls generalizing state with
  | nil => exact start
  | cons call calls ih => exact ih (preserved state call start guarded.1) guarded.2

/-- A property that invariant and guard give for one call holds along the whole run. -/
theorem along_of_invariant
    (pointwise : ∀ state call, I state → G state call → P state call) (start : I state)
    (guarded : machine.Along G state calls) : machine.Along P state calls := by
  induction calls generalizing state with
  | nil => trivial
  | cons call calls ih =>
    exact ⟨pointwise state call start guarded.1, ih (preserved state call start guarded.1) guarded.2⟩

/-- A property and a guard that are equivalent for one call are equivalent along every run. -/
theorem along_iff_of_invariant
    (pointwise : ∀ state call, I state → (P state call ↔ G state call)) (start : I state) :
    machine.Along P state calls ↔ machine.Along G state calls := by
  induction calls generalizing state with
  | nil => exact Iff.rfl
  | cons call calls ih =>
    simp only [along_cons_iff]
    rw [pointwise state call start]
    constructor
    · rintro ⟨guard, rest⟩
      exact ⟨guard, (ih (preserved state call start guard)).mp rest⟩
    · rintro ⟨guard, rest⟩
      exact ⟨guard, (ih (preserved state call start guard)).mpr rest⟩

end

/-- Among the calls that meet `H`, those that meet the guard keep the invariant, and the others end
in a state without `E`. So `E` holds at every moment of a run if and only if every call meets the
guard. -/
theorem forall_before_iff_along {I E : σ → Prop} {G H : σ → α → Prop}
    (kept : ∀ state call, I state → H state call → G state call → I (machine state call).1)
    (broken : ∀ state call, I state → H state call → E (machine state call).1 → G state call)
    (holds : ∀ state, I state → E state) (start : I state) (meets : machine.Along H state calls) :
    (∀ before after, calls = before ++ after → E (machine.run state before)) ↔
      machine.Along G state calls := by
  induction calls generalizing state with
  | nil =>
    refine ⟨fun _ => trivial, fun _ before after split => ?_⟩
    rw [(append_eq_nil_iff.mp split.symm).1]
    exact holds state start
  | cons call calls ih =>
    obtain ⟨meet, meets⟩ := meets
    rw [along_cons_iff]
    constructor
    · intro always
      have guard := broken state call start meet (always [call] calls rfl)
      refine ⟨guard, (ih (kept state call start meet guard) meets).mp fun before after split => ?_⟩
      exact always (call :: before) after (by rw [split, cons_append])
    · rintro ⟨guard, rest⟩ before after split
      cases before with
      | nil => exact holds state start
      | cons first before =>
        obtain ⟨rfl, later⟩ := cons.inj split
        exact (ih (kept state call start meet guard) meets).mpr rest before after later

/-- Machines that return the same values from related states do so along every run. -/
theorem outputs_eq_of_simulation {other : Machine τ α ρ} {R : σ → τ → Prop}
    (simulates : ∀ state image call, R state image → (machine state call).2 = (other image call).2 ∧
        R (machine state call).1 (other image call).1) {image : τ} (related : R state image)
    (calls : List α) :
    machine.outputs state calls = other.outputs image calls ∧
      R (machine.run state calls) (other.run image calls) := by
  induction calls generalizing state image with
  | nil => exact ⟨rfl, related⟩
  | cons call calls ih =>
    rcases simulates state image call related with ⟨same, next⟩
    rcases ih next with ⟨rest, final⟩
    exact ⟨by simp only [outputs, same, rest], final⟩

end Machine

end CupidOs.Transition
