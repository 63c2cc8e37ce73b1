import Mathlib.Logic.Basic

/-!
# Steps that may fail

A driver is a sequence of steps that stops at the first error; its success is the success of each
step. `Ensures` says of a step that it fails with an allowed error or gives a result with a
property. Its rules follow the way steps are put together, loops included.
-/

namespace CupidOs.Transition

variable {ε δ α β σ : Type}

/-- Go on if a condition holds. -/
def require (condition : Prop) [Decidable condition] (error : ε) : Except ε Unit :=
  if condition then .ok () else .error error

variable {step : Except ε α} {later : α → Except ε β}

lemma bind_eq_ok {result : β} :
    (step >>= later) = .ok result ↔ ∃ value, step = .ok value ∧ later value = .ok result := by
  cases step with
  | error error => simp [bind, Except.bind]
  | ok value => simp [bind, Except.bind]

variable {error : ε}

lemma require_eq_ok {condition : Prop} [Decidable condition] {done : Unit} :
    require condition error = .ok done ↔ condition := by
  rw [require]
  split
  · rename_i holds
    exact ⟨fun _ => holds, fun _ => rfl⟩
  · rename_i fails
    exact ⟨nofun, fun holds => absurd holds fails⟩

lemma mapError_eq_ok {wrap : ε → δ} {value : α} :
    step.mapError wrap = .ok value ↔ step = .ok value := by
  cases step with
  | error error =>
    show Except.error (wrap error) = .ok value ↔ _
    simp
  | ok result =>
    show Except.ok result = .ok value ↔ _
    simp

/-- An option as a step. -/
def orElse (value : Option α) (error : ε) : Except ε α :=
  match value with
  | some value => .ok value
  | none => .error error

lemma orElse_eq_ok {value : Option α} {result : α} :
    orElse value error = .ok result ↔ value = some result := by
  cases value with
  | none => simp [orElse]
  | some value => simp [orElse]

lemma exists_eq_ok (isOk : step.isOk = true) : ∃ value, step = .ok value := by
  cases step with
  | error error => cases isOk
  | ok value => exact ⟨value, rfl⟩

/-! ## What a step ensures -/

/-- The step fails with an allowed error, or its result has the property. -/
def Ensures (allowed : ε → Prop) (step : Except ε α) (post : α → Prop) : Prop :=
  match step with
  | .ok value => post value
  | .error error => allowed error

section Ensures

variable {allowed : ε → Prop} {step : Except ε α} {post : α → Prop}

@[simp]
lemma ensures_ok {value : α} : Ensures allowed (.ok value) post ↔ post value :=
  Iff.rfl

section

variable (ensures : Ensures allowed step post)
include ensures

lemma Ensures.of_ok {value : α} (ok : step = .ok value) :
    post value := by
  rw [ok] at ensures
  exact ensures

lemma Ensures.of_error
    (failed : step = .error error) : allowed error := by
  rw [failed] at ensures
  exact ensures

lemma Ensures.mono {weaker : α → Prop}
    (implies : ∀ value, post value → weaker value) : Ensures allowed step weaker := by
  cases step with
  | error error => exact ensures
  | ok value => exact implies value ensures

lemma Ensures.bind {goal : β → Prop}
    (next : ∀ value, post value → Ensures allowed (later value) goal) :
    Ensures allowed (step >>= later) goal := by
  cases step with
  | error error => exact ensures
  | ok value => exact next value ensures

end

lemma ensures_require_bind {condition : Prop} [Decidable condition]
    {later : Unit → Except ε β} {goal : β → Prop} (refused : allowed error)
    (passed : condition → Ensures allowed (later ()) goal) :
    Ensures allowed (require condition error >>= later) goal := by
  rw [require]
  split
  · rename_i holds
    exact passed holds
  · exact refused

end Ensures

/-- Run a step while a condition holds, for a bounded number of rounds. -/
def repeatWhile (again : σ → Bool) (step : σ → Except ε σ) (stuck : ε) : Nat → σ → Except ε σ
  | 0, _ => .error stuck
  | fuel + 1, state =>
    if again state then
      step state >>= repeatWhile again step stuck fuel
    else
      .ok state

/-- A loop keeps what its step keeps, and ends with enough rounds for a decreasing measure. -/
theorem ensures_repeatWhile {allowed : ε → Prop} {again : σ → Bool} {step : σ → Except ε σ}
    {stuck : ε} {invariant : σ → Prop} (measure : σ → Nat)
    (keeps : ∀ state, invariant state → again state = true →
      Ensures allowed (step state) fun later => invariant later ∧ measure later < measure state)
    {fuel : Nat} {state : σ} (holds : invariant state) (enough : measure state < fuel) :
    Ensures allowed (repeatWhile again step stuck fuel state) fun final =>
      invariant final ∧ again final = false := by
  induction fuel generalizing state with
  | zero => omega
  | succ fuel ih =>
    rw [repeatWhile]
    split
    · rename_i more
      apply (keeps state holds more).bind
      rintro later ⟨kept, less⟩
      exact ih kept (by omega)
    · rename_i done
      exact ⟨holds, by simpa using done⟩

end CupidOs.Transition
