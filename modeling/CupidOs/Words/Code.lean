import Mathlib.Algebra.Group.Nat.Defs
import Mathlib.Order.Basic

/-!
# Computations over machine words

A computation over unsigned machine words is the tree of the arithmetic steps it takes. `run`
executes the tree with wrap-around, and `NoOverflow` says that no step leaves its width: a sum,
product or cast stays below the modulus, and a difference inside the signed range. `Returns` is the
total-correctness reading of both, with one rule for each kind of step.
-/

namespace CupidOs.Words

/-- A computation that ends in an `α` after finitely many arithmetic steps. -/
inductive Code (α : Type) : Type
  | done (value : α)
  | add (width left right : Nat) (next : Nat → Code α)
  | sub (width left right : Nat) (next : Nat → Code α)
  | mul (width left right : Nat) (next : Nat → Code α)

namespace Code

variable {α β : Type}

/-- Continue after the last step of a computation. -/
def bind : Code α → (α → Code β) → Code β
  | done value, rest => rest value
  | add width left right next, rest => add width left right fun value => bind (next value) rest
  | sub width left right next, rest => sub width left right fun value => bind (next value) rest
  | mul width left right next, rest => mul width left right fun value => bind (next value) rest

instance : Monad Code where
  pure := done
  bind := bind

/-- The sum of two words. -/
def sum (width left right : Nat) : Code Nat := add width left right done

/-- The difference of two words. -/
def difference (width left right : Nat) : Code Nat := sub width left right done

/-- The product of two words. -/
def product (width left right : Nat) : Code Nat := mul width left right done

/-- A cast to a narrower word that should keep the value. -/
def narrow (width value : Nat) : Code Nat := add width value 0 done

/-- The wrapped difference of two words. -/
def wrapSub (width left right : Nat) : Nat := (left + 2 ^ width - right) % 2 ^ width

/-- Execution with wrap-around. -/
def run : Code α → α
  | done value => value
  | add width left right next => run (next ((left + right) % 2 ^ width))
  | sub width left right next => run (next (wrapSub width left right))
  | mul width left right next => run (next (left * right % 2 ^ width))

/-- No step of the execution leaves its width. -/
def NoOverflow : Code α → Prop
  | done _ => True
  | add width left right next =>
    left + right < 2 ^ width ∧ NoOverflow (next ((left + right) % 2 ^ width))
  | sub width left right next =>
    (right ≤ left + 2 ^ (width - 1) ∧ left < right + 2 ^ (width - 1)) ∧
      NoOverflow (next (wrapSub width left right))
  | mul width left right next =>
    left * right < 2 ^ width ∧ NoOverflow (next (left * right % 2 ^ width))

/-- The computation overflows nowhere and its result satisfies `Q`. -/
def Returns (code : Code α) (Q : α → Prop) : Prop :=
  code.NoOverflow ∧ Q code.run

@[simp]
lemma run_pure (value : α) : (pure value : Code α).run = value :=
  rfl

@[simp]
lemma run_bind (code : Code α) (rest : α → Code β) : (code >>= rest).run = (rest code.run).run := by
  induction code with
  | done value => rfl
  | add width left right next ih => exact ih _
  | sub width left right next ih => exact ih _
  | mul width left right next ih => exact ih _

lemma noOverflow_bind (code : Code α) (rest : α → Code β) :
    (code >>= rest).NoOverflow ↔ code.NoOverflow ∧ (rest code.run).NoOverflow := by
  induction code with
  | done value => exact (and_iff_right trivial).symm
  | add width left right next ih => exact (and_congr_right fun _ => ih _).trans and_assoc.symm
  | sub width left right next ih => exact (and_congr_right fun _ => ih _).trans and_assoc.symm
  | mul width left right next ih => exact (and_congr_right fun _ => ih _).trans and_assoc.symm

lemma Returns.mono {code : Code α} {P Q : α → Prop} (returns : code.Returns P)
    (implies : ∀ value, P value → Q value) : code.Returns Q :=
  ⟨returns.1, implies _ returns.2⟩

lemma returns_pure {value : α} {Q : α → Prop} (holds : Q value) :
    (pure value : Code α).Returns Q :=
  ⟨trivial, holds⟩

lemma returns_bind {code : Code α} {rest : α → Code β} {P : α → Prop} {Q : β → Prop}
    (first : code.Returns P) (second : ∀ value, P value → (rest value).Returns Q) :
    (code >>= rest).Returns Q := by
  have restReturns := second code.run first.2
  exact ⟨(noOverflow_bind code rest).mpr ⟨first.1, restReturns.1⟩,
    (run_bind code rest).symm ▸ restReturns.2⟩

variable {width left right : Nat} {rest : Nat → Code β} {Q : β → Prop}

lemma returns_sum_bind (fits : left + right < 2 ^ width)
    (returns : (rest (left + right)).Returns Q) : (sum width left right >>= rest).Returns Q := by
  refine returns_bind (P := fun value => value = left + right) ⟨⟨fits, trivial⟩, ?_⟩ ?_
  · exact Nat.mod_eq_of_lt fits
  · rintro _ rfl
    exact returns

lemma returns_narrow_bind (fits : left < 2 ^ width) (returns : (rest left).Returns Q) :
    (narrow width left >>= rest).Returns Q :=
  returns_sum_bind fits returns

lemma returns_product_bind (fits : left * right < 2 ^ width)
    (returns : (rest (left * right)).Returns Q) :
    (product width left right >>= rest).Returns Q := by
  refine returns_bind (P := fun value => value = left * right) ⟨⟨fits, trivial⟩, ?_⟩ ?_
  · exact Nat.mod_eq_of_lt fits
  · rintro _ rfl
    exact returns

lemma returns_difference_bind (lower : right ≤ left + 2 ^ (width - 1))
    (upper : left < right + 2 ^ (width - 1))
    (returns : (rest (wrapSub width left right)).Returns Q) :
    (difference width left right >>= rest).Returns Q := by
  refine returns_bind (P := fun value => value = wrapSub width left right)
    ⟨⟨⟨lower, upper⟩, trivial⟩, rfl⟩ ?_
  rintro _ rfl
  exact returns

end Code

end CupidOs.Words
