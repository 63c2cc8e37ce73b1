import Mathlib.AlgebraicGeometry.EllipticCurve.Affine.Point

/-!
# Jacobian coordinates

The points of `y² = x³ - 3x + b` in coordinates `(X, Y, Z)` that stand for the affine point `(X /
Z², Y / Z³)`, or for infinity where `Z` is zero.

The formulas are written over any arithmetic, so that an implementation of the field inherits them
through a homomorphism. Over the field itself `Represents` relates the coordinates to the group,
and both operations follow the group law in every case.
-/

namespace CupidOs.Curves

open WeierstrassCurve.Affine

/-- The operations that the formulas use. -/
structure Arithmetic (α : Type) where
  zero : α
  one : α
  add : α → α → α
  sub : α → α → α
  mul : α → α → α
  isZero : α → Bool
  eq : α → α → Bool

/-- A map that preserves the operations. -/
structure Arithmetic.Hom {α β : Type} (A : Arithmetic α) (B : Arithmetic β) (φ : α → β) : Prop where
  zero : φ A.zero = B.zero
  one : φ A.one = B.one
  add : ∀ x y, φ (A.add x y) = B.add (φ x) (φ y)
  sub : ∀ x y, φ (A.sub x y) = B.sub (φ x) (φ y)
  mul : ∀ x y, φ (A.mul x y) = B.mul (φ x) (φ y)
  isZero : ∀ x, B.isZero (φ x) = A.isZero x
  eq : ∀ x y, B.eq (φ x) (φ y) = A.eq x y

/-- Jacobian coordinates. -/
@[ext]
structure Jacobian (α : Type) where
  X : α
  Y : α
  Z : α
  deriving DecidableEq

namespace Jacobian

variable {α β : Type}

/-- The point at infinity. -/
def infinity (A : Arithmetic α) : Jacobian α := ⟨A.one, A.one, A.zero⟩

/-- Doubling, with the tangent slope for the coefficient `-3`. -/
def double (A : Arithmetic α) (a : Jacobian α) : Jacobian α :=
  if A.isZero a.Z then infinity A
  else
    let xx := A.mul a.X a.X
    let yy := A.mul a.Y a.Y
    let yyyy := A.mul yy yy
    let zz := A.mul a.Z a.Z
    let sum := A.add a.X yy
    let half := A.sub (A.sub (A.mul sum sum) xx) yyyy
    let s := A.add half half
    let third := A.mul (A.sub a.X zz) (A.add a.X zz)
    let m := A.add (A.add third third) third
    let yz := A.add a.Y a.Z
    let z := A.sub (A.sub (A.mul yz yz) yy) zz
    let x := A.sub (A.sub (A.mul m m) s) s
    let twice := A.add yyyy yyyy
    let fourfold := A.add twice twice
    let y := A.sub (A.mul m (A.sub s x)) (A.add fourfold fourfold)
    ⟨x, y, z⟩

/-- Addition, with the exceptional cases of equal abscissas. -/
def add (A : Arithmetic α) (a b : Jacobian α) : Jacobian α :=
  if A.isZero a.Z then b
  else if A.isZero b.Z then a
  else
    let z₁z₁ := A.mul a.Z a.Z
    let z₂z₂ := A.mul b.Z b.Z
    let u₁ := A.mul a.X z₂z₂
    let u₂ := A.mul b.X z₁z₁
    let s₁ := A.mul a.Y (A.mul b.Z z₂z₂)
    let s₂ := A.mul b.Y (A.mul a.Z z₁z₁)
    if A.eq u₁ u₂ then
      if A.eq s₁ s₂ then double A a else infinity A
    else
      let h := A.sub u₂ u₁
      let r := A.sub s₂ s₁
      let hh := A.mul h h
      let hhh := A.mul hh h
      let v := A.mul u₁ hh
      let x := A.sub (A.sub (A.sub (A.mul r r) hhh) v) v
      let y := A.sub (A.mul r (A.sub v x)) (A.mul s₁ hhh)
      ⟨x, y, A.mul (A.mul a.Z b.Z) h⟩

/-- Apply a map to every coordinate. -/
def map (φ : α → β) (a : Jacobian α) : Jacobian β := ⟨φ a.X, φ a.Y, φ a.Z⟩

section Hom

variable {A : Arithmetic α} {B : Arithmetic β} {φ : α → β}

lemma map_infinity (hom : A.Hom B φ) : (infinity A).map φ = infinity B := by
  rw [map, infinity, hom.zero, hom.one, infinity]

lemma map_double (hom : A.Hom B φ) (a : Jacobian α) : (a.double A).map φ = (a.map φ).double B := by
  have zSame : B.isZero (a.map φ).Z = A.isZero a.Z := hom.isZero a.Z
  unfold double
  rw [zSame]
  split
  · exact map_infinity hom
  · simp only [map, hom.add, hom.sub, hom.mul]

lemma map_add (hom : A.Hom B φ) (a b : Jacobian α) :
    (a.add A b).map φ = (a.map φ).add B (b.map φ) := by
  have zLeft : B.isZero (a.map φ).Z = A.isZero a.Z := hom.isZero a.Z
  have zRight : B.isZero (b.map φ).Z = A.isZero b.Z := hom.isZero b.Z
  unfold add
  rw [zLeft, zRight]
  split
  · rfl
  split
  · rfl
  simp only [map, ← hom.mul, hom.eq]
  split
  · split
    · exact map_double hom a
    · exact map_infinity hom
  · simp only [hom.sub, hom.mul]

end Hom

end Jacobian

variable {F : Type} [Field F]

/-- The arithmetic of a field. -/
def Arithmetic.field (F : Type) [Field F] [DecidableEq F] : Arithmetic F where
  zero := 0
  one := 1
  add x y := x + y
  sub x y := x - y
  mul x y := x * y
  isZero x := x = 0
  eq x y := x = y

/-- The curve `y² = x³ - 3x + b`. -/
def curve (b : F) : WeierstrassCurve.Affine F := ⟨0, 0, 0, -3, b⟩

namespace Jacobian

/-- The coordinates stand for a point of the curve. -/
inductive Represents {b : F} : Jacobian F → (curve b).Point → Prop
  | infinite {a : Jacobian F} (zero : a.Z = 0) : Represents a 0
  | finite {a : Jacobian F} {x y : F} (nonsingular : (curve b).Nonsingular x y) (nonzero : a.Z ≠ 0)
      (xEq : a.X = x * a.Z ^ 2) (yEq : a.Y = y * a.Z ^ 3) :
      Represents a (.some x y nonsingular)

variable {b : F} {p q : (curve b).Point} {a c : Jacobian F}

lemma represents_affine {x y : F} (nonsingular : (curve b).Nonsingular x y) :
    Represents ⟨x, y, 1⟩ (.some x y nonsingular : (curve b).Point) :=
  .finite nonsingular one_ne_zero (by simp) (by simp)

lemma Represents.eq_zero_iff (represents : Represents a p) : p = 0 ↔ a.Z = 0 := by
  cases represents with
  | infinite zero => simp [zero]
  | finite nonsingular nonzero xEq yEq => simp [nonzero, Point.some_ne_zero]

lemma Represents.affine (represents : Represents a p) (nonzero : a.Z ≠ 0) : ∃ nonsingular,
      p = .some (a.X * (a.Z⁻¹ * a.Z⁻¹)) (a.Y * (a.Z⁻¹ * a.Z⁻¹ * a.Z⁻¹)) nonsingular := by
  cases represents with
  | infinite zero => exact absurd zero nonzero
  | @finite x y nonsingular _ xEq yEq =>
    have xAffine : a.X * (a.Z⁻¹ * a.Z⁻¹) = x := by
      rw [xEq]
      field_simp
    have yAffine : a.Y * (a.Z⁻¹ * a.Z⁻¹ * a.Z⁻¹) = y := by
      rw [yEq]
      field_simp
    rw [xAffine, yAffine]
    exact ⟨nonsingular, rfl⟩

lemma negY_curve (x y : F) : (curve b).negY x y = -y := by
  simp [negY, curve]

lemma addX_curve (x₁ x₂ ℓ : F) : (curve b).addX x₁ x₂ ℓ = ℓ ^ 2 - x₁ - x₂ := by
  simp [addX, curve]

lemma addY_curve (x₁ x₂ y₁ ℓ : F) :
    (curve b).addY x₁ x₂ y₁ ℓ = -(ℓ * (ℓ ^ 2 - x₁ - x₂ - x₁) + y₁) := by
  rw [addY, negY_curve, negAddY, addX_curve]

variable [DecidableEq F]

lemma represents_infinity : Represents (infinity (.field F)) (0 : (curve b).Point) :=
  .infinite rfl

lemma Represents.double (two : (2 : F) ≠ 0) (represents : Represents a p) :
    Represents (a.double (.field F)) (p + p) := by
  cases represents with
  | infinite zero =>
    have stays : a.double (.field F) = infinity (.field F) := if_pos (decide_eq_true zero)
    rw [stays, add_zero]
    exact represents_infinity
  | @finite x y nonsingular nonzero xEq yEq =>
    simp only [Jacobian.double, Arithmetic.field, decide_eq_true_eq, if_neg nonzero]
    by_cases vertical : y = 0
    · have opposite : y = (curve b).negY x y := by rw [negY_curve, vertical, neg_zero]
      rw [Point.add_self_of_Y_eq opposite]
      refine .infinite ?_
      simp only [yEq, vertical]
      ring
    · have slanted : y ≠ (curve b).negY x y := by
        rw [negY_curve]
        intro same
        have double : (2 : F) * y = 0 := by linear_combination same
        exact (mul_ne_zero two vertical) double
      rw [Point.add_self_of_Y_ne slanted]
      have denominator : y - (curve b).negY x y = 2 * y := by
        rw [negY_curve]
        ring
      have slope : (curve b).slope x x y y = (3 * x ^ 2 - 3) / (2 * y) := by
        rw [slope_of_Y_ne rfl slanted, denominator]
        simp only [curve]
        congr 1
        ring
      refine .finite _ ?_ ?_ ?_
      · have product : (a.Y + a.Z) * (a.Y + a.Z) - a.Y * a.Y - a.Z * a.Z = 2 * y * a.Z ^ 4 := by
          rw [yEq]
          ring
        simp only [product]
        exact mul_ne_zero (mul_ne_zero two vertical) (pow_ne_zero 4 nonzero)
      · simp only [addX_curve, slope, xEq, yEq]
        field_simp
        ring
      · simp only [addY_curve, slope, xEq, yEq]
        field_simp
        ring

lemma Represents.add (two : (2 : F) ≠ 0) (left : Represents a p) (right : Represents c q) :
    Represents (a.add (.field F) c) (p + q) := by
  simp only [Jacobian.add, Arithmetic.field, decide_eq_true_eq]
  cases left with
  | infinite zero =>
    rw [if_pos zero, zero_add]
    exact right
  | @finite x₁ y₁ nonsingular₁ nonzero₁ xEq₁ yEq₁ =>
    rw [if_neg nonzero₁]
    cases right with
    | infinite zero =>
      rw [if_pos zero, add_zero]
      exact .finite nonsingular₁ nonzero₁ xEq₁ yEq₁
    | @finite x₂ y₂ nonsingular₂ nonzero₂ xEq₂ yEq₂ =>
      rw [if_neg nonzero₂]
      have abscissas : a.X * (c.Z * c.Z) = c.X * (a.Z * a.Z) ↔ x₁ = x₂ := by
        have scale : (a.Z * c.Z) ^ 2 ≠ 0 := pow_ne_zero 2 (mul_ne_zero nonzero₁ nonzero₂)
        rw [xEq₁, xEq₂]
        refine ⟨fun same => mul_right_cancel₀ scale ?_, fun same => ?_⟩
        · linear_combination same
        · rw [same]
          ring
      have ordinates : a.Y * (c.Z * (c.Z * c.Z)) = c.Y * (a.Z * (a.Z * a.Z)) ↔ y₁ = y₂ := by
        have scale : (a.Z * c.Z) ^ 3 ≠ 0 := pow_ne_zero 3 (mul_ne_zero nonzero₁ nonzero₂)
        rw [yEq₁, yEq₂]
        refine ⟨fun same => mul_right_cancel₀ scale ?_, fun same => ?_⟩
        · linear_combination same
        · rw [same]
          ring
      by_cases sameX : x₁ = x₂
      · subst sameX
        simp only [abscissas, ordinates, if_true]
        by_cases sameY : y₁ = y₂
        · subst sameY
          rw [if_pos rfl]
          exact Represents.double two (.finite nonsingular₁ nonzero₁ xEq₁ yEq₁)
        have opposite : y₁ = (curve b).negY x₁ y₂ :=
          (Y_eq_of_X_eq nonsingular₁.1 nonsingular₂.1 rfl).resolve_left sameY
        rw [if_neg sameY, Point.add_of_Y_eq rfl opposite]
        exact represents_infinity
      · have different : x₂ - x₁ ≠ 0 := sub_ne_zero_of_ne (Ne.symm sameX)
        simp only [abscissas, if_neg sameX]
        rw [Point.add_of_X_ne sameX]
        have slope : (curve b).slope x₁ x₂ y₁ y₂ = (y₂ - y₁) / (x₂ - x₁) := by
          rw [slope_of_X_ne sameX, ← neg_sub y₂, ← neg_sub x₂, neg_div_neg_eq]
        refine .finite _ ?_ ?_ ?_
        · have difference : a.Z * c.Z * (c.X * (a.Z * a.Z) - a.X * (c.Z * c.Z)) =
              (x₂ - x₁) * (a.Z * c.Z) ^ 3 := by
            rw [xEq₁, xEq₂]
            ring
          simp only [difference]
          exact mul_ne_zero different (pow_ne_zero 3 (mul_ne_zero nonzero₁ nonzero₂))
        · simp only [addX_curve, slope, xEq₁, xEq₂, yEq₁, yEq₂]
          field_simp
          ring
        · simp only [addY_curve, slope, xEq₁, xEq₂, yEq₁, yEq₂]
          field_simp
          ring

end Jacobian

end CupidOs.Curves
