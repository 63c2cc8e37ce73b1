import CupidOs.Crypto.P256

/-!
# The group of P-256

The affine points that the check of the code accepts are the finite points of the curve, the two
multiplications compute multiples in its group, and the base point has the order that the code
names.
-/

namespace CupidOs.Crypto

open Words Bytes Curves WeierstrassCurve.Affine

/-- The coefficient `b` of the curve. -/
def coefficientB : Fp := (p256B.value : Fp)

/-- The curve `y² = x³ - 3x + b` over the field of the coordinates. -/
abbrev p256Curve : WeierstrassCurve.Affine Fp := curve coefficientB

lemma equation_p256Curve_iff (x y : Fp) :
    p256Curve.Equation x y ↔ y * y = x * x * x - (x + x + x) + coefficientB := by
  rw [equation_iff]
  simp only [p256Curve, curve]
  constructor <;> intro equation <;> linear_combination equation

lemma discriminant_ne_zero : p256Curve.Δ ≠ 0 := by
  have discriminant : p256Curve.Δ = 1728 - 432 * (coefficientB * coefficientB) := by
    simp only [WeierstrassCurve.Δ, WeierstrassCurve.b₂, WeierstrassCurve.b₄, WeierstrassCurve.b₆,
      WeierstrassCurve.b₈, p256Curve, curve]
    ring
  rw [discriminant, sub_ne_zero]
  intro equal
  have residues : ((1728 : Nat) : Fp) = ((432 * (p256B.value * p256B.value) : Nat) : Fp) := by
    push_cast
    exact equal
  rw [ZMod.natCast_eq_natCast_iff'] at residues
  revert residues
  decide +kernel

lemma nonsingular_of_equation {x y : Fp} (equation : p256Curve.Equation x y) :
    p256Curve.Nonsingular x y :=
  (equation_iff_nonsingular_of_Δ_ne_zero discriminant_ne_zero).mp equation

lemma fp_two_ne_zero : (2 : Fp) ≠ 0 := by
  have small : ((2 : Nat) : Fp) ≠ 0 := by
    rw [ne_eq, ZMod.natCast_eq_zero_iff]
    exact Nat.not_dvd_of_pos_of_lt (by decide) (by decide)
  exact_mod_cast small

/-! ## Public keys -/

lemma p256B_eq : p256B = residue coefficientB := eq_residue_of_lt value_p256P (by decide)

lemma p256AffIsOnCurve_residue (x y : Fp) :
    p256AffIsOnCurve ⟨residue x, residue y, false⟩ = true ↔ p256Curve.Equation x y := by
  have xBelow := residue_below value_p256P x
  have yBelow := residue_below value_p256P y
  simp only [p256AffIsOnCurve, feCmp_ne_lt_iff]
  rw [if_neg (by simp), if_neg (by omega), if_neg (by omega), p256B_eq]
  simp only [p256FeSqr_residue, p256FeMul_residue, p256FeAdd_residue, p256FeSub_residue,
    p256FeEq_residue, decide_eq_true_eq, equation_p256Curve_iff]

/-- The check accepts exactly the canonical coordinates of the finite points. -/
theorem p256AffIsOnCurve_iff (q : P256Aff) : p256AffIsOnCurve q = true ↔
      q.infinity = false ∧ q.x.value < primeP ∧ q.y.value < primeP ∧
        p256Curve.Equation (q.x.value : Fp) (q.y.value : Fp) := by
  obtain ⟨x, y, infinity⟩ := q
  cases infinity with
  | true => simp [p256AffIsOnCurve]
  | false =>
    by_cases xBelow : x.value < primeP
    · by_cases yBelow : y.value < primeP
      · have rewritten := p256AffIsOnCurve_residue (x.value : Fp) (y.value : Fp)
        rw [← eq_residue_of_lt value_p256P xBelow, ← eq_residue_of_lt value_p256P yBelow]
          at rewritten
        simp [rewritten, xBelow, yBelow]
      · simp [p256AffIsOnCurve, feCmp_ne_lt_iff, value_p256P, yBelow]
    · simp [p256AffIsOnCurve, feCmp_ne_lt_iff, value_p256P, xBelow]

namespace PublicKey

variable (q : PublicKey)

/-- The point of the curve that a key stands for. -/
def point : p256Curve.Point :=
  .some (q.key.x.value : Fp) (q.key.y.value : Fp)
    (nonsingular_of_equation ((p256AffIsOnCurve_iff q.key).mp q.onCurve).2.2.2)

/-- The key in Jacobian coordinates stands for its point. -/
theorem through_point : Through residue (p256JacFromAffine q.key) q.point := by
  obtain ⟨finite, xBelow, yBelow, equation⟩ := (p256AffIsOnCurve_iff q.key).mp q.onCurve
  refine ⟨⟨(q.key.x.value : Fp), (q.key.y.value : Fp), 1⟩, ?_, Jacobian.represents_affine _⟩
  rw [p256JacFromAffine, finite, Jacobian.map, ← eq_residue_of_lt value_p256P xBelow,
    ← eq_residue_of_lt value_p256P yBelow, residue_one]
  rfl

end PublicKey

/-! ## The base point -/

lemma onCurve_p256G : p256AffIsOnCurve p256G = true := by
  rw [p256AffIsOnCurve_iff, equation_p256Curve_iff]
  refine ⟨rfl, by decide, by decide, ?_⟩
  have residues : ((p256Gy.value * p256Gy.value + 3 * p256Gx.value : Nat) : Fp) =
      ((p256Gx.value * p256Gx.value * p256Gx.value + p256B.value : Nat) : Fp) := by
    rw [ZMod.natCast_eq_natCast_iff']
    decide +kernel
  push_cast at residues
  rw [coefficientB, p256G]
  linear_combination residues

/-- The base point as a key. -/
def baseKey : PublicKey := ⟨p256G, onCurve_p256G⟩

/-- The base point. -/
abbrev basePoint : p256Curve.Point := baseKey.point

lemma exists_basePoint_eq :
    ∃ nonsingular, basePoint = .some (p256Gx.value : Fp) (p256Gy.value : Fp) nonsingular :=
  ⟨_, rfl⟩

lemma orderN_nsmul_basePoint : orderN • basePoint = 0 := by
  have follows := follows_through (b := coefficientB) fp_two_ne_zero (val_hom primeP)
  have start : Through ZMod.val ⟨p256Gx.value, p256Gy.value, 1⟩ basePoint := by
    refine ⟨⟨(p256Gx.value : Fp), (p256Gy.value : Fp), 1⟩, ?_, Jacobian.represents_affine _⟩
    rw [Jacobian.map, ZMod.val_natCast_of_lt (by decide), ZMod.val_natCast_of_lt (by decide),
      ZMod.val_one]
  have multiple := ladder_rel follows (through_infinity (val_hom primeP)) start p256N.scan
  rw [Limbs.ofBits_scan, value_p256N] at multiple
  rw [multiple.eq_zero_iff (val_hom primeP)]
  decide +kernel

/-! ## The multiplications -/

lemma p256_follows : Follows (Through (b := coefficientB) residue) p256JacAdd p256JacDouble := by
  have add : p256JacAdd = Jacobian.add feArithmetic := funext₂ p256JacAdd_eq
  have double : p256JacDouble = Jacobian.double feArithmetic := funext p256JacDouble_eq
  rw [add, double]
  exact follows_through fp_two_ne_zero residue_hom

lemma through_p256JacSetInfinity : Through residue p256JacSetInfinity (0 : p256Curve.Point) :=
  through_infinity residue_hom

section

variable {q : P256Aff} {p : p256Curve.Point} (through : Through residue (p256JacFromAffine q) p)
include through

lemma through_p256ScalarMulPoint (k : Fe) :
    Through residue (p256ScalarMulPoint k q) (k.value • p) := by
  rw [p256ScalarMulPoint_eq, ← Limbs.ofBits_scan]
  exact ladder_rel p256_follows through_p256JacSetInfinity through k.scan

/-- Doubling for each pair of bits computes the sum of the multiples of the base point and of
another point. -/
theorem through_p256DoubleScalarMul (u1 u2 : Fe) :
    Through residue (p256DoubleScalarMul u1 u2 q) (u1.value • basePoint + u2.value • p) := by
  have lengths : u1.scan.length = u2.scan.length := by simp
  have sum := interleaved_rel p256_follows through_p256JacSetInfinity baseKey.through_point
    through (u1.scan.zip u2.scan)
  rw [List.map_fst_zip lengths.le, List.map_snd_zip lengths.ge, Limbs.ofBits_scan,
    Limbs.ofBits_scan] at sum
  exact sum

end

variable {a : P256Jac} {p : p256Curve.Point}

/-- Coordinates stand for the point at infinity exactly if the code says so. -/
theorem p256JacIsInfinity_iff (through : Through residue a p) :
    p256JacIsInfinity a = true ↔ p = 0 :=
  (through.eq_zero_iff residue_hom).symm

/-- The affine coordinates of a point. -/
def affineOf : p256Curve.Point → P256Aff
  | .zero => ⟨p256FeZero, p256FeZero, true⟩
  | .some x y _ => ⟨residue x, residue y, false⟩

lemma p256JacToAffine_eq (through : Through residue a p) : p256JacToAffine a = affineOf p := by
  rw [p256JacToAffine]
  by_cases zero : p = 0
  · rw [if_pos ((p256JacIsInfinity_iff through).mpr zero), zero]
    rfl
  rw [if_neg (mt (p256JacIsInfinity_iff through).mp zero)]
  obtain ⟨c, rfl, represents⟩ := through
  obtain ⟨_, rfl⟩ := represents.affine (mt represents.eq_zero_iff.mpr zero)
  simp only [Jacobian.map, p256FeInv_residue, p256FeSqr_residue, p256FeMul_residue, affineOf]

lemma through_affineOf : Through residue (p256JacFromAffine (affineOf p)) p := by
  cases p with
  | zero => exact through_p256JacSetInfinity
  | some x y =>
    refine ⟨⟨x, y, 1⟩, ?_, Jacobian.represents_affine _⟩
    rw [Jacobian.map, residue_one]
    rfl

/-- Both sides of a key exchange compute the same point. -/
theorem ecdh_agrees (a b : Fe) :
    let multiple (k : Fe) (q : P256Aff) := p256JacToAffine (p256ScalarMulPoint k q)
    multiple a (multiple b p256G) = multiple b (multiple a p256G) := by
  intro multiple
  have shared (a b : Fe) :
      multiple a (multiple b p256G) = affineOf (a.value • b.value • basePoint) := by
    have inner : multiple b p256G = affineOf (b.value • basePoint) :=
      p256JacToAffine_eq (through_p256ScalarMulPoint baseKey.through_point b)
    rw [inner]
    exact p256JacToAffine_eq (through_p256ScalarMulPoint through_affineOf a)
  rw [shared, shared, smul_comm]

/-- Every point of the curve stands for itself in Jacobian coordinates. -/
theorem exists_through_fromAffine {q : P256Aff}
    (onCurve : q.infinity = true ∨ p256AffIsOnCurve q = true) :
    ∃ p : p256Curve.Point, Through residue (p256JacFromAffine q) p := by
  rcases onCurve with infinite | onCurve
  · refine ⟨0, ?_⟩
    rw [p256JacFromAffine, if_pos infinite]
    exact through_p256JacSetInfinity
  · exact ⟨_, PublicKey.through_point ⟨q, onCurve⟩⟩

/-- The interleaved multiplication and the ladders give the same affine point. -/
theorem doubleScalarMul_eq_ladders (u1 u2 : Fe) (q : P256Aff)
    (onCurve : q.infinity = true ∨ p256AffIsOnCurve q = true) :
    p256JacToAffine (p256DoubleScalarMul u1 u2 q) =
      p256JacToAffine
        (p256JacAdd (p256ScalarMulPoint u1 p256G) (p256ScalarMulPoint u2 q)) := by
  obtain ⟨p, through⟩ := exists_through_fromAffine onCurve
  have sum := p256_follows.add
    (through_p256ScalarMulPoint baseKey.through_point u1) (through_p256ScalarMulPoint through u2)
  rw [p256JacToAffine_eq (through_p256DoubleScalarMul through u1 u2)]
  exact (p256JacToAffine_eq sum).symm

theorem doubleScalarMul_eq_ladders_base : p256JacToAffine (p256DoubleScalarMul p256N p256N p256G) =
      p256JacToAffine
        (p256JacAdd (p256ScalarMulPoint p256N p256G) (p256ScalarMulPoint p256N p256G)) :=
  doubleScalarMul_eq_ladders p256N p256N p256G (.inr onCurve_p256G)

end CupidOs.Crypto
