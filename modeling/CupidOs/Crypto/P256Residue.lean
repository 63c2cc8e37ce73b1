import Mathlib.FieldTheory.Finite.Basic
import CupidOs.Crypto.P256Field
import CupidOs.Crypto.P256Primes
import CupidOs.Curves.Scalar

/-!
# Words as residues

Every function of the field and scalar arithmetic, applied to the words of residues, gives the
words of the residue that `ZMod p` or `ZMod n` gives. So the words inherit every formula of the
two fields.
-/

namespace CupidOs.Crypto

open Words Bytes Curves

/-- The field of the coordinates. -/
abbrev Fp := ZMod primeP

/-- The field of the scalars. -/
abbrev Fn := ZMod orderN

/-- The words of a residue. -/
def residue {p : Nat} (x : ZMod p) : Fe := Limbs.ofNat x.val

lemma value_p256P : p256P.value = primeP := by decide

lemma value_p256N : p256N.value = orderN := by decide

section Modulus

variable {p : Nat} [NeZero p] {m : Fe} (modulus : m.value = p)

include modulus

lemma value_residue (x : ZMod p) : (residue x).value = x.val := by
  have small : x.val < 2 ^ (32 * 8) := (ZMod.val_lt x).trans (modulus ▸ m.value_lt)
  exact Limbs.value_ofNat small

lemma residue_below (x : ZMod p) : (residue x).value < m.value := by
  rw [value_residue modulus, modulus]
  exact ZMod.val_lt x

lemma eq_residue_of_lt {a : Fe} (below : a.value < p) : a = residue (a.value : ZMod p) := by
  apply Limbs.value_inj.mp
  rw [value_residue modulus, ZMod.val_natCast_of_lt below]

lemma residue_inj {x y : ZMod p} : residue x = residue y ↔ x = y := by
  rw [← Limbs.value_inj, value_residue modulus, value_residue modulus,
    (ZMod.val_injective p).eq_iff]

lemma isZero_residue (x : ZMod p) : (residue x).isZero = decide (x = 0) := by
  rw [Bool.eq_iff_iff, Limbs.isZero_iff, value_residue modulus, decide_eq_true_eq, ZMod.val_eq_zero]

lemma feAddmod_residue (x y : ZMod p) : feAddmod (residue x) (residue y) m = residue (x + y) := by
  apply Limbs.value_inj.mp
  rw [value_feAddmod (residue_below modulus x) (residue_below modulus y), value_residue modulus,
    value_residue modulus, value_residue modulus, modulus, ZMod.val_add]

lemma feSubmod_residue (x y : ZMod p) : feSubmod (residue x) (residue y) m = residue (x - y) := by
  apply Limbs.value_inj.mp
  rw [value_feSubmod (residue_below modulus x) (residue_below modulus y), value_residue modulus,
    value_residue modulus, value_residue modulus, modulus, val_sub]

variable (top : 2 ^ 255 ≤ p)

include top

lemma reduceWideMod_eq_residue (a : Limbs 32 (8 + 8)) :
    reduceWideMod a m = residue (a.value : ZMod p) := by
  apply Limbs.value_inj.mp
  rw [value_reduceWideMod a (modulus.symm ▸ top), value_residue modulus, modulus, ZMod.val_natCast]

lemma mul_residue (x y : ZMod p) :
    reduceWideMod (mulWide (residue x) (residue y)) m = residue (x * y) := by
  rw [reduceWideMod_eq_residue modulus top, mulWide, Limbs.value_mul, value_residue modulus,
    value_residue modulus, Nat.cast_mul, ZMod.natCast_zmod_val, ZMod.natCast_zmod_val]

end Modulus

/-- Fermat's inverse. -/
theorem pow_sub_two_eq_inv {p : Nat} [Fact p.Prime] (large : 2 < p) (x : ZMod p) :
    x ^ (p - 2) = x⁻¹ := by
  by_cases zero : x = 0
  · rw [zero, zero_pow (by omega), inv_zero]
  have order := ZMod.pow_card_sub_one_eq_one zero
  have split : p - 1 = p - 2 + 1 := by omega
  rw [split, pow_succ] at order
  exact eq_inv_of_mul_eq_one_left order

lemma power_residue_eq_inv {p : Nat} [Fact p.Prime] (large : 2 < p) {mul : Fe → Fe → Fe}
    (mulResidue : ∀ x y : ZMod p, mul (residue x) (residue y) = residue (x * y))
    {exponent : List UInt8} (minusTwo : decodeBE exponent = p - 2) (one : Fe) (x : ZMod p) :
    power mul one (residue x) (byteBits exponent) = residue x⁻¹ := by
  have bits : ofBits 0 (byteBits exponent) = p - 2 := by
    rw [ofBits_byteBits, zero_mul, zero_add, minusTwo]
  have mulRel : ∀ (a b : Fe) (y z : ZMod p), a = residue y → b = residue z →
      mul a b = residue (y * z) := by
    rintro a b y z rfl rfl
    exact mulResidue y z
  have related : power mul one (residue x) (byteBits exponent) =
      residue (x ^ ofBits 0 (byteBits exponent)) :=
    power_rel (R := fun (a : Fe) (y : ZMod p) => a = residue y) mulRel
      (rfl : residue x = residue x) (by omega)
  rwa [bits, pow_sub_two_eq_inv large] at related

/-! ## The coordinates -/

lemma p256FeAdd_residue (x y : Fp) : p256FeAdd (residue x) (residue y) = residue (x + y) :=
  feAddmod_residue value_p256P x y

lemma p256FeSub_residue (x y : Fp) : p256FeSub (residue x) (residue y) = residue (x - y) :=
  feSubmod_residue value_p256P x y

lemma p256FeMul_residue (x y : Fp) : p256FeMul (residue x) (residue y) = residue (x * y) :=
  mul_residue value_p256P (by decide) x y

lemma p256FeSqr_residue (x : Fp) : p256FeSqr (residue x) = residue (x * x) :=
  p256FeMul_residue x x

lemma p256FeInv_residue (x : Fp) : p256FeInv (residue x) = residue x⁻¹ :=
  power_residue_eq_inv (by decide) p256FeMul_residue (by decide) _ x

lemma residue_zero : residue (0 : Fp) = p256FeZero := by
  apply Limbs.value_inj.mp
  rw [value_residue value_p256P, ZMod.val_zero, p256FeZero, Limbs.value_zero]

lemma residue_one : residue (1 : Fp) = p256FeOne := by
  apply Limbs.value_inj.mp
  rw [value_residue value_p256P, ZMod.val_one]
  rfl

lemma p256FeIszero_residue (x : Fp) : p256FeIszero (residue x) = decide (x = 0) :=
  isZero_residue value_p256P x

lemma p256FeEq_residue (x y : Fp) : p256FeEq (residue x) (residue y) = decide (x = y) := by
  rw [Bool.eq_iff_iff, p256FeEq, Limbs.same_iff, residue_inj value_p256P, decide_eq_true_eq]

/-- The arithmetic of the field elements in words. -/
def feArithmetic : Arithmetic Fe where
  zero := p256FeZero
  one := p256FeOne
  add := p256FeAdd
  sub := p256FeSub
  mul := p256FeMul
  isZero := p256FeIszero
  eq := p256FeEq

/-- It is the arithmetic of the field. -/
theorem residue_hom : (Arithmetic.field Fp).Hom feArithmetic residue where
  zero := residue_zero
  one := residue_one
  add x y := (p256FeAdd_residue x y).symm
  sub x y := (p256FeSub_residue x y).symm
  mul x y := (p256FeMul_residue x y).symm
  isZero := p256FeIszero_residue
  eq := p256FeEq_residue

lemma p256FeToBe_residue (x : Fp) : p256FeToBe (residue x) = encodeBE 32 x.val := by
  rw [p256FeToBe, Limbs.storeWordsBE_eq, value_residue value_p256P]

/-! ## The scalars -/

lemma p256ScalarMul_residue (x y : Fn) : p256ScalarMul (residue x) (residue y) = residue (x * y) :=
  mul_residue value_p256N (by decide) x y

lemma p256ScalarInv_residue (x : Fn) : p256ScalarInv (residue x) = residue x⁻¹ :=
  power_residue_eq_inv (by decide) p256ScalarMul_residue (by decide) _ x

lemma p256ScalarIszero_residue (x : Fn) : p256ScalarIszero (residue x) = decide (x = 0) :=
  isZero_residue value_p256N x

lemma p256ScalarToBe_residue (x : Fn) : p256ScalarToBe (residue x) = encodeBE 32 x.val := by
  rw [p256ScalarToBe, p256FeToBe, Limbs.storeWordsBE_eq, value_residue value_p256N]

lemma p256ScalarModNFromBe_eq {bytes : List UInt8} (short : bytes.length ≤ 64) :
    p256ScalarModNFromBe bytes = residue (decodeBE bytes : Fn) := by
  have stored : ((Limbs.zero : Limbs 32 (8 + 8)).storeBE bytes).value = decodeBE bytes :=
    Limbs.value_storeBE_zero (by omega)
  rw [p256ScalarModNFromBe, List.take_of_length_le short,
    reduceWideMod_eq_residue value_p256N (by decide), stored]

lemma p256ScalarFromBe_eq {bytes : List UInt8} (full : bytes.length = 32) :
    p256ScalarFromBe bytes =
      if decodeBE bytes < orderN then some (residue (decodeBE bytes : Fn)) else none := by
  have loaded : (Limbs.loadWordsBE bytes : Fe).value = decodeBE bytes :=
    Limbs.value_loadWordsBE (by simp [full])
  have order : feCmp (Limbs.loadWordsBE bytes) p256N ≠ .lt ↔ ¬ decodeBE bytes < orderN := by
    rw [feCmp_ne_lt_iff, value_p256N, loaded, Nat.not_lt]
  unfold p256ScalarFromBe
  by_cases below : decodeBE bytes < orderN
  · have same := eq_residue_of_lt value_p256N (loaded.trans_lt below)
    rw [loaded] at same
    rw [if_neg (not_not.mpr below ∘ order.mp), if_pos below, ← same]
  · rw [if_pos (order.mpr below), if_neg below]

end CupidOs.Crypto
