import CupidOs.Words.LimbBytes

/-!
# Arithmetic modulo the two primes of P-256

`kernel/crypto/p256.c` keeps field elements and scalars in eight 32-bit words and shares their
arithmetic between the field prime `p` and the group order `n`. A product is reduced by
subtracting the modulus at every shift from 256 down to 0. Inverses are powers by `p - 2` and `n -
2`.
-/

namespace CupidOs.Crypto

open Bytes List Words

/-- `p256_fe_t`, and `p256_scalar_t`. -/
abbrev Fe := Limbs 32 8

/-- `P256_P` -/
def p256P : Fe :=
  ⟨[0xffffffff, 0xffffffff, 0xffffffff, 0x00000000, 0x00000000, 0x00000000, 0x00000001,
    0xffffffff], rfl⟩

/-- `P256_N` -/
def p256N : Fe :=
  ⟨[0xfc632551, 0xf3b9cac2, 0xa7179e84, 0xbce6faad, 0xffffffff, 0xffffffff, 0x00000000,
    0xffffffff], rfl⟩

/-- `P256_B` -/
def p256B : Fe :=
  ⟨[0x27d2604b, 0x3bce3c3e, 0xcc53b0f6, 0x651d06b0, 0x769886bc, 0xb3ebbd55, 0xaa3a93e7,
    0x5ac635d8], rfl⟩

/-- `P256_GX` -/
def p256Gx : Fe :=
  ⟨[0xd898c296, 0xf4a13945, 0x2deb33a0, 0x77037d81, 0x63a440f2, 0xf8bce6e5, 0xe12c4247,
    0x6b17d1f2], rfl⟩

/-- `P256_GY` -/
def p256Gy : Fe :=
  ⟨[0x37bf51f5, 0xcbb64068, 0x6b315ece, 0x2bce3357, 0x7c0f9e16, 0x8ee7eb4a, 0xfe1a7f9b,
    0x4fe342e2], rfl⟩

/-- `p256_fe_zero` -/
def p256FeZero : Fe := Limbs.zero

/-- The element that `p256_fe_zero` leaves after its first word is set to one. -/
def p256FeOne : Fe := ⟨[1, 0, 0, 0, 0, 0, 0, 0], rfl⟩

variable (a : Fe)

/-- `p256_fe_iszero` -/
def p256FeIszero : Bool := a.isZero

variable (b : Fe)

/-- `p256_fe_eq` -/
def p256FeEq : Bool := a.same b

/-- `fe_cmp`, and `scalar_cmp` of `ecdsa.c`. -/
def feCmp : Ordering := a.cmp b

variable (m : Fe)

/-- `fe_sub_mod` -/
def feSubMod : Fe := (a.sub m).1

/-- `fe_addmod` -/
def feAddmod : Fe :=
  let t := a.add b
  if t.2 ≠ 0 ∨ feCmp t.1 m ≠ .lt then feSubMod t.1 m else t.1

/-- `fe_submod` -/
def feSubmod : Fe :=
  let t := a.sub b
  if t.2 ≠ 0 then (t.1.add m).1 else t.1

/-- `mul_wide` -/
def mulWide : Limbs 32 (8 + 8) := a.mul b

/-- The body of the loops that put the shifted modulus together. -/
def pshiftStep (limbShift bitShift : Nat) (pshift : Limbs 32 (8 + 8 + 1)) (i : Nat) :
    Limbs 32 (8 + 8 + 1) :=
  if bitShift = 0 then
    if limbShift + i < 17 then pshift.setAt (limbShift + i) (m.get i) else pshift
  else
    let v := m.get i
    let lo := v <<< bitShift
    let hi := v >>> (32 - bitShift)
    let pshift := if limbShift + i < 17 then pshift.orAt (limbShift + i) lo else pshift
    if limbShift + i + 1 < 17 then pshift.orAt (limbShift + i + 1) hi else pshift

/-- The words `pshift` of the modulus at a shift. -/
def pshift (shift : Nat) : Limbs 32 (8 + 8 + 1) :=
  (range 8).foldl (pshiftStep m (shift / 32) (shift % 32)) Limbs.zero

/-- One shift of `reduce_wide_mod`. -/
def reduceRound (shift : Nat) (a : Limbs 32 (8 + 8)) : Limbs 32 (8 + 8) :=
  let shifted := pshift m shift
  if (a.push 0).cmp shifted ≠ .lt then (a.sub shifted.pop).1 else a

/-- `reduce_wide_mod` -/
def reduceWideMod (a : Limbs 32 (8 + 8)) (m : Fe) : Fe := (reduceDown (reduceRound m) 257 a).low

/-- `p256_fe_add` -/
def p256FeAdd : Fe := feAddmod a b p256P

/-- `p256_fe_sub` -/
def p256FeSub : Fe := feSubmod a b p256P

/-- `p256_fe_mul` -/
def p256FeMul : Fe := reduceWideMod (mulWide a b) p256P

/-- `p256_fe_sqr` -/
def p256FeSqr : Fe := p256FeMul a a

/-- `P_MINUS_2_BE` -/
def pMinus2Be : List UInt8 :=
  [0xff, 0xff, 0xff, 0xff, 0x00, 0x00, 0x00, 0x01, 0x00, 0x00, 0x00, 0x00, 0x00, 0x00, 0x00, 0x00,
    0x00, 0x00, 0x00, 0x00, 0xff, 0xff, 0xff, 0xff, 0xff, 0xff, 0xff, 0xff, 0xff, 0xff, 0xff, 0xfd]

/-- `p256_fe_inv` -/
def p256FeInv : Fe := power p256FeMul p256FeOne a (byteBits pMinus2Be)

/-- `p256_fe_from_be`, on the first 32 bytes of a buffer. -/
def p256FeFromBe (bytes : List UInt8) : Option Fe :=
  let t : Fe := Limbs.loadWordsBE bytes
  if feCmp t p256P ≠ .lt then none else some t

/-- `p256_fe_to_be` -/
def p256FeToBe : List UInt8 := a.storeWordsBE

/-- `p256_scalar_from_be`, on the first 32 bytes of a buffer. -/
def p256ScalarFromBe (bytes : List UInt8) : Option Fe :=
  let t : Fe := Limbs.loadWordsBE bytes
  if feCmp t p256N ≠ .lt then none else some t

/-- `p256_scalar_to_be` -/
def p256ScalarToBe : List UInt8 := p256FeToBe a

/-- `p256_scalar_mod_n_from_be` -/
def p256ScalarModNFromBe (bytes : List UInt8) : Fe :=
  reduceWideMod (Limbs.zero.storeBE (bytes.take 64)) p256N

/-- `p256_scalar_iszero` -/
def p256ScalarIszero : Bool := p256FeIszero a

/-- `p256_scalar_mul` -/
def p256ScalarMul : Fe := reduceWideMod (mulWide a b) p256N

/-- `N_MINUS_2_BE` -/
def nMinus2Be : List UInt8 :=
  [0xff, 0xff, 0xff, 0xff, 0x00, 0x00, 0x00, 0x00, 0xff, 0xff, 0xff, 0xff, 0xff, 0xff, 0xff, 0xff,
    0xbc, 0xe6, 0xfa, 0xad, 0xa7, 0x17, 0x9e, 0x84, 0xf3, 0xb9, 0xca, 0xc2, 0xfc, 0x63, 0x25, 0x4f]

/-- `p256_scalar_inv` -/
def p256ScalarInv : Fe := power p256ScalarMul p256FeOne a (byteBits nMinus2Be)

/-! ## Addition and subtraction -/

lemma feCmp_ne_lt_iff : feCmp a b ≠ .lt ↔ b.value ≤ a.value := by
  rw [feCmp, Limbs.cmp_eq, ne_eq, Nat.compare_eq_lt, Nat.not_lt]

lemma ne_zero_iff_toNat {w : Nat} (word : BitVec w) : word ≠ 0 ↔ word.toNat ≠ 0 := by
  rw [ne_eq, ne_eq, BitVec.toNat_eq, BitVec.ofNat_eq_ofNat, BitVec.toNat_zero]

lemma value_feAddmod {a b m : Fe} (aBelow : a.value < m.value) (bBelow : b.value < m.value) :
    (feAddmod a b m).value = (a.value + b.value) % m.value := by
  obtain ⟨sum, carry⟩ := Limbs.add_eq a b
  have mSmall := m.value_lt
  simp only [feAddmod, feSubMod, ne_zero_iff_toNat, feCmp_ne_lt_iff, carry]
  by_cases wraps : 2 ^ (32 * 8) ≤ a.value + b.value
  · have quotient : (a.value + b.value) / 2 ^ (32 * 8) = 1 :=
      Nat.div_eq_of_lt_le (by omega) (by omega)
    have low : (a.add b).1.value = a.value + b.value - 2 ^ (32 * 8) := by
      rw [sum, Nat.mod_eq_sub_mod wraps, Nat.mod_eq_of_lt (by omega)]
    have below : (a.add b).1.value < m.value := by omega
    rw [if_pos (.inl (by rw [quotient]; decide)), (Limbs.sub_of_lt below).1, low,
      Nat.mod_eq_sub_mod (by omega), Nat.mod_eq_of_lt (by omega)]
    omega
  · have less : a.value + b.value < 2 ^ (32 * 8) := Nat.lt_of_not_le wraps
    have low : (a.add b).1.value = a.value + b.value := by rw [sum, Nat.mod_eq_of_lt less]
    have noCarry : (a.value + b.value) / 2 ^ (32 * 8) = 0 := Nat.div_eq_of_lt less
    by_cases reduced : a.value + b.value < m.value
    · rw [if_neg (by rw [noCarry, low]; omega), low, Nat.mod_eq_of_lt reduced]
    have fits : m.value ≤ (a.add b).1.value := by omega
    rw [if_pos (.inr fits), (Limbs.sub_of_le fits).1, low, Nat.mod_eq_sub_mod (by omega),
      Nat.mod_eq_of_lt (by omega)]

lemma value_feSubmod {a b m : Fe} (aBelow : a.value < m.value) (bBelow : b.value < m.value) :
    (feSubmod a b m).value = (a.value + (m.value - b.value)) % m.value := by
  have mSmall := m.value_lt
  simp only [feSubmod, ne_zero_iff_toNat]
  by_cases fits : b.value ≤ a.value
  · obtain ⟨difference, borrow⟩ := Limbs.sub_of_le fits
    rw [if_neg (by rw [borrow]; decide), difference, Nat.mod_eq_sub_mod (by omega),
      Nat.mod_eq_of_lt (by omega)]
    omega
  · obtain ⟨difference, borrow⟩ := Limbs.sub_of_lt (Nat.lt_of_not_le fits)
    rw [if_pos (by rw [borrow]; decide), (Limbs.add_eq _ m).1, difference,
      Nat.mod_eq_sub_mod (by omega), Nat.mod_eq_of_lt (by omega), Nat.mod_eq_of_lt (by omega)]
    omega

/-! ## Multiplication -/

/-- A word shifted up by some bits, and what is shifted out of it. -/
theorem shifted_parts (v : BitVec 32) {bitShift : Nat} (small : bitShift ≤ 32) :
    (v <<< bitShift).toNat = 2 ^ bitShift * (v.toNat % 2 ^ (32 - bitShift)) ∧
      (v <<< bitShift).toNat + 2 ^ 32 * (v >>> (32 - bitShift)).toNat = v.toNat * 2 ^ bitShift := by
  have split : 2 ^ 32 = 2 ^ bitShift * 2 ^ (32 - bitShift) := by
    rw [← pow_add, Nat.add_sub_cancel' small]
  have low : (v <<< bitShift).toNat = 2 ^ bitShift * (v.toNat % 2 ^ (32 - bitShift)) := by
    rw [BitVec.toNat_shiftLeft, Nat.shiftLeft_eq, split, mul_comm v.toNat, Nat.mul_mod_mul_left]
  refine ⟨low, ?_⟩
  rw [low, BitVec.toNat_ushiftRight, Nat.shiftRight_eq_div_pow, split, mul_assoc,
    ← mul_add, Nat.mod_add_div, mul_comm]

/-- The words of the modulus are stored above those already there. -/
theorem value_pshiftStep {limbShift bitShift i : Nat} (small : bitShift < 32)
    (inside : limbShift + i + 1 < 17) {shifted : Limbs 32 (8 + 8 + 1)}
    (below : shifted.value < 2 ^ (32 * (limbShift + i) + bitShift)) :
    (pshiftStep m limbShift bitShift shifted i).value =
      shifted.value + (m.get i).toNat * 2 ^ (32 * (limbShift + i) + bitShift) := by
  have here : limbShift + i < 17 := by omega
  unfold pshiftStep
  by_cases whole : bitShift = 0
  · subst whole
    have clear : shifted.get (limbShift + i) = 0 := Limbs.get_eq_zero_of_lt (by simpa using below)
    have word : (m.get i).toNat = 2 ^ 0 * (m.get i).toNat := by rw [pow_zero, one_mul]
    rw [if_pos rfl, if_pos here, Limbs.setAt_eq_orAt clear,
      Limbs.value_orAt_of_lt shifted here below word, add_zero (32 * (limbShift + i))]
  · obtain ⟨low, sum⟩ := shifted_parts (m.get i) (le_of_lt small)
    have first := Limbs.value_orAt_of_lt shifted here below low
    have high : (m.get i >>> (32 - bitShift)).toNat =
        2 ^ 0 * (m.get i >>> (32 - bitShift)).toNat := by rw [pow_zero, one_mul]
    have room : (shifted.orAt (limbShift + i) (m.get i <<< bitShift)).value <
        2 ^ (32 * (limbShift + i + 1) + 0) := by
      have lowSmall : (m.get i <<< bitShift).toNat + 2 ^ bitShift ≤ 2 ^ 32 := by
        have remainder := Nat.mod_lt (m.get i).toNat (Nat.two_pow_pos (32 - bitShift))
        calc (m.get i <<< bitShift).toNat + 2 ^ bitShift
            = 2 ^ bitShift * ((m.get i).toNat % 2 ^ (32 - bitShift) + 1) := by
              rw [low]
              ring
          _ ≤ 2 ^ bitShift * 2 ^ (32 - bitShift) := Nat.mul_le_mul_left _ remainder
          _ = 2 ^ 32 := by rw [← pow_add, Nat.add_sub_cancel' (le_of_lt small)]
      calc (shifted.orAt (limbShift + i) (m.get i <<< bitShift)).value
          < 2 ^ (32 * (limbShift + i) + bitShift) +
              (m.get i <<< bitShift).toNat * 2 ^ (32 * (limbShift + i)) := by
            rw [first]
            exact Nat.add_lt_add_right below _
        _ = ((m.get i <<< bitShift).toNat + 2 ^ bitShift) * 2 ^ (32 * (limbShift + i)) := by
            rw [pow_add]
            ring
        _ ≤ 2 ^ 32 * 2 ^ (32 * (limbShift + i)) := Nat.mul_le_mul_right _ lowSmall
        _ = 2 ^ (32 * (limbShift + i + 1) + 0) := by
            rw [← pow_add]
            congr 1
            omega
    have second := Limbs.value_orAt_of_lt _ inside room high
    simp only [if_neg whole, if_pos here, if_pos inside]
    rw [second, first, pow_add _ _ bitShift, Nat.mul_succ, pow_add, add_assoc]
    congr 1
    calc (m.get i <<< bitShift).toNat * 2 ^ (32 * (limbShift + i)) +
          (m.get i >>> (32 - bitShift)).toNat * (2 ^ (32 * (limbShift + i)) * 2 ^ 32)
        = ((m.get i <<< bitShift).toNat + 2 ^ 32 * (m.get i >>> (32 - bitShift)).toNat) *
            2 ^ (32 * (limbShift + i)) := by ring
      _ = (m.get i).toNat * (2 ^ (32 * (limbShift + i)) * 2 ^ bitShift) := by
          rw [sum]
          ring

/-- The words put together are those of the shifted modulus. -/
theorem value_pshift {shift : Nat} (small : shift ≤ 256) :
    (pshift m shift).value = m.value * 2 ^ shift := by
  have bits : 32 * (shift / 32) + shift % 32 = shift := Nat.div_add_mod shift 32
  have loop : ∀ count ≤ 8, ((range count).foldl (pshiftStep m (shift / 32) (shift % 32))
      Limbs.zero).value = valueOf (m.words.take count) * 2 ^ shift := by
    intro count
    induction count with
    | zero => simp [valueOf]
    | succ count ih =>
      intro fits
      have before := ih (Nat.le_of_succ_le fits)
      have place : 32 * (shift / 32 + count) + shift % 32 = 32 * count + shift := by omega
      have lowSmall := valueOf_lt (m.words.take count)
      have length : (m.words.take count).length = count := by simp; omega
      rw [length] at lowSmall
      have below : ((range count).foldl (pshiftStep m (shift / 32) (shift % 32))
          Limbs.zero).value < 2 ^ (32 * (shift / 32 + count) + shift % 32) := by
        rw [before, place, pow_add]
        exact Nat.mul_lt_mul_of_pos_right lowSmall (Nat.two_pow_pos _)
      rw [range_succ, foldl_append, foldl_cons, foldl_nil,
        value_pshiftStep m (Nat.mod_lt _ (by decide)) (by omega) below, before, place,
        Limbs.valueOf_take_succ m (by omega), pow_add]
      ring
  have whole : m.words.take 8 = m.words := take_of_length_le (by simp)
  have result := loop 8 (Nat.le_refl 8)
  rw [whole] at result
  exact result

/-- One round of the reduction subtracts the shifted modulus where it fits. -/
theorem value_reduceRound {shift : Nat} (small : shift ≤ 256) (a : Limbs 32 (8 + 8)) :
    (reduceRound m shift a).value =
      if m.value * 2 ^ shift ≤ a.value then a.value - m.value * 2 ^ shift else a.value := by
  have shifted := value_pshift m small
  have fits : m.value * 2 ^ shift < 2 ^ (32 * (8 + 8)) := by
    have power : 2 ^ (32 * 8 + shift) ≤ 2 ^ (32 * (8 + 8)) :=
      Nat.pow_le_pow_right (by decide) (by omega)
    have product : m.value * 2 ^ shift < 2 ^ (32 * 8) * 2 ^ shift :=
      Nat.mul_lt_mul_of_pos_right m.value_lt (Nat.two_pow_pos _)
    rw [← pow_add] at product
    exact product.trans_le power
  have popped : (pshift m shift).pop.value = m.value * 2 ^ shift := by
    rw [Limbs.value_pop, shifted, Nat.mod_eq_of_lt fits]
  have extended : (a.push 0).value = a.value := by simp [Limbs.value_push]
  have order : (a.push 0).cmp (pshift m shift) ≠ .lt ↔ m.value * 2 ^ shift ≤ a.value := by
    rw [Limbs.cmp_eq, extended, shifted, ne_eq, Nat.compare_eq_lt, Nat.not_lt]
  unfold reduceRound
  by_cases le : m.value * 2 ^ shift ≤ a.value
  · have lePopped : (pshift m shift).pop.value ≤ a.value := popped.trans_le le
    simp only [if_pos (order.mpr le), if_pos le]
    rw [(Limbs.sub_of_le lePopped).1, popped]
  · simp only [if_neg (mt order.mp le), if_neg le]

/-- `reduce_wide_mod` computes the remainder by every modulus with its top bit set. -/
theorem value_reduceWideMod (a : Limbs 32 (8 + 8)) {m : Fe} (top : 2 ^ 255 ≤ m.value) :
    (reduceWideMod a m).value = a.value % m.value := by
  have width : 32 * (8 + 8) = 255 + 257 := rfl
  have bound : a.value < m.value * 2 ^ 257 :=
    calc a.value < 2 ^ (32 * (8 + 8)) := a.value_lt
      _ = 2 ^ 255 * 2 ^ 257 := by rw [width, pow_add]
      _ ≤ m.value * 2 ^ 257 := Nat.mul_le_mul_right _ top
  have remainder := reduceDown_eq
    (fun shift less b => value_reduceRound m (Nat.le_of_lt_succ less) b) bound
  have small : a.value % m.value < 2 ^ (32 * 8) :=
    (Nat.mod_lt _ (lt_of_lt_of_le (by decide) top)).trans m.value_lt
  rw [reduceWideMod, Limbs.value_low, remainder, Nat.mod_eq_of_lt small]

end CupidOs.Crypto
