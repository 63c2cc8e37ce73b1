import CupidOs.Words.LimbBytes

/-!
# Integers of 4096 bits

`kernel/crypto/bigint.c` keeps integers of up to 4096 bits in 128 words, and products in twice as
many. A wide value is reduced by subtracting the modulus at every shift from the difference of the
two bit lengths down to zero. A power is computed by squaring and multiplying over the bytes of
the exponent.
-/

namespace CupidOs.Crypto

open Words Bytes

/-- `bn_t`, with `BN_MAX_LIMBS` words. -/
abbrev Bn := Limbs 32 128

/-- `bn_wide_t`, with `BN_WORK_LIMBS` words. -/
abbrev BnWide := Limbs 32 (128 + 128)

/-- `bn_set_u32` -/
def bnSetU32 (v : BitVec 32) : Bn := ⟨v :: List.replicate 127 0, by simp⟩

/-- `bn_cmp` -/
def bnCmp (a b : Bn) : Ordering := a.cmp b

/-- `bn_from_be` -/
def bnFromBe (bytes : List UInt8) : Option Bn :=
  if bytes.length > 128 * 4 then none else some (Limbs.zero.storeBE bytes)

/-- `bn_to_be` -/
def bnToBe (length : Nat) (a : Bn) : List UInt8 := a.loadBE length

/-- `bn_mul` -/
def bnMul (a b : Bn) : BnWide := a.mul b

/-- `bn_bits` -/
def bnBits (n : Bn) : Nat := n.bits

section Shifted

variable {k l : Nat}

variable (n : Limbs 32 k)

/-- The word of `n` at a source index, which may be outside of the array. -/
def bnWordAt (src : Int) : BitVec 32 :=
  if 0 ≤ src ∧ src < k then n.get src.toNat else 0

/-- The word `nv` of `n << shift_bits` at index `i`. -/
def bnShiftedWord (shiftBits i : Nat) : BitVec 32 :=
  let limbShift := shiftBits / 32
  let bitShift := shiftBits % 32
  let src : Int := i - limbShift
  if bitShift = 0 then bnWordAt n src
  else (bnWordAt n src <<< bitShift) ||| (bnWordAt n (src - 1) >>> (32 - bitShift))

/-- The words that the two loops go through. -/
def bnShifted (shiftBits : Nat) : Limbs 32 l :=
  Limbs.ofFn (bnShiftedWord n shiftBits)

/-- `bn_wide_cmp_shifted` -/
def bnWideCmpShifted (a : Limbs 32 l) (n : Limbs 32 k) (shiftBits : Nat) : Ordering :=
  a.cmp (bnShifted n shiftBits)

/-- `bn_wide_sub_shifted` -/
def bnWideSubShifted (a : Limbs 32 l) (n : Limbs 32 k) (shiftBits : Nat) : Limbs 32 l :=
  (a.sub (bnShifted n shiftBits)).1

/-- The body of the loop of `bn_mod_wide`. -/
def bnReduceRound (shift : Nat) (a : Limbs 32 l) : Limbs 32 l :=
  if bnWideCmpShifted a n shift ≠ .lt then bnWideSubShifted a n shift else a

lemma getLsbD_bnWordAt (src : Int) {j : Nat} (small : j < 32) :
    (bnWordAt n src).getLsbD j = (decide (0 ≤ src) && n.value.testBit (32 * src.toNat + j)) := by
  unfold bnWordAt
  split
  next inside => rw [Limbs.getLsbD_get n small, decide_eq_true inside.1, Bool.true_and]
  next outside =>
    by_cases nonnegative : 0 ≤ src
    · have beyond : k ≤ src.toNat := by omega
      rw [← Limbs.getLsbD_get n small, Limbs.get_of_le n beyond]
      simp
    · simp [nonnegative]

/-- The word found `limbShift` words further down, at a bit that lies in it. -/
theorem getLsbD_bnWordAt_of_place {src : Int} {j shift place : Nat}
    (small : j < 32) (eq : 32 * src + j = (place : Int) - shift) :
    (bnWordAt n src).getLsbD j = (decide (place ≥ shift) && n.value.testBit (place - shift)) := by
  rw [getLsbD_bnWordAt n src small]
  by_cases reached : place ≥ shift
  · have nonnegative : 0 ≤ src := by omega
    have same : 32 * src.toNat + j = place - shift := by omega
    rw [decide_eq_true reached, decide_eq_true nonnegative, same]
  · have negative : ¬ 0 ≤ src := by omega
    rw [decide_eq_false reached, decide_eq_false negative, Bool.false_and, Bool.false_and]

variable {n : Limbs 32 k}

/-- The words put together at each index are those of the shifted number. -/
theorem value_bnShifted {shiftBits : Nat}
    (fits : n.value * 2 ^ shiftBits < 2 ^ (32 * l)) :
    (bnShifted n shiftBits : Limbs 32 l).value = n.value * 2 ^ shiftBits := by
  refine Limbs.value_eq_of_testBit fits fun i inside j small => ?_
  rw [bnShifted, Limbs.get_ofFn, if_pos inside, Nat.testBit_mul_two_pow, bnShiftedWord]
  split
  next whole => exact getLsbD_bnWordAt_of_place n small (by omega)
  next across =>
    rw [BitVec.getLsbD_or, BitVec.getLsbD_shiftLeft, BitVec.getLsbD_ushiftRight]
    by_cases below : j < shiftBits % 32
    · -- the bit comes from the word below
      rw [decide_eq_true below, Bool.not_true, Bool.and_false, Bool.false_and, Bool.false_or]
      exact getLsbD_bnWordAt_of_place n (by omega) (by omega)
    have none : (bnWordAt n (i - (shiftBits / 32 : Nat) - 1)).getLsbD
        (32 - shiftBits % 32 + j) = false := BitVec.getLsbD_of_ge _ _ (by omega)
    rw [none, decide_eq_true small, decide_eq_false below, Bool.or_false, Bool.not_false,
      Bool.true_and, Bool.true_and]
    exact getLsbD_bnWordAt_of_place n (by omega) (by omega)

/-- One round of the reduction subtracts the shifted modulus where it fits. -/
theorem value_bnReduceRound {shift : Nat}
    (fits : n.value * 2 ^ shift < 2 ^ (32 * l)) (a : Limbs 32 l) :
    (bnReduceRound n shift a).value =
      if n.value * 2 ^ shift ≤ a.value then a.value - n.value * 2 ^ shift else a.value := by
  have shifted := value_bnShifted fits
  have order : bnWideCmpShifted a n shift ≠ .lt ↔ n.value * 2 ^ shift ≤ a.value := by
    rw [bnWideCmpShifted, Limbs.cmp_eq, shifted, ne_eq, Nat.compare_eq_lt, Nat.not_lt]
  unfold bnReduceRound
  by_cases le : n.value * 2 ^ shift ≤ a.value
  · have leShifted : (bnShifted n shift : Limbs 32 l).value ≤ a.value := shifted.trans_le le
    rw [if_pos (order.mpr le), if_pos le, bnWideSubShifted, (Limbs.sub_of_le leShifted).1, shifted]
  · rw [if_neg (mt order.mp le), if_neg le]

/-- The rounds from the difference of the bit lengths down compute the remainder. -/
theorem value_reduceDown {a : Limbs 32 l} (positive : 0 < n.value)
    (longer : n.value.size ≤ a.value.size) :
    (reduceDown (bnReduceRound n) (a.value.size - n.value.size + 1) a).value =
      a.value % n.value := by
  have top : 2 ^ (n.value.size - 1) ≤ n.value :=
    Nat.lt_size.mp (Nat.sub_lt (Nat.size_pos.mpr positive) Nat.one_pos)
  have room : a.value.size ≤ 32 * l := Nat.size_le.mpr a.value_lt
  refine reduceDown_eq (fun shift less a => value_bnReduceRound ?_ a) ?_
  · calc n.value * 2 ^ shift < 2 ^ n.value.size * 2 ^ shift :=
          Nat.mul_lt_mul_of_pos_right (Nat.lt_size_self n.value) (Nat.two_pow_pos _)
      _ = 2 ^ (n.value.size + shift) := (pow_add ..).symm
      _ ≤ 2 ^ (32 * l) := Nat.pow_le_pow_right (by decide) (by omega)
  · calc a.value < 2 ^ a.value.size := Nat.lt_size_self a.value
      _ = 2 ^ (n.value.size - 1) * 2 ^ (a.value.size - n.value.size + 1) := by
          have := Nat.size_pos.mpr positive
          rw [← pow_add]
          congr 1
          omega
      _ ≤ n.value * 2 ^ (a.value.size - n.value.size + 1) := Nat.mul_le_mul_right _ top

end Shifted

/-- `bn_mod_wide` -/
def bnModWide (a : BnWide) (n : Bn) : Bn :=
  let nbits := bnBits n
  if nbits = 0 then Limbs.zero
  else
    let abits := a.bits
    let remainder :=
      if abits ≥ nbits then reduceDown (bnReduceRound n) (abits - nbits + 1) a else a
    remainder.low

/-- `bn_modexp` -/
def bnModexp (base : Bn) (exp : List UInt8) (n : Bn) : Bn :=
  power (fun a b => bnModWide (bnMul a b) n) (bnSetU32 1) base (byteBits exp)

/-! ## What the functions compute -/

lemma value_bnSetU32 (v : BitVec 32) : (bnSetU32 v).value = v.toNat := by
  rw [Limbs.value, bnSetU32, valueOf, BitVec.ofNat_eq_ofNat, valueOf_replicate_zero, mul_zero,
    add_zero]

lemma bnCmp_eq_lt_iff (a b : Bn) : bnCmp a b = .lt ↔ a.value < b.value := by
  rw [bnCmp, Limbs.cmp_eq, Nat.compare_eq_lt]

lemma bnFromBe_eq_some_iff (bytes : List UInt8) (a : Bn) :
    bnFromBe bytes = some a ↔ bytes.length ≤ 512 ∧ a.value = decodeBE bytes := by
  unfold bnFromBe
  split
  next long =>
    have tooLong : ¬ bytes.length ≤ 512 := by omega
    simp [tooLong]
  next fits =>
    have short : bytes.length ≤ 512 := by omega
    have stored : ((Limbs.zero : Bn).storeBE bytes).value = decodeBE bytes :=
      Limbs.value_storeBE_zero (by omega)
    rw [Option.some_inj, ← Limbs.value_inj, stored, and_iff_right short, eq_comm]

lemma bnToBe_eq (length : Nat) (a : Bn) : bnToBe length a = encodeBE length a.value :=
  a.loadBE_eq length

/-- `bn_mod_wide` computes the remainder of every wide value. -/
theorem value_bnModWide (a : BnWide) {n : Bn} (positive : 0 < n.value) :
    (bnModWide a n).value = a.value % n.value := by
  have nonzero : n.value.size ≠ 0 := Nat.pos_iff_ne_zero.mp (Nat.size_pos.mpr positive)
  have small := (Nat.mod_lt a.value positive).trans n.value_lt
  have remainder : (if a.value.size ≥ n.value.size then
      reduceDown (bnReduceRound n) (a.value.size - n.value.size + 1) a else a).value =
        a.value % n.value := by
    split
    next longer => exact value_reduceDown positive longer
    next shorter =>
      have below : a.value < n.value := by
        by_contra notBelow
        exact shorter (Nat.size_le_size (Nat.le_of_not_lt notBelow))
      rw [Nat.mod_eq_of_lt below]
  simp only [bnModWide, bnBits, Limbs.bits_eq, if_neg nonzero]
  rw [Limbs.value_low, remainder, Nat.mod_eq_of_lt small]

/-- `bn_modexp` computes the power of a base below `n`; for the exponent zero it returns one. -/
theorem value_bnModexp {base n : Bn} (below : base.value < n.value) (exp : List UInt8) :
    (bnModexp base exp n).value =
      if decodeBE exp = 0 then 1 else base.value ^ decodeBE exp % n.value := by
  have bits : ofBits 0 (byteBits exp) = decodeBE exp := by
    rw [ofBits_byteBits, zero_mul, zero_add]
  split
  next zero => rw [bnModexp, power_of_zero (bits.trans zero), value_bnSetU32]; rfl
  next nonzero =>
    have positive : 0 < n.value := Nat.zero_lt_of_lt below
    have mulRel : ∀ (a b : Bn) (x y : Nat), a.value = x % n.value → b.value = y % n.value →
        (bnModWide (bnMul a b) n).value = x * y % n.value := by
      intro a b x y aValue bValue
      rw [value_bnModWide _ positive, bnMul, Limbs.value_mul, aValue, bValue, ← Nat.mul_mod]
    have baseRel : base.value = base.value % n.value := (Nat.mod_eq_of_lt below).symm
    rw [← bits] at nonzero ⊢
    exact power_rel (R := fun (a : Bn) (x : Nat) => a.value = x % n.value) mulRel baseRel
      (Nat.pos_of_ne_zero nonzero)

/-- The product of two integers and the remainder of a wide one are exact, and so is the power for
every modulus above one, every base below it and every exponent. -/
theorem bigint_exact : (∀ a b : Bn, (bnMul a b).value = a.value * b.value) ∧
    (∀ (a : BnWide) (n : Bn), n.value ≠ 0 → (bnModWide a n).value = a.value % n.value) ∧
    ∀ (base n : Bn) (exp : List UInt8), 2 ≤ n.value → base.value < n.value →
      (bnModexp base exp n).value = base.value ^ decodeBE exp % n.value := by
  refine ⟨Limbs.value_mul, fun a n nonzero => value_bnModWide a (Nat.pos_of_ne_zero nonzero), ?_⟩
  intro base n exp large below
  rw [value_bnModexp below]
  split
  next zero => rw [zero, pow_zero, Nat.mod_eq_of_lt large]
  next => rfl

end CupidOs.Crypto
