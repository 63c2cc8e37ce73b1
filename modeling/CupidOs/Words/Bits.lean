import Mathlib.Data.Nat.ModEq
import CupidOs.Words.Limbs
import CupidOs.Bytes.Codec

/-!
# Loops over the bits of a number

Exponents and scalars are scanned from their top bit down. A bit string is read as a number, and
the two loops driven by such a scan compute a power by squaring and multiplying, and a remainder
by subtracting the modulus at one shift after the other.
-/

namespace CupidOs.Words

open Bytes List

variable {w n : Nat}

/-- The number that `bits`, top bit first, denote after the leading part `start`. -/
def ofBits (start : Nat) (bits : List Bool) : Nat :=
  bits.foldl (fun value bit => 2 * value + bit.toNat) start

variable (start : Nat)

@[simp]
lemma ofBits_nil : ofBits start [] = start :=
  rfl

@[simp]
lemma ofBits_cons (bit : Bool) (bits : List Bool) :
    ofBits start (bit :: bits) = ofBits (2 * start + bit.toNat) bits :=
  rfl

lemma ofBits_append (first second : List Bool) :
    ofBits start (first ++ second) = ofBits (ofBits start first) second :=
  foldl_append ..

/-- The `count` low bits of a word, the highest one first. -/
def lowBits (word : BitVec w) (count : Nat) : List Bool :=
  (range count).reverse.map word.getLsbD

/-- The bits of a word from the top one down. -/
def wordBits (word : BitVec w) : List Bool := lowBits word w

lemma ofBits_lowBits (word : BitVec w) (count : Nat) :
    ofBits start (lowBits word count) = start * 2 ^ count + word.toNat % 2 ^ count := by
  induction count generalizing start with
  | zero => simp [lowBits, Nat.mod_one]
  | succ count ih =>
    have step : lowBits word (count + 1) = word.getLsbD count :: lowBits word count := by
      simp [lowBits, range_succ]
    have high : word.toNat % 2 ^ (count + 1) =
        word.toNat % 2 ^ count + 2 ^ count * (word.getLsbD count).toNat := by
      rw [Nat.mod_pow_succ, BitVec.getLsbD, Nat.toNat_testBit]
    rw [step, ofBits_cons, ih, high, pow_succ]
    ring

lemma ofBits_wordBits (word : BitVec w) :
    ofBits start (wordBits word) = start * 2 ^ w + word.toNat := by
  rw [wordBits, ofBits_lowBits, Nat.mod_eq_of_lt word.isLt]

/-- The bits of an array of words from the top one down. -/
def Limbs.scan (a : Limbs w n) : List Bool := a.words.reverse.flatMap wordBits

lemma ofBits_flatMap_wordBits (words : List (BitVec w)) : ofBits start (words.flatMap wordBits) =
      start * 2 ^ (w * words.length) + valueOf words.reverse := by
  induction words generalizing start with
  | nil => simp [valueOf]
  | cons word words ih =>
    rw [flatMap_cons, ofBits_append, ofBits_wordBits, ih, valueOf_reverse_cons,
      length_cons, Nat.mul_succ, pow_add]
    ring

lemma Limbs.ofBits_scan (a : Limbs w n) : ofBits 0 a.scan = a.value := by
  rw [Limbs.scan, ofBits_flatMap_wordBits, reverse_reverse, zero_mul, zero_add, Limbs.value]

@[simp]
lemma Limbs.length_scan (a : Limbs w n) : a.scan.length = n * w := by
  simp [Limbs.scan, length_flatMap, wordBits, lowBits, a.size]

/-- The bits of a byte string from the top one down. -/
def byteBits (bytes : List UInt8) : List Bool := bytes.flatMap fun byte => wordBits byte.toBitVec

lemma decodeBE_cons (byte : UInt8) (bytes : List UInt8) :
    decodeBE (byte :: bytes) = byte.toNat * 256 ^ bytes.length + decodeBE bytes := by
  have single : decodeBE [byte] = byte.toNat := rfl
  rw [← singleton_append, decodeBE_append, single]

lemma ofBits_byteBits (bytes : List UInt8) :
    ofBits start (byteBits bytes) = start * 256 ^ bytes.length + decodeBE bytes := by
  induction bytes generalizing start with
  | nil => simp [byteBits, decodeBE, decodeLE]
  | cons byte bytes ih =>
    have split : byteBits (byte :: bytes) = wordBits byte.toBitVec ++ byteBits bytes := rfl
    rw [split, ofBits_append, ofBits_wordBits, ih, decodeBE_cons, length_cons]
    simp only [UInt8.toNat_toBitVec]
    ring

/-! ## Square and multiply -/

section Power

variable {α M : Type}

/-- One bit of the exponent. The accumulator is `base` from the first set bit on. -/
def powerStep (mul : α → α → α) (base : α) (state : Bool × α) (bit : Bool) : Bool × α :=
  let acc := if state.1 then mul state.2 state.2 else state.2
  if bit then
    if !state.1 then (true, base) else (true, mul acc base)
  else (state.1, acc)

/-- The power of `base` by the exponent with the given bits, and `one` if no bit is set. -/
def power (mul : α → α → α) (one base : α) (bits : List Bool) : α :=
  (bits.foldl (powerStep mul base) (false, one)).2

variable [Monoid M] {R : α → M → Prop} {mul : α → α → α} {one base : α} {g : M}

/-- After a leading part `count` of the exponent the accumulator is the power by `count`. -/
def PowerInvariant (R : α → M → Prop) (one : α) (g : M) (count : Nat) (state : Bool × α) : Prop :=
  (state.1 = false ∧ count = 0 ∧ state.2 = one) ∨
    (state.1 = true ∧ 0 < count ∧ R state.2 (g ^ count))

section

variable (mulRel : ∀ a b x y, R a x → R b y → R (mul a b) (x * y))
include mulRel

lemma powerStep_invariant (baseRel : R base g) {count : Nat} {state : Bool × α}
    (invariant : PowerInvariant R one g count state) (bit : Bool) :
    PowerInvariant R one g (2 * count + bit.toNat) (powerStep mul base state bit) := by
  obtain ⟨started, acc⟩ := state
  rcases invariant with ⟨rfl, rfl, rfl⟩ | ⟨rfl, positive, related⟩
  · cases bit with
    | false => exact .inl ⟨rfl, rfl, rfl⟩
    | true => exact .inr ⟨rfl, Nat.one_pos, by simpa [powerStep] using baseRel⟩
  have squared := mulRel _ _ _ _ related related
  rw [← pow_add, ← Nat.two_mul] at squared
  cases bit with
  | false => exact .inr ⟨rfl, by omega, squared⟩
  | true =>
    have multiplied := mulRel _ _ _ _ squared baseRel
    rw [← pow_succ] at multiplied
    exact .inr ⟨rfl, by simp, multiplied⟩

lemma foldl_powerStep_invariant (baseRel : R base g) (bits : List Bool) {count : Nat}
    {state : Bool × α} (invariant : PowerInvariant R one g count state) :
    PowerInvariant R one g (ofBits count bits) (bits.foldl (powerStep mul base) state) := by
  induction bits generalizing count state with
  | nil => exact invariant
  | cons bit bits ih => exact ih (powerStep_invariant mulRel baseRel invariant bit)

lemma power_rel (baseRel : R base g) {bits : List Bool} (positive : 0 < ofBits 0 bits) :
    R (power mul one base bits) (g ^ ofBits 0 bits) := by
  have start : PowerInvariant R one g 0 (false, one) := .inl ⟨rfl, rfl, rfl⟩
  rcases foldl_powerStep_invariant mulRel baseRel bits start with ⟨-, zero, -⟩ | ⟨-, -, related⟩
  · omega
  · exact related

end

lemma power_of_zero {bits : List Bool} (zero : ofBits 0 bits = 0) :
    power mul one base bits = one := by
  -- only the flag and the count matter here, so every accumulator is related to every number
  have start : PowerInvariant (fun _ (_ : Nat) => True) one 1 0 (false, one) :=
    .inl ⟨rfl, rfl, rfl⟩
  have invariant : PowerInvariant (fun _ (_ : Nat) => True) one 1 (ofBits 0 bits)
      (bits.foldl (powerStep mul base) (false, one)) :=
    foldl_powerStep_invariant (fun _ _ _ _ _ _ => trivial) trivial bits start
  rcases invariant with ⟨-, -, same⟩ | ⟨-, positive, -⟩
  · exact same
  · omega

end Power

/-! ## Shift and subtract -/

/-- Subtracting the modulus at one shift, where it fits, keeps the remainder and halves the
bound. -/
theorem reduce_step {a m shift : Nat} (bound : a < m * 2 ^ (shift + 1)) :
    (if m * 2 ^ shift ≤ a then a - m * 2 ^ shift else a) < m * 2 ^ shift ∧
      (if m * 2 ^ shift ≤ a then a - m * 2 ^ shift else a) % m = a % m := by
  rw [pow_succ, ← mul_assoc] at bound
  split
  next fits =>
    refine ⟨by omega, ?_⟩
    conv_rhs => rw [← Nat.sub_add_cancel fits, Nat.add_mul_mod_self_left]
  next below => exact ⟨by omega, rfl⟩

section Reduce

variable {α : Type}

/-- A loop over the shifts below `count`, from the highest one down. -/
def reduceDown (round : Nat → α → α) : Nat → α → α
  | 0, a => a
  | shift + 1, a => reduceDown round shift (round shift a)

/-- Rounds that subtract the shifted modulus where it fits leave the remainder. -/
theorem reduceDown_eq {round : Nat → α → α} {number : α → Nat} {m count : Nat}
    (rounds : ∀ shift < count, ∀ a, number (round shift a) =
      if m * 2 ^ shift ≤ number a then number a - m * 2 ^ shift else number a)
    {a : α} (bound : number a < m * 2 ^ count) :
    number (reduceDown round count a) = number a % m := by
  induction count generalizing a with
  | zero =>
    rw [reduceDown, Nat.mod_eq_of_lt]
    simpa using bound
  | succ shift ih =>
    obtain ⟨smaller, same⟩ := reduce_step bound
    rw [← rounds shift (Nat.lt_succ_self _) a] at smaller same
    rw [reduceDown, ih (fun lower less => rounds lower (Nat.lt_succ_of_lt less)) smaller, same]

end Reduce

end CupidOs.Words
