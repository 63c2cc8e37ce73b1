import Mathlib.NumberTheory.LucasPrimality
import CupidOs.Words.Bits

/-!
# Certificates of primality

Lucas' test proves a number prime from an element of order one less, which needs the prime factors
of that order. A certificate lists the factors of each number before it; the kernel checks it by
computing the powers.
-/

namespace CupidOs.Numbers

open List Words

/-- `base ^ exponent` modulo `m`. -/
def powMod (m base exponent : Nat) : Nat :=
  power (fun a b => a * b % m) (1 % m) (base % m)
    (wordBits (BitVec.ofNat (exponent.log2 + 1) exponent))

lemma powMod_eq (m base exponent : Nat) : powMod m base exponent = base ^ exponent % m := by
  have bits : ofBits 0 (wordBits (BitVec.ofNat (exponent.log2 + 1) exponent)) = exponent := by
    rw [ofBits_wordBits, zero_mul, zero_add, BitVec.toNat_ofNat, Nat.mod_eq_of_lt Nat.lt_log2_self]
  by_cases zero : exponent = 0
  · rw [powMod, power_of_zero (bits.trans zero), zero, pow_zero]
  have mulRel : ∀ a b x y : Nat, a = x % m → b = y % m → a * b % m = x * y % m := by
    rintro a b x y rfl rfl
    exact (Nat.mul_mod x y m).symm
  have related : power (fun a b => a * b % m) (1 % m) (base % m)
      (wordBits (BitVec.ofNat (exponent.log2 + 1) exponent)) =
        base ^ ofBits 0 (wordBits (BitVec.ofNat (exponent.log2 + 1) exponent)) % m :=
    power_rel (R := fun a x : Nat => a = x % m) mulRel (rfl : base % m = base % m)
      (bits.symm ▸ Nat.pos_of_ne_zero zero)
  rwa [bits] at related

/-- A number, an element of order one less, and the prime factors of that order with
repetitions. -/
structure Row where
  number : Nat
  base : Nat
  factors : List Nat

/-- Lucas' test, given numbers already known to be prime. -/
def Row.passes (known : List Nat) (row : Row) : Bool :=
  row.factors.all (fun q => known.contains q) && row.factors.prod == row.number - 1 &&
    2 ≤ row.number && powMod row.number row.base (row.number - 1) == 1 &&
    row.factors.dedup.all fun q => powMod row.number row.base ((row.number - 1) / q) != 1

/-- Every row passes, given the numbers of the rows before it. -/
def certified : List Nat → List Row → Bool
  | _, [] => true
  | known, row :: rows => row.passes known && certified (row.number :: known) rows

lemma natCast_pow_eq_one_iff {p : Nat} (large : 2 ≤ p) (a n : Nat) :
    (a : ZMod p) ^ n = 1 ↔ a ^ n % p = 1 := by
  rw [← Nat.cast_pow, ← Nat.cast_one, ZMod.natCast_eq_natCast_iff', Nat.mod_eq_of_lt large]

lemma Row.prime {known : List Nat} (primes : ∀ q ∈ known, q.Prime) {row : Row}
    (passes : row.passes known = true) : row.number.Prime := by
  simp only [Row.passes, Bool.and_eq_true, all_eq_true, contains_iff_mem, beq_iff_eq,
    decide_eq_true_eq, bne_iff_ne, mem_dedup] at passes
  obtain ⟨⟨⟨⟨factors, product⟩, large⟩, whole⟩, parts⟩ := passes
  refine lucas_primality row.number row.base ?_ fun q prime divides => ?_
  · rw [natCast_pow_eq_one_iff large, ← powMod_eq]
    exact whole
  · -- a prime divisor of the order is one of the listed factors
    rw [← product] at divides
    obtain ⟨factor, listed, dividesFactor⟩ := (prime.prime.dvd_prod_iff).mp divides
    obtain rfl : q = factor :=
      (Nat.prime_dvd_prime_iff_eq prime (primes factor (factors factor listed))).mp dividesFactor
    rw [ne_eq, natCast_pow_eq_one_iff large, ← powMod_eq]
    exact parts q listed

lemma prime_of_certified {known : List Nat} (primes : ∀ q ∈ known, q.Prime) {rows : List Row}
    (accepted : certified known rows = true) : ∀ p ∈ rows.map Row.number, p.Prime := by
  induction rows generalizing known with
  | nil => exact fun p listed => absurd listed not_mem_nil
  | cons row rows ih =>
    simp only [certified, Bool.and_eq_true] at accepted
    have rowPrime := Row.prime primes accepted.1
    have knownPrimes : ∀ q ∈ row.number :: known, q.Prime :=
      forall_mem_cons.mpr ⟨rowPrime, primes⟩
    exact forall_mem_cons.mpr ⟨rowPrime, ih knownPrimes accepted.2⟩

end CupidOs.Numbers
