import Mathlib.Tactic.NormNum.Prime
import CupidOs.Numbers.Lucas

/-!
# The two primes of P-256

The field of P-256 has `p = 2^256 - 2^224 + 2^192 + 2^96 - 1` elements, and the base
point of the curve has order `n`.  Both are prime; Lucas' test certifies them from
the factors of `p - 1` and `n - 1`.
-/

namespace CupidOs.Crypto

open Numbers

/-- The order of the field. -/
def primeP : Nat := 2 ^ 256 - 2 ^ 224 + 2 ^ 192 + 2 ^ 96 - 1

/-- The order of the base point. -/
def orderN : Nat := 0xffffffff00000000ffffffffffffffffbce6faada7179e84f3b9cac2fc632551

/-- The small primes that the certificate refers to. -/
def smallPrimes : List Nat :=
  [2, 3, 5, 7, 11, 17, 23, 29, 41, 43, 53, 71, 107, 127, 131, 173, 197, 257, 311, 373, 641, 1297,
    1531, 2411, 3023, 3407, 3677, 3769, 16879, 17449, 18169, 38189, 65537, 78283, 126241, 155317,
    490463, 704251, 3969899, 6700417, 9350987]

lemma smallPrimes_prime : ∀ q ∈ smallPrimes, q.Prime := by
  simp only [smallPrimes, List.forall_mem_cons]
  norm_num

/-- The certificate of both primes. -/
def certificate : List Row :=
  [ ⟨204061199, 11, [2, 11, 23, 107, 3769]⟩, ⟨34282281433, 17, [2, 2, 2, 3, 7, 204061199]⟩,
    ⟨66417393611, 6, [2, 5, 53, 173, 197, 3677]⟩,
    ⟨11290956913871, 13, [2, 5, 17, 66417393611]⟩,
    ⟨46076956964474543, 5, [2, 23, 18169, 78283, 704251]⟩,
    ⟨774023187263532362759620327192479577272145303, 3, [2, 3, 3, 2411, 34282281433, 11290956913871,
      46076956964474543]⟩,
    ⟨835945042244614951780389953367877943453916927241, 11, [2, 2, 2, 3, 3, 3, 5,
      774023187263532362759620327192479577272145303]⟩,
    ⟨primeP, 6, [2, 3, 5, 5, 17, 257, 641, 1531, 65537, 490463, 6700417,
      835945042244614951780389953367877943453916927241]⟩,
    ⟨187019741, 2, [2, 2, 5, 9350987]⟩,
    ⟨311245691, 2, [2, 5, 7, 17, 29, 29, 311]⟩,
    ⟨622491383, 5, [2, 311245691]⟩,
    ⟨1002328039319, 19, [2, 126241, 3969899]⟩,
    ⟨191039911, 3, [2, 3, 5, 41, 155317]⟩,
    ⟨208150935158385979, 2, [2, 3, 11, 43, 127, 3023, 191039911]⟩,
    ⟨2624747550333869278416773953, 7, [2, 2, 2, 2, 2, 2, 3, 3, 1297, 16879, 208150935158385979]⟩,
    ⟨orderN, 7, [2, 2, 2, 2, 3, 71, 131, 373, 3407, 17449, 38189, 187019741, 622491383,
      1002328039319, 2624747550333869278416773953]⟩
  ]

lemma certified_certificate : certified smallPrimes certificate = true := by
  decide +kernel

lemma prime_primeP : primeP.Prime :=
  prime_of_certified smallPrimes_prime certified_certificate primeP (by simp [certificate])

lemma prime_orderN : orderN.Prime :=
  prime_of_certified smallPrimes_prime certified_certificate orderN (by simp [certificate])

instance : Fact primeP.Prime := ⟨prime_primeP⟩

instance : Fact orderN.Prime := ⟨prime_orderN⟩

end CupidOs.Crypto
