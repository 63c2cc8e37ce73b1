import CupidOs.Words.Limbs

/-!
# Comparisons in constant time

`kernel/crypto/ct.c` compares byte strings by collecting every difference
before it looks at any of them.
-/

namespace CupidOs.Crypto

/-- `ct_memcmp` on the first `n` bytes of two buffers. -/
def ctMemcmp (a b : List UInt8) (n : Nat) : UInt8 :=
  (List.zipWith (fun x y => x ^^^ y) (a.take n) (b.take n)).foldl (fun diff d => diff ||| d) 0

lemma ctMemcmp_eq_zero_iff {a b : List UInt8} {n : Nat} (aLength : a.length = n)
    (bLength : b.length = n) : ctMemcmp a b n = 0 ↔ a = b := by
  rw [ctMemcmp, List.take_of_length_le (Nat.le_of_eq aLength),
    List.take_of_length_le (Nat.le_of_eq bLength)]
  exact Words.foldl_zipWith_eq_zero_iff (fun _ _ => UInt8.or_eq_zero_iff)
    (fun _ _ => UInt8.xor_eq_zero_iff) (aLength.trans bLength.symm)

end CupidOs.Crypto
