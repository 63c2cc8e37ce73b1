import CupidOs.Bytes.Codec

/-!
# Sums of 16-bit words in ones' complement

A byte string is read as big-endian 16-bit words. Their sum is folded into 16 bits by adding the
carries back; folding keeps it modulo `2 ^ 16 - 1`, so a string that contains the complement of
its own sum folds to all ones.
-/

namespace CupidOs.Bytes

/-- The two bytes of a number, most significant first. -/
def encodeBE16 (value : Nat) : List UInt8 :=
  [UInt8.ofNat (value / 256), UInt8.ofNat value]

/-- The 16-bit number stored at `offset`, most significant byte first. -/
def readBE16 (bytes : List UInt8) (offset : Nat) : Nat :=
  (bytes.getD offset 0).toNat * 256 + (bytes.getD (offset + 1) 0).toNat

/-- The sum of the words of a byte string; a last odd byte is the high half of a
word. -/
def sumWords : List UInt8 → Nat
  | [] => 0
  | [high] => high.toNat * 256
  | high :: low :: rest => high.toNat * 256 + low.toNat + sumWords rest

/-- Add the carries of a sum back until it has 16 bits. -/
def foldCarry : Nat → Nat → Nat
  | 0, sum => sum
  | fuel + 1, sum => if sum < 2 ^ 16 then sum else foldCarry fuel (sum % 2 ^ 16 + sum / 2 ^ 16)

lemma readBE16_lt (bytes : List UInt8) (offset : Nat) : readBE16 bytes offset < 2 ^ 16 := by
  have high := (bytes.getD offset 0).toNat_lt
  have low := (bytes.getD (offset + 1) 0).toNat_lt
  unfold readBE16
  omega

lemma encodeBE16_word (value : Nat) :
    (UInt8.ofNat (value / 256)).toNat * 256 + (UInt8.ofNat value).toNat = value % 2 ^ 16 := by
  simp only [UInt8.toNat_ofNat']
  omega

@[simp]
lemma length_encodeBE16 (value : Nat) : (encodeBE16 value).length = 2 :=
  rfl

lemma sumWords_encodeBE16 (value : Nat) : sumWords (encodeBE16 value) = value % 2 ^ 16 := by
  simp only [encodeBE16, sumWords, add_zero]
  exact encodeBE16_word value

lemma sumWords_append {first : List UInt8} (even : first.length % 2 = 0)
    (second : List UInt8) : sumWords (first ++ second) = sumWords first + sumWords second := by
  induction first using sumWords.induct with
  | case1 => simp [sumWords]
  | case2 high => simp at even
  | case3 high low rest ih =>
    simp only [List.length_cons] at even
    simp only [List.cons_append, sumWords, ih (by omega)]
    omega

lemma sumWords_le (bytes : List UInt8) : sumWords bytes ≤ 65535 * bytes.length := by
  induction bytes using sumWords.induct with
  | case1 => simp [sumWords]
  | case2 high =>
    have small := high.toNat_lt
    simp only [sumWords, List.length_singleton]
    omega
  | case3 high low rest ih =>
    have highSmall := high.toNat_lt
    have lowSmall := low.toNat_lt
    simp only [sumWords, List.length_cons]
    omega

lemma foldCarry_lt (fuel : Nat) {sum : Nat} (bounded : sum < 2 ^ 32) :
    foldCarry (fuel + 2) sum < 2 ^ 16 := by
  have settled : ∀ fuel sum, sum < 2 ^ 16 → foldCarry fuel sum < 2 ^ 16 := by
    intro fuel sum small
    cases fuel with
    | zero => exact small
    | succ fuel => simpa only [foldCarry, if_pos small] using small
  simp only [foldCarry]
  split
  · assumption
  split
  · assumption
  · exact settled _ _ (by omega)

lemma foldCarry_mod (fuel sum : Nat) : foldCarry fuel sum % 65535 = sum % 65535 := by
  induction fuel generalizing sum with
  | zero => rfl
  | succ fuel ih =>
    simp only [foldCarry]
    split
    · rfl
    · rw [ih]
      omega

lemma foldCarry_pos {sum : Nat} (fuel : Nat) (positive : 0 < sum) : 0 < foldCarry fuel sum := by
  induction fuel generalizing sum with
  | zero => exact positive
  | succ fuel ih =>
    simp only [foldCarry]
    split
    · exact positive
    · exact ih (by omega)

/-- Adding the complement of a folded sum to the sum gives all ones. -/
theorem foldCarry_add_complement {sum : Nat} (fuel : Nat) (positive : 0 < sum)
    (bounded : sum + 65535 < 2 ^ 32) :
    foldCarry (fuel + 2) (sum + (65535 - foldCarry (fuel + 2) sum)) = 65535 := by
  have small : foldCarry (fuel + 2) sum < 2 ^ 16 := foldCarry_lt fuel (by omega)
  have congruent := foldCarry_mod (fuel + 2) sum
  have total := foldCarry_mod (fuel + 2) (sum + (65535 - foldCarry (fuel + 2) sum))
  have totalSmall : foldCarry (fuel + 2) (sum + (65535 - foldCarry (fuel + 2) sum)) < 2 ^ 16 :=
    foldCarry_lt fuel (by omega)
  have totalPositive : 0 < foldCarry (fuel + 2) (sum + (65535 - foldCarry (fuel + 2) sum)) :=
    foldCarry_pos (fuel + 2) (by omega)
  generalize foldCarry (fuel + 2) (sum + (65535 - foldCarry (fuel + 2) sum)) = folded at *
  generalize foldCarry (fuel + 2) sum = once at *
  omega

end CupidOs.Bytes
