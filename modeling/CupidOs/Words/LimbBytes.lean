import CupidOs.Words.Bits

/-!
# Word arrays and byte strings

Numbers arrive and leave as byte strings, most significant byte first. An array of 32-bit words is
filled by setting the bits of one byte after the other, and written out by shifting. Byte `p` from
the end is in word `p / 4`, at bit `8 * (p % 4)`.
-/

namespace CupidOs.Words

open Bytes List

variable {w n : Nat}

namespace Limbs

variable (a : Limbs w n)

/-- Set the bits of `x` in the word at an index. -/
def orAt (i : Nat) (x : BitVec w) : Limbs w n :=
  ⟨a.words.modify i (· ||| x), by simp⟩

/-- Replace the word at an index. -/
def setAt (i : Nat) (x : BitVec w) : Limbs w n := ⟨a.words.set i x, by simp⟩

lemma get_orAt {i : Nat} (inside : i < n) (x : BitVec w) (k : Nat) :
    (a.orAt i x).get k = if k = i then a.get k ||| x else a.get k := by
  rw [get, orAt, get, getD_eq_getElem?_getD, getD_eq_getElem?_getD, getElem?_modify]
  by_cases same : k = i
  · subst same
    have present : k < a.words.length := by simpa using inside
    simp [getElem?_eq_getElem present]
  · simp [same, Ne.symm same]

lemma setAt_eq_orAt {a : Limbs w n} {i : Nat} (clear : a.get i = 0) (x : BitVec w) :
    a.setAt i x = a.orAt i x := by
  apply Limbs.ext
  apply ext_getElem?
  intro k
  rw [setAt, orAt, getElem?_set, getElem?_modify]
  by_cases here : i = k
  · subst here
    by_cases inside : i < n
    · have present : i < a.words.length := by simpa using inside
      rw [get, getD_eq_getElem?_getD, getElem?_eq_getElem present, Option.getD_some] at clear
      simp [inside, clear]
    · simp [inside]
  · simp [here]

/-- Setting bits of a word sets the same bits of the number. -/
theorem value_orAt [NeZero w] {i : Nat} (inside : i < n) (x : BitVec w) :
    (a.orAt i x).value = a.value ||| x.toNat * 2 ^ (w * i) := by
  have fits : x.toNat * 2 ^ (w * i) < 2 ^ (w * n) :=
    calc x.toNat * 2 ^ (w * i) < 2 ^ w * 2 ^ (w * i) :=
          Nat.mul_lt_mul_of_pos_right x.isLt (Nat.two_pow_pos _)
      _ = 2 ^ (w * (i + 1)) := by
          rw [← pow_add, Nat.mul_succ, add_comm]
      _ ≤ 2 ^ (w * n) := Nat.pow_le_pow_right (by decide) (Nat.mul_le_mul_left w inside)
  refine value_eq_of_testBit (Nat.or_lt_two_pow a.value_lt fits) fun k _ j small => ?_
  rw [get_orAt a inside, Nat.testBit_or, ← getLsbD_get a small, Nat.testBit_mul_two_pow]
  by_cases same : k = i
  · subst same
    simp [BitVec.getLsbD]
  rw [if_neg same]
  rcases Nat.lt_or_gt_of_ne same with below | above
  · have before : ¬ w * i ≤ w * k + j := by
      have := Nat.mul_le_mul_left w below
      rw [Nat.mul_succ] at this
      omega
    simp [before]
  · have beyond : w ≤ w * k + j - w * i := by
      have := Nat.mul_le_mul_left w above
      rw [Nat.mul_succ] at this
      omega
    have clear : x.toNat.testBit (w * k + j - w * i) = false :=
      Nat.testBit_lt_two_pow (x.isLt.trans_le (Nat.pow_le_pow_right (by decide) beyond))
    simp [clear]

/-- Bits set above all those of the number are added to it. -/
theorem value_orAt_of_lt [NeZero w] {i k y : Nat} (inside : i < n) {x : BitVec w}
    (below : a.value < 2 ^ (w * i + k)) (above : x.toNat = 2 ^ k * y) :
    (a.orAt i x).value = a.value + x.toNat * 2 ^ (w * i) := by
  have shifted : x.toNat * 2 ^ (w * i) = 2 ^ (w * i + k) * y := by
    rw [above, pow_add]
    ring
  rw [value_orAt a inside, shifted, Nat.or_comm, add_comm a.value,
    Nat.two_pow_add_eq_or_of_lt below]

/-- Set the bits of one byte after the other, the last byte at the low end of the array. -/
def storeBE : Limbs 32 n → List UInt8 → Limbs 32 n
  | a, [] => a
  | a, byte :: rest =>
    storeBE (a.orAt (rest.length >>> 2)
      (byte.toBitVec.setWidth 32 <<< ((rest.length &&& 3) * 8))) rest

lemma place_eq (p : Nat) : 2 ^ ((p &&& 3) * 8) * 2 ^ (32 * (p >>> 2)) = 256 ^ p := by
  have low : p &&& 3 = p % 4 := Nat.and_two_pow_sub_one_eq_mod p 2
  have high : p >>> 2 = p / 4 := Nat.shiftRight_eq_div_pow p 2
  have base : (256 : Nat) = 2 ^ 8 := rfl
  rw [low, high, base, ← pow_mul, ← pow_add]
  congr 1
  omega

lemma toNat_shifted_byte (byte : UInt8) (p : Nat) :
    (byte.toBitVec.setWidth 32 <<< ((p &&& 3) * 8)).toNat = byte.toNat * 2 ^ ((p &&& 3) * 8) := by
  have byteSmall := byte.toNat_lt
  have low : p &&& 3 ≤ 3 := Nat.and_le_right
  have power : 2 ^ ((p &&& 3) * 8) ≤ 2 ^ 24 := Nat.pow_le_pow_right (by decide) (by omega)
  have product := Nat.mul_le_mul (Nat.le_of_lt_succ byteSmall) power
  rw [BitVec.toNat_shiftLeft, BitVec.toNat_setWidth, Nat.shiftLeft_eq]
  simp only [UInt8.toNat_toBitVec]
  rw [Nat.mod_eq_of_lt (by omega : byte.toNat < 2 ^ 32), Nat.mod_eq_of_lt (by omega)]

variable {bytes : List UInt8}

/-- Storing a byte string adds its number, provided that the low end of the array is clear. -/
theorem value_storeBE {a : Limbs 32 n} (fits : bytes.length ≤ 4 * n)
    (clear : 256 ^ bytes.length ∣ a.value) :
    (a.storeBE bytes).value = a.value + decodeBE bytes := by
  induction bytes generalizing a with
  | nil => rfl
  | cons byte rest ih =>
    rw [length_cons] at fits clear
    obtain ⟨high, highEq⟩ := clear
    have inside : rest.length >>> 2 < n := by
      rw [Nat.shiftRight_eq_div_pow]
      omega
    have stored : (a.orAt (rest.length >>> 2)
        (byte.toBitVec.setWidth 32 <<< ((rest.length &&& 3) * 8))).value =
        a.value + byte.toNat * 256 ^ rest.length := by
      have eightBits : 256 ^ (rest.length + 1) = 2 ^ (8 * (rest.length + 1)) :=
        (pow_mul 2 8 _).symm
      have small : byte.toNat * 256 ^ rest.length < 2 ^ (8 * (rest.length + 1)) := by
        rw [← eightBits, Nat.pow_succ']
        exact Nat.mul_lt_mul_of_pos_right byte.toNat_lt (Nat.pow_pos (by decide))
      rw [value_orAt a inside, toNat_shifted_byte, mul_assoc, place_eq, highEq, eightBits,
        Nat.two_pow_add_eq_or_of_lt small]
    have nextClear : 256 ^ rest.length ∣ a.value + byte.toNat * 256 ^ rest.length := by
      rw [highEq, pow_succ, mul_assoc]
      exact Nat.dvd_add (Nat.dvd_mul_right _ _) (Nat.dvd_mul_left _ _)
    rw [storeBE, ih (by omega) (stored ▸ nextClear), stored, decodeBE_cons]
    ring

lemma value_storeBE_zero (fits : bytes.length ≤ 4 * n) :
    ((zero : Limbs 32 n).storeBE bytes).value = decodeBE bytes := by
  rw [value_storeBE fits (by simp), value_zero, zero_add]

/-- The `length` low bytes of an array, most significant first; zeros beyond the array. -/
def loadBE (length : Nat) (a : Limbs 32 n) : List UInt8 :=
  (range length).map fun i =>
    let p := length - 1 - i
    ⟨(a.get (p >>> 2) >>> ((p &&& 3) * 8)).setWidth 8⟩

lemma encodeLE_eq_map (width value : Nat) :
    encodeLE width value = (range width).map fun i => UInt8.ofNat (value / 256 ^ i) := by
  induction width generalizing value with
  | zero => rfl
  | succ width ih =>
    rw [encodeLE, ih, range_succ_eq_map, map_cons, map_map]
    simp [Function.comp_def, Nat.pow_succ', Nat.div_div_eq_div_mul]

lemma encodeBE_eq_map (width value : Nat) : encodeBE width value =
      (range width).map fun i => UInt8.ofNat (value / 256 ^ (width - 1 - i)) := by
  rw [encodeBE, encodeLE_eq_map]
  apply ext_getElem
  · simp
  · intro i first second
    simp

/-- A byte shifted out of its word is the byte of the number. -/
theorem byte_get (a : Limbs 32 n) (p : Nat) :
    (⟨(a.get (p >>> 2) >>> ((p &&& 3) * 8)).setWidth 8⟩ : UInt8) =
      UInt8.ofNat (a.value / 256 ^ p) := by
  have low : p &&& 3 = p % 4 := Nat.and_two_pow_sub_one_eq_mod p 2
  have high : p >>> 2 = p / 4 := Nat.shiftRight_eq_div_pow p 2
  have base : 256 ^ p = 2 ^ (8 * p) := (pow_mul 2 8 p).symm
  apply UInt8.toBitVec_inj.mp
  apply BitVec.eq_of_getLsbD_eq
  intro j small
  have inWord : p % 4 * 8 + j < 32 := by omega
  have place : 32 * (p / 4) + (p % 4 * 8 + j) = j + 8 * p := by omega
  rw [UInt8.toBitVec_ofNat', BitVec.getLsbD_setWidth, BitVec.getLsbD_ushiftRight, low, high,
    getLsbD_get a inWord, place, BitVec.getLsbD_ofNat, base, Nat.testBit_div_two_pow]

lemma loadBE_eq (length : Nat) (a : Limbs 32 n) : a.loadBE length = encodeBE length a.value := by
  rw [loadBE, encodeBE_eq_map]
  exact map_congr_left fun i _ => byte_get a _

/-- The word in four bytes, most significant first. -/
def wordBE (bytes : List UInt8) (offset : Nat) : BitVec 32 :=
  ((bytes.getD offset 0).toBitVec.setWidth 32 <<< 24) |||
    ((bytes.getD (offset + 1) 0).toBitVec.setWidth 32 <<< 16) |||
    ((bytes.getD (offset + 2) 0).toBitVec.setWidth 32 <<< 8) |||
    (bytes.getD (offset + 3) 0).toBitVec.setWidth 32

lemma decodeLE_eq_valueOf (bytes : List UInt8) :
    decodeLE bytes = valueOf (bytes.map UInt8.toBitVec) := by
  induction bytes with
  | nil => rfl
  | cons byte bytes ih => simp [decodeLE, valueOf, ih]

/-- A bit of a number in network order is a bit of one of its bytes. -/
theorem testBit_decodeBE {p j : Nat} (inside : p < bytes.length)
    (small : j < 8) :
    (decodeBE bytes).testBit (8 * p + j) =
      (bytes.getD (bytes.length - 1 - p) 0).toBitVec.getLsbD j := by
  have quotient : (8 * p + j) / 8 = p := by omega
  have remainder : (8 * p + j) % 8 = j := by omega
  rw [decodeBE, decodeLE_eq_valueOf, testBit_valueOf, quotient, remainder]
  congr 1
  have mapped : p < (bytes.reverse.map UInt8.toBitVec).length := by simpa using inside
  have place : bytes.length - 1 - p < bytes.length := by omega
  rw [getD_eq_getElem?_getD, getElem?_eq_getElem mapped, getD_eq_getElem?_getD,
    getElem?_eq_getElem place]
  simp

/-- A byte shifted to its place in a word supplies the bits there and no others. -/
theorem getLsbD_byte_at (byte : UInt8) {s q j : Nat} (inWord : q < 4) (small : j < 8) :
    (byte.toBitVec.setWidth 32 <<< (8 * s)).getLsbD (8 * q + j) =
      (decide (q = s) && byte.toBitVec.getLsbD j) := by
  rw [BitVec.getLsbD_shiftLeft, BitVec.getLsbD_setWidth]
  have inside : 8 * q + j < 32 := by omega
  rcases Nat.lt_trichotomy q s with before | same | behind
  · have low : 8 * q + j < 8 * s := by omega
    simp [low, Nat.ne_of_lt before]
  · subst same
    have place : 8 * q + j - 8 * q = j := by omega
    have short : j < 32 := by omega
    simp [inside, place, short]
  · have clear : byte.toBitVec.getLsbD (8 * q + j - 8 * s) = false :=
      BitVec.getLsbD_of_ge _ _ (by omega)
    simp [clear, Nat.ne_of_gt behind]

lemma getLsbD_wordBE (bytes : List UInt8) (offset : Nat) {q j : Nat} (inWord : q < 4)
    (small : j < 8) :
    (wordBE bytes offset).getLsbD (8 * q + j) =
      (bytes.getD (offset + (3 - q)) 0).toBitVec.getLsbD j := by
  have lowest : (bytes.getD (offset + 3) 0).toBitVec.setWidth 32 =
      (bytes.getD (offset + 3) 0).toBitVec.setWidth 32 <<< (8 * 0) := by simp
  rw [wordBE, lowest, BitVec.getLsbD_or, BitVec.getLsbD_or, BitVec.getLsbD_or,
    getLsbD_byte_at (s := 3) _ inWord small, getLsbD_byte_at (s := 2) _ inWord small,
    getLsbD_byte_at (s := 1) _ inWord small, getLsbD_byte_at (s := 0) _ inWord small]
  rcases (by omega : q = 0 ∨ q = 1 ∨ q = 2 ∨ q = 3) with rfl | rfl | rfl | rfl <;> simp

/-- The array of the words at the offsets `(n - 1 - i) * 4`. -/
def loadWordsBE (bytes : List UInt8) : Limbs 32 n :=
  ofFn fun i => wordBE bytes ((n - 1 - i) * 4)

lemma value_loadWordsBE (length : bytes.length = 4 * n) :
    (loadWordsBE bytes : Limbs 32 n).value = decodeBE bytes := by
  have fits : decodeBE bytes < 2 ^ (32 * n) := by
    have bound := decodeBE_lt bytes
    have power : 256 ^ (4 * n) = 2 ^ (32 * n) :=
      calc 256 ^ (4 * n) = 2 ^ (8 * (4 * n)) := (pow_mul 2 8 _).symm
        _ = 2 ^ (32 * n) := by
            congr 1
            omega
    rwa [length, power] at bound
  refine value_eq_of_testBit fits fun i inside j small => ?_
  have inWord : j = 8 * (j / 8) + j % 8 := by omega
  have inNumber : 32 * i + j = 8 * (4 * i + j / 8) + j % 8 := by omega
  have place : bytes.length - 1 - (4 * i + j / 8) = (n - 1 - i) * 4 + (3 - j / 8) := by omega
  rw [loadWordsBE, get_ofFn, if_pos inside, inNumber, testBit_decodeBE (by omega) (by omega), place,
    ← getLsbD_wordBE bytes _ (by omega) (by omega), ← inWord]

/-- The bytes of each word, from the top word down. -/
def storeWordsBE (a : Limbs 32 n) : List UInt8 :=
  a.words.reverse.flatMap fun word : BitVec 32 =>
    [⟨(word >>> 24).setWidth 8⟩, ⟨(word >>> 16).setWidth 8⟩, ⟨(word >>> 8).setWidth 8⟩,
      ⟨word.setWidth 8⟩]

lemma ofNat_div (word : BitVec 32) (k : Nat) :
    UInt8.ofNat (word.toNat / 2 ^ k) = ⟨(word >>> k).setWidth 8⟩ := by
  apply UInt8.toBitVec_inj.mp
  apply BitVec.eq_of_toNat_eq
  rw [UInt8.toBitVec_ofNat', BitVec.toNat_ofNat, BitVec.toNat_setWidth, BitVec.toNat_ushiftRight,
    Nat.shiftRight_eq_div_pow]

lemma ofNat_toNat (word : BitVec 32) : UInt8.ofNat word.toNat = ⟨word.setWidth 8⟩ := by
  simpa using ofNat_div word 0

lemma encodeLE_valueOf (words : List (BitVec 32)) :
    encodeLE (4 * words.length) (valueOf words) = words.flatMap fun word : BitVec 32 =>
      [⟨word.setWidth 8⟩, ⟨(word >>> 8).setWidth 8⟩, ⟨(word >>> 16).setWidth 8⟩,
        ⟨(word >>> 24).setWidth 8⟩] := by
  induction words with
  | nil => rfl
  | cons word words ih =>
    have lengths : 4 * (word :: words).length = 4 + 4 * words.length := by
      rw [length_cons]
      omega
    have four : encodeLE 4 word.toNat = [⟨word.setWidth 8⟩, ⟨(word >>> 8).setWidth 8⟩,
        ⟨(word >>> 16).setWidth 8⟩, ⟨(word >>> 24).setWidth 8⟩] := by
      simp only [encodeLE, Nat.div_div_eq_div_mul, ← ofNat_div, ofNat_toNat]
      rfl
    have base : (2 : Nat) ^ 32 = 256 ^ 4 := by norm_num
    have small := word.isLt
    rw [base] at small
    rw [lengths, valueOf, base, encodeLE_append 4 _ _ small, ih, four, flatMap_cons]

lemma storeWordsBE_eq (a : Limbs 32 n) : a.storeWordsBE = encodeBE (4 * n) a.value := by
  have forward := encodeLE_valueOf a.words
  rw [a.size] at forward
  rw [storeWordsBE, encodeBE, value, forward, reverse_flatMap]
  rfl

end Limbs

end CupidOs.Words
