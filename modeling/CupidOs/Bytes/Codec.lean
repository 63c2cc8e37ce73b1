import Mathlib.Data.Nat.Digits.Lemmas
import Mathlib.Data.Vector.Defs

/-!
# Numbers in byte strings

A number of a fixed width is stored least significant byte first, or most
significant byte first in network order.  Encoding keeps the value modulo the
width; a field is read at an offset of a longer string.
-/

namespace CupidOs.Bytes

open List

/-- The `width` low bytes of `value`, least significant first. -/
def encodeLE : Nat → Nat → List UInt8
  | 0, _ => []
  | width + 1, value => UInt8.ofNat value :: encodeLE width (value / 256)

/-- The number that a byte string denotes. -/
def decodeLE : List UInt8 → Nat
  | [] => 0
  | byte :: bytes => byte.toNat + 256 * decodeLE bytes

/-- The number stored in `width` bytes at `offset`. -/
def readLE (width : Nat) (bytes : List UInt8) (offset : Nat) : Nat :=
  decodeLE ((bytes.drop offset).take width)

variable (width count : Nat) (bytes : List UInt8) (value : Nat)

@[simp]
lemma length_encodeLE : (encodeLE width value).length = width := by
  induction width generalizing value with
  | zero => rfl
  | succ width ih => simp [encodeLE, ih]

lemma decodeLE_eq_ofDigits : decodeLE bytes = Nat.ofDigits 256 (bytes.map UInt8.toNat) := by
  induction bytes with
  | nil => rfl
  | cons byte bytes ih => rw [decodeLE, ih, map_cons, Nat.ofDigits_cons]

lemma toNat_lt_of_mem : ∀ digit ∈ bytes.map UInt8.toNat, digit < 256 :=
  forall_mem_map.mpr fun byte _ => byte.toNat_lt

lemma decodeLE_lt : decodeLE bytes < 256 ^ bytes.length := by
  have bound := Nat.ofDigits_lt_base_pow_length (by decide) (toNat_lt_of_mem bytes)
  rwa [length_map, ← decodeLE_eq_ofDigits] at bound

lemma decodeLE_encodeLE : decodeLE (encodeLE width value) = value % 256 ^ width := by
  induction width generalizing value with
  | zero => simp [encodeLE, decodeLE, Nat.mod_one]
  | succ width ih =>
    have powerEq : 256 ^ (width + 1) = 256 * 256 ^ width := by ring
    simp only [encodeLE, decodeLE, ih, UInt8.toNat_ofNat']
    rw [powerEq, Nat.mod_mul]

lemma encodeLE_decodeLE : encodeLE bytes.length (decodeLE bytes) = bytes := by
  induction bytes with
  | nil => rfl
  | cons byte bytes ih =>
    have small := byte.toNat_lt
    have low : UInt8.ofNat (byte.toNat + 256 * decodeLE bytes) = byte := by
      apply UInt8.toNat_inj.mp
      rw [UInt8.toNat_ofNat']
      omega
    have high : (byte.toNat + 256 * decodeLE bytes) / 256 = decodeLE bytes := by omega
    rw [length_cons, decodeLE, encodeLE, low, high, ih]

lemma drop_append_length {bytes chunk rest : List UInt8} {offset : Nat}
    (atOffset : bytes.drop offset = chunk ++ rest) :
    bytes.drop (offset + chunk.length) = rest := by
  rw [← drop_drop, atOffset, drop_left]

lemma readLE_of_drop {width value : Nat} {bytes rest : List UInt8} {offset : Nat}
    (atOffset : bytes.drop offset = encodeLE width value ++ rest) :
    readLE width bytes offset = value % 256 ^ width := by
  rw [readLE, atOffset, take_append_of_le_length (by simp), take_of_length_le (by simp),
    decodeLE_encodeLE]

lemma encodeLE_append (lowWidth highWidth : Nat) {low : Nat} (high : Nat)
    (fits : low < 256 ^ lowWidth) :
    encodeLE (lowWidth + highWidth) (low + 256 ^ lowWidth * high) =
      encodeLE lowWidth low ++ encodeLE highWidth high := by
  induction lowWidth generalizing low with
  | zero =>
    have lowEq : low = 0 := by omega
    simp [lowEq, encodeLE]
  | succ width ih =>
    have powerEq : 256 ^ (width + 1) = 256 * 256 ^ width := by ring
    rw [powerEq] at fits
    have byteEq : UInt8.ofNat (low + 256 * (256 ^ width * high)) = UInt8.ofNat low :=
      UInt8.toNat_inj.mp (by simp only [UInt8.toNat_ofNat']; omega)
    have shiftEq : (low + 256 * (256 ^ width * high)) / 256 =
        low / 256 + 256 ^ width * high := by omega
    rw [Nat.succ_add, powerEq, mul_assoc, encodeLE, encodeLE, cons_append, byteEq,
      shiftEq, ih (by omega)]

lemma decodeLE_append (first second : List UInt8) :
    decodeLE (first ++ second) = decodeLE first + 256 ^ first.length * decodeLE second := by
  simp [decodeLE_eq_ofDigits, Nat.ofDigits_append]

@[simp]
lemma decodeLE_replicate_zero : decodeLE (replicate count 0) = 0 := by
  simp [decodeLE_eq_ofDigits, Nat.ofDigits_replicate_zero]

lemma decodeLE_take : decodeLE (bytes.take count) = decodeLE bytes % 256 ^ count := by
  rw [decodeLE_eq_ofDigits, decodeLE_eq_ofDigits, map_take,
    Nat.ofDigits_mod_pow_eq_ofDigits_take _ (by decide) _ (toNat_lt_of_mem bytes)]

lemma decodeLE_drop : decodeLE (bytes.drop count) = decodeLE bytes / 256 ^ count := by
  rw [decodeLE_eq_ofDigits, decodeLE_eq_ofDigits, map_drop,
    Nat.ofDigits_div_pow_eq_ofDigits_drop _ (by decide) _ (toNat_lt_of_mem bytes)]

/-- A field is the digits of the whole number at its place. -/
theorem readLE_eq (offset : Nat) :
    readLE width bytes offset = decodeLE bytes / 256 ^ offset % 256 ^ width := by
  rw [readLE, decodeLE_take, decodeLE_drop]

/-- The `width` low bytes of `value`, most significant first. -/
def encodeBE (width value : Nat) : List UInt8 := (encodeLE width value).reverse

/-- The number that a byte string denotes in network order. -/
def decodeBE (bytes : List UInt8) : Nat := decodeLE bytes.reverse

@[simp]
lemma length_encodeBE : (encodeBE width value).length = width := by
  simp [encodeBE]

lemma decodeBE_encodeBE : decodeBE (encodeBE width value) = value % 256 ^ width := by
  rw [decodeBE, encodeBE, reverse_reverse, decodeLE_encodeLE]

lemma decodeBE_lt : decodeBE bytes < 256 ^ bytes.length := by
  have bound := decodeLE_lt bytes.reverse
  rwa [length_reverse] at bound

lemma encodeBE_decodeBE : encodeBE bytes.length (decodeBE bytes) = bytes := by
  rw [encodeBE, decodeBE, ← length_reverse, encodeLE_decodeLE, reverse_reverse]

lemma decodeBE_append (first second : List UInt8) :
    decodeBE (first ++ second) = decodeBE first * 256 ^ second.length + decodeBE second := by
  rw [decodeBE, reverse_append, decodeLE_append, length_reverse, mul_comm, add_comm]
  rfl

lemma decodeBE_replicate_zero : decodeBE (replicate count 0) = 0 := by
  rw [decodeBE, reverse_replicate, decodeLE_replicate_zero]

lemma decodeBE_eq_zero_iff : decodeBE bytes = 0 ↔ ∀ byte ∈ bytes, byte = 0 := by
  have little : ∀ rest : List UInt8, decodeLE rest = 0 ↔ ∀ byte ∈ rest, byte = 0 := by
    intro rest
    induction rest with
    | nil => simp [decodeLE]
    | cons byte rest ih =>
      have zero : byte.toNat = 0 ↔ byte = 0 := by rw [← UInt8.toNat_inj, UInt8.toNat_zero]
      simp [decodeLE, ih, zero]
  rw [decodeBE, little]
  simp

lemma encodeBE_inj {width first second : Nat} (firstFits : first < 256 ^ width)
    (secondFits : second < 256 ^ width) (same : encodeBE width first = encodeBE width second) :
    first = second := by
  have decoded := congrArg decodeBE same
  rwa [decodeBE_encodeBE, decodeBE_encodeBE, Nat.mod_eq_of_lt firstFits,
    Nat.mod_eq_of_lt secondFits] at decoded

end CupidOs.Bytes
