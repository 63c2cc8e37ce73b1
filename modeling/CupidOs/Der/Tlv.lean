import CupidOs.Bytes.Codec

/-!
# Distinguished encodings

The encoding of a value is its tag, its length and its contents. A length below 128 is one byte,
and a larger one is the number of its digits to the base 256 followed by these digits, the first
of which is not zero. So a byte string starts with at most one encoding.
-/

namespace CupidOs.Der

open Bytes List

/-- The digits of a number to the base 256, most significant first. -/
def digitsBE (value : Nat) : List UInt8 := ((Nat.digits 256 value).map UInt8.ofNat).reverse

lemma map_toNat_digits (value : Nat) :
    ((Nat.digits 256 value).map UInt8.ofNat).map UInt8.toNat = Nat.digits 256 value := by
  rw [map_map]
  conv_rhs => rw [← map_id (Nat.digits 256 value)]
  apply map_congr_left
  intro digit mem
  have small : digit < 256 := Nat.digits_lt_base (by decide) mem
  exact UInt8.toNat_ofNat_of_lt' small

lemma decodeBE_digitsBE (value : Nat) : decodeBE (digitsBE value) = value := by
  rw [decodeBE, digitsBE, reverse_reverse, decodeLE_eq_ofDigits, map_toNat_digits,
    Nat.ofDigits_digits]

/-- A byte string that does not start with a zero holds the digits of its number. -/
theorem digitsBE_decodeBE {first : UInt8} {rest : List UInt8} (nonzero : first ≠ 0) :
    digitsBE (decodeBE (first :: rest)) = first :: rest := by
  have below : ∀ digit ∈ (first :: rest).reverse.map UInt8.toNat, digit < 256 := by
    intro digit mem
    obtain ⟨byte, _, rfl⟩ := mem_map.mp mem
    exact byte.toNat_lt
  have topDigit : ∀ nonempty : (first :: rest).reverse.map UInt8.toNat ≠ [],
      ((first :: rest).reverse.map UInt8.toNat).getLast nonempty ≠ 0 := by
    intro nonempty
    have zero : first.toNat = 0 ↔ first = 0 := by rw [← UInt8.toNat_inj, UInt8.toNat_zero]
    simp [zero, nonzero]
  rw [digitsBE, decodeBE, decodeLE_eq_ofDigits,
    Nat.digits_ofDigits 256 (by decide) _ below topDigit, map_map]
  have inverse : UInt8.ofNat ∘ UInt8.toNat = id := funext fun byte => UInt8.ofNat_toNat
  rw [inverse, map_id, reverse_reverse]

lemma length_digitsBE_le {value count : Nat} (small : value < 256 ^ count) :
    (digitsBE value).length ≤ count := by
  rw [digitsBE, length_reverse, length_map]
  exact (Nat.digits_length_le_iff (by decide) value).mpr small

/-- The first digit of a number that has digits is not zero. -/
theorem headD_digitsBE {value : Nat} (positive : value ≠ 0) : (digitsBE value).headD 0 ≠ 0 := by
  have nonempty : Nat.digits 256 value ≠ [] := Nat.digits_ne_nil_iff_ne_zero.mpr positive
  have top : (Nat.digits 256 value).getLast nonempty ≠ 0 := Nat.getLast_digit_ne_zero 256 positive
  have small : (Nat.digits 256 value).getLast nonempty < 256 :=
    Nat.digits_lt_base (by decide) (getLast_mem nonempty)
  rw [digitsBE, headD_eq_head?_getD, head?_reverse, getLast?_map,
    getLast?_eq_some_getLast nonempty, Option.map_some, Option.getD_some, ne_eq,
    ← UInt8.toNat_inj, UInt8.toNat_ofNat_of_lt' small, UInt8.toNat_zero]
  exact top

/-- The one encoding of a length. -/
def encodeLength (length : Nat) : List UInt8 :=
  if length < 128 then [UInt8.ofNat length]
  else UInt8.ofNat (128 + (digitsBE length).length) :: digitsBE length

/-- The encoding of a value. -/
def encodeTlv (tag : UInt8) (body : List UInt8) : List UInt8 :=
  tag :: (encodeLength body.length ++ body)

/-- A byte string starts with the encoding of a value.  A length has at most 126 digits. -/
structure Begins (bytes : List UInt8) (tag : UInt8) (body rest : List UInt8) : Prop where
  encoded : bytes = encodeTlv tag body ++ rest
  small : body.length < 256 ^ 126

/-- A byte string is the sequence of the encodings of some values. -/
inductive Tlvs : List UInt8 → List (UInt8 × List UInt8) → Prop
  | nil : Tlvs [] []
  | cons {bytes rest body : List UInt8} {tag : UInt8} {items : List (UInt8 × List UInt8)}
      (begins : Begins bytes tag body rest) (later : Tlvs rest items) :
      Tlvs bytes ((tag, body) :: items)

lemma encodeLength_append_inj {first second : Nat} {left right : List UInt8}
    (firstSmall : first < 256 ^ 126) (secondSmall : second < 256 ^ 126)
    (same : encodeLength first ++ left = encodeLength second ++ right) :
    first = second ∧ left = right := by
  have firstFew := length_digitsBE_le firstSmall
  have secondFew := length_digitsBE_le secondSmall
  have toNat : ∀ {n : Nat}, n < 256 → (UInt8.ofNat n).toNat = n :=
    fun small => UInt8.toNat_ofNat_of_lt' small
  unfold encodeLength at same
  split at same <;> split at same
  · obtain ⟨head, tails⟩ := cons.inj same
    have value := congrArg UInt8.toNat head
    rw [toNat (by omega), toNat (by omega)] at value
    exact ⟨value, tails⟩
  · have value := congrArg UInt8.toNat (cons.inj same).1
    rw [toNat (by omega), toNat (by omega)] at value
    omega
  · have value := congrArg UInt8.toNat (cons.inj same).1
    rw [toNat (by omega), toNat (by omega)] at value
    omega
  · obtain ⟨head, tails⟩ := cons.inj same
    have value := congrArg UInt8.toNat head
    rw [toNat (by omega), toNat (by omega)] at value
    obtain ⟨digits, rests⟩ := append_inj tails (by omega)
    have decoded := congrArg decodeBE digits
    rw [decodeBE_digitsBE, decodeBE_digitsBE] at decoded
    exact ⟨decoded, rests⟩

lemma Begins.unique {bytes body rest body' rest' : List UInt8} {tag tag' : UInt8}
    (first : Begins bytes tag body rest) (second : Begins bytes tag' body' rest') :
    tag = tag' ∧ body = body' ∧ rest = rest' := by
  have same := first.encoded.symm.trans second.encoded
  rw [encodeTlv, encodeTlv, cons_append, cons_append, append_assoc, append_assoc] at same
  obtain ⟨tags, fields⟩ := cons.inj same
  obtain ⟨lengths, bodies⟩ := encodeLength_append_inj first.small second.small fields
  obtain ⟨bodyEq, restEq⟩ := append_inj bodies lengths
  exact ⟨tags, bodyEq, restEq⟩

lemma Tlvs.mem_of_begins {bytes body rest : List UInt8} {tag : UInt8}
    {items : List (UInt8 × List UInt8)} {item : UInt8 × List UInt8} (tlvs : Tlvs bytes items)
    (begins : Begins bytes tag body rest) (mem : item ∈ items) :
    item = (tag, body) ∨ ∃ later, Tlvs rest later ∧ item ∈ later := by
  cases tlvs with
  | nil => cases mem
  | cons other later =>
    obtain ⟨rfl, rfl, rfl⟩ := begins.unique other
    exact (mem_cons.mp mem).imp_right fun mem => ⟨_, later, mem⟩

lemma Tlvs.not_mem_of_nil {items : List (UInt8 × List UInt8)} {item : UInt8 × List UInt8}
    (tlvs : Tlvs [] items) : item ∉ items := by
  cases tlvs with
  | nil => exact not_mem_nil
  | cons begins _ => cases begins.encoded

end CupidOs.Der
