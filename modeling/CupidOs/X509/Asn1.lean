import CupidOs.Der.Tlv

/-!
# The DER reader

`kernel/crypto/asn1.c`.  A cursor is the list of bytes that it has not read yet.  The
reader accepts the distinguished encodings of values of up to `0xFFFFFF` bytes and
nothing else.
-/

namespace CupidOs.X509

open Bytes Der List Option

/-- `ASN1_TAG_INTEGER`. -/
def asn1TagInteger : UInt8 := 0x02

/-- `ASN1_TAG_SEQUENCE`. -/
def asn1TagSequence : UInt8 := 0x30

/-- `read_len`: the length and the bytes behind the length field. -/
def readLen : List UInt8 → Option (Nat × List UInt8)
  | [] => none
  | first :: rest =>
    if first &&& 0x80 = 0 then
      some (first.toNat, rest)
    else
      let n := (first &&& 0x7F).toNat
      if n = 0 then none
      else if n > 4 then none
      else if (first :: rest).length < n + 1 then none
      else if rest.headD 0 = 0 then none
      else
        let len := decodeBE (rest.take n)
        if len > 0xFFFFFF then none
        else if len < 0x80 then none
        else some (len, rest.drop n)

/-- `asn1_read_any`: tag, body and the cursor behind the body. -/
def asn1ReadAny : List UInt8 → Option (UInt8 × List UInt8 × List UInt8)
  | [] => none
  | tag :: p =>
    match readLen p with
    | none => none
    | some (len, p) => if p.length < len then none else some (tag, p.take len, p.drop len)

/-- `asn1_read_tlv` and `asn1_open`: the body and the cursor behind it. -/
def asn1ReadTlv (expectedTag : UInt8) (cursor : List UInt8) : Option (List UInt8 × List UInt8) :=
  match asn1ReadAny cursor with
  | none => none
  | some (tag, body, cursor) => if tag ≠ expectedTag then none else some (body, cursor)

/-- `asn1_read_uint`: the digits of the number and the cursor behind it. -/
def asn1ReadUint (cursor : List UInt8) : Option (List UInt8 × List UInt8) :=
  match asn1ReadTlv asn1TagInteger cursor with
  | none => none
  | some ([], _) => none
  | some (first :: body, cursor) =>
    if first &&& 0x80 ≠ 0 then none
    else if first = 0 ∧ body ≠ [] then
      if body.headD 0 &&& 0x80 ≠ 0 then some (body, cursor) else none
    else
      some (first :: body, cursor)

/-- The two numbers of an ECDSA signature; what follows them is not looked at. -/
def readEcdsaSig (sig : List UInt8) : Option (List UInt8 × List UInt8) := do
  let (seq, _) ← asn1ReadTlv asn1TagSequence sig
  let (r, seq) ← asn1ReadUint seq
  let (s, _) ← asn1ReadUint seq
  return (r, s)

/-! ## What is read -/

lemma and_0x80_eq_zero_iff (byte : UInt8) : byte &&& 0x80 = 0 ↔ byte.toNat < 128 := by
  have all : ∀ n : Fin 256, UInt8.ofNat n &&& 0x80 = 0 ↔ n.val < 128 := by decide +kernel
  have this := all ⟨byte.toNat, byte.toNat_lt⟩
  rwa [UInt8.ofNat_toNat] at this

lemma toNat_and_0x7F (byte : UInt8) : (byte &&& 0x7F).toNat = byte.toNat % 128 := by
  rw [UInt8.toNat_and]
  exact Nat.and_two_pow_sub_one_eq_mod byte.toNat 7

lemma toNat_ofNat_of_lt {value : Nat} (small : value < 256) : (UInt8.ofNat value).toNat = value :=
  UInt8.toNat_ofNat_of_lt' small

variable {first : UInt8}

lemma readLen_short (short : first.toNat < 128) (rest : List UInt8) :
    readLen (first :: rest) = some (first.toNat, rest) := by
  rw [readLen, if_pos ((and_0x80_eq_zero_iff first).mpr short)]

lemma readLen_truncated {tail : List UInt8} (long : ¬ first.toNat < 128)
    (truncated : tail.length < first.toNat - 128) : readLen (first :: tail) = none := by
  have bound := first.toNat_lt
  have number : (first &&& 0x7F).toNat = first.toNat - 128 := by
    rw [toNat_and_0x7F]
    omega
  have missing : (first :: tail).length < first.toNat - 128 + 1 := by
    rw [length_cons]
    omega
  simp only [readLen, if_neg (mt (and_0x80_eq_zero_iff first).mp long), number, if_pos missing,
    ite_self]

lemma readLen_long {digits : List UInt8}
    (count : first.toNat = 128 + digits.length) (rest : List UInt8) :
    readLen (first :: (digits ++ rest)) =
      if digits.length = 0 ∨ 4 < digits.length ∨ digits.headD 0 = 0 ∨
          0xFFFFFF < decodeBE digits ∨ decodeBE digits < 128 then none
      else some (decodeBE digits, rest) := by
  have long : ¬ first &&& 0x80 = 0 := by
    rw [and_0x80_eq_zero_iff]
    omega
  have bound := first.toNat_lt
  have number : (first &&& 0x7F).toNat = digits.length := by
    rw [toNat_and_0x7F]
    omega
  have enough : ¬ (first :: (digits ++ rest)).length < digits.length + 1 := by simp
  simp only [readLen, if_neg long, number, if_neg enough, take_left, drop_left]
  cases digits with
  | nil => simp
  | cons digit digits =>
    simp only [cons_append, headD_cons]
    split_ifs <;> grind

lemma readLen_eq_some_iff {bytes rest : List UInt8} {len : Nat} :
    readLen bytes = some (len, rest) ↔ bytes = encodeLength len ++ rest ∧ len ≤ 0xFFFFFF := by
  constructor
  · intro read
    cases bytes with
    | nil => cases read
    | cons first tail =>
      by_cases short : first.toNat < 128
      · rw [readLen_short short] at read
        obtain ⟨rfl, rfl⟩ := Prod.mk.inj (some.inj read)
        rw [encodeLength, if_pos short, UInt8.ofNat_toNat]
        exact ⟨rfl, by omega⟩
      · by_cases enough : first.toNat - 128 ≤ tail.length
        · have count : first.toNat = 128 + (tail.take (first.toNat - 128)).length := by
            rw [length_take]
            omega
          have long := readLen_long count (tail.drop (first.toNat - 128))
          rw [take_append_drop, read] at long
          split_ifs at long with refused
          obtain ⟨lenEq, restEq⟩ := Prod.mk.inj (some.inj long)
          have digits : digitsBE len = tail.take (first.toNat - 128) := by
            cases taken : tail.take (first.toNat - 128) with
            | nil => simp [taken] at refused
            | cons digit digits =>
              have nonzero : digit ≠ 0 := by
                intro zero
                simp [taken, zero] at refused
              rw [lenEq, taken, digitsBE_decodeBE nonzero]
          have notShort : ¬ len < 128 := by omega
          rw [encodeLength, if_neg notShort, digits, ← count, UInt8.ofNat_toNat, restEq,
            cons_append, take_append_drop]
          exact ⟨rfl, by omega⟩
        · rw [readLen_truncated short (by omega)] at read
          cases read
  · intro encoded
    obtain ⟨bytesEq, small⟩ := encoded
    subst bytesEq
    by_cases short : len < 128
    · have byte : (UInt8.ofNat len).toNat = len := toNat_ofNat_of_lt (by omega)
      rw [encodeLength, if_pos short, singleton_append, readLen_short (by omega), byte]
    have few : (digitsBE len).length ≤ 3 := length_digitsBE_le (by omega)
    have count : (UInt8.ofNat (128 + (digitsBE len).length)).toNat =
        128 + (digitsBE len).length := toNat_ofNat_of_lt (by omega)
    have positive : len ≠ 0 := by omega
    have head := headD_digitsBE positive
    have some : (digitsBE len).length ≠ 0 := by
      intro none
      rw [length_eq_zero_iff.mp none] at head
      exact head rfl
    rw [encodeLength, if_neg short, cons_append, readLen_long count, decodeBE_digitsBE, if_neg]
    rintro (none | many | zero | large | little)
    · exact some none
    · omega
    · exact head zero
    · omega
    · omega

lemma asn1ReadAny_eq_some_iff {bytes body rest : List UInt8} {tag : UInt8} :
    asn1ReadAny bytes = some (tag, body, rest) ↔
      bytes = encodeTlv tag body ++ rest ∧ body.length ≤ 0xFFFFFF := by
  constructor
  · intro read
    cases bytes with
    | nil => cases read
    | cons first p =>
      rw [asn1ReadAny] at read
      split at read
      · cases read
      rename_i len tail lenEq
      obtain ⟨pEq, small⟩ := readLen_eq_some_iff.mp lenEq
      split_ifs at read with truncated
      obtain ⟨rfl, pair⟩ := Prod.mk.inj (some.inj read)
      obtain ⟨rfl, rfl⟩ := Prod.mk.inj pair
      have length : (tail.take len).length = len := by
        rw [length_take]
        omega
      rw [encodeTlv, length, pEq, cons_append, append_assoc, take_append_drop]
      exact ⟨rfl, small⟩
  · intro encoded
    obtain ⟨bytesEq, small⟩ := encoded
    have lenEq : readLen (encodeLength body.length ++ (body ++ rest)) =
        some (body.length, body ++ rest) := readLen_eq_some_iff.mpr ⟨rfl, small⟩
    have enough : ¬ (body ++ rest).length < body.length := by simp
    rw [bytesEq, encodeTlv, cons_append, append_assoc, asn1ReadAny, lenEq]
    simp only [if_neg enough, take_left, drop_left]

end CupidOs.X509
