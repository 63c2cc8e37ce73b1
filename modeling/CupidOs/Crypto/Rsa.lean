import CupidOs.Crypto.BigInt
import CupidOs.Crypto.ConstantTime

/-!
# RSA signatures with PKCS#1 v1.5 padding

`kernel/crypto/rsa.c` raises a signature to the public exponent and compares the result with the
one encoding of the hash that the padding allows. The message is parsed in a buffer on the stack
that the recovered bytes need not fill; what it held before is a parameter.
-/

namespace CupidOs.Crypto

open Bytes Words
open List hiding Vector

/-- `rsa_recover_em`: the bytes of `sig ^ e mod n`. -/
def rsaRecoverEm (n e sig : List UInt8) : Option (List UInt8) := do
  if sig.length ≠ n.length then none
  let mod ← bnFromBe n
  let base ← bnFromBe sig
  if bnCmp base mod ≠ .lt then none
  some (bnToBe n.length (bnModexp base e mod))

/-- `SHA256_DIGEST_INFO` -/
def sha256DigestInfo : List UInt8 :=
  [0x30, 0x31, 0x30, 0x0d, 0x06, 0x09, 0x60, 0x86, 0x48, 0x01, 0x65, 0x03, 0x04, 0x02, 0x01, 0x05,
    0x00, 0x04, 0x20]

/-- `SHA384_DIGEST_INFO` -/
def sha384DigestInfo : List UInt8 :=
  [0x30, 0x41, 0x30, 0x0d, 0x06, 0x09, 0x60, 0x86, 0x48, 0x01, 0x65, 0x03, 0x04, 0x02, 0x02, 0x05,
    0x00, 0x04, 0x30]

/-- `SHA512_DIGEST_INFO` -/
def sha512DigestInfo : List UInt8 :=
  [0x30, 0x51, 0x30, 0x0d, 0x06, 0x09, 0x60, 0x86, 0x48, 0x01, 0x65, 0x03, 0x04, 0x02, 0x03, 0x05,
    0x00, 0x04, 0x40]

/-- The index at which the loop over the padding bytes `0xFF` stops. -/
def paddingEnd (em : List UInt8) (nLen : Nat) : Nat :=
  2 + (((em.take nLen).drop 2).takeWhile (· == 0xFF)).length

/-- The parser of `rsa_pkcs1v15_verify_generic`, on a buffer that starts with the encoded message.
-/
def pkcs1v15Accepts (em : List UInt8) (nLen : Nat) (msgHash digestInfo : List UInt8) : Bool :=
  if em.getD 0 0 ≠ 0x00 ∨ em.getD 1 0 ≠ 0x01 then false
  else
    let i := paddingEnd em nLen
    if i < 2 + 8 then false
    else if i ≥ nLen then false
    else if em.getD i 0 ≠ 0x00 then false
    else
      let psEnd := i + 1
      if psEnd + 19 + msgHash.length ≠ nLen then false
      else if (em.drop psEnd).take 19 ≠ digestInfo then false
      else ctMemcmp (em.drop (psEnd + 19)) msgHash msgHash.length == 0

variable (frame : Vector UInt8 512)

/-- `rsa_pkcs1v15_verify_generic`; `frame` is what the buffer `em` held before. -/
def rsaPkcs1v15VerifyGeneric (n e sig msgHash digestInfo : List UInt8) :
    Bool :=
  if n.length > 512 then false
  else
    match rsaRecoverEm n e sig with
    | none => false
    | some em => pkcs1v15Accepts (em ++ frame.toList.drop n.length) n.length msgHash digestInfo

/-- `rsa_pkcs1v15_verify_sha256` -/
def rsaPkcs1v15VerifySha256 (n e sig : List UInt8)
    (msgHash : Vector UInt8 32) : Bool :=
  rsaPkcs1v15VerifyGeneric frame n e sig msgHash.toList sha256DigestInfo

/-- `rsa_pkcs1v15_verify_sha384` -/
def rsaPkcs1v15VerifySha384 (n e sig : List UInt8)
    (msgHash : Vector UInt8 48) : Bool :=
  rsaPkcs1v15VerifyGeneric frame n e sig msgHash.toList sha384DigestInfo

/-- `rsa_pkcs1v15_verify_sha512` -/
def rsaPkcs1v15VerifySha512 (n e sig : List UInt8)
    (msgHash : Vector UInt8 64) : Bool :=
  rsaPkcs1v15VerifyGeneric frame n e sig msgHash.toList sha512DigestInfo

/-! ## The recovered message -/

/-- The message is recovered from a signature of the modulus' length that denotes a smaller number.
-/
theorem rsaRecoverEm_eq_some_iff {n e sig em : List UInt8} (fits : n.length ≤ 512) :
    rsaRecoverEm n e sig = some em ↔ sig.length = n.length ∧ decodeBE sig < decodeBE n ∧
        em = encodeBE n.length
          (if decodeBE e = 0 then 1 else decodeBE sig ^ decodeBE e % decodeBE n) := by
  unfold rsaRecoverEm
  by_cases lengths : sig.length = n.length
  · obtain ⟨mod, modEq⟩ : ∃ mod, bnFromBe n = some mod := by simp [bnFromBe, fits]
    obtain ⟨base, baseEq⟩ : ∃ base, bnFromBe sig = some base := by simp [bnFromBe, lengths, fits]
    have modValue := ((bnFromBe_eq_some_iff n mod).mp modEq).2
    have baseValue := ((bnFromBe_eq_some_iff sig base).mp baseEq).2
    by_cases below : decodeBE sig < decodeBE n
    · have less : base.value < mod.value := by omega
      have order : bnCmp base mod = .lt := (bnCmp_eq_lt_iff base mod).mpr less
      simp [lengths, modEq, baseEq, order, below, bnToBe_eq, value_bnModexp less e, modValue,
        baseValue, eq_comm]
    · have order : bnCmp base mod ≠ .lt := by
        rw [ne_eq, bnCmp_eq_lt_iff, modValue, baseValue]
        exact below
      simp [lengths, modEq, baseEq, order, below]
  · simp [lengths]

/-! ## The padding -/

variable (count : Nat)

/-- The encoding of a hash with `count` padding bytes. -/
def emsaPkcs1v15 (digestInfo msgHash : List UInt8) : List UInt8 :=
  0x00 :: 0x01 :: (replicate count 0xFF ++ 0x00 :: (digestInfo ++ msgHash))

lemma paddingEnd_append (em stale : List UInt8) :
    paddingEnd (em ++ stale) em.length = 2 + ((em.drop 2).takeWhile (· == 0xFF)).length := by
  rw [paddingEnd, take_left]

lemma takeWhile_padding (rest : List UInt8) :
    ((replicate count 0xFF ++ 0x00 :: rest).takeWhile (· == (0xFF : UInt8))) =
      replicate count 0xFF := by
  rw [takeWhile_append_of_pos (by simp)]
  simp

lemma padding_split (bytes : List UInt8) :
    bytes = replicate (bytes.takeWhile (· == 0xFF)).length 0xFF ++
      bytes.drop (bytes.takeWhile (· == 0xFF)).length := by
  induction bytes with
  | nil => rfl
  | cons byte bytes ih =>
    by_cases pad : byte = 0xFF
    · subst pad
      simpa [replicate_succ] using ih
    · simp [pad]

lemma pkcs1v15Accepts_iff_checks (em : List UInt8) (nLen : Nat)
    (msgHash digestInfo : List UInt8) :
    pkcs1v15Accepts em nLen msgHash digestInfo = true ↔
      (em.getD 0 0 = 0x00 ∧ em.getD 1 0 = 0x01) ∧ 10 ≤ paddingEnd em nLen ∧
        paddingEnd em nLen < nLen ∧ em.getD (paddingEnd em nLen) 0 = 0x00 ∧
        paddingEnd em nLen + 1 + 19 + msgHash.length = nLen ∧
        (em.drop (paddingEnd em nLen + 1)).take 19 = digestInfo ∧
        ctMemcmp (em.drop (paddingEnd em nLen + 1 + 19)) msgHash msgHash.length = 0 := by
  simp [pkcs1v15Accepts]

lemma ctMemcmp_append_eq_zero_iff {a b stale : List UInt8} (length : a.length = b.length) :
    ctMemcmp (a ++ stale) b b.length = 0 ↔ a = b := by
  rw [← ctMemcmp_eq_zero_iff length rfl, ctMemcmp, ctMemcmp, take_left' length,
    take_of_length_le (le_of_eq length)]

section Frame

variable (byte0 byte1 separator : UInt8) (count : Nat) (rest : List UInt8)

lemma getD_behind_padding :
    (byte0 :: byte1 :: (replicate count 0xFF ++ separator :: rest)).getD (2 + count) 0 =
      separator := by
  have place : 2 + count = count + 1 + 1 := by omega
  rw [place]
  simp

lemma drop_behind_padding (more : Nat) :
    (byte0 :: byte1 :: (replicate count 0xFF ++ separator :: rest)).drop
      (2 + count + 1 + more) = rest.drop more := by
  have place : 2 + count + 1 + more = count + (more + 1) + 1 + 1 := by omega
  rw [place]
  simp [drop_append]

end Frame

variable {msgHash digestInfo : List UInt8}

/-- The parser accepts exactly the encodings of the hash. -/
theorem pkcs1v15Accepts_iff {em stale : List UInt8} (infoLength : digestInfo.length = 19) :
    pkcs1v15Accepts (em ++ stale) em.length msgHash digestInfo = true ↔
      ∃ count ≥ 8, em = emsaPkcs1v15 count digestInfo msgHash := by
  rw [pkcs1v15Accepts_iff_checks, paddingEnd_append]
  constructor
  · rintro ⟨⟨first, second⟩, enough, inside, separator, length, info, hash⟩
    obtain _ | ⟨byte0, _ | ⟨byte1, rest⟩⟩ := em
    · simp at inside
    · simp at inside
    have split := padding_split rest
    simp only [drop_succ_cons, drop_zero] at enough inside separator length info hash
    generalize (rest.takeWhile (· == 0xFF)).length = count
      at split enough inside separator length info hash
    refine ⟨count, by omega, ?_⟩
    cases tailEq : rest.drop count with
    | nil =>
      have short : rest.length ≤ count := drop_eq_nil_iff.mp tailEq
      simp only [length_cons] at inside
      omega
    | cons next tail =>
      rw [tailEq] at split
      have buffer : byte0 :: byte1 :: rest ++ stale =
          byte0 :: byte1 :: (replicate count 0xFF ++ next :: (tail ++ stale)) := by
        rw [split]
        simp
      have tailLength : tail.length = 19 + msgHash.length := by
        have whole := congrArg List.length split
        simp only [length_append, length_replicate, length_cons] at whole length
        omega
      have firstEq : byte0 = 0x00 := first
      have secondEq : byte1 = 0x01 := second
      have nextEq : next = 0x00 := by rwa [buffer, getD_behind_padding] at separator
      have infoEq : tail.take 19 = digestInfo := by
        rwa [buffer, ← add_zero (2 + count + 1), drop_behind_padding, drop_zero,
          take_append_of_le_length (by omega)] at info
      have hashEq : tail.drop 19 = msgHash := by
        rw [buffer, drop_behind_padding, drop_append_of_le_length (by omega)] at hash
        exact (ctMemcmp_append_eq_zero_iff (by rw [length_drop]; omega)).mp hash
      rw [emsaPkcs1v15, firstEq, secondEq, ← infoEq, ← hashEq, take_append_drop, ← nextEq,
        ← split]
  · rintro ⟨count, enough, rfl⟩
    have padding : ((emsaPkcs1v15 count digestInfo msgHash).drop 2).takeWhile (· == 0xFF) =
        replicate count 0xFF := takeWhile_padding count _
    have length : (emsaPkcs1v15 count digestInfo msgHash).length =
        2 + count + 1 + 19 + msgHash.length := by
      simp only [emsaPkcs1v15, length_cons, length_append, length_replicate,
        infoLength]
      omega
    have buffer : emsaPkcs1v15 count digestInfo msgHash ++ stale = 0x00 :: 0x01 ::
        (replicate count 0xFF ++ 0x00 :: (digestInfo ++ (msgHash ++ stale))) := by
      simp [emsaPkcs1v15]
    rw [padding, length_replicate, length, buffer]
    refine ⟨⟨rfl, rfl⟩, by omega, by omega, getD_behind_padding .., rfl, ?_, ?_⟩
    · rw [← add_zero (2 + count + 1), drop_behind_padding, drop_zero,
        take_left' infoLength]
    · rw [drop_behind_padding, drop_left' infoLength]
      exact (ctMemcmp_append_eq_zero_iff rfl).mpr rfl

/-! ## The verifier -/

/-- No encoding denotes zero or one, the numbers that an exponent of zero can lead to. -/
theorem encodeBE_ne_emsaPkcs1v15 {width value count : Nat} (small : value ≤ 1) :
    encodeBE width value ≠ emsaPkcs1v15 count digestInfo msgHash := by
  intro same
  have decoded := congrArg decodeBE same
  rw [decodeBE_encodeBE, emsaPkcs1v15, decodeBE_cons, decodeBE_cons] at decoded
  have power : 256 ^ 1 ≤
      256 ^ (replicate count 0xFF ++ 0x00 :: (digestInfo ++ msgHash)).length := by
    apply Nat.pow_le_pow_right (by decide)
    simp only [length_append, length_cons]
    omega
  have low := Nat.mod_le value (256 ^ width)
  have one : (0x01 : UInt8).toNat = 1 := rfl
  rw [one] at decoded
  omega

/-- The verifier accepts exactly the signatures whose power is the encoding of the hash. -/
theorem rsaPkcs1v15VerifyGeneric_iff {frame : Vector UInt8 512} {n e sig : List UInt8}
    (fits : n.length ≤ 512) (infoLength : digestInfo.length = 19) :
    rsaPkcs1v15VerifyGeneric frame n e sig msgHash digestInfo = true ↔
      sig.length = n.length ∧ decodeBE sig < decodeBE n ∧
        ∃ count ≥ 8, encodeBE n.length (decodeBE sig ^ decodeBE e % decodeBE n) =
          emsaPkcs1v15 count digestInfo msgHash := by
  rw [rsaPkcs1v15VerifyGeneric, if_neg (not_lt.mpr fits)]
  cases recovered : rsaRecoverEm n e sig with
  | none =>
    apply iff_of_false Bool.false_ne_true
    rintro ⟨lengths, below, -⟩
    have some := (rsaRecoverEm_eq_some_iff (e := e) fits).mpr ⟨lengths, below, rfl⟩
    rw [recovered] at some
    cases some
  | some em =>
    obtain ⟨lengths, below, emEq⟩ := (rsaRecoverEm_eq_some_iff fits).mp recovered
    have emLength : em.length = n.length := by rw [emEq, length_encodeBE]
    have accepts : pkcs1v15Accepts (em ++ frame.toList.drop n.length) em.length msgHash digestInfo =
        true ↔ ∃ count ≥ 8, em = emsaPkcs1v15 count digestInfo msgHash :=
      pkcs1v15Accepts_iff infoLength
    rw [emLength] at accepts
    simp only [accepts, lengths, below, true_and]
    by_cases zero : decodeBE e = 0
    · have remainder : decodeBE sig ^ 0 % decodeBE n ≤ 1 := by
        rw [pow_zero]
        exact Nat.mod_le _ _
      rw [emEq, if_pos zero, zero]
      exact iff_of_false (fun ⟨_, _, same⟩ => encodeBE_ne_emsaPkcs1v15 (Nat.le_refl 1) same)
        (fun ⟨_, _, same⟩ => encodeBE_ne_emsaPkcs1v15 remainder same)
    · rw [emEq, if_neg zero]

/-- For moduli of up to 512 bytes, each of the three verifiers accepts a signature exactly if it
is as long as the modulus and denotes a smaller number, whose power modulo the modulus is the
encoding of the hash with at least eight padding bytes. -/
theorem rsaPkcs1v15Verify_iff {n : List UInt8} (fits : n.length ≤ 512) (frame : Vector UInt8 512)
    (e sig : List UInt8) :
    (∀ msgHash, rsaPkcs1v15VerifySha256 frame n e sig msgHash = true ↔
      sig.length = n.length ∧ decodeBE sig < decodeBE n ∧
        ∃ count ≥ 8, encodeBE n.length (decodeBE sig ^ decodeBE e % decodeBE n) =
          emsaPkcs1v15 count sha256DigestInfo msgHash.toList) ∧
    (∀ msgHash, rsaPkcs1v15VerifySha384 frame n e sig msgHash = true ↔
      sig.length = n.length ∧ decodeBE sig < decodeBE n ∧
        ∃ count ≥ 8, encodeBE n.length (decodeBE sig ^ decodeBE e % decodeBE n) =
          emsaPkcs1v15 count sha384DigestInfo msgHash.toList) ∧
    (∀ msgHash, rsaPkcs1v15VerifySha512 frame n e sig msgHash = true ↔
      sig.length = n.length ∧ decodeBE sig < decodeBE n ∧
        ∃ count ≥ 8, encodeBE n.length (decodeBE sig ^ decodeBE e % decodeBE n) =
          emsaPkcs1v15 count sha512DigestInfo msgHash.toList) :=
  ⟨fun _ => rsaPkcs1v15VerifyGeneric_iff fits rfl, fun _ => rsaPkcs1v15VerifyGeneric_iff fits rfl,
    fun _ => rsaPkcs1v15VerifyGeneric_iff fits rfl⟩

/-- The signature that is itself the encoding of the zero hash, on `count + 54` bytes. -/
def plainSignature : List UInt8 :=
  emsaPkcs1v15 count sha256DigestInfo (Vector.replicate 32 0).toList

/-- A modulus of `count + 54` bytes `0xFF`. -/
def plainModulus : List UInt8 := replicate (count + 54) 0xFF

/-- With the exponent one the power of the encoding is the encoding. -/
theorem plainSignature_power :
    (plainSignature count).length = (plainModulus count).length ∧
      decodeBE (plainSignature count) < decodeBE (plainModulus count) ∧
      encodeBE (plainModulus count).length
        (decodeBE (plainSignature count) ^ decodeBE [0x01] % decodeBE (plainModulus count)) =
          plainSignature count := by
  have lengths : (plainSignature count).length = (plainModulus count).length := by
    simp only [plainSignature, plainModulus, emsaPkcs1v15, length_cons, length_append,
      length_replicate, Vector.length_toList]
    rfl
  have below : decodeBE (plainSignature count) < decodeBE (plainModulus count) := by
    have modulus : plainModulus count = 0xFF :: replicate (count + 53) 0xFF :=
      replicate_succ
    obtain ⟨rest, signature⟩ : ∃ rest, plainSignature count = 0x00 :: rest := ⟨_, rfl⟩
    have restLength : rest.length = count + 53 := by
      rw [signature, modulus, length_cons, length_cons, length_replicate] at lengths
      exact Nat.succ.inj lengths
    have bound := decodeBE_lt rest
    have zero : (0x00 : UInt8).toNat = 0 := rfl
    have full : (0xFF : UInt8).toNat = 255 := rfl
    rw [signature, modulus, decodeBE_cons, decodeBE_cons, length_replicate, restLength, zero,
      full]
    rw [restLength] at bound
    omega
  have one : decodeBE [0x01] = 1 := rfl
  refine ⟨lengths, below, ?_⟩
  rw [one, Nat.pow_one, Nat.mod_eq_of_lt below, ← lengths, encodeBE_decodeBE]

/-- A signature over 62 bytes, the shortest that SHA-256 allows. -/
theorem shortest_signature_accepted :
    rsaPkcs1v15VerifySha256 (Vector.replicate 512 0) (plainModulus 8) [0x01] (plainSignature 8)
      (Vector.replicate 32 0) = true := by
  obtain ⟨lengths, below, power⟩ := plainSignature_power 8
  have fits : (plainModulus 8).length ≤ 512 := by
    rw [plainModulus, length_replicate]
    decide
  exact ((rsaPkcs1v15Verify_iff fits _ _ _).1 _).mpr ⟨lengths, below, 8, Nat.le_refl 8, power⟩

/-- With a modulus of 513 bytes the verifier refuses a signature whose power is the encoding. -/
theorem long_modulus_refused : (plainModulus 459).length = 513 ∧
    rsaPkcs1v15VerifySha256 (Vector.replicate 512 0) (plainModulus 459) [0x01] (plainSignature 459)
      (Vector.replicate 32 0) = false ∧
    (plainSignature 459).length = (plainModulus 459).length ∧
    decodeBE (plainSignature 459) < decodeBE (plainModulus 459) ∧
    ∃ count ≥ 8, encodeBE (plainModulus 459).length
        (decodeBE (plainSignature 459) ^ decodeBE [0x01] % decodeBE (plainModulus 459)) =
      emsaPkcs1v15 count sha256DigestInfo (Vector.replicate 32 0).toList := by
  obtain ⟨lengths, below, power⟩ := plainSignature_power 459
  have long : (plainModulus 459).length = 513 := by rw [plainModulus, length_replicate]
  refine ⟨long, ?_, lengths, below, 459, by decide, power⟩
  rw [rsaPkcs1v15VerifySha256, rsaPkcs1v15VerifyGeneric, long, if_pos (by decide)]

end CupidOs.Crypto
