import CupidOs.Crypto.P256Group
import CupidOs.Tls.Kdf

/-!
# ECDSA on P-256

`kernel/crypto/ecdsa.c` verifies signatures given as two byte strings of any length, and signs
with a derived nonce, trying up to sixteen times. Verification decides the equation of the
standard in the group of the curve, and it accepts whatever the signer returns.
-/

namespace CupidOs.Crypto

open Bytes Curves Tls WeierstrassCurve.Affine Words
open List hiding Vector

/-- `scalar_add_mod_n` -/
def scalarAddModN (a b : Fe) : Fe :=
  let t := a.add b
  if t.2 ≠ 0 ∨ feCmp t.1 p256N ≠ .lt then (t.1.sub p256N).1 else t.1

/-- `bits2octets` -/
def bits2octets (hash : List UInt8) : List UInt8 := p256ScalarToBe (p256ScalarModNFromBe hash)

/-- `rfc6979_nonce`, whose loop ends in its second round at the latest. -/
def rfc6979Nonce (sha256 : List UInt8 → Vector UInt8 32) (priv hash : List UInt8) (retry : Nat) :
    List UInt8 :=
  let hmac := hmacSha256 sha256
  let bx := priv ++ bits2octets hash
  let v := List.replicate 32 0x01
  let k := List.replicate 32 0x00
  let k := hmac k (v ++ 0x00 :: bx)
  let v := hmac k v
  let k := hmac k (v ++ 0x01 :: bx)
  let v := hmac k v
  let v := hmac k v
  if retry = 0 then v
  else
    let k := hmac k (v ++ 0x00 :: encodeBE 4 retry)
    let v := hmac k v
    hmac k v

/-- `load_scalar` -/
def loadScalar (be : List UInt8) : Option Fe :=
  let skip := if be.length > 32 then be.length - 32 else 0
  if (be.take skip).any (· ≠ 0) then none
  else
    let be := be.drop skip
    p256ScalarFromBe (List.replicate (32 - be.length) 0 ++ be)

/-- `ecdsa_p256_verify` -/
def ecdsaP256Verify (pubkey : P256Aff) (hash rBe sBe : List UInt8) : Bool :=
  match loadScalar rBe, loadScalar sBe with
  | some rScal, some sScal =>
    if p256ScalarIszero rScal || p256ScalarIszero sScal then false
    else
      let e := p256ScalarModNFromBe hash
      let w := p256ScalarInv sScal
      let u1 := p256ScalarMul e w
      let u2 := p256ScalarMul rScal w
      let r := p256DoubleScalarMul u1 u2 pubkey
      if p256JacIsInfinity r then false
      else
        let x1Be := p256FeToBe (p256JacToAffine r).x
        (p256ScalarModNFromBe x1Be).same rScal
  | _, _ => false

/-- One round of the loop of `ecdsa_p256_sign`, with the nonce `kBe`. -/
def signWithNonce (d e : Fe) (kBe : List UInt8) : Option (List UInt8 × List UInt8) :=
  match p256ScalarFromBe kBe with
  | none => none
  | some k =>
    if p256ScalarIszero k then none
    else
      let point := p256ScalarMulPoint k p256G
      if p256JacIsInfinity point then none
      else
        let xBe := p256FeToBe (p256JacToAffine point).x
        let r := p256ScalarModNFromBe xBe
        if p256ScalarIszero r then none
        else
          let rd := p256ScalarMul r d
          let sum := scalarAddModN e rd
          let kinv := p256ScalarInv k
          let s := p256ScalarMul kinv sum
          if p256ScalarIszero s then none
          else some (p256ScalarToBe r, p256ScalarToBe s)

/-- `ecdsa_p256_sign` -/
def ecdsaP256Sign (sha256 : List UInt8 → Vector UInt8 32) (priv : Vector UInt8 32)
    (hash : List UInt8) : Option (List UInt8 × List UInt8) :=
  match p256ScalarFromBe priv.toList with
  | none => none
  | some d =>
    if p256ScalarIszero d then none
    else
      let e := p256ScalarModNFromBe hash
      (List.range 16).findSome? fun retry =>
        signWithNonce d e (rfc6979Nonce sha256 priv.toList hash retry)

/-! ## Scalars -/

lemma scalarAddModN_residue (x y : Fn) : scalarAddModN (residue x) (residue y) = residue (x + y) :=
  feAddmod_residue value_p256N x y

@[simp]
lemma length_rfc6979Nonce (sha256 : List UInt8 → Vector UInt8 32) (priv hash : List UInt8)
    (retry : Nat) : (rfc6979Nonce sha256 priv hash retry).length = 32 := by
  unfold rfc6979Nonce
  split <;> simp

lemma orderN_lt : orderN < 256 ^ 32 := by decide

/-- A byte string of any length is loaded exactly if it denotes a number below the order. -/
theorem loadScalar_eq (be : List UInt8) : loadScalar be =
      if decodeBE be < orderN then some (residue (decodeBE be : Fn)) else none := by
  unfold loadScalar
  by_cases long : be.length > 32
  · have split := decodeBE_append (be.take (be.length - 32)) (be.drop (be.length - 32))
    have width : (be.drop (be.length - 32)).length = 32 := by
      rw [length_drop]
      omega
    rw [take_append_drop, width] at split
    simp only [if_pos long]
    by_cases zero : decodeBE (be.take (be.length - 32)) = 0
    · have clear : (be.take (be.length - 32)).any (· ≠ 0) = false := by
        simpa using (decodeBE_eq_zero_iff _).mp zero
      rw [zero, Nat.zero_mul, Nat.zero_add] at split
      rw [clear, if_neg Bool.false_ne_true, width, Nat.sub_self, replicate_zero,
        nil_append, p256ScalarFromBe_eq width, split]
    · have dirty : (be.take (be.length - 32)).any (· ≠ 0) = true := by
        have some := mt (decodeBE_eq_zero_iff _).mpr zero
        simpa using some
      have large : ¬ decodeBE be < orderN := by
        have order := orderN_lt
        have one : 1 * 256 ^ 32 ≤ decodeBE (be.take (be.length - 32)) * 256 ^ 32 :=
          Nat.mul_le_mul_right _ (Nat.pos_of_ne_zero zero)
        omega
      rw [dirty, if_pos rfl, if_neg large]
  · have padded : decodeBE (List.replicate (32 - be.length) 0 ++ be) = decodeBE be := by
      rw [decodeBE_append, decodeBE_replicate_zero, Nat.zero_mul, Nat.zero_add]
    simp only [if_neg long, take_zero, drop_zero, any_nil, Bool.false_eq_true, if_false]
    rw [p256ScalarFromBe_eq (by simp; omega), padded]

lemma p256ScalarModNFromBe_x {a : P256Jac} {x y : Fp} {nonsingular : p256Curve.Nonsingular x y}
    (through : Through residue a (.some x y nonsingular : p256Curve.Point)) :
    p256ScalarModNFromBe (p256FeToBe (p256JacToAffine a).x) = residue (x.val : Fn) := by
  have fits : x.val < 256 ^ 32 := (ZMod.val_lt x).trans (by decide)
  rw [p256JacToAffine_eq through, affineOf, p256FeToBe_residue, p256ScalarModNFromBe_eq (by simp),
    decodeBE_encodeBE, Nat.mod_eq_of_lt fits]

/-! ## Verification -/

/-- The equation of the standard for a signature `(r, s)` of a hash `e` under a public point. -/
structure ValidSignature (publicPoint : p256Curve.Point) (e r s : Nat) : Prop where
  rRange : 1 ≤ r ∧ r < orderN
  sRange : 1 ≤ s ∧ s < orderN
  equation : ∃ (x y : Fp) (nonsingular : p256Curve.Nonsingular x y),
    ((e : Fn) / (s : Fn)).val • basePoint + ((r : Fn) / (s : Fn)).val • publicPoint =
      .some x y nonsingular ∧ x.val ≡ r [MOD orderN]

/-- The multiples that a verification adds up, and the comparison of the abscissa. -/
theorem ecdsaP256Verify_loaded {q : PublicKey} {hash rBe sBe : List UInt8}
    (short : hash.length ≤ 64) {r s : Fn} (rLoad : loadScalar rBe = some (residue r))
    (sLoad : loadScalar sBe = some (residue s)) (rNonzero : r ≠ 0) (sNonzero : s ≠ 0) :
    ecdsaP256Verify q.key hash rBe sBe = true ↔
      ∃ (x y : Fp) (nonsingular : p256Curve.Nonsingular x y),
        ((decodeBE hash : Fn) / s).val • basePoint + (r / s).val • q.point =
          .some x y nonsingular ∧ (x.val : Fn) = r := by
  have through := through_p256DoubleScalarMul q.through_point (residue ((decodeBE hash : Fn) / s))
    (residue (r / s))
  rw [value_residue value_p256N, value_residue value_p256N] at through
  simp only [ecdsaP256Verify, rLoad, sLoad, p256ScalarIszero_residue, decide_eq_false rNonzero,
    decide_eq_false sNonzero, Bool.or_self, Bool.false_eq_true, if_false,
    p256ScalarModNFromBe_eq short, p256ScalarInv_residue, p256ScalarMul_residue, ← div_eq_mul_inv]
  cases sum : ((decodeBE hash : Fn) / s).val • basePoint + (r / s).val • q.point with
  | zero =>
    rw [sum] at through
    have infinite := (p256JacIsInfinity_iff through).mpr rfl
    rw [if_pos infinite]
    simp
  | @some x y nonsingular =>
    rw [sum] at through
    have finite := mt (p256JacIsInfinity_iff through).mp (Point.some_ne_zero nonsingular)
    rw [if_neg finite, Limbs.same_iff, p256ScalarModNFromBe_x through, residue_inj value_p256N]
    constructor
    · exact fun same => ⟨x, y, nonsingular, rfl, same⟩
    · rintro ⟨x', y', _, equal, same⟩
      rw [(Point.some.inj equal).1]
      exact same

/-- A number in the range of the scalars is a nonzero scalar. -/
theorem natCast_ne_zero_of_range {n : Nat} (range : 1 ≤ n ∧ n < orderN) : (n : Fn) ≠ 0 := by
  rw [ne_eq, ZMod.natCast_eq_zero_iff]
  exact Nat.not_dvd_of_pos_of_lt range.1 range.2

/-- Both numbers of an accepted signature are in the range of the scalars. -/
theorem range_of_ecdsaP256Verify {key : P256Aff} {hash rBe sBe : List UInt8}
    (accepted : ecdsaP256Verify key hash rBe sBe = true) :
    (1 ≤ decodeBE rBe ∧ decodeBE rBe < orderN) ∧ 1 ≤ decodeBE sBe ∧ decodeBE sBe < orderN := by
  rw [ecdsaP256Verify, loadScalar_eq, loadScalar_eq] at accepted
  by_cases rBelow : decodeBE rBe < orderN
  · by_cases sBelow : decodeBE sBe < orderN
    · by_contra out
      have zero : decodeBE rBe = 0 ∨ decodeBE sBe = 0 := by omega
      rw [if_pos rBelow, if_pos sBelow] at accepted
      rcases zero with zero | zero <;> simp [zero, p256ScalarIszero_residue] at accepted
    · simp [rBelow, sBelow] at accepted
  · simp [rBelow] at accepted

lemma ecdsaP256Verify_eq_true_iff (q : PublicKey) {hash : List UInt8} (short : hash.length ≤ 64)
    (rBe sBe : List UInt8) :
    ecdsaP256Verify q.key hash rBe sBe = true ↔
      ValidSignature q.point (decodeBE hash) (decodeBE rBe) (decodeBE sBe) := by
  by_cases ranges : (1 ≤ decodeBE rBe ∧ decodeBE rBe < orderN) ∧
      1 ≤ decodeBE sBe ∧ decodeBE sBe < orderN
  · obtain ⟨rRange, sRange⟩ := ranges
    have rLoad := (loadScalar_eq rBe).trans (if_pos rRange.2)
    have sLoad := (loadScalar_eq sBe).trans (if_pos sRange.2)
    rw [ecdsaP256Verify_loaded short rLoad sLoad (natCast_ne_zero_of_range rRange)
      (natCast_ne_zero_of_range sRange)]
    simp only [ZMod.natCast_eq_natCast_iff]
    exact ⟨fun equation => ⟨rRange, sRange, equation⟩, fun valid => valid.equation⟩
  · exact iff_of_false (mt range_of_ecdsaP256Verify ranges)
      fun valid => ranges ⟨valid.rRange, valid.sRange⟩

/-! ## Signing -/

lemma signWithNonce_eq_some_iff (d e : Fn) {kBe : List UInt8} (full : kBe.length = 32)
    (signature : List UInt8 × List UInt8) :
    signWithNonce (residue d) (residue e) kBe = some signature ↔
      (1 ≤ decodeBE kBe ∧ decodeBE kBe < orderN) ∧
        ∃ (x y : Fp) (nonsingular : p256Curve.Nonsingular x y),
          decodeBE kBe • basePoint = .some x y nonsingular ∧ (x.val : Fn) ≠ 0 ∧
            (decodeBE kBe : Fn)⁻¹ * (e + (x.val : Fn) * d) ≠ 0 ∧
              signature = (encodeBE 32 (x.val : Fn).val,
                encodeBE 32 ((decodeBE kBe : Fn)⁻¹ * (e + (x.val : Fn) * d)).val) := by
  rw [signWithNonce, p256ScalarFromBe_eq full]
  by_cases below : decodeBE kBe < orderN
  · simp only [if_pos below, p256ScalarIszero_residue, decide_eq_true_eq]
    by_cases zero : decodeBE kBe = 0
    · simp [zero]
    have range : 1 ≤ decodeBE kBe ∧ decodeBE kBe < orderN := ⟨Nat.pos_of_ne_zero zero, below⟩
    have through := through_p256ScalarMulPoint baseKey.through_point (residue (decodeBE kBe : Fn))
    rw [value_residue value_p256N, ZMod.val_natCast_of_lt below] at through
    rw [if_neg (natCast_ne_zero_of_range range)]
    cases multiple : decodeBE kBe • baseKey.point with
    | zero =>
      rw [multiple] at through
      have infinite : p256JacIsInfinity (p256ScalarMulPoint (residue (decodeBE kBe : Fn)) p256G) :=
        (p256JacIsInfinity_iff through).mpr rfl
      rw [if_pos infinite]
      simp
    | @some x y nonsingular =>
      rw [multiple] at through
      have finite : ¬ p256JacIsInfinity (p256ScalarMulPoint (residue (decodeBE kBe : Fn)) p256G) :=
        mt (p256JacIsInfinity_iff through).mp (Point.some_ne_zero nonsingular)
      have abscissa : p256ScalarModNFromBe (p256FeToBe (p256JacToAffine
          (p256ScalarMulPoint (residue (decodeBE kBe : Fn)) p256G)).x) = residue (x.val : Fn) :=
        p256ScalarModNFromBe_x through
      simp only [if_neg finite, abscissa, p256ScalarIszero_residue, decide_eq_true_eq,
        p256ScalarMul_residue, scalarAddModN_residue, p256ScalarInv_residue,
        p256ScalarToBe_residue]
      constructor
      · intro signed
        split_ifs at signed with rZero sZero
        exact ⟨range, x, y, nonsingular, rfl, rZero, sZero, (Option.some.inj signed).symm⟩
      · rintro ⟨_, x', y', _, equal, rNonzero, sNonzero, rfl⟩
        obtain ⟨rfl, rfl⟩ := Point.some.inj equal
        rw [if_neg rNonzero, if_neg sNonzero]
  · simp [below]

/-- Numbers that are equal as scalars give the same multiples of the base point. -/
theorem nsmul_basePoint_congr {m n : Nat} (same : (m : Fn) = (n : Fn)) :
    m • basePoint = n • basePoint := by
  have divides : addOrderOf basePoint ∣ orderN :=
    addOrderOf_dvd_of_nsmul_eq_zero orderN_nsmul_basePoint
  rw [nsmul_eq_nsmul_iff_modEq]
  exact ((ZMod.natCast_eq_natCast_iff m n orderN).mp same).of_dvd divides

/-- A nonzero scalar in bytes is read back, in the range of the scalars. -/
theorem decodeBE_encodeBE_scalar (x : Fn) : decodeBE (encodeBE 32 x.val) = x.val := by
  rw [decodeBE_encodeBE, Nat.mod_eq_of_lt ((ZMod.val_lt x).trans orderN_lt)]

lemma range_val {x : Fn} (nonzero : x ≠ 0) : 1 ≤ x.val ∧ x.val < orderN :=
  ⟨Nat.pos_of_ne_zero ((ZMod.val_ne_zero x).mpr nonzero), ZMod.val_lt x⟩

/-- A round's signature satisfies the equation for the public point of the key. -/
theorem validSignature_of_signWithNonce {e : Nat} {d : Fn} {kBe rBe sBe : List UInt8}
    (full : kBe.length = 32)
    (signed : signWithNonce (residue d) (residue (e : Fn)) kBe = some (rBe, sBe)) :
    ValidSignature (d.val • basePoint) e (decodeBE rBe) (decodeBE sBe) := by
  obtain ⟨kRange, x, y, nonsingular, multiple, rNonzero, sNonzero, signature⟩ :=
    (signWithNonce_eq_some_iff d e full (rBe, sBe)).mp signed
  obtain ⟨rfl, rfl⟩ := Prod.mk.inj signature
  have kNonzero := natCast_ne_zero_of_range kRange
  rw [decodeBE_encodeBE_scalar, decodeBE_encodeBE_scalar]
  refine ⟨range_val rNonzero, range_val sNonzero, x, y, nonsingular, ?_, ?_⟩
  · rw [ZMod.natCast_zmod_val, ZMod.natCast_zmod_val, ← multiple, ← mul_nsmul, ← add_nsmul]
    apply nsmul_basePoint_congr
    rw [Nat.cast_add, Nat.cast_mul, ZMod.natCast_zmod_val, ZMod.natCast_zmod_val,
      ZMod.natCast_zmod_val]
    have sum : (e : Fn) + (x.val : Fn) * d ≠ 0 := right_ne_zero_of_mul sNonzero
    field_simp
  · rw [← ZMod.natCast_eq_natCast_iff, ZMod.natCast_zmod_val]

/-- Whatever the signer returns is a signature under the public point of the key. -/
theorem validSignature_of_ecdsaP256Sign {sha256 : List UInt8 → Vector UInt8 32}
    {priv : Vector UInt8 32} {hash rBe sBe : List UInt8} (short : hash.length ≤ 64)
    (signed : ecdsaP256Sign sha256 priv hash = some (rBe, sBe)) :
    (1 ≤ decodeBE priv.toList ∧ decodeBE priv.toList < orderN) ∧
      ValidSignature (decodeBE priv.toList • basePoint) (decodeBE hash) (decodeBE rBe)
        (decodeBE sBe) := by
  rw [ecdsaP256Sign, p256ScalarFromBe_eq (by simp)] at signed
  by_cases below : decodeBE priv.toList < orderN
  · rw [if_pos below] at signed
    by_cases zero : decodeBE priv.toList = 0
    · simp [zero, p256ScalarIszero_residue] at signed
    have range : 1 ≤ decodeBE priv.toList ∧ decodeBE priv.toList < orderN :=
      ⟨Nat.pos_of_ne_zero zero, below⟩
    refine ⟨range, ?_⟩
    simp only [p256ScalarIszero_residue, decide_eq_true_eq,
      if_neg (natCast_ne_zero_of_range range), p256ScalarModNFromBe_eq short] at signed
    obtain ⟨retry, _, attempt⟩ := exists_of_findSome?_eq_some signed
    have valid := validSignature_of_signWithNonce (length_rfc6979Nonce _ _ _ _) attempt
    rwa [ZMod.val_natCast_of_lt below] at valid
  · rw [if_neg below] at signed
    simp at signed

/-- The public point of every key is finite, and a key in affine coordinates stands for it. -/
theorem exists_publicKey {d : Nat} (range : 1 ≤ d ∧ d < orderN) :
    ∃ q : PublicKey, q.point = d • basePoint := by
  have order : addOrderOf basePoint = orderN :=
    addOrderOf_eq_prime orderN_nsmul_basePoint (Point.some_ne_zero _)
  have finite : d • basePoint ≠ 0 := by
    rw [ne_eq, ← addOrderOf_dvd_iff_nsmul_eq_zero, order]
    exact Nat.not_dvd_of_pos_of_lt range.1 range.2
  cases multiple : d • basePoint with
  | zero => exact absurd multiple finite
  | @some x y nonsingular =>
    refine ⟨⟨⟨residue x, residue y, false⟩, ?_⟩, ?_⟩
    · exact (p256AffIsOnCurve_residue x y).mpr nonsingular.1
    · simp only [PublicKey.point, value_residue value_p256P, ZMod.natCast_zmod_val]

/-- Verification of 32-byte hashes decides the equation of the standard for every public key on
the curve, and it accepts every signature that the signer returns under the public key of the
signing key. -/
theorem ecdsaP256_correct : (∀ (q : PublicKey) (hash : Vector UInt8 32) (rBe sBe : List UInt8),
      ecdsaP256Verify q.key hash.toList rBe sBe = true ↔
        (1 ≤ decodeBE rBe ∧ decodeBE rBe < orderN) ∧ (1 ≤ decodeBE sBe ∧ decodeBE sBe < orderN) ∧
          ∃ (x y : Fp) (nonsingular : p256Curve.Nonsingular x y),
            ((decodeBE hash.toList : Fn) / (decodeBE sBe : Fn)).val • basePoint +
                ((decodeBE rBe : Fn) / (decodeBE sBe : Fn)).val • q.point =
              .some x y nonsingular ∧ x.val ≡ decodeBE rBe [MOD orderN]) ∧
    (∀ (sha256 : List UInt8 → Vector UInt8 32) (d hash : Vector UInt8 32) (rBe sBe : List UInt8),
      ecdsaP256Sign sha256 d hash.toList = some (rBe, sBe) →
        (∃ q : PublicKey, q.point = decodeBE d.toList • basePoint) ∧
          ∀ q : PublicKey, q.point = decodeBE d.toList • basePoint →
            ecdsaP256Verify q.key hash.toList rBe sBe = true) := by
  constructor
  · intro q hash rBe sBe
    rw [ecdsaP256Verify_eq_true_iff q (by simp)]
    exact ⟨fun valid => ⟨valid.rRange, valid.sRange, valid.equation⟩,
      fun ⟨rRange, sRange, equation⟩ => ⟨rRange, sRange, equation⟩⟩
  · intro sha256 d hash rBe sBe signed
    obtain ⟨range, valid⟩ := validSignature_of_ecdsaP256Sign (by simp) signed
    refine ⟨exists_publicKey range, ?_⟩
    intro q pointEq
    rw [ecdsaP256Verify_eq_true_iff q (by simp), pointEq]
    exact valid

/-- The number one in 32 bytes. -/
def unitBytes : Vector UInt8 32 := ⟨(encodeBE 32 1).toArray, by simp⟩

/-- A hash of zeros. -/
def zeroHash : Vector UInt8 32 := Vector.replicate 32 0

lemma rfc6979Nonce_unit (priv hash : List UInt8) :
    rfc6979Nonce (fun _ => unitBytes) priv hash 0 = unitBytes.toList :=
  rfl

/-- A round with the nonce one and the key one signs the hash zero. -/
theorem signWithNonce_unit :
    ∃ signature, signWithNonce (residue (1 : Fn)) (residue (0 : Fn)) unitBytes.toList =
      some signature := by
  have one : decodeBE unitBytes.toList = 1 := by decide
  have abscissa : ((p256Gx.value : Fp).val : Fn) ≠ 0 := by
    rw [ZMod.val_natCast_of_lt (by decide)]
    exact natCast_ne_zero_of_range ⟨by decide, by decide⟩
  obtain ⟨nonsingular, point⟩ := exists_basePoint_eq
  refine ⟨_, (signWithNonce_eq_some_iff 1 0 (by simp) _).mpr
    ⟨?_, _, _, nonsingular, ?_, abscissa, ?_, rfl⟩⟩
  · rw [one]
    exact ⟨le_refl 1, by decide⟩
  · rw [one, one_nsmul, point]
  · rw [one, Nat.cast_one, inv_one, one_mul, zero_add, mul_one]
    exact abscissa

lemma findSome?_range_of_first {α : Type} {f : Nat → Option α} {x : α} {count : Nat}
    (first : f 0 = some x) : (List.range (count + 1)).findSome? f = some x := by
  rw [range_succ_eq_map, findSome?_cons, first]

/-- If every hash is the number one, the signer signs the hash zero under the key one. -/
theorem ecdsaP256Sign_unit :
    ∃ signature, ecdsaP256Sign (fun _ => unitBytes) unitBytes zeroHash.toList = some signature := by
  have one : decodeBE unitBytes.toList = 1 := by decide
  have zero : p256ScalarModNFromBe zeroHash.toList = residue (0 : Fn) := by
    have value : decodeBE zeroHash.toList = 0 := by decide
    rw [p256ScalarModNFromBe_eq (by simp), value, Nat.cast_zero]
  obtain ⟨signature, attempt⟩ := signWithNonce_unit
  refine ⟨signature, ?_⟩
  rw [ecdsaP256Sign, p256ScalarFromBe_eq (by simp), one, if_pos (by decide), zero]
  simp only [Nat.cast_one, p256ScalarIszero_residue, decide_eq_false (one_ne_zero : (1 : Fn) ≠ 0),
    Bool.false_eq_true, if_false]
  apply findSome?_range_of_first
  rw [rfc6979Nonce_unit]
  exact attempt

theorem unit_signature_accepted :
    ∃ rBe sBe, ecdsaP256Sign (fun _ => unitBytes) unitBytes zeroHash.toList = some (rBe, sBe) ∧
      ecdsaP256Verify p256G zeroHash.toList rBe sBe = true := by
  obtain ⟨⟨rBe, sBe⟩, signed⟩ := ecdsaP256Sign_unit
  have one : decodeBE unitBytes.toList = 1 := by decide
  exact ⟨rBe, sBe, signed,
    (ecdsaP256_correct.2 _ _ _ _ _ signed).2 baseKey (by rw [one, one_nsmul])⟩

end CupidOs.Crypto
