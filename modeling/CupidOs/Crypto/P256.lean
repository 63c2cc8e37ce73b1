import CupidOs.Crypto.P256Residue

/-!
# The curve P-256

`kernel/crypto/p256.c` multiplies a point in a Montgomery ladder whose swaps are done by masks,
and computes the sum of a multiple of the base point and one of a public key by interleaved
doubling. Both compute the multiples in the group of the curve, whatever the points and the
scalars are.
-/

namespace CupidOs.Crypto

open Words Bytes Curves

/-- `p256_jac_t` -/
abbrev P256Jac := Jacobian Fe

/-- `p256_aff_t` -/
structure P256Aff where
  x : Fe
  y : Fe
  infinity : Bool
  deriving DecidableEq

/-- `p256_jac_set_infinity` -/
def p256JacSetInfinity : P256Jac := ⟨p256FeOne, p256FeOne, p256FeZero⟩

/-- `p256_jac_is_infinity` -/
def p256JacIsInfinity (r : P256Jac) : Bool := p256FeIszero r.Z

/-- `p256_jac_from_affine` -/
def p256JacFromAffine (a : P256Aff) : P256Jac :=
  if a.infinity then p256JacSetInfinity else ⟨a.x, a.y, p256FeOne⟩

/-- `p256_jac_to_affine` -/
def p256JacToAffine (a : P256Jac) : P256Aff :=
  if p256JacIsInfinity a then ⟨p256FeZero, p256FeZero, true⟩
  else
    let zinv := p256FeInv a.Z
    let zinv2 := p256FeSqr zinv
    let zinv3 := p256FeMul zinv2 zinv
    ⟨p256FeMul a.X zinv2, p256FeMul a.Y zinv3, false⟩

/-- `p256_jac_double` -/
def p256JacDouble (a : P256Jac) : P256Jac :=
  if p256JacIsInfinity a then p256JacSetInfinity
  else
    let xx := p256FeSqr a.X
    let yy := p256FeSqr a.Y
    let yyyy := p256FeSqr yy
    let zz := p256FeSqr a.Z
    -- S = 2 * ((X + YY)^2 - XX - YYYY)
    let t1 := p256FeSqr (p256FeAdd a.X yy)
    let t1 := p256FeSub (p256FeSub t1 xx) yyyy
    let s := p256FeAdd t1 t1
    -- M = 3 * (X - Z^2) * (X + Z^2)
    let t1 := p256FeMul (p256FeSub a.X zz) (p256FeAdd a.X zz)
    let m := p256FeAdd (p256FeAdd t1 t1) t1
    -- Z' = (Y + Z)^2 - YY - ZZ
    let t1 := p256FeSqr (p256FeAdd a.Y a.Z)
    let z := p256FeSub (p256FeSub t1 yy) zz
    -- X' = M^2 - 2 * S
    let x := p256FeSub (p256FeSub (p256FeSqr m) s) s
    -- Y' = M * (S - X') - 8 * YYYY
    let t1 := p256FeMul m (p256FeSub s x)
    let t2 := p256FeAdd yyyy yyyy
    let t2 := p256FeAdd t2 t2
    let t2 := p256FeAdd t2 t2
    ⟨x, p256FeSub t1 t2, z⟩

/-- `p256_jac_add` -/
def p256JacAdd (a b : P256Jac) : P256Jac :=
  if p256JacIsInfinity a then b
  else if p256JacIsInfinity b then a
  else
    let z1z1 := p256FeSqr a.Z
    let z2z2 := p256FeSqr b.Z
    let u1 := p256FeMul a.X z2z2
    let u2 := p256FeMul b.X z1z1
    let s1 := p256FeMul a.Y (p256FeMul b.Z z2z2)
    let s2 := p256FeMul b.Y (p256FeMul a.Z z1z1)
    if p256FeEq u1 u2 then
      if p256FeEq s1 s2 then p256JacDouble a else p256JacSetInfinity
    else
      let h := p256FeSub u2 u1
      let r := p256FeSub s2 s1
      let hh := p256FeSqr h
      let hhh := p256FeMul hh h
      let v := p256FeMul u1 hh
      let x := p256FeSub (p256FeSub (p256FeSub (p256FeSqr r) hhh) v) v
      let y := p256FeSub (p256FeMul r (p256FeSub v x)) (p256FeMul s1 hhh)
      ⟨x, y, p256FeMul (p256FeMul a.Z b.Z) h⟩

/-- `p256_aff_is_on_curve` -/
def p256AffIsOnCurve (p : P256Aff) : Bool :=
  if p.infinity then false
  else if feCmp p.x p256P ≠ .lt then false
  else if feCmp p.y p256P ≠ .lt then false
  else
    let lhs := p256FeSqr p.y
    let rhs := p256FeMul (p256FeSqr p.x) p.x
    let t := p256FeAdd (p256FeAdd p.x p.x) p.x
    let rhs := p256FeSub rhs t
    let rhs := p256FeAdd rhs p256B
    p256FeEq lhs rhs

/-- The loop of `fe_cswap` over the words of two field elements. -/
def cswapWords (mask : BitVec 32) : List (BitVec 32) → List (BitVec 32) →
    List (BitVec 32) × List (BitVec 32)
  | a :: as, b :: bs =>
    let t := (a ^^^ b) &&& mask
    let rest := cswapWords mask as bs
    ((a ^^^ t) :: rest.1, (b ^^^ t) :: rest.2)
  | _, _ => ([], [])

@[simp]
lemma length_cswapWords (mask : BitVec 32) (as bs : List (BitVec 32)) :
    (cswapWords mask as bs).1.length = min as.length bs.length ∧
      (cswapWords mask as bs).2.length = min as.length bs.length := by
  induction as generalizing bs with
  | nil => simp [cswapWords]
  | cons a as ih =>
    cases bs with
    | nil => simp [cswapWords]
    | cons b bs => simp [cswapWords, ih]

/-- `fe_cswap` -/
def feCswap (mask : BitVec 32) (a b : Fe) : Fe × Fe :=
  let words := cswapWords mask a.words b.words
  (⟨words.1, by simp [words]⟩, ⟨words.2, by simp [words]⟩)

/-- `jac_cswap` -/
def jacCswap (mask : BitVec 32) (p q : P256Jac) : P256Jac × P256Jac :=
  let x := feCswap mask p.X q.X
  let y := feCswap mask p.Y q.Y
  let z := feCswap mask p.Z q.Z
  (⟨x.1, y.1, z.1⟩, ⟨x.2, y.2, z.2⟩)

/-- The mask of a bit: all ones or all zeros. -/
def maskOf (bit : Bool) : BitVec 32 := 0 - (if bit then 1 else 0)

/-- One bit of `p256_scalar_mul_point`. -/
def scalarMulStep (state : Ladder P256Jac) (bit : Bool) : Ladder P256Jac :=
  let swapped := jacCswap (maskOf (bit ^^ state.previous)) state.r₀ state.r₁
  ⟨p256JacDouble swapped.1, p256JacAdd swapped.1 swapped.2, bit⟩

/-- `p256_scalar_mul_point` -/
def p256ScalarMulPoint (k : Fe) (p : P256Aff) : P256Jac :=
  let state := k.scan.foldl scalarMulStep ⟨p256JacSetInfinity, p256JacFromAffine p, false⟩
  (jacCswap (maskOf state.previous) state.r₀ state.r₁).1

/-- The base point. -/
def p256G : P256Aff := ⟨p256Gx, p256Gy, false⟩

/-- One pair of bits of `p256_double_scalar_mul`. -/
def doubleScalarMulStep (gJac qJac gqJac acc : P256Jac) (bits : Bool × Bool) : P256Jac :=
  let acc := p256JacDouble acc
  if bits.1 && bits.2 then p256JacAdd acc gqJac
  else if bits.1 then p256JacAdd acc gJac
  else if bits.2 then p256JacAdd acc qJac
  else acc

/-- `p256_double_scalar_mul` -/
def p256DoubleScalarMul (u1 u2 : Fe) (q : P256Aff) : P256Jac :=
  let gJac := p256JacFromAffine p256G
  let qJac := p256JacFromAffine q
  let gqJac := p256JacAdd gJac qJac
  (u1.scan.zip u2.scan).foldl (doubleScalarMulStep gJac qJac gqJac) p256JacSetInfinity

/-- A point in affine coordinates that passed the check. -/
structure PublicKey where
  key : P256Aff
  onCurve : p256AffIsOnCurve key = true

/-- `p256_pub_from_uncompressed` -/
def p256PubFromUncompressed (enc : List UInt8) : Option PublicKey :=
  if enc.length ≠ 65 ∨ enc.getD 0 0 ≠ 0x04 then none
  else
    match p256FeFromBe (enc.drop 1), p256FeFromBe (enc.drop 33) with
    | some x, some y =>
      let out : P256Aff := ⟨x, y, false⟩
      if onCurve : p256AffIsOnCurve out = true then some ⟨out, onCurve⟩ else none
    | _, _ => none

/-! ## The formulas -/

lemma p256JacDouble_eq (a : P256Jac) : p256JacDouble a = a.double feArithmetic := by
  simp only [p256JacDouble, Jacobian.double, feArithmetic, p256FeSqr, p256JacIsInfinity,
    p256JacSetInfinity, Jacobian.infinity]
  rfl

lemma p256JacAdd_eq (a b : P256Jac) : p256JacAdd a b = a.add feArithmetic b := by
  simp only [p256JacAdd, Jacobian.add, p256JacDouble_eq, p256JacIsInfinity, p256JacSetInfinity,
    Jacobian.infinity, p256FeSqr, feArithmetic]
  rfl

/-! ## The swaps -/

lemma cswapWords_maskOf (flag : Bool) {as bs : List (BitVec 32)} (same : as.length = bs.length) :
    cswapWords (maskOf flag) as bs = if flag then (bs, as) else (as, bs) := by
  have clear : maskOf false = 0#32 := by decide
  have set : maskOf true = BitVec.allOnes 32 := by decide
  induction as generalizing bs with
  | nil =>
    obtain rfl := List.length_eq_zero_iff.mp same.symm
    cases flag <;> rfl
  | cons a as ih =>
    obtain ⟨b, bs, rfl⟩ := List.exists_cons_of_length_eq_add_one same.symm
    have first : a ^^^ (a ^^^ b) = b := by rw [← BitVec.xor_assoc, BitVec.xor_self, BitVec.zero_xor]
    have second : b ^^^ (a ^^^ b) = a := by rw [BitVec.xor_comm, BitVec.xor_assoc]; simp
    rw [cswapWords, ih (Nat.succ.inj same)]
    cases flag with
    | false => simp [clear]
    | true => simp only [set, BitVec.and_allOnes, first, second, if_true]

lemma feCswap_maskOf (flag : Bool) (a b : Fe) :
    feCswap (maskOf flag) a b = if flag then (b, a) else (a, b) := by
  simp only [feCswap, cswapWords_maskOf flag (a.size.trans b.size.symm)]
  cases flag <;> rfl

/-- A mask made of a bit swaps the points if the bit is set. -/
theorem jacCswap_maskOf (flag : Bool) (p q : P256Jac) :
    jacCswap (maskOf flag) p q = if flag then (q, p) else (p, q) := by
  cases flag <;> simp [jacCswap, feCswap_maskOf]

/-! ## The loops -/

lemma scalarMulStep_eq : scalarMulStep = ladderStep p256JacAdd p256JacDouble := by
  funext state bit
  rw [scalarMulStep, ladderStep, jacCswap_maskOf, Ladder.swap]
  cases bit ^^ state.previous <;> rfl

lemma p256ScalarMulPoint_eq (k : Fe) (p : P256Aff) : p256ScalarMulPoint k p =
      ladder p256JacAdd p256JacDouble p256JacSetInfinity (p256JacFromAffine p) k.scan := by
  rw [p256ScalarMulPoint, scalarMulStep_eq, jacCswap_maskOf, ladder, Ladder.swap]
  split <;> rfl

end CupidOs.Crypto
