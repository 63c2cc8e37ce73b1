import CupidOs.Crypto.Poly1305

/-!
# The tag of Poly1305

Each phase of `poly1305.c` has one specification: what it returns, and that no step overflows.
Between two blocks the limbs are bounded as in `Reduced`, they denote the accumulator of RFC 8439
modulo the prime, and the buffer holds the bytes that no block has taken yet.
-/

namespace CupidOs.Crypto.Poly1305

open Bytes Words Words.Code
open List hiding Vector

/-! ## Words and bits -/

lemma and_limb (value : Nat) : value &&& 0x03ffffff = value % 2 ^ 26 :=
  Nat.and_two_pow_sub_one_eq_mod value 26

lemma or_shiftLeft {low : Nat} (high : Nat) {shift : Nat} (small : low < 2 ^ shift) :
    low ||| high <<< shift = low + 2 ^ shift * high := by
  rw [Nat.or_comm, ← Nat.shiftLeft_add_eq_or_of_lt small, Nat.shiftLeft_eq]
  ring

lemma getD_drop (p : List UInt8) (offset index : Nat) :
    p.getD (offset + index) 0 = (p.drop offset).getD index 0 := by
  rw [getD_eq_getElem?_getD, getD_eq_getElem?_getD, getElem?_drop]

lemma loadLE32_eq {p : List UInt8} {offset : Nat} (inside : offset + 4 ≤ p.length) :
    loadLE32 p offset = decodeLE p / 256 ^ offset % 2 ^ 32 := by
  have field : readLE 4 p offset = decodeLE p / 256 ^ offset % 2 ^ 32 := readLE_eq 4 p offset
  have long : 4 ≤ (p.drop offset).length := by
    rw [length_drop]
    omega
  rw [← field, readLE, loadLE32, getD_drop p offset 1, getD_drop p offset 2, getD_drop p offset 3,
    ← add_zero offset, getD_drop p offset 0, add_zero]
  generalize p.drop offset = bytes at long ⊢
  rcases bytes with _ | ⟨a, _ | ⟨b, _ | ⟨c, _ | ⟨d, rest⟩⟩⟩⟩
  iterate 4 simp at long
  have first := a.toNat_lt
  have second := b.toNat_lt
  have third := c.toNat_lt
  simp only [getD_cons_zero, getD_cons_succ, take_succ_cons, take_zero, decodeLE]
  have firstTwo : a.toNat + 2 ^ 8 * b.toNat < 2 ^ 16 := by omega
  have firstThree : a.toNat + 2 ^ 8 * b.toNat + 2 ^ 16 * c.toNat < 2 ^ 24 := by omega
  rw [or_shiftLeft _ first, or_shiftLeft _ firstTwo, or_shiftLeft _ firstThree]
  ring

lemma storeLE32_eq (v : Nat) : storeLE32 v = encodeLE 4 v := by
  have byteEq (shifted : Nat) : UInt8.ofNat (shifted &&& 0xFF) = UInt8.ofNat shifted := by
    rw [Nat.and_two_pow_sub_one_eq_mod shifted 8]
    exact UInt8.toNat_inj.mp (by simp)
  simp only [storeLE32, byteEq, encodeLE, Nat.shiftRight_eq_div_pow, Nat.div_div_eq_div_mul,
    Nat.reducePow, Nat.reduceMul]

/-! ## One block -/

/-- The bounds of the accumulator between two blocks. -/
structure Limbs.Reduced (h : Limbs) : Prop where
  l0 : h.l0 < 2 ^ 26
  l1 : h.l1 < 2 ^ 26 + 64
  l2 : h.l2 < 2 ^ 26
  l3 : h.l3 < 2 ^ 26
  l4 : h.l4 < 2 ^ 26

/-- The bounds of the clamped multiplier. -/
structure Limbs.Clamped (r : Limbs) : Prop where
  l0 : r.l0 < 2 ^ 26
  l1 : r.l1 < 2 ^ 26
  l2 : r.l2 < 2 ^ 26
  l3 : r.l3 < 2 ^ 26
  l4 : r.l4 < 2 ^ 20

/-- The bound of the accumulator once a block is added to it. -/
def addedBound : Nat := 2 ^ 27 + 64

/-- The limbs stay below `addedBound`. -/
structure Limbs.Added (h : Limbs) : Prop where
  l0 : h.l0 ≤ addedBound
  l1 : h.l1 ≤ addedBound
  l2 : h.l2 ≤ addedBound
  l3 : h.l3 ≤ addedBound
  l4 : h.l4 ≤ addedBound

/-- The sum of the products of the limbs. -/
def Limbs.dot (h r : Limbs) : Nat :=
  h.l0 * r.l0 + h.l1 * r.l1 + h.l2 * r.l2 + h.l3 * r.l3 + h.l4 * r.l4

variable {h r : Limbs}

lemma Limbs.Added.dot_le (added : h.Added) :
    h.dot r ≤ addedBound * (r.l0 + r.l1 + r.l2 + r.l3 + r.l4) := by
  have p0 := Nat.mul_le_mul_right r.l0 added.l0
  have p1 := Nat.mul_le_mul_right r.l1 added.l1
  have p2 := Nat.mul_le_mul_right r.l2 added.l2
  have p3 := Nat.mul_le_mul_right r.l3 added.l3
  have p4 := Nat.mul_le_mul_right r.l4 added.l4
  simp only [Limbs.dot, mul_add]
  omega

lemma sumOfProducts_returns (fits : h.dot r < 2 ^ 64) :
    (sumOfProducts h r).Returns fun d => d = h.dot r := by
  rw [Limbs.dot] at fits ⊢
  iterate 5 apply returns_product_bind (by omega)
  iterate 4 apply returns_sum_bind (by omega)
  exact returns_pure rfl

lemma carryProducts_returns {d0 d1 d2 d3 d4 : Nat} (b0 : d0 < 3 * 2 ^ 56)
    (b1 : d1 < 3 * 2 ^ 56) (b2 : d2 < 3 * 2 ^ 56) (b3 : d3 < 3 * 2 ^ 56)
    (b4 : d4 < 2 ^ 55 + 2 ^ 52) :
    (carryProducts d0 d1 d2 d3 d4).Returns fun h =>
      h.Reduced ∧ ∃ carry, d0 + 2 ^ 26 * d1 + 2 ^ 52 * d2 + 2 ^ 78 * d3 + 2 ^ 104 * d4 =
        h.value + prime * carry := by
  simp only [carryProducts, and_limb, Nat.shiftRight_eq_div_pow]
  apply returns_narrow_bind (by omega)
  apply returns_sum_bind (by omega)
  generalize t1Eq : d1 + d0 / 2 ^ 26 = t1
  apply returns_narrow_bind (by omega)
  apply returns_sum_bind (by omega)
  generalize t2Eq : d2 + t1 / 2 ^ 26 = t2
  apply returns_narrow_bind (by omega)
  apply returns_sum_bind (by omega)
  generalize t3Eq : d3 + t2 / 2 ^ 26 = t3
  apply returns_narrow_bind (by omega)
  apply returns_sum_bind (by omega)
  generalize t4Eq : d4 + t3 / 2 ^ 26 = t4
  apply returns_narrow_bind (by omega)
  apply returns_product_bind (by omega)
  apply returns_sum_bind (by omega)
  apply returns_sum_bind (by omega)
  refine returns_pure ⟨?_, t4 / 2 ^ 26, ?_⟩
  · constructor <;> dsimp only <;> omega
  · simp only [Limbs.value, prime]
    omega

lemma multiply_returns (added : h.Added) (clamped : r.Clamped) :
    (multiply h r (r.l1 * 5) (r.l2 * 5) (r.l3 * 5) (r.l4 * 5)).Returns fun next =>
      next.Reduced ∧ next.value ≡ h.value * r.value [MOD prime] := by
  obtain ⟨c0, c1, c2, c3, c4⟩ := clamped
  have b0 := added.dot_le (r := ⟨r.l0, r.l4 * 5, r.l3 * 5, r.l2 * 5, r.l1 * 5⟩)
  have b1 := added.dot_le (r := ⟨r.l1, r.l0, r.l4 * 5, r.l3 * 5, r.l2 * 5⟩)
  have b2 := added.dot_le (r := ⟨r.l2, r.l1, r.l0, r.l4 * 5, r.l3 * 5⟩)
  have b3 := added.dot_le (r := ⟨r.l3, r.l2, r.l1, r.l0, r.l4 * 5⟩)
  have b4 := added.dot_le (r := ⟨r.l4, r.l3, r.l2, r.l1, r.l0⟩)
  simp only [addedBound] at b0 b1 b2 b3 b4
  iterate 5
    apply returns_bind (sumOfProducts_returns (by omega))
    rintro _ rfl
  apply (carryProducts_returns (by omega) (by omega) (by omega) (by omega) (by omega)).mono
  rintro next ⟨reduced, carry, carryEq⟩
  refine ⟨reduced, ?_⟩
  have productEq : h.value * r.value = next.value + prime * (carry +
      (h.l1 * r.l4 + h.l2 * r.l3 + h.l3 * r.l2 + h.l4 * r.l1 +
        2 ^ 26 * (h.l2 * r.l4 + h.l3 * r.l3 + h.l4 * r.l2) +
        2 ^ 52 * (h.l3 * r.l4 + h.l4 * r.l3) + 2 ^ 78 * (h.l4 * r.l4))) := by
    rw [mul_add, ← add_assoc, ← carryEq]
    simp only [Limbs.value, Limbs.dot, prime]
    ring
  rw [productEq]
  exact (Nat.add_modulus_mul_modEq_iff.mpr rfl).symm

lemma poly1305Block_returns {ctx : Ctx} {m : List UInt8} (lastPartial : Bool)
    (clamped : ctx.r.Clamped) (reduced : ctx.h.Reduced) (whole : m.length = 16) :
    (poly1305Block ctx m lastPartial).Returns fun next =>
      ∃ h : Limbs, next = { ctx with h } ∧ h.Reduced ∧
        h.value ≡ (ctx.h.value + (decodeLE m + if lastPartial then 0 else 2 ^ 128)) * ctx.r.value
          [MOD prime] := by
  have small := decodeLE_lt m
  rw [whole] at small
  have e0 : loadLE32 m 0 &&& 0x03ffffff = decodeLE m % 2 ^ 26 := by
    rw [loadLE32_eq (by omega), and_limb]
    omega
  have e1 : loadLE32 m 3 >>> 2 &&& 0x03ffffff = decodeLE m / 2 ^ 26 % 2 ^ 26 := by
    rw [loadLE32_eq (by omega), and_limb, Nat.shiftRight_eq_div_pow]
    omega
  have e2 : loadLE32 m 6 >>> 4 &&& 0x03ffffff = decodeLE m / 2 ^ 52 % 2 ^ 26 := by
    rw [loadLE32_eq (by omega), and_limb, Nat.shiftRight_eq_div_pow]
    omega
  have e3 : loadLE32 m 9 >>> 6 &&& 0x03ffffff = decodeLE m / 2 ^ 78 % 2 ^ 26 := by
    rw [loadLE32_eq (by omega), and_limb, Nat.shiftRight_eq_div_pow]
    omega
  have e4 : loadLE32 m 12 >>> 8 ||| (if lastPartial then 0 else 1 <<< 24) =
      decodeLE m / 2 ^ 104 + if lastPartial then 0 else 2 ^ 24 := by
    have top : loadLE32 m 12 >>> 8 = decodeLE m / 2 ^ 104 := by
      rw [loadLE32_eq (by omega), Nat.shiftRight_eq_div_pow]
      omega
    rw [top]
    cases lastPartial with
    | true => exact Nat.or_zero _
    | false => exact or_shiftLeft 1 (show decodeLE m / 2 ^ 104 < 2 ^ 24 by omega)
  have ⟨r0, r1, r2, r3, r4⟩ := clamped
  have ⟨h0, h1, h2, h3, h4⟩ := reduced
  have bit : (if lastPartial then 0 else 2 ^ 24) ≤ 2 ^ 24 := by split <;> decide
  simp only [poly1305Block, e0, e1, e2, e3, e4]
  iterate 4 apply returns_product_bind (by omega)
  iterate 5 apply returns_sum_bind (by omega)
  refine returns_bind (multiply_returns ?_ clamped) ?_
  · constructor <;> simp only [addedBound] <;> omega
  · rintro h ⟨nextReduced, productEq⟩
    refine returns_pure ⟨h, rfl, nextReduced, productEq.trans ?_⟩
    have sumEq : Limbs.value ⟨ctx.h.l0 + decodeLE m % 2 ^ 26,
        ctx.h.l1 + decodeLE m / 2 ^ 26 % 2 ^ 26, ctx.h.l2 + decodeLE m / 2 ^ 52 % 2 ^ 26,
        ctx.h.l3 + decodeLE m / 2 ^ 78 % 2 ^ 26,
        ctx.h.l4 + (decodeLE m / 2 ^ 104 + if lastPartial then 0 else 2 ^ 24)⟩ =
        ctx.h.value + (decodeLE m + if lastPartial then 0 else 2 ^ 128) := by
      simp only [Limbs.value]
      split <;> omega
    rw [sumEq]

/-! ## The key -/

lemma and_eq_of_mod_eq {first second mask : Nat} (width : Nat) (small : mask < 2 ^ width)
    (same : first % 2 ^ width = second % 2 ^ width) : first &&& mask = second &&& mask := by
  have reduce (value : Nat) : value &&& mask = value % 2 ^ width &&& mask := by
    have bound : value &&& mask < 2 ^ width := Nat.and_lt_two_pow value small
    calc
      value &&& mask = (value &&& mask) % 2 ^ width := (Nat.mod_eq_of_lt bound).symm
      _ = value % 2 ^ width &&& mask := by
        rw [Nat.and_mod_two_pow, Nat.mod_eq_of_lt small]
  rw [reduce first, reduce second, same]

lemma clamp_limb (value offset : Nat) : (value &&& clampMask) / 2 ^ offset % 2 ^ 26 =
      value / 2 ^ offset &&& clampMask / 2 ^ offset % 2 ^ 26 := by
  rw [Nat.and_div_two_pow, Nat.and_mod_two_pow]
  exact and_eq_of_mod_eq _ (Nat.mod_lt _ (by decide)) (Nat.mod_mod _ _)

section Key

variable {key : List UInt8}

lemma init_limbs (whole : key.length = 32) : (poly1305Init key).r =
      { l0 := (decodeLE key &&& clampMask) % 2 ^ 26
        l1 := (decodeLE key &&& clampMask) / 2 ^ 26 % 2 ^ 26
        l2 := (decodeLE key &&& clampMask) / 2 ^ 52 % 2 ^ 26
        l3 := (decodeLE key &&& clampMask) / 2 ^ 78 % 2 ^ 26
        l4 := (decodeLE key &&& clampMask) / 2 ^ 104 % 2 ^ 26 } := by
  have first := clamp_limb (decodeLE key) 0
  rw [pow_zero, Nat.div_one, Nat.div_one] at first
  rw [first, clamp_limb, clamp_limb, clamp_limb, clamp_limb]
  simp only [poly1305Init, Limbs.mk.injEq, Nat.shiftRight_eq_div_pow]
  have field {offset : Nat} (inside : offset ≤ 12) := @loadLE32_eq key offset (by omega)
  refine ⟨?_, ?_, ?_, ?_, ?_⟩ <;> rw [field (by decide)]
  iterate 4 exact and_eq_of_mod_eq 26 (by decide) (by omega)
  exact and_eq_of_mod_eq 24 (by decide) (by omega)

/-- The multiplier of RFC 8439. -/
def multiplier (key : List UInt8) : Nat := decodeLE (key.take 16) &&& clampMask

lemma clampMask_le (value : Nat) : value &&& clampMask < 2 ^ 124 :=
  Nat.and_lt_two_pow value (by decide)

lemma init_value (whole : key.length = 32) : (poly1305Init key).r.value = multiplier key := by
  have small := clampMask_le (decodeLE key)
  have takeEq : multiplier key = decodeLE key &&& clampMask := by
    rw [multiplier, decodeLE_take]
    exact and_eq_of_mod_eq 128 (by decide) (by omega)
  rw [init_limbs whole, takeEq]
  simp only [Limbs.value]
  omega

lemma init_clamped (whole : key.length = 32) : (poly1305Init key).r.Clamped := by
  have small := clampMask_le (decodeLE key)
  rw [init_limbs whole]
  constructor <;> dsimp only <;> omega

lemma init_pad (whole : key.length = 32) :
    (poly1305Init key).pad.value = decodeLE (key.drop 16) := by
  have small := decodeLE_lt key
  rw [whole] at small
  simp only [Pad.value, poly1305Init]
  rw [decodeLE_drop, loadLE32_eq (by omega), loadLE32_eq (by omega), loadLE32_eq (by omega),
    loadLE32_eq (by omega)]
  omega

end Key

/-! ## Blocks and chunks -/

lemma blocks_of_short {message : List UInt8} (nonempty : message ≠ [])
    (short : message.length ≤ 16) : blocks message = [message] := by
  cases message with
  | nil => exact absurd rfl nonempty
  | cons byte bytes =>
    rw [blocks, take_of_length_le short, drop_of_length_le short, blocks]

lemma blocks_append {block rest : List UInt8} (whole : block.length = 16) :
    blocks (block ++ rest) = block :: blocks rest := by
  cases block with
  | nil => simp at whole
  | cons byte bytes =>
    have takeEq : (byte :: bytes ++ rest).take 16 = byte :: bytes := by
      rw [← whole, take_left]
    have dropEq : (byte :: bytes ++ rest).drop 16 = rest := by
      rw [← whole, drop_left]
    rw [cons_append, blocks, ← cons_append, takeEq, dropEq]

lemma foldl_blocks_append (r start : Nat) {full : List UInt8} (rest : List UInt8)
    (count : Nat) (aligned : full.length = 16 * count) :
    (blocks (full ++ rest)).foldl (absorb r) start =
      (blocks rest).foldl (absorb r) ((blocks full).foldl (absorb r) start) := by
  induction count generalizing full start with
  | zero =>
    have empty : full = [] := length_eq_zero_iff.mp aligned
    rw [empty, nil_append, blocks, foldl_nil]
  | succ count ih =>
    have headLength : (full.take 16).length = 16 := by
      rw [length_take]
      omega
    have tailLength : (full.drop 16).length = 16 * count := by
      rw [length_drop]
      omega
    rw [← take_append_drop 16 full, append_assoc, blocks_append headLength,
      blocks_append headLength, foldl_cons, foldl_cons, ih _ tailLength]

/-- The accumulator after the whole blocks `full`. -/
structure Accumulated (key full : List UInt8) (ctx : Ctx) : Prop where
  r : ctx.r = (poly1305Init key).r
  pad : ctx.pad = (poly1305Init key).pad
  reduced : ctx.h.Reduced
  aligned : ∃ count, full.length = 16 * count
  value : ctx.h.value % prime = (blocks full).foldl (absorb (multiplier key)) 0

section Run

variable {key : List UInt8} {full : List UInt8} {ctx : Ctx}

lemma accumulated_init (key : List UInt8) : Accumulated key [] (poly1305Init key) where
  r := rfl
  pad := rfl
  reduced := by constructor <;> simp [poly1305Init]
  aligned := ⟨0, rfl⟩
  value := by
    rw [blocks]
    rfl

/-- The context has taken in `consumed`: whole blocks are accumulated and the rest
is in the buffer. -/
structure Holds (key consumed : List UInt8) (ctx : Ctx) : Prop where
  short : ctx.buffer.length < 16
  split : ∃ full, consumed = full ++ ctx.buffer ∧ Accumulated key full ctx

lemma Accumulated.setBuffer (acc : Accumulated key full ctx) (buffer : List UInt8) :
    Accumulated key full { ctx with buffer } :=
  ⟨acc.r, acc.pad, acc.reduced, acc.aligned, acc.value⟩

section

variable (acc : Accumulated key full ctx) (keyLength : key.length = 32)
include acc keyLength

/-- One block, with or without its high bit in the padding. -/
theorem Accumulated.block_value {h : Limbs} {number : Nat}
    (productEq : h.value ≡ (ctx.h.value + number) * ctx.r.value [MOD prime])
    {block : List UInt8} (numberEq : number = decodeLE block + 256 ^ block.length) :
    h.value % prime =
      absorb (multiplier key) ((blocks full).foldl (absorb (multiplier key)) 0) block := by
  rw [absorb, ← acc.value, ← numberEq, ← init_value keyLength, ← acc.r]
  exact productEq.trans (((Nat.mod_modEq _ _).symm.add_right _).mul_right _)

lemma Accumulated.block {m : List UInt8} (whole : m.length = 16) :
    (poly1305Block ctx m false).Returns fun next =>
      next.buffer = ctx.buffer ∧ Accumulated key (full ++ m) next := by
  have clamped : ctx.r.Clamped := acc.r ▸ init_clamped keyLength
  apply (poly1305Block_returns false clamped acc.reduced whole).mono
  rintro _ ⟨h, rfl, reduced, productEq⟩
  obtain ⟨count, countEq⟩ := acc.aligned
  refine ⟨rfl, acc.r, acc.pad, reduced, ⟨count + 1, ?_⟩, ?_⟩
  · rw [length_append]
    omega
  · have nonempty : m ≠ [] := by
      rintro rfl
      simp at whole
    rw [foldl_blocks_append _ _ _ count countEq, blocks_of_short nonempty whole.le,
      foldl_cons, foldl_nil]
    apply acc.block_value keyLength productEq
    rw [whole]
    rfl

lemma Accumulated.updateBlocks (m : List UInt8) :
    (updateBlocks ctx m).Returns fun outcome =>
      ∃ taken, m = taken ++ outcome.2 ∧ outcome.2.length < 16 ∧
        outcome.1.buffer = ctx.buffer ∧ Accumulated key (full ++ taken) outcome.1 := by
  induction hlen : m.length using Nat.strong_induction_on generalizing m full ctx with
  | _ length ih =>
    rw [Poly1305.updateBlocks]
    split
    · rename_i long
      refine returns_bind (acc.block keyLength (m := m.take 16) ?_) ?_
      · rw [length_take]
        omega
      · rintro next ⟨bufferEq, nextAcc⟩
        have shorter : (m.drop 16).length < length := by
          rw [length_drop]
          omega
        apply (ih _ shorter nextAcc (m.drop 16) rfl).mono
        rintro outcome ⟨taken, splitEq, short, keptBuffer, finalAcc⟩
        refine ⟨m.take 16 ++ taken, ?_, short, keptBuffer.trans bufferEq, ?_⟩
        · rw [append_assoc, ← splitEq, take_append_drop]
        · rwa [← append_assoc]
    · exact returns_pure ⟨[], rfl, by dsimp only; omega, rfl, by rwa [append_nil]⟩

lemma Accumulated.updateRest (empty : ctx.buffer = []) (m : List UInt8) :
    (updateRest ctx m).Returns fun next => Holds key (full ++ m) next := by
  apply returns_bind (acc.updateBlocks keyLength m)
  rintro ⟨next, tail⟩ ⟨taken, splitEq, short, bufferEq, nextAcc⟩
  have tailEq : next.buffer ++ tail = tail := by rw [bufferEq, empty, nil_append]
  refine returns_pure ⟨?_, full ++ taken, ?_, ?_⟩
  · rwa [tailEq]
  · rw [splitEq, tailEq, append_assoc]
  · exact nextAcc.setBuffer _

end

lemma updateRest_nil (ctx : Ctx) : updateRest ctx [] = pure ctx := by
  rw [Poly1305.updateRest, Poly1305.updateBlocks, if_neg (by simp)]
  show done { ctx with buffer := ctx.buffer ++ [] } = done ctx
  rw [append_nil]

lemma Holds.update {consumed : List UInt8} (holds : Holds key consumed ctx)
    (keyLength : key.length = 32) (m : List UInt8) :
    (poly1305Update ctx m).Returns fun next => Holds key (consumed ++ m) next := by
  obtain ⟨short, full, consumedEq, acc⟩ := holds
  rw [poly1305Update]
  split
  · dsimp only
    generalize takeEq : (if m.length < 16 - ctx.buffer.length then m.length
      else 16 - ctx.buffer.length) = take
    have filledLength : (ctx.buffer ++ m.take take).length =
        ctx.buffer.length + min take m.length := by
      rw [length_append, length_take]
    split at takeEq
    · have takeAll : m.take take = m := take_of_length_le takeEq.le
      have dropAll : m.drop take = [] := drop_of_length_le takeEq.le
      rw [if_neg (by omega), dropAll, updateRest_nil, takeAll]
      refine returns_pure ⟨?_, full, ?_, acc.setBuffer _⟩
      · rw [length_append]
        omega
      · rw [consumedEq, append_assoc]
    · rw [if_pos (by omega)]
      apply returns_bind ((acc.setBuffer _).block keyLength (by omega))
      rintro next ⟨-, nextAcc⟩
      have messageEq : consumed ++ m = full ++ (ctx.buffer ++ m.take take) ++ m.drop take := by
        rw [consumedEq, append_assoc, append_assoc, append_assoc,
          take_append_drop]
      rw [messageEq]
      exact (nextAcc.setBuffer []).updateRest keyLength rfl _
  · rename_i unbuffered
    have empty : ctx.buffer = [] := length_eq_zero_iff.mp (by omega)
    rw [consumedEq, empty, append_nil]
    exact acc.updateRest keyLength empty m

lemma Holds.updateAll {consumed : List UInt8} (holds : Holds key consumed ctx)
    (keyLength : key.length = 32) (chunks : List (List UInt8)) :
    (updateAll ctx chunks).Returns fun next => Holds key (consumed ++ chunks.flatten) next := by
  induction chunks generalizing ctx consumed with
  | nil =>
    rw [flatten_nil, append_nil]
    exact returns_pure holds
  | cons chunk chunks ih =>
    rw [flatten_cons, ← append_assoc]
    apply returns_bind (holds.update keyLength chunk)
    intro next nextHolds
    exact ih nextHolds

/-! ## The final reduction -/

lemma Holds.finishBlocks {message : List UInt8} (holds : Holds key message ctx)
    (keyLength : key.length = 32) :
    (finishBlocks ctx).Returns fun next =>
      next.pad = (poly1305Init key).pad ∧ next.h.Reduced ∧
        next.h.value % prime = (blocks message).foldl (absorb (multiplier key)) 0 := by
  obtain ⟨short, full, messageEq, acc⟩ := holds
  obtain ⟨count, countEq⟩ := acc.aligned
  rw [Poly1305.finishBlocks]
  split
  · rename_i buffered
    have clamped : ctx.r.Clamped := acc.r ▸ init_clamped keyLength
    have whole : (ctx.buffer ++ [1] ++ replicate (16 - (ctx.buffer.length + 1)) 0).length =
        16 := by
      simp only [length_append, length_replicate, length_cons, length_nil]
      omega
    apply (poly1305Block_returns true clamped acc.reduced whole).mono
    rintro _ ⟨h, rfl, reduced, productEq⟩
    refine ⟨acc.pad, reduced, ?_⟩
    have nonempty : ctx.buffer ≠ [] := length_pos_iff.mp buffered
    rw [messageEq, foldl_blocks_append _ _ _ count countEq, blocks_of_short nonempty short.le,
      foldl_cons, foldl_nil]
    apply acc.block_value keyLength productEq
    rw [if_pos rfl, add_zero, decodeLE_append, decodeLE_append, decodeLE_replicate_zero,
      mul_zero, add_zero]
    simp [decodeLE]
  · rename_i unbuffered
    have empty : ctx.buffer = [] := length_eq_zero_iff.mp (by omega)
    rw [messageEq, empty, append_nil]
    exact returns_pure ⟨acc.pad, acc.reduced, acc.value⟩

end Run

/-- Five limbs without a pending carry. -/
structure Limbs.Carried (h : Limbs) : Prop where
  l0 : h.l0 < 2 ^ 26
  l1 : h.l1 < 2 ^ 26
  l2 : h.l2 < 2 ^ 26
  l3 : h.l3 < 2 ^ 26
  l4 : h.l4 < 2 ^ 26

lemma carryFinal_returns (reduced : h.Reduced) : (carryFinal h).Returns fun next =>
      next.Carried ∧ next.value % prime = h.value % prime := by
  obtain ⟨b0, b1, b2, b3, b4⟩ := reduced
  simp only [carryFinal, and_limb, Nat.shiftRight_eq_div_pow]
  apply returns_sum_bind (by omega)
  generalize t2Eq : h.l2 + h.l1 / 2 ^ 26 = t2
  apply returns_sum_bind (by omega)
  generalize t3Eq : h.l3 + t2 / 2 ^ 26 = t3
  apply returns_sum_bind (by omega)
  generalize t4Eq : h.l4 + t3 / 2 ^ 26 = t4
  apply returns_product_bind (by omega)
  apply returns_sum_bind (by omega)
  apply returns_sum_bind (by omega)
  refine returns_pure ⟨?_, ?_⟩
  · constructor <;> dsimp only <;> omega
  · simp only [Limbs.value, prime]
    omega

lemma select_ones (h : Nat) {g : Nat} (small : g < 2 ^ 32) : select 0xFFFFFFFF h g = g := by
  rw [select, Nat.xor_self, Nat.and_zero, Nat.zero_or, Nat.and_two_pow_sub_one_eq_mod g 32,
    Nat.mod_eq_of_lt small]

lemma select_zero {h : Nat} (g : Nat) (small : h < 2 ^ 32) : select 0 h g = h := by
  rw [select, Nat.zero_xor, Nat.and_zero, Nat.or_zero, Nat.and_two_pow_sub_one_eq_mod h 32,
    Nat.mod_eq_of_lt small]

lemma reduceFinal_returns (carried : h.Carried) :
    (reduceFinal h).Returns fun next => next.Carried ∧ next.value = h.value % prime := by
  obtain ⟨b0, b1, b2, b3, b4⟩ := carried
  simp only [reduceFinal, and_limb, Nat.shiftRight_eq_div_pow]
  apply returns_sum_bind (by omega)
  apply returns_sum_bind (by omega)
  generalize t1Eq : h.l1 + (h.l0 + 5) / 2 ^ 26 = t1
  apply returns_sum_bind (by omega)
  generalize t2Eq : h.l2 + t1 / 2 ^ 26 = t2
  apply returns_sum_bind (by omega)
  generalize t3Eq : h.l3 + t2 / 2 ^ 26 = t3
  apply returns_sum_bind (by omega)
  generalize t4Eq : h.l4 + t3 / 2 ^ 26 = t4
  have bound : t4 ≤ 2 ^ 26 := by omega
  refine returns_difference_bind ?_ ?_ ?_
  · rw [Nat.shiftLeft_eq]
    omega
  · rw [Nat.shiftLeft_eq]
    omega
  · by_cases below : t4 < 2 ^ 26
    · have g4Eq : wrapSub 32 t4 (1 <<< 26) = t4 + 2 ^ 32 - 2 ^ 26 := by
        rw [wrapSub, Nat.shiftLeft_eq]
        omega
      have signEq : (t4 + 2 ^ 32 - 2 ^ 26) / 2 ^ 31 = 1 := by omega
      rw [g4Eq, signEq]
      apply returns_difference_bind (by decide) (by decide)
      have maskEq : wrapSub 32 1 1 = 0 := by decide
      rw [maskEq]
      simp only [select_zero _ (show h.l0 < 2 ^ 32 by omega),
        select_zero _ (show h.l1 < 2 ^ 32 by omega), select_zero _ (show h.l2 < 2 ^ 32 by omega),
        select_zero _ (show h.l3 < 2 ^ 32 by omega), select_zero _ (show h.l4 < 2 ^ 32 by omega)]
      refine returns_pure ⟨⟨b0, b1, b2, b3, b4⟩, ?_⟩
      simp only [Limbs.value, prime]
      omega
    · have g4Eq : wrapSub 32 t4 (1 <<< 26) = 0 := by
        rw [wrapSub, Nat.shiftLeft_eq]
        omega
      rw [g4Eq]
      apply returns_difference_bind (by decide) (by decide)
      have maskEq : wrapSub 32 (0 / 2 ^ 31) 1 = 0xFFFFFFFF := by decide
      rw [maskEq]
      have limb (value : Nat) : value % 2 ^ 26 < 2 ^ 32 := by omega
      simp only [select_ones _ (limb _), select_ones _ (show 0 < 2 ^ 32 by decide)]
      refine returns_pure ⟨?_, ?_⟩
      · constructor <;> dsimp only <;> omega
      · simp only [Limbs.value, prime]
        omega

/-- Four words of 32 bits. -/
structure Pad.Bounded (pad : Pad) : Prop where
  w0 : pad.w0 < 2 ^ 32
  w1 : pad.w1 < 2 ^ 32
  w2 : pad.w2 < 2 ^ 32
  w3 : pad.w3 < 2 ^ 32

lemma pack_bounded (h : Limbs) : (pack h).Bounded := by
  constructor <;> exact Nat.mod_lt _ (by decide)

lemma pack_value (carried : h.Carried) : (pack h).value = h.value % 2 ^ 128 := by
  obtain ⟨b0, b1, b2, b3, b4⟩ := carried
  simp only [Pad.value, pack, Limbs.value, Nat.shiftRight_eq_div_pow]
  rw [or_shiftLeft _ b0, or_shiftLeft _ (show h.l1 / 2 ^ 6 < 2 ^ 20 by omega),
    or_shiftLeft _ (show h.l2 / 2 ^ 12 < 2 ^ 14 by omega),
    or_shiftLeft _ (show h.l3 / 2 ^ 18 < 2 ^ 8 by omega)]
  omega

lemma init_pad_bounded {key : List UInt8} (whole : key.length = 32) :
    (poly1305Init key).pad.Bounded := by
  constructor <;> simp only [poly1305Init] <;> rw [loadLE32_eq (by omega)] <;>
    exact Nat.mod_lt _ (Nat.two_pow_pos 32)

lemma addPad_returns {h pad : Pad} (bounded : h.Bounded) (padBounded : pad.Bounded) :
    (addPad h pad).Returns fun tag =>
      tag = encodeLE 16 ((h.value + pad.value) % 2 ^ 128) := by
  obtain ⟨a0, a1, a2, a3⟩ := bounded
  obtain ⟨p0, p1, p2, p3⟩ := padBounded
  simp only [addPad, Nat.shiftRight_eq_div_pow, storeLE32_eq]
  apply returns_sum_bind (by omega)
  generalize f0Eq : h.w0 + pad.w0 = f0
  apply returns_sum_bind (by omega)
  apply returns_sum_bind (by omega)
  generalize f1Eq : h.w1 + pad.w1 + f0 / 2 ^ 32 = f1
  apply returns_sum_bind (by omega)
  apply returns_sum_bind (by omega)
  generalize f2Eq : h.w2 + pad.w2 + f1 / 2 ^ 32 = f2
  apply returns_sum_bind (by omega)
  apply returns_sum_bind (by omega)
  generalize f3Eq : h.w3 + pad.w3 + f2 / 2 ^ 32 = f3
  apply returns_pure
  have word (value : Nat) : value % 2 ^ 32 < 256 ^ 4 := by omega
  have sumEq : (h.value + pad.value) % 2 ^ 128 =
      f0 % 2 ^ 32 + 256 ^ 4 * (f1 % 2 ^ 32 + 256 ^ 4 * (f2 % 2 ^ 32 + 256 ^ 4 * (f3 % 2 ^ 32))) := by
    simp only [Pad.value]
    omega
  rw [sumEq, encodeLE_append 4 12 _ (word f0), encodeLE_append 4 8 _ (word f1),
    encodeLE_append 4 4 _ (word f2), append_assoc, append_assoc]

/-! ## The tag -/

/-- Whatever chunks a message arrives in, the computation returns the tag of RFC
8439. -/
theorem tagOfChunks_returns {key : List UInt8} (keyLength : key.length = 32)
    (chunks : List (List UInt8)) :
    (tagOfChunks key chunks).Returns fun tag => tag = rfcTag key chunks.flatten := by
  have start : Holds key [] (poly1305Init key) :=
    ⟨by simp [poly1305Init], [], rfl, accumulated_init _⟩
  apply returns_bind (start.updateAll keyLength chunks)
  intro ctx holds
  apply returns_bind (holds.finishBlocks keyLength)
  rintro last ⟨padEq, reduced, accumulatorEq⟩
  apply returns_bind (carryFinal_returns reduced)
  rintro h ⟨carried, carriedEq⟩
  apply returns_bind (reduceFinal_returns carried)
  rintro g ⟨gCarried, gEq⟩
  have padBounded : last.pad.Bounded := padEq ▸ init_pad_bounded keyLength
  apply (addPad_returns (pack_bounded g) padBounded).mono
  rintro tag rfl
  rw [rfcTag, pack_value gCarried, gEq, carriedEq, accumulatorEq, padEq, init_pad keyLength,
    nil_append, Nat.mod_add_mod]
  rfl

@[simp]
lemma length_rfcTag (key message : List UInt8) : (rfcTag key message).length = 16 :=
  length_encodeLE _ _

/-- For every key and every sequence of `poly1305_update` calls, `poly1305_final`
returns the tag of RFC 8439 and no 32- or 64-bit step of the computation
overflows. -/
theorem tag_of_every_chunking (key : Vector UInt8 32) (chunks : List (List UInt8)) :
    (tagOfChunks key.toList chunks).NoOverflow ∧
      (tagOfChunks key.toList chunks).run = rfcTag key.toList chunks.flatten := by
  have keyLength : key.toList.length = 32 := by simp
  exact tagOfChunks_returns keyLength chunks

end CupidOs.Crypto.Poly1305
