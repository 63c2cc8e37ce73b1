import Mathlib.Algebra.Field.ZMod
import CupidOs.Curves.Jacobian
import CupidOs.Words.Bits

/-!
# Multiples by scanning bits

Two loops compute multiples in a commutative group from the bits of the scalars, top bit first:
the Montgomery ladder, which swaps its two neighbouring multiples whenever a bit differs from the
one before, and interleaved doubling for a sum of two multiples. Both are stated for operations
that follow the group law through a relation between representations and elements.
-/

namespace CupidOs.Curves

open Words

variable {α G : Type} [AddCommGroup G]

/-- The operations on representations follow the group law. -/
structure Follows (R : α → G → Prop) (add : α → α → α) (double : α → α) : Prop where
  add : ∀ {a b : α} {p q : G}, R a p → R b q → R (add a b) (p + q)
  double : ∀ {a : α} {p : G}, R a p → R (double a) (p + p)

variable {R : α → G → Prop} {add : α → α → α} {double : α → α}

section Ladder

/-- The state of the ladder: the two multiples and the bit scanned last. -/
structure Ladder (α : Type) where
  r₀ : α
  r₁ : α
  previous : Bool

/-- Swap the two multiples if the flag is set. -/
def Ladder.swap (state : Ladder α) (flag : Bool) : Ladder α :=
  if flag then { state with r₀ := state.r₁, r₁ := state.r₀ } else state

/-- One bit of the scalar. -/
def ladderStep (add : α → α → α) (double : α → α) (state : Ladder α) (bit : Bool) : Ladder α :=
  let state := state.swap (bit ^^ state.previous)
  ⟨double state.r₀, add state.r₀ state.r₁, bit⟩

/-- The multiple of `base` by the scalar with the given bits. -/
def ladder (add : α → α → α) (double : α → α) (zero base : α) (bits : List Bool) : α :=
  let state := bits.foldl (ladderStep add double) ⟨zero, base, false⟩
  (state.swap state.previous).r₀

/-- After the swap that is still due, the state holds the multiples by `count` and by
`count + 1`. -/
def LadderInvariant (R : α → G → Prop) (g : G) (count : Nat) (state : Ladder α) : Prop :=
  R (state.swap state.previous).r₀ (count • g) ∧ R (state.swap state.previous).r₁ ((count + 1) • g)

lemma ladderStep_invariant (follows : Follows R add double) {g : G} {count : Nat}
    {state : Ladder α} (invariant : LadderInvariant R g count state) (bit : Bool) :
    LadderInvariant R g (2 * count + bit.toNat) (ladderStep add double state bit) := by
  obtain ⟨r₀, r₁, previous⟩ := state
  obtain ⟨low, high⟩ := invariant
  have twiceLow : count • g + count • g = (2 * count) • g := by rw [two_mul, add_nsmul]
  have twiceHigh : (count + 1) • g + (count + 1) • g = (2 * count + 1 + 1) • g := by
    rw [← add_nsmul]
    congr 1
    ring
  have both : count • g + (count + 1) • g = (2 * count + 1) • g := by
    rw [← add_nsmul]
    congr 1
    ring
  have reversed : (count + 1) • g + count • g = (2 * count + 1) • g := by rw [add_comm, both]
  cases bit with
  | false =>
    have doubled := follows.double low
    have sum := follows.add low high
    rw [twiceLow] at doubled
    rw [both] at sum
    cases previous <;> exact ⟨doubled, sum⟩
  | true =>
    have doubled := follows.double high
    have sum := follows.add high low
    rw [twiceHigh] at doubled
    rw [reversed] at sum
    cases previous <;> exact ⟨sum, doubled⟩

lemma foldl_ladderStep_invariant (follows : Follows R add double) {g : G} (bits : List Bool)
    {count : Nat} {state : Ladder α} (invariant : LadderInvariant R g count state) :
    LadderInvariant R g (ofBits count bits) (bits.foldl (ladderStep add double) state) := by
  induction bits generalizing count state with
  | nil => exact invariant
  | cons bit bits ih => exact ih (ladderStep_invariant follows invariant bit)

lemma ladder_rel (follows : Follows R add double) {zero base : α} {g : G} (zeroRel : R zero 0)
    (baseRel : R base g) (bits : List Bool) :
    R (ladder add double zero base bits) (ofBits 0 bits • g) := by
  have start : LadderInvariant R g 0 ⟨zero, base, false⟩ := by
    refine ⟨?_, ?_⟩
    · simpa [Ladder.swap] using zeroRel
    · simpa [Ladder.swap, one_nsmul] using baseRel
  exact (foldl_ladderStep_invariant follows bits start).1

end Ladder

section Interleaved

/-- One pair of bits: double, and add the multiple that the pair selects. -/
def interleavedStep (add : α → α → α) (double : α → α) (first second both acc : α)
    (bits : Bool × Bool) : α :=
  let acc := double acc
  if bits.1 && bits.2 then add acc both
  else if bits.1 then add acc first
  else if bits.2 then add acc second
  else acc

/-- The sum of the multiples of two elements by the scalars with the given bits. -/
def interleaved (add : α → α → α) (double : α → α) (zero first second : α)
    (bits : List (Bool × Bool)) : α :=
  bits.foldl (interleavedStep add double first second (add first second)) zero

lemma interleavedStep_rel (follows : Follows R add double) {first second both acc : α} {g h : G}
    (firstRel : R first g) (secondRel : R second h) (bothRel : R both (g + h)) {i j : Nat}
    (accRel : R acc (i • g + j • h)) (bits : Bool × Bool) :
    R (interleavedStep add double first second both acc bits)
      ((2 * i + bits.1.toNat) • g + (2 * j + bits.2.toNat) • h) := by
  have doubled := follows.double accRel
  have twice : i • g + j • h + (i • g + j • h) = (2 * i) • g + (2 * j) • h := by
    rw [two_mul, two_mul, add_nsmul, add_nsmul]
    abel
  rw [twice] at doubled
  obtain ⟨firstBit, secondBit⟩ := bits
  rcases firstBit with _ | _ <;> rcases secondBit with _ | _
  · exact doubled
  · have sum := follows.add doubled secondRel
    rwa [add_assoc, ← succ_nsmul] at sum
  · have sum := follows.add doubled firstRel
    rwa [add_right_comm, ← succ_nsmul] at sum
  · have sum := follows.add doubled bothRel
    rwa [add_add_add_comm, ← succ_nsmul, ← succ_nsmul] at sum

/-- Interleaved doubling computes the sum of the two multiples. -/
theorem interleaved_rel (follows : Follows R add double) {zero first second : α} {g h : G}
    (zeroRel : R zero 0) (firstRel : R first g) (secondRel : R second h)
    (bits : List (Bool × Bool)) :
    R (interleaved add double zero first second bits)
      (ofBits 0 (bits.map Prod.fst) • g + ofBits 0 (bits.map Prod.snd) • h) := by
  have bothRel := follows.add firstRel secondRel
  have run : ∀ (i j : Nat) (acc : α), R acc (i • g + j • h) →
      R (bits.foldl (interleavedStep add double first second (add first second)) acc)
        (ofBits i (bits.map Prod.fst) • g + ofBits j (bits.map Prod.snd) • h) := by
    induction bits with
    | nil => exact fun i j acc accRel => accRel
    | cons pair bits ih =>
      exact fun i j acc accRel =>
        ih _ _ _ (interleavedStep_rel follows firstRel secondRel bothRel accRel pair)
  exact run 0 0 zero (by simpa using zeroRel)

end Interleaved

section Points

variable {F β : Type} [Field F] [DecidableEq F] {b : F} {B : Arithmetic β} {φ : F → β}

/-- The coordinates are the images of coordinates that stand for a point. -/
def Through (φ : F → β) (a : Jacobian β) (p : (curve b).Point) : Prop :=
  ∃ c : Jacobian F, a = c.map φ ∧ c.Represents p

/-- In every arithmetic that the field maps to, the formulas follow the group law. -/
theorem follows_through (two : (2 : F) ≠ 0) (hom : (Arithmetic.field F).Hom B φ) :
    Follows (Through (b := b) φ) (Jacobian.add B) (Jacobian.double B) where
  add := by
    rintro _ _ p q ⟨c, rfl, left⟩ ⟨d, rfl, right⟩
    exact ⟨c.add (.field F) d, (Jacobian.map_add hom c d).symm, left.add two right⟩
  double := by
    rintro _ p ⟨c, rfl, represents⟩
    exact ⟨c.double (.field F), (Jacobian.map_double hom c).symm, represents.double two⟩

lemma through_infinity (hom : (Arithmetic.field F).Hom B φ) :
    Through φ (Jacobian.infinity B) (0 : (curve b).Point) :=
  ⟨_, (Jacobian.map_infinity hom).symm, Jacobian.represents_infinity⟩

/-- Exactly the coordinates with `Z = 0` stand for the point at infinity. -/
theorem Through.eq_zero_iff (hom : (Arithmetic.field F).Hom B φ) {a : Jacobian β}
    {p : (curve b).Point} (through : Through φ a p) : p = 0 ↔ B.isZero a.Z = true := by
  obtain ⟨c, rfl, represents⟩ := through
  have image : B.isZero (c.map φ).Z = decide (c.Z = 0) := hom.isZero c.Z
  rw [represents.eq_zero_iff, image, decide_eq_true_eq]

end Points

/-- Arithmetic on numbers below `m`. -/
def Arithmetic.modular (m : Nat) : Arithmetic Nat where
  zero := 0
  one := 1 % m
  add x y := (x + y) % m
  sub x y := (x + (m - y)) % m
  mul x y := x * y % m
  isZero x := x == 0
  eq x y := x == y

lemma val_sub {p : Nat} [NeZero p] (x y : ZMod p) :
    (x - y).val = (x.val + (p - y.val)) % p := by
  have difference : x - y = ((x.val + (p - y.val) : Nat) : ZMod p) := by
    rw [Nat.cast_add, Nat.cast_sub (ZMod.val_lt y).le, ZMod.natCast_zmod_val,
      ZMod.natCast_zmod_val, ZMod.natCast_self]
    ring
  rw [difference, ZMod.val_natCast]

/-- It is the arithmetic of the residues. -/
theorem val_hom (p : Nat) [Fact p.Prime] :
    (Arithmetic.field (ZMod p)).Hom (Arithmetic.modular p) ZMod.val where
  zero := ZMod.val_zero
  one := ZMod.val_one_eq_one_mod p
  add := ZMod.val_add
  sub := val_sub
  mul := ZMod.val_mul
  isZero x := by
    rw [Bool.eq_iff_iff]
    simp [Arithmetic.modular, Arithmetic.field, ZMod.val_eq_zero]
  eq x y := by
    rw [Bool.eq_iff_iff]
    simp [Arithmetic.modular, Arithmetic.field, (ZMod.val_injective p).eq_iff]

end CupidOs.Curves
