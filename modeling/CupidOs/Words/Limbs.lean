import Mathlib.Data.Nat.Size
import Mathlib.Tactic.Ring
import Mathlib.Tactic.Linarith

/-!
# Numbers in machine words

A long number is an array of `w`-bit words, least significant first. The loops over such arrays
carry in an accumulator of twice the width: addition, subtraction, schoolbook multiplication,
comparison from the top and the search for the highest set bit. Each loop has one lemma that says
what it computes on the numbers.
-/

namespace CupidOs.Words

open List

variable {w n : Nat}

/-- The number that a list of words denotes, least significant word first. -/
def valueOf : List (BitVec w) → Nat
  | [] => 0
  | word :: words => word.toNat + 2 ^ w * valueOf words

variable (word : BitVec w) (words : List (BitVec w))

lemma valueOf_lt : valueOf words < 2 ^ (w * words.length) := by
  induction words with
  | nil => simp [valueOf]
  | cons word words ih =>
    have small := word.isLt
    have step : 2 ^ w * (valueOf words + 1) ≤ 2 ^ w * 2 ^ (w * words.length) :=
      Nat.mul_le_mul_left _ ih
    rw [valueOf, length_cons, Nat.mul_succ, Nat.pow_add, Nat.mul_comm (2 ^ (w * _))]
    linarith

lemma valueOf_append (low high : List (BitVec w)) :
    valueOf (low ++ high) = valueOf low + 2 ^ (w * low.length) * valueOf high := by
  induction low with
  | nil => simp [valueOf]
  | cons word words ih =>
    rw [cons_append, valueOf, valueOf, ih, length_cons, Nat.mul_succ, Nat.pow_add]
    ring

lemma valueOf_take {words : List (BitVec w)} {count : Nat} (short : count ≤ words.length) :
    valueOf (words.take count) = valueOf words % 2 ^ (w * count) := by
  have length : (words.take count).length = count := by simp [short]
  have bound := valueOf_lt (words.take count)
  have whole := valueOf_append (words.take count) (words.drop count)
  rw [length] at bound
  rw [take_append_drop, length] at whole
  rw [whole, Nat.add_mul_mod_self_left, Nat.mod_eq_of_lt bound]

@[simp]
lemma valueOf_replicate_zero (count : Nat) : valueOf (replicate count 0#w) = 0 := by
  induction count with
  | zero => rfl
  | succ count ih => simp [replicate_succ, valueOf, ih]

/-- Lists of one length that denote the same number are the same. -/
theorem valueOf_inj {first second : List (BitVec w)} (lengths : first.length = second.length)
    (values : valueOf first = valueOf second) : first = second := by
  induction first generalizing second with
  | nil => exact (length_eq_zero_iff.mp lengths.symm).symm
  | cons word words ih =>
    obtain _ | ⟨other, others⟩ := second
    · cases lengths
    have lowEq : word.toNat = other.toNat := by
      have mods := congrArg (· % 2 ^ w) values
      simpa [valueOf, Nat.mod_eq_of_lt word.isLt, Nat.mod_eq_of_lt other.isLt] using mods
    have highEq : 2 ^ w * valueOf words = 2 ^ w * valueOf others := by
      simp only [valueOf] at values
      omega
    rw [BitVec.eq_of_toNat_eq lowEq,
      ih (Nat.succ.inj lengths) (Nat.eq_of_mul_eq_mul_left (Nat.two_pow_pos w) highEq)]

lemma testBit_valueOf [NeZero w] (k : Nat) :
    (valueOf words).testBit k = (words.getD (k / w) 0).getLsbD (k % w) := by
  have positive : 0 < w := Nat.pos_of_neZero w
  induction words generalizing k with
  | nil => simp [valueOf]
  | cons word words ih =>
    rw [valueOf, Nat.add_comm, Nat.testBit_two_pow_mul_add _ word.isLt]
    split
    next inside =>
      rw [Nat.div_eq_of_lt inside, Nat.mod_eq_of_lt inside, getD_cons_zero]
      rfl
    next beyond =>
      have split : k = k - w + w := by omega
      rw [ih, split, Nat.add_div_right _ positive, Nat.add_mod_right, Nat.add_sub_cancel,
        getD_cons_succ]

/-! ## Addition -/

/-- Add two lists of words, with a carry that comes in and one that goes out. -/
def addWords (carry : BitVec (w + w)) :
    List (BitVec w) → List (BitVec w) → List (BitVec w) × BitVec (w + w)
  | left :: lefts, right :: rights =>
    let sum := left.setWidth (w + w) + right.setWidth (w + w) + carry
    let rest := addWords (sum >>> w) lefts rights
    (sum.setWidth w :: rest.1, rest.2)
  | _, _ => ([], carry)

lemma low_add_high (total : BitVec (w + w)) :
    (total.setWidth w).toNat + 2 ^ w * (total >>> w).toNat = total.toNat := by
  rw [BitVec.toNat_setWidth, BitVec.toNat_ushiftRight, Nat.shiftRight_eq_div_pow]
  exact Nat.mod_add_div _ _

lemma toNat_high_lt (total : BitVec (w + w)) : (total >>> w).toNat < 2 ^ w := by
  have small := total.isLt
  rw [BitVec.toNat_ushiftRight, Nat.shiftRight_eq_div_pow]
  rw [Nat.pow_add] at small
  exact Nat.div_lt_of_lt_mul small

@[simp]
lemma toNat_widen : (word.setWidth (w + w)).toNat = word.toNat :=
  BitVec.toNat_setWidth_of_le (Nat.le_add_left w w)

lemma two_le_two_pow [NeZero w] : 2 ≤ 2 ^ w :=
  Nat.le_self_pow (NeZero.ne w) 2

@[simp]
lemma length_addWords (carry : BitVec (w + w)) (lefts rights : List (BitVec w)) :
    (addWords carry lefts rights).1.length = min lefts.length rights.length := by
  induction lefts generalizing carry rights with
  | nil => simp [addWords]
  | cons left lefts ih =>
    cases rights with
    | nil => simp [addWords]
    | cons right rights => simp [addWords, ih]

variable {carry borrow : BitVec (w + w)} {lefts rights : List (BitVec w)}

lemma addStep [NeZero w] (small : carry.toNat ≤ 1) (left right : BitVec w) :
    (left.setWidth (w + w) + right.setWidth (w + w) + carry).toNat =
      left.toNat + right.toNat + carry.toNat := by
  have two := two_le_two_pow (w := w)
  have leftSmall := left.isLt
  have rightSmall := right.isLt
  have room : 2 * 2 ^ w ≤ 2 ^ (w + w) := by
    rw [Nat.pow_add]
    exact Nat.mul_le_mul_right _ two
  rw [BitVec.toNat_add, BitVec.toNat_add, toNat_widen, toNat_widen,
    Nat.mod_eq_of_lt (by omega : left.toNat + right.toNat < 2 ^ (w + w)),
    Nat.mod_eq_of_lt (by omega)]

lemma valueOf_addWords [NeZero w] (small : carry.toNat ≤ 1)
    (lengths : lefts.length = rights.length) :
    valueOf (addWords carry lefts rights).1 +
        2 ^ (w * lefts.length) * (addWords carry lefts rights).2.toNat =
      valueOf lefts + valueOf rights + carry.toNat ∧
    (addWords carry lefts rights).2.toNat ≤ 1 := by
  induction lefts generalizing carry rights with
  | nil =>
    cases rights with
    | nil => simpa [addWords, valueOf] using small
    | cons right rights => cases lengths
  | cons left lefts ih =>
    obtain _ | ⟨right, rights⟩ := rights
    · cases lengths
    have total := addStep small left right
    have parts := low_add_high (left.setWidth (w + w) + right.setWidth (w + w) + carry)
    simp only [addWords, valueOf, length_cons]
    generalize left.setWidth (w + w) + right.setWidth (w + w) + carry = sum at total parts ⊢
    have nextSmall : (sum >>> w).toNat ≤ 1 := by
      have leftSmall := left.isLt
      have rightSmall := right.isLt
      rw [total] at parts
      by_contra big
      have : 2 ^ w * 2 ≤ 2 ^ w * (sum >>> w).toNat := Nat.mul_le_mul_left _ (by omega)
      omega
    obtain ⟨value, last⟩ := ih nextSmall (Nat.succ.inj lengths)
    refine ⟨?_, last⟩
    calc _ = (sum.setWidth w).toNat + 2 ^ w * (valueOf (addWords (sum >>> w) lefts rights).1 +
          2 ^ (w * lefts.length) * (addWords (sum >>> w) lefts rights).2.toNat) := by
          rw [Nat.mul_succ, Nat.pow_add]
          ring
      _ = (sum.setWidth w).toNat + 2 ^ w * (sum >>> w).toNat +
          2 ^ w * (valueOf lefts + valueOf rights) := by
          rw [value]
          ring
      _ = _ := by
          rw [parts, total]
          ring

/-! ## Subtraction -/

/-- Subtract two lists of words, with a borrow that comes in and one that goes out. -/
def subWords (borrow : BitVec (w + w)) :
    List (BitVec w) → List (BitVec w) → List (BitVec w) × BitVec (w + w)
  | left :: lefts, right :: rights =>
    let difference := left.setWidth (w + w) - right.setWidth (w + w) - borrow
    let rest := subWords ((difference >>> w) &&& 1) lefts rights
    (difference.setWidth w :: rest.1, rest.2)
  | _, _ => ([], borrow)

@[simp]
lemma length_subWords (borrow : BitVec (w + w)) (lefts rights : List (BitVec w)) :
    (subWords borrow lefts rights).1.length = min lefts.length rights.length := by
  induction lefts generalizing borrow rights with
  | nil => simp [subWords]
  | cons left lefts ih =>
    cases rights with
    | nil => simp [subWords]
    | cons right rights => simp [subWords, ih]

lemma toNat_and_one [NeZero w] (word : BitVec (w + w)) : (word &&& 1).toNat = word.toNat % 2 := by
  have two : 1 < 2 ^ (w + w) := Nat.one_lt_two_pow (by have := NeZero.ne w; omega)
  have one : (1 : BitVec (w + w)).toNat = 1 := by
    rw [BitVec.ofNat_eq_ofNat, BitVec.toNat_ofNat, Nat.mod_eq_of_lt two]
  rw [BitVec.toNat_and, one, Nat.and_one_is_mod]

lemma toNat_difference [NeZero w] (small : borrow.toNat ≤ 1) (left right : BitVec w) :
    (left.setWidth (w + w) - right.setWidth (w + w) - borrow).toNat =
      if right.toNat + borrow.toNat ≤ left.toNat then
        left.toNat - (right.toNat + borrow.toNat)
      else 2 ^ w * (2 ^ w - 1) + (2 ^ w + left.toNat - (right.toNat + borrow.toNat)) := by
  have two := two_le_two_pow (w := w)
  have leftSmall := left.isLt
  have rightSmall := right.isLt
  have square : 2 ^ (w + w) = 2 ^ w * (2 ^ w - 1) + 2 ^ w := by
    rw [Nat.pow_add, Nat.mul_sub, Nat.mul_one]
    have := Nat.mul_le_mul_left (2 ^ w) two
    omega
  rw [BitVec.toNat_sub, BitVec.toNat_sub, toNat_widen, toNat_widen, Nat.add_mod_mod, square]
  generalize 2 ^ w * (2 ^ w - 1) = high at square ⊢
  split
  next fits =>
    have wraps : high + 2 ^ w - borrow.toNat + (high + 2 ^ w - right.toNat + left.toNat) =
        left.toNat - (right.toNat + borrow.toNat) + (high + 2 ^ w) + (high + 2 ^ w) := by omega
    rw [wraps, Nat.add_mod_right, Nat.add_mod_right, Nat.mod_eq_of_lt (by omega)]
  next below =>
    have wraps : high + 2 ^ w - borrow.toNat + (high + 2 ^ w - right.toNat + left.toNat) =
        high + (2 ^ w + left.toNat - (right.toNat + borrow.toNat)) + (high + 2 ^ w) := by omega
    rw [wraps, Nat.add_mod_right, Nat.mod_eq_of_lt (by omega)]

lemma subStep [NeZero w] (small : borrow.toNat ≤ 1) (left right : BitVec w)
    {difference : BitVec (w + w)}
    (eq : difference = left.setWidth (w + w) - right.setWidth (w + w) - borrow) :
    (difference.setWidth w).toNat + (right.toNat + borrow.toNat) =
      left.toNat + 2 ^ w * ((difference >>> w) &&& 1).toNat ∧
    ((difference >>> w) &&& 1).toNat ≤ 1 := by
  have two := two_le_two_pow (w := w)
  have leftSmall := left.isLt
  have rightSmall := right.isLt
  have value := toNat_difference small left right
  rw [← eq] at value
  rw [toNat_and_one, BitVec.toNat_setWidth, BitVec.toNat_ushiftRight, Nat.shiftRight_eq_div_pow]
  split at value
  next fits =>
    have below : difference.toNat < 2 ^ w := by omega
    rw [Nat.mod_eq_of_lt below, Nat.div_eq_of_lt below]
    omega
  next below =>
    have odd : (2 ^ w - 1) % 2 = 1 := by
      obtain ⟨k, rfl⟩ := Nat.exists_eq_succ_of_ne_zero (NeZero.ne w)
      rw [Nat.pow_succ]
      have := Nat.two_pow_pos k
      omega
    have wordSmall : 2 ^ w + left.toNat - (right.toNat + borrow.toNat) < 2 ^ w := by omega
    rw [value, Nat.mul_add_mod, Nat.mod_eq_of_lt wordSmall, Nat.mul_add_div (by omega),
      Nat.div_eq_of_lt wordSmall, Nat.add_zero, odd]
    omega

/-- Subtraction word by word is subtraction of the numbers, up to the borrow that goes out. -/
theorem valueOf_subWords [NeZero w] (small : borrow.toNat ≤ 1)
    (lengths : lefts.length = rights.length) :
    valueOf (subWords borrow lefts rights).1 + (valueOf rights + borrow.toNat) =
      valueOf lefts + 2 ^ (w * lefts.length) * (subWords borrow lefts rights).2.toNat ∧
    (subWords borrow lefts rights).2.toNat ≤ 1 := by
  induction lefts generalizing borrow rights with
  | nil =>
    cases rights with
    | nil => simpa [subWords, valueOf] using small
    | cons right rights => cases lengths
  | cons left lefts ih =>
    obtain _ | ⟨right, rights⟩ := rights
    · cases lengths
    simp only [subWords, valueOf, length_cons]
    obtain ⟨word, nextSmall⟩ := subStep small left right rfl
    generalize left.setWidth (w + w) - right.setWidth (w + w) - borrow = difference
      at word nextSmall ⊢
    obtain ⟨value, last⟩ := ih nextSmall (Nat.succ.inj lengths)
    generalize (difference >>> w) &&& 1 = next at word value last ⊢
    refine ⟨?_, last⟩
    calc _ = (difference.setWidth w).toNat + (right.toNat + borrow.toNat) +
          2 ^ w * (valueOf (subWords next lefts rights).1 + valueOf rights) := by ring
      _ = left.toNat + 2 ^ w * (valueOf (subWords next lefts rights).1 +
          (valueOf rights + next.toNat)) := by
          rw [word]
          ring
      _ = _ := by
          rw [value, Nat.mul_succ, Nat.pow_add]
          ring

/-! ## Multiplication -/

/-- Add the product of a word with a list of words to `target`. The last carry is stored behind it.
-/
def mulRow (factor : BitVec w) (carry : BitVec (w + w)) :
    List (BitVec w) → List (BitVec w) → List (BitVec w)
  | word :: words, old :: target =>
    let product := factor.setWidth (w + w) * word.setWidth (w + w) + old.setWidth (w + w) + carry
    product.setWidth w :: mulRow factor (product >>> w) words target
  | [], _ :: target => carry.setWidth w :: target
  | _, [] => []

/-- Schoolbook multiplication: one row for each word of the first factor, each one word
further up. -/
def mulWords (words : List (BitVec w)) : List (BitVec w) → List (BitVec w) → List (BitVec w)
  | [], target => target
  | factor :: factors, target =>
    match mulRow factor 0 words target with
    | [] => []
    | low :: rest => low :: mulWords words factors rest

@[simp]
lemma length_mulRow (factor : BitVec w) (carry : BitVec (w + w)) (words target : List (BitVec w)) :
    (mulRow factor carry words target).length = target.length := by
  induction target generalizing carry words with
  | nil => cases words <;> rfl
  | cons old target ih =>
    cases words with
    | nil => rfl
    | cons word words => simp [mulRow, ih]

@[simp]
lemma length_mulWords (factors target : List (BitVec w)) :
    (mulWords words factors target).length = target.length := by
  induction factors generalizing target with
  | nil => rfl
  | cons factor factors ih =>
    have rowLength := length_mulRow factor 0 words target
    rw [mulWords]
    cases row : mulRow factor 0 words target with
    | nil => rw [← rowLength, row]
    | cons low rest =>
      rw [row] at rowLength
      simpa [ih] using rowLength

lemma mulStep (small : carry.toNat < 2 ^ w) (factor word old : BitVec w) :
    (factor.setWidth (w + w) * word.setWidth (w + w) + old.setWidth (w + w) + carry).toNat =
      factor.toNat * word.toNat + old.toNat + carry.toNat := by
  have factorSmall : factor.toNat ≤ 2 ^ w - 1 := by have := factor.isLt; omega
  have wordSmall : word.toNat ≤ 2 ^ w - 1 := by have := word.isLt; omega
  have oldSmall := old.isLt
  have products := Nat.mul_le_mul factorSmall wordSmall
  have room : (2 ^ w - 1) * (2 ^ w - 1) + 2 * (2 ^ w - 1) + 1 = 2 ^ (w + w) := by
    obtain ⟨k, eq⟩ : ∃ k, 2 ^ w = k + 1 := ⟨2 ^ w - 1, by have := Nat.two_pow_pos w; omega⟩
    rw [Nat.pow_add, eq, Nat.add_sub_cancel]
    ring
  rw [BitVec.toNat_add, BitVec.toNat_add, BitVec.toNat_mul, toNat_widen, toNat_widen, toNat_widen,
    Nat.mod_eq_of_lt (by omega : factor.toNat * word.toNat < 2 ^ (w + w)),
    Nat.mod_eq_of_lt (by omega : factor.toNat * word.toNat + old.toNat < 2 ^ (w + w)),
    Nat.mod_eq_of_lt (by omega)]

/-- A row adds the product of its factor, if the words behind it are still free. -/
theorem valueOf_mulRow (factor : BitVec w) (small : carry.toNat < 2 ^ w)
    {words target : List (BitVec w)} (room : words.length < target.length)
    (free : valueOf target < 2 ^ (w * words.length)) :
    valueOf (mulRow factor carry words target) =
      valueOf target + factor.toNat * valueOf words + carry.toNat := by
  induction words generalizing carry target with
  | nil =>
    obtain _ | ⟨old, target⟩ := target
    · cases room
    have zero : valueOf (old :: target) = 0 := by simpa using free
    rw [mulRow, zero, valueOf, valueOf, BitVec.toNat_setWidth, Nat.mod_eq_of_lt small]
    rw [valueOf] at zero
    omega
  | cons word words ih =>
    obtain _ | ⟨old, target⟩ := target
    · cases room
    have total := mulStep small factor word old
    have freeAbove : valueOf target < 2 ^ (w * words.length) := by
      rw [valueOf, length_cons, Nat.mul_succ, Nat.pow_add, Nat.mul_comm] at free
      exact Nat.lt_of_mul_lt_mul_right (Nat.lt_of_le_of_lt (Nat.le_add_left _ _) free)
    simp only [mulRow, valueOf]
    generalize factor.setWidth (w + w) * word.setWidth (w + w) + old.setWidth (w + w) + carry
      = product at total ⊢
    rw [ih (toNat_high_lt product) (Nat.lt_of_succ_lt_succ room) freeAbove]
    have parts := low_add_high product
    rw [total] at parts
    calc _ = (product.setWidth w).toNat + 2 ^ w * (product >>> w).toNat +
          2 ^ w * (valueOf target + factor.toNat * valueOf words) := by ring
      _ = _ := by
          rw [parts]
          ring

/-- Multiplication adds the product to the target, if the words above the first row are free. -/
theorem valueOf_mulWords (factors target : List (BitVec w))
    (room : target.length = words.length + factors.length)
    (free : valueOf target < 2 ^ (w * words.length)) :
    valueOf (mulWords words factors target) = valueOf target + valueOf words * valueOf factors := by
  induction factors generalizing target with
  | nil => simp [mulWords, valueOf]
  | cons factor factors ih =>
    have zero : (0#(w + w)).toNat < 2 ^ w := by simp
    have rowLength := length_mulRow factor 0#(w + w) words target
    have rowValue := valueOf_mulRow factor zero (by simp [room]) free
    rw [mulWords]
    cases row : mulRow factor 0#(w + w) words target with
    | nil => simp [row, room] at rowLength
    | cons low rest =>
      rw [row, length_cons, room, length_cons] at rowLength
      rw [row, valueOf, BitVec.toNat_zero, Nat.add_zero] at rowValue
      have restFree : valueOf rest < 2 ^ (w * words.length) := by
        have wordsBound := valueOf_lt words
        have factorSmall : factor.toNat + 1 ≤ 2 ^ w := factor.isLt
        have product := Nat.mul_le_mul factorSmall (Nat.le_refl (2 ^ (w * words.length)))
        have products := Nat.mul_le_mul_left factor.toNat (Nat.le_of_lt wordsBound)
        apply Nat.lt_of_mul_lt_mul_left (a := 2 ^ w)
        linarith
      simp only [valueOf]
      rw [ih rest (by omega) restFree]
      calc _ = low.toNat + 2 ^ w * valueOf rest +
            2 ^ w * (valueOf words * valueOf factors) := by
            ring
        _ = _ := by
            rw [rowValue]
            ring

/-! ## Comparison -/

/-- Compare two lists of words given from the top word down. -/
def compareDown : List (BitVec w) → List (BitVec w) → Ordering
  | left :: lefts, right :: rights =>
    if right < left then .gt else if left < right then .lt else compareDown lefts rights
  | _, _ => .eq

lemma valueOf_reverse_cons : valueOf (word :: words).reverse =
      valueOf words.reverse + 2 ^ (w * words.length) * word.toNat := by
  rw [reverse_cons, valueOf_append, length_reverse, valueOf, valueOf, Nat.mul_zero, Nat.add_zero]

/-- Comparison from the top word down compares the numbers. -/
theorem compareDown_eq (lengths : lefts.length = rights.length) :
    compareDown lefts rights = compare (valueOf lefts.reverse) (valueOf rights.reverse) := by
  induction lefts generalizing rights with
  | nil =>
    cases rights with
    | nil => rfl
    | cons right rights => cases lengths
  | cons left lefts ih =>
    obtain _ | ⟨right, rights⟩ := rights
    · cases lengths
    have sameLength : lefts.length = rights.length := Nat.succ.inj lengths
    have leftBound := valueOf_lt lefts.reverse
    have rightBound := valueOf_lt rights.reverse
    rw [length_reverse] at leftBound rightBound
    rw [compareDown, ih sameLength, valueOf_reverse_cons, valueOf_reverse_cons, ← sameLength]
    rw [← sameLength] at rightBound
    generalize 2 ^ (w * lefts.length) = high at leftBound rightBound ⊢
    split
    next greater =>
      have step := Nat.mul_le_mul_left high (BitVec.lt_def.mp greater)
      rw [Nat.mul_succ] at step
      exact (Nat.compare_eq_gt.mpr (by omega)).symm
    next notGreater =>
      split
      next less =>
        have step := Nat.mul_le_mul_left high (BitVec.lt_def.mp less)
        rw [Nat.mul_succ] at step
        exact (Nat.compare_eq_lt.mpr (by omega)).symm
      next notLess =>
        have same : left.toNat = right.toNat := by
          simp only [BitVec.lt_def] at notGreater notLess
          omega
        rw [same]
        rcases Nat.lt_trichotomy (valueOf lefts.reverse) (valueOf rights.reverse)
          with less | equal | greater
        · rw [Nat.compare_eq_lt.mpr less, Nat.compare_eq_lt.mpr (by omega)]
        · rw [equal]
          simp
        · rw [Nat.compare_eq_gt.mpr greater, Nat.compare_eq_gt.mpr (by omega)]

/-! ## The highest set bit -/

/-- One more than the place of the highest set bit, found by shifting the word up; `bit` counts down
from the width. -/
def topBit (word : BitVec w) : Nat → Nat
  | 0 => 0
  | bit + 1 => if word.msb then bit + 1 else topBit (word <<< 1) bit

lemma topBit_shifted {x bit : Nat} (fits : x < 2 ^ bit) (inside : bit ≤ w) :
    topBit (BitVec.ofNat w (x * 2 ^ (w - bit))) bit = x.size := by
  induction bit generalizing x with
  | zero =>
    obtain rfl : x = 0 := by simpa using fits
    rfl
  | succ bit ih =>
    have place : 2 ^ (w - bit) = 2 * 2 ^ (w - (bit + 1)) := by
      rw [← Nat.pow_succ', Nat.succ_eq_add_one]
      congr 1
      omega
    have top : 2 ^ (w - 1) = 2 ^ bit * 2 ^ (w - (bit + 1)) := by
      rw [← Nat.pow_add]
      congr 1
      omega
    have room : x * 2 ^ (w - (bit + 1)) < 2 ^ w := by
      have whole : 2 ^ w = 2 ^ (bit + 1) * 2 ^ (w - (bit + 1)) := by
        rw [← Nat.pow_add]
        congr 1
        omega
      rw [whole]
      exact Nat.mul_lt_mul_of_pos_right fits (Nat.two_pow_pos _)
    have highest : (BitVec.ofNat w (x * 2 ^ (w - (bit + 1)))).msb = decide (2 ^ bit ≤ x) := by
      rw [BitVec.msb_eq_decide, BitVec.toNat_ofNat, Nat.mod_eq_of_lt room, top]
      exact decide_eq_decide.mpr
        ⟨fun le => Nat.le_of_mul_le_mul_right le (Nat.two_pow_pos _), Nat.mul_le_mul_right _⟩
    rw [topBit, highest]
    by_cases high : 2 ^ bit ≤ x
    · rw [if_pos (decide_eq_true high)]
      exact Nat.le_antisymm (Nat.lt_size.mpr high) (Nat.size_le.mpr fits)
    have shifted : BitVec.ofNat w (x * 2 ^ (w - (bit + 1))) <<< 1 =
        BitVec.ofNat w (x * 2 ^ (w - bit)) := by
      apply BitVec.eq_of_toNat_eq
      rw [BitVec.toNat_shiftLeft, BitVec.toNat_ofNat, BitVec.toNat_ofNat,
        Nat.mod_eq_of_lt room, Nat.shiftLeft_eq, place]
      congr 1
      ring
    rw [if_neg (by simpa using high), shifted]
    exact ih (Nat.lt_of_not_le high) (by omega)

lemma topBit_eq : topBit word w = word.toNat.size := by
  have shifted := topBit_shifted word.isLt (Nat.le_refl w)
  rwa [Nat.sub_self, Nat.pow_zero, Nat.mul_one, BitVec.ofNat_toNat, BitVec.setWidth_eq] at shifted

/-- The number of bits of a number given from the top word down. -/
def bitsDown : List (BitVec w) → Nat
  | [] => 0
  | word :: words => if word ≠ 0 then words.length * w + topBit word w else bitsDown words

lemma bitsDown_eq : bitsDown words = (valueOf words.reverse).size := by
  induction words with
  | nil => rfl
  | cons word words ih =>
    have lowSmall := valueOf_lt words.reverse
    rw [length_reverse] at lowSmall
    rw [bitsDown, valueOf_reverse_cons, topBit_eq, ih]
    split
    next nonzero =>
      have positive : 0 < word.toNat.size := by
        refine Nat.size_pos.mpr (Nat.pos_of_ne_zero fun zero => nonzero ?_)
        exact BitVec.eq_of_toNat_eq zero
      apply Nat.le_antisymm
      · have top : 2 ^ (word.toNat.size - 1) ≤ word.toNat := Nat.lt_size.mp (by omega)
        have reached : words.length * w + (word.toNat.size - 1) <
            (valueOf words.reverse + 2 ^ (w * words.length) * word.toNat).size := by
          rw [Nat.lt_size, Nat.pow_add, Nat.mul_comm words.length]
          exact (Nat.mul_le_mul_left _ top).trans (Nat.le_add_left _ _)
        omega
      · rw [Nat.size_le, Nat.pow_add, Nat.mul_comm words.length]
        have room := Nat.mul_le_mul_left (2 ^ (w * words.length)) (Nat.lt_size_self word.toNat)
        rw [Nat.mul_succ] at room
        omega
    next zero =>
      have zero : word = 0 := not_not.mp zero
      rw [zero]
      simp

/-! ## Differences that are collected -/

section Collected

variable {α : Type} {zero : α} {op : α → α → α} {first second : List α}

lemma foldl_eq_zero_iff (collects : ∀ x y, op x y = zero ↔ x = zero ∧ y = zero) (start : α)
    (items : List α) : items.foldl op start = zero ↔ start = zero ∧ ∀ item ∈ items, item = zero := by
  induction items generalizing start with
  | nil => simp
  | cons item items ih => rw [foldl_cons, ih, collects, forall_mem_cons, and_assoc]

lemma foldl_zipWith_eq_zero_iff {difference : α → α → α}
    (collects : ∀ x y, op x y = zero ↔ x = zero ∧ y = zero)
    (differs : ∀ x y, difference x y = zero ↔ x = y) (lengths : first.length = second.length) :
    (zipWith difference first second).foldl op zero = zero ↔ first = second := by
  rw [foldl_eq_zero_iff collects, and_iff_right rfl]
  induction first generalizing second with
  | nil => simp [length_eq_zero_iff.mp lengths.symm]
  | cons x xs ih =>
    obtain _ | ⟨y, ys⟩ := second
    · cases lengths
    · rw [zipWith_cons_cons, forall_mem_cons, ih (Nat.succ.inj lengths), differs, cons.injEq]

end Collected

/-! ## Arrays of words -/

/-- An array of `n` words of `w` bits, least significant first. -/
@[ext]
structure Limbs (w n : Nat) where
  /-- The words from the least significant one up. -/
  words : List (BitVec w)
  /-- The array has its fixed size. -/
  size : words.length = n
  deriving DecidableEq

namespace Limbs

attribute [simp] Limbs.size

/-- The number that an array denotes. -/
def value (a : Limbs w n) : Nat := valueOf a.words

/-- The word at an index, and zero beyond the array. -/
def get (a : Limbs w n) (i : Nat) : BitVec w := a.words.getD i 0

/-- The array with the given words. -/
def ofFn (f : Nat → BitVec w) : Limbs w n := ⟨(range n).map f, by simp⟩

/-- The array of zeros. -/
def zero : Limbs w n := ⟨replicate n 0, by simp⟩

/-- The words of a number. -/
def ofNat (x : Nat) : Limbs w n := ofFn fun i => BitVec.ofNat w (x / 2 ^ (w * i))

lemma value_lt (a : Limbs w n) : a.value < 2 ^ (w * n) := by
  have bound := valueOf_lt a.words
  rwa [a.size] at bound

variable {a b : Limbs w n} {i : Nat}

/-- An array is determined by the number that it denotes. -/
theorem value_inj : a.value = b.value ↔ a = b :=
  ⟨fun values => Limbs.ext (valueOf_inj (a.size.trans b.size.symm) values), fun eq => eq ▸ rfl⟩

@[simp]
lemma value_zero : (zero : Limbs w n).value = 0 :=
  valueOf_replicate_zero n

lemma get_ofFn (f : Nat → BitVec w) (i : Nat) :
    (ofFn f : Limbs w n).get i = if i < n then f i else 0 := by
  rw [get, ofFn]
  split
  next inside => simp [inside]
  next beyond => simp [beyond]

lemma get_of_le (a : Limbs w n) (beyond : n ≤ i) : a.get i = 0 := by
  rw [get, getD_eq_getElem?_getD, getElem?_eq_none (by simpa using beyond), Option.getD_none]

lemma testBit_value [NeZero w] (a : Limbs w n) (k : Nat) :
    a.value.testBit k = (a.get (k / w)).getLsbD (k % w) :=
  testBit_valueOf a.words k

lemma getLsbD_get [NeZero w] (a : Limbs w n) {j : Nat} (inside : j < w) :
    (a.get i).getLsbD j = a.value.testBit (w * i + j) := by
  have positive : 0 < w := Nat.pos_of_neZero w
  rw [testBit_value, Nat.mul_add_div positive, Nat.div_eq_of_lt inside, Nat.mul_add_mod,
    Nat.mod_eq_of_lt inside, Nat.add_zero]

lemma value_eq_of_testBit [NeZero w] {x : Nat} (fits : x < 2 ^ (w * n))
    (same : ∀ i < n, ∀ j < w, (a.get i).getLsbD j = x.testBit (w * i + j)) : a.value = x := by
  have positive : 0 < w := Nat.pos_of_neZero w
  apply Nat.eq_of_testBit_eq
  intro k
  by_cases inside : k / w < n
  · rw [testBit_value, same _ inside _ (Nat.mod_lt k positive), Nat.div_add_mod]
  have above : w * n ≤ k :=
    (Nat.mul_le_mul_left w (Nat.le_of_not_lt inside)).trans (Nat.mul_div_le k w)
  have power : 2 ^ (w * n) ≤ 2 ^ k := Nat.pow_le_pow_right (by decide) above
  rw [Nat.testBit_lt_two_pow (a.value_lt.trans_le power),
    Nat.testBit_lt_two_pow (fits.trans_le power)]

lemma get_eq_zero_of_lt [NeZero w] (below : a.value < 2 ^ (w * i)) : a.get i = 0 := by
  apply BitVec.eq_of_getLsbD_eq
  intro j small
  have power : 2 ^ (w * i) ≤ 2 ^ (w * i + j) :=
    Nat.pow_le_pow_right (by decide) (Nat.le_add_right _ _)
  rw [getLsbD_get a small, Nat.testBit_lt_two_pow (below.trans_le power)]
  simp

lemma valueOf_take_succ (a : Limbs w n) (inside : i < n) : valueOf (a.words.take (i + 1)) =
      valueOf (a.words.take i) + (a.get i).toNat * 2 ^ (w * i) := by
  have present : i < a.words.length := by simpa using inside
  have length : (a.words.take i).length = i := by simp [Nat.le_of_lt inside]
  have word : a.get i = a.words.get ⟨i, present⟩ := by
    rw [get, getD_eq_getElem?_getD, getElem?_eq_getElem present]
    rfl
  rw [take_succ_eq_append_getElem present, valueOf_append, length, word, valueOf, valueOf,
    Nat.mul_zero, Nat.add_zero, Nat.mul_comm]
  rfl

lemma value_ofNat [NeZero w] {x : Nat} (fits : x < 2 ^ (w * n)) :
    (ofNat x : Limbs w n).value = x := by
  refine value_eq_of_testBit fits fun i inside j small => ?_
  rw [ofNat, get_ofFn, if_pos inside, BitVec.getLsbD_ofNat, Nat.testBit_div_two_pow]
  simp [small, Nat.add_comm]

/-- The sum of two arrays and the carry out of it. -/
def add (a b : Limbs w n) : Limbs w n × BitVec (w + w) :=
  let sum := addWords 0 a.words b.words
  (⟨sum.1, by simp [sum]⟩, sum.2)

/-- The difference of two arrays and the borrow out of it. -/
def sub (a b : Limbs w n) : Limbs w n × BitVec (w + w) :=
  let difference := subWords 0 a.words b.words
  (⟨difference.1, by simp [difference]⟩, difference.2)

/-- The product of two arrays. -/
def mul (a b : Limbs w n) : Limbs w (n + n) :=
  ⟨mulWords b.words a.words (replicate (n + n) 0), by simp⟩

/-- The lower half of an array. -/
def low (a : Limbs w (n + n)) : Limbs w n := ⟨a.words.take n, by simp⟩

/-- An array with one more word at the top. -/
def push (a : Limbs w n) (top : BitVec w) : Limbs w (n + 1) := ⟨a.words ++ [top], by simp⟩

/-- An array without its top word. -/
def pop (a : Limbs w (n + 1)) : Limbs w n := ⟨a.words.take n, by simp⟩

/-- Comparison from the top word down. -/
def cmp (a b : Limbs w n) : Ordering := compareDown a.words.reverse b.words.reverse

/-- Whether every word is zero, found by collecting the bits of all of them. -/
def isZero (a : Limbs w n) : Bool := a.words.foldl (fun acc word => acc ||| word) 0 == 0

/-- Whether two arrays are the same, found by collecting the differences of all words. -/
def same (a b : Limbs w n) : Bool :=
  (zipWith (fun x y => x ^^^ y) a.words b.words).foldl (fun acc word => acc ||| word) 0 == 0

/-- The number of bits up to the highest one set. -/
def bits (a : Limbs w n) : Nat := bitsDown a.words.reverse

lemma value_add [NeZero w] (a b : Limbs w n) :
    (a.add b).1.value + 2 ^ (w * n) * (a.add b).2.toNat = a.value + b.value := by
  have none : (0#(w + w)).toNat ≤ 1 := by simp
  have sum := (valueOf_addWords none (a.size.trans b.size.symm)).1
  rwa [a.size, BitVec.toNat_zero] at sum

lemma value_sub [NeZero w] (a b : Limbs w n) :
    (a.sub b).1.value + b.value = a.value + 2 ^ (w * n) * (a.sub b).2.toNat := by
  have none : (0#(w + w)).toNat ≤ 1 := by simp
  have difference := (valueOf_subWords none (a.size.trans b.size.symm)).1
  rwa [a.size, BitVec.toNat_zero] at difference

lemma borrow_le_one [NeZero w] (a b : Limbs w n) : (a.sub b).2.toNat ≤ 1 := by
  have none : (0#(w + w)).toNat ≤ 1 := by simp
  exact (valueOf_subWords none (a.size.trans b.size.symm)).2

/-- The sum wraps at the size of the array, and the carry tells how often. -/
theorem add_eq [NeZero w] (a b : Limbs w n) :
    (a.add b).1.value = (a.value + b.value) % 2 ^ (w * n) ∧
      (a.add b).2.toNat = (a.value + b.value) / 2 ^ (w * n) := by
  have positive : 0 < 2 ^ (w * n) := Nat.two_pow_pos _
  have small := (a.add b).1.value_lt
  rw [← value_add a b]
  exact ⟨by rw [Nat.add_mul_mod_self_left, Nat.mod_eq_of_lt small],
    by rw [Nat.add_mul_div_left _ _ positive, Nat.div_eq_of_lt small, Nat.zero_add]⟩

lemma sub_of_le [NeZero w] (le : b.value ≤ a.value) :
    (a.sub b).1.value = a.value - b.value ∧ (a.sub b).2.toNat = 0 := by
  have difference := value_sub a b
  have bound := (a.sub b).1.value_lt
  rcases Nat.le_one_iff_eq_zero_or_eq_one.mp (borrow_le_one a b) with none | one
  · rw [none] at difference
    exact ⟨by omega, none⟩
  · rw [one] at difference
    omega

lemma sub_of_lt [NeZero w] (less : a.value < b.value) :
    (a.sub b).1.value = a.value + 2 ^ (w * n) - b.value ∧ (a.sub b).2.toNat = 1 := by
  have difference := value_sub a b
  rcases Nat.le_one_iff_eq_zero_or_eq_one.mp (borrow_le_one a b) with none | one
  · rw [none] at difference
    omega
  · rw [one] at difference
    exact ⟨by omega, one⟩

lemma value_mul (a b : Limbs w n) : (a.mul b).value = a.value * b.value := by
  have product := valueOf_mulWords b.words a.words (replicate (n + n) 0#w) (by simp)
    (by rw [valueOf_replicate_zero]; exact Nat.two_pow_pos _)
  rw [valueOf_replicate_zero, Nat.zero_add, Nat.mul_comm] at product
  exact product

lemma value_low (a : Limbs w (n + n)) : a.low.value = a.value % 2 ^ (w * n) :=
  valueOf_take (by simp)

lemma value_push (a : Limbs w n) (top : BitVec w) :
    (a.push top).value = a.value + 2 ^ (w * n) * top.toNat := by
  rw [value, push, valueOf_append, a.size, valueOf, valueOf, Nat.mul_zero, Nat.add_zero, value]

lemma value_pop (a : Limbs w (n + 1)) : a.pop.value = a.value % 2 ^ (w * n) :=
  valueOf_take (by simp)

lemma cmp_eq (a b : Limbs w n) : a.cmp b = compare a.value b.value := by
  have lengths : a.words.reverse.length = b.words.reverse.length := by simp [a.size, b.size]
  have order := compareDown_eq lengths
  rwa [reverse_reverse, reverse_reverse] at order

lemma valueOf_eq_zero_iff (words : List (BitVec w)) :
    valueOf words = 0 ↔ ∀ word ∈ words, word = 0 := by
  induction words with
  | nil => simp [valueOf]
  | cons word words ih =>
    rw [valueOf, forall_mem_cons, ← ih, Nat.add_eq_zero_iff, Nat.mul_eq_zero,
      BitVec.toNat_eq, BitVec.ofNat_eq_ofNat, BitVec.toNat_zero]
    simp

lemma isZero_iff (a : Limbs w n) : a.isZero = true ↔ a.value = 0 := by
  rw [isZero, beq_iff_eq, value, valueOf_eq_zero_iff]
  exact (foldl_eq_zero_iff (fun _ _ => BitVec.or_eq_zero_iff) 0 a.words).trans (and_iff_right rfl)

lemma same_iff (a b : Limbs w n) : a.same b = true ↔ a = b := by
  rw [same, beq_iff_eq, Limbs.ext_iff]
  exact foldl_zipWith_eq_zero_iff (fun _ _ => BitVec.or_eq_zero_iff)
    (fun _ _ => BitVec.xor_eq_zero_iff) (a.size.trans b.size.symm)

lemma bits_eq (a : Limbs w n) : a.bits = a.value.size := by
  rw [bits, bitsDown_eq, reverse_reverse, value]

end Limbs

end CupidOs.Words
