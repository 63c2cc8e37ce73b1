import Mathlib.Data.List.Basic

/-!
# Output that is made block by block

Key derivation and mask generation produce blocks of a fixed size until they have
enough bytes and cut the last one.  `blocks` is the specification; `blocks_step`
is one round of a loop that produces it.
-/

namespace CupidOs.Bytes

open List

/-- The first `length` bytes of a sequence of blocks of `size` bytes. -/
def blocks (size : Nat) (block : Nat → List UInt8) (length : Nat) : List UInt8 :=
  ((range ((length + size - 1) / size)).flatMap block).take length

variable {block : Nat → List UInt8}

lemma length_flatMap_range {size : Nat}
    (sized : ∀ index, (block index).length = size) (count : Nat) :
    ((range count).flatMap block).length = count * size := by
  induction count with
  | zero => simp
  | succ count ih =>
    rw [range_succ, flatMap_append, length_append, ih, Nat.succ_mul]
    simp [sized]

lemma length_blocks {size : Nat} (positive : 0 < size)
    (sized : ∀ index, (block index).length = size) (length : Nat) :
    (blocks size block length).length = length := by
  rw [blocks, length_take, length_flatMap_range sized]
  apply Nat.min_eq_left
  have bound : length + size - 1 < (length + size - 1) / size * size + size :=
    Nat.lt_div_mul_add positive
  omega

@[simp]
lemma blocks_zero (size : Nat) (block : Nat → List UInt8) : blocks size block 0 = [] := by
  simp [blocks]

/-- A round takes from the first block what it needs and goes on with the others. -/
theorem blocks_step {size length : Nat} (positive : 0 < size) (wanted : 0 < length)
    (sized : ∀ index, (block index).length = size) :
    blocks size block length = (block 0).take (min length size) ++
        blocks size (fun index => block (index + 1)) (length - min length size) := by
  rcases Nat.le_total length size with last | later
  · have one : (length + size - 1) / size = 1 :=
      Nat.div_eq_of_lt_le (by omega) (by omega)
    simp [blocks, one, Nat.min_eq_left last]
  have count : (length + size - 1) / size = (length - size + size - 1) / size + 1 := by
    rw [← Nat.add_div_right _ positive]
    congr 1
    omega
  rw [Nat.min_eq_right later, blocks, blocks, count, range_succ_eq_map,
    flatMap_cons, flatMap_map, take_append, sized 0,
    take_of_length_le (show (block 0).length ≤ length by rw [sized]; exact later),
    take_of_length_le (show (block 0).length ≤ size from Nat.le_of_eq (sized 0))]

end CupidOs.Bytes
