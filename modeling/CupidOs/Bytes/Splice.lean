import Mathlib.Data.List.Basic

/-!
# Writing into a growable array

`splice` is the effect of writing a block of values at a position of an array:
the array is first extended with a fill value up to that position, and it grows
when the block reaches past its end.
-/

namespace CupidOs.Bytes

open List

universe u

variable {α : Type u}

/-- `content` with `block` written at `position`, a gap past the end filled by `fill`. -/
def splice (fill : α) (content : List α) (position : Nat) (block : List α) : List α :=
  content.take position ++ replicate (position - content.length) fill ++ block ++
    content.drop (position + block.length)

@[simp]
lemma length_splice (fill : α) (content : List α) (position : Nat) (block : List α) :
    (splice fill content position block).length = max content.length (position + block.length) := by
  simp only [splice, length_append, length_take, length_replicate, length_drop]
  omega

lemma getElem?_splice (fill : α) (content : List α) (position : Nat) (block : List α)
    (index : Nat) :
    (splice fill content position block)[index]? =
      if index < position then
        if index < content.length then content[index]? else some fill
      else if index < position + block.length then
        block[index - position]?
      else
        content[index]? := by
  have takeLength : (content.take position).length = min position content.length :=
    length_take
  by_cases before : index < position
  · rw [if_pos before, splice, append_assoc, append_assoc]
    by_cases inside : index < content.length
    · rw [if_pos inside, getElem?_append_left (by omega), getElem?_take_of_lt before]
    rw [if_neg inside, getElem?_append_right (by omega),
      getElem?_append_left (by rw [length_replicate]; omega),
      getElem?_replicate_of_lt (by omega)]
  · rw [if_neg before]
    have prefixLength : (content.take position ++
        replicate (position - content.length) fill).length = position := by
      rw [length_append, length_replicate]
      omega
    by_cases written : index < position + block.length
    · rw [if_pos written, splice, append_assoc, getElem?_append_right (by omega),
        prefixLength, getElem?_append_left (by omega)]
    rw [if_neg written, splice, getElem?_append_right (by
      rw [length_append, prefixLength]; omega), length_append, prefixLength,
      getElem?_drop]
    congr 1
    omega

/-- A write inside a padded buffer writes the contents and keeps the rest of the padding. -/
theorem splice_append_replicate (fill : α) (content : List α) (padding position : Nat)
    (block : List α) (room : position + block.length ≤ content.length + padding) :
    splice fill (content ++ replicate padding fill) position block =
      splice fill content position block ++ replicate (content.length + padding -
          max content.length (position + block.length)) fill := by
  apply ext_getElem?
  intro index
  simp only [getElem?_splice, getElem?_append, length_splice, length_append,
    length_replicate, getElem?_replicate]
  by_cases before : index < position
  · have reached : index < max content.length (position + block.length) := by omega
    by_cases inside : index < content.length
    · have bound : index < content.length + padding := by omega
      simp [before, inside, bound, reached]
    have bound : index < content.length + padding := by omega
    have padded : index - content.length < padding := by omega
    simp [before, inside, bound, padded, reached]
  · by_cases written : index < position + block.length
    · have reached : index < max content.length (position + block.length) := by omega
      simp [before, written, reached]
    · by_cases inside : index < content.length
      · have reached : index < max content.length (position + block.length) := by omega
        simp [before, written, inside, reached]
      · have beyond : ¬ index < max content.length (position + block.length) := by omega
        have padded : index - content.length < padding ↔
            index - max content.length (position + block.length) <
              content.length + padding - max content.length (position + block.length) := by
          omega
        simp only [before, written, inside, beyond, padded, if_false]

end CupidOs.Bytes
