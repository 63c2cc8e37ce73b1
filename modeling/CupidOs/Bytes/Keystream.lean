import Mathlib.Data.List.Basic

/-!
# Stream ciphers that work in blocks

A block cipher as a stream cipher: each block of the input is combined with the key block of a
counter that advances. Applying the cipher twice from one counter gives the input back.
-/

namespace CupidOs.Bytes

open List

variable {σ : Type}

/-- The exclusive or of two byte strings, as long as the shorter one. -/
def xorBytes (first second : List UInt8) : List UInt8 :=
  zipWith (fun x y => x ^^^ y) first second

lemma xorBytes_xorBytes {data key : List UInt8} (covered : data.length ≤ key.length) :
    xorBytes (xorBytes data key) key = data := by
  induction data generalizing key with
  | nil => rfl
  | cons x xs ih =>
    cases key with
    | nil => simp at covered
    | cons y ys =>
      have shorter : xs.length ≤ ys.length := Nat.succ_le_succ_iff.mp covered
      have restored : x ^^^ y ^^^ y = x := by
        rw [UInt8.xor_assoc, UInt8.xor_self, UInt8.xor_zero]
      show (x ^^^ y ^^^ y) :: xorBytes (xorBytes xs ys) ys = x :: xs
      rw [restored, ih shorter]

lemma xorBytes_comm (first second : List UInt8) : xorBytes first second = xorBytes second first :=
  zipWith_comm_of_comm UInt8.xor_comm

/-- A key is recovered by combining it twice with the same data. -/
theorem xorBytes_left_inj {data first second : List UInt8}
    (firstCovered : first.length ≤ data.length)
    (secondCovered : second.length ≤ data.length)
    (same : xorBytes data first = xorBytes data second) : first = second := by
  rw [← xorBytes_xorBytes firstCovered, xorBytes_comm first, same, xorBytes_comm data,
    xorBytes_xorBytes secondCovered]

@[simp]
lemma length_xorBytes (first second : List UInt8) :
    (xorBytes first second).length = min first.length second.length :=
  length_zipWith

/-- Combine the input with the key blocks of a counter, `size` bytes at a time. -/
def xorBlocks (size : Nat) (block : σ → List UInt8) (next : σ → σ) (counter : σ)
    (input : List UInt8) : List UInt8 :=
  if 0 < size ∧ 0 < input.length then
    xorBytes (input.take size) (block counter) ++
      xorBlocks size block next (next counter) (input.drop size)
  else
    []
termination_by input.length
decreasing_by
  rw [length_drop]
  omega

section

variable {size : Nat} {block : σ → List UInt8} {next : σ → σ} (positive : 0 < size)
  (sized : ∀ counter, (block counter).length = size)
include positive sized

/-- The inputs of one length are combined with one key stream. -/
theorem exists_keystream (length : Nat) (counter : σ) :
    ∃ stream : List UInt8, length ≤ stream.length ∧ ∀ input : List UInt8, input.length = length →
      xorBlocks size block next counter input = xorBytes input stream := by
  induction length using Nat.strongRecOn generalizing counter with
  | ind length ih =>
    rcases Nat.eq_zero_or_pos length with rfl | nonempty
    · refine ⟨[], Nat.le_refl 0, fun input empty => ?_⟩
      rw [length_eq_zero_iff.mp empty, xorBlocks, if_neg (by simp)]
      rfl
    obtain ⟨stream, covered, combined⟩ := ih (length - size) (by omega) (next counter)
    refine ⟨block counter ++ stream, by rw [length_append, sized]; omega, ?_⟩
    rintro input rfl
    rw [xorBlocks, if_pos ⟨positive, nonempty⟩, combined _ length_drop,
      ← take_append_drop size (xorBytes input _), xorBytes, xorBytes, xorBytes, take_zipWith,
      drop_zipWith, take_left' (sized counter), drop_left' (sized counter)]

lemma length_xorBlocks (counter : σ) (input : List UInt8) :
    (xorBlocks size block next counter input).length = input.length := by
  obtain ⟨stream, covered, combined⟩ := exists_keystream positive sized input.length counter
  rw [combined input rfl, length_xorBytes, Nat.min_eq_left covered]

lemma xorBlocks_xorBlocks (counter : σ) (input : List UInt8) :
    xorBlocks size block next counter (xorBlocks size block next counter input) = input := by
  obtain ⟨stream, covered, combined⟩ := exists_keystream positive sized input.length counter
  rw [combined _ (length_xorBlocks positive sized counter input), combined input rfl,
    xorBytes_xorBytes covered]

end

end CupidOs.Bytes
