import Mathlib.Data.List.Basic

/-!
# Buffers that are filled from the front

A writer is a buffer of a fixed capacity together with what was put into it so far.
A value that does not fit is not written: the result is `none` where a program that
does not look would leave its buffer.
-/

namespace CupidOs.Bytes

/-- The filled part of a buffer. -/
structure Writer (cap : Nat) where
  bytes : List UInt8
  fits : bytes.length ≤ cap

namespace Writer

variable {cap : Nat}

/-- A buffer with nothing in it. -/
def empty (cap : Nat) : Writer cap := ⟨[], Nat.zero_le cap⟩

variable (out : Writer cap)

/-- Write behind what is there. -/
def put (data : List UInt8) : Option (Writer cap) :=
  if fits : (out.bytes ++ data).length ≤ cap then some ⟨out.bytes ++ data, fits⟩ else none

/-- Take the last byte back. -/
def back : Writer cap :=
  ⟨out.bytes.dropLast, by
    rw [List.length_dropLast]
    exact Nat.le_trans (Nat.sub_le _ _) out.fits⟩

@[simp]
lemma bytes_empty : (empty cap).bytes = [] :=
  rfl

lemma put_bind_put (first second : List UInt8) :
    ((out.put first).bind fun later => later.put second) = out.put (first ++ second) := by
  unfold put
  by_cases whole : (out.bytes ++ (first ++ second)).length ≤ cap
  · have part : (out.bytes ++ first).length ≤ cap := by
      simp only [List.length_append] at whole ⊢
      omega
    simp only [dif_pos part, dif_pos whole, Option.bind_some, List.append_assoc]
  · rw [dif_neg whole]
    by_cases part : (out.bytes ++ first).length ≤ cap
    · have rest : ¬ (out.bytes ++ first ++ second).length ≤ cap := by
        rw [List.append_assoc]
        exact whole
      simp only [dif_pos part, Option.bind_some, dif_neg rest]
    · simp only [dif_neg part, Option.bind_none]

lemma exists_put (data : List UInt8)
    (room : out.bytes.length + data.length ≤ cap) :
    ∃ later, out.put data = some later ∧ later.bytes = out.bytes ++ data := by
  have fits : (out.bytes ++ data).length ≤ cap := by rwa [List.length_append]
  exact ⟨⟨out.bytes ++ data, fits⟩, dif_pos fits, rfl⟩

lemma exists_put_empty {data : List UInt8} (room : data.length ≤ cap) :
    ∃ out, (empty cap).put data = some out ∧ out.bytes = data :=
  exists_put (empty cap) data (by rwa [bytes_empty, List.length_nil, Nat.zero_add])

lemma exists_put_empty_iff {data : List UInt8} :
    (∃ out, (empty cap).put data = some out) ↔ data.length ≤ cap := by
  by_cases room : data.length ≤ cap
  · exact iff_of_true ⟨⟨data, room⟩, dif_pos room⟩ room
  · have refused : (empty cap).put data = none := dif_neg room
    simp [refused, room]

lemma exists_put_sized {data : List UInt8} {size : Nat} (length : data.length = size)
    (room : size ≤ cap) : ∃ out, (empty cap).put data = some out ∧ out.bytes.length = size := by
  obtain ⟨out, put, bytes⟩ := exists_put_empty (Nat.le_trans (Nat.le_of_eq length) room)
  exact ⟨out, put, by rw [bytes, length]⟩

end Writer

end CupidOs.Bytes
