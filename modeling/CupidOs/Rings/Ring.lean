import Mathlib.Data.List.Basic

/-!
# Ring buffers

A ring of `n` cells with two indices: elements are taken at the front and added at the back. Equal
indices mean an empty ring, so one cell stays free. Adding and taking act on the contents as on a
list.
-/

namespace CupidOs.Rings

open Function List

universe u

/-- A ring buffer of `n` cells. -/
structure Ring (α : Type u) (n : Nat) where
  cells : Nat → α
  front : Nat
  back : Nat
  front_lt : front < n
  back_lt : back < n

namespace Ring

variable {α : Type u} {n : Nat}

lemma add_mod_eq {index step : Nat} (inside : index < n) (short : step ≤ n) :
    (index + step) % n = if index + step < n then index + step else index + step - n := by
  by_cases less : index + step < n
  · rw [if_pos less, Nat.mod_eq_of_lt less]
  · rw [if_neg less, Nat.mod_eq_sub_mod (by omega)]
    exact Nat.mod_eq_of_lt (by omega)

lemma add_mod_lt {index : Nat} (inside : index < n) (step : Nat) : (index + step) % n < n :=
  Nat.mod_lt _ (by omega)

variable (ring : Ring α n)

/-- The cells in use. -/
def used : Nat :=
  if ring.front ≤ ring.back then ring.back - ring.front else n - ring.front + ring.back

/-- The cell at a distance from the front. -/
def cell (index : Nat) : α := ring.cells ((ring.front + index) % n)

/-- The cells from the front on. -/
def peek (count : Nat) : List α := (range count).map ring.cell

/-- The elements in the ring, oldest first. -/
def contents : List α := ring.peek ring.used

/-- Write a cell at the back and move the back on. -/
def push (element : α) : Ring α n where
  cells := update ring.cells ring.back element
  front := ring.front
  back := (ring.back + 1) % n
  front_lt := ring.front_lt
  back_lt := add_mod_lt ring.back_lt 1

/-- Add elements one by one. -/
def pushAll (elements : List α) : Ring α n := elements.foldl push ring

/-- Move the front on. -/
def drop (count : Nat) : Ring α n where
  cells := ring.cells
  front := (ring.front + count) % n
  back := ring.back
  front_lt := add_mod_lt ring.front_lt count
  back_lt := ring.back_lt

/-- A ring with both indices at the first cell. -/
def empty (cells : Nat → α) (positive : 0 < n) : Ring α n := ⟨cells, 0, 0, positive, positive⟩

variable (ring : Ring α n)

lemma used_lt : ring.used < n := by
  have front := ring.front_lt
  have back := ring.back_lt
  unfold used
  split <;> omega

/-- The back is as far from the front as there are cells in use. -/
theorem front_add_used : (ring.front + ring.used) % n = ring.back := by
  have front := ring.front_lt
  have back := ring.back_lt
  rw [add_mod_eq front (Nat.le_of_lt ring.used_lt)]
  unfold used
  split <;> split <;> omega

@[simp]
lemma length_peek (count : Nat) : (ring.peek count).length = count := by
  simp [peek]

@[simp]
lemma length_contents : ring.contents.length = ring.used :=
  ring.length_peek ring.used

lemma used_eq_zero_iff : ring.used = 0 ↔ ring.front = ring.back := by
  have front := ring.front_lt
  have back := ring.back_lt
  unfold used
  split <;> omega

lemma take_contents {count : Nat} (enough : count ≤ ring.used) :
    ring.contents.take count = ring.peek count := by
  rw [contents, peek, ← map_take, take_range, Nat.min_eq_left enough]
  rfl

lemma used_push (element : α) (room : ring.used + 1 < n) :
    (ring.push element).used = ring.used + 1 := by
  have front := ring.front_lt
  have back := ring.back_lt
  have moved : (ring.back + 1) % n = if ring.back + 1 < n then ring.back + 1 else
      ring.back + 1 - n := add_mod_eq back (by omega)
  simp only [used, push, moved] at *
  split_ifs at * <;> omega

lemma index_ne_back {index : Nat} (inside : index < ring.used) :
    (ring.front + index) % n ≠ ring.back := by
  have front := ring.front_lt
  have back := ring.back_lt
  have short := ring.used_lt
  rw [← ring.front_add_used, add_mod_eq front (by omega), add_mod_eq front (Nat.le_of_lt short)]
  split <;> split <;> omega

/-- Adding an element to a ring with room puts it behind the contents. -/
theorem contents_push (element : α) (room : ring.used + 1 < n) :
    (ring.push element).contents = ring.contents ++ [element] := by
  rw [contents, ring.used_push element room, peek, range_succ, map_append]
  congr 1
  · apply map_congr_left
    intro index member
    exact update_of_ne (ring.index_ne_back (mem_range.mp member)) element ring.cells
  · simp only [map_cons, map_nil, cell, push, ring.front_add_used, update_self]

lemma contents_pushAll (elements : List α) (room : ring.used + elements.length < n) :
    (ring.pushAll elements).contents = ring.contents ++ elements := by
  induction elements generalizing ring with
  | nil => exact (append_nil _).symm
  | cons element rest ih =>
    have length : (element :: rest).length = rest.length + 1 := rfl
    have pushed := ring.used_push element (by omega)
    rw [pushAll, foldl_cons, ← pushAll, ih (ring.push element) (by omega),
      ring.contents_push element (by omega), append_assoc, singleton_append]

lemma used_drop {count : Nat} (enough : count ≤ ring.used) :
    (ring.drop count).used = ring.used - count := by
  have front := ring.front_lt
  have back := ring.back_lt
  have short := ring.used_lt
  have moved : (ring.front + count) % n = if ring.front + count < n then ring.front + count else
      ring.front + count - n := add_mod_eq front (by omega)
  simp only [used, drop, moved] at *
  split_ifs at * <;> omega

lemma contents_drop {count : Nat} (enough : count ≤ ring.used) :
    (ring.drop count).contents = ring.contents.drop count := by
  apply ext_getElem?
  intro index
  rw [getElem?_drop, contents, contents, ring.used_drop enough]
  by_cases inside : count + index < ring.used
  · simp only [peek, getElem?_map, getElem?_range inside,
      getElem?_range (show index < ring.used - count by omega), Option.map_some, cell, drop,
      Nat.mod_add_mod, Nat.add_assoc]
  · rw [getElem?_eq_none (by simp; omega), getElem?_eq_none (by simp; omega)]

lemma contents_eq_cons (filled : ring.front ≠ ring.back) :
    ring.contents = ring.cells ring.front :: (ring.drop 1).contents := by
  have some : 0 < ring.used := by
    have := mt ring.used_eq_zero_iff.mp filled
    omega
  rw [ring.contents_drop (by omega : 1 ≤ ring.used)]
  have first : ring.contents.take 1 = [ring.cells ring.front] := by
    rw [ring.take_contents (by omega)]
    simp [peek, cell, Nat.mod_eq_of_lt ring.front_lt]
  calc
    ring.contents = ring.contents.take 1 ++ ring.contents.drop 1 := (take_append_drop 1 _).symm
    _ = ring.cells ring.front :: ring.contents.drop 1 := by rw [first]; rfl

end Ring

end CupidOs.Rings
