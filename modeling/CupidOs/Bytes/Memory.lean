import Mathlib.Algebra.Group.Nat.Defs

/-!
# Little-endian words in a byte memory

A byte memory maps addresses to bytes.  A 32-bit word occupies four consecutive
bytes, least significant byte first; a store changes exactly those four bytes.
-/

namespace CupidOs.Bytes

/-- A byte-addressed memory. -/
abbrev Memory := Nat → UInt8

namespace Memory

/-- The 32-bit word at `address`. -/
def load32 (memory : Memory) (address : Nat) : Nat :=
  (memory address).toNat + 256 * (memory (address + 1)).toNat +
    65536 * (memory (address + 2)).toNat + 16777216 * (memory (address + 3)).toNat

/-- Store one byte. -/
def store8 (memory : Memory) (address : Nat) (value : UInt8) : Memory := fun other =>
  if other = address then value else memory other

/-- Store the low 32 bits of `value`. -/
def store32 (memory : Memory) (address value : Nat) : Memory := fun other =>
  if other = address then UInt8.ofNat value
  else if other = address + 1 then UInt8.ofNat (value / 256)
  else if other = address + 2 then UInt8.ofNat (value / 65536)
  else if other = address + 3 then UInt8.ofNat (value / 16777216)
  else memory other

/-- Store `byte index` at `address + index` for every `index < count`. -/
def fill (memory : Memory) (address count : Nat) (byte : Nat → UInt8) : Memory := fun other =>
  if address ≤ other ∧ other < address + count then byte (other - address) else memory other

/-- Two memories agree on the bytes `[start, stop)`. -/
def AgreeOn (first second : Memory) (start stop : Nat) : Prop :=
  ∀ address, start ≤ address → address < stop → first address = second address

variable {address other count : Nat} (memory : Memory)

lemma store8_of_ne (value : UInt8) (outside : other ≠ address) :
    memory.store8 address value other = memory other :=
  if_neg outside

@[simp]
lemma store8_self (address : Nat) (value : UInt8) : memory.store8 address value address = value :=
  if_pos rfl

lemma store32_of_outside (value : Nat) (outside : other < address ∨ address + 4 ≤ other) :
    memory.store32 address value other = memory other := by
  simp only [store32]
  rw [if_neg (by omega), if_neg (by omega), if_neg (by omega), if_neg (by omega)]

variable (byte : Nat → UInt8)

lemma fill_of_outside (outside : other < address ∨ address + count ≤ other) :
    memory.fill address count byte other = memory other :=
  if_neg (by omega)

lemma fill_of_inside {index : Nat} (inside : index < count) :
    memory.fill address count byte (address + index) = byte index := by
  simp only [fill]
  rw [if_pos (by omega), Nat.add_sub_cancel_left]

lemma load32_lt (address : Nat) : memory.load32 address < 2 ^ 32 := by
  have first := (memory address).toNat_lt
  have second := (memory (address + 1)).toNat_lt
  have third := (memory (address + 2)).toNat_lt
  have fourth := (memory (address + 3)).toNat_lt
  simp only [load32]
  omega

lemma load32_congr {first second : Memory} (agree : AgreeOn first second address (address + 4)) :
    first.load32 address = second.load32 address := by
  simp only [load32]
  rw [agree address (by omega) (by omega), agree (address + 1) (by omega) (by omega),
    agree (address + 2) (by omega) (by omega), agree (address + 3) (by omega) (by omega)]

lemma load32_store32_self (address : Nat) {value : Nat} (bound : value < 2 ^ 32) :
    (memory.store32 address value).load32 address = value := by
  have first : address + 1 ≠ address := by omega
  have second : address + 2 ≠ address ∧ address + 2 ≠ address + 1 := by omega
  have third : address + 3 ≠ address ∧ address + 3 ≠ address + 1 ∧ address + 3 ≠ address + 2 := by
    omega
  simp only [load32, store32, if_true, first, second.1, second.2, third.1, third.2.1, third.2.2,
    if_false, UInt8.toNat_ofNat']
  omega

lemma load32_store32_of_disjoint (value : Nat)
    (disjoint : other + 4 ≤ address ∨ address + 4 ≤ other) :
    (memory.store32 address value).load32 other = memory.load32 other := by
  apply load32_congr
  intro byte lower upper
  exact store32_of_outside memory value (by omega)

lemma load32_store8_of_disjoint (value : UInt8) (disjoint : address < other ∨ other + 4 ≤ address) :
    (memory.store8 address value).load32 other = memory.load32 other := by
  apply load32_congr
  intro byte lower upper
  exact store8_of_ne memory value (by omega)

lemma load32_fill_of_disjoint
    (disjoint : other + 4 ≤ address ∨ address + count ≤ other) :
    (memory.fill address count byte).load32 other = memory.load32 other := by
  apply load32_congr
  intro index lower upper
  exact fill_of_outside memory byte (by omega)

/-- `after` differs from `before` only on the bytes `[start, stop)`. -/
def ModifiesOnly (before after : Memory) (start stop : Nat) : Prop :=
  ∀ address, address < start ∨ stop ≤ address → after address = before address

lemma AgreeOn.mono {first second : Memory} {start stop lower upper : Nat}
    (agree : AgreeOn first second start stop) (lowerBound : start ≤ lower)
    (upperBound : upper ≤ stop) : AgreeOn first second lower upper :=
  fun address low high => agree address (by omega) (by omega)

namespace ModifiesOnly

variable {before middle after : Memory} {start stop : Nat}

lemma refl (memory : Memory) (start stop : Nat) : ModifiesOnly memory memory start stop :=
  fun _ _ => rfl

lemma trans (first : ModifiesOnly before middle start stop)
    (second : ModifiesOnly middle after start stop) : ModifiesOnly before after start stop :=
  fun address outside => (second address outside).trans (first address outside)

section

variable (modifies : ModifiesOnly before after start stop)
include modifies

lemma mono {lower upper : Nat} (lowerBound : lower ≤ start) (upperBound : stop ≤ upper) :
    ModifiesOnly before after lower upper :=
  fun address outside => modifies address (by omega)

lemma agreeOn {lower upper : Nat}
    (disjoint : upper ≤ start ∨ stop ≤ lower) : AgreeOn after before lower upper :=
  fun address low high => modifies address (by omega)

lemma store8 (value : UInt8) (inside : start ≤ address ∧ address < stop) :
    ModifiesOnly before (after.store8 address value) start stop :=
  modifies.trans fun _ outside => store8_of_ne after value (by omega)

lemma store32 (value : Nat) (inside : start ≤ address ∧ address + 4 ≤ stop) :
    ModifiesOnly before (after.store32 address value) start stop :=
  modifies.trans fun _ outside => store32_of_outside after value (by omega)

lemma fill (inside : start ≤ address ∧ address + count ≤ stop) :
    ModifiesOnly before (after.fill address count byte) start stop :=
  modifies.trans fun _ outside => fill_of_outside after byte (by omega)

end

end ModifiesOnly

end Memory

end CupidOs.Bytes
