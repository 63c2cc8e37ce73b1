import Mathlib.Algebra.Group.Nat.Defs
import Mathlib.Data.Fintype.Card

/-!
# Ticket locks

A ticket lock hands out tickets from a counter that wraps around, and a second counter says which
ticket is served. With fewer agents than tickets, the distance between the two is the number of
releases that an owner has to wait for.
-/

namespace CupidOs.Sync

variable {A : Type*}

/-- The two counters, whether the lock is held, and the tickets of those who wait. -/
structure Tickets (A : Type*) where
  head : UInt32
  tail : UInt32
  held : Bool
  waiting : A → Option UInt32

/-- How many releases have to come before a ticket is served. -/
def ahead (head ticket : UInt32) : Nat := (ticket - head).toNat

lemma ahead_eq_zero_iff {head ticket : UInt32} : ahead head ticket = 0 ↔ ticket = head := by
  have first := head.toNat_lt
  have second := ticket.toNat_lt
  rw [ahead, UInt32.toNat_sub, ← UInt32.toNat_inj]
  omega

lemma ahead_release {head ticket : UInt32} (ne : ticket ≠ head) :
    ahead (head + 1) ticket + 1 = ahead head ticket := by
  have first := head.toNat_lt
  have second := ticket.toNat_lt
  rw [Ne, ← UInt32.toNat_inj] at ne
  rw [ahead, ahead, UInt32.toNat_sub, UInt32.toNat_sub, UInt32.toNat_add, UInt32.toNat_one]
  omega

/-- The counter of the tickets is behind the last ticket. -/
theorem ahead_take {head tail : UInt32} (room : ahead head tail + 1 < 2 ^ 32) :
    ahead head (tail + 1) = ahead head tail + 1 := by
  have first := head.toNat_lt
  have second := tail.toNat_lt
  rw [ahead, UInt32.toNat_sub] at room
  rw [ahead, ahead, UInt32.toNat_sub, UInt32.toNat_sub, UInt32.toNat_add, UInt32.toNat_one]
  omega

namespace Tickets

section Operations

variable [DecidableEq A] (lock : Tickets A)

/-- An agent takes a ticket. -/
def take (a : A) : Tickets A :=
  { lock with
    tail := lock.tail + 1
    waiting := Function.update lock.waiting a (some lock.tail) }

/-- The agent whose ticket is served gets the lock. -/
def serve (a : A) : Tickets A :=
  { lock with
    held := true
    waiting := Function.update lock.waiting a none }

/-- The lock is released. -/
def release : Tickets A := { lock with head := lock.head + 1, held := false }

@[simp]
lemma waiting_take_self (a : A) : (lock.take a).waiting a = some lock.tail :=
  Function.update_self ..

@[simp]
lemma waiting_take_of_ne {a b : A} (ne : b ≠ a) :
    (lock.take a).waiting b = lock.waiting b :=
  Function.update_of_ne ne ..

@[simp]
lemma waiting_serve_self (a : A) : (lock.serve a).waiting a = none :=
  Function.update_self ..

@[simp]
lemma waiting_serve_of_ne {a b : A} (ne : b ≠ a) :
    (lock.serve a).waiting b = lock.waiting b :=
  Function.update_of_ne ne ..

end Operations

variable [Fintype A] {lock : Tickets A}

/-- Those who wait. -/
def waiters (lock : Tickets A) : Finset A := Finset.univ.filter fun a => (lock.waiting a).isSome

/-- The tickets from the one that is served to the last one are out, each in one place. -/
structure Fair (lock : Tickets A) : Prop where
  out : ahead lock.head lock.tail = lock.held.toNat + lock.waiters.card
  inside : ∀ a ticket, lock.waiting a = some ticket →
    ahead lock.head ticket < ahead lock.head lock.tail
  behind : lock.held = true → ∀ a, lock.waiting a ≠ some lock.head
  distinct : ∀ a b ticket, lock.waiting a = some ticket → lock.waiting b = some ticket → a = b

variable {a : A}

lemma mem_waiters : a ∈ lock.waiters ↔ (lock.waiting a).isSome := by
  simp [waiters]

lemma Fair.ahead_le (fair : lock.Fair) {ticket : UInt32}
    (waits : lock.waiting a = some ticket) : ahead lock.head ticket ≤ Fintype.card A := by
  have inside := fair.inside a ticket waits
  have waiters := lock.waiters.card_le_univ
  have held := Bool.toNat_le lock.held
  rw [fair.out] at inside
  omega

/-- Nobody holds the lock when the ticket of somebody who waits is served. -/
theorem Fair.held_eq_false (fair : lock.Fair) (waits : lock.waiting a = some lock.head) :
    lock.held = false :=
  Bool.eq_false_iff.mpr fun held => fair.behind held a waits

section

variable [DecidableEq A]

lemma waiters_take (free : lock.waiting a = none) :
    (lock.take a).waiters.card = lock.waiters.card + 1 := by
  have insert : (lock.take a).waiters = insert a lock.waiters := by
    ext b
    rw [Finset.mem_insert, mem_waiters, mem_waiters]
    by_cases same : b = a
    · subst same
      simp
    · simp [same]
  rw [insert, Finset.card_insert_of_notMem]
  simp [mem_waiters, free]

lemma waiters_serve (waits : (lock.waiting a).isSome) :
    (lock.serve a).waiters.card + 1 = lock.waiters.card := by
  have erase : (lock.serve a).waiters = lock.waiters.erase a := by
    ext b
    rw [Finset.mem_erase, mem_waiters, mem_waiters]
    by_cases same : b = a
    · subst same
      simp
    · simp [same]
  rw [erase]
  exact Finset.card_erase_add_one (mem_waiters.mpr waits)

lemma Fair.take (fair : lock.Fair) (free : lock.waiting a = none)
    (few : Fintype.card A + 1 < 2 ^ 32) : (lock.take a).Fair := by
  have waiters := lock.waiters.card_le_univ
  have held := Bool.toNat_le lock.held
  have others : lock.waiters.card + 1 ≤ Fintype.card A := by
    rw [← waiters_take free]
    exact (lock.take a).waiters.card_le_univ
  have longer : ahead lock.head (lock.tail + 1) = ahead lock.head lock.tail + 1 :=
    ahead_take (by rw [fair.out]; omega)
  have old : ∀ b ticket, b ≠ a → (lock.take a).waiting b = some ticket →
      lock.waiting b = some ticket := by
    intro b ticket ne waits
    rwa [waiting_take_of_ne lock ne] at waits
  have new : ∀ ticket, (lock.take a).waiting a = some ticket → ticket = lock.tail := by
    intro ticket waits
    rw [waiting_take_self] at waits
    exact (Option.some_inj.mp waits).symm
  -- The new ticket is behind all others, so none of them equals it.
  have last : ∀ b, b ≠ a → (lock.take a).waiting b ≠ some lock.tail := fun b ne waits =>
    lt_irrefl _ (fair.inside b lock.tail (old b lock.tail ne waits))
  refine ⟨?_, ?_, ?_, ?_⟩
  · rw [waiters_take free]
    change ahead lock.head (lock.tail + 1) = lock.held.toNat + (lock.waiters.card + 1)
    rw [longer, fair.out]
    omega
  · intro b ticket waits
    change ahead lock.head ticket < ahead lock.head (lock.tail + 1)
    rw [longer]
    by_cases same : b = a
    · subst same
      rw [new ticket waits]
      omega
    · have inside := fair.inside b ticket (old b ticket same waits)
      omega
  · intro held b waits
    by_cases same : b = a
    · subst same
      have isTail : lock.head = lock.tail := new _ waits
      have empty := ahead_eq_zero_iff.mpr isTail.symm
      have isHeld : lock.held = true := held
      rw [fair.out, isHeld, Bool.toNat_true] at empty
      omega
    · exact fair.behind held b (old b _ same waits)
  · intro b b' ticket waits waits'
    by_cases same : b = a
    · by_cases same' : b' = a
      · rw [same, same']
      · subst same
        rw [new ticket waits] at waits'
        exact absurd waits' (last b' same')
    · by_cases same' : b' = a
      · subst same'
        rw [new ticket waits'] at waits
        exact absurd waits (last b same)
      · exact fair.distinct b b' ticket (old b ticket same waits) (old b' ticket same' waits')

lemma Fair.serve (fair : lock.Fair) (waits : lock.waiting a = some lock.head) :
    (lock.serve a).Fair := by
  have free := fair.held_eq_false waits
  have fewer : (lock.serve a).waiters.card + 1 = lock.waiters.card :=
    waiters_serve (by rw [waits]; rfl)
  have old : ∀ b ticket, (lock.serve a).waiting b = some ticket →
      b ≠ a ∧ lock.waiting b = some ticket := by
    intro b ticket waits
    by_cases same : b = a
    · subst same
      rw [waiting_serve_self] at waits
      cases waits
    · rw [waiting_serve_of_ne lock same] at waits
      exact ⟨same, waits⟩
  refine ⟨?_, fun b ticket waits => fair.inside b ticket (old b ticket waits).2, ?_, ?_⟩
  · change ahead lock.head lock.tail = true.toNat + (lock.serve a).waiters.card
    rw [fair.out, free, Bool.toNat_true, Bool.toNat_false]
    omega
  · intro _ b others
    obtain ⟨ne, others⟩ := old b lock.head others
    exact ne (fair.distinct b a lock.head others waits)
  · intro b b' ticket waitsB waitsB'
    exact fair.distinct b b' ticket (old b ticket waitsB).2 (old b' ticket waitsB').2

end

lemma Fair.release (fair : lock.Fair) (held : lock.held = true) : lock.release.Fair := by
  have out := fair.out
  rw [held, Bool.toNat_true] at out
  have notEmpty : lock.tail ≠ lock.head := by
    intro same
    have empty := ahead_eq_zero_iff.mpr same
    omega
  have shorter := ahead_release notEmpty
  refine ⟨?_, ?_, nofun, fair.distinct⟩
  · change ahead (lock.head + 1) lock.tail = false.toNat + lock.waiters.card
    rw [Bool.toNat_false]
    omega
  · intro a ticket waits
    have ne : ticket ≠ lock.head := by
      rintro rfl
      exact fair.behind held a waits
    have inside := fair.inside a ticket waits
    have nearer := ahead_release ne
    change ahead (lock.head + 1) ticket < ahead (lock.head + 1) lock.tail
    omega

end Tickets

end CupidOs.Sync
