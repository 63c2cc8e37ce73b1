import CupidOs.Transition.Run
import Mathlib.Data.List.FinRange

/-!
# The DNS cache

`cache_put` keeps the first 63 bytes of a name, and `cache_lookup` compares what it
keeps with the whole name that is asked for.  A longer name therefore answers for its
own first 63 bytes.

A name is the bytes before its terminator.
-/

namespace CupidOs.Net.Dns

open Function List Transition

/-- `DNS_CACHE_SIZE` -/
abbrev cacheSize : Nat := 16

/-- `dns_entry_t` -/
structure Entry where
  name : List UInt8
  ip : UInt32
  expiryMs : UInt32
  valid : Bool

/-- The static array `cache`. -/
abbrev Cache := Fin cacheSize → Entry

/-- The cache before the first call. -/
def cacheInit : Cache := fun _ => ⟨[], 0, 0, false⟩

/-- A character of `name_eq`, with upper case letters lowered. -/
def lowered (c : UInt8) : UInt8 := if 65 ≤ c ∧ c ≤ 90 then c + 32 else c

/-- `name_eq` -/
def nameEq : List UInt8 → List UInt8 → Bool
  | a :: as, b :: bs => lowered a == lowered b && nameEq as bs
  | [], [] => true
  | _, _ => false

/-- The loop of `cache_put` that looks for a slot. -/
def putSlot (cache : Cache) : List (Fin cacheSize) → Fin cacheSize → Fin cacheSize
  | [], slot => slot
  | i :: rest, slot =>
    if !(cache i).valid then i
    else putSlot cache rest (if (cache i).expiryMs < (cache slot).expiryMs then i else slot)

/-- `cache_put` -/
def cachePut (cache : Cache) (name : List UInt8) (ip ttl now : UInt32) : Cache :=
  update cache (putSlot cache (finRange cacheSize) 0)
    ⟨name.take 63, ip, now + (if ttl < 300 then ttl else 300) * 1000, true⟩

/-- The loop of `cache_lookup`. -/
def lookupSlots (name : List UInt8) (now : UInt32) :
    List (Fin cacheSize) → Cache → Cache × Option UInt32
  | [], cache => (cache, none)
  | i :: rest, cache =>
    if !(cache i).valid then lookupSlots name now rest cache
    else if (cache i).expiryMs < now then
      lookupSlots name now rest (update cache i { cache i with valid := false })
    else if nameEq (cache i).name name then (cache, some (cache i).ip)
    else lookupSlots name now rest cache

/-- `cache_lookup` -/
def cacheLookup (cache : Cache) (name : List UInt8) (now : UInt32) :
    Cache × Option UInt32 :=
  lookupSlots name now (finRange cacheSize) cache

/-- A call at the time `now` of the clock. -/
inductive Call
  | put (name : List UInt8) (ip ttl now : UInt32)
  | lookup (name : List UInt8) (now : UInt32)

/-- The time of a call. -/
def Call.now : Call → UInt32
  | put _ _ _ now => now
  | lookup _ now => now

/-- The cache as a machine. -/
def step : Machine Cache Call (Option UInt32)
  | cache, .put name ip ttl now => (cachePut cache name ip ttl now, none)
  | cache, .lookup name now => cacheLookup cache name now

/-- The cache together with the calls it has seen. -/
def tracked : Machine (Cache × List Call) Call (Option UInt32) :=
  step.observe fun past call _ => call :: past

/-- The address was put under this name, up to case, and its capped time has not passed. -/
def Current (past : List Call) (name : List UInt8) (now ip : UInt32) : Prop :=
  ∃ known ttl start, Call.put known ip ttl start ∈ past ∧ nameEq known name = true ∧
    now.toNat ≤ start.toNat + min ttl.toNat 300 * 1000

/-- A lookup that succeeds gives a current address. -/
def LookupCurrent (state : Cache × List Call) : Call → Prop
  | .put _ _ _ _ => True
  | .lookup name now => ∀ ip ∈ (cacheLookup state.1 name now).2, Current state.2 name now ip

/-- What a valid entry keeps of a call that put it. -/
def Kept (past : List Call) (entry : Entry) : Prop :=
  ∃ known ttl start, Call.put known entry.ip ttl start ∈ past ∧ entry.name = known.take 63 ∧
    entry.expiryMs.toNat ≤ start.toNat + min ttl.toNat 300 * 1000

/-- Every valid entry was put. -/
def AllKept (cache : Cache) (past : List Call) : Prop :=
  ∀ i, (cache i).valid = true → Kept past (cache i)

variable {cache : Cache} {past : List Call} {name : List UInt8} {now : UInt32}

lemma toNat_expiry_le (ttl now : UInt32) :
    (now + (if ttl < 300 then ttl else 300) * 1000).toNat ≤
      now.toNat + min ttl.toNat 300 * 1000 := by
  simp only [UInt32.toNat_add, UInt32.toNat_mul, UInt32.lt_iff_toNat_lt, apply_ite UInt32.toNat,
    UInt32.reduceToNat]
  split <;> omega

lemma length_eq_of_nameEq {a b : List UInt8} (same : nameEq a b = true) :
    a.length = b.length := by
  induction a, b using nameEq.induct with
  | case1 a as b bs ih =>
    rw [nameEq, Bool.and_eq_true] at same
    simp [ih same.2]
  | case2 => rfl
  | case3 a b notCons notNil =>
    rw [nameEq] at same
    · cases same
    · exact notCons
    · exact notNil

lemma AllKept.update (kept : AllKept cache past) {entry : Entry} (i : Fin cacheSize)
    (entryKept : entry.valid = true → Kept past entry) :
    AllKept (Function.update cache i entry) past := by
  intro j
  rcases eq_or_ne j i with rfl | differ
  · rw [update_self]
    exact entryKept
  · rw [update_of_ne differ]
    exact kept j

lemma AllKept.lookupSlots (kept : AllKept cache past) (slots : List (Fin cacheSize)) :
    AllKept (lookupSlots name now slots cache).1 past ∧
      ∀ ip ∈ (Dns.lookupSlots name now slots cache).2,
        ∃ entry, Kept past entry ∧ entry.ip = ip ∧ now ≤ entry.expiryMs ∧
          nameEq entry.name name = true := by
  induction slots generalizing cache with
  | nil => exact ⟨kept, nofun⟩
  | cons i rest ih =>
    rw [Dns.lookupSlots]
    split_ifs with invalid expired same
    · exact ih kept
    · exact ih (kept.update i nofun)
    · refine ⟨kept, ?_⟩
      rintro ip ⟨⟩
      exact ⟨cache i, kept i (by simpa using invalid), rfl, UInt32.not_lt.mp expired, same⟩
    · exact ih kept

lemma AllKept.step {state : Cache × List Call} (kept : AllKept state.1 state.2)
    (call : Call) : AllKept (tracked state call).1.1 (tracked state call).1.2 := by
  have older : AllKept state.1 (call :: state.2) := fun i valid =>
    have ⟨known, ttl, start, member, rest⟩ := kept i valid
    ⟨known, ttl, start, mem_cons_of_mem _ member, rest⟩
  cases call with
  | put name ip ttl now =>
    exact older.update _ fun _ =>
      ⟨name, ttl, now, mem_cons_self, rfl, toNat_expiry_le ttl now⟩
  | lookup name now => exact (older.lookupSlots _).1

lemma AllKept.lookupCurrent {state : Cache × List Call} (kept : AllKept state.1 state.2)
    (short : ∀ name ip ttl now, Call.put name ip ttl now ∈ state.2 → name.length ≤ 63)
    (call : Call) : LookupCurrent state call := by
  cases call with
  | put name ip ttl now => trivial
  | lookup name now =>
    intro ip found
    obtain ⟨entry, ⟨known, ttl, start, member, nameIs, expiry⟩, rfl, unexpired, same⟩ :=
      (kept.lookupSlots _).2 ip found
    rw [nameIs, take_of_length_le (short _ _ _ _ member)] at same
    exact ⟨known, ttl, start, member, same, Nat.le_trans unexpired expiry⟩

@[simp]
lemma nameEq_self (bytes : List UInt8) : nameEq bytes bytes = true := by
  induction bytes with
  | nil => rfl
  | cons byte bytes ih => simp [nameEq, ih]

/-- A name that was put into an empty cache answers for its first 63 bytes. -/
theorem cacheLookup_take (name : List UInt8) :
    (cacheLookup (cachePut cacheInit name 1 300 0) (name.take 63) 0).2 = some 1 := by
  simp [cacheLookup, cachePut, finRange_succ, putSlot, lookupSlots, cacheInit]

/-- For every set of names: a lookup gives only addresses that are current for its name,
in every sequence of calls that puts names of this set, if and only if no name of the set
is longer than 63 bytes. -/
theorem lookups_current_iff_names_fit (Allowed : List UInt8 → Prop) :
    (∀ calls : List Call, calls.Pairwise (·.now ≤ ·.now) →
        (∀ name ip ttl now, .put name ip ttl now ∈ calls → Allowed name) →
        tracked.Along LookupCurrent (cacheInit, []) calls) ↔
      ∀ name, Allowed name → name.length ≤ 63 := by
  constructor
  · intro sound name allowed
    by_contra long
    have current := (sound [.put name 1 300 0, .lookup (name.take 63) 0] (by simp [Call.now])
      (by simp +contextual [allowed])).2.1
    obtain ⟨known, ttl, start, member, same, _⟩ := current 1 (cacheLookup_take name)
    have length := length_eq_of_nameEq same
    obtain ⟨rfl, -⟩ := Call.put.inj (mem_singleton.mp member)
    rw [length_take] at length
    omega
  · intro short calls _ allowed
    refine Machine.along_of_invariant
      (I := fun state => AllKept state.1 state.2 ∧
        ∀ name ip ttl now, Call.put name ip ttl now ∈ state.2 → name.length ≤ 63)
      (G := fun _ call => ∀ name ip ttl now, call = .put name ip ttl now → Allowed name)
      (fun state call ⟨kept, fit⟩ guard => ⟨kept.step call, ?_⟩)
      (fun state call ⟨kept, fit⟩ _ => kept.lookupCurrent fit call) ⟨nofun, nofun⟩ ?_
    · intro name ip ttl now member
      rcases mem_cons.mp member with rfl | earlier
      · exact short name (guard name ip ttl now rfl)
      · exact fit name ip ttl now earlier
    · rw [Machine.along_forall_iff]
      rintro call member name ip ttl now rfl
      exact allowed name ip ttl now member

/-- A host name with labels of 32 and of `letters` letters. -/
def hostName (letters : Nat) : List UInt8 := replicate 32 97 ++ 46 :: replicate letters 97

/-- An address put under a name of 64 bytes is found under the name that lacks the last one. -/
theorem long_name_answers_for_short :
    ¬ tracked.Along LookupCurrent (cacheInit, [])
      [.put (hostName 31) 1 300 0, .lookup (hostName 30) 5] := by
  rintro ⟨-, current, -⟩
  obtain ⟨known, ttl, start, member, same, -⟩ := current 1 (by decide +kernel)
  obtain ⟨rfl, -⟩ := Call.put.inj (mem_singleton.mp member)
  cases length_eq_of_nameEq same

end CupidOs.Net.Dns
