import CupidOs.Calendar.Gregorian
import CupidOs.X509.Certificate

/-!
# Times of a certificate

What `asn1_read_time` makes of the texts of an instant, and what `x509_chain_verify` makes of the
time when a certificate ends.
-/

namespace CupidOs.X509.Spans

open Calendar List Transition

/-! ## The days since 1970 -/

lemma daysFromCivil_eq_of_year {y : Int} {m z : Nat} (d : Nat)
    (march : y - (if m ≤ 2 then 1 else 0) = (z : Int)) :
    daysFromCivil y m d = 365 * z + (z / 4 : Nat) + (z / 400 : Nat) - (z / 100 : Nat) +
      ((153 * (if m > 2 then m - 3 else m + 9) + 2) / 5 + d - 1 : Nat) - 719468 := by
  rw [daysFromCivil, march, if_pos (by omega), Int.tdiv_eq_ediv_of_nonneg (by omega)]
  generalize (153 * (if m > 2 then m - 3 else m + 9) + 2) / 5 + d - 1 = doy
  have four : z / 4 = 100 * (z / 400) + z % 400 / 4 := by omega
  have hundred : z / 100 = 4 * (z / 400) + z % 400 / 100 := by omega
  have rest : ((z : Int) - z / 400 * 400).toNat = z % 400 := by omega
  rw [rest]
  omega

lemma daysFromCivil_eq (t : Instant) :
    daysFromCivil t.year t.month t.day = t.dayNumber - daysBeforeYear 1970 := by
  have date := t.date
  rw [daysBeforeYear_1970, Instant.dayNumber]
  by_cases march : 3 ≤ t.month
  · rw [daysFromCivil_eq_of_year (z := t.year) _ (by rw [if_neg (by omega)]; omega),
      daysBeforeMonth_eq _ march (by omega), if_pos (by omega)]
    have count := daysBeforeYear_eq t.year
    omega
  have winter : t.month = 1 ∨ t.month = 2 := by omega
  have early : daysBeforeMonth t.year t.month = 31 * (t.month - 1) := by
    rcases winter with month | month <;> simp [month, daysBeforeMonth, monthDays]
  rw [early]
  rcases year : t.year with _ | z
  · have era : Int.tdiv (-400) 400 = -1 := rfl
    have none : daysBeforeYear 0 = 0 := by rw [daysBeforeYear, Finset.sum_range_zero]
    rcases winter with month | month <;>
    · norm_num [daysFromCivil, month, era, none]
      omega
  · rw [daysFromCivil_eq_of_year (z := z) _ (by rw [if_pos (by omega)]; omega),
      daysBeforeYear_succ, if_neg (by omega)]
    have count := daysBeforeYear_eq z
    omega

/-! ## Texts -/

/-- A number below 100 as two decimal digits. -/
def twoDigits (n : Nat) : List UInt8 := [.ofNat (48 + n / 10), .ofNat (48 + n % 10)]

/-- What follows the year in the text of an instant. -/
def clock (t : Instant) : List UInt8 :=
  [t.month, t.day, t.hour, t.minute, t.second].flatMap twoDigits ++ [90]

/-- The texts of an instant as a `UTCTime` and as a `GeneralizedTime`. -/
inductive Denotes (t : Instant) : UInt8 → List UInt8 → Prop
  | utc (century : 1950 ≤ t.year ∧ t.year < 2050) :
      Denotes t asn1TagUtctime (twoDigits (t.year % 100) ++ clock t)
  | generalized :
      Denotes t asn1TagGentime (twoDigits (t.year / 100) ++ twoDigits (t.year % 100) ++ clock t)

/-- The next element at a cursor is a text of an instant. -/
def TimeAt (der : List UInt8) (c : Cursor) (t : Instant) : Prop :=
  ∃ tag body left, asn1ReadAny der c = (.ok (tag, body), left) ∧ body.Inside der ∧
    Denotes t tag (body.bytes der)

variable {der rest : List UInt8} {c : Cursor} {i n : Nat}

lemma digitAt_of_drop (small : n < 10) (text : der.drop i = .ofNat (48 + n) :: rest) :
    digitAt der i = .ok n ∧ der.drop (i + 1) = rest := by
  have present : der[i]? = some (.ofNat (48 + n)) := by
    rw [← Nat.add_zero i, ← getElem?_drop, text, getElem?_cons_zero]
  refine ⟨?_, by rw [← drop_drop, text, drop_one, tail_cons]⟩
  rw [digitAt, byteAt, present]
  interval_cases n <;> rfl

lemma dig2_of_drop (small : n < 100) (text : der.drop i = twoDigits n ++ rest) :
    dig2 der i = .ok n ∧ der.drop (i + 2) = rest := by
  obtain ⟨tens, text⟩ := digitAt_of_drop (by omega) text
  obtain ⟨units, text⟩ := digitAt_of_drop (by omega) text
  refine ⟨?_, text⟩
  rw [dig2, tens, units]
  exact congrArg Except.ok (Nat.div_add_mod' n 10)

/-- The decoded time: the POSIX time, as 64 bits hold it. -/
def epoch (t : Instant) : UInt64 := .ofNat (t.posix % 2 ^ 64).toNat

lemma readClock_of_drop {t : Instant} (text : der.drop i = clock t ++ rest) :
    readClock der t.year i = .ok (epoch t) ∧ der[i + 10]? = some 90 := by
  have date := t.date
  have time := t.time
  have days : t.day ≤ 31 := by
    have month : monthDays t.year t.month ≤ 31 := by
      unfold monthDays leapDays
      split_ifs <;> omega
    omega
  rw [clock, flatMap_cons, flatMap_cons, flatMap_cons, flatMap_cons, flatMap_cons,
    flatMap_nil, append_nil] at text
  simp only [append_assoc] at text
  obtain ⟨mon, text⟩ := dig2_of_drop (by omega) text
  obtain ⟨day, text⟩ := dig2_of_drop (by omega) text
  obtain ⟨hh, text⟩ := dig2_of_drop (by omega) text
  obtain ⟨mm, text⟩ := dig2_of_drop (by omega) text
  obtain ⟨ss, text⟩ := dig2_of_drop (by omega) text
  constructor
  · rw [readClock, mon]
    simp only [bind, Except.bind, day, hh, mm, ss, require]
    rw [if_pos (by omega), if_pos (by omega), if_pos (by omega), daysFromCivil_eq]
    rfl
  · rw [← Nat.add_zero (i + 10), ← getElem?_drop, text]
    rfl

lemma asn1ReadTime_of_timeAt {t : Instant} (time : TimeAt der c t) :
    ∃ left, asn1ReadTime der c = .ok (epoch t, left) := by
  obtain ⟨tag, body, left, reads, inside, denotes⟩ := time
  have length := inside.length_bytes
  have text : der.drop body.start = body.bytes der ++ (der.drop body.start).drop body.len :=
    (take_append_drop _ _).symm
  refine ⟨left, ?_⟩
  rw [asn1ReadTime, reads]
  simp only [bind, Except.bind, orReturn, Except.map]
  generalize body.bytes der = bytes at denotes length text
  cases denotes with
  | utc century =>
    rw [append_assoc] at text
    obtain ⟨yy, text⟩ := dig2_of_drop (by omega) text
    obtain ⟨read, last⟩ := readClock_of_drop text
    have year : (if t.year % 100 < 50 then 2000 + t.year % 100 else 1900 + t.year % 100) =
        t.year := by
      split_ifs <;> omega
    rw [if_pos rfl, byteAt, last, show body.len = 13 from length.symm, yy]
    simp only [orElse, require, if_true, year, read]
    rfl
  | generalized =>
    have bounded := t.date
    rw [append_assoc, append_assoc] at text
    obtain ⟨hi, text⟩ := dig2_of_drop (by omega) text
    obtain ⟨lo, text⟩ := dig2_of_drop (by omega) text
    obtain ⟨read, last⟩ := readClock_of_drop text
    have year : dig4 der body.start = .ok t.year := by
      rw [dig4, hi, lo]
      exact congrArg Except.ok (Nat.div_add_mod' t.year 100)
    rw [if_neg (by decide), if_pos rfl, byteAt, last, show body.len = 15 from length.symm, year]
    simp only [orElse, require, if_true, read]
    rfl

/-- The decoded time is the POSIX time, wrapped around if that is negative. -/
lemma toNat_epoch (t : Instant) :
    ((epoch t).toNat : Int) = t.posix + if t.posix < 0 then 2 ^ 64 else 0 := by
  have bounded := posix_bounded t
  have wrapped : (t.posix % 2 ^ 64).toNat < 2 ^ 64 := by omega
  rw [epoch, UInt64.toNat_ofNat_of_lt' wrapped]
  split_ifs <;> omega

/-- No chain with a certificate that ends at the decoded time is accepted after the instant. -/
def RefusedAfter (t : Instant) (notAfter : UInt64) : Prop :=
  ∀ {Point : Type} (primitives : Primitives Point) bundle (chain : Chain) host (now : UInt64),
    (∃ cert ∈ chain.certs, cert.notAfter = notAfter) → t.posix < now.toNat →
      x509ChainVerify primitives bundle chain host now ≠ .ok ()

lemma refusedAfter_epoch_iff (t : Instant) : RefusedAfter t (epoch t) ↔ 0 ≤ t.posix := by
  have decoded := toNat_epoch t
  have bounded := posix_bounded t
  constructor
  · intro refused
    by_contra negative
    rw [if_pos (by omega)] at decoded
    refine refused (examplePrimitives true) [] ⟨[{ exampleLeaf with notAfter := epoch t }], ?_⟩
      [97] 1 ⟨_, mem_singleton_self _, rfl⟩ ?_ ?_
    · exact Nat.le_of_ble_eq_true rfl
    · change t.posix < 1
      omega
    rw [x509ChainVerify_ok_iff]
    refine ⟨by decide, ?_, ⟨_, rfl, (x509MatchHostname_iff _ _).mp rfl⟩, nofun⟩
    intro cert mem
    rw [mem_singleton.mp mem]
    refine ⟨UInt64.le_iff_toNat_le.mpr (Nat.zero_le _), UInt64.le_iff_toNat_le.mpr ?_⟩
    change 1 ≤ (epoch t).toNat
    omega
  · rintro nonneg Point primitives bundle chain host now ⟨cert, mem, notAfter⟩ late accepted
    rw [x509ChainVerify_ok_iff] at accepted
    have window := UInt64.le_iff_toNat_le.mp (accepted.2.windows cert mem).2
    rw [notAfter] at window
    rw [if_neg (by omega)] at decoded
    omega

/-- Two times are decoded in their order, to their POSIX times from 1970 on, and so that a
certificate that ends at the first is refused later. -/
def DecodedInOrder (der₁ : List UInt8) (c₁ : Cursor) (t₁ : Instant) (der₂ : List UInt8)
    (c₂ : Cursor) (t₂ : Instant) : Prop :=
  ∃ secs₁ left₁ secs₂ left₂, asn1ReadTime der₁ c₁ = .ok (secs₁, left₁) ∧
    asn1ReadTime der₂ c₂ = .ok (secs₂, left₂) ∧ secs₁ < secs₂ ∧
    (1970 ≤ t₁.year → (secs₁.toNat : Int) = t₁.posix) ∧
    (1970 ≤ t₂.year → (secs₂.toNat : Int) = t₂.posix) ∧ RefusedAfter t₁ secs₁

/-- The order is kept exactly if the first time is not before 1970 and is not the leap second in
front of the second. -/
theorem decodedInOrder_iff {der₁ der₂ : List UInt8} {c₁ c₂ : Cursor} {t₁ t₂ : Instant}
    (first : TimeAt der₁ c₁ t₁) (second : TimeAt der₂ c₂ t₂) (later : t₁.fields < t₂.fields) :
    DecodedInOrder der₁ c₁ t₁ der₂ c₂ t₂ ↔ 0 ≤ t₁.posix ∧ t₁.posix ≠ t₂.posix := by
  obtain ⟨left₁, reads₁⟩ := asn1ReadTime_of_timeAt first
  obtain ⟨left₂, reads₂⟩ := asn1ReadTime_of_timeAt second
  have order := posix_le later
  have decoded₁ := toNat_epoch t₁
  have decoded₂ := toNat_epoch t₂
  rw [DecodedInOrder, reads₁, reads₂]
  constructor
  · rintro ⟨_, _, _, _, ⟨⟩, ⟨⟩, less, -, -, refused⟩
    rw [refusedAfter_epoch_iff] at refused
    refine ⟨refused, fun same => ?_⟩
    rw [epoch, same] at less
    exact UInt64.lt_irrefl _ less
  · rintro ⟨nonneg, differ⟩
    rw [if_neg (by omega)] at decoded₁ decoded₂
    refine ⟨_, _, _, _, rfl, rfl, ?_, fun _ => by omega, fun _ => by omega, ?_⟩
    · rw [UInt64.lt_iff_toNat_lt]
      omega
    · exact (refusedAfter_epoch_iff t₁).mpr nonneg

/-- The `UTCTime` of an instant. -/
def utctime (t : Instant) : List UInt8 := 0x17 :: 13 :: (twoDigits (t.year % 100) ++ clock t)

lemma timeAt_utctime {t : Instant} (century : 1950 ≤ t.year ∧ t.year < 2050) :
    TimeAt (utctime t) ⟨0, 15⟩ t :=
  ⟨0x17, ⟨2, 13⟩, ⟨15, 15⟩, rfl, le_rfl, .utc century⟩

/-- The last second of 1969 and the first two of 1970. -/
def lastSecond : Instant := ⟨1969, 12, 31, 23, 59, 59, by decide, by decide⟩
def firstSecond : Instant := ⟨1970, 1, 1, 0, 0, 0, by decide, by decide⟩
def secondSecond : Instant := ⟨1970, 1, 1, 0, 0, 1, by decide, by decide⟩

theorem first_seconds_in_order :
    DecodedInOrder (utctime firstSecond) ⟨0, 15⟩ firstSecond (utctime secondSecond) ⟨0, 15⟩
      secondSecond := by
  apply (decodedInOrder_iff (timeAt_utctime (by decide)) (timeAt_utctime (by decide))
    (by decide)).mpr
  simp [Instant.posix, Instant.dayNumber, firstSecond, secondSecond]

/-- The last second of 1969 is decoded to a later time than the first of 1970. -/
theorem last_second_decoded_late : lastSecond.fields < firstSecond.fields ∧
    ¬DecodedInOrder (utctime lastSecond) ⟨0, 15⟩ lastSecond (utctime firstSecond) ⟨0, 15⟩
      firstSecond := by
  refine ⟨by decide, ?_⟩
  rintro ⟨_, _, _, _, last, first, less, -⟩
  rw [show asn1ReadTime (utctime lastSecond) ⟨0, 15⟩ = .ok (0xFFFFFFFFFFFFFFFF, ⟨15, 15⟩) from by
    decide +kernel] at last
  rw [show asn1ReadTime (utctime firstSecond) ⟨0, 15⟩ = .ok (0, ⟨15, 15⟩) from by
    decide +kernel] at first
  cases last
  cases first
  exact absurd less (by decide)

end CupidOs.X509.Spans
