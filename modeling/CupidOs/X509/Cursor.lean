import CupidOs.Transition.Fallible
import CupidOs.X509.Asn1

/-!
# Cursors over a certificate

`kernel/crypto/asn1.c` with pointers: a cursor is a pair of offsets into the input. A fetch
outside the input stops the reader with `outside`, a loop that does not end with `endless`, and
where the source returns `-1` it stops with `rejected`. What is read is said by the reader of
`CupidOs.X509.Asn1`.
-/

namespace CupidOs.X509.Spans

open Bytes Der List Transition

/-- `asn1_cur_t`: where the next byte is, and where the last one ends. -/
structure Cursor where
  p : Nat
  stop : Nat
  deriving DecidableEq

/-- A pointer into the input and a length. -/
structure Span where
  start : Nat
  len : Nat
  deriving DecidableEq

/-- Why a reader stops. -/
inductive Stop
  | rejected
  | outside
  | endless
  deriving DecidableEq

/-- Fetch a byte of the input. -/
def byteAt (der : List UInt8) (i : Nat) : Except Stop UInt8 := orElse der[i]? .outside

/-- Fetch `count` bytes from an offset on. -/
def bytesAt (der : List UInt8) (i : Nat) : Nat → Except Stop (List UInt8)
  | 0 => .ok []
  | count + 1 => do
      let byte ← byteAt der i
      let bytes ← bytesAt der (i + 1) count
      return byte :: bytes

/-- `asn1_init` -/
def asn1Init (span : Span) : Cursor := ⟨span.start, span.start + span.len⟩

/-- `asn1_remaining` -/
def asn1Remaining (c : Cursor) : Nat := c.stop - c.p

/-- `asn1_peek_tag`, with `none` for `-1`. -/
def asn1PeekTag (der : List UInt8) (c : Cursor) : Except Stop (Option UInt8) :=
  if c.p ≥ c.stop then .ok none else do return some (← byteAt der c.p)

/-- `read_len`: the length and the offset behind the length field. -/
def readLen (der : List UInt8) (p stop : Nat) : Except Stop (Nat × Nat) :=
  if p ≥ stop then .error .rejected
  else do
    let first ← byteAt der p
    if first &&& 0x80 = 0 then
      return (first.toNat, p + 1)
    else
      let n := (first &&& 0x7F).toNat
      if n = 0 then .error .rejected
      else if n > 4 then .error .rejected
      else if stop - p < n + 1 then .error .rejected
      else do
        let second ← byteAt der (p + 1)
        if second = 0 then .error .rejected
        else do
          let len := decodeBE (← bytesAt der (p + 1) n)
          if len > 0xFFFFFF then .error .rejected
          else if len < 0x80 then .error .rejected
          else return (len, p + 1 + n)

/-- The tag, the body and the offset behind the body, as `asn1_read_any` finds them. -/
def readTlv (der : List UInt8) (c : Cursor) : Except Stop (UInt8 × Span) :=
  if c.p ≥ c.stop then .error .rejected
  else do
    let tag ← byteAt der c.p
    let (len, p) ← readLen der (c.p + 1) c.stop
    if c.stop - p < len then .error .rejected else return (tag, ⟨p, len⟩)

/-- `asn1_read_any`, with the cursor that it leaves. -/
def asn1ReadAny (der : List UInt8) (c : Cursor) : Except Stop (UInt8 × Span) × Cursor :=
  match readTlv der c with
  | .error stop => (.error stop, c)
  | .ok (tag, body) => (.ok (tag, body), { c with p := body.start + body.len })

/-- `asn1_read_tlv`, with the cursor that it leaves. -/
def asn1ReadTlv (der : List UInt8) (expectedTag : UInt8) (c : Cursor) : Except Stop Span × Cursor :=
  let save := c
  match asn1ReadAny der c with
  | (.error stop, _) => (.error stop, save)
  | (.ok (tag, body), c) =>
    if tag ≠ expectedTag then (.error .rejected, save) else (.ok body, c)

/-- `asn1_open`, with the cursor that it leaves in `c`. -/
def asn1Open (der : List UInt8) (expectedTag : UInt8) (c : Cursor) : Except Stop Cursor × Cursor :=
  match asn1ReadTlv der expectedTag c with
  | (.error stop, c) => (.error stop, c)
  | (.ok body, c) => (.ok ⟨body.start, body.start + body.len⟩, c)

/-- What a caller that returns `-1` on failure goes on with. -/
def orReturn {α : Type} (call : Except Stop α × Cursor) : Except Stop (α × Cursor) :=
  call.1.map fun value => (value, call.2)

/-- `asn1_skip_any` -/
def asn1SkipAny (der : List UInt8) (c : Cursor) : Except Stop Cursor := do
  let (_, c) ← orReturn (asn1ReadAny der c)
  return c

/-- `asn1_read_uint` -/
def asn1ReadUint (der : List UInt8) (c : Cursor) : Except Stop (Span × Cursor) := do
  let (body, c) ← orReturn (asn1ReadTlv der asn1TagInteger c)
  require (body.len ≠ 0) .rejected
  let first ← byteAt der body.start
  require (first &&& 0x80 = 0) .rejected
  if body.len ≥ 2 ∧ first = 0 then
    let second ← byteAt der (body.start + 1)
    require (second &&& 0x80 ≠ 0) .rejected
    return (⟨body.start + 1, body.len - 1⟩, c)
  else
    return (body, c)

/-- `ASN1_TAG_BOOLEAN` -/
def asn1TagBoolean : UInt8 := 0x01

/-- `ASN1_TAG_BIT_STRING` -/
def asn1TagBitString : UInt8 := 0x03

/-- `ASN1_TAG_OCTET_STRING` -/
def asn1TagOctetString : UInt8 := 0x04

/-- `ASN1_TAG_OID` -/
def asn1TagOid : UInt8 := 0x06

/-- `asn1_read_oid` -/
def asn1ReadOid (der : List UInt8) (c : Cursor) : Except Stop (Span × Cursor) :=
  orReturn (asn1ReadTlv der asn1TagOid c)

/-- `asn1_read_bit_string` -/
def asn1ReadBitString (der : List UInt8) (c : Cursor) : Except Stop (Span × Cursor) := do
  let (body, c) ← orReturn (asn1ReadTlv der asn1TagBitString c)
  require (body.len ≥ 1) .rejected
  let unused ← byteAt der body.start
  require (unused = 0) .rejected
  return (⟨body.start + 1, body.len - 1⟩, c)

/-- `asn1_read_octet_string` -/
def asn1ReadOctetString (der : List UInt8) (c : Cursor) : Except Stop (Span × Cursor) :=
  orReturn (asn1ReadTlv der asn1TagOctetString c)

/-- The loop of `asn1_oid_equals` over the bytes that are still to be compared. -/
def sameBytes (der : List UInt8) (i : Nat) : List UInt8 → Except Stop Bool
  | [] => .ok true
  | want :: wants => do
      let byte ← byteAt der i
      if byte ≠ want then return false else sameBytes der (i + 1) wants

/-- `asn1_oid_equals` -/
def asn1OidEquals (der : List UInt8) (oid : Span) (want : List UInt8) : Except Stop Bool :=
  if oid.len ≠ want.length then .ok false else sameBytes der oid.start want

/-! ## Times -/

/-- `ASN1_TAG_UTCTIME` -/
def asn1TagUtctime : UInt8 := 0x17

/-- `ASN1_TAG_GENTIME` -/
def asn1TagGentime : UInt8 := 0x18

/-- A decimal digit. -/
def digitAt (der : List UInt8) (i : Nat) : Except Stop Nat := do
  let byte ← byteAt der i
  require (48 ≤ byte ∧ byte ≤ 57) .rejected
  return byte.toNat - 48

/-- `dig2` -/
def dig2 (der : List UInt8) (i : Nat) : Except Stop Nat := do
  let tens ← digitAt der i
  let units ← digitAt der (i + 1)
  return tens * 10 + units

/-- `dig4` -/
def dig4 (der : List UInt8) (i : Nat) : Except Stop Nat := do
  let hi ← dig2 der i
  let lo ← dig2 der (i + 2)
  return hi * 100 + lo

/-- `days_from_civil` of a month from 1 to 12. -/
def daysFromCivil (y : Int) (m d : Nat) : Int :=
  let y2 := y - if m ≤ 2 then 1 else 0
  let era := (if y2 ≥ 0 then y2 else y2 - 399).tdiv 400
  let yoe := (y2 - era * 400).toNat
  let doy := (153 * (if m > 2 then m - 3 else m + 9) + 2) / 5 + d - 1
  let doe := yoe * 365 + yoe / 4 - yoe / 100 + doy
  era * 146097 + doe - 719468

/-- The fields behind the year, from an offset on, as seconds since 1970. -/
def readClock (der : List UInt8) (year i : Nat) : Except Stop UInt64 := do
  let mon ← dig2 der i
  let day ← dig2 der (i + 2)
  let hh ← dig2 der (i + 4)
  let mm ← dig2 der (i + 6)
  let ss ← dig2 der (i + 8)
  require (1 ≤ mon ∧ mon ≤ 12) .rejected
  require (1 ≤ day ∧ day ≤ 31) .rejected
  require (hh ≤ 23 ∧ mm ≤ 59 ∧ ss ≤ 60) .rejected
  let secs := daysFromCivil year mon day * 86400 + hh * 3600 + mm * 60 + ss
  return UInt64.ofNat (secs % 2 ^ 64).toNat

/-- `asn1_read_time` -/
def asn1ReadTime (der : List UInt8) (c : Cursor) : Except Stop (UInt64 × Cursor) := do
  let ((tag, body), c) ← orReturn (asn1ReadAny der c)
  if tag = asn1TagUtctime then
    require (body.len = 13) .rejected
    let last ← byteAt der (body.start + 12)
    require (last = 90) .rejected
    let yy ← dig2 der body.start
    -- RFC 5280: years below 50 are of the 21st century.
    let secs ← readClock der (if yy < 50 then 2000 + yy else 1900 + yy) (body.start + 2)
    return (secs, c)
  else if tag = asn1TagGentime then
    require (body.len = 15) .rejected
    let last ← byteAt der (body.start + 14)
    require (last = 90) .rejected
    let year ← dig4 der body.start
    let secs ← readClock der year (body.start + 4)
    return (secs, c)
  else
    .error .rejected

/-! ## Fetches that stay inside -/

/-- The cursor lies in the input. -/
structure Cursor.Inside (der : List UInt8) (c : Cursor) : Prop where
  ordered : c.p ≤ c.stop
  fits : c.stop ≤ der.length

/-- The bytes that a cursor has not read yet. -/
def Cursor.window (der : List UInt8) (c : Cursor) : List UInt8 := (der.take c.stop).drop c.p

/-- The bytes of a span. -/
def Span.bytes (der : List UInt8) (span : Span) : List UInt8 := (der.drop span.start).take span.len

/-- The span lies in the input. -/
def Span.Inside (der : List UInt8) (span : Span) : Prop := span.start + span.len ≤ der.length

variable {der : List UInt8} {c : Cursor}

lemma Cursor.Inside.length_window (inside : c.Inside der) :
    (c.window der).length = c.stop - c.p := by
  rw [Cursor.window, length_drop, length_take, min_eq_left inside.fits]

lemma Span.Inside.length_bytes {span : Span} (inside : span.Inside der) :
    (span.bytes der).length = span.len := by
  rw [Span.bytes, length_take, length_drop]
  unfold Span.Inside at inside
  omega

lemma window_asn1Init (span : Span) : (asn1Init span).window der = span.bytes der := by
  rw [Cursor.window, asn1Init, drop_take, Nat.add_sub_cancel_left, Span.bytes]

lemma Span.Inside.asn1Init {span : Span} (inside : span.Inside der) :
    (asn1Init span).Inside der :=
  ⟨Nat.le_add_right _ _, inside⟩

lemma window_drop (p stop count : Nat) :
    Cursor.window der ⟨p + count, stop⟩ = (Cursor.window der ⟨p, stop⟩).drop count := by
  rw [Cursor.window, Cursor.window, drop_drop]

variable {p stop i : Nat}

lemma window_of_le (done : stop ≤ p) : Cursor.window der ⟨p, stop⟩ = [] :=
  drop_eq_nil_of_le ((length_take_le _ _).trans done)

/-- A byte in front of the end of a cursor is the first one of what is left. -/
theorem exists_byteAt (before : p < stop) (fits : stop ≤ der.length) :
    ∃ byte, byteAt der p = .ok byte ∧
      Cursor.window der ⟨p, stop⟩ = byte :: Cursor.window der ⟨p + 1, stop⟩ := by
  have present : p < der.length := by omega
  refine ⟨der[p], ?_, ?_⟩
  · rw [byteAt, getElem?_eq_getElem present, orElse]
  · have inTake : p < (der.take stop).length := by
      rw [length_take]
      omega
    rw [Cursor.window, Cursor.window, drop_eq_getElem_cons inTake, getElem_take]

lemma bytesAt_eq {count : Nat} (before : p + count ≤ stop) (fits : stop ≤ der.length) :
    bytesAt der p count = .ok ((Cursor.window der ⟨p, stop⟩).take count) := by
  induction count generalizing p with
  | zero => rfl
  | succ count ih =>
    obtain ⟨byte, fetched, window⟩ := exists_byteAt (by omega : p < stop) fits
    rw [bytesAt, fetched, ih (by omega), window, take_succ_cons]
    rfl

/-- The length field is read as from the list of the remaining bytes. -/
theorem readLen_eq (fits : stop ≤ der.length) : readLen der p stop =
      match X509.readLen (Cursor.window der ⟨p, stop⟩) with
      | none => .error .rejected
      | some (len, rest) => .ok (len, stop - rest.length) := by
  rcases Nat.lt_or_ge p stop with before | done
  · obtain ⟨first, fetched, window⟩ := exists_byteAt before fits
    have length : (Cursor.window der ⟨p + 1, stop⟩).length = stop - (p + 1) :=
      Cursor.Inside.length_window ⟨before, fits⟩
    have notDone : ¬ p ≥ stop := by omega
    rw [readLen, if_neg notDone, fetched, window, X509.readLen]
    simp only [bind, Except.bind, length_cons, length]
    by_cases short : first &&& 0x80 = 0
    · simp only [if_pos short, pure, Except.pure, length]
      congr 2
      omega
    have room : stop - p = stop - (p + 1) + 1 := by omega
    simp only [if_neg short, room]
    by_cases none : (first &&& 0x7F).toNat = 0
    · simp only [if_pos none]
    by_cases many : (first &&& 0x7F).toNat > 4
    · simp only [if_neg none, if_pos many]
    by_cases truncated : stop - (p + 1) + 1 < (first &&& 0x7F).toNat + 1
    · simp only [if_neg none, if_neg many, if_pos truncated]
    obtain ⟨second, fetchedNext, windowNext⟩ :=
      exists_byteAt (by omega : p + 1 < stop) fits
    have digits := bytesAt_eq (by omega : p + 1 + (first &&& 0x7F).toNat ≤ stop) fits
    have left : Cursor.window der ⟨p + 1 + (first &&& 0x7F).toNat, stop⟩ = _ :=
      window_drop (p + 1) stop (first &&& 0x7F).toNat
    have leftLength : (Cursor.window der ⟨p + 1 + (first &&& 0x7F).toNat, stop⟩).length =
        stop - (p + 1 + (first &&& 0x7F).toNat) :=
      Cursor.Inside.length_window ⟨by simp only; omega, fits⟩
    simp only [if_neg none, if_neg many, if_neg truncated, fetchedNext, digits, ← left]
    rw [windowNext, headD_cons]
    split_ifs
    · rfl
    · rfl
    · rfl
    · simp only [pure, Except.pure, leftLength]
      congr 2
      omega
  · rw [readLen, if_pos done, window_of_le done, X509.readLen]

/-- The value at a cursor is read as from the list of the remaining bytes. -/
theorem readTlv_eq (inside : c.Inside der) : readTlv der c =
      match X509.asn1ReadAny (c.window der) with
      | none => .error .rejected
      | some (tag, body, rest) =>
        .ok (tag, ⟨c.stop - rest.length - body.length, body.length⟩) := by
  obtain ⟨p, stop⟩ := c
  obtain ⟨ordered, fits⟩ := inside
  simp only at ordered fits
  rcases Nat.lt_or_ge p stop with before | done
  · obtain ⟨tag, fetched, window⟩ := exists_byteAt before fits
    have notDone : ¬ p ≥ stop := by omega
    have length : (Cursor.window der ⟨p + 1, stop⟩).length = stop - (p + 1) :=
      Cursor.Inside.length_window ⟨before, fits⟩
    rw [readTlv, if_neg notDone, fetched, window, X509.asn1ReadAny]
    simp only [bind, Except.bind]
    rw [readLen_eq fits]
    cases read : X509.readLen (Cursor.window der ⟨p + 1, stop⟩) with
    | none => rfl
    | some field =>
      obtain ⟨len, rest⟩ := field
      have split := (readLen_eq_some_iff.mp read).1
      have shorter : rest.length ≤ stop := by
        have total := congrArg List.length split
        rw [length, length_append] at total
        omega
      have room : stop - (stop - rest.length) = rest.length := by omega
      simp only [room]
      split_ifs with truncated
      · rfl
      · simp only [pure, Except.pure, length_take, length_drop]
        congr 3 <;> omega
  · rw [readTlv, if_pos done, window_of_le done, X509.asn1ReadAny]

/-- A value has been read: its encoding lies in front of the cursor that is left. -/
structure Reads (der : List UInt8) (c : Cursor) (tag : UInt8) (body : Span) (left : Cursor) :
    Prop where
  encoded : c.window der = encodeTlv tag (body.bytes der) ++ left.window der
  small : body.len ≤ 0xFFFFFF
  begins : c.p < body.start
  ends : left.p = body.start + body.len
  sameStop : left.stop = c.stop
  leftInside : left.Inside der

namespace Reads

variable {c left : Cursor} {tag : UInt8} {body : Span}

lemma bodyInside (reads : Reads der c tag body left) : body.Inside der := by
  have ordered := reads.leftInside.ordered
  have fits := reads.leftInside.fits
  rw [Span.Inside, ← reads.ends]
  omega

lemma progress (reads : Reads der c tag body left) : asn1Remaining left < asn1Remaining c := by
  have begins := reads.begins
  have ends := reads.ends
  have ordered := reads.leftInside.ordered
  have sameStop := reads.sameStop
  unfold asn1Remaining
  omega

end Reads

lemma take_window {start len : Nat} (fits : start + len ≤ stop) :
    (Cursor.window der ⟨start, stop⟩).take len = Span.bytes der ⟨start, len⟩ := by
  rw [Cursor.window, Span.bytes, drop_take, take_take]
  congr 1
  simp only
  omega

/-- Either nothing is read and the cursor stays, or a value is. -/
theorem asn1ReadAny_cases (inside : c.Inside der) :
    (asn1ReadAny der c = (.error .rejected, c) ∧ X509.asn1ReadAny (c.window der) = none) ∨
      ∃ tag body left, asn1ReadAny der c = (.ok (tag, body), left) ∧ Reads der c tag body left := by
  rw [asn1ReadAny, readTlv_eq inside]
  cases read : X509.asn1ReadAny (c.window der) with
  | none => exact .inl ⟨rfl, rfl⟩
  | some value =>
    obtain ⟨tag, body, rest⟩ := value
    obtain ⟨encoded, small⟩ := asn1ReadAny_eq_some_iff.mp read
    refine .inr ⟨tag, _, _, rfl, ?_⟩
    obtain ⟨p, stop⟩ := c
    obtain ⟨ordered, fits⟩ := inside
    simp only at ordered fits
    have total := congrArg length encoded
    rw [Cursor.Inside.length_window ⟨ordered, fits⟩, length_append, encodeTlv,
      length_cons, length_append] at total
    simp only at total
    have start : stop - rest.length - body.length =
        p + (1 + (encodeLength body.length).length) := by omega
    have behindHeader : Cursor.window der ⟨stop - rest.length - body.length, stop⟩ =
        body ++ rest := by
      rw [start, window_drop, encoded, encodeTlv, add_comm 1, cons_append,
        drop_succ_cons, append_assoc, drop_left]
    have bodyEq : Span.bytes der ⟨stop - rest.length - body.length, body.length⟩ = body := by
      rw [← take_window (by omega : stop - rest.length - body.length + body.length ≤ stop),
        behindHeader, take_left]
    have leftEq : Cursor.window der ⟨stop - rest.length - body.length + body.length, stop⟩ =
        rest := by
      rw [window_drop, behindHeader, drop_left]
    refine ⟨?_, small, ?_, rfl, rfl, ⟨?_, fits⟩⟩
    · rw [bodyEq, leftEq, encoded]
    · simp only
      omega
    · simp only
      omega

/-- A reader fails only where the source returns `-1`, or what it returns has the property. -/
abbrev Safely {α : Type} (reader : Except Stop α) (post : α → Prop) : Prop :=
  Ensures (· = .rejected) reader post

lemma ensures_asn1ReadAny (inside : c.Inside der) :
    Safely (orReturn (asn1ReadAny der c)) fun read =>
      Reads der c read.1.1 read.1.2 read.2 := by
  rcases asn1ReadAny_cases inside with ⟨read, -⟩ | ⟨tag, body, left, read, reads⟩
  · rw [read]
    rfl
  · rw [read]
    exact reads

lemma ensures_asn1ReadTlv (inside : c.Inside der) (tag : UInt8) :
    Safely (orReturn (asn1ReadTlv der tag c)) fun read =>
      Reads der c tag read.1 read.2 := by
  rcases asn1ReadAny_cases inside with ⟨read, -⟩ | ⟨found, body, left, read, reads⟩
  · rw [asn1ReadTlv, read]
    rfl
  rw [asn1ReadTlv, read]
  by_cases same : found ≠ tag
  · simp only [if_pos same]
    rfl
  simp only [if_neg same]
  rw [not_not.mp same] at reads
  exact reads

lemma ensures_asn1Open (inside : c.Inside der) (tag : UInt8) :
    Safely (orReturn (asn1Open der tag c)) fun opened =>
      ∃ body, opened.1 = asn1Init body ∧ Reads der c tag body opened.2 := by
  have read := ensures_asn1ReadTlv inside tag
  rw [asn1Open]
  cases call : asn1ReadTlv der tag c with
  | mk result left =>
    rw [call] at read
    cases result with
    | error stop => exact read
    | ok body => exact ⟨body, rfl, read⟩

/-! ## The encodings that are read -/

lemma asn1ReadTlv_of_error {tag : UInt8} {left : Cursor} {stop : Stop}
    (failed : asn1ReadTlv der tag c = (.error stop, left)) : left = c := by
  rw [asn1ReadTlv] at failed
  split at failed
  · exact (Prod.mk.inj failed).2.symm
  split at failed
  · exact (Prod.mk.inj failed).2.symm
  · cases (Prod.mk.inj failed).1

lemma asn1Open_of_error {tag : UInt8} {left : Cursor} {stop : Stop}
    (failed : asn1Open der tag c = (.error stop, left)) : left = c := by
  rw [asn1Open] at failed
  split at failed
  · rename_i read
    rw [← (Prod.mk.inj failed).2]
    exact asn1ReadTlv_of_error read
  · cases (Prod.mk.inj failed).1

lemma length_encodeTlv (tag : UInt8) (body : List UInt8) :
    (encodeTlv tag body).length = 1 + (encodeLength body.length).length + body.length := by
  rw [encodeTlv, length_cons, length_append]
  omega

lemma reads_of_asn1ReadAny (inside : c.Inside der) {tag : UInt8} {body : Span} {left : Cursor}
    (read : asn1ReadAny der c = (.ok (tag, body), left)) : Reads der c tag body left := by
  have reads := ensures_asn1ReadAny inside
  rw [read] at reads
  exact reads

/-- What a value is read from: its tag, its length, and its body with what is left behind. -/
lemma Reads.window_eq {tag : UInt8} {body : Span} {left : Cursor}
    (reads : Reads der c tag body left) :
    c.window der = tag :: (encodeLength body.len ++ (body.bytes der ++ left.window der)) := by
  rw [reads.encoded, encodeTlv, reads.bodyInside.length_bytes, cons_append, append_assoc]

/-- The reader of a byte string, wherever it lies in memory: `asn1_read_any` succeeds exactly on
a tag, the distinguished encoding of a length up to `0xFFFFFF` and that many bytes.  The body is
these bytes, the cursor advances by the size of the whole, and encoding the tag and the body again
gives what was consumed.  A failing `asn1_read_tlv` or `asn1_open` leaves its cursor. -/
theorem asn1_reads_distinguished_encodings (before bytes after : List UInt8) :
    let der := before ++ bytes ++ after
    let c : Cursor := ⟨before.length, before.length + bytes.length⟩
    ((∃ tag body left, asn1ReadAny der c = (.ok (tag, body), left)) ↔
      ∃ tag len tail, bytes = tag :: (encodeLength len ++ tail) ∧ len ≤ 0xFFFFFF ∧
        len ≤ tail.length) ∧
    (∀ tag body left, asn1ReadAny der c = (.ok (tag, body), left) →
      ∃ tail, bytes = tag :: (encodeLength body.len ++ tail) ∧ body.len ≤ tail.length ∧
        body.bytes der = tail.take body.len ∧
        left = ⟨c.p + (1 + (encodeLength body.len).length + body.len), c.stop⟩ ∧
        encodeTlv tag (body.bytes der) = bytes.take (left.p - c.p)) ∧
    (∀ tag stop left, asn1ReadTlv der tag c = (.error stop, left) → left = c) ∧
    (∀ tag stop left, asn1Open der tag c = (.error stop, left) → left = c) := by
  intro der c
  have inside : c.Inside der := ⟨by simp [c], by simp [der, c]⟩
  have window : c.window der = bytes := by
    have appended : (before ++ bytes ++ after).drop before.length = bytes ++ after := by
      rw [append_assoc, drop_left]
    rw [Cursor.window, drop_take, Nat.add_sub_cancel_left, appended, take_left]
  refine ⟨⟨?_, ?_⟩, ?_, fun _ _ _ => asn1ReadTlv_of_error, fun _ _ _ => asn1Open_of_error⟩
  · rintro ⟨tag, body, left, read⟩
    have reads := reads_of_asn1ReadAny inside read
    refine ⟨tag, body.len, _, window.symm.trans reads.window_eq, reads.small, ?_⟩
    rw [length_append, reads.bodyInside.length_bytes]
    omega
  · rintro ⟨tag, len, tail, encoded, small, enough⟩
    rcases asn1ReadAny_cases inside with ⟨-, failed⟩ | ⟨tag, body, left, read, -⟩
    · have length : (tail.take len).length = len := by
        rw [length_take]
        omega
      have accepted : X509.asn1ReadAny bytes = some (tag, tail.take len, tail.drop len) := by
        rw [asn1ReadAny_eq_some_iff, encodeTlv, length, cons_append, append_assoc, take_append_drop]
        exact ⟨encoded, small⟩
      rw [window, accepted] at failed
      cases failed
    · exact ⟨tag, body, left, read⟩
  · intro tag body left read
    have reads := reads_of_asn1ReadAny inside read
    have length := reads.bodyInside.length_bytes
    have encoded := reads.encoded
    rw [window] at encoded
    have total := congrArg List.length encoded
    have leftLength := reads.leftInside.length_window
    have ordered := reads.leftInside.ordered
    have sameStop := reads.sameStop
    have stopEq : c.stop = c.p + bytes.length := rfl
    rw [length_append, length_encodeTlv, length, leftLength] at total
    have advance : left.p = c.p + (1 + (encodeLength body.len).length + body.len) := by omega
    refine ⟨_, window.symm.trans reads.window_eq, ?_, ?_, ?_, ?_⟩
    · rw [length_append, length]
      omega
    · rw [← length, take_left]
    · rw [← advance, ← sameStop]
    · have size : left.p - c.p = (encodeTlv tag (body.bytes der)).length := by
        rw [length_encodeTlv, length]
        omega
      rw [size, encoded, take_left]

/-- A value with one byte, read in front of other bytes. -/
theorem asn1_reads_short_value :
    ∃ tag body left, asn1ReadAny [0x02, 0x01, 0x2A, 0x05] ⟨0, 4⟩ = (.ok (tag, body), left) :=
  (asn1_reads_distinguished_encodings [] [0x02, 0x01, 0x2A, 0x05] []).1.mpr
    ⟨0x02, 1, [0x2A, 0x05], rfl, by decide, by decide⟩

/-! ## The other readers -/

lemma ensures_asn1SkipAny (inside : c.Inside der) :
    Safely (asn1SkipAny der c) fun left =>
      ∃ tag body, Reads der c tag body left :=
  (ensures_asn1ReadAny inside).bind fun _ reads => ⟨_, _, reads⟩

lemma ensures_byteAt (present : i < der.length) :
    Safely (byteAt der i) fun byte => der[i]? = some byte := by
  rw [byteAt, getElem?_eq_getElem present]
  rfl

lemma bytes_cons {start len : Nat} {byte : UInt8} (first : der[start]? = some byte) :
    Span.bytes der ⟨start, len + 1⟩ = byte :: Span.bytes der ⟨start + 1, len⟩ := by
  obtain ⟨present, rfl⟩ := List.getElem?_eq_some_iff.mp first
  rw [Span.bytes, Span.bytes, drop_eq_getElem_cons present, take_succ_cons]

lemma bytes_of_len_eq_one {span : Span} {byte : UInt8} (single : span.len = 1)
    (first : der[span.start]? = some byte) : span.bytes der = [byte] := by
  obtain ⟨start, len⟩ := span
  have lenEq : len = 0 + 1 := single
  rw [lenEq, bytes_cons first]
  simp [Span.bytes]

/-- The body of an integer, without a zero that only keeps the top bit clear. -/
structure ReadsUint (der : List UInt8) (c : Cursor) (digits : Span) (left : Cursor) : Prop where
  inside : digits.Inside der
  nonempty : 1 ≤ digits.len
  body : ∃ body, Reads der c asn1TagInteger body left ∧
    ((∃ first, digits = body ∧ der[body.start]? = some first ∧ first.toNat < 128) ∨
      ∃ first, body.bytes der = 0 :: digits.bytes der ∧ der[digits.start]? = some first ∧
        128 ≤ first.toNat)

lemma ensures_asn1ReadUint (inside : c.Inside der) :
    Safely (asn1ReadUint der c) fun read => ReadsUint der c read.1 read.2 := by
  apply (ensures_asn1ReadTlv inside asn1TagInteger).bind
  rintro ⟨body, left⟩ reads
  have bodyInside := reads.bodyInside
  refine ensures_require_bind rfl fun nonempty => ?_
  have fits : body.start + body.len ≤ der.length := bodyInside
  apply (ensures_byteAt (by omega : body.start < der.length)).bind
  intro first firstEq
  refine ensures_require_bind rfl fun clear => ?_
  split
  · rename_i padded
    apply (ensures_byteAt (by omega : body.start + 1 < der.length)).bind
    intro second secondEq
    refine ensures_require_bind rfl fun high => ?_
    refine ⟨?_, ?_, body, reads, .inr ⟨second, ?_, secondEq, ?_⟩⟩
    · change body.start + 1 + (body.len - 1) ≤ der.length
      omega
    · change 1 ≤ body.len - 1
      omega
    · obtain ⟨start, len⟩ := body
      obtain ⟨count, rfl⟩ : ∃ count, len = count + 1 := ⟨len - 1, by simp only at nonempty; omega⟩
      rw [padded.2] at firstEq
      exact bytes_cons firstEq
    · have high' := mt (and_0x80_eq_zero_iff second).mpr high
      omega
  · exact ⟨bodyInside, Nat.pos_of_ne_zero nonempty, body, reads,
      .inl ⟨first, rfl, firstEq, (and_0x80_eq_zero_iff first).mp clear⟩⟩

lemma ensures_asn1ReadBitString (inside : c.Inside der) :
    Safely (asn1ReadBitString der c) fun read =>
      read.1.Inside der ∧ ∃ body, Reads der c asn1TagBitString body read.2 := by
  apply (ensures_asn1ReadTlv inside asn1TagBitString).bind
  rintro ⟨body, left⟩ reads
  have fits : body.start + body.len ≤ der.length := reads.bodyInside
  refine ensures_require_bind rfl fun nonempty => ?_
  apply (ensures_byteAt (by omega : body.start < der.length)).bind
  intro unused _
  refine ensures_require_bind rfl fun _ => ?_
  refine ⟨?_, body, reads⟩
  change body.start + 1 + (body.len - 1) ≤ der.length
  omega

lemma ensures_sameBytes {wants : List UInt8} (fits : i + wants.length ≤ der.length) :
    Safely (sameBytes der i wants) fun same =>
      (same = true ↔ Span.bytes der ⟨i, wants.length⟩ = wants) := by
  induction wants generalizing i with
  | nil => simp [sameBytes, Span.bytes]
  | cons want wants ih =>
    rw [length_cons] at fits
    apply (ensures_byteAt (by omega : i < der.length)).bind
    intro byte byteEq
    rw [length_cons, bytes_cons byteEq]
    split
    · rename_i different
      apply iff_of_false (by simp)
      intro same
      exact different (cons.inj same).1
    · rename_i equal
      apply (ih (by omega)).mono
      intro same iff
      rw [iff, not_not.mp equal, cons.injEq]
      simp

lemma ensures_asn1OidEquals {oid : Span} (inside : oid.Inside der) (want : List UInt8) :
    Safely (asn1OidEquals der oid want) fun same =>
      (same = true ↔ oid.bytes der = want) := by
  rw [asn1OidEquals]
  split
  · rename_i different
    apply iff_of_false (by simp)
    rintro rfl
    exact different inside.length_bytes.symm
  · rename_i equal
    have length := not_not.mp equal
    unfold Span.Inside at inside
    have fits : oid.start + want.length ≤ der.length := by omega
    have compared := ensures_sameBytes fits
    rw [← length] at compared
    exact compared

lemma ensures_dig2 (fits : i + 2 ≤ der.length) :
    Safely (dig2 der i) fun _ => True := by
  have digit : ∀ j, j < der.length → Safely (digitAt der j) fun _ => True :=
    fun j present => (ensures_byteAt present).bind fun _ _ =>
      ensures_require_bind rfl fun _ => trivial
  exact (digit i (by omega)).bind fun _ _ => (digit (i + 1) (by omega)).bind fun _ _ => trivial

lemma ensures_readClock (year : Nat) (fits : i + 10 ≤ der.length) :
    Safely (readClock der year i) fun _ => True := by
  iterate 5 refine (ensures_dig2 (by omega)).bind fun _ _ => ?_
  exact ensures_require_bind rfl fun _ => ensures_require_bind rfl fun _ =>
    ensures_require_bind rfl fun _ => trivial

lemma ensures_asn1ReadTime (inside : c.Inside der) :
    Safely (asn1ReadTime der c) fun read =>
      ∃ tag body, Reads der c tag body read.2 := by
  apply (ensures_asn1ReadAny inside).bind
  rintro ⟨⟨tag, body⟩, left⟩ reads
  have fits : body.start + body.len ≤ der.length := reads.bodyInside
  dsimp only
  split
  · refine ensures_require_bind rfl fun length => ?_
    refine (ensures_byteAt (by omega : body.start + 12 < der.length)).bind fun _ _ => ?_
    refine ensures_require_bind rfl fun _ => ?_
    refine (ensures_dig2 (by omega)).bind fun _ _ => ?_
    exact (ensures_readClock _ (by omega)).bind fun _ _ => ⟨tag, body, reads⟩
  · split
    · refine ensures_require_bind rfl fun length => ?_
      refine (ensures_byteAt (by omega : body.start + 14 < der.length)).bind fun _ _ => ?_
      refine ensures_require_bind rfl fun _ => ?_
      have year : Safely (dig4 der body.start) fun _ => True :=
        (ensures_dig2 (by omega)).bind fun _ _ => (ensures_dig2 (by omega)).bind fun _ _ => trivial
      refine year.bind fun _ _ => ?_
      exact (ensures_readClock _ (by omega)).bind fun _ _ => ⟨tag, body, reads⟩
    · rfl

end CupidOs.X509.Spans
