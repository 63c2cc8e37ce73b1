import CupidOs.Ssh.Wire

/-!
# The stored password

`sshd_set_password` writes one line with a salt and a digest in hexadecimal, and `check_password`
reads it back by fixed offsets. The line has 103 bytes and the reader wants 104, so it rejects
what the writer left until a byte is appended. A result is `none` where a buffer would be left.
-/

namespace CupidOs.Ssh

open Bytes Option
open List hiding Vector
open Tls (ascii)

/-! ## Hexadecimal -/

/-- `hexval`, with `none` for `-1` -/
def hexval (c : UInt8) : Option Nat :=
  if 48 ≤ c.toNat ∧ c.toNat ≤ 57 then some (c.toNat - 48)
  else if 97 ≤ c.toNat ∧ c.toNat ≤ 102 then some (c.toNat - 97 + 10)
  else if 65 ≤ c.toNat ∧ c.toNat ≤ 70 then some (c.toNat - 65 + 10)
  else none

/-- The table of `hexenc`. -/
def hexDigit (n : Nat) : UInt8 := (ascii "0123456789abcdef").getD n 0

variable (bytes : List UInt8)

/-- `hexenc`, without the terminator -/
def hexenc : List UInt8 :=
  bytes.flatMap fun byte => [hexDigit (byte.toNat >>> 4), hexDigit (byte.toNat &&& 15)]

/-- `hexdec` on the characters that it reads -/
def hexdec : List UInt8 → Option (List UInt8)
  | high :: low :: rest => do
      let a ← hexval high
      let b ← hexval low
      let out ← hexdec rest
      return UInt8.ofNat (a <<< 4 ||| b) :: out
  | _ => some []

lemma hexval_hexDigit {n : Nat} (small : n < 16) :
    hexval (hexDigit n) = some n ∧ hexDigit n ≠ 0 := by
  have all : ∀ n ∈ range 16, hexval (hexDigit n) = some n ∧ hexDigit n ≠ 0 := by decide
  exact all n (mem_range.mpr small)

lemma nibbles_lt (byte : UInt8) : byte.toNat >>> 4 < 16 ∧ byte.toNat &&& 15 < 16 := by
  have bound := byte.toNat_lt
  rw [Nat.shiftRight_eq_div_pow]
  exact ⟨by omega, lt_of_le_of_lt Nat.and_le_right (by decide)⟩

lemma nibbles_join (byte : UInt8) :
    UInt8.ofNat ((byte.toNat >>> 4) <<< 4 ||| (byte.toNat &&& 15)) = byte := by
  have low : byte.toNat &&& 15 = byte.toNat % 2 ^ 4 := Nat.and_two_pow_sub_one_eq_mod byte.toNat 4
  have joined : (byte.toNat >>> 4) <<< 4 ||| (byte.toNat &&& 15) = byte.toNat := by
    rw [← Nat.shiftLeft_add_eq_or_of_lt (nibbles_lt byte).2, low, Nat.shiftRight_eq_div_pow,
      Nat.shiftLeft_eq]
    omega
  rw [joined, UInt8.ofNat_toNat]

lemma hexdec_hexenc : hexdec (hexenc bytes) = some bytes := by
  induction bytes with
  | nil => rfl
  | cons byte bytes ih =>
    have high := (hexval_hexDigit (nibbles_lt byte).1).1
    have low := (hexval_hexDigit (nibbles_lt byte).2).1
    have unfolded : hexenc (byte :: bytes) =
        hexDigit (byte.toNat >>> 4) :: hexDigit (byte.toNat &&& 15) :: hexenc bytes := rfl
    rw [unfolded, hexdec, high, low, ih]
    simp only [bind_eq_bind, bind_some, nibbles_join]
    rfl

@[simp]
lemma length_hexenc : (hexenc bytes).length = 2 * bytes.length := by
  induction bytes with
  | nil => rfl
  | cons byte bytes ih =>
    rw [hexenc, flatMap_cons, length_append, ← hexenc, ih, length_cons]
    simp only [length_cons, length_nil]
    omega

lemma noNul_hexenc : (0 : UInt8) ∉ hexenc bytes := by
  intro mem
  obtain ⟨byte, -, nul⟩ := mem_flatMap.mp mem
  have high := (hexval_hexDigit (nibbles_lt byte).1).2
  have low := (hexval_hexDigit (nibbles_lt byte).2).2
  simp only [mem_cons, not_mem_nil, or_false] at nul
  rcases nul with nul | nul
  · exact high nul.symm
  · exact low nul.symm

/-! ## Setting and checking -/

variable (sha256 : List UInt8 → Vector UInt8 32)

/-- `hash_password` -/
def hashPassword (salt pass : List UInt8) : Vector UInt8 32 := sha256 (salt ++ cstr pass)

/-- The line that `sshd_set_password` builds with `strcpy` and `strcat`, with its terminator. -/
def passwdLine (saltHex digestHex : List UInt8) : Option (Writer 128) := do
  let line ← (Writer.empty 128).put (ascii "root:")
  let line ← line.put saltHex
  let line ← line.put (ascii ":")
  let line ← line.put digestHex
  let line ← line.put [10]
  line.put [0]

variable (salt : Vector UInt8 16)

/-- `sshd_set_password`: whether it succeeds, and the password file. `opens` tells whether the file
can be opened for writing. -/
def sshdSetPassword (opens : Bool) (password : List UInt8)
    (passwd : Option (List UInt8)) : Option (Bool × Option (List UInt8)) :=
  if cstr password = [] then some (false, passwd)
  else do
    let digest := hashPassword sha256 salt.toList password
    let line ← passwdLine (hexenc salt.toList) (hexenc digest.toList)
    if opens then return (true, some (cstr line.bytes)) else return (false, passwd)

/-- The end of `check_password`: compare the digest of a password with the one in the file. -/
def checkDigest (file pass : List UInt8) : Option Bool := do
  if (← slice file 0 5) = ascii "root:" then
    match hexdec (← slice file 5 32) with
    | none => return false
    | some salt =>
      if (← slice file 37 1) ≠ ascii ":" then return false
      else
        match hexdec (← slice file 38 64) with
        | none => return false
        | some expected => return expected == (hashPassword sha256 salt pass).toList
  else
    return false

variable (passwd : Option (List UInt8))

/-- `check_password`, where `user` and the content of `pass_buf` end at a terminator -/
def checkPassword (user pass : List UInt8) : Option Bool :=
  if ¬ cstreqn (cstr user) "root" then some false
  else if pass.length ≥ 128 then some false
  else do
    let passBuf ← (Writer.empty 128).put pass
    let passBuf ← passBuf.put [0]
    match passwd with
    | none => return cstr passBuf.bytes == ascii "cupid"
    | some content =>
      let file ← (Writer.empty 160).put (content.take 159)
      if file.bytes.length < 104 then return false
      else
        let file ← file.put [0]
        checkDigest sha256 file.bytes passBuf.bytes

lemma cstr_append_nul : cstr (bytes ++ [0]) = cstr bytes := by
  induction bytes with
  | nil => rfl
  | cons byte bytes ih =>
    unfold cstr at ih ⊢
    rw [cons_append, takeWhile_cons, takeWhile_cons, ih]

lemma cstr_append_nul_of_noNul {bytes : List UInt8} (noNul : (0 : UInt8) ∉ bytes) :
    cstr (bytes ++ [0]) = bytes := by
  rw [cstr_append_nul, cstr_of_noNul noNul]

lemma checkPassword_eq (user pass : List UInt8) :
    checkPassword sha256 passwd user pass =
      if cstr user = ascii "root" ∧ pass.length < 128 then
        match passwd with
        | none => some (cstr pass == ascii "cupid")
        | some content =>
          if content.length < 104 then some false
          else checkDigest sha256 (content.take 159 ++ [0]) (pass ++ [0])
      else some false := by
  unfold checkPassword
  by_cases root : cstr user = ascii "root"
  swap
  · rw [if_pos (by simpa [cstreqn] using root), if_neg (fun both => root both.1)]
  by_cases short : pass.length < 128
  swap
  · rw [if_neg (by simpa [cstreqn] using root), if_pos (by omega), if_neg fun both => short both.2]
  rw [if_neg (by simpa [cstreqn] using root), if_neg (by omega), if_pos ⟨root, short⟩]
  obtain ⟨passBuf, put, passBufEq⟩ := Writer.exists_put_empty (by
    rw [length_append, length_singleton]
    omega : (pass ++ [0]).length ≤ 128)
  rw [← LawfulMonad.bind_assoc, put_bind, put]
  simp only [bind_eq_bind, bind_some, passBufEq]
  cases passwd with
  | none =>
    simp only [cstr_append_nul]
    rfl
  | some content =>
    obtain ⟨file, putFile, fileEq⟩ := Writer.exists_put_empty (by
      rw [length_take]
      omega : (content.take 159).length ≤ 160)
    simp only [putFile, bind_some, fileEq, length_take]
    by_cases long : content.length < 104
    · rw [if_pos (by omega), if_pos long]
      rfl
    rw [if_neg (by omega), if_neg long]
    obtain ⟨ended, putEnd, endedEq⟩ := Writer.exists_put file [0] (by
      rw [fileEq, length_take, length_singleton]
      omega)
    rw [putEnd, bind_some, endedEq, fileEq]

/-! ## What is accepted -/

/-- The salt and the digest of a password file, at the offsets where `check_password` reads. -/
structure Stores (content salt digest : List UInt8) : Prop where
  long : 104 ≤ content.length
  user : content.take 5 = ascii "root:"
  salt : hexdec ((content.drop 5).take 32) = some salt
  colon : (content.drop 37).take 1 = ascii ":"
  digest : hexdec ((content.drop 38).take 64) = some digest

/-- What `check_password` reads lies in the part of the file that it copied. -/
theorem slice_copied {content : List UInt8} (long : 104 ≤ content.length) {start count : Nat}
    (front : start + count ≤ 104) :
    slice (content.take 159 ++ [0]) start count = some ((content.drop start).take count) := by
  have length : (content.take 159).length = min 159 content.length := length_take
  rw [slice_of_le (by rw [length_append, length]; omega),
    drop_append_of_le_length (by omega), take_append_of_le_length (by
      rw [length_drop, length]
      omega), drop_take, take_take, min_eq_left (by omega)]

lemma checkDigest_copied {content : List UInt8} (long : 104 ≤ content.length)
    (pass : List UInt8) :
    ∃ accepted, checkDigest sha256 (content.take 159 ++ [0]) pass = some accepted ∧
      (accepted = true ↔ ∃ salt digest, Stores content salt digest ∧
        digest = (hashPassword sha256 salt pass).toList) := by
  have user : slice (content.take 159 ++ [0]) 0 5 = some (content.take 5) :=
    slice_copied long (by decide)
  have saltHex := slice_copied long (by decide : 5 + 32 ≤ 104)
  have colon := slice_copied long (by decide : 37 + 1 ≤ 104)
  have digestHex := slice_copied long (by decide : 38 + 64 ≤ 104)
  simp only [checkDigest, user, saltHex, colon, digestHex, bind_eq_bind, bind_some]
  split
  swap
  · rename_i other
    refine ⟨false, rfl, iff_of_false (by simp) ?_⟩
    rintro ⟨salt, digest, stores, -⟩
    exact other stores.user
  rename_i isRoot
  split
  · rename_i noSalt
    refine ⟨false, rfl, iff_of_false (by simp) ?_⟩
    rintro ⟨salt, digest, stores, -⟩
    rw [stores.salt] at noSalt
    cases noSalt
  rename_i salt saltEq
  split
  · rename_i noColon
    refine ⟨false, rfl, iff_of_false (by simp) ?_⟩
    rintro ⟨salt, digest, stores, -⟩
    exact noColon stores.colon
  rename_i isColon
  split
  · rename_i noDigest
    refine ⟨false, rfl, iff_of_false (by simp) ?_⟩
    rintro ⟨salt, digest, stores, -⟩
    rw [stores.digest] at noDigest
    cases noDigest
  · rename_i expected digestEq
    refine ⟨_, rfl, beq_iff_eq.trans ⟨fun same => ?_, ?_⟩⟩
    · exact ⟨salt, expected, ⟨long, isRoot, saltEq, not_not.mp isColon, digestEq⟩, same⟩
    · rintro ⟨other, digest, stores, same⟩
      have saltSame := saltEq.symm.trans stores.salt
      have digestSame := digestEq.symm.trans stores.digest
      rw [some_inj.mp saltSame, some_inj.mp digestSame]
      exact same

/-- The password that a file asks for: the one with the stored digest, or the default. -/
def Matches (pass : List UInt8) : Prop :=
  match passwd with
  | none => pass = ascii "cupid"
  | some content => ∃ salt digest, Stores content salt digest ∧
      digest = (sha256 (salt ++ pass)).toList

/-- `check_password` compares what stands in front of the terminators. -/
theorem checkPassword_spec (user pass : List UInt8) :
    ∃ accepted, checkPassword sha256 passwd user pass = some accepted ∧
      (accepted = true ↔ cstr user = ascii "root" ∧ pass.length < 128 ∧
        Matches sha256 passwd (cstr pass)) := by
  rw [checkPassword_eq]
  split
  swap
  · rename_i wrong
    exact ⟨false, rfl, iff_of_false (by simp) fun right => wrong ⟨right.1, right.2.1⟩⟩
  rename_i right
  cases passwd with
  | none =>
    refine ⟨_, rfl, beq_iff_eq.trans ⟨fun same => ⟨right.1, right.2, same⟩, fun all => all.2.2⟩⟩
  | some content =>
    dsimp only
    split
    · rename_i short
      refine ⟨false, rfl, iff_of_false (by simp) ?_⟩
      rintro ⟨-, -, salt, digest, stores, -⟩
      have long := stores.long
      omega
    · rename_i long
      obtain ⟨accepted, checked, iff⟩ :=
        checkDigest_copied sha256 (Nat.le_of_not_lt long) (pass ++ [0])
      refine ⟨accepted, checked, iff.trans ?_⟩
      simp only [hashPassword, cstr_append_nul, Matches, right, true_and]

/-! ## The round trip -/

variable (digest : Vector UInt8 32)

/-- The line that is stored for a salt and a digest. -/
def storedLine : List UInt8 :=
  ascii "root:" ++ (hexenc salt.toList ++ (ascii ":" ++ (hexenc digest.toList ++ [10])))

lemma length_storedLine :
    (storedLine salt digest).length = 103 := by
  have root : (ascii "root:").length = 5 := by decide
  have colon : (ascii ":").length = 1 := by decide
  simp only [storedLine, length_append, length_hexenc, Vector.length_toList, root, colon,
    length_singleton]

lemma noNul_storedLine :
    (0 : UInt8) ∉ storedLine salt digest := by
  have root : (0 : UInt8) ∉ ascii "root:" := by decide
  have colon : (0 : UInt8) ∉ ascii ":" := by decide
  have newline : (0 : UInt8) ∉ ([10] : List UInt8) := by decide
  simp only [storedLine, mem_append, not_or]
  exact ⟨root, noNul_hexenc _, colon, noNul_hexenc _, newline⟩

lemma passwdLine_eq :
    ∃ line, passwdLine (hexenc salt.toList) (hexenc digest.toList) = some line ∧
      line.bytes = storedLine salt digest ++ [0] := by
  have whole : passwdLine (hexenc salt.toList) (hexenc digest.toList) =
      (Writer.empty 128).put (storedLine salt digest ++ [0]) := by
    simp only [passwdLine, put_bind, storedLine, append_assoc]
  rw [whole]
  apply Writer.exists_put_empty
  rw [length_append, length_storedLine]
  decide

lemma sshdSetPassword_eq {salt : Vector UInt8 16} {opens : Bool} {password : List UInt8}
    {before passwd : Option (List UInt8)}
    (set : sshdSetPassword sha256 salt opens password before = some (true, passwd)) :
    passwd = some (storedLine salt (hashPassword sha256 salt.toList password)) := by
  obtain ⟨line, built, bytes⟩ := passwdLine_eq salt (hashPassword sha256 salt.toList password)
  unfold sshdSetPassword at set
  split at set
  · cases set
  simp only [built, bind_eq_bind, bind_some, bytes,
    cstr_append_nul_of_noNul (noNul_storedLine _ _)] at set
  cases opens with
  | true =>
    obtain ⟨-, rfl⟩ := Prod.mk.inj (Option.some.inj set)
    rfl
  | false => cases set

/-- The line stores its salt and its digest only if the file goes on behind it. -/
theorem stores_storedLine (tail other stored : List UInt8) :
    Stores (storedLine salt digest ++ tail) other stored ↔
      tail ≠ [] ∧ other = salt.toList ∧ stored = digest.toList := by
  have line : storedLine salt digest ++ tail = ascii "root:" ++ (hexenc salt.toList ++
      (ascii ":" ++ (hexenc digest.toList ++ ([10] ++ tail)))) := by
    simp only [storedLine, append_assoc]
  have root : (ascii "root:").length = 5 := by decide
  have colon : (ascii ":").length = 1 := by decide
  have saltLength : (hexenc salt.toList).length = 32 := by simp
  have digestLength : (hexenc digest.toList).length = 64 := by simp
  have atSalt := congrArg (drop 5) line
  rw [drop_left' root] at atSalt
  have atColon := drop_append_length atSalt
  have atDigest := drop_append_length atColon
  rw [saltLength] at atColon atDigest
  rw [colon] at atDigest
  have long : 104 ≤ (storedLine salt digest ++ tail).length ↔ tail ≠ [] := by
    rw [length_append, length_storedLine, ← length_pos_iff]
    omega
  constructor
  · rintro ⟨more, -, isSalt, -, isDigest⟩
    rw [atSalt, take_left' saltLength, hexdec_hexenc] at isSalt
    rw [atDigest, take_left' digestLength, hexdec_hexenc] at isDigest
    exact ⟨long.mp more, (some_inj.mp isSalt).symm, (some_inj.mp isDigest).symm⟩
  · rintro ⟨more, rfl, rfl⟩
    refine ⟨long.mpr more, by rw [line, take_left' root], ?_, by rw [atColon, take_left' colon], ?_⟩
    · rw [atSalt, take_left' saltLength, hexdec_hexenc]
    · rw [atDigest, take_left' digestLength, hexdec_hexenc]

/-- A password is accepted behind the line that stores its digest. -/
theorem checkPassword_storedLine {tail pass : List UInt8} (noNul : (0 : UInt8) ∉ pass) :
    checkPassword sha256 (some (storedLine salt digest ++ tail)) (ascii "root") pass = some true ↔
      pass.length < 128 ∧ tail ≠ [] ∧ digest = sha256 (salt.toList ++ pass) := by
  obtain ⟨accepted, checked, iff⟩ := checkPassword_spec sha256
    (some (storedLine salt digest ++ tail)) (ascii "root") pass
  have root : cstr (ascii "root") = ascii "root" := by decide
  rw [checked, some_inj, iff, and_iff_right root, cstr_of_noNul noNul]
  simp only [Matches, stores_storedLine, and_assoc, exists_and_left, exists_eq_left]
  rw [Vector.toList_inj]

/-- The password that was set is accepted, and others only with the stored salted digest. -/
structure RoundTrips (salt : Vector UInt8 16) (password : List UInt8)
    (passwd : Option (List UInt8)) : Prop where
  accepted : checkPassword sha256 passwd (ascii "root") password = some true
  only : ∀ other, (0 : UInt8) ∉ other →
    checkPassword sha256 passwd (ascii "root") other = some true →
      sha256 (salt.toList ++ other) = sha256 (salt.toList ++ password)

/-- After a password was set it is accepted if and only if something has appended to the file
since. -/
theorem password_round_trip_iff (salt : Vector UInt8 16) (opens : Bool)
    (before passwd : Option (List UInt8)) (password : List UInt8) (noNul : (0 : UInt8) ∉ password)
    (short : password.length ≤ 127)
    (set : sshdSetPassword sha256 salt opens password before = some (true, passwd)) :
    ∃ line, passwd = some line ∧ ∀ tail,
      RoundTrips sha256 salt password (some (line ++ tail)) ↔ tail ≠ [] := by
  have digestEq : hashPassword sha256 salt.toList password = sha256 (salt.toList ++ password) := by
    rw [hashPassword, cstr_of_noNul noNul]
  refine ⟨_, sshdSetPassword_eq sha256 set, fun tail => ⟨fun trips => ?_, fun more => ⟨?_, ?_⟩⟩⟩
  · exact ((checkPassword_storedLine sha256 _ _ noNul).mp trips.accepted).2.1
  · rw [checkPassword_storedLine sha256 _ _ noNul]
    exact ⟨by omega, more, digestEq⟩
  · intro other otherNoNul accepted
    rw [← digestEq]
    exact ((checkPassword_storedLine sha256 _ _ otherNoNul).mp accepted).2.2.symm

/-- A digest for examples. -/
def zeroDigest (_ : List UInt8) : Vector UInt8 32 := Vector.replicate 32 0

/-- A file with an empty line behind the one for `cupid`. -/
theorem cupid_accepted_before_empty_line :
    ∃ line, RoundTrips zeroDigest (Vector.replicate 16 0) (ascii "cupid")
      (some (line ++ [10])) := by
  have set : sshdSetPassword zeroDigest (Vector.replicate 16 0) true (ascii "cupid") none =
      some (true, some (storedLine (Vector.replicate 16 0) (Vector.replicate 32 0))) := by
    decide +kernel
  obtain ⟨line, -, trips⟩ := password_round_trip_iff zeroDigest (Vector.replicate 16 0) true none
    _ (ascii "cupid") (by decide) (by decide) set
  exact ⟨line, (trips [10]).mpr (by decide)⟩

/-- The password that was just set is rejected. -/
theorem fresh_password_rejected :
    ∃ passwd, sshdSetPassword zeroDigest (Vector.replicate 16 0) true (ascii "secret") none =
        some (true, passwd) ∧
      checkPassword zeroDigest passwd (ascii "root") (ascii "secret") = some false :=
  ⟨some (storedLine (Vector.replicate 16 0) (Vector.replicate 32 0)), by decide +kernel,
    by decide +kernel⟩

end CupidOs.Ssh
