import CupidOs.Bytes.Blocks
import CupidOs.Bytes.Codec

/-!
# Key derivation

`kernel/crypto/hmac.c`, `kernel/crypto/hkdf.c` and `kernel/tls/tls_kdf.c` over any function in the
place of SHA-256, and what they compute: HKDF-Expand of RFC 5869, HKDF-Expand-Label of RFC 8446
and the PRF of RFC 5246.
-/

namespace CupidOs.Tls

open Bytes

/-- The bytes of a C string. -/
def ascii (text : String) : List UInt8 := text.toList.map fun c => UInt8.ofNat c.toNat

section Model

variable (sha256 : List UInt8 → Vector UInt8 32)

/-- `hmac_sha256`. -/
def hmacSha256 (key msg : List UInt8) : List UInt8 :=
  let short := if key.length > 64 then (sha256 key).toList else key
  let kbuf := short ++ List.replicate (64 - short.length) 0
  let inner := sha256 (kbuf.map (· ^^^ 0x36) ++ msg)
  (sha256 (kbuf.map (· ^^^ 0x5c) ++ inner.toList)).toList

@[simp]
lemma length_hmacSha256 (key msg : List UInt8) : (hmacSha256 sha256 key msg).length = 32 := by
  simp [hmacSha256]

/-- `hkdf_extract`. -/
def hkdfExtract (salt ikm : List UInt8) : List UInt8 :=
  if salt.length = 0 then
    hmacSha256 sha256 (List.replicate 32 0) ikm
  else
    hmacSha256 sha256 salt ikm

/-- The loop of `hkdf_expand`; `previous` is the buffer `T`. -/
def expandLoop (prk info : List UInt8) : Nat → UInt8 → List UInt8 → Nat → List UInt8
  | 0, _, _, _ => []
  | rounds + 1, counter, previous, remaining =>
    if remaining = 0 then
      []
    else
      let counter := counter + 1
      let chained := if counter > 1 then previous else []
      let block := hmacSha256 sha256 prk (chained ++ info ++ [counter])
      let take := min remaining 32
      block.take take ++ expandLoop prk info rounds counter block (remaining - take)

/-- `hkdf_expand`. -/
def hkdfExpand (prk info : List UInt8) (outLen : Nat) : List UInt8 :=
  if info.length > 512 then
    List.replicate outLen 0
  else
    expandLoop sha256 prk info outLen 0 [] outLen

/-- `hkdf_expand_label`. -/
def hkdfExpandLabel (secret : List UInt8) (label : String) (context : List UInt8)
    (outLen : Nat) : List UInt8 :=
  let label := (ascii label).take 249
  let context := context.take 255
  hkdfExpand sha256 secret
    (encodeBE 2 outLen ++ [UInt8.ofNat (6 + label.length)] ++ ascii "tls13 " ++ label ++
      [UInt8.ofNat context.length] ++ context) outLen

/-- `tls_kdf_derive_secret`. -/
def tlsKdfDeriveSecret (secret : List UInt8) (label : String) (transcriptHash : List UInt8) :
    List UInt8 :=
  hkdfExpandLabel sha256 secret label transcriptHash 32

/-- `tls_kdf_traffic_keys`: the key and the IV. -/
def tlsKdfTrafficKeys (trafficSecret : List UInt8) (keyLen : Nat) : List UInt8 × List UInt8 :=
  (hkdfExpandLabel sha256 trafficSecret "key" [] (keyLen % 65536),
    hkdfExpandLabel sha256 trafficSecret "iv" [] 12)

/-- `tls_kdf_finished_key`. -/
def tlsKdfFinishedKey (trafficSecret : List UInt8) : List UInt8 :=
  hkdfExpandLabel sha256 trafficSecret "finished" [] 32

/-- The loop of `tls12_prf`; `a` is the buffer `A`. -/
def prfLoop (secret labelSeed : List UInt8) : Nat → List UInt8 → Nat → List UInt8
  | 0, _, _ => []
  | rounds + 1, a, remaining =>
    if remaining = 0 then
      []
    else
      let block := hmacSha256 sha256 secret (a ++ labelSeed)
      let take := min remaining 32
      let next := if remaining - take > 0 then hmacSha256 sha256 secret a else a
      block.take take ++ prfLoop secret labelSeed rounds next (remaining - take)

/-- `tls12_prf`; its callers keep label and seed within the buffer of 224 bytes. -/
def tls12Prf (secret : List UInt8) (label : String) (seed : List UInt8) (outLen : Nat) :
    List UInt8 :=
  let labelSeed := ascii label ++ seed
  prfLoop sha256 secret labelSeed outLen (hmacSha256 sha256 secret labelSeed) outLen

end Model

/-! ## The standards -/

namespace Rfc

section

variable (sha256 : List UInt8 → Vector UInt8 32)

/-- `T(index)` of RFC 5869. -/
def expandBlock (prk info : List UInt8) : Nat → List UInt8
  | 0 => []
  | index + 1 =>
    hmacSha256 sha256 prk (expandBlock prk info index ++ info ++ [UInt8.ofNat (index + 1)])

/-- HKDF-Expand of RFC 5869. -/
def expand (prk info : List UInt8) (length : Nat) : List UInt8 :=
  blocks 32 (fun index => expandBlock sha256 prk info (index + 1)) length

/-- HKDF-Expand-Label of RFC 8446. -/
def expandLabel (secret : List UInt8) (label : String) (context : List UInt8) (length : Nat) :
    List UInt8 :=
  expand sha256 secret (encodeBE 2 length ++ [UInt8.ofNat (ascii ("tls13 " ++ label)).length] ++
      ascii ("tls13 " ++ label) ++ [UInt8.ofNat context.length] ++ context) length

/-- Derive-Secret of RFC 8446. -/
def deriveSecret (secret : List UInt8) (label : String) (messages : List UInt8) : List UInt8 :=
  expandLabel sha256 secret label (sha256 messages).toList 32

/-- `A(index)` of RFC 5246. -/
def chained (secret seed : List UInt8) : Nat → List UInt8
  | 0 => seed
  | index + 1 => hmacSha256 sha256 secret (chained secret seed index)

/-- The PRF of RFC 5246. -/
def prf (secret : List UInt8) (label : String) (seed : List UInt8) (length : Nat) : List UInt8 :=
  let seed := ascii label ++ seed
  blocks 32 (fun index => hmacSha256 sha256 secret (chained sha256 secret seed (index + 1) ++ seed))
    length

end

end Rfc

/-! ## The code computes them -/

section

variable {sha256 : List UInt8 → Vector UInt8 32}

lemma expandLoop_eq (prk info : List UInt8) (done : Nat) {rounds remaining : Nat}
    (enough : remaining ≤ rounds) (few : 32 * done + remaining ≤ 255 * 32) :
    expandLoop sha256 prk info rounds (UInt8.ofNat done) (Rfc.expandBlock sha256 prk info done)
        remaining =
      blocks 32 (fun index => Rfc.expandBlock sha256 prk info (done + index + 1)) remaining := by
  induction rounds generalizing done remaining with
  | zero =>
    rw [Nat.le_zero.mp enough, blocks_zero]
    rfl
  | succ rounds ih =>
    rw [expandLoop]
    split
    · rename_i none
      rw [none, blocks_zero]
    rename_i some
    have counter : UInt8.ofNat done + 1 = UInt8.ofNat (done + 1) := by
      rw [UInt8.ofNat_add]
      rfl
    have chained : (if UInt8.ofNat (done + 1) > 1 then Rfc.expandBlock sha256 prk info done
        else []) = Rfc.expandBlock sha256 prk info done := by
      cases done with
      | zero => rfl
      | succ done =>
        apply if_pos
        rw [gt_iff_lt, UInt8.lt_iff_toNat_lt, UInt8.toNat_ofNat', Nat.mod_eq_of_lt (by omega)]
        show 1 < done + 1 + 1
        omega
    have block : hmacSha256 sha256 prk (Rfc.expandBlock sha256 prk info done ++ info ++
        [UInt8.ofNat (done + 1)]) = Rfc.expandBlock sha256 prk info (done + 1) := rfl
    have later := @ih (done + 1) (remaining - min remaining 32) (by omega) (by omega)
    rw [blocks_step (by decide) (Nat.pos_of_ne_zero some)
      (fun index => by rw [Rfc.expandBlock, length_hmacSha256])]
    simp only [counter, chained]
    rw [block, later]
    congr 2
    funext index
    congr 1
    omega

/-- `hkdf_expand` is HKDF-Expand for every output that the standard allows. -/
theorem hkdfExpand_eq {prk info : List UInt8} {outLen : Nat} (short : info.length ≤ 512)
    (few : outLen ≤ 255 * 32) :
    hkdfExpand sha256 prk info outLen = Rfc.expand sha256 prk info outLen := by
  rw [hkdfExpand, if_neg (not_lt.mpr short), Rfc.expand]
  apply (expandLoop_eq prk info 0 (Nat.le_refl outLen) (by omega)).trans
  simp only [zero_add]

lemma ascii_append (first second : String) :
    ascii (first ++ second) = ascii first ++ ascii second := by
  simp [ascii]

/-- `hkdf_expand_label` is HKDF-Expand-Label while nothing is clipped. -/
theorem hkdfExpandLabel_eq {secret context : List UInt8} {label : String} {outLen : Nat}
    (shortLabel : (ascii label).length ≤ 249) (shortContext : context.length ≤ 253)
    (few : outLen ≤ 255 * 32) :
    hkdfExpandLabel sha256 secret label context outLen =
      Rfc.expandLabel sha256 secret label context outLen := by
  have tagLength : (ascii "tls13 ").length = 6 := by decide
  simp only [hkdfExpandLabel, Rfc.expandLabel]
  rw [List.take_of_length_le shortLabel, List.take_of_length_le (by omega), ascii_append,
    List.length_append, tagLength, ← List.append_assoc]
  refine hkdfExpand_eq ?_ few
  simp only [List.length_append, length_encodeBE, List.length_singleton, tagLength]
  omega

/-- The loop of the PRF once its buffer holds `A(done + 1)`. -/
theorem prfLoop_eq (secret seed : List UInt8) (done : Nat) {rounds remaining : Nat}
    (enough : remaining ≤ rounds) :
    prfLoop sha256 secret seed rounds (Rfc.chained sha256 secret seed (done + 1)) remaining =
      blocks 32 (fun index => hmacSha256 sha256 secret
        (Rfc.chained sha256 secret seed (done + index + 1) ++ seed)) remaining := by
  induction rounds generalizing done remaining with
  | zero =>
    rw [Nat.le_zero.mp enough, blocks_zero]
    rfl
  | succ rounds ih =>
    rw [prfLoop]
    split
    · rename_i none
      rw [none, blocks_zero]
    rename_i some
    rw [blocks_step (by decide) (Nat.pos_of_ne_zero some) (fun index => by simp)]
    simp only
    congr 1
    split
    · have later := @ih (done + 1) (remaining - min remaining 32) (by omega)
      rw [show hmacSha256 sha256 secret (Rfc.chained sha256 secret seed (done + 1)) =
        Rfc.chained sha256 secret seed (done + 1 + 1) from rfl, later]
      congr 1
      funext index
      congr 3
      omega
    · rename_i last
      have finished : remaining - min remaining 32 = 0 := Nat.eq_zero_of_not_pos last
      rw [finished, blocks_zero]
      cases rounds <;> simp [prfLoop]

lemma tls12Prf_eq (secret : List UInt8) (label : String) (seed : List UInt8) (outLen : Nat) :
    tls12Prf sha256 secret label seed outLen = Rfc.prf sha256 secret label seed outLen := by
  apply (prfLoop_eq secret (ascii label ++ seed) 0 (Nat.le_refl outLen)).trans
  simp only [Rfc.prf, zero_add]

end

end CupidOs.Tls
