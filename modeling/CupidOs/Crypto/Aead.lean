import CupidOs.Bytes.Keystream
import CupidOs.Crypto.ConstantTime
import CupidOs.Crypto.Poly1305Tag

/-!
# Authenticated encryption

The suites of `kernel/crypto/chacha20poly1305.c` and `kernel/crypto/aes_gcm.c`: stream ciphers
with a tag that opening recomputes before it decrypts. The block functions `chacha20_block`,
`aes128_encrypt_block` and `ghash_mul` are parameters: the results hold for every choice of them.
-/

namespace CupidOs.Crypto

open Bytes
open List hiding Vector

/-- Sealing returns the ciphertext and the tag, opening the plaintext if the tag is accepted. -/
structure Aead where
  sealWith : (key nonce aad plaintext : List UInt8) → List UInt8 × List UInt8
  openWith : (key nonce aad ciphertext tag : List UInt8) → Option (List UInt8)

/-- What a sender and a receiver with one key rely on. -/
structure Aead.Correct (aead : Aead) : Prop where
  length_ciphertext : ∀ key nonce aad plaintext,
    (aead.sealWith key nonce aad plaintext).1.length = plaintext.length
  length_tag : ∀ key nonce aad plaintext, (aead.sealWith key nonce aad plaintext).2.length = 16
  openWith_sealWith : ∀ key nonce aad plaintext,
    aead.openWith key nonce aad (aead.sealWith key nonce aad plaintext).1
      (aead.sealWith key nonce aad plaintext).2 = some plaintext

/-- The ciphertext with the tag behind it. -/
def Aead.sealBytes (aead : Aead) (key nonce aad plaintext : List UInt8) : List UInt8 :=
  (aead.sealWith key nonce aad plaintext).1 ++ (aead.sealWith key nonce aad plaintext).2

section

variable {aead : Aead} (correct : aead.Correct) (key nonce aad plaintext : List UInt8)
include correct

lemma Aead.Correct.length_sealBytes :
    (aead.sealBytes key nonce aad plaintext).length = plaintext.length + 16 := by
  rw [sealBytes, length_append, correct.length_ciphertext, correct.length_tag]

lemma Aead.Correct.open_sealBytes :
    aead.openWith key nonce aad ((aead.sealBytes key nonce aad plaintext).take plaintext.length)
      ((aead.sealBytes key nonce aad plaintext).drop plaintext.length) = some plaintext := by
  have length := correct.length_ciphertext key nonce aad plaintext
  rw [sealBytes, take_left' length, drop_left' length, correct.openWith_sealWith]

end

/-- A stream cipher with a tag over the ciphertext. -/
def encryptThenTag (cipher : (key nonce data : List UInt8) → List UInt8)
    (tag : (key nonce aad ciphertext : List UInt8) → List UInt8) : Aead where
  sealWith key nonce aad plaintext :=
    let ciphertext := cipher key nonce plaintext
    (ciphertext, tag key nonce aad ciphertext)
  openWith key nonce aad ciphertext given :=
    if ctMemcmp (tag key nonce aad ciphertext) given 16 = 0 then
      some (cipher key nonce ciphertext)
    else
      none

lemma encryptThenTag_correct {cipher : (key nonce data : List UInt8) → List UInt8}
    {tag : (key nonce aad ciphertext : List UInt8) → List UInt8}
    (sized : ∀ key nonce data, (cipher key nonce data).length = data.length)
    (inverse : ∀ key nonce data, cipher key nonce (cipher key nonce data) = data)
    (tagSize : ∀ key nonce aad ciphertext, (tag key nonce aad ciphertext).length = 16) :
    (encryptThenTag cipher tag).Correct where
  length_ciphertext _ _ _ _ := sized _ _ _
  length_tag _ _ _ _ := tagSize _ _ _ _
  openWith_sealWith key nonce aad plaintext := by
    have same := (ctMemcmp_eq_zero_iff (tagSize key nonce aad (cipher key nonce plaintext))
      (tagSize _ _ _ _)).mpr rfl
    simp only [encryptThenTag, same, if_true, inverse]

/-- The block functions below the two suites. -/
structure BlockFunctions where
  chacha20Block : (key : List UInt8) → (counter : UInt32) → (nonce : List UInt8) → Vector UInt8 64
  aes128EncryptBlock : (key block : List UInt8) → Vector UInt8 16
  ghashMul : (x y : List UInt8) → Vector UInt8 16

section ChaCha

variable (functions : BlockFunctions)

/-- `chacha20_xor`. -/
def chacha20Xor (key : List UInt8) (counter : UInt32) (nonce input : List UInt8) : List UInt8 :=
  xorBlocks 64 (fun counter => (functions.chacha20Block key counter nonce).toList)
    (fun counter => counter + 1) counter input

/-- A string and the zeros that fill its last block of 16. -/
def padded (data : List UInt8) : List (List UInt8) :=
  if 0 < data.length then
    data ::
      if data.length % 16 ≠ 0 then [replicate (16 - data.length % 16) 0] else []
  else
    []

/-- `mac_data`: the chunks that go to `poly1305_update`. -/
def macData (aad ct : List UInt8) : List (List UInt8) :=
  padded aad ++ padded ct ++ [encodeLE 8 aad.length ++ encodeLE 8 ct.length]

/-- The tag of `chacha20poly1305_seal` and `chacha20poly1305_open`. -/
def chacha20poly1305Tag (key nonce aad ct : List UInt8) : List UInt8 :=
  let otkBlock := (functions.chacha20Block key 0 nonce).toList
  (Poly1305.tagOfChunks (otkBlock.take 32) (macData aad ct)).run

/-- `chacha20poly1305_seal` and `chacha20poly1305_open`. -/
def chacha20poly1305 : Aead :=
  encryptThenTag (fun key nonce data => chacha20Xor functions key 1 nonce data)
    (chacha20poly1305Tag functions)

lemma chacha20poly1305_correct : (chacha20poly1305 functions).Correct := by
  have sized (key nonce : List UInt8) (counter : UInt32) :
      (functions.chacha20Block key counter nonce).toList.length = 64 := by simp
  refine encryptThenTag_correct ?_ ?_ ?_
  · intro key nonce data
    exact length_xorBlocks (by decide) (sized key nonce) 1 data
  · intro key nonce data
    exact xorBlocks_xorBlocks (by decide) (sized key nonce) 1 data
  · intro key nonce aad ciphertext
    have keyLength : ((functions.chacha20Block key 0 nonce).toList.take 32).length = 32 := by
      rw [length_take, sized]
      rfl
    have tagEq := (Poly1305.tagOfChunks_returns keyLength (macData aad ciphertext)).2
    rw [chacha20poly1305Tag, tagEq, Poly1305.length_rfcTag]

end ChaCha

section Gcm

variable (functions : BlockFunctions)

/-- Add one to a number stored least significant byte first. -/
def incBytes : List UInt8 → List UInt8
  | [] => []
  | byte :: bytes => if byte + 1 ≠ 0 then (byte + 1) :: bytes else (byte + 1) :: incBytes bytes

/-- `inc32`: the last four bytes of a counter count up in network order. -/
def inc32 (ctr : List UInt8) : List UInt8 :=
  ctr.take 12 ++ (incBytes (ctr.drop 12).reverse).reverse

/-- `ghash_update`. -/
def ghashUpdate (h y data : List UInt8) : List UInt8 :=
  if 0 < data.length then
    let block := data.take 16 ++ replicate (16 - (data.take 16).length) 0
    ghashUpdate h (functions.ghashMul (xorBytes y block) h).toList (data.drop 16)
  else
    y
termination_by data.length
decreasing_by
  rw [length_drop]
  omega

/-- `gcm_compute_tag`. -/
def gcmComputeTag (key h j0 aad ct : List UInt8) : List UInt8 :=
  let y := ghashUpdate functions h (replicate 16 0) aad
  let y := ghashUpdate functions h y ct
  let lenblock := encodeBE 8 (aad.length * 8) ++ encodeBE 8 (ct.length * 8)
  let y := (functions.ghashMul (xorBytes y lenblock) h).toList
  xorBytes y (functions.aes128EncryptBlock key j0).toList

/-- `J0` for a nonce of 12 bytes. -/
def gcmJ0 (nonce : List UInt8) : List UInt8 := nonce.take 12 ++ [0, 0, 0, 1]

/-- `aes_ctr_xor`. -/
def aesCtrXor (key ctr input : List UInt8) : List UInt8 :=
  xorBlocks 16 (fun ctr => (functions.aes128EncryptBlock key ctr).toList) inc32 ctr input

/-- `aes128_gcm_seal` and `aes128_gcm_open`. -/
def aes128Gcm : Aead :=
  encryptThenTag (fun key nonce data => aesCtrXor functions key (inc32 (gcmJ0 nonce)) data)
    (fun key nonce aad ct =>
      gcmComputeTag functions key (functions.aes128EncryptBlock key (replicate 16 0)).toList
        (gcmJ0 nonce) aad ct)

lemma aes128Gcm_correct : (aes128Gcm functions).Correct := by
  have sized (key ctr : List UInt8) :
      (functions.aes128EncryptBlock key ctr).toList.length = 16 := by simp
  refine encryptThenTag_correct ?_ ?_ ?_
  · intro key nonce data
    exact length_xorBlocks (by decide) (sized key) _ data
  · intro key nonce data
    exact xorBlocks_xorBlocks (by decide) (sized key) _ data
  · intro key nonce aad ciphertext
    simp [gcmComputeTag]

end Gcm

end CupidOs.Crypto
