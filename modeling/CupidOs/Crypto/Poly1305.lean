import CupidOs.Bytes.Codec
import CupidOs.Words.Code
import Mathlib.Data.Nat.ModEq

/-!
# Poly1305

`kernel/crypto/poly1305.c`: five limbs in radix `2 ^ 26`, a buffer for an unfinished block, and a
final reduction that selects between two candidates with a mask. Every sum, difference and product
of the limbs is a step of a word computation, so that a statement about the tag also covers the
widths.
-/

namespace CupidOs.Crypto.Poly1305

open Bytes List Words Words.Code

/-- A number in five limbs of radix `2 ^ 26`. -/
structure Limbs where
  l0 : Nat
  l1 : Nat
  l2 : Nat
  l3 : Nat
  l4 : Nat
  deriving DecidableEq

/-- The number that five limbs denote. -/
def Limbs.value (limbs : Limbs) : Nat :=
  limbs.l0 + 2 ^ 26 * limbs.l1 + 2 ^ 52 * limbs.l2 + 2 ^ 78 * limbs.l3 + 2 ^ 104 * limbs.l4

/-- `ctx->pad`. -/
structure Pad where
  w0 : Nat
  w1 : Nat
  w2 : Nat
  w3 : Nat
  deriving DecidableEq

/-- The number that four words denote. -/
def Pad.value (pad : Pad) : Nat :=
  pad.w0 + 2 ^ 32 * pad.w1 + 2 ^ 64 * pad.w2 + 2 ^ 96 * pad.w3

/-- `poly1305_ctx_t`; `buffer` holds its first `buflen` bytes. -/
structure Ctx where
  r : Limbs
  h : Limbs
  pad : Pad
  buffer : List UInt8
  deriving DecidableEq

/-- `load_le32` at an offset. -/
def loadLE32 (p : List UInt8) (offset : Nat) : Nat :=
  (p.getD offset 0).toNat ||| (p.getD (offset + 1) 0).toNat <<< 8 |||
    (p.getD (offset + 2) 0).toNat <<< 16 ||| (p.getD (offset + 3) 0).toNat <<< 24

/-- `store_le32`. -/
def storeLE32 (v : Nat) : List UInt8 :=
  [UInt8.ofNat (v &&& 0xFF), UInt8.ofNat (v >>> 8 &&& 0xFF), UInt8.ofNat (v >>> 16 &&& 0xFF),
    UInt8.ofNat (v >>> 24 &&& 0xFF)]

/-- `poly1305_init`. -/
def poly1305Init (key : List UInt8) : Ctx where
  r :=
    { l0 := loadLE32 key 0 &&& 0x03ffffff
      l1 := loadLE32 key 3 >>> 2 &&& 0x03ffff03
      l2 := loadLE32 key 6 >>> 4 &&& 0x03ffc0ff
      l3 := loadLE32 key 9 >>> 6 &&& 0x03f03fff
      l4 := loadLE32 key 12 >>> 8 &&& 0x000fffff }
  h := ⟨0, 0, 0, 0, 0⟩
  pad := ⟨loadLE32 key 16, loadLE32 key 20, loadLE32 key 24, loadLE32 key 28⟩
  buffer := []

/-- A sum of five products, as each of `d0` to `d4` is one. -/
def sumOfProducts (h r : Limbs) : Code Nat := do
  let p0 ← product 64 h.l0 r.l0
  let p1 ← product 64 h.l1 r.l1
  let p2 ← product 64 h.l2 r.l2
  let p3 ← product 64 h.l3 r.l3
  let p4 ← product 64 h.l4 r.l4
  let d ← sum 64 p0 p1
  let d ← sum 64 d p2
  let d ← sum 64 d p3
  let d ← sum 64 d p4
  pure d

/-- The carry chain at the end of `poly1305_block`. -/
def carryProducts (d0 d1 d2 d3 d4 : Nat) : Code Limbs := do
  let c ← narrow 32 (d0 >>> 26)
  let h0 := d0 &&& 0x03ffffff
  let d1 ← sum 64 d1 c
  let c ← narrow 32 (d1 >>> 26)
  let h1 := d1 &&& 0x03ffffff
  let d2 ← sum 64 d2 c
  let c ← narrow 32 (d2 >>> 26)
  let h2 := d2 &&& 0x03ffffff
  let d3 ← sum 64 d3 c
  let c ← narrow 32 (d3 >>> 26)
  let h3 := d3 &&& 0x03ffffff
  let d4 ← sum 64 d4 c
  let c ← narrow 32 (d4 >>> 26)
  let h4 := d4 &&& 0x03ffffff
  let c5 ← product 32 c 5
  let h0 ← sum 32 h0 c5
  let c := h0 >>> 26
  let h0 := h0 &&& 0x03ffffff
  let h1 ← sum 32 h1 c
  pure ⟨h0, h1, h2, h3, h4⟩

/-- The multiplication of `poly1305_block`; `s1` to `s4` are the limbs of `r` times five. -/
def multiply (h r : Limbs) (s1 s2 s3 s4 : Nat) : Code Limbs := do
  let d0 ← sumOfProducts h ⟨r.l0, s4, s3, s2, s1⟩
  let d1 ← sumOfProducts h ⟨r.l1, r.l0, s4, s3, s2⟩
  let d2 ← sumOfProducts h ⟨r.l2, r.l1, r.l0, s4, s3⟩
  let d3 ← sumOfProducts h ⟨r.l3, r.l2, r.l1, r.l0, s4⟩
  let d4 ← sumOfProducts h ⟨r.l4, r.l3, r.l2, r.l1, r.l0⟩
  carryProducts d0 d1 d2 d3 d4

/-- `poly1305_block`. -/
def poly1305Block (ctx : Ctx) (m : List UInt8) (lastPartial : Bool) : Code Ctx := do
  let r := ctx.r
  let s1 ← product 32 r.l1 5
  let s2 ← product 32 r.l2 5
  let s3 ← product 32 r.l3 5
  let s4 ← product 32 r.l4 5
  let hibit := if lastPartial then 0 else 1 <<< 24
  let h0 ← sum 32 ctx.h.l0 (loadLE32 m 0 &&& 0x03ffffff)
  let h1 ← sum 32 ctx.h.l1 (loadLE32 m 3 >>> 2 &&& 0x03ffffff)
  let h2 ← sum 32 ctx.h.l2 (loadLE32 m 6 >>> 4 &&& 0x03ffffff)
  let h3 ← sum 32 ctx.h.l3 (loadLE32 m 9 >>> 6 &&& 0x03ffffff)
  let h4 ← sum 32 ctx.h.l4 (loadLE32 m 12 >>> 8 ||| hibit)
  let h ← multiply ⟨h0, h1, h2, h3, h4⟩ r s1 s2 s3 s4
  pure { ctx with h }

/-- The loop of `poly1305_update` over whole blocks; what is left is returned. -/
def updateBlocks (ctx : Ctx) (m : List UInt8) : Code (Ctx × List UInt8) := do
  if 16 ≤ m.length then
    let ctx ← poly1305Block ctx (m.take 16) false
    updateBlocks ctx (m.drop 16)
  else
    pure (ctx, m)
termination_by m.length
decreasing_by
  rw [length_drop]
  omega

/-- The rest of `poly1305_update` once the buffered block is filled or empty. -/
def updateRest (ctx : Ctx) (m : List UInt8) : Code Ctx := do
  let (ctx, tail) ← updateBlocks ctx m
  pure { ctx with buffer := ctx.buffer ++ tail }

/-- `poly1305_update`. -/
def poly1305Update (ctx : Ctx) (m : List UInt8) : Code Ctx := do
  if 0 < ctx.buffer.length then
    let need := 16 - ctx.buffer.length
    let take := if m.length < need then m.length else need
    let ctx := { ctx with buffer := ctx.buffer ++ m.take take }
    if ctx.buffer.length = 16 then
      let ctx ← poly1305Block ctx ctx.buffer false
      updateRest { ctx with buffer := [] } (m.drop take)
    else
      updateRest ctx (m.drop take)
  else
    updateRest ctx m

/-- The carry chain at the start of the final reduction. -/
def carryFinal (h : Limbs) : Code Limbs := do
  let c := h.l1 >>> 26
  let h1 := h.l1 &&& 0x03ffffff
  let h2 ← sum 32 h.l2 c
  let c := h2 >>> 26
  let h2 := h2 &&& 0x03ffffff
  let h3 ← sum 32 h.l3 c
  let c := h3 >>> 26
  let h3 := h3 &&& 0x03ffffff
  let h4 ← sum 32 h.l4 c
  let c := h4 >>> 26
  let h4 := h4 &&& 0x03ffffff
  let c5 ← product 32 c 5
  let h0 ← sum 32 h.l0 c5
  let c := h0 >>> 26
  let h0 := h0 &&& 0x03ffffff
  let h1 ← sum 32 h1 c
  pure ⟨h0, h1, h2, h3, h4⟩

/-- `(h & ~mask) | (g & mask)`. -/
def select (mask h g : Nat) : Nat := h &&& (mask ^^^ 0xFFFFFFFF) ||| g &&& mask

/-- The conditional subtraction of `2 ^ 130 - 5`. -/
def reduceFinal (h : Limbs) : Code Limbs := do
  let g0 ← sum 32 h.l0 5
  let c := g0 >>> 26
  let g0 := g0 &&& 0x03ffffff
  let g1 ← sum 32 h.l1 c
  let c := g1 >>> 26
  let g1 := g1 &&& 0x03ffffff
  let g2 ← sum 32 h.l2 c
  let c := g2 >>> 26
  let g2 := g2 &&& 0x03ffffff
  let g3 ← sum 32 h.l3 c
  let c := g3 >>> 26
  let g3 := g3 &&& 0x03ffffff
  let g4 ← sum 32 h.l4 c
  let g4 ← difference 32 g4 (1 <<< 26)
  let mask ← difference 32 (g4 >>> 31) 1
  pure
    { l0 := select mask h.l0 g0
      l1 := select mask h.l1 g1
      l2 := select mask h.l2 g2
      l3 := select mask h.l3 g3
      l4 := select mask h.l4 g4 }

/-- Pack five limbs into four words. -/
def pack (h : Limbs) : Pad where
  w0 := (h.l0 ||| h.l1 <<< 26) % 2 ^ 32
  w1 := (h.l1 >>> 6 ||| h.l2 <<< 20) % 2 ^ 32
  w2 := (h.l2 >>> 12 ||| h.l3 <<< 14) % 2 ^ 32
  w3 := (h.l3 >>> 18 ||| h.l4 <<< 8) % 2 ^ 32

/-- Add the second half of the key and store the tag. -/
def addPad (h pad : Pad) : Code (List UInt8) := do
  let f ← sum 64 h.w0 pad.w0
  let h0 := f % 2 ^ 32
  let t ← sum 64 h.w1 pad.w1
  let f ← sum 64 t (f >>> 32)
  let h1 := f % 2 ^ 32
  let t ← sum 64 h.w2 pad.w2
  let f ← sum 64 t (f >>> 32)
  let h2 := f % 2 ^ 32
  let t ← sum 64 h.w3 pad.w3
  let f ← sum 64 t (f >>> 32)
  let h3 := f % 2 ^ 32
  pure (storeLE32 h0 ++ storeLE32 h1 ++ storeLE32 h2 ++ storeLE32 h3)

/-- The last block, padded with a one and zeros. -/
def finishBlocks (ctx : Ctx) : Code Ctx :=
  if 0 < ctx.buffer.length then
    poly1305Block ctx (ctx.buffer ++ [1] ++ replicate (16 - (ctx.buffer.length + 1)) 0) true
  else
    pure ctx

/-- `poly1305_final`. -/
def poly1305Final (ctx : Ctx) : Code (List UInt8) := do
  let ctx ← finishBlocks ctx
  let h ← carryFinal ctx.h
  let h ← reduceFinal h
  addPad (pack h) ctx.pad

/-- The calls of `poly1305_update`, one for each chunk. -/
def updateAll (ctx : Ctx) : List (List UInt8) → Code Ctx
  | [] => pure ctx
  | chunk :: chunks => do
      let ctx ← poly1305Update ctx chunk
      updateAll ctx chunks

/-- A whole computation of a tag over a message that arrives in chunks. -/
def tagOfChunks (key : List UInt8) (chunks : List (List UInt8)) : Code (List UInt8) := do
  let ctx ← updateAll (poly1305Init key) chunks
  poly1305Final ctx

/-! ## The authenticator of RFC 8439 -/

/-- The prime `2 ^ 130 - 5`. -/
def prime : Nat := 2 ^ 130 - 5

/-- The bits of `r` that clamping keeps. -/
def clampMask : Nat := 0x0ffffffc0ffffffc0ffffffc0fffffff

/-- The blocks of a message; the last one may be shorter than 16 bytes. -/
def blocks : List UInt8 → List (List UInt8)
  | [] => []
  | byte :: bytes => (byte :: bytes).take 16 :: blocks ((byte :: bytes).drop 16)
termination_by message => message.length
decreasing_by
  rw [length_drop, length_cons]
  omega

/-- One step of the accumulator: the block with its high bit is added and the
sum multiplied by `r`. -/
def absorb (r accumulator : Nat) (block : List UInt8) : Nat :=
  (accumulator + (decodeLE block + 256 ^ block.length)) * r % prime

/-- The tag of a message. -/
def rfcTag (key message : List UInt8) : List UInt8 :=
  let r := decodeLE (key.take 16) &&& clampMask
  let s := decodeLE (key.drop 16)
  encodeLE 16 (((blocks message).foldl (absorb r) 0 + s) % 2 ^ 128)

end CupidOs.Crypto.Poly1305
