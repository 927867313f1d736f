import HierKvGateway.Metadata.CuckooFilter

/-!
# Metadata.Xxh3 — the hash function on short inputs

The filter hashes two-byte fingerprints and eight-byte block hashes only, the
dispatch history block hashes and pairs of hashes. This file spells out what
XXH3 (64 bits, with a seed, default secret) computes on inputs of one to three,
of four to eight and of nine to sixteen bytes. The results of the other files
hold for every hash function; this one serves to run the model on concrete
inputs.
-/

namespace HierKvGateway

namespace Xxh3

/-- Read `n` bytes from offset `k`, little endian. -/
def readLe (b : List (BitVec 8)) (k n : Nat) : BitVec 64 :=
  ((b.drop k).take n).foldr (fun byte acc => (acc <<< 8) ||| byte.setWidth 64) 0

/-- The final mixer for one to three bytes. -/
def avalanche (h : BitVec 64) : BitVec 64 :=
  let h := (h ^^^ (h >>> 33)) * 0xC2B2AE3D27D4EB4F#64
  let h := (h ^^^ (h >>> 29)) * 0x165667B19E3779F9#64
  h ^^^ (h >>> 32)

/-- The final mixer for four to eight bytes. -/
def rrmxmx (h : BitVec 64) (len : Nat) : BitVec 64 :=
  let h := h ^^^ h.rotateLeft 49 ^^^ h.rotateLeft 24
  let h := h * 0x9FB21C651E98DF25#64
  let h := h ^^^ ((h >>> 35) + BitVec.ofNat 64 len)
  let h := h * 0x9FB21C651E98DF25#64
  h ^^^ (h >>> 28)

/-- Byte swap of the low 32 bits. -/
def swap32 (x : BitVec 64) : BitVec 64 :=
  ((x &&& 0xFF) <<< 24) ||| ((x &&& 0xFF00) <<< 8) ||| ((x >>> 8) &&& 0xFF00) |||
    ((x >>> 24) &&& 0xFF)

/-- One to three bytes. -/
def len1To3 (b : List (BitVec 8)) (seed : BitVec 64) : BitVec 64 :=
  let c1 := readLe b 0 1
  let c2 := readLe b (b.length / 2) 1
  let c3 := readLe b (b.length - 1) 1
  let combined := (c1 <<< 16) ||| (c2 <<< 24) ||| c3 ||| (BitVec.ofNat 64 b.length <<< 8)
  avalanche (combined ^^^ (0x87275A9B#64 + seed))

/-- Four to eight bytes. -/
def len4To8 (b : List (BitVec 8)) (seed : BitVec 64) : BitVec 64 :=
  let seed := seed ^^^ (swap32 seed <<< 32)
  let input := readLe b (b.length - 4) 4 + (readLe b 0 4 <<< 32)
  rrmxmx (input ^^^ (0xC73AB174C5ECD5A2#64 - seed)) b.length

/-- XXH3 on inputs of one to eight bytes. -/
def short : Xxh3 := fun b seed => if b.length ≤ 3 then len1To3 b seed else len4To8 b seed

/-! The hash of `"abc"` and of `"abcd"` with seed 0. -/

example : short [0x61, 0x62, 0x63] 0 = 0x78AF5F94892F3950#64 := by decide +kernel

example : short [0x61, 0x62, 0x63, 0x64] 0 = 0x6497A96F53A89890#64 := by decide +kernel

/-- The final mixer for nine to sixteen bytes. -/
def avalanche64 (h : BitVec 64) : BitVec 64 :=
  let h := (h ^^^ (h >>> 37)) * 0x165667919E3779F9#64
  h ^^^ (h >>> 32)

/-- Byte swap of 64 bits. -/
def swap64 (x : BitVec 64) : BitVec 64 := (swap32 x <<< 32) ||| swap32 (x >>> 32)

/-- The two halves of a product of 128 bits, combined. -/
def mul128Fold64 (x y : BitVec 64) : BitVec 64 :=
  let product := x.setWidth 128 * y.setWidth 128
  product.setWidth 64 ^^^ (product >>> 64).setWidth 64

/-- Nine to sixteen bytes. -/
def len9To16 (b : List (BitVec 8)) (seed : BitVec 64) : BitVec 64 :=
  let lo := readLe b 0 8 ^^^ (0x6782737BEA4239B9#64 + seed)
  let hi := readLe b (b.length - 8) 8 ^^^ (0xAF56BC3B0996523A#64 - seed)
  avalanche64 (BitVec.ofNat 64 b.length + swap64 lo + hi + mul128Fold64 lo hi)

/-- XXH3 on inputs of one to sixteen bytes. -/
def upTo16 : Xxh3 := fun b seed => if b.length ≤ 8 then short b seed else len9To16 b seed

/-! The hash of the first twelve bytes of the reference implementation's test data. -/

example : upTo16 [0, 82, 146, 155, 183, 50, 163, 36, 45, 0, 175, 149] 0 = 0xA713DAF0DFBB77E7#64 := by
  decide +kernel

end Xxh3

end HierKvGateway
