/-!
# The XXH3 hash, 64 bits

The hash of a byte string under seed 0 and the standard secret. Short inputs (up to 16 bytes,
in three classes) mix a few words of input with words of the secret; inputs up to 240 bytes add
up the mixes of their 16-byte pieces; longer inputs run eight accumulators over 64-byte stripes,
sixteen stripes to a block, scramble them after every block, and merge them at the end.

All words are little-endian. A product of two words is folded to one by combining its halves
with exclusive or.
-/

namespace Typeahead.Hash

/-! ### Constants -/

/-- The standard secret. -/
def secret : ByteArray := ⟨#[
  0xb8, 0xfe, 0x6c, 0x39, 0x23, 0xa4, 0x4b, 0xbe, 0x7c, 0x01, 0x81, 0x2c, 0xf7, 0x21, 0xad, 0x1c,
  0xde, 0xd4, 0x6d, 0xe9, 0x83, 0x90, 0x97, 0xdb, 0x72, 0x40, 0xa4, 0xa4, 0xb7, 0xb3, 0x67, 0x1f,
  0xcb, 0x79, 0xe6, 0x4e, 0xcc, 0xc0, 0xe5, 0x78, 0x82, 0x5a, 0xd0, 0x7d, 0xcc, 0xff, 0x72, 0x21,
  0xb8, 0x08, 0x46, 0x74, 0xf7, 0x43, 0x24, 0x8e, 0xe0, 0x35, 0x90, 0xe6, 0x81, 0x3a, 0x26, 0x4c,
  0x3c, 0x28, 0x52, 0xbb, 0x91, 0xc3, 0x00, 0xcb, 0x88, 0xd0, 0x65, 0x8b, 0x1b, 0x53, 0x2e, 0xa3,
  0x71, 0x64, 0x48, 0x97, 0xa2, 0x0d, 0xf9, 0x4e, 0x38, 0x19, 0xef, 0x46, 0xa9, 0xde, 0xac, 0xd8,
  0xa8, 0xfa, 0x76, 0x3f, 0xe3, 0x9c, 0x34, 0x3f, 0xf9, 0xdc, 0xbb, 0xc7, 0xc7, 0x0b, 0x4f, 0x1d,
  0x8a, 0x51, 0xe0, 0x4b, 0xcd, 0xb4, 0x59, 0x31, 0xc8, 0x9f, 0x7e, 0xc9, 0xd9, 0x78, 0x73, 0x64,
  0xea, 0xc5, 0xac, 0x83, 0x34, 0xd3, 0xeb, 0xc3, 0xc5, 0x81, 0xa0, 0xff, 0xfa, 0x13, 0x63, 0xeb,
  0x17, 0x0d, 0xdd, 0x51, 0xb7, 0xf0, 0xda, 0x49, 0xd3, 0x16, 0x55, 0x26, 0x29, 0xd4, 0x68, 0x9e,
  0x2b, 0x16, 0xbe, 0x58, 0x7d, 0x47, 0xa1, 0xfc, 0x8f, 0xf8, 0xb8, 0xd1, 0x7a, 0xd0, 0x31, 0xce,
  0x45, 0xcb, 0x3a, 0x8f, 0x95, 0x16, 0x04, 0x28, 0xaf, 0xd7, 0xfb, 0xca, 0xbb, 0x4b, 0x40, 0x7e]⟩

/-- The first of the 32-bit primes. -/
def prime32a : UInt64 := 0x9E3779B1

/-- The second of the 32-bit primes. -/
def prime32b : UInt64 := 0x85EBCA77

/-- The third of the 32-bit primes. -/
def prime32c : UInt64 := 0xC2B2AE3D

/-- The first of the 64-bit primes. -/
def prime64a : UInt64 := 0x9E3779B185EBCA87

/-- The second of the 64-bit primes. -/
def prime64b : UInt64 := 0xC2B2AE3D27D4EB4F

/-- The third of the 64-bit primes. -/
def prime64c : UInt64 := 0x165667B19E3779F9

/-- The fourth of the 64-bit primes. -/
def prime64d : UInt64 := 0x85EBCA77C2B2AE63

/-- The fifth of the 64-bit primes. -/
def prime64e : UInt64 := 0x27D4EB2F165667C5

/-! ### Words -/

/-- The byte at `i`, or zero past the end. -/
def byteAt (b : ByteArray) (i : Nat) : UInt64 :=
  if h : i < b.size then b[i].toUInt64 else 0

/-- The 32-bit word at `i`. -/
def word32 (b : ByteArray) (i : Nat) : UInt64 :=
  byteAt b i ||| byteAt b (i + 1) <<< 8 ||| byteAt b (i + 2) <<< 16 ||| byteAt b (i + 3) <<< 24

/-- The 64-bit word at `i`. -/
def word64 (b : ByteArray) (i : Nat) : UInt64 := word32 b i ||| word32 b (i + 4) <<< 32

/-- Rotation to the left. -/
def rotate (x k : UInt64) : UInt64 := x <<< k ||| x >>> (64 - k)

/-- The bytes of a word in the opposite order. -/
def swapBytes (x : UInt64) : UInt64 :=
  (List.range 8).foldl (fun acc i => acc <<< 8 ||| (x >>> (8 * i.toUInt64) &&& 0xFF)) 0

/-- The halves of the 128-bit product, combined with exclusive or. -/
def foldProduct (x y : UInt64) : UInt64 :=
  let product := x.toNat * y.toNat
  product.toUInt64 ^^^ (product / UInt64.size).toUInt64

/-! ### Finishing -/

/-- The finish of pieces longer than three bytes. -/
def finish (h : UInt64) : UInt64 :=
  let h := (h ^^^ h >>> 37) * 0x165667919E3779F9
  h ^^^ h >>> 32

/-- The stronger finish of pieces of at most three bytes. -/
def finishShort (h : UInt64) : UInt64 :=
  let h := (h ^^^ h >>> 33) * prime64b
  let h := (h ^^^ h >>> 29) * prime64c
  h ^^^ h >>> 32

/-- The finish of pieces of four to eight bytes. -/
def finishHalf (h length : UInt64) : UInt64 :=
  let h := (h ^^^ rotate h 49 ^^^ rotate h 24) * 0x9FB21C651E98DF25
  let h := (h ^^^ (h >>> 35 + length)) * 0x9FB21C651E98DF25
  h ^^^ h >>> 28

/-! ### Inputs up to 240 bytes -/

/-- Inputs of at most 16 bytes. -/
def hashUpTo16 (b : ByteArray) : UInt64 :=
  let n := b.size
  let length := n.toUInt64
  if 8 < n then
    let low := word64 b 0 ^^^ (word64 secret 24 ^^^ word64 secret 32)
    let high := word64 b (n - 8) ^^^ (word64 secret 40 ^^^ word64 secret 48)
    finish (length + swapBytes low + high + foldProduct low high)
  else if 4 ≤ n then
    let flip := word64 secret 8 ^^^ word64 secret 16
    finishHalf ((word32 b (n - 4) + word32 b 0 <<< 32) ^^^ flip) length
  else if 0 < n then
    let combined :=
      byteAt b 0 <<< 16 ||| byteAt b (n / 2) <<< 24 ||| byteAt b (n - 1) ||| length <<< 8
    finishShort (combined ^^^ (word32 secret 0 ^^^ word32 secret 4))
  else finishShort (word64 secret 56 ^^^ word64 secret 64)

/-- The mix of the 16 bytes at `i` with the secret at `k`. -/
def mix16 (b : ByteArray) (i k : Nat) : UInt64 :=
  foldProduct (word64 b i ^^^ word64 secret k) (word64 b (i + 8) ^^^ word64 secret (k + 8))

/-- Inputs of 17 to 128 bytes: pieces from both ends, as far as they reach towards each other. -/
def hashUpTo128 (b : ByteArray) : UInt64 :=
  let n := b.size
  let pairs := (n - 1) / 32 + 1
  finish <| (List.range pairs).foldl
    (fun acc i => acc + mix16 b (16 * i) (32 * i) + mix16 b (n - 16 * (i + 1)) (32 * i + 16))
    (n.toUInt64 * prime64a)

/-- Inputs of 129 to 240 bytes: all 16-byte pieces, with a finish after the first eight. -/
def hashUpTo240 (b : ByteArray) : UInt64 :=
  let n := b.size
  let first := (List.range 8).foldl (fun acc i => acc + mix16 b (16 * i) (16 * i))
    (n.toUInt64 * prime64a)
  let rest := (List.range (n / 16 - 8)).foldl
    (fun acc i => acc + mix16 b (16 * (i + 8)) (16 * i + 3)) (finish first)
  finish (rest + mix16 b (n - 16) 119)

/-! ### Longer inputs -/

/-- The eight accumulators at the start. -/
def initialLanes : Array UInt64 :=
  #[prime32c, prime64a, prime64b, prime64c, prime64d, prime32b, prime64e, prime32a]

/-- Takes the 64-byte stripe at `i` in, under the secret at `k`. Every lane adds the product of
the halves of its keyed word and its neighbour's word as it stands. -/
def addStripe (b : ByteArray) (lanes : Array UInt64) (i k : Nat) : Array UInt64 :=
  lanes.mapIdx fun lane (acc : UInt64) =>
    let keyed : UInt64 := word64 b (i + 8 * lane) ^^^ word64 secret (k + 8 * lane)
    let neighbour := if lane % 2 = 0 then lane + 1 else lane - 1
    acc + keyed.toUInt32.toUInt64 * (keyed >>> 32) + word64 b (i + 8 * neighbour)

/-- Takes `count` stripes in, from `i` on, moving eight bytes along the secret for each. -/
def addStripes (b : ByteArray) (lanes : Array UInt64) (i count : Nat) : Array UInt64 :=
  (List.range count).foldl (fun lanes s => addStripe b lanes (i + 64 * s) (8 * s)) lanes

/-- Scrambles the accumulators at the end of a block. -/
def scramble (lanes : Array UInt64) : Array UInt64 :=
  lanes.mapIdx fun lane (acc : UInt64) =>
    (acc ^^^ (acc >>> 47) ^^^ word64 secret (128 + 8 * lane)) * prime32a

/-- Merges the accumulators, in pairs, onto a start value. -/
def mergeLanes (lanes : Array UInt64) (start : UInt64) : UInt64 :=
  finish <| (List.range 4).foldl
    (fun acc i => acc + foldProduct (lanes.getD (2 * i) 0 ^^^ word64 secret (11 + 16 * i))
      (lanes.getD (2 * i + 1) 0 ^^^ word64 secret (19 + 16 * i)))
    start

/-- Inputs of more than 240 bytes. The last stripe ends with the input, whether or not it
overlaps the one before it. -/
def hashLong (b : ByteArray) : UInt64 :=
  let n := b.size
  let blocks := (n - 1) / 1024
  let lanes := (List.range blocks).foldl
    (fun lanes block => scramble (addStripes b lanes (1024 * block) 16)) initialLanes
  let lanes := addStripes b lanes (1024 * blocks) ((n - 1 - 1024 * blocks) / 64)
  mergeLanes (addStripe b lanes (n - 64) 121) (n.toUInt64 * prime64a)

/-- The hash of a byte string. -/
def xxh3 (b : ByteArray) : UInt64 :=
  if b.size ≤ 16 then hashUpTo16 b
  else if b.size ≤ 128 then hashUpTo128 b
  else if b.size ≤ 240 then hashUpTo240 b
  else hashLong b

end Typeahead.Hash
