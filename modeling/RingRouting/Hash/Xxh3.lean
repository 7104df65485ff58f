import RingRouting.Hash.Bytes

/-!
# XXH3, 64 bits, seed zero

The hash has a rule of its own for each class of lengths: nothing, up to 3, 8, 16, 128 and 240
bytes, and longer inputs, which are cut into stripes of 64 bytes and blocks of 16 stripes. All of
them are keyed by the same fixed secret of 192 bytes.
-/

namespace RingRouting.Hash.Xxh3

/-- The fixed secret. -/
def secret : ByteArray := ⟨#[
  0xb8, 0xfe, 0x6c, 0x39, 0x23, 0xa4, 0x4b, 0xbe, 0x7c, 0x01, 0x81, 0x2c, 0xf7, 0x21, 0xad, 0x1c,
  0xde, 0xd4, 0x6d, 0xe9, 0x83, 0x90, 0x97, 0xdb, 0x72, 0x40, 0xa4, 0xa4, 0xb7, 0xb3, 0x67, 0x1f,
  0xcb, 0x79, 0xe6, 0x4e, 0xcc, 0xc0, 0xe5, 0x78, 0x82, 0x5a, 0xd0, 0x7d, 0xcc, 0xff, 0x72, 0x21,
  0xb8, 0x08, 0x46, 0x74, 0xf7, 0x43, 0x24, 0x8e, 0xe0, 0x35, 0x90, 0xe6, 0x81, 0x3a, 0x26, 0x4c,
  0x3c, 0x28, 0x52, 0xbb, 0x91, 0xc3, 0x00, 0xcb, 0x88, 0xd0, 0x65, 0x8b, 0x1b, 0x53, 0x2e, 0xa3,
  0x71, 0x64, 0x48, 0x97, 0xa2, 0x0d, 0xf9, 0x4e, 0x38, 0x19, 0xef, 0x46, 0xa9, 0xde, 0xac, 0xd8,
  0xa8, 0xfa, 0x76, 0x3f, 0xe3, 0x9c, 0x34, 0x3f, 0xf9, 0xdc, 0xbb, 0xc7, 0xc7, 0x0b, 0x4f, 0x1d,
  0x8a, 0x51, 0xe0, 0x4b, 0xcd, 0xb4, 0x59, 0x31, 0xc8, 0x9f, 0x7e, 0xc9, 0xd9, 0x78, 0x73, 0x64,
  0xea, 0xc5, 0xac, 0x83, 0x34, 0xd3, 0xeb, 0xc3, 0xc5, 0x81, 0xa0, 0xff, 0xfa, 0x13, 0x63, 0xeb,
  0x17, 0x0d, 0xdd, 0x51, 0xb7, 0xf0, 0xda, 0x49, 0xd3, 0x16, 0x55, 0x26, 0x29, 0xd4, 0x68, 0x9e,
  0x2b, 0x16, 0xbe, 0x58, 0x7d, 0x47, 0xa1, 0xfc, 0x8f, 0xf8, 0xb8, 0xd1, 0x7a, 0xd0, 0x31, 0xce,
  0x45, 0xcb, 0x3a, 0x8f, 0x95, 0x16, 0x04, 0x28, 0xaf, 0xd7, 0xfb, 0xca, 0xbb, 0x4b, 0x40, 0x7e]⟩

/-- The primes of the 32-bit and the 64-bit mixing steps. -/
def prime32a : UInt64 := 0x9e3779b1
@[inherit_doc prime32a] def prime32b : UInt64 := 0x85ebca77
@[inherit_doc prime32a] def prime32c : UInt64 := 0xc2b2ae3d
@[inherit_doc prime32a] def prime64a : UInt64 := 0x9e3779b185ebca87
@[inherit_doc prime32a] def prime64b : UInt64 := 0xc2b2ae3d27d4eb4f
@[inherit_doc prime32a] def prime64c : UInt64 := 0x165667b19e3779f9
@[inherit_doc prime32a] def prime64d : UInt64 := 0x85ebca77c2b2ae63
@[inherit_doc prime32a] def prime64e : UInt64 := 0x27d4eb2f165667c5

/-- The 64-bit word of the secret at position `i`. -/
def key (i : Nat) : UInt64 := word64At secret i

/-- The closing mix of inputs of at most three bytes. -/
def avalancheShort (h : UInt64) : UInt64 :=
  let h := (h ^^^ h >>> 33) * prime64b
  let h := (h ^^^ h >>> 29) * prime64c
  h ^^^ h >>> 32

/-- The closing mix of inputs of nine bytes and more. -/
def avalanche (h : UInt64) : UInt64 :=
  let h := (h ^^^ h >>> 37) * 0x165667919e3779f9
  h ^^^ h >>> 32

/-- One to three bytes: the first, middle and last byte and the length make one word. -/
def hash1to3 (b : ByteArray) : UInt64 :=
  let n := b.size
  let combined := (byteAt b 0).toUInt32 <<< 16 ||| (byteAt b (n / 2)).toUInt32 <<< 24 |||
    (byteAt b (n - 1)).toUInt32 ||| n.toUInt32 <<< 8
  let flip := word32At secret 0 ^^^ word32At secret 4
  avalancheShort (combined ^^^ flip).toUInt64

/-- Four to eight bytes: the first and the last four bytes, which may overlap. -/
def hash4to8 (b : ByteArray) : UInt64 :=
  let n := b.size
  let input := (word32At b (n - 4)).toUInt64 + (word32At b 0).toUInt64 <<< 32
  let h := input ^^^ key 8 ^^^ key 16
  let h := (h ^^^ rotateLeft64 h 49 ^^^ rotateLeft64 h 24) * 0x9fb21c651e98df25
  let h := (h ^^^ (h >>> 35 + n.toUInt64)) * 0x9fb21c651e98df25
  h ^^^ h >>> 28

/-- Nine to sixteen bytes: the first and the last eight bytes, which may overlap. -/
def hash9to16 (b : ByteArray) : UInt64 :=
  let n := b.size
  let low := word64At b 0 ^^^ key 24 ^^^ key 32
  let high := word64At b (n - 8) ^^^ key 40 ^^^ key 48
  avalanche (n.toUInt64 + swapBytes64 low + high + mulFold64 low high)

/-- Sixteen bytes of input at `i` under sixteen bytes of the secret at `k`. -/
def mix16 (b : ByteArray) (i k : Nat) : UInt64 :=
  mulFold64 (word64At b i ^^^ key k) (word64At b (i + 8) ^^^ key (k + 8))

/-- 17 to 128 bytes: pairs of sixteen bytes from both ends inwards. -/
def hash17to128 (b : ByteArray) : UInt64 :=
  let n := b.size
  let pairs := (n + 31) / 32
  let acc := pairs.fold
    (fun i _ acc => acc + mix16 b (16 * i) (32 * i) + mix16 b (n - 16 * (i + 1)) (32 * i + 16))
    (n.toUInt64 * prime64a)
  avalanche acc

/-- 129 to 240 bytes: every sixteen bytes, with a mix after the first eight of them. -/
def hash129to240 (b : ByteArray) : UInt64 :=
  let n := b.size
  let acc := Nat.fold 8 (fun i _ acc => acc + mix16 b (16 * i) (16 * i)) (n.toUInt64 * prime64a)
  let acc := (n / 16 - 8).fold
    (fun i _ acc => acc + mix16 b (16 * (i + 8)) (16 * i + 3)) (avalanche acc)
  avalanche (acc + mix16 b (n - 16) 119)

/-- The eight accumulators of a long input. -/
abbrev Lanes := Vector UInt64 8

/-- The accumulators at the start of a long input. -/
def Lanes.initial : Lanes :=
  #v[prime32c, prime64a, prime64b, prime64c, prime64d, prime32b, prime64e, prime32a]

/-- Add the stripe of 64 bytes at `i` under the secret from `k` on: each lane takes the product of
the two halves of its keyed word, and its neighbour the word itself. -/
def Lanes.accumulate (acc : Lanes) (b : ByteArray) (i k : Nat) : Lanes :=
  Vector.ofFn fun lane =>
    let word := word64At b (i + 8 * lane)
    let keyed := word ^^^ key (k + 8 * lane)
    let neighbour := word64At b (i + 8 * (lane.val ^^^ 1))
    let product := keyed.toUInt32.toUInt64 * (keyed >>> (32 : UInt64))
    acc[lane] + neighbour + product

/-- Scramble the lanes at the end of a block. -/
def Lanes.scramble (acc : Lanes) : Lanes :=
  Vector.ofFn fun lane =>
    ((acc[lane] ^^^ acc[lane] >>> 47) ^^^ key (128 + 8 * lane)) * prime32a

/-- Fold the lanes to one word. -/
def Lanes.merge (acc : Lanes) (start : UInt64) : UInt64 :=
  avalanche (Nat.fold 4 (fun i _ sum => sum +
    mulFold64 (acc[2 * i] ^^^ key (11 + 16 * i)) (acc[2 * i + 1] ^^^ key (19 + 16 * i))) start)

/-- More than 240 bytes: blocks of 1024 bytes, the whole stripes left over, and the last 64 bytes
once more. -/
def hashLong (b : ByteArray) : UInt64 :=
  let n := b.size
  let stripes (acc : Lanes) (start count : Nat) : Lanes :=
    count.fold (fun i _ acc => acc.accumulate b (start + 64 * i) (8 * i)) acc
  let blocks := (n - 1) / 1024
  let acc := blocks.fold (fun i _ acc => (stripes acc (1024 * i) 16).scramble) Lanes.initial
  let acc := stripes acc (1024 * blocks) ((n - 1 - 1024 * blocks) / 64)
  let acc := acc.accumulate b (n - 64) 121
  acc.merge (n.toUInt64 * prime64a)

/-- The 64-bit XXH3 hash of a byte string. -/
def hash (b : ByteArray) : UInt64 :=
  let n := b.size
  if n = 0 then avalancheShort (key 56 ^^^ key 64)
  else if n ≤ 3 then hash1to3 b
  else if n ≤ 8 then hash4to8 b
  else if n ≤ 16 then hash9to16 b
  else if n ≤ 128 then hash17to128 b
  else if n ≤ 240 then hash129to240 b
  else hashLong b

end RingRouting.Hash.Xxh3
