/-!
# Words of a byte string

The hash functions read their input as little-endian words. A byte past the end reads as zero, so
that a shorter last word needs no case of its own.
-/

namespace RingRouting.Hash

/-- The byte at position `i`, zero past the end. -/
def byteAt (b : ByteArray) (i : Nat) : UInt8 :=
  if h : i < b.size then b[i] else 0

/-- The little-endian 32-bit word that starts at position `i`. -/
def word32At (b : ByteArray) (i : Nat) : UInt32 :=
  (byteAt b i).toUInt32 ||| (byteAt b (i + 1)).toUInt32 <<< 8 |||
    (byteAt b (i + 2)).toUInt32 <<< 16 ||| (byteAt b (i + 3)).toUInt32 <<< 24

/-- The little-endian 64-bit word that starts at position `i`. -/
def word64At (b : ByteArray) (i : Nat) : UInt64 :=
  (word32At b i).toUInt64 ||| (word32At b (i + 4)).toUInt64 <<< 32

/-- Rotate a 64-bit word left by `n` bits, `0 < n < 64`. -/
def rotateLeft64 (x n : UInt64) : UInt64 :=
  x <<< n ||| x >>> (64 - n)

/-- Rotate a 32-bit word right by `n` bits, `0 < n < 32`. -/
def rotateRight32 (x n : UInt32) : UInt32 :=
  x >>> n ||| x <<< (32 - n)

/-- The high half of the product of two 64-bit words, folded onto the low half. -/
def mulFold64 (a b : UInt64) : UInt64 :=
  let product := a.toNat * b.toNat
  product.toUInt64 ^^^ (product >>> 64).toUInt64

/-- The bytes of a 64-bit word in the opposite order. -/
def swapBytes64 (x : UInt64) : UInt64 :=
  (List.range 8).foldl
    (fun acc i => acc <<< 8 ||| (x >>> (8 * i).toUInt64) &&& 0xff) 0

end RingRouting.Hash
