import RingRouting.Hash.Blake3
import RingRouting.Hash.SipHash
import RingRouting.Hash.Xxh3
import RingRouting.Token

/-!
# Partitioners

A partitioner places byte strings on the ring: the labels of virtual nodes and the keys of calls
alike. Nothing else in the library depends on which function it is.
-/

namespace RingRouting

/-- A named hash function onto the ring. -/
structure Partitioner where
  name : String
  token : ByteArray → Token

namespace Partitioner

/-- SipHash-1-3 under the all-zero key. -/
def sip : Partitioner := ⟨"SipPartitioner", fun b => ⟨Hash.SipHash.hash b⟩⟩

/-- 64-bit XXH3 with seed zero. -/
def xxh3 : Partitioner := ⟨"Xxh3Partitioner", fun b => ⟨Hash.Xxh3.hash b⟩⟩

/-- The first eight bytes of the BLAKE3 digest, little endian. -/
def blake3 : Partitioner := ⟨"Blake3Partitioner", fun b => ⟨Hash.Blake3.hash b⟩⟩

end Partitioner

end RingRouting
