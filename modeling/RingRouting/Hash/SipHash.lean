import RingRouting.Hash.Bytes

/-!
# SipHash-1-3

One compression round per 64-bit word of input and three rounds at the end, under the all-zero key.
The last word holds the bytes left over and the length of the input in its top byte.
-/

namespace RingRouting.Hash.SipHash

/-- The four words of the permutation's state. -/
structure State where
  v0 : UInt64
  v1 : UInt64
  v2 : UInt64
  v3 : UInt64

/-- The state under the all-zero key. -/
def State.initial : State :=
  ⟨0x736f6d6570736575, 0x646f72616e646f6d, 0x6c7967656e657261, 0x7465646279746573⟩

/-- One round of the permutation. -/
def State.round (s : State) : State :=
  let v0 := s.v0 + s.v1
  let v1 := rotateLeft64 s.v1 13 ^^^ v0
  let v0 := rotateLeft64 v0 32
  let v2 := s.v2 + s.v3
  let v3 := rotateLeft64 s.v3 16 ^^^ v2
  let v0 := v0 + v3
  let v3 := rotateLeft64 v3 21 ^^^ v0
  let v2 := v2 + v1
  let v1 := rotateLeft64 v1 17 ^^^ v2
  let v2 := rotateLeft64 v2 32
  ⟨v0, v1, v2, v3⟩

/-- Absorb one word of input with a single round. -/
def State.absorb (s : State) (m : UInt64) : State :=
  let s := { s with v3 := s.v3 ^^^ m }.round
  { s with v0 := s.v0 ^^^ m }

/-- The three closing rounds and the fold of the state to one word. -/
def State.finish (s : State) : UInt64 :=
  let s := { s with v2 := s.v2 ^^^ 0xff }.round.round.round
  s.v0 ^^^ s.v1 ^^^ s.v2 ^^^ s.v3

/-- SipHash-1-3 of a byte string under the all-zero key. -/
def hash (b : ByteArray) : UInt64 :=
  let whole := b.size / 8
  let s := whole.fold (fun i _ s => s.absorb (word64At b (8 * i))) State.initial
  let last := word64At b (8 * whole) ||| b.size.toUInt64 <<< 56
  (s.absorb last).finish

end RingRouting.Hash.SipHash
