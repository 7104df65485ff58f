import RingRouting.Hash.Bytes

/-!
# BLAKE3

The unkeyed hash. The input is cut into chunks of 1024 bytes, each chunk into blocks of 64 bytes.
The chunks are the leaves of a binary tree whose left subtrees are the largest whole powers of two;
each parent compresses the chaining values of its two children, and the root is compressed with a
flag of its own. Only the first eight bytes of the digest are wanted here.
-/

namespace RingRouting.Hash.Blake3

/-- A chaining value. -/
abbrev Chain := Vector UInt32 8

/-- A block of the message, or the state of a compression. -/
abbrev Block := Vector UInt32 16

/-- The initial chaining value. -/
def initialChain : Chain :=
  #v[0x6a09e667, 0xbb67ae85, 0x3c6ef372, 0xa54ff53a, 0x510e527f, 0x9b05688c, 0x1f83d9ab, 0x5be0cd19]

/-- The order in which the next round takes the words of the message. -/
def schedule : Vector (Fin 16) 16 :=
  #v[2, 6, 3, 10, 7, 0, 4, 13, 1, 11, 12, 5, 9, 14, 15, 8]

/-- The flags of a compression: the first and the last block of a chunk, a parent, and the root. -/
def chunkStart : UInt32 := 1
@[inherit_doc chunkStart] def chunkEnd : UInt32 := 2
@[inherit_doc chunkStart] def parent : UInt32 := 4
@[inherit_doc chunkStart] def root : UInt32 := 8

/-- Mix the words `x` and `y` into one column or diagonal of the state. -/
def mix (s : Block) (a b c d : Fin 16) (x y : UInt32) : Block :=
  let va := s[a] + s[b] + x
  let vd := rotateRight32 (s[d] ^^^ va) 16
  let vc := s[c] + vd
  let vb := rotateRight32 (s[b] ^^^ vc) 12
  let va := va + vb + y
  let vd := rotateRight32 (vd ^^^ va) 8
  let vc := vc + vd
  let vb := rotateRight32 (vb ^^^ vc) 7
  (((s.set a va).set b vb).set c vc).set d vd

/-- One round: the four columns, then the four diagonals. -/
def round (s m : Block) : Block :=
  let s := mix s 0 4 8 12 m[0] m[1]
  let s := mix s 1 5 9 13 m[2] m[3]
  let s := mix s 2 6 10 14 m[4] m[5]
  let s := mix s 3 7 11 15 m[6] m[7]
  let s := mix s 0 5 10 15 m[8] m[9]
  let s := mix s 1 6 11 12 m[10] m[11]
  let s := mix s 2 7 8 13 m[12] m[13]
  mix s 3 4 9 14 m[14] m[15]

/-- Everything a compression takes, kept apart from it so that the root can be compressed anew. -/
structure Node where
  chain : Chain
  block : Block
  counter : UInt64
  length : UInt32
  flags : UInt32

/-- The first eight words of the compression of a node, with more flags set. -/
def Node.compress (n : Node) (flags : UInt32) : Chain :=
  let iv := initialChain
  let s : Block := #v[n.chain[0], n.chain[1], n.chain[2], n.chain[3], n.chain[4], n.chain[5],
    n.chain[6], n.chain[7], iv[0], iv[1], iv[2], iv[3], n.counter.toUInt32,
    (n.counter >>> 32).toUInt32, n.length, n.flags ||| flags]
  let (s, _) := Nat.fold 7
    (fun _ _ (s, m) => (round s m, schedule.map fun i => m[i])) (s, n.block)
  Vector.ofFn fun i => s[i] ^^^ s[i.val + 8]

/-- The block of 64 bytes that starts at position `i`, filled up with zeros. -/
def blockAt (b : ByteArray) (i : Nat) : Block :=
  Vector.ofFn fun j => word32At b (i + 4 * j)

/-- The last block of the chunk of `n` bytes at `start`, after the blocks before it. -/
def chunkNode (b : ByteArray) (start n : Nat) : Node :=
  let last := (n - 1) / 64
  let node (chain : Chain) (i : Nat) : Node :=
    { chain
      block := blockAt b (start + 64 * i)
      counter := (start / 1024).toUInt64
      length := (min 64 (n - 64 * i)).toUInt32
      flags := (if i = 0 then chunkStart else 0) ||| (if i = last then chunkEnd else 0) }
  node (last.fold (fun i _ chain => (node chain i).compress 0) initialChain) last

/-- How many of more than 1024 bytes go to the left: the largest power of two of whole chunks that
leaves something for the right. -/
def leftLength (n : Nat) : Nat :=
  1024 <<< Nat.log2 ((n - 1) / 1024)

/-- The left half of a split is never empty. -/
theorem leftLength_pos (n : Nat) : 0 < leftLength n := by
  have : 0 < 2 ^ Nat.log2 ((n - 1) / 1024) := Nat.pow_pos (by decide)
  rw [leftLength, Nat.shiftLeft_eq]
  omega

/-- An input of more than one chunk leaves something for the right half. -/
theorem leftLength_lt {n : Nat} (h : 1024 < n) : leftLength n < n := by
  have hne : (n - 1) / 1024 ≠ 0 := by omega
  have := Nat.log2_self_le hne
  rw [leftLength, Nat.shiftLeft_eq]
  omega

/-- The node of the subtree over the `n` bytes at `start`, and of the whole input for `start = 0`.
The bytes are read at absolute positions, since a chunk counts where it starts. -/
def treeNode (b : ByteArray) (start n : Nat) : Node :=
  if n ≤ 1024 then chunkNode b start n
  else
    let left := treeNode b start (leftLength n)
    let right := treeNode b (start + leftLength n) (n - leftLength n)
    { chain := initialChain
      block := (left.compress 0 ++ right.compress 0).cast rfl
      counter := 0
      length := 64
      flags := parent }
termination_by n
decreasing_by
  · exact leftLength_lt (by omega)
  · have := leftLength_pos n
    omega

/-- The first eight bytes of the BLAKE3 digest of a byte string, as a little-endian word. -/
def hash (b : ByteArray) : UInt64 :=
  let digest := (treeNode b 0 b.size).compress root
  digest[0].toUInt64 ||| digest[1].toUInt64 <<< 32

end RingRouting.Hash.Blake3
