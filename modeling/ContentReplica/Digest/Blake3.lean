/-!
# The hash function BLAKE3

`Blake3.hash` is the 256-bit digest of a list of bytes, `Blake3.hexDigest` that of a text in
lower-case hexadecimal. The input is cut into chunks of 1024 bytes and these into blocks of 64; the
chunks are the leaves of a binary tree that is built by merging neighbours level by level
(`mergeAll`), an odd one out moving up as it is.
-/

namespace ContentReplica.Blake3

/-- Eight words: a chaining value. -/
abbrev Chain := Vector UInt32 8

/-- Sixteen words: a block of the message or the state of the compression. -/
abbrev Block := Vector UInt32 16

/-- The initial chaining value. -/
def initial : Chain :=
  #v[0x6A09E667, 0xBB67AE85, 0x3C6EF372, 0xA54FF53A, 0x510E527F, 0x9B05688C, 0x1F83D9AB, 0x5BE0CD19]

/-- The order in which the words of the message are taken in the next round. -/
def permute (m : Block) : Block :=
  #v[m[2], m[6], m[3], m[10], m[7], m[0], m[4], m[13], m[1], m[11], m[12], m[5], m[9], m[14], m[15],
    m[8]]

/-! ## Compression -/

/-- Rotate a word to the right. -/
def rotateRight (x n : UInt32) : UInt32 := (x >>> n) ||| (x <<< (32 - n))

/-- Mix two message words into four words of the state. -/
def mix (s : Block) (a b c d : Fin 16) (x y : UInt32) : Block :=
  let s := s.set a (s[a] + s[b] + x)
  let s := s.set d (rotateRight (s[d] ^^^ s[a]) 16)
  let s := s.set c (s[c] + s[d])
  let s := s.set b (rotateRight (s[b] ^^^ s[c]) 12)
  let s := s.set a (s[a] + s[b] + y)
  let s := s.set d (rotateRight (s[d] ^^^ s[a]) 8)
  let s := s.set c (s[c] + s[d])
  s.set b (rotateRight (s[b] ^^^ s[c]) 7)

/-- Mix the columns of the state and then its diagonals. -/
def round (s m : Block) : Block :=
  let s := mix s 0 4 8 12 m[0] m[1]
  let s := mix s 1 5 9 13 m[2] m[3]
  let s := mix s 2 6 10 14 m[4] m[5]
  let s := mix s 3 7 11 15 m[6] m[7]
  let s := mix s 0 5 10 15 m[8] m[9]
  let s := mix s 1 6 11 12 m[10] m[11]
  let s := mix s 2 7 8 13 m[12] m[13]
  mix s 3 4 9 14 m[14] m[15]

/-- The given number of rounds, the message permuted after each. -/
def rounds : Nat → Block → Block → Block
  | 0, s, _ => s
  | n + 1, s, m => rounds n (round s m) (permute m)

/-- The chaining value after a block. -/
def compress (chain : Chain) (block : Block) (counter : UInt64) (length flags : UInt32) : Chain :=
  let start : Block := #v[chain[0], chain[1], chain[2], chain[3], chain[4], chain[5], chain[6],
    chain[7], initial[0], initial[1], initial[2], initial[3], counter.toUInt32,
    (counter >>> 32).toUInt32, length, flags]
  let s := rounds 7 start block
  Vector.ofFn fun i : Fin 8 => s[i.val] ^^^ s[i.val + 8]

/-! ## Chunks -/

/-- The flag of the first block of a chunk. -/
def chunkStart : UInt32 := 1

/-- The flag of the last block of a chunk. -/
def chunkEnd : UInt32 := 2

/-- The flag of an inner node. -/
def parentFlag : UInt32 := 4

/-- The flag of the last compression of all. -/
def rootFlag : UInt32 := 8

/-- A compression that is still to be made: the last block of a chunk, or an inner node. -/
structure Node where
  chain : Chain
  block : Block
  counter : UInt64
  length : UInt32
  flags : UInt32

/-- The chaining value of a node. -/
def Node.value (n : Node) : Chain := compress n.chain n.block n.counter n.length n.flags

/-- The digest that a node gives as the root. -/
def Node.rootValue (n : Node) : Chain := compress n.chain n.block 0 n.length (n.flags ||| rootFlag)

/-- Four bytes as a word, the lowest first. -/
def word (bytes : List UInt8) (i : Nat) : UInt32 :=
  let byte (k : Nat) : UInt32 := (bytes.getD (4 * i + k) 0).toUInt32
  byte 0 ||| (byte 1 <<< 8) ||| (byte 2 <<< 16) ||| (byte 3 <<< 24)

/-- Up to 64 bytes as a block, filled up with zeros. -/
def toBlock (bytes : List UInt8) : Block := Vector.ofFn fun i : Fin 16 => word bytes i.val

/-- Cut a list into parts of a given size; the empty list is one empty part. -/
def parts {α : Type} (size : Nat) (xs : List α) : List (List α) := go (xs.length + 1) xs
where
  go : Nat → List α → List (List α)
    | 0, _ => []
    | fuel + 1, xs =>
      if xs.length ≤ size then [xs] else xs.take size :: go fuel (xs.drop size)

/-- Go through the blocks of a chunk and leave the last one to be compressed. -/
def chunkNode (counter : UInt64) (chain : Chain) (flag : UInt32) : List (List UInt8) → Node
  | [] => ⟨chain, toBlock [], counter, 0, flag ||| chunkEnd⟩
  | [block] =>
    ⟨chain, toBlock block, counter, UInt32.ofNat block.length, flag ||| chunkEnd⟩
  | block :: rest => chunkNode counter (compress chain (toBlock block) counter 64 flag) 0 rest

/-! ## The tree -/

/-- The inner node over two nodes. -/
def parent (left right : Node) : Node :=
  ⟨initial, (left.value ++ right.value), 0, 64, parentFlag⟩

/-- Merge neighbours pairwise. -/
def mergeLevel : List Node → List Node
  | a :: b :: rest => parent a b :: mergeLevel rest
  | nodes => nodes

/-- Merge until one node is left. -/
def mergeAll : Nat → List Node → Option Node
  | _, [] => none
  | _, [node] => some node
  | 0, _ => none
  | fuel + 1, nodes => mergeAll fuel (mergeLevel nodes)

/-- The bytes of a word, the lowest first. -/
def wordBytes (w : UInt32) : List UInt8 :=
  [w.toUInt8, (w >>> 8).toUInt8, (w >>> 16).toUInt8, (w >>> 24).toUInt8]

/-- The digest of a list of bytes. -/
def hash (bytes : List UInt8) : List UInt8 :=
  let nodes := (parts 1024 bytes).mapIdx fun i chunk =>
    chunkNode (UInt64.ofNat i) initial chunkStart (parts 64 chunk)
  match mergeAll nodes.length nodes with
  | some root => root.rootValue.toList.flatMap wordBytes
  | none => []

/-! ## Hexadecimal -/

/-- The two lower-case hexadecimal digits of a byte. -/
def hexByte (b : UInt8) : List Char := [Nat.digitChar (b.toNat / 16), Nat.digitChar (b.toNat % 16)]

/-- Bytes in lower-case hexadecimal. -/
def hex (bytes : List UInt8) : String := String.ofList (bytes.flatMap hexByte)

/-- The digest of the UTF-8 form of a text, in hexadecimal. -/
def hexDigest (s : String) : String := hex (hash s.toUTF8.toList)

end ContentReplica.Blake3
