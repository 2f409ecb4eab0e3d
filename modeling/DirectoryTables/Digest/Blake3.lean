/-!
# Digest — Blake3

The BLAKE3 hash of a row of bytes.  The bytes are cut into chunks of 1024, a chunk into blocks of
64; a chain of compressions takes a chunk to eight words, and a binary tree whose left branches are
full takes the chunks to one node, whose last compression gives the hash.  The hash of a text is
the hash of its UTF-8 bytes, written in small hexadecimal digits.
-/

namespace DirectoryTables.Digest

/-- Eight words: the value passed from one compression to the next. -/
abbrev Chain := Vector UInt32 8

/-- Sixteen words: one block of bytes, or the state of a compression. -/
abbrev Block := Vector UInt32 16

/-- The chain every chunk starts from. -/
def startChain : Chain :=
  #v[0x6A09E667, 0xBB67AE85, 0x3C6EF372, 0xA54FF53A, 0x510E527F, 0x9B05688C, 0x1F83D9AB, 0x5BE0CD19]

/-- Where the words of a block come from between two rounds. -/
def shuffle : Vector (Fin 16) 16 :=
  #v[2, 6, 3, 10, 7, 0, 4, 13, 1, 11, 12, 5, 9, 14, 15, 8]

/-- The flag of the first block of a chunk. -/
def chunkStart : UInt32 := 1

/-- The flag of the last block of a chunk. -/
def chunkEnd : UInt32 := 2

/-- The flag of a node over two nodes. -/
def parentNode : UInt32 := 4

/-- The flag of the topmost node. -/
def rootNode : UInt32 := 8

/-! ### Compression -/

/-- The word turned right by `n` bits. -/
def rotateRight (w n : UInt32) : UInt32 :=
  (w >>> n) ||| (w <<< (32 - n))

/-- Four words of the state mixed with two words of the block. -/
def mix (s : Block) (a b c d : Fin 16) (x y : UInt32) : Block :=
  let a₁ := s[a] + s[b] + x
  let d₁ := rotateRight (s[d] ^^^ a₁) 16
  let c₁ := s[c] + d₁
  let b₁ := rotateRight (s[b] ^^^ c₁) 12
  let a₂ := a₁ + b₁ + y
  let d₂ := rotateRight (d₁ ^^^ a₂) 8
  let c₂ := c₁ + d₂
  let b₂ := rotateRight (b₁ ^^^ c₂) 7
  (((s.set a a₂).set b b₂).set c c₂).set d d₂

/-- Mixing along the columns of the state, then along its diagonals. -/
def round (s m : Block) : Block :=
  let s := mix s 0 4 8 12 m[0] m[1]
  let s := mix s 1 5 9 13 m[2] m[3]
  let s := mix s 2 6 10 14 m[4] m[5]
  let s := mix s 3 7 11 15 m[6] m[7]
  let s := mix s 0 5 10 15 m[8] m[9]
  let s := mix s 1 6 11 12 m[10] m[11]
  let s := mix s 2 7 8 13 m[12] m[13]
  mix s 3 4 9 14 m[14] m[15]

/-- So many rounds, the block shuffled between them. -/
def rounds : Nat → Block → Block → Block
  | 0, s, _ => s
  | n + 1, s, m => rounds n (round s m) (shuffle.map (m[·]))

/-- What one compression needs: a chain, a block with its length in bytes, the number of the
chunk, and the flags of the node. -/
structure Node where
  chain : Chain
  block : Block
  chunk : Nat
  length : Nat
  flags : UInt32

/-- The chain after the compression of a node. -/
def Node.compress (n : Node) : Chain :=
  let low := UInt32.ofNat n.chunk
  let high := UInt32.ofNat (n.chunk / UInt32.size)
  let words := n.chain
  let s : Block :=
    #v[words[0], words[1], words[2], words[3], words[4], words[5], words[6], words[7],
      startChain[0], startChain[1], startChain[2], startChain[3],
      low, high, UInt32.ofNat n.length, n.flags]
  let s := rounds 7 s n.block
  Vector.ofFn fun i : Fin 8 => s[i.val] ^^^ s[i.val + 8]

/-! ### Chunks and their tree -/

/-- The word whose bytes, lowest first, stand at four times `i`; missing bytes are zero. -/
def wordAt (bytes : List UInt8) (i : Nat) : UInt32 :=
  let byte (k : Nat) : UInt32 := (bytes.getD (4 * i + k) 0).toUInt32
  byte 0 ||| (byte 1 <<< 8) ||| (byte 2 <<< 16) ||| (byte 3 <<< 24)

/-- The first 64 bytes as a block. -/
def blockOf (bytes : List UInt8) : Block :=
  Vector.ofFn fun i : Fin 16 => wordAt bytes i.val

/-- The last node of a chunk: every block but the last is compressed into the chain. -/
def chunkNode (chunk : Nat) (chain : Chain) (flags : UInt32) (bytes : List UInt8) : Node :=
  if _h : bytes.length ≤ 64 then
    { chain, block := blockOf bytes, chunk, length := bytes.length, flags := flags ||| chunkEnd }
  else
    let block := bytes.take 64
    let node : Node := { chain, block := blockOf block, chunk, length := 64, flags }
    chunkNode chunk node.compress 0 (bytes.drop 64)
termination_by bytes.length
decreasing_by simp; omega

/-- How many of `n` bytes, more than a chunk, go to the left: the largest power of two of chunks
that leaves something for the right. -/
def leftLength (n : Nat) : Nat :=
  1024 <<< Nat.log2 ((n - 1) / 1024)

theorem leftLength_pos (n : Nat) : 0 < leftLength n := by
  rw [leftLength, Nat.shiftLeft_eq]
  exact Nat.mul_pos (by decide) (Nat.pow_pos (by decide))

theorem leftLength_lt {n : Nat} (h : 1024 < n) : leftLength n < n := by
  have hq : (n - 1) / 1024 ≠ 0 := by omega
  have hle := Nat.log2_self_le hq
  rw [leftLength, Nat.shiftLeft_eq]
  omega

/-- The node over two chains. -/
def joinNode (left right : Chain) : Node :=
  { chain := startChain, block := left ++ right, chunk := 0, length := 64, flags := parentNode }

/-- The node over bytes that start at the given chunk. -/
def treeNode (chunk : Nat) (bytes : List UInt8) : Node :=
  if _h : bytes.length ≤ 1024 then
    chunkNode chunk startChain chunkStart bytes
  else
    let n := leftLength bytes.length
    joinNode (treeNode chunk (bytes.take n)).compress
      (treeNode (chunk + n / 1024) (bytes.drop n)).compress
termination_by bytes.length
decreasing_by
  · have := leftLength_lt (n := bytes.length) (by omega)
    simp only [List.length_take]
    omega
  · have := leftLength_pos bytes.length
    simp only [List.length_drop]
    omega

/-- The hash of a row of bytes, as eight words. -/
def blake3 (bytes : List UInt8) : Chain :=
  let top := treeNode 0 bytes
  Node.compress { top with flags := top.flags ||| rootNode }

/-! ### Hexadecimal digits -/

/-- The two digits of a byte. -/
def byteDigits (b : UInt8) : List Char :=
  [Nat.digitChar (b.toNat / 16), Nat.digitChar (b.toNat % 16)]

/-- The eight digits of a word, lowest byte first. -/
def wordDigits (w : UInt32) : List Char :=
  byteDigits w.toUInt8 ++ byteDigits (w >>> 8).toUInt8 ++ byteDigits (w >>> 16).toUInt8 ++
    byteDigits (w >>> 24).toUInt8

/-- The hash of a text in hexadecimal digits. -/
def hexDigest (s : String) : List Char :=
  (blake3 s.toUTF8.data.toList).toList.flatMap wordDigits

@[simp] theorem length_wordDigits (w : UInt32) : (wordDigits w).length = 8 := by
  simp [wordDigits, byteDigits]

@[simp] theorem length_hexDigest (s : String) : (hexDigest s).length = 64 := by
  simp only [hexDigest, List.length_flatMap, length_wordDigits, List.map_const',
    List.sum_replicate_nat, Vector.length_toList]

end DirectoryTables.Digest
