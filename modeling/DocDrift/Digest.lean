/-!
The digest of a file's bytes, by the BLAKE3 hash function: equal bytes have equal digests, and a
ledger that keeps digests can tell whether a file changed without keeping the file.

The bytes are cut into chunks, the chunks into blocks. Each block is compressed into a chaining
value of eight words; the values of neighbouring chunks are joined in a binary tree, and the root
of the tree gives the digest.
-/

set_option autoImplicit false

namespace DocDrift.Digest

/-- Four words that are mixed side by side. -/
abbrev Row := List UInt32

/-- The state of a compression: a square of words. -/
structure Square where
  first : Row
  second : Row
  third : Row
  fourth : Row

/-- The words that every compression starts from. -/
def startWords : List UInt32 :=
  [0x6A09E667, 0xBB67AE85, 0x3C6EF372, 0xA54FF53A, 0x510E527F, 0x9B05688C, 0x1F83D9AB, 0x5BE0CD19]

/-- Where a block stands in the tree, as bits. -/
abbrev Position := UInt32

def Position.chunkStart : Position := 1
def Position.chunkEnd : Position := 2
def Position.parent : Position := 4
def Position.root : Position := 8

/-- What one compression works on. -/
structure Block where
  chaining : List UInt32
  /-- Sixteen words. -/
  message : List UInt32
  /-- The number of the chunk. -/
  chunk : UInt64
  /-- How many bytes of the message count. -/
  size : UInt32
  position : Position

/-! ### Compression -/

def turned (count word : UInt32) : UInt32 :=
  (word >>> count) ||| (word <<< (32 - count))

def plus (left right : Row) : Row :=
  List.zipWith (fun x y => x + y) left right

/-- Two rows combined without carries, each word turned. -/
def combined (count : UInt32) (left right : Row) : Row :=
  List.zipWith (fun x y => turned count (x ^^^ y)) left right

/-- Mixes the columns of a square with two rows of message words. -/
def Square.mixColumns (square : Square) (even odd : Row) : Square :=
  let a := plus (plus square.first square.second) even
  let d := combined 16 square.fourth a
  let c := plus square.third d
  let b := combined 12 square.second c
  let a := plus (plus a b) odd
  let d := combined 8 d a
  let c := plus c d
  ⟨a, combined 7 b c, c, d⟩

/-- Turns the rows so that diagonals become columns. -/
def Square.slanted (square : Square) : Square :=
  ⟨square.first, square.second.rotateLeft 1, square.third.rotateLeft 2, square.fourth.rotateLeft 3⟩

/-- Turns the rows back. -/
def Square.upright (square : Square) : Square :=
  ⟨square.first, square.second.rotateLeft 3, square.third.rotateLeft 2, square.fourth.rotateLeft 1⟩

/-- Every other word of a list, from the first one on. -/
def everyOther : List UInt32 → List UInt32
  | [] => []
  | [word] => [word]
  | word :: _ :: rest => word :: everyOther rest

/-- One round: the columns, then the diagonals. -/
def Square.round (square : Square) (message : List UInt32) : Square :=
  let columns := message.take 8
  let diagonals := message.drop 8
  ((square.mixColumns (everyOther columns) (everyOther (columns.drop 1))).slanted.mixColumns
    (everyOther diagonals) (everyOther (diagonals.drop 1))).upright

/-- The order in which the next round takes the words of the message. -/
def order : List Nat :=
  [2, 6, 3, 10, 7, 0, 4, 13, 1, 11, 12, 5, 9, 14, 15, 8]

def reordered (message : List UInt32) : List UInt32 :=
  order.map (fun place => (message[place]?).getD 0)

def Square.rounds : Nat → Square → List UInt32 → Square
  | 0, square, _ => square
  | count + 1, square, message => (square.round message).rounds count (reordered message)

/-- The eight words that a block is compressed to. -/
def Block.compress (block : Block) : List UInt32 :=
  let start : Square := {
    first := block.chaining.take 4
    second := block.chaining.drop 4
    third := startWords.take 4
    fourth := [block.chunk.toUInt32, (block.chunk >>> 32).toUInt32, block.size, block.position] }
  let square := start.rounds 7 block.message
  List.zipWith (fun x y => x ^^^ y) (square.first ++ square.second) (square.third ++ square.fourth)

/-! ### Chunks and their tree -/

/-- Pieces of a list, each of a positive length but for the last one; at most `fuel` of them. -/
def pieces {α : Type} (length : Nat) : Nat → List α → List (List α)
  | 0, _ => []
  | fuel + 1, items =>
      if items.length ≤ length then [items]
      else items.take length :: pieces length fuel (items.drop length)

/-- The word that four bytes make, the lowest first. -/
def wordOf (bytes : List UInt8) : UInt32 :=
  bytes.foldr (fun byte word => (word <<< 8) ||| byte.toUInt32) 0

/-- Sixteen words of a block; zeros fill what is left. -/
def messageOf (bytes : List UInt8) : List UInt32 :=
  let words := (pieces 4 bytes.length bytes).map wordOf
  words ++ List.replicate (16 - words.length) 0

/-- The last block of a chunk, chained to the blocks before it. -/
def lastBlock (chunk : UInt64) : List UInt32 → Position → List (List UInt8) → Block
  | chaining, position, [] => ⟨chaining, [], chunk, 0, position⟩
  | chaining, position, [bytes] =>
      ⟨chaining, messageOf bytes, chunk, bytes.length.toUInt32, position ||| Position.chunkEnd⟩
  | chaining, position, bytes :: rest =>
      let block : Block := ⟨chaining, messageOf bytes, chunk, bytes.length.toUInt32, position⟩
      lastBlock chunk block.compress 0 rest

def chunkBlock (chunk : Nat) (bytes : List UInt8) : Block :=
  lastBlock chunk.toUInt64 startWords Position.chunkStart (pieces 64 (bytes.length + 1) bytes)

/-- The block that joins two neighbours of the tree. -/
def Block.joined (left right : Block) : Block :=
  ⟨startWords, left.compress ++ right.compress, 0, 64, Position.parent⟩

/-- One level up the tree: neighbours are joined, and one without a neighbour stays. -/
def joinedPairs : List Block → List Block
  | left :: right :: rest => left.joined right :: joinedPairs rest
  | blocks => blocks

/-- The block at the top of the tree, at most so many levels up. -/
def topBlock : Nat → List Block → Option Block
  | 0, blocks => blocks.head?
  | _ + 1, [block] => some block
  | fuel + 1, blocks => topBlock fuel (joinedPairs blocks)

def words (bytes : List UInt8) : List UInt32 :=
  let chunks := (pieces 1024 (bytes.length + 1) bytes).mapIdx chunkBlock
  match topBlock chunks.length chunks with
  | some block => { block with position := block.position ||| Position.root }.compress
  | none => []

/-! ### Text -/

/-- The digit with a value below sixteen. -/
def hexDigit (value : Nat) : Char :=
  Nat.digitChar value

/-- The eight digits of a word, its lowest byte first. -/
def hexOfWord (word : UInt32) : List Char :=
  [0, 8, 16, 24].flatMap fun (count : UInt32) =>
    let byte := ((word >>> count) &&& 0xFF).toNat
    [hexDigit (byte / 16), hexDigit (byte % 16)]

/-- The digest of some bytes: sixty-four hexadecimal digits. -/
def ofBytes (bytes : ByteArray) : String :=
  String.ofList ((words bytes.data.toList).flatMap hexOfWord)

end DocDrift.Digest
