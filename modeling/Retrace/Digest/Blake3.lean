import Retrace.Text.Utf8

/-!
# BLAKE3

The BLAKE3 digest. A message is cut into chunks of 1024 bytes and those into blocks of 64; each chunk is a chain of
compressions, and the chunks are the leaves of a binary tree whose left side is as large a full tree as fits.
-/

namespace Retrace.Digest

/-- Four words, a row of the state. -/
structure Row where
  a : UInt32
  b : UInt32
  c : UInt32
  d : UInt32
  deriving DecidableEq, Repr

namespace Row

/-- Word by word. -/
def zip (f : UInt32 → UInt32 → UInt32) (x y : Row) : Row := ⟨f x.a y.a, f x.b y.b, f x.c y.c, f x.d y.d⟩

/-- The row turned left by one word. -/
def turn (x : Row) : Row := ⟨x.b, x.c, x.d, x.a⟩

def toList (x : Row) : List UInt32 := [x.a, x.b, x.c, x.d]

end Row

/-- A chaining value. -/
structure Chain where
  upper : Row
  lower : Row
  deriving DecidableEq, Repr

/-- The chaining value that every chunk starts with. -/
def start : Chain :=
  ⟨⟨0x6A09E667, 0xBB67AE85, 0x3C6EF372, 0xA54FF53A⟩, ⟨0x510E527F, 0x9B05688C, 0x1F83D9AB, 0x5BE0CD19⟩⟩

/-- The bits of a word moved right, those that fall out coming in on the left. -/
def rotateRight (w : UInt32) (n : UInt32) : UInt32 := (w >>> n) ||| (w <<< (32 - n))

/-- The four rows of the state under compression. -/
structure State where
  a : Row
  b : Row
  c : Row
  d : Row
  deriving Repr

namespace State

/-- Half of a mixing step: the message words go into the first row and from there around. -/
def halfMix (first second : UInt32) (s : State) (m : Row) : State :=
  let a := Row.zip (· + ·) (Row.zip (· + ·) s.a s.b) m
  let d := Row.zip (fun x y => rotateRight (x ^^^ y) first) s.d a
  let c := Row.zip (· + ·) s.c d
  let b := Row.zip (fun x y => rotateRight (x ^^^ y) second) s.b c
  ⟨a, b, c, d⟩

/-- Mix the four columns with eight message words. -/
def mix (s : State) (x y : Row) : State := (s.halfMix 16 12 x).halfMix 8 7 y

/-- Diagonals become columns. -/
def skew (s : State) : State := ⟨s.a, s.b.turn, s.c.turn.turn, s.d.turn.turn.turn⟩

/-- Columns become diagonals again. -/
def unskew (s : State) : State := ⟨s.a, s.b.turn.turn.turn, s.c.turn.turn, s.d.turn⟩

end State

/-- Sixteen message words, those of the columns first and there the even ones before the odd ones. -/
structure Block where
  evenCols : Row
  oddCols : Row
  evenDiags : Row
  oddDiags : Row
  deriving Repr

namespace Block

/-- A block of sixteen words in order. -/
def ofWords (w : Nat → UInt32) : Block :=
  ⟨⟨w 0, w 2, w 4, w 6⟩, ⟨w 1, w 3, w 5, w 7⟩, ⟨w 8, w 10, w 12, w 14⟩, ⟨w 9, w 11, w 13, w 15⟩⟩

/-- The order of the words in the next round. -/
def permute (m : Block) : Block :=
  ⟨⟨m.evenCols.b, m.oddCols.b, m.oddCols.d, m.evenCols.c⟩,
    ⟨m.evenCols.d, m.evenDiags.b, m.evenCols.a, m.oddDiags.c⟩,
    ⟨m.oddCols.a, m.evenDiags.c, m.oddDiags.a, m.oddDiags.d⟩,
    ⟨m.oddDiags.b, m.oddCols.c, m.evenDiags.d, m.evenDiags.a⟩⟩

end Block

/-- One round: the columns, then the diagonals. -/
def round (s : State) (m : Block) : State :=
  ((s.mix m.evenCols m.oddCols).skew.mix m.evenDiags m.oddDiags).unskew

/-- `n` rounds, the message permuted from one to the next. -/
def rounds : Nat → State → Block → State
  | 0, s, _ => s
  | n + 1, s, m => rounds n (round s m) m.permute

/-- A compression that is still to be done; only then is it known whether it is the last of all. -/
structure Compression where
  chain : Chain
  block : Block
  counter : UInt64
  size : UInt32
  flags : UInt32
  deriving Repr

namespace Compression

def chunkStart : UInt32 := 1
def chunkEnd : UInt32 := 2
def parent : UInt32 := 4
def root : UInt32 := 8

/-- Compress, with further flags. -/
def run (k : Compression) (flags : UInt32) : Chain :=
  let d : Row := ⟨k.counter.toUInt32, (k.counter >>> 32).toUInt32, k.size, k.flags ||| flags⟩
  let s := rounds 7 ⟨k.chain.upper, k.chain.lower, start.upper, d⟩ k.block
  ⟨Row.zip (· ^^^ ·) s.a s.c, Row.zip (· ^^^ ·) s.b s.d⟩

end Compression

/-- The first bytes as a word, the lowest byte first; missing bytes are zero. -/
def wordOf : Bytes → UInt32
  | a :: b :: c :: d :: _ =>
    a.toUInt32 ||| (b.toUInt32 <<< 8) ||| (c.toUInt32 <<< 16) ||| (d.toUInt32 <<< 24)
  | [a, b, c] => a.toUInt32 ||| (b.toUInt32 <<< 8) ||| (c.toUInt32 <<< 16)
  | [a, b] => a.toUInt32 ||| (b.toUInt32 <<< 8)
  | [a] => a.toUInt32
  | [] => 0

/-- The block of at most 64 bytes. -/
def blockOf (bs : Bytes) : Block := Block.ofWords fun i => wordOf (bs.drop (4 * i))

/-- The last compression of a chunk, after those of its earlier blocks. -/
def chunkFrom (counter : UInt64) (chain : Chain) (flags : UInt32) (bs : Bytes) : Compression :=
  let k : Compression := ⟨chain, blockOf (bs.take 64), counter, UInt32.ofNat (min bs.length 64), flags⟩
  if 64 < bs.length then chunkFrom counter (k.run 0) 0 (bs.drop 64)
  else { k with flags := k.flags ||| Compression.chunkEnd }
termination_by bs.length
decreasing_by simp only [List.length_drop]; omega

/-- The leaves of the tree, numbered from `counter`. -/
def chunks (counter : UInt64) (bs : Bytes) : List Compression :=
  let leaf := chunkFrom counter start Compression.chunkStart (bs.take 1024)
  if 1024 < bs.length then leaf :: chunks (counter + 1) (bs.drop 1024) else [leaf]
termination_by bs.length
decreasing_by simp only [List.length_drop]; omega

/-- The compression of two children into their parent. -/
def join (l r : Compression) : Compression :=
  let left := l.run 0
  let right := r.run 0
  let words := left.upper.toList ++ left.lower.toList ++ right.upper.toList ++ right.lower.toList
  ⟨start, Block.ofWords fun i => words.getD i 0, 0, 64, Compression.parent⟩

/-- The root of the tree over the leaves `first :: rest`; `fuel` bounds its height. -/
def tree : Nat → Compression → List Compression → Compression
  | 0, first, _ => first
  | fuel + 1, first, rest =>
    match rest with
    | [] => first
    | _ :: _ =>
      let left := 1 <<< Nat.log2 rest.length
      match rest.drop (left - 1) with
      | [] => first
      | second :: rest' => join (tree fuel first (rest.take (left - 1))) (tree fuel second rest')

/-- The digits of a byte in base sixteen. -/
def hexByte (b : UInt8) : List Char :=
  [Nat.digitChar (b.toNat / 16), Nat.digitChar (b.toNat % 16)]

/-- The bytes of a word, the lowest first, in base sixteen. -/
def hexWord (w : UInt32) : List Char :=
  [w, w >>> 8, w >>> 16, w >>> 24].flatMap fun b => hexByte b.toUInt8

/-- The first 16 digits of the digest in base sixteen. -/
def shortHex (bs : Bytes) : String :=
  match chunks 0 bs with
  | [] => ""
  | first :: rest =>
    let c := (tree (rest.length + 1) first rest).run Compression.root
    String.ofList (hexWord c.upper.a ++ hexWord c.upper.b)

end Retrace.Digest
