/-!
# UTF-8

Bytes to characters and back. The decoder takes one byte at a time; what cannot be continued is cut off as one
malformed piece, as long as possible, and the byte that cut it off is read afresh.
-/

namespace Retrace

/-- What the machine passes around: file names, arguments, file contents. -/
abbrev Bytes := List UInt8

namespace Utf8

/-- Where the decoder stands inside a character: how many continuation bytes it is owed, the value read so far,
and the range of the next byte. -/
structure Decoder where
  owed : Nat
  value : Nat
  low : Nat
  high : Nat
  deriving DecidableEq, Repr

namespace Decoder

/-- Between two characters. -/
def between : Decoder := ⟨0, 0, 0, 0⟩

/-- After the first byte of a character; nothing is owed after an ASCII byte. -/
def lead (b : Nat) : Option Decoder :=
  if b < 0x80 then some ⟨0, b, 0, 0⟩
  else if 0xC2 ≤ b ∧ b ≤ 0xDF then some ⟨1, b - 0xC0, 0x80, 0xBF⟩
  else if b = 0xE0 then some ⟨2, 0, 0xA0, 0xBF⟩
  else if b = 0xED then some ⟨2, 0xD, 0x80, 0x9F⟩
  else if 0xE1 ≤ b ∧ b ≤ 0xEF then some ⟨2, b - 0xE0, 0x80, 0xBF⟩
  else if b = 0xF0 then some ⟨3, 0, 0x90, 0xBF⟩
  else if 0xF1 ≤ b ∧ b ≤ 0xF3 then some ⟨3, b - 0xF0, 0x80, 0xBF⟩
  else if b = 0xF4 then some ⟨3, 4, 0x80, 0x8F⟩
  else none

end Decoder

/-- One decoded piece: a character, or `none` for malformed bytes. -/
abbrev Piece := Option Char

/-- Read byte `b` as the first of a character, putting what is complete in front of `done`. -/
def begin (b : Nat) (done : List Piece) : Decoder × List Piece :=
  match Decoder.lead b with
  | none => (.between, none :: done)
  | some d => if d.owed = 0 then (.between, some (Char.ofNat d.value) :: done) else (d, done)

/-- Read one byte; `done` holds the pieces so far, last one first. -/
def feed : Decoder × List Piece → UInt8 → Decoder × List Piece
  | (d, done), byte =>
    let b := byte.toNat
    if d.owed = 0 then begin b done
    else if d.low ≤ b ∧ b ≤ d.high then
      let value := d.value * 64 + (b - 0x80)
      if d.owed = 1 then (.between, some (Char.ofNat value) :: done)
      else (⟨d.owed - 1, value, 0x80, 0xBF⟩, done)
    else begin b (none :: done)

/-- A character that the end of the bytes cuts off is malformed. -/
def finish : Decoder × List Piece → List Piece
  | (d, done) => if d.owed = 0 then done else none :: done

/-- The pieces of `bs`, in order. -/
def pieces (bs : Bytes) : List Piece :=
  (finish (bs.foldl feed (.between, []))).reverse

/-- The text of `bs`, with U+FFFD in place of each malformed piece. -/
def lossy (bs : Bytes) : String :=
  String.ofList ((pieces bs).map (·.getD (Char.ofNat 0xFFFD)))

/-- The text of `bs`, when all of it is well formed. -/
def decode? (bs : Bytes) : Option String :=
  let ps := pieces bs
  if ps.any Option.isNone then none else some (String.ofList (ps.filterMap id))

/-- The bytes of a character. -/
def encodeChar (c : Char) : Bytes :=
  let v := c.toNat
  if v < 0x80 then [UInt8.ofNat v]
  else if v < 0x800 then [UInt8.ofNat (0xC0 + v / 64), UInt8.ofNat (0x80 + v % 64)]
  else if v < 0x10000 then
    [UInt8.ofNat (0xE0 + v / 4096), UInt8.ofNat (0x80 + v / 64 % 64), UInt8.ofNat (0x80 + v % 64)]
  else
    [UInt8.ofNat (0xF0 + v / 262144), UInt8.ofNat (0x80 + v / 4096 % 64), UInt8.ofNat (0x80 + v / 64 % 64),
      UInt8.ofNat (0x80 + v % 64)]

/-- The bytes of a text. -/
def encode (s : String) : Bytes := s.toList.flatMap encodeChar

end Utf8

/-- The bytes of a text. -/
abbrev Bytes.ofString (s : String) : Bytes := Utf8.encode s

end Retrace
