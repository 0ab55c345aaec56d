import Retrace.Toml.Scalar

/-!
# Quoted texts

Four forms: with or without escapes, on one line or over several. A line break in a text over several lines is one
newline, however it is spelled, and one right after the opening quotes is left out.
-/

namespace Retrace.Toml.Quoted

/-- Put a character, when there is one, in front of what was read. -/
def cons? (c : Option Char) (r : Option (List Char × List Char)) : Option (List Char × List Char) :=
  match c, r with
  | some c, some (cs, rest) => some (c :: cs, rest)
  | _, _ => none

/-- A character that may stand in any text: a tab, or a character above the controls but not U+007F. -/
def isPlain (c : Char) : Bool := c == '\t' || (' ' ≤ c && c != Char.ofNat 0x7F)

/-- The character of an escape of one letter. -/
def escaped? : Char → Option Char
  | 'b' => some (Char.ofNat 8)
  | 't' => some '\t'
  | 'n' => some '\n'
  | 'f' => some (Char.ofNat 12)
  | 'r' => some '\r'
  | '"' => some '"'
  | '\\' => some '\\'
  | _ => none

/-- The character with a hexadecimal number. -/
def hexChar? (ds : List Char) : Option Char :=
  let n := Scalar.number 16 ds
  if ds.all Scalar.isHex ∧ n.isValidChar then some (Char.ofNat n) else none

/-- The body of a text on one line with escapes, up to its closing quote. -/
def basicBody : List Char → Option (List Char × List Char)
  | [] => none
  | '"' :: rest => some ([], rest)
  | '\\' :: 'u' :: a :: b :: c :: d :: rest => cons? (hexChar? [a, b, c, d]) (basicBody rest)
  | '\\' :: 'U' :: a :: b :: c :: d :: e :: f :: g :: h :: rest =>
    cons? (hexChar? [a, b, c, d, e, f, g, h]) (basicBody rest)
  | '\\' :: c :: rest => cons? (escaped? c) (basicBody rest)
  | c :: rest => if isPlain c then cons? (some c) (basicBody rest) else none

/-- The body of a text on one line without escapes, up to its closing quote. -/
def literalBody : List Char → Option (List Char × List Char)
  | [] => none
  | '\'' :: rest => some ([], rest)
  | c :: rest => if isPlain c then cons? (some c) (literalBody rest) else none

def isSpace (c : Char) : Bool := c == ' ' || c == '\t'

/-- A line break at the front. -/
def startsNewline : List Char → Bool
  | '\n' :: _ | '\r' :: '\n' :: _ => true
  | _ => false

/-- The text without a line break at its front. -/
def dropNewline : List Char → List Char
  | '\n' :: rest | '\r' :: '\n' :: rest => rest
  | rest => rest

/-- The body of a text over several lines with escapes, up to its three closing quotes; up to two quotes right
before them belong to the text. After a backslash at the end of a line, blanks and line breaks are skipped. -/
def multiBasicBody : Bool → List Char → Option (List Char × List Char)
  | _, [] => none
  | true, ' ' :: rest => multiBasicBody true rest
  | true, '\t' :: rest => multiBasicBody true rest
  | true, '\n' :: rest => multiBasicBody true rest
  | true, '\r' :: '\n' :: rest => multiBasicBody true rest
  | _, '"' :: '"' :: '"' :: '"' :: '"' :: rest => some (['"', '"'], rest)
  | _, '"' :: '"' :: '"' :: '"' :: rest => some (['"'], rest)
  | _, '"' :: '"' :: '"' :: rest => some ([], rest)
  | _, '\\' :: 'u' :: a :: b :: c :: d :: rest => cons? (hexChar? [a, b, c, d]) (multiBasicBody false rest)
  | _, '\\' :: 'U' :: a :: b :: c :: d :: e :: f :: g :: h :: rest =>
    cons? (hexChar? [a, b, c, d, e, f, g, h]) (multiBasicBody false rest)
  | _, '\\' :: c :: rest =>
    if startsNewline ((c :: rest).dropWhile isSpace) then multiBasicBody true (c :: rest)
    else cons? (escaped? c) (multiBasicBody false rest)
  | _, '\n' :: rest => cons? (some '\n') (multiBasicBody false rest)
  | _, '\r' :: '\n' :: rest => cons? (some '\n') (multiBasicBody false rest)
  | _, c :: rest => if isPlain c && c != '\\' then cons? (some c) (multiBasicBody false rest) else none

/-- The body of a text over several lines without escapes. -/
def multiLiteralBody : List Char → Option (List Char × List Char)
  | [] => none
  | '\'' :: '\'' :: '\'' :: '\'' :: '\'' :: rest => some (['\'', '\''], rest)
  | '\'' :: '\'' :: '\'' :: '\'' :: rest => some (['\''], rest)
  | '\'' :: '\'' :: '\'' :: rest => some ([], rest)
  | '\n' :: rest => cons? (some '\n') (multiLiteralBody rest)
  | '\r' :: '\n' :: rest => cons? (some '\n') (multiLiteralBody rest)
  | c :: rest => if isPlain c then cons? (some c) (multiLiteralBody rest) else none

/-- A text in one of the two forms on one line. -/
def simple : Reader (List Char)
  | '"' :: rest => basicBody rest
  | '\'' :: rest => literalBody rest
  | _ => none

/-- A text in any form. -/
def text : Reader (List Char)
  | '"' :: '"' :: '"' :: rest => multiBasicBody false (dropNewline rest)
  | '\'' :: '\'' :: '\'' :: rest => multiLiteralBody (dropNewline rest)
  | cs => simple cs

end Retrace.Toml.Quoted
