/-!
# Writing JSON strings

A string between quotes. Quotes, backslashes and control characters are escaped, the usual ones by a letter.
-/

namespace Retrace.Json

/-- A character inside the quotes. -/
def escapeChar (c : Char) : List Char :=
  if c = '"' then ['\\', '"']
  else if c = '\\' then ['\\', '\\']
  else if c = '\x08' then ['\\', 'b']
  else if c = '\x0C' then ['\\', 'f']
  else if c = '\n' then ['\\', 'n']
  else if c = '\r' then ['\\', 'r']
  else if c = '\t' then ['\\', 't']
  else if c.toNat < 0x20 then
    ['\\', 'u', '0', '0', Nat.digitChar (c.toNat / 16), Nat.digitChar (c.toNat % 16)]
  else [c]

/-- The string with its quotes. -/
def quote (s : List Char) : List Char := '"' :: s.flatMap escapeChar ++ ['"']

end Retrace.Json
