/-!
# Styled text

Text between the sequences that switch a style on and off again.
-/

namespace Retrace.Output

/-- How text stands out. -/
inductive Style where
  | bold
  | dimmed
  | green
  | yellow
  | cyan
  deriving DecidableEq, Repr

/-- The numbers that switch a style on and off. -/
def Style.codes : Style → Nat × Nat
  | .bold => (1, 0)
  | .dimmed => (2, 0)
  | .green => (32, 39)
  | .yellow => (33, 39)
  | .cyan => (36, 39)

/-- A sequence that the terminal obeys. -/
def escape (code : Nat) : String := "\x1b[" ++ toString code ++ "m"

/-- Text in a style. -/
def Style.apply (s : Style) (text : String) : String := escape s.codes.1 ++ text ++ escape s.codes.2

end Retrace.Output
