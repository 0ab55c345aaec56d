import Retrace.Output.Style
import Retrace.Text.Utf8

/-!
# The terminal as display

Each text takes the whole screen, under a title.
-/

namespace Retrace.Output

/-- What is written to show a text. -/
def redraw (title text : String) : String :=
  "\x1b[2J\x1b[H" ++ Style.dimmed.apply title ++ "\n" ++ text ++ (if text.toList.getLast? = some '\n' then "" else "\n")

/-- A terminal, and how many more bytes it takes before it fails. -/
structure Terminal where
  title : String
  room : Option Nat := none
  deriving DecidableEq, Repr

/-- Show a text: the bytes that the terminal takes, and the terminal after that. What does not fit is lost. -/
def Terminal.draw (t : Terminal) (text : String) : Bytes × Terminal :=
  let bytes := Bytes.ofString (redraw t.title text)
  match t.room with
  | none => (bytes, t)
  | some room =>
    let taken := bytes.take room
    (taken, { t with room := some (room - taken.length) })

end Retrace.Output
