import Retrace.Shell.Tool.Edit
import Retrace.Shell.Tool.Expr
import Retrace.Shell.Tool.Files
import Retrace.Shell.Tool.Order
import Retrace.Shell.Tool.Print
import Retrace.Shell.Tool.Search
import Retrace.Shell.Tool.Surroundings

/-!
# Tools by name

The tool that a name stands for. The tools that start other programs are not among them.
-/

namespace Retrace.Shell.Tool

/-- The tools with their names. -/
def all : List (String × (Call → Deed)) :=
  [("cat", cat), ("tac", tac), ("rev", rev), ("tr", tr), ("head", head), ("tail", tail), ("wc", wc), ("od", od),
    ("nl", nl), ("paste", paste), ("fold", fold), ("expand", expand), ("cut", cut), ("seq", seq), ("yes", yes),
    ("grep", grep), ("sort", sort), ("uniq", uniq), ("sed", sed), ("expr", expr), ("ls", ls), ("stat", stat),
    ("touch", touch), ("rm", rm), ("mkdir", mkdir), ("rmdir", rmdir), ("mv", mv), ("cp", cp), ("ln", ln),
    ("link", link), ("unlink", unlink), ("readlink", readlink), ("realpath", realpath), ("chmod", chmod), ("tee", tee),
    ("basename", basename), ("dirname", dirname), ("echo", echo), ("printf", printfTool), ("test", testTool),
    ("[", bracketTool), ("sleep", sleep), ("pwd", pwd), ("printenv", printenv), ("id", id), ("whoami", whoami),
    ("uname", uname), ("tty", tty), ("which", which), ("python3", interpreter), ("true", fun _ => {}),
    ("false", fun _ => { status := 1 })]

/-- The tool that a name stands for. -/
def named? (name : Raw) : Option (Call → Deed) := all.lookup (String.ofList name)

end Retrace.Shell.Tool
