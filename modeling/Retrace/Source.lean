import Retrace.Machine.Job

/-!
# Source files

The file that is traced: found once, by its path without links, and read as text.
-/

namespace Retrace.Source

/-- The path without links of a source file. -/
def resolve (file : Path) : Job Path := do
  if !(← Job.ask (·.isFile file)) then
    throw (.rule ("Source file not found: " ++ file.display))
  Job.read ("Failed to resolve source file: " ++ file.display) (·.canonicalize file)

/-- The text of a source file. -/
def readText (file : Path) : Job String :=
  Job.read ("Failed to read source file: " ++ file.display) (·.readText file)

end Retrace.Source
