import Retrace.Command.Program
import Std.Time.DateTime.Timestamp

/-!
# The command line program

The outermost layer: the files that a command may need are brought into a machine, the command is carried out there,
and what it has changed among them is brought back.
-/

namespace Retrace

/-- The variables that are looked at. -/
def variableNames : List String :=
  ["LIVETRACE_CONFIG", "LIVETRACE_STATE_DIR", "XDG_CONFIG_HOME", "XDG_STATE_HOME", "HOME", "PATH"]

/-- The files that a command line names. -/
def namedFiles : Option Command.Request → List Path
  | some (.trace file driver _) => file :: driver.toList
  | some (.watch file driver _ _ _) => file :: driver.toList
  | some (.status file) => [file]
  | _ => []

/-- Bring a file into a machine, if it can be read. -/
def fetch (m : Machine) (p : Path) : IO Machine := do
  let content? ← try some <$> IO.FS.readBinFile p.display catch _ => pure none
  match content? with
  | none => return m
  | some content =>
    let m := match p.parent? with
      | some dir => (m.makeAllDirs dir).1
      | none => m
    return (m.write p content.toList).toOption.getD m

/-- Bring a file back that has changed. -/
def store (before after : Machine) (p : Path) : IO Unit := do
  match (before.read p).toOption, (after.read p).toOption with
  | old, some content =>
    if old ≠ some content then
      if let some dir := p.parent? then
        if dir.raw ≠ [] then IO.FS.createDirAll dir.display
      IO.FS.writeBinFile p.display ⟨content.toArray⟩
  | _, none => return ()

/-- Carry out the command that the arguments ask for. -/
def runProgram (args : List String) : IO UInt32 := do
  let vars ← variableNames.filterMapM fun name => do
    return (← IO.getEnv name).map fun value => (Bytes.ofString name, Bytes.ofString value)
  let here := Path.ofString (← IO.currentDir).toString
  let words := args.map Bytes.ofString
  let env : Environment := vars
  let settings := env.configFile.toOption.toList
  let m ← (settings ++ namedFiles (Command.Request.parse? words)).foldlM fetch (Machine.withTools here)
  let now ← Std.Time.Timestamp.now
  let s : Surroundings :=
    { env, pid := 1, now := now.toMillisecondsSinceUnixEpoch.toInt.toNat, isLive := fun _ => false }
  let (e, after) := (Command.launch s words m).complete
  settings.forM (store m after)
  IO.print e.out
  IO.eprint e.err
  return UInt32.ofNat e.code

end Retrace

def main (args : List String) : IO UInt32 := Retrace.runProgram args
