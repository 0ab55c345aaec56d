import Retrace.Command.Basic
import Retrace.Config.Key
import Retrace.Config.Store

/-!
# Commands for the settings

Show the settings, change one of them, and show or create their file.
-/

namespace Retrace.Command

open Output (Style)

/-- The settings that hold. -/
def loadSettings (s : Surroundings) : Job Config :=
  match s.env.configFile with
  | .ok file => Config.load file
  | .error _ => pure .default

/-- The lines for a section. -/
def sectionText (c : Config) (name : String) : String :=
  Style.yellow.apply ("[" ++ name ++ "]") ++ "\n" ++
    String.join ((Config.Key.all.filter (·.sectionName == name)).map fun k =>
      "  " ++ Style.cyan.apply k.fieldName ++ " = " ++ c.get k ++ "\n")

/-- Show all settings. -/
def listSettings (s : Surroundings) : Action Unit := do
  let c ← Action.ofJob (loadSettings s)
  let file ← Action.ofExcept s.env.configFile
  Action.printLine (Style.bold.apply "Configuration")
  Action.printLine (Style.dimmed.apply "Location" ++ ": " ++ Style.dimmed.apply file.display ++ "\n")
  Action.print ("\n".intercalate (["session", "tracer", "log"].map (sectionText c)))
  Action.printLine ("\n" ++ Style.bold.apply "Valid Ranges:")
  Action.printLine "  debounce_ms: 10-10000"
  Action.printLine "  kill_grace_ms: 10-30000"
  Action.printLine "  level: trace, debug, info, warn, error"

/-- Show one setting. -/
def getSetting (s : Surroundings) (key : String) : Action Unit := do
  let c ← Action.ofJob (loadSettings s)
  let k ← Action.ofExcept (Config.Key.parse key)
  Action.printLine (c.get k)

/-- Change one setting. -/
def setSetting (s : Surroundings) (key value : String) : Action Unit := do
  let c ← Action.ofJob (loadSettings s)
  let k ← Action.ofExcept (Config.Key.parse key)
  let c ← Action.ofExcept (c.set k value)
  match c.validate with
  | .error f => throw (f.within "Invalid configuration value")
  | .ok () => pure ()
  let file ← Action.ofExcept s.env.configFile
  Action.ofJob (Config.save c file)
  Action.printLine (Style.green.apply "✓" ++ " " ++ Style.cyan.apply key ++ " = " ++ value)
  Action.printLine (Style.yellow.apply "Note: Running sessions pick up changes on restart")

/-- Show where the settings are, and create their file on request. -/
def showPath (s : Surroundings) (create : Bool) : Action Unit := do
  let file ← Action.ofExcept s.env.configFile
  let isThere ← Action.ofJob (Job.ask (·.isThere file))
  if create && !isThere then
    Action.ofJob (Config.initialise file)
    Action.printLine (Style.green.apply "✓" ++ " Created config file at: " ++ file.display)
  else
    Action.printLine file.display
    if !isThere then
      Action.printLine (Style.yellow.apply "File does not exist. Use --create to create it.")

/-- Show the example. -/
def showExample : Action Unit := Action.printLine Config.exampleText

end Retrace.Command
