import Retrace.Config.Document
import Retrace.Machine.Job

/-!
# The settings file

Settings are read over the defaults and checked, and are checked again before they are written.
-/

namespace Retrace.Config

/-- The settings in a file; without the file those that hold where nothing is set. -/
def load (file : Path) : Job Config := do
  if !(← Job.ask (·.isThere file)) then return .default
  let contents ← Job.read ("Failed to read config file: " ++ file.display) (·.readText file)
  match read? contents with
  | none => throw ⟨["Failed to parse config file: " ++ file.display], .settingsText⟩
  | some c =>
    Job.ofExcept c.validate
    return c

/-- Write settings to a file, with the directories above it. -/
def save (c : Config) (file : Path) : Job Unit := do
  Job.ofExcept c.validate
  if let some dir := file.parent? then
    Job.makeAllDirs "Failed to create config directory" dir
  match c.toText? with
  | none => throw ⟨["Failed to serialize config"], .settingsText⟩
  | some contents =>
    Job.change ("Failed to write config file: " ++ file.display) (·.write file (Bytes.ofString contents))

/-- Write the example to a file that is not there. -/
def initialise (file : Path) : Job Unit := do
  if ← Job.ask (·.isThere file) then return ()
  if let some dir := file.parent? then
    Job.makeAllDirs "Failed to create config directory" dir
  Job.change ("Failed to write config file: " ++ file.display) (·.write file (Bytes.ofString exampleText))

end Retrace.Config
