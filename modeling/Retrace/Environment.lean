import Retrace.Failure

/-!
# Environment

The variables that a program inherits, and the files that they locate: settings, locks and the log.
-/

namespace Retrace

/-- Variables with their values. -/
abbrev Environment := List (Bytes × Bytes)

namespace Environment

/-- The value of a variable. -/
def get? (env : Environment) (name : String) : Option Bytes := env.lookup (Bytes.ofString name)

/-- The directory in a variable, if it is an absolute path, else one below the home directory. -/
def baseDir? (env : Environment) (name fallback : String) : Option Path :=
  match (env.get? name).map Path.mk with
  | some p => if p.isAbsolute then some p else belowHome
  | none => belowHome
where
  belowHome := (env.get? "HOME").map fun home => (Path.mk home).child fallback

/-- The settings file. -/
def configFile (env : Environment) : Except Failure Path :=
  match env.get? "LIVETRACE_CONFIG" with
  | some p => .ok ⟨p⟩
  | none =>
    match env.baseDir? "XDG_CONFIG_HOME" ".config" with
    | some dir => .ok ((dir.child "livetrace").child "config.toml")
    | none => .error (.rule "Could not determine config file path")

/-- The directory of what outlives a run. -/
def stateDir (env : Environment) : Except Failure Path :=
  match env.get? "LIVETRACE_STATE_DIR" with
  | some p => .ok ⟨p⟩
  | none =>
    match env.baseDir? "XDG_STATE_HOME" ".local/state" with
    | some dir => .ok (dir.child "livetrace")
    | none => .error (.rule "Could not determine state directory")

/-- The directory of the locks. -/
def lockDir (env : Environment) : Except Failure Path := env.stateDir.map (·.child "locks")

/-- The log file while the terminal is in use. -/
def logFile (env : Environment) : Except Failure Path := env.stateDir.map (·.child "livetrace.log")

end Environment

end Retrace
