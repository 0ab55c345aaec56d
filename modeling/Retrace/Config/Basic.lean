import Retrace.Failure
import Retrace.Text.Blank

/-!
# Settings

What the user can set, the values that hold where nothing is set, and the rules that every setting must keep.
-/

namespace Retrace

/-- Times of a live session, in milliseconds. -/
structure SessionSettings where
  debounceMs : Nat := 300
  killGraceMs : Nat := 500
  deriving DecidableEq, Repr

/-- How the tracer is run. -/
structure TracerSettings where
  interpreter : String := "python3"
  module : String := "code_tracer"
  searchPath : List Path := []
  deriving DecidableEq, Repr

/-- What is logged, and where to. -/
structure LogSettings where
  level : String := "info"
  file : Option Path := none
  deriving DecidableEq, Repr

/-- All settings. -/
structure Config where
  session : SessionSettings := {}
  tracer : TracerSettings := {}
  log : LogSettings := {}
  deriving DecidableEq, Repr

namespace Config

/-- The settings that hold where nothing is set. -/
def default : Config := {}

/-- The levels of logging, from the most talkative. -/
def logLevels : List String := ["trace", "debug", "info", "warn", "error"]

/-- The shortest and longest quiet period. -/
def debounceRange : Nat × Nat := (10, 10000)

/-- The shortest and longest time to exit. -/
def killGraceRange : Nat × Nat := (10, 30000)

/-- A rule that settings break. -/
inductive Fault where
  | debounce (ms : Nat)
  | killGrace (ms : Nat)
  | noInterpreter
  | noModule
  | level (l : String)
  deriving DecidableEq, Repr

/-- A number outside its range. -/
def outOfRange (key : String) (range : Nat × Nat) (n : Nat) : String :=
  key ++ " must be between " ++ toString range.1 ++ " and " ++ toString range.2 ++ " (got " ++ toString n ++ ")"

/-- The wording of a fault. -/
def Fault.message : Fault → String
  | .debounce ms => outOfRange "session.debounce_ms" debounceRange ms
  | .killGrace ms => outOfRange "session.kill_grace_ms" killGraceRange ms
  | .noInterpreter => "tracer.interpreter must not be empty"
  | .noModule => "tracer.module must not be empty"
  | .level l => "log.level must be one of " ++ ", ".intercalate logLevels ++ " (got '" ++ l ++ "')"

/-- The first rule that the settings break. -/
def fault? (c : Config) : Option Fault :=
  if c.session.debounceMs < debounceRange.1 ∨ debounceRange.2 < c.session.debounceMs then
    some (.debounce c.session.debounceMs)
  else if c.session.killGraceMs < killGraceRange.1 ∨ killGraceRange.2 < c.session.killGraceMs then
    some (.killGrace c.session.killGraceMs)
  else if Text.isBlank c.tracer.interpreter then some .noInterpreter
  else if Text.isBlank c.tracer.module then some .noModule
  else if c.log.level ∉ logLevels then some (.level c.log.level)
  else none

/-- Settings that break no rule. -/
def Valid (c : Config) : Prop := c.fault? = none

instance (c : Config) : Decidable c.Valid := inferInstanceAs (Decidable (_ = _))

/-- The settings again, when they break no rule. -/
def validate (c : Config) : Except Failure Unit :=
  match c.fault? with
  | some f => .error (.rule f.message)
  | none => .ok ()

end Config

end Retrace
