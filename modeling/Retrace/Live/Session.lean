import Retrace.Live.Debounce
import Retrace.Live.Engine

/-!
# Live sessions

A session is active from a start to a stop. While it is active it has a pipeline: a quiet period for the edits, and
a scheduler that runs them. Every start makes a new pipeline and stops the one before; the display outlives them all.
-/

namespace Retrace.Live

/-- The quiet period of a pipeline, and the texts that its countdowns have taken but not yet handed to the scheduler,
which has the number of the pipeline. The countdowns hand them on in any order. -/
structure Pipeline where
  debounce : Debounce String
  carried : List String := []
  deriving Repr

/-- Where a call that changes the pipeline stands; other calls wait for it. -/
inductive Change where
  | none
  /-- The countdown of a pipeline is to be cancelled; then a text may start a new one. -/
  | cancelling (p : Nat) (restart : Option String)
  /-- The scheduler of a pipeline is to be shut down; then a text may start a new one. -/
  | closing (p : Nat) (restart : Option String)
  /-- A new pipeline is to be made for a text. -/
  | opening (text : String)
  deriving DecidableEq, Repr

/-- What a session is doing. -/
inductive Activity where
  | idle
  | pending
  | running
  deriving DecidableEq, Repr

/-- The pipelines that a session has ever had, and the one that it has. -/
structure Session where
  delay : Nat
  engine : Engine := {}
  pipelines : Array Pipeline := #[]
  active : Option Nat := none
  change : Change := .none
  deriving Repr

namespace Session

/-- Change the pipeline with a number. -/
def modifyPipeline (s : Session) (p : Nat) (f : Pipeline → Pipeline) : Session :=
  { s with pipelines := s.pipelines.modify p f }

/-! ## Single steps -/

/-- Begin to stop. -/
def beginStop (s : Session) : Option Session :=
  match s.change, s.active with
  | .none, some p => some { s with active := none, change := .cancelling p none }
  | .none, none => some s
  | _, _ => none

/-- Begin to start with a text. -/
def beginStart (s : Session) (text : String) : Option Session :=
  match s.change, s.active with
  | .none, some p => some { s with active := none, change := .cancelling p (some text) }
  | .none, none => some { s with change := .opening text }
  | _, _ => none

/-- Cancel the countdown of the pipeline that is being stopped. -/
def cancelCountdown (s : Session) : Option Session :=
  match s.change with
  | .cancelling p restart =>
    some { s.modifyPipeline p (fun l => { l with debounce := l.debounce.cancel }) with change := .closing p restart }
  | _ => none

/-- Shut down the scheduler of the pipeline that is being stopped. -/
def closeScheduler (s : Session) : Option Session :=
  match s.change with
  | .closing p restart =>
    (s.engine.shutDown p).map fun engine =>
      { s with engine, change := (match restart with
        | some text => .opening text
        | none => .none) }
  | _ => none

/-- Make a new pipeline and run its first text. -/
def openPipeline (s : Session) : Option Session :=
  match s.change with
  | .opening text =>
    let (p, engine) := s.engine.addScheduler
    let engine := (engine.schedule p text).getD engine
    some { s with
      engine, pipelines := s.pipelines.push { debounce := { delay := s.delay } }, active := some p, change := .none }
  | _ => none

/-- An edit; it is ignored unless the session is active. -/
def edit (s : Session) (now : Nat) (text : String) : Option Session :=
  match s.change, s.active with
  | .none, some p => some (s.modifyPipeline p fun l => { l with debounce := l.debounce.notify now text })
  | .none, none => some s
  | _, _ => none

/-- The countdown of a pipeline runs out. -/
def expire (s : Session) (now : Nat) (p : Nat) : Option Session :=
  match s.pipelines[p]? with
  | some l =>
    if l.debounce.isDue now then some (s.modifyPipeline p fun l => { l with debounce := l.debounce.expire }) else none
  | none => none

/-- A countdown that has run out takes its text. -/
def takeText (s : Session) (p : Nat) (number : UInt64) : Option Session :=
  match s.pipelines[p]? with
  | some l =>
    if number ∈ l.debounce.expired then
      let (text, debounce) := l.debounce.take number
      some { s with pipelines := s.pipelines.setIfInBounds p ⟨debounce, l.carried ++ text.toList⟩ }
    else none
  | none => none

/-- One of the texts that the countdowns of a pipeline have taken reaches the scheduler, which may have been shut down
meanwhile. -/
def handOn (s : Session) (p i : Nat) : Option Session :=
  match s.pipelines[p]? with
  | some l =>
    match l.carried[i]? with
    | some text =>
      some { s with
        engine := (s.engine.schedule p text).getD s.engine
        pipelines := s.pipelines.setIfInBounds p { l with carried := l.carried.eraseIdx i } }
    | none => none
  | none => none

/-- The end of the countdown of a pipeline in one step. -/
def fire (s : Session) (p : Nat) : Session :=
  match s.pipelines[p]? with
  | some l =>
    let (text, debounce) := l.debounce.fire
    let s := { s with pipelines := s.pipelines.setIfInBounds p { l with debounce } }
    match text with
    | some text => { s with engine := (s.engine.schedule p text).getD s.engine }
    | none => s
  | none => s

/-- A step of one of the parts that a session does not take itself: a worker or the display. -/
def engineStep (s : Session) (a : Engine.Action) : Option Session :=
  match a with
  | .schedule .. | .shutDown _ => none
  | a => (s.engine.step a).map fun engine => { s with engine }

/-- A single step of a session; `expire` and `edit` tell the time. -/
inductive Action where
  | beginStart (text : String)
  | beginStop
  | cancelCountdown
  | closeScheduler
  | openPipeline
  | edit (now : Nat) (text : String)
  | expire (now : Nat) (p : Nat)
  | takeText (p : Nat) (number : UInt64)
  | handOn (p i : Nat)
  /-- All that the end of a countdown does, without interruption. -/
  | fire (p : Nat)
  | engine (a : Engine.Action)
  deriving Repr

/-- The session after a step, when the step can be made. -/
def step (s : Session) : Action → Option Session
  | .beginStart text => s.beginStart text
  | .beginStop => s.beginStop
  | .cancelCountdown => s.cancelCountdown
  | .closeScheduler => s.closeScheduler
  | .openPipeline => s.openPipeline
  | .edit now text => s.edit now text
  | .expire now p => s.expire now p
  | .takeText p number => s.takeText p number
  | .handOn p i => s.handOn p i
  | .fire p => some (s.fire p)
  | .engine a => s.engineStep a

/-! ## Whole calls -/

/-- Go on with the call under way while it can go on. -/
def proceed (s : Session) : Session :=
  let s := s.cancelCountdown.getD s
  let s := s.closeScheduler.getD s
  s.openPipeline.getD s

/-- Start with a text. -/
def start (s : Session) (text : String) : Session := ((s.beginStart text).getD s).proceed

/-- Start when a command line can be had; without one nothing changes. -/
def startWith {ε α : Type} (s : Session) (launch : Except ε α) (text : String) : Bool × Session :=
  match launch with
  | .ok _ => (true, s.start text)
  | .error _ => (false, s)

/-- Stop. -/
def stop (s : Session) : Session := (s.beginStop.getD s).proceed

/-- The session has a pipeline. -/
def isActive (s : Session) : Bool := s.active.isSome

/-- What the session is doing. An edit that waits comes before the run that it will replace. -/
def activity (s : Session) : Activity :=
  match s.active with
  | none => .idle
  | some p =>
    match s.pipelines[p]? with
    | none => .idle
    | some l =>
      if l.debounce.isPending then .pending
      else if s.engine.isRunning p then .running
      else .idle

end Session

end Retrace.Live
