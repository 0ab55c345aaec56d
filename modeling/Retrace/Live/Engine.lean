import Retrace.Live.Display

/-!
# Schedulers and their runs

A scheduler starts a run for each text it is given and cancels the run before, so that the newest text wins. Every
run is the work of one worker, which hands its outcome to the display and then reports that it is done. Several
schedulers may share the display; each has its own clock.
-/

namespace Retrace.Live

/-- What a scheduler knows of its runs. -/
structure Scheduler where
  clock : Clock
  /-- The token of the newest run, the only one that may be active. -/
  current : Option Token := none
  /-- The generation of the newest run while its worker is at work. -/
  running : Option Generation := none
  isShutDown : Bool := false
  deriving DecidableEq, Repr

/-- Where the worker of a run stands. -/
inductive Stage where
  | running
  /-- The run has ended; the publisher has yet to look at its outcome. -/
  | finished (o : RunOutcome)
  /-- The publisher has found the run wanted; its text has yet to be queued. -/
  | approved (text : String)
  /-- The outcome has been dealt with; the scheduler has yet to be told. -/
  | published
  | done
  deriving DecidableEq, Repr

/-- The worker of a run. -/
structure Worker where
  scheduler : Nat
  token : Token
  text : String
  stage : Stage := .running
  deriving DecidableEq, Repr

/-- The schedulers, all runs ever started, and the display. -/
structure Engine where
  registry : Registry := {}
  schedulers : Array Scheduler := #[]
  workers : Array Worker := #[]
  display : Display := {}
  deriving DecidableEq, Repr

namespace Engine

/-- A new scheduler. -/
def addScheduler (e : Engine) : Nat × Engine :=
  let (clock, registry) := e.registry.newClock
  (e.schedulers.size, { e with registry, schedulers := e.schedulers.push { clock } })

/-- Cancel the newest run of a scheduler, if there is one. -/
def cancelCurrent (r : Registry) (s : Scheduler) : Registry :=
  match s.current with
  | some t => r.cancel t
  | none => r

/-- Start a run for a text and cancel the run before. A scheduler that was shut down does neither. -/
def schedule (e : Engine) (i : Nat) (text : String) : Option Engine :=
  match e.schedulers[i]? with
  | none => none
  | some s =>
    if s.isShutDown then none
    else
      let (t, registry) := (cancelCurrent e.registry s).mint s.clock
      let s := { s with current := some t, running := some t.generation }
      some { e with
        registry, schedulers := e.schedulers.setIfInBounds i s, workers := e.workers.push ⟨i, t, text, .running⟩ }

/-- Cancel the newest run of a scheduler under the gate and start no more. Waits for the gate. -/
def shutDown (e : Engine) (i : Nat) : Option Engine :=
  match e.schedulers[i]? with
  | none => none
  | some s =>
    if s.isShutDown then some e
    else if s.current.isSome ∧ !e.display.gateFree then none
    else some { e with
      registry := cancelCurrent e.registry s
      schedulers := e.schedulers.setIfInBounds i { s with current := none, isShutDown := true } }

/-- Let a worker go on to another stage. -/
def setStage (e : Engine) (w : Nat) (worker : Worker) (stage : Stage) : Engine :=
  { e with workers := e.workers.setIfInBounds w { worker with stage } }

/-- The run of a worker ends. -/
def finish (e : Engine) (w : Nat) (o : RunOutcome) : Option Engine :=
  match e.workers[w]? with
  | some worker => if worker.stage = .running then some (e.setStage w worker (.finished o)) else none
  | none => none

/-- The publisher looks at the outcome of a run and at its token. -/
def check (e : Engine) (w : Nat) : Option Engine :=
  match e.workers[w]? with
  | some worker =>
    match worker.stage with
    | .finished o =>
      match Display.approve e.registry worker.token o with
      | some text => some (e.setStage w worker (.approved text))
      | none => some (e.setStage w worker .published)
    | _ => none
  | none => none

/-- The publisher queues the text of a run. -/
def send (e : Engine) (w : Nat) : Option Engine :=
  match e.workers[w]? with
  | some worker =>
    match worker.stage with
    | .approved text =>
      some { e.setStage w worker .published with display := (e.display.send (.publish worker.token text)).2 }
    | _ => none
  | none => none

/-- A worker tells its scheduler that it is done, which matters only for the newest run. -/
def clear (e : Engine) (w : Nat) : Option Engine :=
  match e.workers[w]? with
  | some worker =>
    if worker.stage = .published then
      match e.schedulers[worker.scheduler]? with
      | some s =>
        let s := if s.running = some worker.token.generation then { s with running := none } else s
        some { e.setStage w worker .done with schedulers := e.schedulers.setIfInBounds worker.scheduler s }
      | none => none
    else none
  | none => none

/-- The display's worker takes a command. -/
def take (e : Engine) : Option Engine := (e.display.take e.registry).map fun display => { e with display }

/-- The display's worker shows a text. -/
def put (e : Engine) : Option Engine := e.display.put.map fun display => { e with display }

/-- A client asks to be told when all that is queued has been dealt with. Each client asks once. -/
def flush (e : Engine) (client : Nat) : Option Engine :=
  if client ∈ e.display.acknowledged ∨ .flush client ∈ e.display.queue then none
  else some { e with display := (e.display.send (.flush client)).2 }

/-- A single step of any of the parts. -/
inductive Action where
  | schedule (i : Nat) (text : String)
  | shutDown (i : Nat)
  | finish (w : Nat) (o : RunOutcome)
  | check (w : Nat)
  | send (w : Nat)
  | clear (w : Nat)
  | take
  | put
  | flush (client : Nat)
  deriving Repr

/-- The engine after a step, when the step can be made. -/
def step (e : Engine) : Action → Option Engine
  | .schedule i text => e.schedule i text
  | .shutDown i => e.shutDown i
  | .finish w o => e.finish w o
  | .check w => e.check w
  | .send w => e.send w
  | .clear w => e.clear w
  | .take => e.take
  | .put => e.put
  | .flush client => e.flush client

/-- The display's worker does all it can. -/
def drain (e : Engine) : Engine := { e with display := e.display.drain e.registry }

/-- A worker does all that is left to do once its run has ended. -/
def conclude (e : Engine) (w : Nat) (o : RunOutcome) : Engine :=
  let e := (e.finish w o).getD e
  let e := (e.check w).getD e
  let e := (e.send w).getD e
  (e.clear w).getD e

/-- The newest run of a scheduler has a worker at work. -/
def isRunning (e : Engine) (i : Nat) : Bool :=
  match e.schedulers[i]? with
  | some s => s.running.isSome
  | none => false

/-- The token of the newest run of a scheduler, while it is active. -/
def activeToken (e : Engine) (i : Nat) : Option Token :=
  match e.schedulers[i]? with
  | some s => s.current.filter e.registry.isActive
  | none => none

end Engine

end Retrace.Live
