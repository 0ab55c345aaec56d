import Retrace.Live.Display

/-!
# Clients of the display

Any number of clients call on one display. A call comes in the steps between which others can act: a publisher looks
at the run's token and then queues the text; a flush queues its request and waits until it is acknowledged or dropped;
a shutdown queues its request and waits for the end of the worker.
-/

namespace Retrace.Live

/-- How far a call has come. -/
inductive Client where
  | publishing (token : Token) (o : RunOutcome)
  | approved (token : Token) (text : String)
  /-- The publisher has returned: the text was queued, or it was not. -/
  | published (queued : Bool)
  | flushing
  | awaiting
  /-- The flush has returned: it was acknowledged, or its request was refused or dropped. -/
  | flushed (acknowledged : Bool)
  | closing
  | joining
  /-- The shutdown has returned. -/
  | closed
  deriving DecidableEq, Repr

/-- The command that a call is about to queue. -/
def Client.command (i : Nat) : Client → Option Command
  | .approved token text => some (.publish token text)
  | .flushing => some (.flush i)
  | .closing => some .shutDown
  | _ => none

/-- A call after it has tried to queue its command; a shutdown joins the worker unless that has been done. -/
def Client.sent (queued handle : Bool) : Client → Client
  | .approved .. => .published queued
  | .flushing => if queued then .awaiting else .flushed false
  | .closing => if handle then .joining else .closed
  | c => c

/-- A display and the calls on it. -/
structure Clients where
  registry : Registry := {}
  display : Display := {}
  /-- The worker has not been joined. -/
  handle : Bool := true
  calls : Array Client := #[]
  deriving DecidableEq, Repr

namespace Clients

/-- What can happen next. The worker receives a shutdown and ends in one step: what is queued in between is dropped
like all that is behind the shutdown. -/
inductive Action where
  | publish (token : Token) (o : RunOutcome)
  | flush
  | shutDown
  | proceed (i : Nat)
  | take
  | put
  /-- Somebody takes the gate, and gives it back. -/
  | hold
  | release
  | newToken (g : Generation)
  | cancel (token : Token)
  deriving DecidableEq, Repr

/-- A shutdown is going on. There is one at a time, since it needs the display for itself. -/
def busy (w : Clients) : Bool := w.calls.toList.any fun c => c == .closing || c == .joining

def begin (w : Clients) (c : Client) : Clients := { w with calls := w.calls.push c }

/-- What a call that queues nothing goes on to; none while it waits. -/
def turn (w : Clients) (i : Nat) : Client → Option Client
  | .publishing token o =>
    some (match Display.approve w.registry token o with
      | some text => .approved token text
      | none => .published false)
  | .awaiting =>
    if i ∈ w.display.acknowledged then some (.flushed true)
    else if w.display.closed then some (.flushed false)
    else none
  | .joining => if w.display.closed then some .closed else none
  | _ => none

/-- One step of a call. -/
def proceed (w : Clients) (i : Nat) : Option Clients :=
  match w.calls[i]? with
  | none => none
  | some c =>
    match c.command i with
    | some command =>
      some { w with
        display := (w.display.send command).2
        handle := w.handle && c != .closing
        calls := w.calls.setIfInBounds i (c.sent (w.display.send command).1 w.handle) }
    | none => (w.turn i c).map fun c' => { w with calls := w.calls.setIfInBounds i c' }

def step (w : Clients) : Action → Option Clients
  | .publish token o => some (w.begin (.publishing token o))
  | .flush => some (w.begin .flushing)
  | .shutDown => if w.busy then none else some (w.begin .closing)
  | .proceed i => w.proceed i
  | .take => (w.display.take w.registry).map ({ w with display := · })
  | .put => w.display.put.map ({ w with display := · })
  | .hold => if w.display.gateFree then some { w with display.gateHeld := true } else none
  | .release => if w.display.gateHeld then some { w with display.gateHeld := false } else none
  | .newToken g => some { w with registry := (w.registry.newToken g).2 }
  | .cancel token => some { w with registry := w.registry.cancel token }

end Clients

end Retrace.Live
