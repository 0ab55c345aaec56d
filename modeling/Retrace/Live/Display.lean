import Retrace.Run.Basic
import Retrace.Token

/-!
# The display

Results reach the display through a queue, which one worker empties in order. Right before a text is shown the worker
takes the gate and looks at the run's token once more; who cancels a token under the gate can be sure that nothing of
that run is shown afterwards.
-/

namespace Retrace.Live

/-- A request to the display. -/
inductive Command where
  | publish (token : Token) (text : String)
  /-- Acknowledge to a client that all before it is done. -/
  | flush (client : Nat)
  | shutDown
  deriving DecidableEq, Repr

/-- What the display's worker is about. -/
inductive Shower where
  | idle
  /-- The gate is taken and the token was found active; the text is about to be shown. -/
  | showing (token : Token) (text : String)
  | ended
  deriving DecidableEq, Repr

/-- The queue, the worker and what it has shown. -/
structure Display where
  queue : List Command := []
  shower : Shower := .idle
  /-- Somebody else holds the gate. -/
  gateHeld : Bool := false
  /-- The texts shown so far with their runs' tokens, the last one first. -/
  shown : List (Token × String) := []
  /-- The clients whose flush was acknowledged. -/
  acknowledged : List Nat := []
  deriving DecidableEq, Repr

namespace Display

/-- The queue takes no more commands. -/
def closed (d : Display) : Bool := d.shower == .ended

/-- The gate can be taken at once. -/
def gateFree (d : Display) : Bool :=
  match d.shower with
  | .showing .. => false
  | _ => !d.gateHeld

/-- Queue a command; false when the queue is closed. -/
def send (d : Display) (c : Command) : Bool × Display :=
  if d.closed then (false, d) else (true, { d with queue := d.queue ++ [c] })

/-- The worker takes the next command: for a text it takes the gate and looks at the token. -/
def take (d : Display) (r : Registry) : Option Display :=
  match d.shower, d.queue with
  | .idle, .publish token text :: rest =>
    if d.gateHeld then none
    else if r.isCancelled token then some { d with queue := rest }
    else some { d with queue := rest, shower := .showing token text }
  | .idle, .flush client :: rest => some { d with queue := rest, acknowledged := client :: d.acknowledged }
  | .idle, .shutDown :: _ => some { d with queue := [], shower := .ended }
  | _, _ => none

/-- The worker shows the text and gives back the gate. -/
def put (d : Display) : Option Display :=
  match d.shower with
  | .showing token text => some { d with shower := .idle, shown := (token, text) :: d.shown }
  | _ => none

/-- One step of the worker. -/
def step (d : Display) (r : Registry) : Option Display :=
  match d.put with
  | some d => some d
  | none => d.take r

/-- Steps of the worker until it has nothing to do; `fuel` bounds their number. -/
def drainWithin : Nat → Display → Registry → Display
  | 0, d, _ => d
  | fuel + 1, d, r =>
    match d.step r with
    | some d => drainWithin fuel d r
    | none => d

/-- The display when its worker has done all it can. -/
def drain (d : Display) (r : Registry) : Display := drainWithin (2 * d.queue.length + 2) d r

/-- What the publisher decides about the outcome of a run: the text to show, if the run is still wanted. -/
def approve (r : Registry) (token : Token) (o : RunOutcome) : Option String :=
  match o with
  | .completed stdout _ _ => if r.isCancelled token then none else some stdout
  | _ => none

/-- Hand the outcome of a run to the display; true when its text was queued. -/
def publish (d : Display) (r : Registry) (token : Token) (o : RunOutcome) : Bool × Display :=
  match approve r token o with
  | some text => d.send (.publish token text)
  | none => (false, d)

end Display

end Retrace.Live
