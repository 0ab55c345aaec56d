import Retrace.Command.Trace
import Retrace.Lock.Session
import Retrace.Output.Replace
import Retrace.Output.Terminal
import Retrace.Watch.File
import Retrace.Watch.Loop

/-!
# Tracing live

Trace a file again whenever it changes, until it is interrupted. While that goes on it holds the lock of the file.
-/

namespace Retrace.Command

open Output (Style)

/-- The plan of a run on a machine that is part of a larger world. -/
def planWithin {World : Type} (lift : (Machine → Machine) → World → World) (p : Live.Plan Machine) :
    Live.Plan World :=
  let course (c : Live.Course Machine) : Live.Course World := ⟨c.ending, c.effects.map fun (t, f) => (t, lift f)⟩
  ⟨course p.alone, fun t => (p.cancelled t).map course⟩

/-- Change the machine of a console. -/
def onMachine (f : Machine → Machine) (c : Console) : Console := { c with machine := f c.machine }

/-- Show a text: in a file, which is replaced, or on the terminal. -/
def display (output : Option Path) (title text : String) (c : Console) : Console :=
  match output with
  | some file => { c with machine := (Output.replace c.machine file (Bytes.ofString text)).2 }
  | none => { c with out := c.out ++ Output.redraw title text }

/-- A live session that has been started. -/
structure Watching where
  timeline : Live.Timeline Console
  file : Watch.WatchedFile
  loop : Watch.Loop
  /-- When the file is read unless something happens to it before. -/
  readAt : Option Nat := none
  /-- The machine as it was when the loop last looked for events. -/
  seen : Machine
  lock : Lock.Held
  source : Path
  output : Option Path

namespace Watching

def console (w : Watching) : Console := w.timeline.world

/-- The loop receives the events that have come. -/
def listen (w : Watching) : Watching :=
  let events := w.file.events w.seen w.console.machine
  let loop := events.foldl Watch.Loop.deliver w.loop
  let loop := loop.receiveAll (loop.queue.length + 1)
  let readAt := if events = [] then w.readAt
    else if loop.phase = .settling then some (w.timeline.now + Watch.Loop.settleTime) else w.readAt
  { w with loop, readAt, seen := w.console.machine }

/-- The file is read when it is time, and what is new in it goes to the session. -/
def read (w : Watching) : Watching :=
  match w.readAt with
  | some moment =>
    if w.timeline.now < moment then w
    else
      match w.loop.quieten.bind fun l => l.look (w.console.machine.readText w.source).toOption with
      | some loop =>
        let fresh := loop.passed.take (loop.passed.length - w.loop.passed.length)
        let timeline := fresh.foldl (fun t text =>
          t.act fun s => (s.edit t.now text).getD s) w.timeline
        { w with loop, timeline, readAt := none }
      | none => { w with readAt := none }
  | none => w

/-- All that can be done without time going on. -/
def settle (w : Watching) : Watching :=
  let w := { w with timeline := w.timeline.settle }
  let w := w.listen.read
  { w with timeline := w.timeline.settle }

/-- Let time go on, millisecond by millisecond. -/
def advance : Nat → Watching → Watching
  | 0, w => w.settle
  | ms + 1, w =>
    let w := w.settle
    advance ms { w with timeline := w.timeline.advance 1 }

/-- Somebody else changes the machine. -/
def disturb (f : Machine → Machine) (w : Watching) : Watching :=
  { w with timeline := { w.timeline with world := onMachine f w.timeline.world } }

/-- The session is interrupted and ends. -/
def interrupt (w : Watching) : Except Failure Unit × Console :=
  let t := w.timeline.act Live.Session.stop
  Action.perform (do
    Action.ofJob (Lock.release w.lock)
    if w.output.isSome then Action.printLine (Style.dimmed.apply "Stopped")) t.world

end Watching

/-- What has to be done before a session can start: everything that may fail under the lock. -/
def openSession (s : Surroundings) (c : Config) (t : Tracing) (output : Option Path) (source : Path)
    (lock : Lock.Held) : Action Watching := do
  let spec ← Action.ofJob (t.launch s c source)
  if let some file := output then
    Action.printLine ("Tracing " ++ Style.cyan.apply source.display ++ " into " ++ file.display ++ " " ++
      Style.dimmed.apply "(Ctrl-C to stop)")
  let file ← Action.ofJob (Watch.WatchedFile.find source)
  let text ← Action.ofJob (Source.readText source)
  let console ← get
  let title := "lt watch " ++ source.display ++ " (Ctrl-C to stop)"
  let timeline : Live.Timeline Console :=
    { runner := fun _ k text => planWithin onMachine ((runnerFor s c spec).plan k.machine text)
      sink := display output title
      session := { delay := c.session.debounceMs }
      world := console }
  return {
    timeline := timeline.act (·.start text)
    file, loop := { last := text }, seen := console.machine, lock, source, output }

/-- Start a live session. When it cannot be started the lock is given up. -/
def startWatch (s : Surroundings) (c : Config) (t : Tracing) (output : Option Path) : Action Watching := do
  let source ← Action.ofJob (Source.resolve t.file)
  let dir ← Action.ofExcept s.env.lockDir
  let lock ← Action.ofJob (Lock.acquire ⟨dir, source, s.pid, s.now⟩)
  try openSession s c t output source lock
  catch e => do
    Action.ofJob (Lock.drop lock)
    throw e

end Retrace.Command
