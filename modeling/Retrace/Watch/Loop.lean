import Retrace.Machine.Files

/-!
# The watch loop

What a watcher does with the events of a file: it waits for one that is no deletion, lets the events that follow pass
until they cease for a while, and then reads the file. A text that differs from the last one is passed on.
-/

namespace Retrace.Watch

/-- What the loop is doing. -/
inductive Phase where
  /-- It waits for an event. -/
  | waiting
  /-- It lets events pass. -/
  | settling
  /-- It is about to read the file. -/
  | reading
  deriving DecidableEq, Repr

/-- The loop: the events that have come and are not yet received, the last text, and the texts passed on, the last one
first. -/
structure Loop where
  phase : Phase := .waiting
  queue : List ChangeKind := []
  last : String
  passed : List String := []
  deriving DecidableEq, Repr

namespace Loop

/-- How long events have to cease before the file is read, in milliseconds. -/
def settleTime : Nat := 25

/-- An event comes. -/
def deliver (l : Loop) (k : ChangeKind) : Loop := { l with queue := l.queue ++ [k] }

/-- The loop receives the next event. A deletion alone is no reason to read. -/
def receive (l : Loop) : Option Loop :=
  match l.phase, l.queue with
  | .waiting, k :: rest => some { l with phase := if k = .delete then .waiting else .settling, queue := rest }
  | .settling, _ :: rest => some { l with queue := rest }
  | _, _ => none

/-- No event has come for a while. -/
def quieten (l : Loop) : Option Loop :=
  match l.phase, l.queue with
  | .settling, [] => some { l with phase := .reading }
  | _, _ => none

/-- The loop reads the file, if it can. -/
def look (l : Loop) (content : Option String) : Option Loop :=
  match l.phase with
  | .reading =>
    match content with
    | some text =>
      if text = l.last then some { l with phase := .waiting }
      else some { l with phase := .waiting, last := text, passed := text :: l.passed }
    | none => some { l with phase := .waiting }
  | _ => none

/-- Receive all events that have come; `fuel` bounds their number. -/
def receiveAll : Nat → Loop → Loop
  | 0, l => l
  | fuel + 1, l =>
    match l.receive with
    | some l => receiveAll fuel l
    | none => l

end Loop

end Retrace.Watch
