import Retrace.Source
import Retrace.Watch.File
import Retrace.Watch.Loop

/-!
# A watched file among other programs

The file is watched before its text is read for the first time. Other programs change the machine at any moment; what
they do is reported in order, and maybe late, while the loop goes on step by step.
-/

namespace Retrace.Watch

/-- How far the watching of a file has come. -/
inductive Stage where
  | starting
  /-- The file is watched, and its first text is still to be read. -/
  | watched (file : WatchedFile) (queue : List ChangeKind)
  | looping (file : WatchedFile) (loop : Loop)
  | failed (f : Failure)
  deriving DecidableEq, Repr

namespace Stage

/-- The file, when it is watched. -/
def file? : Stage → Option WatchedFile
  | .watched file _ | .looping file _ => some file
  | .starting | .failed _ => none

/-- A change is reported to the watch. -/
def report (c : Change) : Stage → Stage
  | .watched file queue => .watched file (if file.concerns c then queue ++ [c.kind] else queue)
  | .looping file loop => .looping file (if file.concerns c then loop.deliver c.kind else loop)
  | s => s

end Stage

/-- The machine and the watch of one of its files. -/
structure World where
  machine : Machine
  stage : Stage := .starting
  /-- How many of the changes of the machine have been reported, or were made before the file was watched. -/
  reported : Nat := 0

namespace World

/-- Another program has changed the machine to `m`. Nothing that was noted before is lost, and when a watched file has
another text than before, something other than its deletion is noted. -/
def Told (source : Path) (w : World) (m : Machine) : Prop :=
  w.machine.changes <:+ m.changes ∧
    ∀ file ∈ w.stage.file?, ∀ text ∈ (m.readText source).toOption,
      (w.machine.readText source).toOption = some text ∨
        ∃ c ∈ m.changes.take (m.changes.length - w.machine.changes.length),
          file.concerns c = true ∧ c.kind ≠ .delete

instance (source : Path) (w : World) (m : Machine) : Decidable (w.Told source m) :=
  inferInstanceAs (Decidable (_ ∧ _))

/-- The next change that is to be reported. -/
def next? (w : World) : Option Change := w.machine.changes.reverse[w.reported]?

/-- What happens next. -/
inductive Action where
  /-- Another program changes the machine. -/
  | disturb (m : Machine)
  /-- The next change is reported. -/
  | report
  | watch
  | readFirst
  | receive
  | quieten
  | look

/-- The watch does it, or those who report to it. -/
def Action.isOwn : Action → Bool
  | .disturb _ => false
  | _ => true

/-- The loop goes on. -/
def turn (w : World) (f : Loop → Option Loop) : Option World :=
  match w.stage with
  | .looping file loop => (f loop).map fun loop => { w with stage := .looping file loop }
  | _ => none

/-- The world after a step, when the step can be made. -/
def step (source : Path) (w : World) : Action → Option World
  | .disturb m => if w.Told source m then some { w with machine := m } else none
  | .report => w.next?.map fun c => { w with stage := w.stage.report c, reported := w.reported + 1 }
  | .watch =>
    match w.stage with
    | .starting =>
      match ((WatchedFile.find source).perform w.machine).1 with
      | .ok file => some { w with stage := .watched file [], reported := w.machine.changes.length }
      | .error f => some { w with stage := .failed f }
    | _ => none
  | .readFirst =>
    match w.stage with
    | .watched file queue =>
      match ((Source.readText source).perform w.machine).1 with
      | .ok text => some { w with stage := .looping file { queue, last := text } }
      | .error f => some { w with stage := .failed f }
    | _ => none
  | .receive => w.turn Loop.receive
  | .quieten => w.turn Loop.quieten
  | .look => w.turn fun l => l.look (w.machine.readText source).toOption

end World

end Retrace.Watch
