import Retrace.Live.Session

/-!
# Sessions in time

A session whose countdowns and runs take time. Time stands still while there is anything to do, and then goes on to
the next moment at which something ends. What the runs do to the world around them, and what the display does to it,
is part of the picture.
-/

namespace Retrace.Live

/-- How a run goes on: when it ends, counted from its start, how, and what it does to the world on the way. A run
that goes on for ever has no end. -/
structure Course (World : Type) where
  ending : Option (Nat × RunOutcome)
  effects : List (Nat × (World → World)) := []

namespace Course

variable {World : Type}

/-- The world when the run has ended. -/
def final (c : Course World) (w : World) : World :=
  let due : List (Nat × (World → World)) := match c.ending with
    | some (t, _) => c.effects.filter (·.1 ≤ t)
    | none => c.effects
  due.foldl (fun w e => e.2 w) w

/-- When something becomes so in the world through the first of some effects. -/
def firstMoment (goal : World → Bool) : World → List (Nat × (World → World)) → Option Nat
  | _, [] => none
  | w, (t, f) :: rest => if goal (f w) then some t else firstMoment goal (f w) rest

/-- When something becomes so in the world. -/
def reaches (c : Course World) (w : World) (goal : World → Bool) : Option Nat :=
  if goal w then some 0 else firstMoment goal w c.effects

end Course

/-- A run as it goes when it is left alone, and how it ends and what it still does when it is cancelled after some time;
none when it pays no attention to that. -/
structure Plan (World : Type) where
  alone : Course World
  cancelled : Nat → Option (Course World)

/-- A run that has been started and has not ended. -/
structure Attempt (World : Type) where
  worker : Nat
  startedAt : Nat
  plan : Plan World
  /-- What is left of its course; the times are absolute. -/
  course : Course World
  /-- The run knows that it is cancelled. -/
  told : Bool := false

/-- An entry of the log of the runs. -/
inductive Entry where
  | started (generation : Generation) (text : String) (cancelled : Bool)
  | ended (generation : Generation) (status : EndStatus)
  deriving DecidableEq, Repr

/-- A session in time. -/
structure Timeline (World : Type) where
  /-- The plan of a run for a text, by the number of the scheduler. -/
  runner : Nat → World → String → Plan World
  /-- What showing a text does to the world. -/
  sink : String → World → World
  session : Session
  world : World
  now : Nat := 0
  /-- The workers that have something to do, in order. -/
  ready : List Nat := []
  attempts : List (Attempt World) := []
  /-- The log, the last entry first. -/
  log : List Entry := []

namespace Timeline

variable {World : Type}

/-- A course whose times count from `start`. -/
def Course.from (c : Course World) (start : Nat) : Course World :=
  ⟨c.ending.map fun (t, o) => (start + t, o), c.effects.map fun (t, f) => (start + t, f)⟩

/-- The display shows what it can, and the world sees it. -/
def drain (t : Timeline World) : Timeline World :=
  let before := t.session.engine.display.shown.length
  let session := { t.session with engine := t.session.engine.drain }
  let shown := session.engine.display.shown
  let fresh := (shown.take (shown.length - before)).reverse
  { t with session, world := fresh.foldl (fun w (_, text) => t.sink text w) t.world }

/-- Workers whose runs were cancelled meanwhile have something to do. -/
def wake (t : Timeline World) : Timeline World :=
  let woken := t.attempts.filter fun a =>
    !a.told && (match t.session.engine.workers[a.worker]? with
      | some w => t.session.engine.registry.isCancelled w.token
      | none => false)
  let ids := woken.map (·.worker)
  { t with
    ready := t.ready ++ ids
    attempts := t.attempts.map fun a => if a.worker ∈ ids then { a with told := true } else a }

/-- Do something to the session. Workers of cancelled runs have to react, and those of new runs to start. -/
def act (t : Timeline World) (f : Session → Session) : Timeline World :=
  let before := t.session.engine.workers.size
  let t := { t with session := f t.session }.wake
  let after := t.session.engine.workers.size
  { t with ready := t.ready ++ (List.range (after - before)).map (before + ·) }

/-- A run ends. -/
def finish (t : Timeline World) (a : Attempt World) (o : RunOutcome) : Timeline World :=
  match t.session.engine.workers[a.worker]? with
  | none => t
  | some w =>
    let session := { t.session with engine := t.session.engine.conclude a.worker o }
    { t with
      session, attempts := t.attempts.filter (·.worker ≠ a.worker)
      log := .ended w.token.generation o.status :: t.log }.drain

/-- Put the course of an attempt in place of that of the same worker. -/
def setAttempt (t : Timeline World) (a : Attempt World) : Timeline World :=
  { t with attempts := t.attempts.map fun b => if b.worker = a.worker then a else b }

/-- The first of the attempts that ends at the present moment does so. -/
def endDue (t : Timeline World) (a : Attempt World) : Timeline World :=
  match a.course.ending with
  | some (moment, o) => if moment ≤ t.now ∧ a.course.effects.all (t.now < ·.1) then t.finish a o else t
  | none => t

/-- Carry out the effects of an attempt that are due. -/
def applyEffects (t : Timeline World) (a : Attempt World) : Timeline World :=
  let due := a.course.effects.filter (·.1 ≤ t.now)
  let left := a.course.effects.filter (t.now < ·.1)
  let a := { a with course := { a.course with effects := left } }
  ({ t with world := due.foldl (fun w e => e.2 w) t.world } : Timeline World).setAttempt a

/-- A worker starts its run or reacts to its cancellation. -/
def poll (t : Timeline World) (w : Nat) : Timeline World :=
  match t.session.engine.workers[w]? with
  | none => t
  | some worker =>
    let cancelled := t.session.engine.registry.isCancelled worker.token
    match t.attempts.find? (·.worker == w) with
    | some a =>
      match a.plan.cancelled (t.now - a.startedAt) with
      | some course =>
        let t := t.applyEffects a
        let a := { a with course := Course.from course a.startedAt }
        (t.setAttempt a).endDue a
      | none => t
    | none =>
      if worker.stage ≠ .running then t
      else
        let plan := t.runner worker.scheduler t.world worker.text
        let course := if cancelled then (plan.cancelled 0).getD plan.alone else plan.alone
        let a : Attempt World := ⟨w, t.now, plan, Course.from course t.now, cancelled⟩
        let t := { t with
          attempts := t.attempts ++ [a]
          log := .started worker.token.generation worker.text cancelled :: t.log }
        let t := t.applyEffects a
        match t.attempts.find? (·.worker == w) with
        | some a => t.endDue a
        | none => t

/-- The pipelines whose countdowns have run out. -/
def duePipelines (t : Timeline World) : List Nat :=
  (List.range t.session.pipelines.size).filter fun p =>
    match t.session.pipelines[p]? with
    | some l => l.debounce.isDue t.now
    | none => false

/-- The attempts with something due. -/
def dueAttempts (t : Timeline World) : List (Attempt World) :=
  t.attempts.filter fun a =>
    a.course.effects.any (·.1 ≤ t.now) || (match a.course.ending with
      | some (moment, _) => moment ≤ t.now
      | none => false)

/-- One thing that can be done without time going on. -/
def stepNow (t : Timeline World) : Option (Timeline World) :=
  match t.ready with
  | w :: rest => some ({ t with ready := rest }.poll w)
  | [] =>
    match t.dueAttempts with
    | a :: _ =>
      let t := t.applyEffects a
      match t.attempts.find? (·.worker == a.worker) with
      | some a => some (t.endDue a)
      | none => some t
    | [] =>
      match t.duePipelines with
      | p :: _ => some (t.act (·.fire p))
      | [] => none

/-- Do all that can be done without time going on; `fuel` bounds the number of things. -/
def settleWithin : Nat → Timeline World → Timeline World
  | 0, t => t
  | fuel + 1, t =>
    match t.stepNow with
    | some t => settleWithin fuel t
    | none => t

/-- More things than can be done before time has to go on. -/
def bound (t : Timeline World) : Nat :=
  8 * (t.ready.length + t.attempts.length + t.session.pipelines.size + 2) +
    (t.attempts.flatMap fun a => a.course.effects).length

/-- Do all that can be done without time going on. -/
def settle (t : Timeline World) : Timeline World := settleWithin t.bound t.drain

/-- The moments at which something ends or happens. -/
def moments (t : Timeline World) : List Nat :=
  t.attempts.flatMap (fun a => (a.course.ending.map Prod.fst).toList ++ a.course.effects.map Prod.fst) ++
    t.session.pipelines.toList.filterMap fun l => l.debounce.countdown.map (·.deadline)

/-- The first of the moments. -/
def nextMoment (t : Timeline World) : Option Nat := t.moments.min?

/-- Let time go on to `target`, doing all that is due before it; `fuel` bounds the number of moments. -/
def advanceWithin : Nat → Nat → Timeline World → Timeline World
  | 0, target, t => { t with now := target }
  | fuel + 1, target, t =>
    let t := t.settle
    match t.nextMoment with
    | some m => if m < target then advanceWithin fuel target { t with now := max m t.now } else { t with now := target }
    | none => { t with now := target }

/-- Let time go on by `ms`. What is due at the end of it is not done yet. -/
def advance (t : Timeline World) (ms : Nat) : Timeline World :=
  let fuel := 4 * (t.ready.length + t.attempts.length + t.session.pipelines.size + 2) +
    (t.attempts.flatMap fun a => a.course.effects).length
  advanceWithin fuel (t.now + ms) t

/-- Let time go on in small steps until something is so, but not longer than `fuel` of them. The first result tells
whether it has become so. -/
def awaitWithin (goal : Timeline World → Bool) : Nat → Timeline World → Bool × Timeline World
  | 0, t => (goal t.settle, t.settle)
  | fuel + 1, t =>
    let t := t.settle
    if goal t then (true, t) else awaitWithin goal fuel (t.advance 1)

/-- The tokens of the runs started so far that are not cancelled. -/
def liveTokens (t : Timeline World) : Nat :=
  (t.session.engine.workers.toList.zipIdx.filter fun (w, i) =>
    !t.ready.contains i && t.session.engine.registry.isActive w.token).length

end Timeline

end Retrace.Live
