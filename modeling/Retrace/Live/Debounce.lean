/-!
# Quiet periods

An edit is handed on once no other edit has come for a while. Every edit starts a countdown of its own and stops the
one before. A countdown that has run out looks for its value under the number it was started with, so that one that
was overtaken on its way finds nothing.
-/

namespace Retrace.Live

/-- A countdown: the number of the edit that started it, and when it runs out. -/
structure Countdown where
  number : UInt64
  deadline : Nat
  deriving DecidableEq, Repr

/-- The last edit while its quiet period lasts. -/
structure Debounce (α : Type) where
  delay : Nat
  /-- The number of the last edit or cancellation. -/
  number : UInt64 := 0
  pending : Option α := none
  /-- The countdown that is running. -/
  countdown : Option Countdown := none
  /-- The countdowns that have run out and have yet to look for their values. -/
  expired : List UInt64 := []
  deriving Repr

namespace Debounce

variable {α : Type}

/-- An edit at the time `now`. -/
def notify (d : Debounce α) (now : Nat) (value : α) : Debounce α :=
  let number := d.number + 1
  { d with number, pending := some value, countdown := some ⟨number, now + d.delay⟩ }

/-- Forget the edit that is pending. -/
def cancel (d : Debounce α) : Debounce α :=
  { d with number := d.number + 1, pending := none, countdown := none }

/-- Nobody listens any more. The countdown is stopped; the edit stays for one that has run out already. -/
def drop (d : Debounce α) : Debounce α := { d with countdown := none }

/-- An edit waits for the end of its quiet period. -/
def isPending (d : Debounce α) : Bool := d.pending.isSome

/-- The countdown has run out at the time `now`. -/
def isDue (d : Debounce α) (now : Nat) : Bool :=
  match d.countdown with
  | some c => c.deadline ≤ now
  | none => false

/-- The countdown that has run out can no longer be stopped. -/
def expire (d : Debounce α) : Debounce α :=
  match d.countdown with
  | some c => { d with countdown := none, expired := d.expired ++ [c.number] }
  | none => d

/-- A countdown that has run out takes its value, if it was not overtaken. -/
def take (d : Debounce α) (number : UInt64) : Option α × Debounce α :=
  let rest := d.expired.erase number
  if d.number = number then (d.pending, { d with expired := rest, pending := none })
  else (none, { d with expired := rest })

/-- The end of a countdown in one step: what it hands on, if anything. -/
def fire (d : Debounce α) : Option α × Debounce α :=
  match d.countdown with
  | some c => d.expire.take c.number
  | none => (none, d)

/-- What comes of the quiet period before the time `due`, with its moment, when the time is `now`. -/
def fireBefore (d : Debounce α) (now due : Nat) : Debounce α × List (Nat × α) :=
  match d.countdown with
  | some c =>
    if c.deadline < due then
      let (v, d) := d.fire
      (d, v.toList.map fun a => (max c.deadline now, a))
    else (d, [])
  | none => (d, [])

end Debounce

end Retrace.Live
