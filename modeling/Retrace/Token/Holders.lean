import Retrace.Token

/-!
# Holders of clocks and tokens

Clocks and tokens are used through handles, which go from hand to hand as clones: a clone is one more handle of the
same clock or token. Handles are numbered in the order in which they were made, those of clocks and those of tokens
apart.
-/

namespace Retrace

/-- All handles that were ever made, and what they share. -/
structure Holders where
  registry : Registry := {}
  clocks : Array Clock := #[]
  tokens : Array Token := #[]
  deriving DecidableEq, Repr

namespace Holders

/-- What is done through a handle, which has a number; what is made gets the next one. -/
inductive Action where
  | newClock
  | cloneClock (c : Nat)
  | next (c : Nat)
  | mint (c : Nat)
  | newToken (g : Generation)
  | cloneToken (t : Nat)
  | cancel (t : Nat)
  deriving DecidableEq, Repr

/-- The holders after an action, when there is the handle that it needs. -/
def step (s : Holders) : Action → Option Holders
  | .newClock =>
    let (clock, registry) := s.registry.newClock
    some { s with registry, clocks := s.clocks.push clock }
  | .cloneClock c => (s.clocks[c]?).map fun clock => { s with clocks := s.clocks.push clock }
  | .next c => (s.clocks[c]?).map fun clock => { s with registry := (s.registry.next clock).2 }
  | .mint c => (s.clocks[c]?).map fun clock =>
    let (token, registry) := s.registry.mint clock
    { s with registry, tokens := s.tokens.push token }
  | .newToken g =>
    let (token, registry) := s.registry.newToken g
    some { s with registry, tokens := s.tokens.push token }
  | .cloneToken t => (s.tokens[t]?).map fun token => { s with tokens := s.tokens.push token }
  | .cancel t => (s.tokens[t]?).map fun token => { s with registry := s.registry.cancel token }

/-- The generation that an action hands out, with the number of the clock's handle. -/
def given : Holders × Action → Option (Nat × Generation)
  | (s, .next c) => (s.clocks[c]?).map fun clock => (c, (s.registry.next clock).1)
  | (s, .mint c) => (s.clocks[c]?).map fun clock => (c, (s.registry.mint clock).1.generation)
  | _ => none

end Holders

end Retrace
