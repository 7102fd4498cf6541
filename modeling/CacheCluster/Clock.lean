/-! # States on a clock

Something that changes as time passes. While a step is waited for, what goes on in the background
happens as well; what is due at the very end of the wait happens after it. A step and the background
behind it take a turn each, the step first.
-/

namespace CacheCluster

/-- A state at a time, in milliseconds. -/
structure Clocked (σ : Type) where
  now : Nat := 0
  /-- The turn of the next step. -/
  turn : Nat := 0
  state : σ

/-- What the background makes of a state in a turn, from `now` up to and including `limit`. -/
abbrev Background (σ : Type) := (turn now limit : Nat) → σ → σ

namespace Clocked

variable {σ : Type} (background : Background σ) (clock : Clocked σ)

/-- Lets time pass. -/
def advance (milliseconds : Nat) : Clocked σ where
  now := clock.now + milliseconds
  turn := clock.turn + 2
  state := background (clock.turn + 1) clock.now (clock.now + milliseconds) clock.state

/-- Lets time pass up to the end of a step that was waited for. -/
def waitUntil (finish : Nat) : Clocked σ where
  now := max clock.now finish
  turn := clock.turn + 2
  state :=
    if clock.now < finish then background (clock.turn + 1) clock.now (finish - 1) clock.state
    else clock.state

/-- Takes over what a step that ends at `finish` made of the state. -/
def after (state : σ) (finish : Nat) : Clocked σ :=
  waitUntil background { clock with state } finish

end Clocked

end CacheCluster
