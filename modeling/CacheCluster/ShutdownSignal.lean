/-! # The shutdown signal

A signal that is given at most once and then stays given. Whoever waits for it is woken, and whoever
comes later does not wait. A trigger that was set for some time goes off when time passes it.
-/

namespace CacheCluster

structure ShutdownSignal where
  isTriggered : Bool := false
  /-- The times at which triggers that were set are to go off. -/
  alarms : List Nat := []
  deriving DecidableEq, Repr

namespace ShutdownSignal

/-- What waiting comes to: when it ended, and what had happened by then. -/
structure Waiting (α : Type) where
  result : α
  signal : ShutdownSignal
  finish : Nat

variable (signal : ShutdownSignal)

def trigger : ShutdownSignal :=
  { signal with isTriggered := true }

/-- Sets a trigger. -/
def triggerAt (time : Nat) : ShutdownSignal :=
  { signal with alarms := time :: signal.alarms }

/-- Lets everything set for a time before `limit` go off. -/
def pass (limit : Nat) : ShutdownSignal where
  isTriggered := signal.isTriggered || signal.alarms.any (· < limit)
  alarms := signal.alarms.filter (limit ≤ ·)

/-- When the signal is given while something waits from `now` on for less than `duration`. -/
def given? (now duration : Nat) : Option Nat :=
  if signal.isTriggered then some now
  else ((signal.alarms.filter (· < now + duration)).min?).map (max now)

/-- Waits for the signal, for less than `duration`, and says whether it came. -/
def wait (now duration : Nat) : Waiting Bool :=
  match signal.given? now duration with
  | some time => ⟨true, signal.pass (time + 1), time⟩
  | none => ⟨false, signal.pass (now + duration), now + duration⟩

/-- Runs work that takes `duration`, unless the signal is given before it is done. -/
def runUnless {α : Type} (now duration : Nat) (work : α) : Waiting (Option α) :=
  match signal.given? now duration with
  | some time =>
    if duration = 0 then ⟨some work, signal, now⟩ else ⟨none, signal.pass (time + 1), time⟩
  | none => ⟨some work, signal.pass (now + duration), now + duration⟩

end ShutdownSignal

end CacheCluster
