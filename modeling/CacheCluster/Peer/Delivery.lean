import CacheCluster.Peer.Mesh

/-! # Deliveries

The record of one call to a peer: what was asked when, and when the answer came. A call that is
given up, or that is still running, has no answer.
-/

namespace CacheCluster

structure Delivery where
  url : String
  start : Nat
  action : Request.Action
  /-- When the answer comes; a call that is given up gets none. -/
  finish : Option Nat
  result : Result Response
  /-- The turn in which the call is made, which tells apart calls that start at the same time. -/
  turn : Nat := 0

namespace Delivery

/-- Whether the call is known to have failed once it is over: it got an error, or was given up. -/
def failed (delivery : Delivery) : Bool :=
  delivery.finish.isNone || !delivery.result.toBool

/-- The call when it is given up after everything up to `time` has happened. -/
def cutAfter (time : Nat) (delivery : Delivery) : Delivery :=
  { delivery with finish := delivery.finish.filter (· ≤ time) }

/-- Whether a call is made no later than another. -/
def isNoLater (delivery other : Delivery) : Bool :=
  delivery.start < other.start || delivery.start == other.start && delivery.turn ≤ other.turn

/-- The messages that a call asks a peer to apply. -/
def messages (delivery : Delivery) : List Message :=
  match delivery.action with
  | .put element => [.put element]
  | .remove key => [.remove key]
  | .removeAll => [.removeAll]
  | .send messages => messages
  | _ => []

end Delivery

namespace Mesh

/-- Asks something of a peer and waits for the answer as long as it takes. -/
def ask (mesh : Mesh) (start : Nat) (url : String) (action : Request.Action) : Delivery :=
  let attempt := mesh.call start url action
  ⟨url, start, action, some (start + attempt.delay), attempt.outcome, mesh.turn⟩

/-- Asks something of a peer and gives the call up after a timeout. -/
def askWithin (mesh : Mesh) (timeout start : Nat) (url : String) (action : Request.Action) :
    Delivery :=
  let attempt := mesh.call start url action
  ⟨url, start, action, if attempt.delay ≤ timeout then some (start + attempt.delay) else none,
    attempt.outcome, mesh.turn⟩

end Mesh

/-- The time at which a call with a timeout is over. -/
def Delivery.over (timeout : Nat) (delivery : Delivery) : Nat :=
  delivery.finish.getD (delivery.start + timeout)

end CacheCluster
