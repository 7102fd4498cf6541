/-! # Failures of the cluster

The failures an operation can report, each with the text it is shown by. A failure that arose
between two nodes is told apart from one that arose on the node itself.
-/

namespace CacheCluster

/-- How reading, writing or opening a connection failed. -/
inductive IoKind
  | unexpectedEnd
  | connectionRefused
  | addressNotAvailable
  | networkUnreachable
  | invalidInput
  | other
  deriving DecidableEq, Repr

inductive Error
  /-- The url cannot stand in a heartbeat. -/
  | encoding (url : String)
  /-- Bytes that came from a peer do not read. -/
  | corruptPayload (reason : String)
  | discoveryStart (reason : String)
  | configuration (reason : String)
  /-- A peer answered with a failure or did not answer. -/
  | remote (reason : String)
  | illegalState (reason : String)
  | io (kind : IoKind) (reason : String)
  /-- A document is not of the wire type it was read as. -/
  | serialization (reason : String)
  deriving DecidableEq, Repr

namespace Error

def message : Error → String
  | encoding url => "cannot encode '" ++ url ++ "': peer urls must not contain the '|' delimiter"
  | corruptPayload reason => "corrupt payload: " ++ reason
  | discoveryStart reason => "could not start peer discovery: " ++ reason
  | configuration reason => "configuration error: " ++ reason
  | remote reason => "remote communication error: " ++ reason
  | illegalState reason => "illegal state: " ++ reason
  | io _ reason => "io error: " ++ reason
  | serialization reason => "serialization error: " ++ reason

/-- Whether the failure arose between two nodes. -/
def isRemote : Error → Bool
  | remote _ | io _ _ => true
  | _ => false

end Error

/-- The outcome of an operation that can fail. -/
abbrev Result (α : Type) := Except Error α

end CacheCluster
