import CacheCluster.Registry
import CacheCluster.Peer.Url
import CacheCluster.Wire.Response
import CacheCluster.Wire.Request

/-! # The peers as a node sees them

A mesh says what becomes of every look-up and every call, whenever it starts. Look-ups of several
urls run side by side, each up to a timeout; a url that fails or takes too long is left out.
-/

namespace CacheCluster

/-- What becomes of a look-up or a call: it takes a while and then ends in some way. -/
structure Attempt (α : Type) where
  delay : Nat := 0
  outcome : Result α

namespace Attempt

variable {α : Type}

/-- The outcome, if it comes in time; one that comes at the last moment does. -/
def within (timeout : Nat) (attempt : Attempt α) : Option (Result α) :=
  if attempt.delay ≤ timeout then some attempt.outcome else none

def succeedsWithin (timeout : Nat) (attempt : Attempt α) : Bool :=
  (attempt.within timeout).any fun outcome => outcome.toBool

/-- How long the attempt is waited for. -/
def duration (timeout : Nat) (attempt : Attempt α) : Nat :=
  min attempt.delay timeout

end Attempt

/-- How the peers behave at every time. -/
structure Mesh where
  /-- Looking a url up. -/
  connect : (time : Nat) → (url : String) → Attempt Unit
  /-- Asking something of the cache at a url. -/
  call : (time : Nat) → (url : String) → Request.Action → Attempt Response
  /-- The turn in which calls are made. -/
  turn : Nat := 0

/-- The same peers, called in some turn. -/
def Mesh.inTurn (mesh : Mesh) (turn : Nat) : Mesh :=
  { mesh with turn }

/-- What a node needs to find the peers of a cache. -/
structure Neighbours where
  registry : Registry
  /-- The urls of the node itself, which are no peers. -/
  localUrls : List String := []
  mesh : Mesh
  lookupTimeout : Nat := 10000

/-- The urls that were reached, and when the last look-up ended. -/
structure Lookup where
  found : List String
  finish : Nat
  deriving DecidableEq, Repr

namespace Neighbours

variable (neighbours : Neighbours) (now : Nat)

/-- The live urls of a cache on other nodes, in ascending order. -/
def urlsFor (cache : String) : List String :=
  (neighbours.registry.live now).filter fun url =>
    PeerUrl.isFor cache url && !neighbours.localUrls.contains url

/-- Looks urls up side by side. -/
def lookUpAll (urls : List String) : Lookup where
  found := urls.filter fun url =>
    (neighbours.mesh.connect now url).succeedsWithin neighbours.lookupTimeout
  finish := urls.foldl (fun finish url =>
    max finish (now + (neighbours.mesh.connect now url).duration neighbours.lookupTimeout)) now

/-- Looks the peers of a cache up. -/
def lookUp (cache : String) : Lookup :=
  neighbours.lookUpAll now (neighbours.urlsFor now cache)

end Neighbours

end CacheCluster
