import CacheCluster.Store
import CacheCluster.Wire.Frame

/-! # Serving requests

A listener answers each request from the cache that it names. A connection is served frame by frame
until the stream ends, does not read, or an answer does not fit in a frame.
-/

namespace CacheCluster.Service

/-- What a store answers, and the store afterwards. -/
def perform (store : Store) : Request.Action → Response × Store
  | .ping => (.ok, store)
  | .put element => (.ok, store.put element)
  | .remove key => (.removed (store.contains key), store.remove key)
  | .removeAll => (.ok, ∅)
  | .send messages => (.ok, store.applyAll messages)
  | .keys => (.keys store.names, store)
  | .getElements keys => (.elements (store.elementsFor keys), store)

/-- The answer for a cache that is not served. -/
def notServed (cache : String) : Response :=
  .error ("no cache named '" ++ cache ++ "' on this node")

/-- Answers a request from the caches that are served. -/
def answer (caches : Table Store) (request : Request) : Response × Table Store :=
  match caches.get? request.cache with
  | none => (notServed request.cache, caches)
  | some store =>
    let (response, store) := perform store request.action
    (response, caches.insert request.cache store)

/-- Answers requests one after the other, up to the first that does not read or whose answer does
not fit in a frame. The frames are those written. -/
def answerAll (caches : Table Store) : List (Result Request) → List ByteArray × Table Store
  | [] | .error _ :: _ => ([], caches)
  | .ok request :: requests =>
    let (response, caches) := answer caches request
    match Frame.write response.encode with
    | .error _ => ([], caches)
    | .ok frame =>
      let (frames, caches) := answerAll caches requests
      (frame :: frames, caches)

/-- Serves a whole stream of requests. -/
def serve (caches : Table Store) (stream : ByteArray) : List ByteArray × Table Store :=
  answerAll caches (Frame.readAll Request.decode? stream.size stream).1

end CacheCluster.Service
