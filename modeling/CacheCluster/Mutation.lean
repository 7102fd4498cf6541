import CacheCluster.Element

/-! # Mutations and messages

A mutation of a local cache is an event; what a peer applies for it is a message. An event that is
not sent by copy, or removes, becomes a removal of its key, so that the peer drops what it holds.
-/

namespace CacheCluster

inductive Mutation
  | put | update | remove | removeAll
  deriving DecidableEq, Repr

namespace Mutation

/-- The label of a kind of mutation. -/
def label : Mutation → String
  | put => "put"
  | update => "update"
  | remove => "remove"
  | removeAll => "removeAll"

/-- The kind of mutation with a label. -/
def ofLabel? (label : String) : Option Mutation :=
  [put, update, remove, removeAll].find? (·.label == label)

end Mutation

/-- What a peer applies to its copy of a cache. -/
inductive Message
  | put (element : Element)
  | remove (key : String)
  | removeAll
  deriving DecidableEq, Repr

/-- A mutation of a local cache that may have to reach the peers. -/
structure Event where
  kind : Mutation
  cache : String
  key : String
  element : Option Element
  /-- Whether the element itself is sent, and not an invalidation of its key. -/
  viaCopy : Bool
  deriving DecidableEq, Repr

namespace Event

def put (cache : String) (element : Element) : Event :=
  ⟨.put, cache, element.key, some element, true⟩

def update (cache : String) (element : Element) : Event :=
  ⟨.update, cache, element.key, some element, true⟩

def remove (cache key : String) : Event :=
  ⟨.remove, cache, key, none, false⟩

def removeAll (cache : String) : Event :=
  ⟨.removeAll, cache, "", none, false⟩

/-- The message that a peer applies for an event; a copy without an element gives none. -/
def message? (event : Event) : Option Message :=
  match event.kind with
  | .put | .update =>
    if event.viaCopy then event.element.map .put else some (.remove event.key)
  | .remove => some (.remove event.key)
  | .removeAll => some .removeAll

end Event

/-- Events of one cache that are handed over together. -/
structure Batch where
  cache : String
  events : List Event
  deriving DecidableEq, Repr

namespace Batch

/-- The messages of a batch, in the order of its events. -/
def messages (batch : Batch) : List Message :=
  batch.events.filterMap Event.message?

end Batch

end CacheCluster
