import CacheCluster.Mutation
import CacheCluster.Table

/-! # Stores

A store holds the elements of one cache on one node. Nothing here reaches a peer: what a peer sends
is applied without being sent on.
-/

namespace CacheCluster

/-- The elements of a cache, each under its key. -/
abbrev Store := Table Element

namespace Store

def put (store : Store) (element : Element) : Store :=
  store.insert element.key element

def remove (store : Store) (key : String) : Store :=
  store.erase key

/-- Puts elements one after the other. -/
def putAll (store : Store) (elements : List Element) : Store :=
  elements.foldl put store

/-- Applies what a peer sent. -/
def apply (store : Store) : Message → Store
  | .put element => put store element
  | .remove key => remove store key
  | .removeAll => ∅

/-- Applies messages one after the other. -/
def applyAll (store : Store) (messages : List Message) : Store :=
  messages.foldl apply store

@[simp] theorem get?_put (store : Store) (element : Element) (key : String) :
    (put store element).get? key = if key = element.key then some element else store.get? key :=
  Table.get?_insert store element.key key element

@[simp] theorem get?_remove (store : Store) (key other : String) :
    (remove store key).get? other = if other = key then none else store.get? other :=
  Table.get?_erase store key other

@[simp] theorem applyAll_append (store : Store) (first second : List Message) :
    applyAll store (first ++ second) = applyAll (applyAll store first) second :=
  List.foldl_append

/-- The elements that a store holds for some keys, in the order of the keys. -/
def elementsFor (store : Store) (keys : List String) : List Element :=
  keys.filterMap store.get?

end Store

end CacheCluster
