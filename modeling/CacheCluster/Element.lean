/-! # Cache elements

An element is what a cache holds under a key and what one node sends to another.
-/

namespace CacheCluster

structure Element where
  key : String
  value : List UInt8
  version : Int64
  creationTime : Int64
  deriving DecidableEq, Repr

end CacheCluster
