import CacheCluster.Decimal.Reading
import CacheCluster.Settings.Document

/-! # Settings from the environment

A variable whose name starts as the keys do, with underscores in pairs for points, sets the key that
it spells. Its text is taken as the first of these that it spells: a truth value, an integer, a
number.
-/

namespace CacheCluster.Server.Environment

open Settings (Value)

/-- What the names of settings start with. -/
def lead : String := "cachemesh__"

/-- Puts points in place of pairs of underscores. -/
def pointed : List Char → List Char
  | '_' :: '_' :: cs => '.' :: pointed cs
  | c :: cs => c :: pointed cs
  | [] => []

/-- The key that the name of a variable spells. -/
def key? (name : String) : Option String :=
  let name := Text.lowercase name
  if name.startsWith lead then some (String.ofList (pointed name.toList)) else none

/-- The value that the text of a variable spells. -/
def value (s : String) : Value :=
  let word := Text.lowercase s
  if word == "true" then .bool true
  else if word == "false" then .bool false
  else
    match Decimal.int64? s with
    | some i => .integer i
    | none => (Decimal.binary64? s).elim (.text s) .float

/-- The settings that variables spell. -/
def entries (assignments : List (String × String)) : List (String × Value) :=
  assignments.filterMap fun (name, s) => (key? name).map fun key => (key, value s)

/-- The keys that a server reads. -/
def keys : List String :=
  ["cachemesh.peer.discovery",
    "cachemesh.peer.urls",
    "cachemesh.multicast.group.address",
    "cachemesh.multicast.group.port",
    "cachemesh.multicast.ttl",
    "cachemesh.multicast.host.name",
    "cachemesh.multicast.heartbeat.interval.ms",
    "cachemesh.multicast.stale.timeout.ms",
    "cachemesh.multicast.max.peers.per.send",
    "cachemesh.replication.replicate-puts",
    "cachemesh.replication.replicate-puts-via-copy",
    "cachemesh.replication.replicate-updates",
    "cachemesh.replication.replicate-updates-via-copy",
    "cachemesh.replication.replicate-removals",
    "cachemesh.replication.replicate-asynchronously",
    "cachemesh.replication.async-interval-ms",
    "cachemesh.replication.async-max-batch-size",
    "cachemesh.replication.shutdown-grace-ms",
    "cachemesh.listener.host.name",
    "cachemesh.listener.port",
    "cachemesh.listener.socket.timeout.ms",
    "cachemesh.bootstrap.enabled",
    "cachemesh.bootstrap.asynchronously",
    "cachemesh.bootstrap.maximum.chunk.size.bytes",
    "cachemesh.caches",
    "cachemesh.metrics.port",
    "cachemesh.shutdown.timeout.ms",
    "cachemesh.log.path",
    "cachemesh.log.console",
    "cachemesh.log.file",
    "cachemesh.log.level"]

/-- The usual name of the variable that spells a key. -/
def variableFor (key : String) : String :=
  String.ofList (key.toList.flatMap fun c => if c = '.' then ['_', '_'] else [c.toUpper])

end CacheCluster.Server.Environment
