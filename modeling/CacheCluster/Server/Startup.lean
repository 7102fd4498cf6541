import CacheCluster.Node.Basic
import CacheCluster.Server.Configuration
import CacheCluster.Server.Exporter

/-! # Starting a server

A server exports its metrics, makes a node from its configuration, starts it and hosts the
configured caches, one after the other. The first thing that fails ends the start.
-/

namespace CacheCluster.Server

/-- A server that runs, and what it logged on the way. -/
structure Startup where
  node : Node
  records : List Logging.Record

namespace Startup

def record (level : Logging.Level) (text : String) : Logging.Record :=
  ⟨"cachemesh_server", level, text⟩

/-- Hosts caches on a node. -/
def host (mesh : Mesh) (node : Node) (caches : List String) : Result Node :=
  caches.foldlM (fun node cache =>
    let step := node.addCache mesh 0 cache
    step.result.map fun _ => step.node) node

/-- The line that tells that the server is ready. -/
def ready (node : Node) : String :=
  "cachemesh server ready, hosting [" ++
    ", ".intercalate (node.cacheNames.map fun name => "\"" ++ name ++ "\"") ++ "] with " ++
    toString node.provider.registry.size ++ " known peers"

/-- Makes and starts the node of a configuration. -/
def run (config : Settings.Configuration) (picks : (load : Nat) → Nat) (interfaces : Interfaces)
    (mesh : Mesh) (freePort : Nat) : Result Startup := do
  let noted := Node.ofConfiguration config picks
  let (node, started) := (← noted.value).start interfaces freePort
  started
  let node ← host mesh node config.caches
  let warnings := noted.warnings.map fun warning => record .warn warning.message
  let idle := if config.caches.isEmpty then
    [record .warn "No caches configured, this node only takes part in discovery"] else []
  return ⟨node, warnings ++ idle ++ [record .info (ready node)]⟩

/-- Starts the server of a configuration, on a machine where some ports are taken. -/
def serve (config : Settings.Configuration) (picks : (load : Nat) → Nat) (interfaces : Interfaces)
    (mesh : Mesh) (freePort : Nat) (isTaken : Nat → Bool) : Except String Startup := do
  let exported ← config.metricsPort.mapM fun port => Exporter.start port (isTaken port)
  let startup ← (run config picks interfaces mesh freePort).mapError Error.message
  return { startup with records := exported.toList ++ startup.records }

end Startup

end CacheCluster.Server
