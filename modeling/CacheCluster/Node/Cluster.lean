import CacheCluster.Clock
import CacheCluster.Node.Basic

/-! # Nodes on one clock

Several nodes share a clock. While one of them waits for an operation, the others and its own
background work go on.
-/

namespace CacheCluster

/-- Nodes by name, at a time. -/
abbrev Cluster := Clocked (Table Node)

namespace Cluster

variable (cluster : Cluster) (mesh : Mesh)

/-- The background work of every node. -/
def background : Background (Table Node) :=
  fun turn now limit nodes => nodes.map fun node => node.run (mesh.inTurn turn) now limit

def node? (name : String) : Option Node :=
  cluster.state.get? name

/-- Changes a node. -/
def set (name : String) (node : Node) : Cluster :=
  { cluster with state := cluster.state.insert name node }

/-- Takes over what an operation made of a node. -/
def afterStep {α : Type} (name : String) (step : Node.Step α) : Cluster :=
  (set cluster name step.node).waitUntil (background mesh) step.finish

/-- Shuts every node down, one after the other. -/
def shutdown : Cluster :=
  cluster.state.names.foldl (fun cluster name =>
    match node? cluster name with
    | some node =>
      let mesh := mesh.inTurn cluster.turn
      afterStep cluster mesh name (node.shutdown mesh cluster.now)
    | none => cluster) cluster

/-- Every call that was made, the earliest first. -/
def deliveries : List Delivery :=
  (cluster.state.values.flatMap Node.deliveries).mergeSort Delivery.isNoLater

end Cluster

end CacheCluster
