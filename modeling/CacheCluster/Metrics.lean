import CacheCluster.Mutation

/-! # Metrics

What a node counts about replication and discovery. A metric appears once it has been recorded.
-/

namespace CacheCluster

namespace Metrics

inductive Kind
  | counter | gauge | histogram
  deriving DecidableEq, Repr

def Kind.label : Kind → String
  | counter => "counter"
  | gauge => "gauge"
  | histogram => "histogram"

/-- The metrics, told apart by their labels. -/
inductive Series
  | events (cache : String) (kind : Mutation)
  | failures (cache : String)
  | queueSize (cache : String)
  | flushes (cache : String)
  | heartbeatsSent
  | heartbeatsReceived
  | heartbeatsDropped
  | peers
  deriving DecidableEq, Repr

namespace Series

def name : Series → String
  | events _ _ => "cachemesh_replication_events_total"
  | failures _ => "cachemesh_replication_failures_total"
  | queueSize _ => "cachemesh_replication_queue_size"
  | flushes _ => "cachemesh_replication_flush_duration_seconds"
  | heartbeatsSent => "cachemesh_heartbeats_sent_total"
  | heartbeatsReceived => "cachemesh_heartbeats_received_total"
  | heartbeatsDropped => "cachemesh_heartbeats_dropped_total"
  | peers => "cachemesh_peers_total"

/-- The labels of a metric, in ascending order of their names. -/
def labels : Series → List (String × String)
  | events cache kind => [("cache", cache), ("kind", kind.label)]
  | failures cache | queueSize cache | flushes cache => [("cache", cache)]
  | _ => []

/-- The name of a metric with its labels, as in `name{label=value}`. -/
def title (series : Series) : String :=
  if series.labels.isEmpty then series.name
  else
    series.name ++ "\x7b" ++
      ",".intercalate (series.labels.map fun (label, value) => label ++ "=" ++ value) ++ "\x7d"

end Series

/-- What is said of a metric, whatever its labels. -/
structure Description where
  kind : Kind
  name : String
  text : String
  deriving DecidableEq, Repr

def descriptions : List Description :=
  [⟨.counter, (Series.events "" .put).name,
      "Total number of mutation events accepted for replication"⟩,
    ⟨.counter, (Series.failures "").name, "Total number of failed deliveries to a peer"⟩,
    ⟨.gauge, (Series.queueSize "").name,
      "Events waiting in the asynchronous replication queue"⟩,
    ⟨.histogram, (Series.flushes "").name, "Time taken to deliver one batch to all peers"⟩,
    ⟨.counter, Series.heartbeatsSent.name, "Total number of heartbeat datagrams sent"⟩,
    ⟨.counter, Series.heartbeatsReceived.name, "Total number of heartbeat datagrams received"⟩,
    ⟨.counter, Series.heartbeatsDropped.name,
      "Total number of heartbeat datagrams that could not be decoded"⟩,
    ⟨.gauge, Series.peers.name, "Number of known peer urls"⟩]

end Metrics

/-- What has been recorded: totals, last values and numbers of records. -/
structure Metrics where
  samples : List (Metrics.Series × Nat) := []
  deriving DecidableEq, Repr

namespace Metrics

/-- Changes the sample of a metric, or adds one. -/
def alter (change : Option Nat → Nat) (series : Series) :
    List (Series × Nat) → List (Series × Nat)
  | [] => [(series, change none)]
  | (other, n) :: rest =>
    if other = series then (series, change (some n)) :: rest
    else (other, n) :: alter change series rest

def get? (metrics : Metrics) (series : Series) : Option Nat :=
  metrics.samples.lookup series

/-- What a counter has come to; before its first record that is nothing. -/
def total (metrics : Metrics) (series : Series) : Nat :=
  (metrics.get? series).getD 0

/-- Adds to a total. -/
def add (metrics : Metrics) (series : Series) (n : Nat) : Metrics :=
  if n = 0 then metrics else ⟨alter (fun held => held.getD 0 + n) series metrics.samples⟩

/-- Sets a gauge. -/
def set (metrics : Metrics) (series : Series) (n : Nat) : Metrics :=
  ⟨alter (fun _ => n) series metrics.samples⟩

theorem lookup_alter (change : Option Nat → Nat) (series other : Series)
    (samples : List (Series × Nat)) :
    (alter change series samples).lookup other =
      if other = series then some (change (samples.lookup series)) else samples.lookup other := by
  induction samples with
  | nil =>
    by_cases h : other = series
    · simp [alter, h]
    · simp [alter, h, List.lookup_cons, beq_false_of_ne h]
  | cons e rest ih =>
    obtain ⟨first, n⟩ := e
    by_cases hf : first = series
    · subst hf
      by_cases h : other = first
      · simp [alter, h]
      · simp [alter, h, List.lookup_cons, beq_false_of_ne h]
    · by_cases h : other = first
      · subst h
        simp [alter, hf]
      · simp [alter, hf, List.lookup_cons, beq_false_of_ne h, ih, beq_false_of_ne (Ne.symm hf)]

theorem get?_set (metrics : Metrics) (series other : Series) (n : Nat) :
    (metrics.set series n).get? other = if other = series then some n else metrics.get? other :=
  lookup_alter _ _ _ _

theorem get?_add (metrics : Metrics) (series other : Series) (n : Nat) :
    (metrics.add series n).get? other =
      if other = series ∧ n ≠ 0 then some (metrics.total series + n) else metrics.get? other := by
  unfold add
  by_cases zero : n = 0
  · simp [zero]
  · simp only [ne_eq, zero, not_false_eq_true, and_true]
    exact lookup_alter (·.getD 0 + n) series other metrics.samples

theorem total_set_of_ne (metrics : Metrics) {series other : Series} (ne : other ≠ series)
    (n : Nat) :
    (metrics.set series n).total other = metrics.total other := by
  rw [total, get?_set, if_neg ne, total]

theorem total_add (metrics : Metrics) (series other : Series) (n : Nat) :
    (metrics.add series n).total other = metrics.total other + if other = series then n else 0 := by
  unfold total
  rw [get?_add]
  by_cases same : other = series
  · by_cases zero : n = 0 <;> simp [same, zero, total]
  · simp [same]

end Metrics

end CacheCluster
