import CacheCluster.Logging.Output
import CacheCluster.Metrics
import CacheCluster.Transport.Handle

/-! # The metrics exporter

The metrics as text, for whoever asks for them over the network. Each metric that has been recorded
is described once, and has a line for each set of labels.
-/

namespace CacheCluster.Server.Exporter

/-- The failure to open a port that is taken. -/
def portTaken (port : String) : String :=
  "Failed to start metrics exporter on 0.0.0.0:" ++ port

/-- Opens a port for the metrics, and tells so. -/
def start (port : Nat) (isTaken : Bool) : Except String Logging.Record :=
  if isTaken then .error (portTaken (toString port))
  else .ok ⟨"cachemesh_server::startup", .info,
    "Prometheus metrics exported on 0.0.0.0:" ++ toString port⟩

/-- A label's value in quotes. -/
def quotedValue (s : String) : String :=
  s.foldl (fun written c =>
    if c == '"' then written ++ "\\\""
    else if c == '\\' then written ++ "\\\\"
    else if c == '\n' then written ++ "\\n"
    else written.push c) "\"" ++ "\""

/-- The line of one sample. -/
def sampleLine (series : Metrics.Series) (n : Nat) : String :=
  let labels := series.labels.map fun (label, value) => label ++ "=" ++ quotedValue value
  series.name ++ (if labels.isEmpty then "" else "\x7b" ++ ",".intercalate labels ++ "\x7d") ++
    " " ++ toString n

/-- The lines about one metric, none if it has not been recorded. -/
def linesAbout (metrics : Metrics) (description : Metrics.Description) : List String :=
  match metrics.samples.filter (·.1.name == description.name) with
  | [] => []
  | samples =>
    ("# HELP " ++ description.name ++ " " ++ description.text) ::
      ("# TYPE " ++ description.name ++ " " ++ description.kind.label) ::
      samples.map fun (series, n) => sampleLine series n

/-- What a scrape over a network shows; where there is no network, nothing. -/
def scrape (network : Network) (metrics : Metrics) : List String :=
  if network.isIsolated then [] else Metrics.descriptions.flatMap (linesAbout metrics)

end CacheCluster.Server.Exporter
