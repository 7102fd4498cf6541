import CacheCluster.Server.Startup
import CacheCluster.Transport.Handle

/-! # The command line of the server

Reads the command line, the configuration file and the environment, starts the server and stops it
when the input ends.
-/

namespace CacheCluster.Server

/-- The content of a file that can be read. -/
def readText? (path : String) : IO (Option (String × String)) := do
  try return some (path, ← IO.FS.readFile path) catch _ => return none

/-- The variables that are set, of those a server reads. -/
def readVariables : IO (List (String × String)) :=
  (Environment.keys.map Environment.variableFor).filterMapM fun name => do
    return (← IO.getEnv name).map fun value => (name, value)

/-- The numbers that a generator makes, one after the other. -/
def drawn (generator : StdGen) (n : Nat) : Nat :=
  (stdNext (n.repeat (fun generator => (stdNext generator).2) generator)).1

/-- Lets the server of a configuration run until the input ends. No other machine is on its network;
each line of the input asks for the metrics, if they are exported. -/
def serve (config : Server.Configuration) (settings : Logging.Settings) (filter : Option String) :
    IO UInt32 := do
  let network : Network := {}
  let seed := (← IO.getRandomBytes 4).foldl (fun n byte => 256 * n + byte.toNat) 0
  match Startup.serve config.core (drawn (mkStdGen seed)) .isolated network.mesh 49152
      fun _ => false with
  | .error message =>
    IO.eprintln ("Error: " ++ message)
    return 1
  | .ok startup =>
    for line in (Logging.output settings filter startup.records).console do
      IO.println line
    for _ in (← (← IO.getStdin).readToEnd).splitOn "\n" |>.dropLast do
      if config.core.metricsPort.isSome then
        for line in Exporter.scrape network startup.node.dispatcher.metrics do
          IO.println line
    return 0

/-- Does what a command line asks for. -/
def command (words : List String) : IO UInt32 := do
  match CommandLine.parse words with
  | .error .displayHelp =>
    IO.println CommandLine.usage
    return 0
  | .error .displayVersion =>
    IO.println CommandLine.version
    return 0
  | .error refusal =>
    IO.eprintln ("error: " ++ refusal.label ++ "\n\n" ++ CommandLine.usage)
    return 2
  | .ok line =>
    let files ← (filesFor line.config).filterMapM readText?
    match Configuration.build line files (← readVariables) with
    | .error failure =>
      IO.eprintln ("Error: " ++ failure.message)
      return 1
    | .ok config =>
      let names := ["HOME", "CACHEMESH_LOG_DIR", "CACHEMESH_LOG_CONSOLE", "CACHEMESH_LOG_FILE",
        "CACHEMESH_LOG_LEVEL", "CACHEMESH_LOG_ROTATION"]
      let assignments ← names.filterMapM fun name => do
        return (← IO.getEnv name).map fun value => (name, value)
      let filter ← IO.getEnv "RUST_LOG"
      serve config (config.logging fun name => List.lookup name assignments) filter

end CacheCluster.Server

def main (words : List String) : IO UInt32 :=
  CacheCluster.Server.command words
