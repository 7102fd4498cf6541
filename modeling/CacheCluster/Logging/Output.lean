import CacheCluster.Logging.Filter
import CacheCluster.Logging.Settings

/-! # Where a log line goes

The console and the root file take what the filter lets through. Each component has a file of its
own besides, which takes everything from the targets of the component.
-/

namespace CacheCluster.Logging

structure Record where
  target : String
  level : Level
  text : String
  deriving DecidableEq, Repr

def Record.line (record : Record) : String :=
  record.level.label ++ " main " ++ record.target ++ ": " ++ record.text

/-- A file of its own for what starts with some targets. -/
structure Component where
  file : String
  targets : List String
  deriving DecidableEq, Repr

def rootFile : String := "cachemesh.log"

def components : List Component :=
  [⟨"discovery.log", ["cachemesh_core::service::multicast",
      "cachemesh_core::service::peer_provider", "cachemesh_core::service::peer_registry"]⟩,
    ⟨"replication.log", ["cachemesh_core::service::replicator",
      "cachemesh_core::service::batch_queue", "cachemesh_core::service::bootstrap"]⟩,
    ⟨"remote.log", ["cachemesh_core::service::remote"]⟩]

def Component.filter (component : Component) : Filter :=
  component.targets.map fun target => ⟨target, Level.trace.rank⟩

/-- The filter of the console or the root file: the one that the environment gives, if it reads, and
that of the configured level otherwise. -/
def filterFor (environment : Option String) (level : Level) : Filter :=
  (environment.bind Filter.parse?).getD (.ofLevel level)

/-- What is logged first when there are files. -/
def opening (settings : Settings) : Record where
  target := "cachemesh_server::startup::logging"
  level := .info
  text := "File logging initialized: " ++ rootFile ++ " (root) + " ++
    toString components.length ++ " component log files log_dir=" ++ settings.directory

/-- The lines that come through a filter. -/
def linesThrough (filter : Filter) (records : List Record) : List String :=
  (records.filter fun record => filter.admits record.level record.target).map Record.line

/-- What the console and the files show. -/
structure Output where
  console : List String
  files : List (String × List String)
  deriving DecidableEq, Repr

/-- Logs records under settings and the filter of the environment. -/
def output (settings : Settings) (environment : Option String) (records : List Record) : Output :=
  let records := if settings.files then opening settings :: records else records
  { console :=
      if settings.console then linesThrough (filterFor environment settings.consoleLevel) records
      else []
    files :=
      if settings.files then
        (rootFile, linesThrough (filterFor environment settings.fileLevel) records) ::
          components.map fun component => (component.file, linesThrough component.filter records)
      else [] }

end CacheCluster.Logging
