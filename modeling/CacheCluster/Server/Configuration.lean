import CacheCluster.Json.Reader
import CacheCluster.Logging.Settings
import CacheCluster.Server.CommandLine
import CacheCluster.Server.Environment
import CacheCluster.Settings.Configuration
import CacheCluster.Wire.Shape
import CacheCluster.Yaml.Document

/-! # The configuration of a server

The settings of a server come from a file, over which those of the environment are laid, and over
these those of the command line.
-/

namespace CacheCluster.Server

open Settings (Value)

/-! ## Files -/

/-- How the text of a configuration file is read. -/
inductive Format
  | yaml | json
  deriving DecidableEq, Repr

namespace Format

def endings : Format → List String
  | yaml => ["yaml", "yml"]
  | json => ["json"]

/-- What follows the last point in the last part of a path. -/
def ending (path : String) : String :=
  let name := (Text.cutLast '/' path.toList).elim path.toList Prod.snd
  match Text.cutLast '.' name with
  | some (_ :: _, ending) => String.ofList ending
  | _ => ""

/-- The format of a file, by the ending of its name. -/
def ofPath? (path : String) : Option Format :=
  [yaml, json].find? fun format => format.endings.contains (ending path)

def parse? : Format → String → Option Value
  | yaml, s => Yaml.parse? s
  | json, s => (Wire.taggedText? s).map (Value.ofJson Decimal.int64Max)

end Format

/-- The paths of the files that may be meant by a path. -/
def filesFor (path : String) : List String :=
  path :: [Format.json, .yaml].flatMap fun format => format.endings.map fun ending =>
    path ++ "." ++ ending

/-- The file that is meant by a path, and its format: the file itself, or one whose name goes on
with an ending. -/
def file? (files : List (String × String)) (path : String) : Option (Format × String) :=
  match files.lookup path with
  | some content => (Format.ofPath? path).map fun format => (format, content)
  | none =>
    [Format.json, Format.yaml].findSome? fun format => format.endings.findSome? fun ending =>
      (files.lookup (path ++ "." ++ ending)).map fun content => (format, content)

/-- The text of a file without the mark of its encoding, which may stand at its start. -/
def unmarked (content : String) : String :=
  match content.toList with
  | '\ufeff' :: cs => String.ofList cs
  | _ => content

/-! ## Layers -/

/-- Why a configuration cannot be built. -/
inductive Failure
  /-- A multicast group without a port. -/
  | group (text : String)
  | file (path : String)
  deriving DecidableEq, Repr

namespace Failure

/-- The text of a failure; `cause` tells why a file could not be read. -/
def messageWith (cause : String) : Failure → String
  | group text => "--multicast-group must be address:port, got '" ++ text ++ "'"
  | file path => "Failed to build configuration from " ++ path ++ ": " ++ cause

def message (failure : Failure) : String :=
  failure.messageWith "the document is not a readable table"

end Failure

/-- The settings in a file that may be missing. -/
def fileEntries (files : List (String × String)) (path : String) :
    Except Failure (List (String × Value)) :=
  match file? files path with
  | none => .ok []
  | some (format, content) =>
    match format.parse? (unmarked content) with
    | some (.table entries) => .ok entries
    | _ => .error (.file path)

/-- The settings of a multicast group. -/
def groupEntries (text : String) : Except Failure (List (String × Value)) :=
  match Text.cutLast ':' text.toList with
  | some (address, port) => .ok
    [("cachemesh.multicast.group.address", .text (String.ofList address)),
      ("cachemesh.multicast.group.port", .text (String.ofList port))]
  | none => .error (.group text)

/-- The settings of a command line. -/
def CommandLine.entries (line : CommandLine) : Except Failure (List (String × Value)) := do
  let group ← match line.multicastGroup with
    | some text => groupEntries text
    | none => .ok []
  let given {α : Type} (key : String) (value : α → Value) (a : Option α) : List (String × Value) :=
    (a.map fun a => (key, value a)).toList
  return given "cachemesh.listener.port" (fun n : Nat => .integer n) line.port ++
    given "cachemesh.peer.discovery" .text line.discovery ++
    given "cachemesh.peer.urls" .text line.peers ++
    group ++
    given "cachemesh.caches" .text line.caches ++
    given "cachemesh.metrics.port" (fun n : Nat => .integer n) line.metricsPort

structure Configuration where
  core : Settings.Configuration

namespace Configuration

/-- Builds the configuration from its layers. -/
def build (line : CommandLine) (files assignments : List (String × String)) :
    Except Failure Configuration := do
  let flags ← line.entries
  let file ← fileEntries files line.config
  let tree := ((Value.table []).setAll file).setAll (Environment.entries assignments)
  return ⟨⟨tree.setAll flags⟩⟩

variable (config : Configuration)

def defaultShutdownTimeout : Nat := 30000

/-- Milliseconds that the server waits for the node to stop. -/
def shutdownTimeout : Nat :=
  match (Settings.lookup Value.toInteger? "cachemesh.shutdown.timeout.ms"
      config.core.tree).toOption with
  | some ms => if 0 < ms then ms.toNat else defaultShutdownTimeout
  | none => defaultShutdownTimeout

/-- The settings of the log, which the environment may override. -/
def logging (environment : String → Option String) : Logging.Settings :=
  let read {α : Type} (read? : Value → Option α) (key : String) : Option α :=
    (Settings.lookup read? key config.core.tree).toOption
  let directory := (read Value.toText? "cachemesh.log.path").getD
    (Logging.Settings.defaultDirectory (environment "HOME"))
  (Logging.Settings.ofLevel directory
    ((read Value.toBool? "cachemesh.log.console").getD true)
    ((read Value.toBool? "cachemesh.log.file").getD true)
    ((read Value.toText? "cachemesh.log.level").getD "info")).withEnvironment environment

end Configuration

end CacheCluster.Server
