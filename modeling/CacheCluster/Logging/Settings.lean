import CacheCluster.Logging.Level
import CacheCluster.Text.Lowercase

/-! # What is logged where

The settings of the log, and what the environment overrides in them.
-/

namespace CacheCluster.Logging

/-- When a new file is begun. -/
inductive Rotation
  | daily | hourly | never
  deriving DecidableEq, Repr

namespace Rotation

def label : Rotation → String
  | daily => "Daily"
  | hourly => "Hourly"
  | never => "Never"

/-- Reads a rotation in any case, or says why it is none. -/
def parse (s : String) : Except String Rotation :=
  match Text.lowercase s with
  | "daily" => .ok daily
  | "hourly" => .ok hourly
  | "never" => .ok never
  | other => .error ("unknown log rotation '" ++ other ++ "'")

/-- The number of parts of the date in the name of a file, if it has one. -/
def dateParts : Rotation → Option Nat
  | daily => some 3
  | hourly => some 4
  | never => none

end Rotation

structure Settings where
  directory : String
  console : Bool := true
  consoleLevel : Level := .info
  files : Bool := true
  fileLevel : Level := .info
  rotation : Rotation := .daily
  deriving DecidableEq, Repr

namespace Settings

/-- The directory for logs below the home of the user. -/
def defaultDirectory (home : Option String) : String :=
  home.getD "/tmp" ++ "/cachemesh/logs"

/-- The settings with a level for both the console and the files; one that is unknown counts as that
of information. -/
def ofLevel (directory : String) (console files : Bool) (level : String) : Settings :=
  let level := (Level.parse? level).getD .info
  { directory, console, consoleLevel := level, files, fileLevel := level }

/-- Takes over what the environment sets; what it sets badly is ignored, but any text other than a
denial switches the console on, and any other than an affirmation the files off. -/
def withEnvironment (environment : String → Option String) (settings : Settings) : Settings :=
  let directory := (environment "CACHEMESH_LOG_DIR").getD settings.directory
  let console := match environment "CACHEMESH_LOG_CONSOLE" with
    | some value => Text.lowercase value != "false" && value != "0"
    | none => settings.console
  let files := match environment "CACHEMESH_LOG_FILE" with
    | some value => Text.lowercase value == "true" || value == "1"
    | none => settings.files
  let level := (environment "CACHEMESH_LOG_LEVEL").bind Level.parse?
  let rotation := (environment "CACHEMESH_LOG_ROTATION").bind fun value =>
    (Rotation.parse value).toOption
  { directory, console, files
    consoleLevel := level.getD settings.consoleLevel
    fileLevel := level.getD settings.fileLevel
    rotation := rotation.getD settings.rotation }

end Settings

end CacheCluster.Logging
