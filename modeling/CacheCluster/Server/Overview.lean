import CacheCluster.Server.Configuration
import CacheCluster.Settings.Overview

/-! # What a server was started with

The options of the command line and the settings of the log, each by name with its value.
-/

namespace CacheCluster

open Settings (Value)

def Server.CommandLine.overview (line : Server.CommandLine) : List (String × Value) :=
  [("config", .text line.config),
    ("port", line.port.elim .null .ofNat),
    ("discovery", .ofText? line.discovery),
    ("peers", .ofText? line.peers),
    ("multicast_group", .ofText? line.multicastGroup),
    ("caches", .ofText? line.caches),
    ("metrics_port", line.metricsPort.elim .null .ofNat)]

def Logging.Settings.overview (settings : Logging.Settings) : List (String × Value) :=
  [("log_dir", .text settings.directory),
    ("console_output", .bool settings.console),
    ("console_level", .text settings.consoleLevel.label),
    ("file_logging", .bool settings.files),
    ("file_level", .text settings.fileLevel.label),
    ("rotation", .text settings.rotation.label)]

end CacheCluster
