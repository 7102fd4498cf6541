import CacheCluster.Decimal.Integer
import CacheCluster.Text.Split

/-! # The command line

The options of the server. An option takes a value, which follows it or is attached to it, and comes
at most once. An option that waits for its value is settled when the next option comes or the line
ends.
-/

namespace CacheCluster.Server

structure CommandLine where
  config : String := "conf/cachemesh.yml"
  port : Option Nat := none
  discovery : Option String := none
  peers : Option String := none
  multicastGroup : Option String := none
  caches : Option String := none
  metricsPort : Option Nat := none
  deriving DecidableEq, Repr

namespace CommandLine

/-- Why a command line is not taken. -/
inductive Refusal
  | unknownArgument
  /-- A value is missing. -/
  | invalidValue
  | valueValidation
  /-- An option comes twice. -/
  | argumentConflict
  | tooManyValues
  | displayHelp
  | displayVersion
  deriving DecidableEq, Repr

namespace Refusal

def label : Refusal → String
  | unknownArgument => "UnknownArgument"
  | invalidValue => "InvalidValue"
  | valueValidation => "ValueValidation"
  | argumentConflict => "ArgumentConflict"
  | tooManyValues => "TooManyValues"
  | displayHelp => "DisplayHelp"
  | displayVersion => "DisplayVersion"

end Refusal

/-! ## Options -/

def usage : String :=
  "Usage: cachemesh-server [OPTIONS]\n\nOptions:\n" ++
    "  -c, --config <CONFIG>                    " ++
    "Configuration file, missing files are ignored [default: conf/cachemesh.yml]\n" ++
    "  -p, --port <PORT>                        Port the peer listener binds\n" ++
    "  -d, --discovery <DISCOVERY>              " ++
    "Peer discovery strategy: automatic or manual\n" ++
    "      --peers <PEERS>                      " ++
    "'|' separated peer URLs for manual discovery\n" ++
    "      --multicast-group <MULTICAST_GROUP>  " ++
    "Multicast group as address:port for automatic discovery\n" ++
    "      --caches <CACHES>                    " ++
    "',' separated names of the caches this node hosts\n" ++
    "      --metrics-port <METRICS_PORT>        \n" ++
    "  -h, --help                               Print help\n" ++
    "  -V, --version                            Print version"

def version : String := "cachemesh-server 0.1.0"

inductive Name
  | config | port | discovery | peers | multicastGroup | caches | metricsPort
  deriving DecidableEq, Repr

/-- What a word of the line names. -/
inductive Named
  | option (name : Name)
  | help
  | version

def ofLong? : String → Option Named
  | "config" => some (.option .config)
  | "port" => some (.option .port)
  | "discovery" => some (.option .discovery)
  | "peers" => some (.option .peers)
  | "multicast-group" => some (.option .multicastGroup)
  | "caches" => some (.option .caches)
  | "metrics-port" => some (.option .metricsPort)
  | "help" => some .help
  | "version" => some .version
  | _ => none

def ofShort? : Char → Option Named
  | 'c' => some (.option .config)
  | 'p' => some (.option .port)
  | 'd' => some (.option .discovery)
  | 'h' => some .help
  | 'V' => some .version
  | _ => none

/-- What a value stands for in the option that it is given to. -/
def take (line : CommandLine) (value : String) : Name → Except Refusal CommandLine
  | .config =>
    if value.isEmpty then .error .invalidValue else .ok { line with config := value }
  | .port =>
    match Decimal.uint16? value with
    | some n => .ok { line with port := some n }
    | none => .error .valueValidation
  | .discovery => .ok { line with discovery := some value }
  | .peers => .ok { line with peers := some value }
  | .multicastGroup => .ok { line with multicastGroup := some value }
  | .caches => .ok { line with caches := some value }
  | .metricsPort =>
    match Decimal.uint16? value with
    | some n => .ok { line with metricsPort := some n }
    | none => .error .valueValidation

/-! ## Reading -/

/-- How far reading has come. -/
structure Reading where
  line : CommandLine := {}
  seen : List Name := []
  /-- The option that was named last, and its value if that has come. -/
  waiting : Option (Name × Option String) := none

namespace Reading

/-- Gives an option its value. -/
def give (reading : Reading) (name : Name) (value : String) : Except Refusal Reading :=
  if reading.seen.contains name then .error .argumentConflict
  else (reading.line.take value name).map fun line =>
    { line, seen := name :: reading.seen, waiting := none }

/-- Settles the option that waits. -/
def settle (reading : Reading) : Except Refusal Reading :=
  match reading.waiting with
  | none => .ok reading
  | some (_, none) => .error .invalidValue
  | some (name, some value) => { reading with waiting := none }.give name value

/-- Takes the name of an option, and its value if one is attached. -/
def name (reading : Reading) (named : Named) (attached : Option String) : Except Refusal Reading :=
  match named, attached with
  | .help, some _ | .version, some _ => .error .tooManyValues
  | .help, none => reading.settle.bind fun _ => .error .displayHelp
  | .version, none => reading.settle.bind fun _ => .error .displayVersion
  | .option name, some value => reading.settle.bind fun reading => reading.give name value
  | .option name, none => reading.settle.map fun reading =>
    { reading with waiting := some (name, none) }

/-- Takes a word that begins with two dashes. -/
def long (reading : Reading) (word : List Char) : Except Refusal Reading :=
  let (name, attached) := match Text.cutFirst '=' word with
    | some (name, value) => (name, some (String.ofList value))
    | none => (word, none)
  match ofLong? (String.ofList name) with
  | some named => reading.name named attached
  | none => .error .unknownArgument

/-- Takes a word that begins with one dash, whose value may follow at once or behind a sign. -/
def short (reading : Reading) (letter : Char) (rest : List Char) : Except Refusal Reading :=
  match ofShort? letter with
  | none => .error .unknownArgument
  | some (.option option) =>
    let attached := match rest with
      | [] => none
      | '=' :: value => some (String.ofList value)
      | value => some (String.ofList value)
    reading.name (.option option) attached
  | some named => reading.name named none

/-- Takes a word that is no option. -/
def plain (reading : Reading) (word : String) : Except Refusal Reading :=
  match reading.waiting with
  | some (name, none) => .ok { reading with waiting := some (name, some word) }
  | _ => .error .unknownArgument

end Reading

/-- Reads on from a word; behind two lone dashes there may be nothing. -/
def readFrom (reading : Reading) : List String → Except Refusal CommandLine
  | [] => reading.settle.map Reading.line
  | word :: words =>
    match word.toList with
    | ['-', '-'] =>
      if words.isEmpty then reading.settle.map Reading.line else .error .unknownArgument
    | '-' :: '-' :: name => (reading.long name).bind fun reading => readFrom reading words
    | '-' :: letter :: rest =>
      (reading.short letter rest).bind fun reading => readFrom reading words
    | _ => (reading.plain word).bind fun reading => readFrom reading words

def parse (words : List String) : Except Refusal CommandLine :=
  readFrom {} words

end CommandLine

end CacheCluster.Server
