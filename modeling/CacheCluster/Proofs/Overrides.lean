import CacheCluster.Proofs.Defaults
import CacheCluster.Proofs.Packing
import CacheCluster.Server.Overview
import CacheCluster.Table

/-! # Flags of the command line

What a flag sets is read as the flag says, whatever the file and the environment hold, and all else
is read as if there were no flags. For a flag changes one path in the tree of values, and none of
the others that a server reads leads through its end.
-/

namespace CacheCluster

/-- Pieces with the separator behind each of them are the text with one more separator. -/
theorem Text.flatMap_pieces (separator : Char) (cs : List Char) :
    (pieces (· == separator) cs).flatMap (· ++ [separator]) = cs ++ [separator] := by
  induction cs with
  | nil => rfl
  | cons c cs ih =>
    obtain ⟨piece, rest, cut⟩ := List.exists_cons_of_ne_nil (pieces_ne_nil cs)
    rw [cut, List.flatMap_cons] at ih
    rw [pieces_cons, cut, grow]
    split
    next separates =>
      rw [List.flatMap_cons, List.flatMap_cons, ih, beq_iff_eq.1 separates]
      rfl
    next =>
      rw [List.flatMap_cons, List.cons_append, List.cons_append, ih]
      rfl

namespace Settings

/-! ## Paths in a tree -/

/-- Neither path leads on from the end of the other. -/
def Apart (path other : List String) : Prop :=
  ¬ path <+: other ∧ ¬ other <+: path

/-- The names on the path of a key spell the key. -/
theorem flatMap_pathOf (key : String) :
    (pathOf key).flatMap (fun name => name.toList ++ ['.']) = key.toList ++ ['.'] := by
  rw [pathOf]
  split
  · rw [Text.split, List.flatMap_map, ← Text.flatMap_pieces]
    simp only [String.toList_ofList]
  · rw [List.flatMap_singleton]

/-- The bytes of a key with a point behind it. -/
def bytesOf (key : String) : List UInt8 :=
  (key ++ ".").toByteArray.data.toList

theorem bytesOf_isPrefix {key other : String} (leads : pathOf key <+: pathOf other) :
    bytesOf key <+: bytesOf other := by
  obtain ⟨names, leads⟩ := leads
  let rest := names.flatMap fun name => name.toList ++ ['.']
  have chars : other.toList ++ ['.'] = key.toList ++ ['.'] ++ rest := by
    rw [← flatMap_pathOf, ← flatMap_pathOf, ← leads, List.flatMap_append]
  have spelled : other ++ "." = key ++ "." ++ String.ofList rest := by
    refine String.toList_inj.1 ?_
    rw [String.toList_append, String.toList_append, String.toList_append]
    exact chars.trans (congrArg _ String.toList_ofList.symm)
  refine ⟨(String.ofList rest).toByteArray.data.toList, ?_⟩
  rw [bytesOf, bytesOf, spelled, String.toByteArray_append (t := String.ofList rest),
    ByteArray.data_append, Array.toList_append]

theorem apart_of_bytesOf {key other : String} (down : ¬ bytesOf key <+: bytesOf other)
    (up : ¬ bytesOf other <+: bytesOf key) : Apart (pathOf key) (pathOf other) :=
  ⟨fun leads => down (bytesOf_isPrefix leads), fun leads => up (bytesOf_isPrefix leads)⟩

namespace Value

variable {new : Value}

theorem lookup_alter (name other : String) (change : Option Value → Value)
    (entries : List (String × Value)) :
    (alter name change entries).lookup other =
      if other = name then some (change (entries.lookup name)) else entries.lookup other := by
  induction entries with
  | nil => rw [alter, Table.lookup_cons, List.lookup_nil, List.lookup_nil]
  | cons entry entries ih =>
    obtain ⟨first, held⟩ := entry
    rw [alter]
    by_cases here : first = name
    · subst here
      rw [if_pos rfl, Table.lookup_cons, Table.lookup_cons, Table.lookup_cons, if_pos rfl]
      split <;> rfl
    · rw [if_neg here, Table.lookup_cons, Table.lookup_cons, Table.lookup_cons, ih,
        if_neg (Ne.symm here)]
      by_cases same : other = first
      · rw [if_pos same, if_neg (same ▸ here), if_pos same]
      · rw [if_neg same, if_neg same]

theorem get?_cons (name : String) (path : List String) (value : Value) :
    get? (name :: path) value = (value.entries.lookup name).bind (get? path) := by
  cases value <;> rfl

theorem set_cons (name : String) (path : List String) (new below : Value) :
    set new (name :: path) below =
      table (alter name (fun old => set new path (old.getD null)) below.entries) := by
  rw [set]

/-- What replaces whatever it is laid over is found where it is set, also where the way there was
none. -/
theorem get?_set (plain : ∀ below, overlay below new = new) (path : List String) (below : Value) :
    get? path (set new path below) = some new := by
  induction path generalizing below with
  | nil => rw [set, plain, get?]
  | cons name path ih =>
    rw [set_cons, get?_cons, entries, lookup_alter, if_pos rfl, Option.bind_some, ih]

theorem get?_set_of_apart {path other : List String} (apart : Apart path other)
    (new below : Value) : get? other (set new path below) = get? other below := by
  induction path generalizing other below with
  | nil => exact absurd List.nil_prefix apart.1
  | cons name path ih =>
    cases other with
    | nil => exact absurd List.nil_prefix apart.2
    | cons first other =>
      rw [set_cons, get?_cons, get?_cons, entries, lookup_alter]
      by_cases same : first = name
      · -- below a shared name the rests of the two paths are apart as well
        subst same
        have behind : Apart path other :=
          ⟨fun leads => apart.1 (List.cons_prefix_cons.2 ⟨rfl, leads⟩),
            fun leads => apart.2 (List.cons_prefix_cons.2 ⟨rfl, leads⟩)⟩
        rw [if_pos rfl, Option.bind_some, ih behind]
        rcases below.entries.lookup first with _ | value
        · cases other with
          | nil => exact absurd List.nil_prefix behind.2
          | cons => rfl
        · rfl
      · rw [if_neg same]

/-- Flags that are set are found, and what is apart from them stays as it was. -/
theorem get?_setAll {flags : List (String × Value)} {key : String}
    (plain : ∀ flag ∈ flags, ∀ below, overlay below flag.2 = flag.2)
    (once : (flags.map Prod.fst).Nodup)
    (apart : ∀ flag ∈ flags, flag.1 ≠ key → Apart (pathOf flag.1) (pathOf key)) (tree : Value) :
    (tree.setAll flags).get? (pathOf key) = (flags.lookup key).or (tree.get? (pathOf key)) := by
  induction flags generalizing tree with
  | nil => rfl
  | cons flag flags ih =>
    obtain ⟨name, value⟩ := flag
    obtain ⟨first_plain, plain⟩ := List.forall_mem_cons.1 plain
    obtain ⟨first_apart, apart⟩ := List.forall_mem_cons.1 apart
    obtain ⟨new, once⟩ := List.nodup_cons.1 once
    have later : (tree.setAll ((name, value) :: flags)).get? (pathOf key) =
        (flags.lookup key).or ((tree.setKey name value).get? (pathOf key)) :=
      ih plain once apart _
    rw [later, setKey, Table.lookup_cons]
    by_cases same : key = name
    · subst same
      rw [if_pos rfl, Table.lookup_of_notMem new, Option.none_or, get?_set first_plain,
        Option.some_or]
    · rw [if_neg same, get?_set_of_apart (first_apart (Ne.symm same))]

end Value

end Settings

/-! ## Accepted command lines -/

namespace Server.CommandLine

open Settings (Value)

/-- The ports of the line are numbers of 16 bits. -/
def IsInRange (line : CommandLine) : Prop :=
  (∀ port, line.port = some port → port < Decimal.uint16Size) ∧
    ∀ port, line.metricsPort = some port → port < Decimal.uint16Size

theorem IsInRange.take {line after : CommandLine} {value : String} {name : Name}
    (inRange : line.IsInRange) (taken : line.take value name = .ok after) : after.IsInRange := by
  cases name with
  | config =>
    rw [CommandLine.take] at taken
    split at taken
    · cases taken
    · cases taken
      exact inRange
  | port =>
    rw [CommandLine.take] at taken
    split at taken
    next port read =>
      cases taken
      exact ⟨fun _ eq => Option.some.inj eq ▸ Decimal.uint16?_lt read, inRange.2⟩
    next => cases taken
  | metricsPort =>
    rw [CommandLine.take] at taken
    split at taken
    next port read =>
      cases taken
      exact ⟨inRange.1, fun _ eq => Option.some.inj eq ▸ Decimal.uint16?_lt read⟩
    next => cases taken
  | discovery | peers | multicastGroup | caches =>
    cases taken
    exact inRange

namespace Reading

/-- If the reading goes on, the ports that it has come by are in range. -/
def StaysInRange (result : Except Refusal Reading) : Prop :=
  ∀ reading, result = .ok reading → reading.line.IsInRange

variable {reading : Reading} {result : Except Refusal Reading}

theorem staysInRange_error (refusal : Refusal) : StaysInRange (.error refusal) := by
  intro reading eq
  cases eq

theorem StaysInRange.bind {next : Reading → Except Refusal Reading} (first : StaysInRange result)
    (goesOn : ∀ reading : Reading, reading.line.IsInRange → StaysInRange (next reading)) :
    StaysInRange (result.bind next) := by
  cases result with
  | error refusal => exact staysInRange_error refusal
  | ok reading => exact goesOn reading (first reading rfl)

theorem staysInRange_give (inRange : reading.line.IsInRange) (name : Name) (value : String) :
    StaysInRange (reading.give name value) := by
  intro after given
  rw [give] at given
  split at given
  · cases given
  · cases taken : reading.line.take value name with
    | error refusal =>
      rw [taken] at given
      cases given
    | ok line =>
      rw [taken] at given
      cases given
      exact inRange.take taken

theorem staysInRange_settle (inRange : reading.line.IsInRange) : StaysInRange reading.settle := by
  rw [settle]
  split
  · rintro _ ⟨⟩
    exact inRange
  · exact staysInRange_error _
  · have settled : ({ reading with waiting := none } : Reading).line.IsInRange := inRange
    exact staysInRange_give settled _ _

theorem staysInRange_name (inRange : reading.line.IsInRange) (named : Named)
    (attached : Option String) : StaysInRange (reading.name named attached) := by
  have settled := staysInRange_settle inRange
  unfold name
  split
  · exact staysInRange_error _
  · exact staysInRange_error _
  · exact settled.bind fun _ _ => staysInRange_error _
  · exact settled.bind fun _ _ => staysInRange_error _
  · exact settled.bind fun _ inRange => staysInRange_give inRange _ _
  · rintro after named
    cases step : reading.settle with
    | error refusal =>
      rw [step] at named
      cases named
    | ok reading =>
      rw [step] at named
      cases named
      exact settled reading step

theorem staysInRange_long (inRange : reading.line.IsInRange) (word : List Char) :
    StaysInRange (reading.long word) := by
  unfold long
  dsimp only
  split
  · exact staysInRange_name inRange _ _
  · exact staysInRange_error _

theorem staysInRange_short (inRange : reading.line.IsInRange) (letter : Char) (rest : List Char) :
    StaysInRange (reading.short letter rest) := by
  unfold short
  split
  · exact staysInRange_error _
  · exact staysInRange_name inRange _ _
  · exact staysInRange_name inRange _ _

theorem staysInRange_plain (inRange : reading.line.IsInRange) (word : String) :
    StaysInRange (reading.plain word) := by
  unfold plain
  split
  · rintro _ ⟨⟩
    exact inRange
  · exact staysInRange_error _

end Reading

theorem isInRange_settle {reading : Reading} {line : CommandLine}
    (inRange : reading.line.IsInRange) (settled : reading.settle.map Reading.line = .ok line) :
    line.IsInRange := by
  cases step : reading.settle with
  | error refusal =>
    rw [step] at settled
    cases settled
  | ok after =>
    rw [step] at settled
    cases settled
    exact Reading.staysInRange_settle inRange after step

theorem isInRange_readFrom {reading : Reading} {words : List String} {line : CommandLine}
    (inRange : reading.line.IsInRange) (read : readFrom reading words = .ok line) :
    line.IsInRange := by
  induction words generalizing reading with
  | nil => exact isInRange_settle inRange read
  | cons word words ih =>
    have on (step : Except Refusal Reading) (stays : Reading.StaysInRange step)
        (read : (step.bind fun reading => readFrom reading words) = .ok line) :
        line.IsInRange := by
      cases step with
      | error refusal => cases read
      | ok after => exact ih (stays after rfl) read
    rw [readFrom] at read
    split at read
    · split at read
      · exact isInRange_settle inRange read
      · cases read
    · exact on _ (Reading.staysInRange_long inRange _) read
    · exact on _ (Reading.staysInRange_short inRange _ _) read
    · exact on _ (Reading.staysInRange_plain inRange _) read

theorem isInRange_parse {words : List String} {line : CommandLine}
    (accepted : parse words = .ok line) : line.IsInRange := by
  have start : ({} : Reading).line.IsInRange := ⟨nofun, nofun⟩
  exact isInRange_readFrom start accepted

/-! ## What a line sets -/

/-- The address and the port of the multicast group. -/
def group? (line : CommandLine) : Option (String × String) :=
  line.multicastGroup.bind fun text =>
    (Text.cutLast ':' text.toList).map fun (address, port) =>
      (String.ofList address, String.ofList port)

/-- The keys that flags set, each with what the line gives for it. -/
def flags (line : CommandLine) : List (String × Option Value) :=
  [("cachemesh.listener.port", line.port.map fun n => .integer n),
    ("cachemesh.peer.discovery", line.discovery.map .text),
    ("cachemesh.peer.urls", line.peers.map .text),
    ("cachemesh.multicast.group.address", line.group?.map fun group => .text group.1),
    ("cachemesh.multicast.group.port", line.group?.map fun group => .text group.2),
    ("cachemesh.caches", line.caches.map .text),
    ("cachemesh.metrics.port", line.metricsPort.map fun n => .integer n)]

/-- The settings among keys with and without a value. -/
def given (flags : List (String × Option Value)) : List (String × Value) :=
  flags.filterMap fun flag => flag.2.map fun value => (flag.1, value)

theorem map_fst_given_sublist (flags : List (String × Option Value)) :
    ((given flags).map Prod.fst).Sublist (flags.map Prod.fst) := by
  induction flags with
  | nil => exact .slnil
  | cons flag flags ih =>
    obtain ⟨key, _ | value⟩ := flag
    · exact ih.cons _
    · exact ih.cons_cons _

theorem lookup_given {flags : List (String × Option Value)} (once : (flags.map Prod.fst).Nodup)
    (key : String) : (given flags).lookup key = (flags.lookup key).join := by
  induction flags with
  | nil => rfl
  | cons flag flags ih =>
    obtain ⟨name, value?⟩ := flag
    obtain ⟨new, later⟩ := List.nodup_cons.1 once
    rw [Table.lookup_cons]
    rcases value? with _ | value
    · change (given flags).lookup key = _
      rw [ih later]
      split
      next same =>
        rw [Table.lookup_of_notMem (same ▸ new)]
        rfl
      next => rfl
    · change List.lookup key ((name, value) :: given flags) = _
      rw [Table.lookup_cons, ih later]
      split <;> rfl

variable {line : CommandLine} {entries : List (String × Value)}

theorem entries_eq (taken : line.entries = .ok entries) : entries = given line.flags := by
  obtain ⟨config, port, discovery, peers, group, caches, metricsPort⟩ := line
  rcases group with _ | text
  · cases taken
    rcases port <;> rcases discovery <;> rcases peers <;> rcases caches <;>
      rcases metricsPort <;> rfl
  · rw [CommandLine.entries] at taken
    dsimp only at taken
    rw [groupEntries] at taken
    rcases cut : Text.cutLast ':' text.toList with _ | ⟨address, groupPort⟩
    · rw [cut] at taken
      cases taken
    · rw [cut] at taken
      cases taken
      simp only [flags, group?, Option.bind_some, cut]
      rcases port <;> rcases discovery <;> rcases peers <;> rcases caches <;>
        rcases metricsPort <;> rfl

theorem nodup_keys (line : CommandLine) : (line.flags.map Prod.fst).Nodup :=
  (by decide +kernel : (({} : CommandLine).flags.map Prod.fst).Nodup)

/-- A server reads each key that a flag can set. -/
theorem mem_keys_of_lookup {key : String} {value : Value}
    (set : line.flags.lookup key = some (some value)) : key ∈ Environment.keys := by
  have known : ∀ key ∈ ({} : CommandLine).flags.map Prod.fst, key ∈ Environment.keys := by
    decide +kernel
  obtain ⟨before, after, flags, -⟩ := List.lookup_eq_some_iff.1 set
  have mem : (key, some value) ∈ line.flags := flags ▸ List.mem_append_right _ List.mem_cons_self
  have flagged : key ∈ line.flags.map Prod.fst := List.mem_map.2 ⟨_, mem, rfl⟩
  exact known key flagged

theorem lookup_entries (taken : line.entries = .ok entries) (key : String) :
    entries.lookup key = (line.flags.lookup key).join := by
  rw [entries_eq taken, lookup_given line.nodup_keys]

/-- No key that a flag sets leads to another one that a server reads. -/
theorem apart_keys (line : CommandLine) {flag key : String}
    (flagged : flag ∈ line.flags.map Prod.fst)
    (read : key ∈ Environment.keys) (ne : flag ≠ key) :
    Settings.Apart (Settings.pathOf flag) (Settings.pathOf key) := by
  -- bytes are compared, as cutting all the keys at their points is too dear to evaluate
  have bytes : ∀ flag ∈ ({} : CommandLine).flags.map Prod.fst, ∀ key ∈ Environment.keys,
      flag ≠ key → ¬ Settings.bytesOf flag <+: Settings.bytesOf key ∧
        ¬ Settings.bytesOf key <+: Settings.bytesOf flag := by decide +kernel
  obtain ⟨down, up⟩ := bytes flag flagged key read ne
  exact Settings.apart_of_bytesOf down up

/-- The value of a flag replaces what it is laid over. -/
theorem overlay_flag {key : String} {value : Value} (set : (key, some value) ∈ line.flags)
    (below : Value) : Value.overlay below value = value := by
  have plain : (∃ n, value = .integer n) ∨ ∃ s, value = .text s := by
    simp only [flags, List.mem_cons, Prod.mk.injEq, List.not_mem_nil, or_false,
      eq_comm (a := some value), Option.map_eq_some_iff] at set
    grind
  rcases plain with ⟨n, rfl⟩ | ⟨s, rfl⟩ <;> rfl

/-- What a server reads at a key is what the line sets there, and else what was there. -/
theorem get?_setAll_entries (taken : line.entries = .ok entries) {key : String}
    (read : key ∈ Environment.keys) (tree : Value) :
    (tree.setAll entries).get? (Settings.pathOf key) =
      (entries.lookup key).or (tree.get? (Settings.pathOf key)) := by
  have given_eq := entries_eq taken
  have mem {flag : String × Value} (mem : flag ∈ entries) : (flag.1, some flag.2) ∈ line.flags := by
    rw [given_eq, given, List.mem_filterMap] at mem
    obtain ⟨⟨key, value?⟩, mem, some⟩ := mem
    obtain ⟨value, rfl, rfl⟩ := Option.map_eq_some_iff.1 some
    exact mem
  refine Value.get?_setAll (fun flag flagged below => overlay_flag (mem flagged) below) ?_ ?_ tree
  · rw [given_eq]
    exact (map_fst_given_sublist line.flags).nodup line.nodup_keys
  · intro flag flagged
    exact line.apart_keys (List.mem_map.2 ⟨_, mem flagged, rfl⟩) read

end Server.CommandLine

/-! ## What is asked of a configuration -/

namespace Settings

/-- The text without the blanks around it, if that leaves anything. -/
def nonBlank? (s : String) : Option String :=
  (some (Text.trim s)).filter (!·.isEmpty)

/-- The parts of a text, trimmed and without blank ones. -/
def partsOf (isSeparator : Char → Bool) (s : String) : List String :=
  ((Text.split isSeparator (Text.trim s)).map Text.trim).filter (!·.isEmpty)

namespace Configuration

variable {config other : Configuration} {key s : String} {value : Value}

theorem text?_of_known (known : config.tree.get? (pathOf key) = some value)
    (read : value.toText? = some s) : config.text? key = nonBlank? s := by
  simp only [text?, lookup, known, read, Lookup.toOption, Option.map_some, nonBlank?]

theorem parts_of_known (known : config.tree.get? (pathOf key) = some value)
    (read : value.toText? = some s) (isSeparator : Char → Bool) :
    config.parts isSeparator key = partsOf isSeparator s := by
  rw [parts, text?_of_known known read, nonBlank?, Option.filter_some]
  split
  next eq =>
    split at eq
    · cases eq
      rfl
    · cases eq
  next eq =>
    split at eq
    · cases eq
    next blank =>
      have empty : Text.trim s = "" := by simpa using blank
      simp [partsOf, empty, Text.split, Text.pieces]

theorem toInteger?_of_small {port : Nat} (small : port < Decimal.uint16Size) :
    Value.toInteger? (.integer port) = some (port : Int) := by
  unfold Decimal.uint16Size at small
  refine if_pos ?_
  rw [Decimal.fitsInt64, Decimal.int64Min, Decimal.int64Max, Bool.and_eq_true, decide_eq_true_eq,
    decide_eq_true_eq]
  omega

theorem listenerPort_of_known {port : Nat} (small : port < Decimal.uint16Size)
    (known : config.tree.get? (pathOf "cachemesh.listener.port") = some (.integer port)) :
    config.listenerPort = pure port := by
  have found := toInteger?_of_small small
  unfold Decimal.uint16Size at small
  rw [listenerPort, integerOr, readOr_of_found known found, pure_bind, if_pos]
  · rfl
  · unfold Decimal.uint16Size
    omega

/-- The port zero turns the exporter off. -/
theorem metricsPort_of_known {port : Nat} (small : port < Decimal.uint16Size)
    (known : config.tree.get? (pathOf "cachemesh.metrics.port") = some (.integer port)) :
    config.metricsPort = if 0 < port then some port else none := by
  have found := toInteger?_of_small small
  unfold Decimal.uint16Size at small
  simp only [metricsPort, lookup, known, found, Lookup.toOption, Option.filter_some]
  by_cases pos : 0 < port
  · rw [if_pos pos, if_pos]
    · rfl
    · unfold Decimal.uint16Size
      simp only [Bool.and_eq_true, decide_eq_true_eq]
      omega
  · rw [if_neg pos, if_neg]
    · rfl
    · simp only [Bool.and_eq_true, decide_eq_true_eq]
      omega

end Configuration

/-- The settings that are texts or lists of texts. -/
inductive Wording
  | peerDiscovery | peerUrls
  | multicastGroupAddress | multicastGroupPort | multicastTimeToLive | multicastHostName
  | listenerHostName | caches
  deriving DecidableEq

namespace Wording

def key : Wording → String
  | peerDiscovery => "cachemesh.peer.discovery"
  | peerUrls => "cachemesh.peer.urls"
  | multicastGroupAddress => "cachemesh.multicast.group.address"
  | multicastGroupPort => "cachemesh.multicast.group.port"
  | multicastTimeToLive => "cachemesh.multicast.ttl"
  | multicastHostName => "cachemesh.multicast.host.name"
  | listenerHostName => "cachemesh.listener.host.name"
  | caches => "cachemesh.caches"

/-- What a configuration gives for a text. -/
def read (config : Configuration) : Wording → Value
  | peerDiscovery => .text config.peerDiscovery
  | peerUrls => .ofTexts config.peerUrls
  | multicastGroupAddress => .ofText? config.multicastGroupAddress
  | multicastGroupPort => .ofText? config.multicastGroupPort
  | multicastTimeToLive => .ofText? config.multicastTimeToLive
  | multicastHostName => .ofText? config.multicastHostName
  | listenerHostName => .text config.listenerHostName
  | caches => .ofTexts config.caches

variable {config other : Configuration} {wording : Wording}

theorem read_congr
    (same : config.tree.get? (pathOf wording.key) = other.tree.get? (pathOf wording.key)) :
    wording.read config = wording.read other := by
  have text : config.text? wording.key = other.text? wording.key := by
    simp only [Configuration.text?, lookup, same]
  cases wording <;> simp only [key] at text <;>
    simp only [read, Configuration.peerDiscovery, Configuration.peerUrls,
      Configuration.multicastGroupAddress, Configuration.multicastGroupPort,
      Configuration.multicastTimeToLive, Configuration.multicastHostName,
      Configuration.listenerHostName, Configuration.caches, Configuration.parts, text]

end Wording

section
variable {config other : Configuration}

theorem Configuration.readOr_congr {key : String}
    (same : config.tree.get? (pathOf key) = other.tree.get? (pathOf key)) {α : Type}
    (read? : Value → Option α) (render : α → String) (fallback : α) :
    config.readOr read? render key fallback = other.readOr read? render key fallback := by
  simp only [readOr, lookup, same]

theorem Flag.read_congr {flag : Flag}
    (same : config.tree.get? (pathOf flag.key) = other.tree.get? (pathOf flag.key)) :
    flag.read config = flag.read other := by
  rw [read_eq, read_eq]
  exact Configuration.readOr_congr same _ _ _

theorem Number.read_congr {number : Number}
    (same : config.tree.get? (pathOf number.key) = other.tree.get? (pathOf number.key))
    (heartbeat : number = .staleTimeout → config.heartbeatInterval = other.heartbeatInterval) :
    number.read config = number.read other := by
  have integer : config.integerOr number.key number.fallback =
      other.integerOr number.key number.fallback := Configuration.readOr_congr same _ _ _
  have prior : number.prior config = number.prior other := by
    cases number
    case staleTimeout => rw [Number.prior, Number.prior, heartbeat rfl]
    all_goals rfl
  have settle : number.settle config = number.settle other := by
    funext i
    cases number
    case staleTimeout => rw [Number.settle, Number.settle, heartbeat rfl]
    all_goals rfl
  by_cases port : number = .metricsPort
  · subst port
    rw [read_metricsPort, read_metricsPort, integer, settle]
  · rw [read_eq port, read_eq port, prior, integer, settle]

/-- The keys that a number or a flag is read from. -/
def Setting.keys : Setting → List String
  | number .staleTimeout => [Number.key .heartbeatInterval, Number.key .staleTimeout]
  | setting => [setting.key]

theorem Setting.read_congr {setting : Setting}
    (same : ∀ key ∈ setting.keys, config.tree.get? (pathOf key) = other.tree.get? (pathOf key)) :
    setting.read config = setting.read other := by
  have own : config.tree.get? (pathOf setting.key) = other.tree.get? (pathOf setting.key) := by
    refine same setting.key ?_
    unfold keys
    split
    · exact List.mem_cons_of_mem _ List.mem_cons_self
    · exact List.mem_cons_self
  cases setting with
  | flag f => rw [Setting.read, Setting.read, Flag.read_congr own]
  | number n =>
    refine Number.read_congr own ?_
    rintro rfl
    have interval : config.integerOr "cachemesh.multicast.heartbeat.interval.ms" 5000 =
        other.integerOr "cachemesh.multicast.heartbeat.interval.ms" 5000 :=
      Configuration.readOr_congr (same _ List.mem_cons_self) _ _ _
    rw [Configuration.heartbeatInterval, Configuration.heartbeatInterval, interval]

end

end Settings

namespace Server

open Settings (Value Noted)

/-- What is asked of the configuration of a server. -/
inductive Getter
  | setting (setting : Settings.Setting)
  | wording (wording : Settings.Wording)
  | shutdownTimeout
  | logging

namespace Getter

/-- The keys that an answer is read from. -/
def keys : Getter → List String
  | setting s => s.keys
  | wording w => [w.key]
  | shutdownTimeout => ["cachemesh.shutdown.timeout.ms"]
  | logging => ["cachemesh.log.path", "cachemesh.log.console", "cachemesh.log.file",
      "cachemesh.log.level"]

/-- The answer of a configuration. On the log the environment has the last word. -/
def read (environment : String → Option String) (config : Configuration) : Getter → Noted Value
  | setting s => s.read config.core
  | wording w => pure (w.read config.core)
  | shutdownTimeout => pure (.ofNat config.shutdownTimeout)
  | logging => pure (.table (config.logging environment).overview)

variable {config other : Configuration} {getter : Getter}

theorem mem_keys : ∀ key ∈ getter.keys, key ∈ Environment.keys := by
  simp only [Environment.keys]
  rcases getter with ⟨n | f⟩ | w | _ | _
  · cases n <;> simp [keys, Settings.Setting.keys, Settings.Setting.key, Settings.Number.key]
  · cases f <;> simp [keys, Settings.Setting.keys, Settings.Setting.key, Settings.Flag.key]
  · cases w <;> simp [keys, Settings.Wording.key]
  · simp [keys]
  · simp [keys]

theorem read_congr
    (same : ∀ key ∈ getter.keys, config.core.tree.get? (Settings.pathOf key) =
      other.core.tree.get? (Settings.pathOf key)) (environment : String → Option String) :
    getter.read environment config = getter.read environment other := by
  cases getter with
  | setting s => exact Settings.Setting.read_congr same
  | wording w =>
    rw [read, read, Settings.Wording.read_congr (same _ List.mem_cons_self)]
  | shutdownTimeout =>
    simp only [read, Configuration.shutdownTimeout, Settings.lookup, same _ List.mem_cons_self]
  | logging =>
    have lookup (key : String) (known : key ∈ keys .logging) {α : Type} (read? : Value → Option α) :
        Settings.lookup read? key config.core.tree = Settings.lookup read? key other.core.tree := by
      simp only [Settings.lookup, same key known]
    simp only [read, Configuration.logging, lookup "cachemesh.log.path" (by decide),
      lookup "cachemesh.log.console" (by decide),
      lookup "cachemesh.log.file" (by decide),
      lookup "cachemesh.log.level" (by decide)]

end Getter

namespace Configuration

variable {line : CommandLine} {flags : List (String × Value)}
  {files assignments : List (String × String)} {config : Configuration}

/-! ## Layers -/

/-- The tree of a file with the environment laid over it. -/
def belowFlags (file : List (String × Value)) (assignments : List (String × String)) : Value :=
  ((Value.table []).setAll file).setAll (Environment.entries assignments)

theorem build_eq_ok_iff (taken : line.entries = .ok flags) :
    build line files assignments = .ok config ↔ ∃ file, fileEntries files line.config = .ok file ∧
      config = ⟨⟨(belowFlags file assignments).setAll flags⟩⟩ := by
  rw [build, taken]
  change (fileEntries files line.config >>= fun file =>
    Except.ok (⟨⟨(belowFlags file assignments).setAll flags⟩⟩ : Configuration)) = _ ↔ _
  rcases fileEntries files line.config with failure | file
  · refine iff_of_false nofun ?_
    rintro ⟨file, read, -⟩
    cases read
  · constructor
    · rintro ⟨⟩
      exact ⟨file, rfl, rfl⟩
    · rintro ⟨_, ⟨⟩, rfl⟩
      rfl

/-- What the line sets is what stands at its key. -/
theorem get?_of_flag (key : String) (value : Value) (taken : line.entries = .ok flags)
    (built : build line files assignments = .ok config)
    (set : line.flags.lookup key = some (some value)) :
    config.core.tree.get? (Settings.pathOf key) = some value := by
  obtain ⟨file, -, rfl⟩ := (build_eq_ok_iff taken).1 built
  rw [CommandLine.get?_setAll_entries taken (CommandLine.mem_keys_of_lookup set),
    CommandLine.lookup_entries taken, set]
  rfl

/-- The answers about what a line sets are those that it gives. -/
structure Obeys (config : Settings.Configuration) (line : CommandLine) : Prop where
  listenerPort : ∀ port, line.port = some port → config.listenerPort = pure port
  peerDiscovery : ∀ s, line.discovery = some s →
    config.peerDiscovery = (Settings.nonBlank? s).getD "automatic"
  peerUrls : ∀ s, line.peers = some s → config.peerUrls = Settings.partsOf (· == '|') s
  multicastGroup : ∀ address port, line.group? = some (address, port) →
    config.multicastGroupAddress = Settings.nonBlank? address ∧
      config.multicastGroupPort = Settings.nonBlank? port
  caches : ∀ s, line.caches = some s →
    config.caches = Settings.partsOf (fun c => c == '|' || c == ',') s
  metricsPort : ∀ port, line.metricsPort = some port →
    config.metricsPort = if 0 < port then some port else none

theorem obeys_of_build (inRange : line.IsInRange) (taken : line.entries = .ok flags)
    (built : build line files assignments = .ok config) : Obeys config.core line where
  listenerPort port given := by
    refine Settings.Configuration.listenerPort_of_known (inRange.1 port given) ?_
    exact get?_of_flag _ _ taken built (by rw [CommandLine.flags, given]; rfl)
  peerDiscovery s given := by
    have known := get?_of_flag (Settings.Wording.key .peerDiscovery) (.text s)
      taken built (by rw [CommandLine.flags, given]; rfl)
    exact congrArg (·.getD "automatic") (Settings.Configuration.text?_of_known known rfl)
  peerUrls s given := by
    have known := get?_of_flag (Settings.Wording.key .peerUrls) (.text s)
      taken built (by rw [CommandLine.flags, given]; rfl)
    exact Settings.Configuration.parts_of_known known rfl _
  multicastGroup address port given := by
    have address_known := get?_of_flag (Settings.Wording.key .multicastGroupAddress)
      (.text address) taken built (by rw [CommandLine.flags, given]; rfl)
    have port_known := get?_of_flag (Settings.Wording.key .multicastGroupPort)
      (.text port) taken built (by rw [CommandLine.flags, given]; rfl)
    exact ⟨Settings.Configuration.text?_of_known address_known rfl,
      Settings.Configuration.text?_of_known port_known rfl⟩
  caches s given := by
    have known := get?_of_flag (Settings.Wording.key .caches) (.text s)
      taken built (by rw [CommandLine.flags, given]; rfl)
    exact Settings.Configuration.parts_of_known known rfl _
  metricsPort port given := by
    refine Settings.Configuration.metricsPort_of_known (inRange.2 port given) ?_
    exact get?_of_flag _ _ taken built (by rw [CommandLine.flags, given]; rfl)

/-- A getter of which no key is set by a flag answers as it would without flags. -/
theorem read_of_unset (taken : line.entries = .ok flags) {file : List (String × Value)}
    {getter : Getter} (unset : ∀ key ∈ getter.keys, flags.lookup key = none)
    (environment : String → Option String) :
    getter.read environment ⟨⟨(belowFlags file assignments).setAll flags⟩⟩ =
      getter.read environment ⟨⟨belowFlags file assignments⟩⟩ := by
  refine Getter.read_congr (fun key asked => ?_) environment
  rw [CommandLine.get?_setAll_entries taken (Getter.mem_keys key asked), unset key asked,
    Option.none_or]

/-- A getter of which all keys are set by flags answers the same over any file and environment. -/
theorem read_of_set (taken : line.entries = .ok flags) (tree other : Value) {getter : Getter}
    (set : ∀ key ∈ getter.keys, (flags.lookup key).isSome = true)
    (environment : String → Option String) :
    getter.read environment ⟨⟨tree.setAll flags⟩⟩ =
      getter.read environment ⟨⟨other.setAll flags⟩⟩ := by
  refine Getter.read_congr (fun key asked => ?_) environment
  obtain ⟨value, some⟩ := Option.isSome_iff_exists.1 (set key asked)
  rw [CommandLine.get?_setAll_entries taken (Getter.mem_keys key asked),
    CommandLine.get?_setAll_entries taken (Getter.mem_keys key asked), some, Option.some_or,
    Option.some_or]

/-- Over whatever file and environment a command line is given, what its flags set is answered as
they say, and alike over any two of them; flags keep no configuration from loading, and each answer
that is read from keys without a flag is the one without flags. -/
theorem flags_override {words : List String} (accepted : CommandLine.parse words = .ok line)
    (taken : line.entries = .ok flags) :
    (∀ path files assignments config,
      build { line with config := path } files assignments = .ok config → Obeys config.core line ∧
        ∀ path' files' assignments' config',
          build { line with config := path' } files' assignments' = .ok config' →
            ∀ (getter : Getter) (environment : String → Option String),
              (∀ key ∈ getter.keys, (flags.lookup key).isSome = true) →
                getter.read environment config = getter.read environment config') ∧
    ∀ path files assignments without,
      build { config := path } files assignments = .ok without →
        ∃ config, build { line with config := path } files assignments = .ok config ∧
          ∀ (getter : Getter) (environment : String → Option String),
            (∀ key ∈ getter.keys, flags.lookup key = none) →
              getter.read environment config = getter.read environment without := by
  have on (path : String) : ({ line with config := path } : CommandLine).entries = .ok flags :=
    taken
  have inRange (path : String) : ({ line with config := path } : CommandLine).IsInRange :=
    ⟨(CommandLine.isInRange_parse accepted).1, (CommandLine.isInRange_parse accepted).2⟩
  constructor
  · intro path files assignments config built
    have obeys := obeys_of_build (inRange path) (on path) built
    refine ⟨⟨obeys.1, obeys.2, obeys.3, obeys.4, obeys.5, obeys.6⟩, ?_⟩
    intro path' files' assignments' config' built' getter environment set
    obtain ⟨file, -, rfl⟩ := (build_eq_ok_iff (on path)).1 built
    obtain ⟨file', -, rfl⟩ := (build_eq_ok_iff (on path')).1 built'
    exact read_of_set taken _ _ set environment
  · intro path files assignments without built
    have bare : ({ config := path } : CommandLine).entries = .ok [] := rfl
    obtain ⟨file, read, rfl⟩ := (build_eq_ok_iff bare).1 built
    refine ⟨_, (build_eq_ok_iff (on path)).2 ⟨file, read, rfl⟩, ?_⟩
    intro getter environment unset
    exact read_of_unset taken unset environment

/-- A port is set although the environment has a text where its table should be, and the timeout
beside it stays what it was. -/
theorem flags_override_misplaced_text :
    let line : CommandLine := { port := some 40011 }
    let assignments := [("cachemesh__listener", "here")]
    let timeout : Getter := .setting (.number .socketTimeout)
    CommandLine.parse ["--port", "40011"] = .ok line ∧
      ∃ config without, build line [] assignments = .ok config ∧
        build {} [] assignments = .ok without ∧ config.core.listenerPort = pure 40011 ∧
        timeout.read (fun _ => none) config = timeout.read (fun _ => none) without := by
  intro line assignments timeout
  have accepted : CommandLine.parse ["--port", "40011"] = .ok line := by rfl
  have taken : line.entries = .ok [("cachemesh.listener.port", .integer 40011)] := rfl
  have bare : build {} [] assignments = .ok ⟨⟨belowFlags [] assignments⟩⟩ :=
    (build_eq_ok_iff (rfl : CommandLine.entries {} = .ok [])).2 ⟨[], rfl, rfl⟩
  obtain ⟨decided, unchanged⟩ := flags_override accepted taken
  obtain ⟨config, built, same⟩ := unchanged _ _ _ _ bare
  have obeys := (decided _ _ _ _ built).1
  exact ⟨accepted, config, _, built, bare, obeys.listenerPort 40011 rfl,
    same timeout _ (by decide +kernel)⟩

end Configuration

end Server

end CacheCluster
