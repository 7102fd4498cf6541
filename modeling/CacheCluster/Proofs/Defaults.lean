import CacheCluster.Settings.Overview

/-! # Defaults

A number or a flag that is not configured is its default, and no warning is about its key. One that
is configured as a value of another type is its default as well, and a warning tells of its key;
only the port of the exporter is settled without one.
-/

namespace CacheCluster.Settings

/-! ## Warnings about a key -/

/-- Whether a warning tells that what stands at a key cannot be read. -/
def Warning.names (key : String) : Warning → Bool
  | unreadable other _ => other == key
  | _ => false

/-- Whether a reading warns of what stands at a key. -/
def Noted.warnsOf {α : Type} (key : String) (x : Noted α) : Bool :=
  x.warnings.any (Warning.names key)

namespace Noted

variable {α β : Type} {key : String}

@[simp] theorem warnsOf_pure (a : α) : (pure a : Noted α).warnsOf key = false := rfl

@[simp] theorem warnsOf_bind (x : Noted α) (f : α → Noted β) :
    (x >>= f).warnsOf key = (x.warnsOf key || (f x.value).warnsOf key) :=
  List.any_append

@[simp] theorem warnsOf_map (f : α → β) (x : Noted α) : (f <$> x).warnsOf key = x.warnsOf key := by
  rw [warnsOf, warnings_map, warnsOf]

theorem warnsOf_unreadable (a : α) (fallback : String) :
    (⟨a, [.unreadable key fallback]⟩ : Noted α).warnsOf key = true := by
  simp [warnsOf, Warning.names]

end Noted

theorem Configuration.warnsOf_readOr_of_ne {α : Type} {read? : Value → Option α}
    {render : α → String} {key other : String} {fallback : α} {config : Configuration}
    (ne : key ≠ other) :
    (config.readOr read? render key fallback).warnsOf other = false := by
  unfold readOr
  split
  · rfl
  · rfl
  · simp [Noted.warnsOf, Warning.names, ne]

/-! ## Numbers -/

/-- The settings that are numbers. -/
inductive Number
  | heartbeatInterval | staleTimeout | maxPeersPerSend
  | asyncInterval | asyncMaxBatchSize | shutdownGrace
  | listenerPort | socketTimeout
  | bootstrapChunkSize
  | metricsPort
  deriving DecidableEq

namespace Number

def key : Number → String
  | heartbeatInterval => "cachemesh.multicast.heartbeat.interval.ms"
  | staleTimeout => "cachemesh.multicast.stale.timeout.ms"
  | maxPeersPerSend => "cachemesh.multicast.max.peers.per.send"
  | asyncInterval => "cachemesh.replication.async-interval-ms"
  | asyncMaxBatchSize => "cachemesh.replication.async-max-batch-size"
  | shutdownGrace => "cachemesh.replication.shutdown-grace-ms"
  | listenerPort => "cachemesh.listener.port"
  | socketTimeout => "cachemesh.listener.socket.timeout.ms"
  | bootstrapChunkSize => "cachemesh.bootstrap.maximum.chunk.size.bytes"
  | metricsPort => "cachemesh.metrics.port"

variable (config : Configuration)

/-- What a configuration gives for a number. -/
def read : Number → Noted Value
  | heartbeatInterval => .ofNat <$> config.heartbeatInterval
  | staleTimeout => .ofNat <$> config.staleTimeout
  | maxPeersPerSend => .ofNat <$> config.maxPeersPerSend
  | asyncInterval => .integer <$> config.asyncInterval
  | asyncMaxBatchSize => .integer <$> config.asyncMaxBatchSize
  | shutdownGrace => .ofNat <$> config.shutdownGrace
  | listenerPort => .ofNat <$> config.listenerPort
  | socketTimeout => .ofNat <$> config.socketTimeout
  | bootstrapChunkSize => .integer <$> config.bootstrapChunkSize
  | metricsPort => pure (config.metricsPort.elim .null .ofNat)

/-- The default of a number; without a port the exporter is off. -/
def standard : Number → Value
  | heartbeatInterval => .integer 5000
  | staleTimeout => .integer (2 * config.heartbeatInterval.value + 1000)
  | maxPeersPerSend => .integer 500
  | asyncInterval => .integer 1000
  | asyncMaxBatchSize => .integer 1000
  | shutdownGrace => .integer 3000
  | listenerPort => .integer 40001
  | socketTimeout => .integer 120000
  | bootstrapChunkSize => .integer 5000000
  | metricsPort => .null

/-- The integer that is settled where none can be read. -/
def fallback : Number → Int
  | heartbeatInterval => 5000
  | staleTimeout => -1
  | maxPeersPerSend => 500
  | asyncInterval => 1000
  | asyncMaxBatchSize => 1000
  | shutdownGrace => 3000
  | listenerPort => 40001
  | socketTimeout => 120000
  | bootstrapChunkSize => 5000000
  | metricsPort => 0

/-- What an integer is settled to. -/
def settle : Number → Int → Noted Value
  | heartbeatInterval, ms =>
    Value.ofNat <$> if ms < 1000 then ⟨1000, [.shortHeartbeat ms]⟩ else pure ms.toNat
  | staleTimeout, ms =>
    pure (.ofNat (if ms > 0 then ms.toNat else config.heartbeatInterval.value * 2 + 1000))
  | maxPeersPerSend, n =>
    Value.ofNat <$> if n < 1 then ⟨500, [.peersPerSend n]⟩ else pure n.toNat
  | asyncInterval, n | asyncMaxBatchSize, n | bootstrapChunkSize, n => pure (.integer n)
  | shutdownGrace, ms => pure (.ofNat ms.toNat)
  | listenerPort, port =>
    Value.ofNat <$> if 0 ≤ port ∧ port < Decimal.uint16Size then pure port.toNat
      else ⟨40001, [.listenerPort port]⟩
  | socketTimeout, ms => pure (.ofNat (if ms ≤ 0 then 120000 else ms.toNat))
  | metricsPort, port =>
    pure (if 0 < port ∧ port < Decimal.uint16Size then .ofNat port.toNat else .null)

/-- What is read before a number: without a timeout of its own, a node takes one from the
heartbeats. -/
def prior : Number → Noted Unit
  | staleTimeout => (fun _ => ()) <$> config.heartbeatInterval
  | _ => pure ()

variable {config} {number : Number}

theorem read_eq (ne : number ≠ .metricsPort) :
    number.read config = number.prior config >>= fun _ =>
      config.integerOr number.key number.fallback >>= number.settle config := by
  cases number
  case metricsPort => exact absurd rfl ne
  case staleTimeout =>
    simp only [read, Configuration.staleTimeout, prior, map_eq_pure_bind, bind_assoc, pure_bind]
    rfl
  case heartbeatInterval | maxPeersPerSend | shutdownGrace | listenerPort | socketTimeout =>
    simp only [read, Configuration.heartbeatInterval, Configuration.maxPeersPerSend,
      Configuration.shutdownGrace, Configuration.listenerPort, Configuration.socketTimeout,
      prior, pure_bind, map_bind]
    rfl
  case asyncInterval | asyncMaxBatchSize | bootstrapChunkSize =>
    simp only [read, Configuration.asyncInterval, Configuration.asyncMaxBatchSize,
      Configuration.bootstrapChunkSize, prior, pure_bind, map_eq_pure_bind]
    rfl

/-- The port of the exporter is settled like the other numbers, but what is noted on the way to it
is dropped. -/
theorem read_metricsPort : read config .metricsPort =
    pure (settle config .metricsPort
      (config.integerOr (key .metricsPort) (fallback .metricsPort)).value).value := by
  unfold read Configuration.metricsPort settle Configuration.integerOr Configuration.readOr key
    fallback
  rcases lookup Value.toInteger? "cachemesh.metrics.port" config.tree with _ | _ | port
  case found =>
    by_cases inRange : 0 < port ∧ port < Decimal.uint16Size <;>
      simp [Lookup.toOption, Option.filter, inRange]
  all_goals rfl

theorem settle_fallback : number.settle config number.fallback = pure (number.standard config) := by
  cases number
  case staleTimeout => simp [settle, fallback, standard, Value.ofNat, Nat.mul_comm]
  all_goals rfl

theorem value_read : (number.read config).value =
    (number.settle config (config.integerOr number.key number.fallback).value).value := by
  by_cases port : number = .metricsPort
  · rw [port, read_metricsPort, Noted.value_pure]
  · rw [read_eq port, Noted.value_bind, Noted.value_bind]

theorem value_read_of_fallback
    (unread : (config.integerOr number.key number.fallback).value = number.fallback) :
    (number.read config).value = number.standard config := by
  rw [value_read, unread, settle_fallback, Noted.value_pure]

theorem warnsOf_settle (number : Number) (i : Int) (key : String) :
    (number.settle config i).warnsOf key = false := by
  cases number
  case heartbeatInterval | maxPeersPerSend | listenerPort =>
    simp only [settle, Noted.warnsOf_map]
    split <;> rfl
  all_goals rfl

/-- Reading a number warns of the key of another setting only if that is the interval of the
heartbeats and the number depends on it. -/
theorem warnsOf_read_of_ne {key : String} (ne : number.key ≠ key) :
    (number.read config).warnsOf key = (number.prior config).warnsOf key := by
  by_cases port : number = .metricsPort
  · subst port
    rw [read_metricsPort]
    rfl
  · rw [read_eq port, Noted.warnsOf_bind, Noted.warnsOf_bind, warnsOf_settle,
      Configuration.integerOr, Configuration.warnsOf_readOr_of_ne ne, Bool.or_false, Bool.or_false]

theorem warnsOf_prior (number : Number) : (number.prior config).warnsOf number.key = false := by
  cases number
  case staleTimeout =>
    have heartbeat : (read config .heartbeatInterval).warnsOf (key .staleTimeout) = false :=
      warnsOf_read_of_ne (by decide)
    rw [read, Noted.warnsOf_map] at heartbeat
    rwa [prior, Noted.warnsOf_map]
  all_goals rfl

theorem warnsOf_read (ne : number ≠ .metricsPort) : (number.read config).warnsOf number.key =
    (config.integerOr number.key number.fallback).warnsOf number.key := by
  rw [read_eq ne, Noted.warnsOf_bind, Noted.warnsOf_bind, warnsOf_settle, Bool.or_false,
    warnsOf_prior, Bool.false_or]

end Number

/-! ## Flags -/

/-- The settings that are true or false. -/
inductive Flag
  | replicatePuts | replicatePutsViaCopy | replicateUpdates | replicateUpdatesViaCopy
  | replicateRemovals | replicateAsynchronously
  | bootstrapEnabled | bootstrapAsynchronously
  deriving DecidableEq

namespace Flag

def key : Flag → String
  | replicatePuts => "cachemesh.replication.replicate-puts"
  | replicatePutsViaCopy => "cachemesh.replication.replicate-puts-via-copy"
  | replicateUpdates => "cachemesh.replication.replicate-updates"
  | replicateUpdatesViaCopy => "cachemesh.replication.replicate-updates-via-copy"
  | replicateRemovals => "cachemesh.replication.replicate-removals"
  | replicateAsynchronously => "cachemesh.replication.replicate-asynchronously"
  | bootstrapEnabled => "cachemesh.bootstrap.enabled"
  | bootstrapAsynchronously => "cachemesh.bootstrap.asynchronously"

/-- What a configuration gives for a flag. -/
def read (config : Configuration) : Flag → Noted Bool
  | replicatePuts => config.replicatePuts
  | replicatePutsViaCopy => config.replicatePutsViaCopy
  | replicateUpdates => config.replicateUpdates
  | replicateUpdatesViaCopy => config.replicateUpdatesViaCopy
  | replicateRemovals => config.replicateRemovals
  | replicateAsynchronously => config.replicateAsynchronously
  | bootstrapEnabled => config.bootstrapEnabled
  | bootstrapAsynchronously => config.bootstrapAsynchronously

theorem read_eq (flag : Flag) (config : Configuration) :
    flag.read config = config.boolOr flag.key true := by
  cases flag <;> rfl

end Flag

/-! ## Settings that are numbers or flags -/

inductive Setting
  | number (number : Number)
  | flag (flag : Flag)
  deriving DecidableEq

namespace Setting

def key : Setting → String
  | number n => n.key
  | flag f => f.key

/-- Whether a value can be read as what a setting is. -/
def accepts : Setting → Value → Bool
  | number _, value => value.toInteger?.isSome
  | flag _, value => value.toBool?.isSome

/-- What a configuration gives for a setting. -/
def read (config : Configuration) : Setting → Noted Value
  | number n => n.read config
  | flag f => .bool <$> f.read config

/-- The default of a setting. -/
def standard (config : Configuration) : Setting → Value
  | number n => n.standard config
  | flag _ => .bool true

/-- The settings in the order in which they are read. -/
def all : List Setting := [
  number .heartbeatInterval, number .staleTimeout, number .maxPeersPerSend,
  flag .replicatePuts, flag .replicatePutsViaCopy, flag .replicateUpdates,
  flag .replicateUpdatesViaCopy, flag .replicateRemovals, flag .replicateAsynchronously,
  number .asyncInterval, number .asyncMaxBatchSize, number .shutdownGrace,
  number .listenerPort, number .socketTimeout,
  flag .bootstrapEnabled, flag .bootstrapAsynchronously, number .bootstrapChunkSize,
  number .metricsPort]

variable {config : Configuration} {setting : Setting}

theorem mem_all (setting : Setting) : setting ∈ all := by
  rcases setting with n | f
  · cases n <;> decide
  · cases f <;> decide

/-- What is noted about a configuration is what is noted about its numbers and flags. -/
theorem warnings_overview :
    config.overview.warnings = all.flatMap fun setting => (setting.read config).warnings := by
  simp [Configuration.overview, all, read, Number.read, Flag.read]

theorem key_inj {other : Setting} (eq : setting.key = other.key) : setting = other := by
  have inj : ∀ a ∈ all, ∀ b ∈ all, a.key = b.key → a = b := by decide +kernel
  exact inj setting (mem_all setting) other (mem_all other) eq

/-- No other setting warns of the key of a setting, unless it is read from the setting. -/
theorem warnsOf_of_warnsOf_read {other : Setting}
    (warns : (other.read config).warnsOf setting.key = true) :
    (setting.read config).warnsOf setting.key = true := by
  by_cases same : other = setting
  · rwa [same] at warns
  have ne : other.key ≠ setting.key := fun eq => same (key_inj eq)
  cases other with
  | flag f =>
    rw [read, Noted.warnsOf_map, Flag.read_eq] at warns
    exact absurd warns (Bool.not_eq_true _ ▸ Configuration.warnsOf_readOr_of_ne ne)
  | number n =>
    rw [read, Number.warnsOf_read_of_ne ne] at warns
    cases n
    case staleTimeout =>
      rw [Number.prior, Noted.warnsOf_map] at warns
      by_cases heartbeat : setting = number .heartbeatInterval
      · subst heartbeat
        rwa [read, Number.read, Noted.warnsOf_map]
      · have ne : Number.key .heartbeatInterval ≠ setting.key := fun eq =>
          heartbeat (key_inj (show (number .heartbeatInterval).key = setting.key from eq)).symm
        have silent : (Number.read config .heartbeatInterval).warnsOf setting.key = _ :=
          Number.warnsOf_read_of_ne ne
        rw [Number.read, Noted.warnsOf_map, warns] at silent
        cases silent
    all_goals cases warns

theorem warnsOf_overview (config : Configuration) (setting : Setting) :
    config.overview.warnsOf setting.key = (setting.read config).warnsOf setting.key := by
  rw [Bool.eq_iff_iff, Noted.warnsOf, warnings_overview, List.any_flatMap, List.any_eq_true]
  exact ⟨fun ⟨_, _, warns⟩ => warnsOf_of_warnsOf_read warns,
    fun warns => ⟨setting, mem_all setting, warns⟩⟩

theorem read_of_missing (missing : config.tree.get? (pathOf setting.key) = none) :
    (setting.read config).value = setting.standard config ∧
      (setting.read config).warnsOf setting.key = false := by
  cases setting with
  | flag f =>
    have unread : f.read config = pure true := by
      rw [Flag.read_eq]
      exact Configuration.readOr_of_missing missing
    rw [read, unread]
    exact ⟨rfl, rfl⟩
  | number n =>
    have unread : config.integerOr n.key n.fallback = pure n.fallback :=
      Configuration.readOr_of_missing missing
    refine ⟨Number.value_read_of_fallback (by rw [unread, Noted.value_pure]), ?_⟩
    by_cases port : n = .metricsPort
    · subst port
      rfl
    · rw [read, key, Number.warnsOf_read port, unread, Noted.warnsOf_pure]

theorem read_of_not_accepts {value : Value}
    (known : config.tree.get? (pathOf setting.key) = some value)
    (unreadable : setting.accepts value = false) :
    (setting.read config).value = setting.standard config ∧
      ((setting.read config).warnsOf setting.key = true ↔ setting ≠ number .metricsPort) := by
  cases setting with
  | flag f =>
    have unread : f.read config = ⟨true, [.unreadable f.key "true"]⟩ := by
      rw [Flag.read_eq]
      exact Configuration.readOr_of_unreadable known (by simpa [accepts] using unreadable)
    rw [read, unread]
    exact ⟨rfl, iff_of_true (Noted.warnsOf_unreadable ..) (by simp)⟩
  | number n =>
    have unread : config.integerOr n.key n.fallback =
        ⟨n.fallback, [.unreadable n.key (toString n.fallback)]⟩ :=
      Configuration.readOr_of_unreadable known (by simpa [accepts] using unreadable)
    refine ⟨Number.value_read_of_fallback (by rw [unread]), ?_⟩
    by_cases port : n = .metricsPort
    · subst port
      exact iff_of_false (by simp [read, Number.read_metricsPort]) (by simp)
    · refine iff_of_true ?_ (by simpa using port)
      rw [read, key, Number.warnsOf_read port, unread]
      exact Noted.warnsOf_unreadable ..

/-- A setting that is missing is its default, and no warning is about its key. One that cannot be
read is its default too, and there is a warning about its key unless it is the port of the exporter.
The warnings are those of a node that looks over its whole configuration. -/
theorem falls_back_to_standard (config : Configuration) (setting : Setting) :
    (config.tree.get? (pathOf setting.key) = none →
      (setting.read config).value = setting.standard config ∧
        config.overview.warnsOf setting.key = false) ∧
    (∀ value, config.tree.get? (pathOf setting.key) = some value → setting.accepts value = false →
      (setting.read config).value = setting.standard config ∧
        (config.overview.warnsOf setting.key = true ↔ setting ≠ number .metricsPort)) ∧
    config.overview.warnsOf setting.key = (setting.read config).warnsOf setting.key := by
  rw [warnsOf_overview]
  exact ⟨read_of_missing, fun _ => read_of_not_accepts, rfl⟩

/-- A port of the exporter that cannot be read turns the exporter off, and nobody is told. -/
theorem falls_back_to_standard_misspelled_port :
    let config : Configuration :=
      ⟨.table [("cachemesh", .table [("metrics", .table [("port", .text "abc")])])]⟩
    (number .metricsPort).accepts (.text "abc") = false ∧ config.metricsPort = none ∧
      config.overview.warnsOf "cachemesh.metrics.port" = false := by
  intro config
  have unreadable : (number .metricsPort).accepts (.text "abc") = false := by decide
  obtain ⟨-, warns⟩ := (falls_back_to_standard config (number .metricsPort)).2.1 _ rfl unreadable
  exact ⟨unreadable, by decide, Bool.eq_false_iff.2 fun warned => warns.1 warned rfl⟩

end Setting

end CacheCluster.Settings
