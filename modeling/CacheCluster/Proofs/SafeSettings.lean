import CacheCluster.Proofs.Defaults
import CacheCluster.Wire.Frame

/-! # Settings within bounds

Whatever a configuration holds, each number that a node works with lies within the bounds of its
setting, and an integer that is configured within them is taken as it is. The checks are made on
integers of 64 bits, so that dropping the sign afterwards changes nothing.
-/

namespace CacheCluster

/-! ## Integers of 64 bits -/

/-- A cast to an unsigned integer keeps one that is not negative. -/
theorem Decimal.toNat_toUInt64 {i : Int} (fits : fitsInt64 i) (nonneg : 0 ≤ i) :
    (Int64.ofInt i).toUInt64.toNat = i.toNat := by
  have bounds : int64Min ≤ i ∧ i ≤ int64Max := by simpa [fitsInt64] using fits
  have cast : (Int64.ofInt i).toUInt64.toNat = (i % 2 ^ 64).toNat := rfl
  unfold int64Max at bounds
  omega

theorem Decimal.Binary64.toInt_fits (x : Binary64) : fitsInt64 (x.toInt int64Min int64Max) := by
  have bounds : int64Min ≤ x.toInt int64Min int64Max ∧ x.toInt int64Min int64Max ≤ int64Max := by
    unfold toInt int64Min int64Max
    split
    · decide
    · split <;> decide
    · dsimp only
      omega
  simpa [fitsInt64] using bounds

namespace Settings

theorem Value.toInteger?_fits {value : Value} {i : Int} (found : value.toInteger? = some i) :
    Decimal.fitsInt64 i := by
  cases value with
  | integer j =>
    rw [toInteger?] at found
    split at found
    next fits => cases found; exact fits
    next => cases found
  | bool b =>
    cases found
    split <;> decide
  | float x =>
    cases found
    exact x.toInt_fits
  | text s =>
    rw [toInteger?] at found
    split at found
    next => cases found; decide
    split at found
    next => cases found; decide
    next => simpa [Decimal.fitsInt64] using Decimal.int64?_fits found
  | null | list _ | table _ => cases found

namespace Number

variable {config : Configuration} {number : Number}

/-! ## Numbers in force -/

/-- The integers that a number may be. -/
def Allows : Number → Int → Prop
  | heartbeatInterval, ms => 1000 ≤ ms
  | staleTimeout, ms => 0 < ms
  | maxPeersPerSend, n => 1 ≤ n
  | asyncInterval, ms => 10 ≤ ms
  | asyncMaxBatchSize, n => 1 ≤ n
  | shutdownGrace, ms => 0 ≤ ms
  | listenerPort, port => 0 ≤ port ∧ port ≤ 65535
  | socketTimeout, ms => 0 < ms
  | bootstrapChunkSize, bytes => 5000 ≤ bytes ∧ bytes ≤ 100000000
  | metricsPort, port => 0 < port ∧ port ≤ 65535

/-- What a node works with, which is the number as configured where nothing else is decided. -/
def inForce (config : Configuration) : Number → Value
  | asyncInterval => .ofNat (Replication.ofConfiguration config).value.interval
  | asyncMaxBatchSize => .ofNat (Replication.ofConfiguration config).value.maxBatch
  | shutdownGrace => .ofNat (Replication.ofConfiguration config).value.shutdownGrace
  | socketTimeout => .ofNat (Replication.ofConfiguration config).value.callTimeout
  | bootstrapChunkSize => .ofNat (Bootstrap.ofConfiguration config).value.maxChunkBytes
  | number => (number.read config).value

/-- The integer that a node works with where it reads an integer. -/
def checked (config : Configuration) : Number → Int → Int
  | heartbeatInterval, ms => if ms < 1000 then 1000 else ms
  | staleTimeout, ms => if ms > 0 then ms else config.heartbeatInterval.value * 2 + 1000
  | maxPeersPerSend, n => if n < 1 then 500 else n
  | asyncInterval, ms => if ms < 10 then 1000 else ms
  | asyncMaxBatchSize, n => if n > 0 then n else 1000
  | shutdownGrace, ms => max ms 0
  | listenerPort, port => if 0 ≤ port ∧ port ≤ 65535 then port else 40001
  | socketTimeout, ms => if ms ≤ 0 then 120000 else ms
  | bootstrapChunkSize, bytes => if 5000 ≤ bytes ∧ bytes ≤ 100000000 then bytes else 5000000
  | metricsPort, port => port

theorem inForce_eq (config : Configuration) (ne : number ≠ .metricsPort) : number.inForce config =
    .integer (number.checked config (config.integerOr number.key number.fallback).value) := by
  cases number
  case metricsPort => exact absurd rfl ne
  case asyncInterval =>
    simp only [inForce, Replication.value_ofConfiguration, Configuration.asyncInterval, key,
      fallback]
    generalize (config.integerOr _ _).value = ms
    grind [Replication.intervalOf, Replication.minInterval, checked, Value.ofNat, Noted.value_pure]
  case asyncMaxBatchSize =>
    simp only [inForce, Replication.value_ofConfiguration, Configuration.asyncMaxBatchSize, key,
      fallback]
    generalize (config.integerOr _ _).value = n
    grind [Replication.maxBatchOf, checked, Value.ofNat, Noted.value_pure]
  case bootstrapChunkSize =>
    simp only [inForce, Bootstrap.value_ofConfiguration, Configuration.bootstrapChunkSize, key,
      fallback]
    generalize (config.integerOr _ _).value = bytes
    grind [Bootstrap.chunkBytesOf, checked, Value.ofNat, Noted.value_pure]
  case shutdownGrace =>
    simp only [inForce, Replication.value_ofConfiguration, Configuration.shutdownGrace,
      Noted.value_bind, key, fallback]
    generalize (config.integerOr _ _).value = ms
    grind [checked, Value.ofNat, Noted.value_pure]
  case socketTimeout =>
    simp only [inForce, Replication.value_ofConfiguration, Configuration.socketTimeout,
      Configuration.defaultSocketTimeout, Int.cast_ofNat_Int, Noted.value_bind, key, fallback]
    generalize (config.integerOr _ _).value = ms
    grind [checked, Value.ofNat, Noted.value_pure]
  all_goals
    simp only [inForce, value_read, settle]
    generalize (config.integerOr _ _).value = i
    grind [checked, Value.ofNat, Noted.value_map, Noted.value_pure, Decimal.uint16Size]

theorem nonneg_of_allows {i : Int} (allows : number.Allows i) : 0 ≤ i := by
  cases number <;> grind [Allows]

theorem checked_of_allows {i : Int} (allows : number.Allows i) : number.checked config i = i := by
  cases number <;> grind [Allows, checked]

theorem allows_checked (ne : number ≠ .metricsPort) (i : Int) :
    number.Allows (number.checked config i) := by
  cases number <;> grind [Allows, checked]

/-- A number in force is one that the number may be. -/
theorem allows_of_inForce (config : Configuration) (number : Number) {n : Nat}
    (ne : number ≠ .metricsPort) (eq : number.inForce config = .ofNat n) : number.Allows n := by
  have checked := Value.integer.inj ((inForce_eq config ne).symm.trans eq)
  rw [← checked]
  exact allows_checked ne _

/-- An integer that a number may be is in force where it is configured. -/
theorem inForce_of_allows {value : Value} {i : Int}
    (known : config.tree.get? (pathOf number.key) = some value)
    (found : value.toInteger? = some i) (allows : number.Allows i) :
    number.inForce config = .integer i := by
  have read : config.integerOr number.key number.fallback = pure i :=
    Configuration.readOr_of_found known found
  by_cases port : number = .metricsPort
  · subst port
    simp only [inForce, value_read, read]
    grind [settle, Allows, Value.ofNat, Noted.value_pure, Decimal.uint16Size]
  · rw [inForce_eq config port, read, Noted.value_pure, checked_of_allows allows]

end Number

/-! ## The settings of a node -/

/-- The bounds that the parts of a node rely on. -/
structure Configuration.IsSafe (config : Configuration) : Prop where
  heartbeatInterval : 1000 ≤ config.heartbeatInterval.value
  staleTimeout : 0 < config.staleTimeout.value
  maxPeersPerSend : 1 ≤ config.maxPeersPerSend.value
  interval : 10 ≤ (Replication.ofConfiguration config).value.interval
  maxBatch : 1 ≤ (Replication.ofConfiguration config).value.maxBatch
  callTimeout : 0 < (Replication.ofConfiguration config).value.callTimeout
  budget : 5000 ≤ (Bootstrap.ofConfiguration config).value.budget ∧
    (Bootstrap.ofConfiguration config).value.budget ≤ Frame.maxBytes / 2
  multicast : ∀ settings, (Multicast.ofConfiguration config).value = .ok settings →
    settings.timeToLive ≤ 255 ∧ 224 ≤ settings.groupAddress.a ∧ settings.groupAddress.a ≤ 239

theorem Configuration.isSafe (config : Configuration) : config.IsSafe where
  heartbeatInterval := Int.ofNat_le.1 <|
    Number.allows_of_inForce config .heartbeatInterval (by decide) rfl
  staleTimeout := Int.ofNat_lt.1 (Number.allows_of_inForce config .staleTimeout (by decide) rfl)
  maxPeersPerSend := Int.ofNat_le.1 <|
    Number.allows_of_inForce config .maxPeersPerSend (by decide) rfl
  interval := Int.ofNat_le.1 (Number.allows_of_inForce config .asyncInterval (by decide) rfl)
  maxBatch := Int.ofNat_le.1 (Number.allows_of_inForce config .asyncMaxBatchSize (by decide) rfl)
  callTimeout := Int.ofNat_lt.1 (Number.allows_of_inForce config .socketTimeout (by decide) rfl)
  budget := by
    have bounds := Number.allows_of_inForce config .bootstrapChunkSize (by decide) rfl
    simp only [Number.Allows] at bounds
    simp only [Bootstrap.budget, Bootstrap.maxBudget, Frame.maxBytes]
    omega
  multicast := by
    intro settings ok
    obtain ⟨ip, port, timeToLive, host, group, -, ttl, -, rfl⟩ := Multicast.ofConfiguration_eq_ok ok
    have multicast := Multicast.isMulticast_of_group group
    simp only [Ipv4.isMulticast, Bool.and_eq_true, decide_eq_true_eq] at multicast
    exact ⟨Multicast.timeToLiveOf_le ttl, multicast⟩

/-- A configuration does not set the timeout of peers if there is no positive integer at its key. -/
def Configuration.LeavesStaleTimeout (config : Configuration) : Prop :=
  ∀ value i, config.tree.get? (pathOf (Number.key .staleTimeout)) = some value →
    value.toInteger? = some i → i ≤ 0

theorem Configuration.staleTimeout_of_leaves {config : Configuration}
    (leaves : config.LeavesStaleTimeout) :
    config.staleTimeout.value = config.heartbeatInterval.value * 2 + 1000 := by
  have read : (config.integerOr (Number.key .staleTimeout) (-1)).value ≤ 0 := by
    rcases known : config.tree.get? (pathOf (Number.key .staleTimeout)) with _ | value
    · rw [integerOr, readOr_of_missing known]
      decide
    · rcases found : value.toInteger? with _ | i
      · rw [integerOr, readOr_of_unreadable known found]
        decide
      · rw [integerOr, readOr_of_found known found]
        exact leaves value i known found
  have inForce := Value.integer.inj
    (Number.inForce_eq config (show Number.staleTimeout ≠ .metricsPort by decide))
  rw [Number.checked, if_neg (by simpa [Number.fallback] using read)] at inForce
  exact Int.ofNat.inj inForce

/-- Whatever a configuration holds, the bounds that a node relies on are kept, and an integer that
is configured within the bounds of its number is in force as it is: a cast to an unsigned integer
keeps it. Without a timeout of its own, peers are kept for longer than two heartbeats take and for
longer than it takes the nodes to know each other. -/
theorem Configuration.settings_within_bounds (config : Configuration) :
    config.IsSafe ∧
    (∀ (number : Number) (value : Value) (i : Int),
      config.tree.get? (pathOf number.key) = some value → value.toInteger? = some i →
        number.Allows i →
          number.inForce config = .integer i ∧ ((Int64.ofInt i).toUInt64.toNat : Int) = i) ∧
    (∀ settings, (Multicast.ofConfiguration config).value = .ok settings →
      settings.heartbeatInterval = config.heartbeatInterval.value ∧
        settings.staleTimeout = config.staleTimeout.value ∧
        settings.maxPeersPerSend = config.maxPeersPerSend.value ∧
        (config.LeavesStaleTimeout → settings.timeToForm < settings.staleTimeout)) ∧
    (config.LeavesStaleTimeout →
      2 * config.heartbeatInterval.value < config.staleTimeout.value) := by
  refine ⟨config.isSafe, fun number value i known found allows => ⟨?_, ?_⟩, ?_, fun leaves => ?_⟩
  · exact Number.inForce_of_allows known found allows
  · have nonneg := Number.nonneg_of_allows allows
    rw [Decimal.toNat_toUInt64 (Value.toInteger?_fits found) nonneg, Int.toNat_of_nonneg nonneg]
  · intro settings ok
    obtain ⟨ip, port, timeToLive, host, -, -, -, -, rfl⟩ := Multicast.ofConfiguration_eq_ok ok
    refine ⟨rfl, rfl, rfl, fun leaves => ?_⟩
    have := staleTimeout_of_leaves leaves
    simp only [Multicast.timeToForm]
    omega
  · have := staleTimeout_of_leaves leaves
    omega

end Settings
end CacheCluster
