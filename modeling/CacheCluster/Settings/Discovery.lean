import CacheCluster.Error
import CacheCluster.Settings.Configuration

/-! # How peers are found

Peers are listed by hand or discovered by multicast heartbeats. The settings of the latter are
checked: what has no sensible default makes the node refuse to be built.
-/

namespace CacheCluster.Settings

inductive PeerDiscovery
  | automatic | manual
  deriving DecidableEq, Repr

def PeerDiscovery.parse (s : String) : Result PeerDiscovery :=
  match Text.lowercase (Text.trim s) with
  | "automatic" => .ok .automatic
  | "manual" => .ok .manual
  | other => .error (.configuration
      ("peer discovery must be 'automatic' or 'manual', got '" ++ other ++ "'"))

/-- An address of four numbers. -/
structure Ipv4 where
  a : UInt8
  b : UInt8
  c : UInt8
  d : UInt8
  deriving DecidableEq, Repr

namespace Ipv4

/-- One number of an address: up to three digits, no needless zero. -/
def octet? (cs : List Char) : Option UInt8 :=
  if cs.length > 3 ∨ (cs.head? = some '0' ∧ cs.length > 1) then none
  else ((Decimal.natural? cs).filter (· < 256)).map UInt8.ofNat

def parse? (s : String) : Option Ipv4 :=
  match (Text.pieces (· == '.') s.toList).mapM octet? with
  | some [a, b, c, d] => some ⟨a, b, c, d⟩
  | _ => none

def render (ip : Ipv4) : String :=
  toString ip.a.toNat ++ "." ++ toString ip.b.toNat ++ "." ++ toString ip.c.toNat ++ "." ++
    toString ip.d.toNat

/-- Whether the address names a group. -/
def isMulticast (ip : Ipv4) : Bool :=
  224 ≤ ip.a && ip.a ≤ 239

def loopback : Ipv4 := ⟨127, 0, 0, 1⟩

end Ipv4

/-- The settings of discovery by multicast. -/
structure Multicast where
  groupAddress : Ipv4
  groupPort : Nat
  timeToLive : Nat := 1
  hostAddress : Option Ipv4 := none
  heartbeatInterval : Nat := 5000
  staleTimeout : Nat := heartbeatInterval * 2 + 1000
  maxPeersPerSend : Nat := Configuration.defaultPeersPerSend
  deriving Repr

namespace Multicast

def group (config : Configuration) : Result Ipv4 :=
  match config.multicastGroupAddress with
  | none => .error (.configuration
      "cachemesh.multicast.group.address is required for automatic peer discovery")
  | some s =>
    match Ipv4.parse? s with
    | none =>
      .error (.configuration ("multicast group address '" ++ s ++ "' is not an IPv4 address"))
    | some ip =>
      if ip.isMulticast then .ok ip
      else .error (.configuration (ip.render ++ " is not a multicast address"))

def port (config : Configuration) : Result Nat :=
  match config.multicastGroupPort with
  | none => .error (.configuration
      "cachemesh.multicast.group.port is required for automatic peer discovery")
  | some s =>
    match Decimal.uint16? s with
    | none => .error (.configuration ("multicast group port '" ++ s ++ "' is invalid"))
    | some n => .ok n

def timeToLiveOf (config : Configuration) : Result Nat :=
  match config.multicastTimeToLive with
  | none => .ok 1
  | some s =>
    match Decimal.int64? s with
    | none => .error (.configuration ("multicast TTL '" ++ s ++ "' is not a number"))
    | some n =>
      if 0 ≤ n ∧ n ≤ 255 then .ok n.toNat
      else .error (.configuration
        ("the multicast TTL must be between 0 and 255, got " ++ toString n))

def host (config : Configuration) : Noted (Result (Option Ipv4)) :=
  match config.multicastHostName with
  | none => pure (.ok none)
  | some s =>
    if s.map Char.toLower == "localhost" then ⟨.ok (some .loopback), [.multicastOnLocalhost]⟩
    else match Ipv4.parse? s with
      | some ip => pure (.ok (some ip))
      | none => pure (.error (.configuration
          ("multicast host name '" ++ s ++ "' must be an IPv4 address")))

/-- The settings of discovery by multicast; the first bad one is reported. -/
def ofConfiguration (config : Configuration) : Noted (Result Multicast) := do
  match group config with
  | .error e => return .error e
  | .ok groupAddress =>
  match port config with
  | .error e => return .error e
  | .ok groupPort =>
  match timeToLiveOf config with
  | .error e => return .error e
  | .ok timeToLive =>
  match ← host config with
  | .error e => return .error e
  | .ok hostAddress =>
    let heartbeatInterval ← config.heartbeatInterval
    let staleTimeout ← config.staleTimeout
    let maxPeersPerSend ← config.maxPeersPerSend
    return .ok { groupAddress, groupPort, timeToLive, hostAddress, heartbeatInterval, staleTimeout,
                 maxPeersPerSend }

theorem ofConfiguration_eq_ok {config : Configuration} {settings : Multicast}
    (ok : (ofConfiguration config).value = .ok settings) :
    ∃ groupAddress groupPort timeToLive hostAddress,
      group config = .ok groupAddress ∧ port config = .ok groupPort ∧
        timeToLiveOf config = .ok timeToLive ∧ (host config).value = .ok hostAddress ∧
        settings = {
          groupAddress, groupPort, timeToLive, hostAddress,
          heartbeatInterval := config.heartbeatInterval.value
          staleTimeout := config.staleTimeout.value
          maxPeersPerSend := config.maxPeersPerSend.value } := by
  unfold ofConfiguration at ok
  split at ok
  case h_1 => cases ok
  case h_2 groupAddress group =>
  split at ok
  case h_1 => cases ok
  case h_2 groupPort port =>
  split at ok
  case h_1 => cases ok
  case h_2 timeToLive ttl =>
  rw [Noted.value_bind] at ok
  split at ok
  case h_1 => cases ok
  case h_2 hostAddress host =>
  exact ⟨groupAddress, groupPort, timeToLive, hostAddress, group, port, ttl, host,
    (Except.ok.inj ok).symm⟩

theorem isMulticast_of_group {config : Configuration} {ip : Ipv4} (ok : group config = .ok ip) :
    ip.isMulticast := by
  unfold group at ok
  split at ok
  case h_1 => cases ok
  case h_2 =>
  split at ok
  case h_1 => cases ok
  case h_2 =>
  split at ok
  next multicast =>
    cases ok
    exact multicast
  next => cases ok

theorem timeToLiveOf_le {config : Configuration} {timeToLive : Nat}
    (ok : timeToLiveOf config = .ok timeToLive) : timeToLive ≤ 255 := by
  unfold timeToLiveOf at ok
  split at ok
  case h_1 =>
    cases ok
    decide
  case h_2 =>
  split at ok
  case h_1 => cases ok
  case h_2 =>
  split at ok
  next inRange =>
    cases ok
    omega
  next => cases ok

/-- Milliseconds in which every node has heard of every other one. -/
def timeToForm (settings : Multicast) : Nat :=
  settings.heartbeatInterval * 2 + 100

end Multicast

end CacheCluster.Settings
