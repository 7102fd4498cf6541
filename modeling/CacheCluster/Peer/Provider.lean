import CacheCluster.Metrics
import CacheCluster.Registry
import CacheCluster.Settings.Discovery

/-! # Peer providers

A provider owns the registry of a node and keeps it filled: from a list, or from multicast
heartbeats as well. Only the latter has something to start, and its urls go stale.
-/

namespace CacheCluster

/-- How far discovery by multicast has come. -/
inductive DiscoveryState
  | idle | listening | advertising
  deriving DecidableEq, Repr

namespace DiscoveryState

def label : DiscoveryState → String
  | idle => "Idle"
  | listening => "Listening"
  | advertising => "Advertising"

end DiscoveryState

/-- What the interfaces of a machine allow. -/
structure Interfaces where
  /-- Whether a group can be joined on an interface, or on any if none is given. -/
  joins : (group : Settings.Ipv4) → (interface : Option Settings.Ipv4) → Bool

/-- A machine that is in no network. -/
def Interfaces.isolated : Interfaces where
  joins _ _ := false

structure Provider where
  registry : Registry := {}
  /-- The settings of discovery by multicast; a provider without them has a fixed list. -/
  multicast : Option Settings.Multicast := none
  state : DiscoveryState := .idle

namespace Provider

/-- A provider of listed urls. -/
def manual (urls : List String) : Provider :=
  { registry := urls.foldl (fun registry url => registry.register 0 url) {} }

/-- A provider that discovers urls. -/
def discovering (settings : Settings.Multicast) : Provider :=
  { registry := { staleTimeout := some settings.staleTimeout }, multicast := some settings }

def ofConfiguration (config : Settings.Configuration) : Settings.Noted (Result Provider) := do
  match Settings.PeerDiscovery.parse config.peerDiscovery with
  | .error error => return .error error
  | .ok .manual =>
    if config.peerUrls.isEmpty then Settings.Noted.warn .noManualPeers
    return .ok (manual config.peerUrls)
  | .ok .automatic => return (← Settings.Multicast.ofConfiguration config).map discovering

variable (provider : Provider)

/-- The transport of the urls. -/
def scheme : String := "TCP"

/-- Milliseconds before the peers of a new node are known. -/
def timeToForm : Nat :=
  (provider.multicast.map Settings.Multicast.timeToForm).getD 0

def register (now : Nat) (url : String) : Provider :=
  { provider with registry := provider.registry.register now url }

def unregister (url : String) : Provider :=
  { provider with registry := provider.registry.unregister url }

/-- Starts discovery; a fixed list has nothing to start. -/
def start (interfaces : Interfaces) : Result Provider :=
  match provider.multicast, provider.state with
  | some settings, .idle =>
    if settings.groupAddress.isMulticast &&
        interfaces.joins settings.groupAddress settings.hostAddress then
      .ok { provider with state := .advertising }
    else .error (.discoveryStart (settings.groupAddress.render ++ ":" ++
      toString settings.groupPort ++ ": cannot join the group"))
  | _, _ => .ok provider

def stop : Provider :=
  { provider with state := .idle }

/-! ## Heartbeats -/

/-- Takes in a datagram. One that does not read is dropped; the known urls are counted anew when
some are discovered. -/
def receive (now : Nat) (own : List String) (datagram : List UInt8) (metrics : Metrics) :
    Provider × Metrics :=
  let metrics := metrics.add .heartbeatsReceived 1
  match provider.registry.hear now own datagram with
  | .error _ => (provider, metrics.add .heartbeatsDropped 1)
  | .ok (discovered, registry) =>
    ({ provider with registry },
      if discovered = 0 then metrics else metrics.set .peers registry.size)

/-- Drops the stale urls and counts those that are left. -/
def sweep (now : Nat) (metrics : Metrics) : Provider × Metrics :=
  let registry := provider.registry.sweep now
  ({ provider with registry }, metrics.set .peers registry.size)

end Provider

end CacheCluster
