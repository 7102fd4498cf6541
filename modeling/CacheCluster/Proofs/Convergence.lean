import CacheCluster.Proofs.RegistryHistory
import CacheCluster.Proofs.RemoteOperations
import CacheCluster.Proofs.SelfDiscovery

/-! # Copies that agree

Nodes that know one another send each change of a cache to all the others before it is over, and
what a node is sent it does not send on. As long as every call succeeds and one change is made after
the other, all of them hold the same, whichever of them is written to.
-/

namespace CacheCluster

open Delivery

theorem Table.of_get?_ofList {α : Type} (P : α → Prop) {entries : List (String × α)}
    (all : ∀ e ∈ entries, P e.2) (name : String) (value : α)
    (held : (ofList entries).get? name = some value) : P value := by
  have insertAll (table : Table α) (before : ∀ value, table.get? name = some value → P value)
      (held : (entries.foldl (fun table e => table.insert e.1 e.2) table).get? name = some value) :
      P value := by
    clear * - all before held
    induction entries generalizing table with
    | nil => exact before value held
    | cons e entries ih =>
      obtain ⟨first, others⟩ := List.forall_mem_cons.1 all
      refine ih others _ (fun value held => ?_) held
      rw [get?_insert] at held
      split at held
      · exact Option.some.inj held ▸ first
      · exact before value held
  exact insertAll ∅ nofun held

theorem Registry.contains_of_permanent {registry : Registry} {url : String} {seen : Nat}
    (registered : registry.peers.get? url = some ⟨seen, false⟩) (now : Nat) :
    registry.contains now url = true := by
  rw [contains, registered]
  unfold isStale Sighting.isStale
  dsimp only [Option.any_some]
  split <;> rfl

/-- The calls that are made for a change: one with its message to each peer that is found. -/
def Neighbours.Calls (neighbours : Neighbours) (now : Nat) (cache : String)
    (message? : Option Message) (calls : List Delivery) : Prop :=
  match message? with
  | some message =>
    calls.map (·.url) = (neighbours.lookUp now cache).found ∧
      ∀ call ∈ calls, call.action = message.action
  | none => calls = []

theorem Dispatcher.notify_at_once {dispatcher : Dispatcher} (isAlive : dispatcher.isAlive = true)
    (synchronous : dispatcher.settings.asynchronous = false) (neighbours : Neighbours) (now : Nat)
    (event : Event) :
    ∃ calls metrics,
      (dispatcher.notify neighbours now event).dispatcher =
        { dispatcher with sent := dispatcher.sent ++ calls, metrics } ∧
      neighbours.Calls now event.cache
        ((dispatcher.settings.accept event).bind Event.message?) calls := by
  have taken : dispatcher.taken? event = dispatcher.settings.accept event := if_pos isAlive
  rcases accepted : dispatcher.settings.accept event with _ | sent
  · refine ⟨[], dispatcher.metrics, ?_, rfl⟩
    rw [notify_of_none (taken.trans accepted), List.append_nil]
  · obtain ⟨metrics, notified⟩ := notify_of_some neighbours now (taken.trans accepted)
    rw [notified, synchronous, if_neg Bool.false_ne_true, Option.bind_some, deliver,
      Node.accept_cache accepted]
    rcases sent.message? with _ | message
    · exact ⟨[], metrics, by rw [List.append_nil], rfl⟩
    · obtain ⟨called, -, asked⟩ := deliverInTurn_calls neighbours.mesh
        dispatcher.settings.callTimeout message.action (neighbours.lookUp now event.cache).finish
        (neighbours.lookUp now event.cache).found
      exact ⟨_, _, rfl, called, fun call mem => (asked call mem).1⟩

namespace Node

/-! ## Calls that reach a node -/

def address (node : Node) : String :=
  Address.format node.listener.host node.listener.port

/-- The cache that is asked for at a node, if a url leads there. -/
def cacheAt? (node : Node) (url : String) : Option String :=
  match PeerUrl.parse url with
  | .ok (address, cache) => if address = node.address then some cache else none
  | .error _ => none

def serve (node : Node) (request : Request) : Node :=
  { node with
    listener := { node.listener with
      caches := (Service.answer node.listener.caches request).2 } }

/-- A node after a call of a peer; one that fails does nothing. -/
def take (node : Node) (call : Delivery) : Node :=
  match node.cacheAt? call.url with
  | some cache =>
    if node.listener.isRunning && !call.failed then node.serve ⟨cache, call.action⟩ else node
  | none => node

def callsAt (node : Node) (calls : List Delivery) : List Delivery :=
  calls.filter fun call => (node.cacheAt? call.url).isSome

variable {node peer after : Node} {cache url : String} {store : Store} {mesh : Mesh} {now : Nat}

theorem cacheAt?_take (node : Node) (call : Delivery) (url : String) :
    (node.take call).cacheAt? url = node.cacheAt? url := by
  unfold take
  split
  · split <;> rfl
  · rfl

theorem foldl_take (node : Node) (calls : List Delivery) :
    calls.foldl take node = (node.callsAt calls).foldl take node := by
  induction calls generalizing node with
  | nil => rfl
  | cons call calls ih =>
    have same : (node.take call).callsAt calls = node.callsAt calls :=
      List.filter_congr fun other _ => by rw [cacheAt?_take]
    rw [List.foldl_cons, ih, same]
    unfold callsAt
    rw [List.filter_cons]
    split
    · rfl
    next elsewhere =>
      have unmoved : node.take call = node := by
        rw [Option.not_isSome_iff_eq_none] at elsewhere
        rw [take, elsewhere]
      rw [unmoved]

theorem cacheAt?_urlFor (known : Address.isKnownHost peer.listener.host = true)
    (named : cache ≠ "") :
    node.cacheAt? (peer.listener.urlFor cache) =
      if peer.address = node.address then some cache else none := by
  rw [cacheAt?, Listener.urlFor, PeerUrl.parse_format known, if_neg named]
  rfl

/-! ## A node that takes part -/

/-- A running node that sends every change to its peers at once, as a copy, and loads nothing. -/
structure TakesPart (node : Node) : Prop where
  inOrder : node.IsInOrder
  isRunning : node.isRunning = true
  listens : node.listener.isRunning = true
  settled : node.IsSettled
  isAlive : node.dispatcher.isAlive = true
  synchronous : node.dispatcher.settings.asynchronous = false
  noQueues : node.dispatcher.queues = ∅
  replicates : Change.AllReplicated node.dispatcher.settings
  puts : node.dispatcher.settings.putsViaCopy = true
  updates : node.dispatcher.settings.updatesViaCopy = true

theorem TakesPart.run (h : node.TakesPart) (mesh : Mesh) (now limit : Nat) :
    node.run mesh now limit = node := by
  rw [run_of_isSettled h.settled, Dispatcher.run_of_no_queues h.noQueues]

theorem TakesPart.known (h : node.TakesPart) : Address.isKnownHost node.listener.host = true :=
  h.inOrder.known h.isRunning

theorem TakesPart.named (h : node.TakesPart) (hosted : node.store? cache = some store) :
    cache ≠ "" ∧ '/' ∉ cache.toList := by
  have valid := h.inOrder.named cache (Table.mem_names_iff.2 ⟨store, hosted⟩)
  obtain ⟨named, -, clean⟩ := isCacheName_iff.1 valid
  exact ⟨named, clean⟩

/-- What is in the caches of a node, and what it has sent, can change without a change to the
rest. -/
def IsLater (before after : Node) : Prop :=
  ∃ caches sent metrics, caches.names = before.cacheNames ∧ after = { before with
    listener := { before.listener with caches }
    dispatcher := { before.dispatcher with sent, metrics } }

theorem TakesPart.later (h : node.TakesPart) (later : node.IsLater after) : after.TakesPart := by
  obtain ⟨caches, sent, metrics, names, rfl⟩ := later
  exact { h with inOrder := h.inOrder.of_resembles ⟨rfl, names, rfl, rfl⟩ }

theorem isLater_setStore (hosted : node.store? cache = some store) (changed : Store) :
    node.IsLater (node.setStore cache changed) :=
  ⟨_, _, _, Table.names_insert hosted changed, rfl⟩

theorem Change.on_of_none {change : Change} (silent : (change.on cache store).2 = none) :
    (change.on cache store).1 = store := by
  cases change with
  | put element => cases silent
  | remove key =>
    unfold on at silent ⊢
    dsimp only at silent ⊢
    split at silent
    · cases silent
    next absent => rw [if_neg absent]
  | removeAll => cases silent

def changed (node : Node) (cache : String) (store : Store) (calls : List Delivery)
    (metrics : Metrics) : Node :=
  { node.setStore cache store with
    dispatcher := { node.dispatcher with sent := node.dispatcher.sent ++ calls, metrics } }

theorem isLater_changed (hosted : node.store? cache = some store) (written : Store)
    (calls : List Delivery) (metrics : Metrics) :
    node.IsLater (node.changed cache written calls metrics) :=
  ⟨_, _, _, Table.names_insert hosted written, rfl⟩

/-- A change calls each peer that is found once, with its message, and calls no one without. -/
theorem TakesPart.make (h : node.TakesPart) (hosted : node.store? cache = some store)
    (mesh : Mesh) (now : Nat) (change : Change) :
    ∃ calls metrics,
      (node.make mesh now cache store change).node =
        node.changed cache (change.on cache store).1 calls metrics ∧
      (node.neighbours mesh).Calls now cache
        (change.message? node.dispatcher.settings cache store) calls := by
  rw [make_eq, Change.message?]
  rcases happened : (change.on cache store).2 with _ | event
  · refine ⟨[], node.dispatcher.metrics, ?_, rfl⟩
    rw [changed, Change.on_of_none happened, setStore, Listener.serveCache,
      Table.insert_held hosted, List.append_nil]
  · obtain ⟨calls, metrics, notified, called⟩ := Dispatcher.notify_at_once h.isAlive h.synchronous
      (node.neighbours mesh) now event
    rw [Change.cache_of_on happened] at called
    refine ⟨calls, metrics, ?_, called⟩
    dsimp only [notify]
    rw [neighbours_setStore hosted, changed, ← notified]
    rfl

theorem TakesPart.take (h : node.TakesPart) (hosted : node.store? cache = some store)
    {call : Delivery} (reaches : node.cacheAt? call.url = some cache)
    (succeeds : call.failed = false) {message : Message} (asks : call.action = message.action) :
    node.take call = node.setStore cache (store.apply message) := by
  have applied : (Service.perform store message.action).2 = store.apply message := by
    cases message <;> rfl
  rw [Node.take, reaches, succeeds, h.listens, asks]
  dsimp only [Bool.not_false, Bool.and_true, if_true, serve]
  rw [Service.answer_of_served hosted, applied]
  rfl

end Node

namespace Cluster

/-! ## Changes in a cluster -/

/-- A change that is made at one of the nodes after a pause, and how their peers behave
meanwhile. -/
structure Write where
  pause : Nat
  node : String
  change : Node.Change
  mesh : Mesh

/-- What a change makes of the node where it is made, and the calls that it makes there. -/
def makeAt (cluster : Cluster) (cache : String) (write : Write) : Cluster × List Delivery :=
  match node? cluster write.node with
  | none => (cluster, [])
  | some node =>
    match node.store? cache with
    | none => (cluster, [])
    | some store =>
      let made := node.make (write.mesh.inTurn cluster.turn) cluster.now cache store write.change
      (afterStep cluster write.mesh write.node made,
        made.node.dispatcher.sent.drop node.dispatcher.sent.length)

def pause (cluster : Cluster) (write : Write) : Cluster :=
  cluster.advance (background write.mesh) write.pause

def callsOf (cluster : Cluster) (cache : String) (write : Write) : List Delivery :=
  ((pause cluster write).makeAt cache write).2

/-- A cluster after a write to a cache of one of its nodes: the others take the calls for it. -/
def perform (cache : String) (cluster : Cluster) (write : Write) : Cluster :=
  let (written, calls) := (pause cluster write).makeAt cache write
  { written with state := written.state.map fun node => calls.foldl Node.take node }

def performAll (cache : String) (cluster : Cluster) (writes : List Write) : Cluster :=
  writes.foldl (perform cache) cluster

/-- Nodes that take part, each at an address of its own. Each knows the others as peers of a cache
for good, and none of them by a second url. It may know peers elsewhere. -/
structure Joined (cache : String) (nodes : Table Node) : Prop where
  takesPart : ∀ name node, nodes.get? name = some node → node.TakesPart
  apart : ∀ name node other peer, nodes.get? name = some node → nodes.get? other = some peer →
    node.address = peer.address → name = other
  knows : ∀ name node other peer, nodes.get? name = some node → nodes.get? other = some peer →
    name ≠ other → ∃ seen, node.provider.registry.peers.get? (peer.listener.urlFor cache) =
      some ⟨seen, false⟩
  knowsOnce : ∀ name node other peer url, nodes.get? name = some node →
    nodes.get? other = some peer → url ∈ node.provider.registry.peers.names →
      PeerUrl.cacheName url = cache → (peer.cacheAt? url).isSome →
        url = peer.listener.urlFor cache

def Hold (cache : String) (store : Store) (nodes : Table Node) : Prop :=
  ∀ name node, nodes.get? name = some node → node.store? cache = some store

/-- All nodes but one answer in time when they are looked up. -/
def OthersAnswer (cache : String) (nodes : Table Node) (name : String) (mesh : Mesh)
    (now timeout : Nat) : Prop :=
  ∀ other peer, nodes.get? other = some peer → other ≠ name →
    (mesh.connect now (peer.listener.urlFor cache)).succeedsWithin timeout = true

/-- While a write is made, every look-up of another node and every call succeeds. -/
structure Succeeds (cluster : Cluster) (cache : String) (write : Write) : Prop where
  lookUps : ∀ node, node? cluster write.node = some node →
    OthersAnswer cache cluster.state write.node write.mesh (cluster.now + write.pause)
      node.lookupTimeout
  calls : ∀ call ∈ callsOf cluster cache write, call.failed = false

variable {cluster : Cluster} {nodes after : Table Node} {cache name other url : String}
  {node peer : Node} {store : Store} {mesh : Mesh} {now : Nat}

/-! ## What nodes know of one another -/

/-- Nodes of a cluster go on taking part when only their stores change, and what they have sent. -/
theorem Joined.later (h : Joined cache nodes)
    (later : ∀ name node, after.get? name = some node →
      ∃ before, nodes.get? name = some before ∧ before.IsLater node) : Joined cache after where
  takesPart name node known := by
    obtain ⟨before, knownBefore, later⟩ := later name node known
    exact (h.takesPart name before knownBefore).later later
  apart name node other peer known knownPeer same := by
    obtain ⟨before, knownBefore, _, _, _, _, rfl⟩ := later name node known
    obtain ⟨before', knownBefore', _, _, _, _, rfl⟩ := later other peer knownPeer
    exact h.apart name before other before' knownBefore knownBefore' same
  knows name node other peer known knownPeer ne := by
    obtain ⟨before, knownBefore, _, _, _, _, rfl⟩ := later name node known
    obtain ⟨before', knownBefore', _, _, _, _, rfl⟩ := later other peer knownPeer
    exact h.knows name before other before' knownBefore knownBefore' ne
  knowsOnce name node other peer url known knownPeer := by
    obtain ⟨before, knownBefore, _, _, _, _, rfl⟩ := later name node known
    obtain ⟨before', knownBefore', _, _, _, _, rfl⟩ := later other peer knownPeer
    exact h.knowsOnce name before other before' url knownBefore knownBefore'

theorem Joined.cacheAt?_urlFor (h : Joined cache nodes) (hosted : peer.store? cache = some store)
    (knownNode : nodes.get? name = some node) (knownPeer : nodes.get? other = some peer) :
    node.cacheAt? (peer.listener.urlFor cache) = if other = name then some cache else none := by
  have takesPart := h.takesPart other peer knownPeer
  rw [Node.cacheAt?_urlFor takesPart.known (takesPart.named hosted).1]
  by_cases same : other = name
  · subst same
    obtain rfl := Option.some.inj (knownNode.symm.trans knownPeer)
    rw [if_pos rfl, if_pos rfl]
  · rw [if_neg same, if_neg fun address => same (h.apart _ _ _ _ knownPeer knownNode address)]

theorem Joined.not_advertised (h : Joined cache nodes) (hosted : peer.store? cache = some store)
    (known : nodes.get? name = some node) (knownPeer : nodes.get? other = some peer)
    (ne : other ≠ name) : peer.listener.urlFor cache ∉ node.listener.advertised := by
  intro advertised
  obtain ⟨advertises, mem, same⟩ := Listener.mem_advertised_iff.1 advertised
  obtain ⟨held, found⟩ := Table.mem_names_iff.1 mem
  have takesPart := h.takesPart name node known
  -- the url would lead to the node as well
  have here : node.cacheAt? (node.listener.urlFor _) = _ :=
    Node.cacheAt?_urlFor takesPart.known (takesPart.named found).1
  have there := h.cacheAt?_urlFor hosted known knownPeer
  rw [if_neg ne, ← same, here, if_pos rfl] at there
  cases there

theorem Joined.found_iff (h : Joined cache nodes) (hold : Hold cache store nodes)
    (known : nodes.get? name = some node) (knownPeer : nodes.get? other = some peer)
    (answer : OthersAnswer cache nodes name mesh now node.lookupTimeout) :
    url ∈ ((node.neighbours mesh).lookUp now cache).found ∧ (peer.cacheAt? url).isSome ↔
      other ≠ name ∧ url = peer.listener.urlFor cache := by
  rw [Neighbours.mem_found_iff]
  constructor
  · rintro ⟨⟨named, live, notLocal, -⟩, leads⟩
    have registered : url ∈ node.provider.registry.peers.names := by
      rw [← Registry.contains_iff_mem_live, Registry.contains, Option.any_eq_true] at live
      obtain ⟨sighting, registered, -⟩ := live
      exact Table.mem_names_iff.2 ⟨sighting, registered⟩
    obtain rfl := h.knowsOnce name node other peer url known knownPeer registered named leads
    refine ⟨?_, rfl⟩
    rintro rfl
    obtain rfl := Option.some.inj (known.symm.trans knownPeer)
    exact notLocal (Listener.urlFor_mem_advertised_iff.2
      (Table.mem_names_iff.2 ⟨store, hold _ _ known⟩))
  · rintro ⟨ne, rfl⟩
    have hosted := hold other peer knownPeer
    obtain ⟨named, clean⟩ := (h.takesPart other peer knownPeer).named hosted
    obtain ⟨seen, registered⟩ := h.knows name node other peer known knownPeer (Ne.symm ne)
    have live : peer.listener.urlFor cache ∈ node.provider.registry.live now :=
      Registry.contains_iff_mem_live.1 (Registry.contains_of_permanent registered now)
    refine ⟨⟨PeerUrl.cacheName_format _ _ clean, live,
      h.not_advertised hosted known knownPeer ne, answer other peer knownPeer ne⟩, ?_⟩
    rw [h.cacheAt?_urlFor hosted knownPeer knownPeer, if_pos rfl]
    rfl

/-! ## One write -/

theorem background_eq (takePart : ∀ name node, nodes.get? name = some node → node.TakesPart)
    (mesh : Mesh) (turn now limit : Nat) : background mesh turn now limit nodes = nodes := by
  refine Table.ext_get? fun name => ?_
  rw [background, Table.get?_map]
  rcases known : nodes.get? name with _ | node
  · rfl
  · rw [Option.map_some, (takePart name node known).run]

theorem afterStep_state {step : Node.Step Unit}
    (takePart : ∀ other peer, (cluster.state.insert name step.node).get? other = some peer →
      peer.TakesPart) (mesh : Mesh) :
    (afterStep cluster mesh name step).state = cluster.state.insert name step.node := by
  unfold afterStep set Clocked.waitUntil
  dsimp only
  split
  · exact background_eq takePart _ _ _ _
  · rfl

theorem makeAt_eq {write : Write} (known : nodes.get? write.node = some node)
    (hosted : node.store? cache = some store) {turn : Nat} {calls : List Delivery}
    {metrics : Metrics}
    (made : (node.make (write.mesh.inTurn turn) now cache store write.change).node =
      node.changed cache (write.change.on cache store).1 calls metrics) :
    makeAt ⟨now, turn, nodes⟩ cache write =
      (afterStep ⟨now, turn, nodes⟩ write.mesh write.node
        (node.make (write.mesh.inTurn turn) now cache store write.change), calls) := by
  unfold makeAt node?
  dsimp only
  rw [known]
  dsimp only
  rw [hosted]
  dsimp only
  rw [made]
  simp [Node.changed]

theorem Joined.perform_eq (h : Joined cache cluster.state) (hold : Hold cache store cluster.state)
    {write : Write} (known : node? cluster write.node = some node) :
    ∃ metrics,
      (node.neighbours (write.mesh.inTurn (cluster.turn + 2))).Calls (cluster.now + write.pause)
        cache (write.change.message? node.dispatcher.settings cache store)
        (callsOf cluster cache write) ∧
      ∀ name, (perform cache cluster write).state.get? name =
        (if name = write.node then
          some (node.changed cache (write.change.on cache store).1 (callsOf cluster cache write)
            metrics)
        else cluster.state.get? name).map ((callsOf cluster cache write).foldl Node.take) := by
  have takesPart := h.takesPart write.node node known
  have hosted : node.store? cache = some store := hold write.node node known
  have paused : pause cluster write =
      ⟨cluster.now + write.pause, cluster.turn + 2, cluster.state⟩ := by
    rw [pause, Clocked.advance, background_eq h.takesPart]
  obtain ⟨calls, metrics, made, called⟩ := takesPart.make hosted
    (write.mesh.inTurn (cluster.turn + 2)) (cluster.now + write.pause) write.change
  have takePart (other : String) (peer : Node) (found : (cluster.state.insert write.node
      (node.changed cache (write.change.on cache store).1 calls metrics)).get? other = some peer) :
      peer.TakesPart := by
    rw [Table.get?_insert] at found
    split at found
    · obtain rfl := Option.some.inj found
      exact takesPart.later (Node.isLater_changed hosted _ calls metrics)
    · exact h.takesPart other peer found
  have written := makeAt_eq known hosted made
  rw [← paused] at written
  have one : callsOf cluster cache write = calls := by rw [callsOf, written]
  refine ⟨metrics, one ▸ called, fun name => ?_⟩
  rw [perform, written, one]
  dsimp only
  rw [Table.get?_map, afterStep_state, made, paused, Table.get?_insert]
  rw [made, paused]
  exact takePart

theorem Joined.callsAt_self (h : Joined cache nodes) (hold : Hold cache store nodes)
    (known : nodes.get? name = some node)
    (answer : OthersAnswer cache nodes name mesh now node.lookupTimeout)
    {message? : Option Message} {calls : List Delivery}
    (called : (node.neighbours mesh).Calls now cache message? calls) : node.callsAt calls = [] := by
  rw [Node.callsAt, List.filter_eq_nil_iff]
  intro call mem leads
  rcases message? with _ | message
  · exact List.not_mem_nil ((show calls = [] from called) ▸ mem)
  · have found : call.url ∈ ((node.neighbours mesh).lookUp now cache).found :=
      called.1 ▸ List.mem_map_of_mem mem
    exact ((h.found_iff hold known known answer).1 ⟨found, leads⟩).1 rfl

/-- One call leads to each of the other nodes, if there is a message at all. -/
theorem Joined.callsAt_other (h : Joined cache nodes) (hold : Hold cache store nodes)
    (known : nodes.get? name = some node)
    (answer : OthersAnswer cache nodes name mesh now node.lookupTimeout)
    {message : Message} {calls : List Delivery}
    (called : (node.neighbours mesh).Calls now cache (some message) calls)
    (knownPeer : nodes.get? other = some peer) (ne : other ≠ name) :
    ∃ call ∈ calls, peer.callsAt calls = [call] ∧ peer.cacheAt? call.url = some cache ∧
      call.action = message.action := by
  obtain ⟨urls, asked⟩ := called
  have leads : peer.cacheAt? (peer.listener.urlFor cache) = some cache := by
    rw [h.cacheAt?_urlFor (hold other peer knownPeer) knownPeer knownPeer, if_pos rfl]
  have only : peer.callsAt calls = callsTo (peer.listener.urlFor cache) calls := by
    refine List.filter_congr fun call mem => ?_
    have found : call.url ∈ ((node.neighbours mesh).lookUp now cache).found :=
      urls ▸ List.mem_map_of_mem mem
    rw [Bool.eq_iff_iff, beq_iff_eq]
    constructor
    · exact fun reaches => ((h.found_iff hold known knownPeer answer).1 ⟨found, reaches⟩).2
    · intro same
      rw [same, leads]
      rfl
  have nodup : (calls.map (·.url)).Nodup := urls ▸ Neighbours.nodup_found _ _ _
  rcases callsTo_of_nodup nodup (peer.listener.urlFor cache) with
    ⟨-, missed⟩ | ⟨call, mem, url, one⟩
  · obtain ⟨found, -⟩ := (h.found_iff hold known knownPeer answer).2 ⟨ne, rfl⟩
    obtain ⟨call, mem, same⟩ := List.mem_map.1 (urls.symm ▸ found)
    exact absurd same (missed call mem)
  · exact ⟨call, mem, only.trans one, url ▸ leads, asked call mem⟩

/-- A write is carried over to all nodes. Those where it is not made do nothing else. -/
theorem Joined.perform (h : Joined cache cluster.state) (hold : Hold cache store cluster.state)
    {write : Write} (known : node? cluster write.node = some node)
    (succeeds : Succeeds cluster cache write) :
    ∃ metrics, ∀ name, (perform cache cluster write).state.get? name =
      if name = write.node then
        some (node.changed cache (write.change.on cache store).1
          (callsOf cluster cache write) metrics)
      else (cluster.state.get? name).map (·.setStore cache (write.change.on cache store).1) := by
  obtain ⟨metrics, called, left⟩ := h.perform_eq hold known
  have takesPart := h.takesPart write.node node known
  have answer := succeeds.lookUps node known
  have same : store.applyAll
      (write.change.message? node.dispatcher.settings cache store).toList =
        (write.change.on cache store).1 :=
    write.change.same takesPart.replicates takesPart.puts takesPart.updates
  refine ⟨metrics, fun name => (left name).trans ?_⟩
  split
  · rw [Option.map_some, Node.foldl_take]
    -- the address of a node does not change with its caches
    change some ((node.callsAt _).foldl Node.take _) = _
    rw [h.callsAt_self hold known answer called]
    rfl
  next ne =>
    rcases knownPeer : cluster.state.get? name with _ | peer
    · rfl
    have hosted := hold name peer knownPeer
    rw [Option.map_some, Option.map_some, Node.foldl_take]
    rcases sent : write.change.message? node.dispatcher.settings cache store with _ | message
    · rw [sent] at called same
      rw [show callsOf cluster cache write = [] from called, ← same, Node.setStore,
        Listener.serveCache]
      exact congrArg (fun caches => some { peer with
        listener := { peer.listener with caches } }) (Table.insert_held hosted).symm
    · rw [sent] at called same
      obtain ⟨call, mem, one, leads, asked⟩ :=
        h.callsAt_other hold known answer called knownPeer ne
      rw [one, ← same]
      exact congrArg some ((h.takesPart name peer knownPeer).take hosted leads
        (succeeds.calls call mem) asked)

theorem Joined.becomes (h : Joined cache cluster.state) (hold : Hold cache store cluster.state)
    {write : Write} (known : node? cluster write.node = some node)
    (succeeds : Succeeds cluster cache write) (found : node? cluster name = some peer) :
    ∃ after, node? (Cluster.perform cache cluster write) name = some after ∧ peer.IsLater after ∧
      after.store? cache = some (write.change.on cache store).1 ∧
      after.deliveries =
        peer.deliveries ++ if name = write.node then callsOf cluster cache write else [] := by
  obtain ⟨metrics, left⟩ := h.perform hold known succeeds
  have hosted := hold name peer found
  rw [node?, left]
  split
  next own =>
    subst own
    obtain rfl := Option.some.inj (known.symm.trans found)
    have noQueues := (h.takesPart write.node node known).noQueues
    refine ⟨_, rfl, Node.isLater_changed hosted _ _ _, ?_, ?_⟩
    · exact (Node.store?_setStore node cache cache _).trans (if_pos rfl)
    · rw [Node.deliveries, Node.deliveries, Dispatcher.deliveries_of_no_queues noQueues,
        List.append_assoc]
      exact congrArg _ (Dispatcher.deliveries_of_no_queues noQueues)
  next =>
    rw [show cluster.state.get? name = some peer from found]
    refine ⟨_, rfl, Node.isLater_setStore hosted _, ?_, (List.append_nil _).symm⟩
    exact (Node.store?_setStore peer cache cache _).trans (if_pos rfl)

theorem Joined.names_perform (h : Joined cache cluster.state)
    (hold : Hold cache store cluster.state) {write : Write}
    (known : node? cluster write.node = some node) (succeeds : Succeeds cluster cache write) :
    (Cluster.perform cache cluster write).state.names = cluster.state.names := by
  obtain ⟨metrics, left⟩ := h.perform hold known succeeds
  refine (Table.sorted_names _).eq_of_mem_iff (Table.sorted_names _) fun name => ?_
  rw [Table.mem_names_iff, Table.mem_names_iff]
  constructor
  · rintro ⟨after, found⟩
    rw [left] at found
    split at found
    next own => exact ⟨node, own ▸ known⟩
    next =>
      obtain ⟨before, found, -⟩ := Option.map_eq_some_iff.1 found
      exact ⟨before, found⟩
  · rintro ⟨before, found⟩
    obtain ⟨after, found, -⟩ := h.becomes hold known succeeds found
    exact ⟨after, found⟩

theorem Joined.messages_le (h : Joined cache cluster.state) (hold : Hold cache store cluster.state)
    {write : Write} (known : node? cluster write.node = some node)
    (succeeds : Succeeds cluster cache write) (found : node? cluster name = some peer) :
    ((peer.callsAt (callsOf cluster cache write)).flatMap messages).length ≤
      if name = write.node then 0 else 1 := by
  obtain ⟨-, called, -⟩ := h.perform_eq hold known
  have answer := succeeds.lookUps node known
  split
  next own =>
    subst own
    obtain rfl := Option.some.inj (known.symm.trans found)
    rw [h.callsAt_self hold known answer called]
    exact Nat.le_refl 0
  next ne =>
    rcases sent : write.change.message? node.dispatcher.settings cache store with _ | message
    · rw [sent] at called
      rw [show callsOf cluster cache write = [] from called]
      exact Nat.zero_le 1
    · rw [sent] at called
      obtain ⟨call, -, one, -, asked⟩ := h.callsAt_other hold known answer called found ne
      rw [one, List.flatMap_singleton, Dispatcher.messages_of_action asked]
      exact Nat.le_refl 1

/-- A write leaves the nodes joined, and all of them hold what it makes of the store. -/
theorem Joined.carried (h : Joined cache cluster.state) (hold : Hold cache store cluster.state)
    {write : Write} (known : node? cluster write.node = some node)
    (succeeds : Succeeds cluster cache write) :
    Joined cache (Cluster.perform cache cluster write).state ∧
      Hold cache (write.change.on cache store).1 (Cluster.perform cache cluster write).state := by
  have names := h.names_perform hold known succeeds
  have was (name : String) (after : Node)
      (found : (Cluster.perform cache cluster write).state.get? name = some after) :
      ∃ before, cluster.state.get? name = some before ∧ before.IsLater after ∧
        after.store? cache = some (write.change.on cache store).1 := by
    obtain ⟨before, foundBefore⟩ :=
      Table.mem_names_iff.1 (names ▸ Table.mem_names_iff.2 ⟨after, found⟩)
    obtain ⟨after', found', later, holds, -⟩ := h.becomes hold known succeeds foundBefore
    obtain rfl := Option.some.inj (found.symm.trans found')
    exact ⟨before, foundBefore, later, holds⟩
  constructor
  · refine h.later fun name after found => ?_
    obtain ⟨before, foundBefore, later, -⟩ := was name after found
    exact ⟨before, foundBefore, later⟩
  · intro name after found
    obtain ⟨-, -, -, holds⟩ := was name after found
    exact holds

/-! ## Runs -/

theorem Joined.performAll (h : Joined cache cluster.state) (hold : Hold cache store cluster.state)
    {writes : List Write} (among : ∀ write ∈ writes, write.node ∈ cluster.state.names)
    (succeed : ∀ before write later, writes = before ++ write :: later →
      Succeeds (performAll cache cluster before) cache write) :
    Joined cache (performAll cache cluster writes).state ∧
      Hold cache (writes.foldl (fun store write => (write.change.on cache store).1) store)
        (performAll cache cluster writes).state ∧
      (performAll cache cluster writes).state.names = cluster.state.names := by
  induction writes generalizing cluster store with
  | nil => exact ⟨h, hold, rfl⟩
  | cons write writes ih =>
    obtain ⟨first, others⟩ := List.forall_mem_cons.1 among
    obtain ⟨node, known⟩ := Table.mem_names_iff.1 first
    have succeeds := succeed [] write writes rfl
    have kept := h.names_perform hold known succeeds
    obtain ⟨joined, holds⟩ := h.carried hold known succeeds
    rw [← kept] at others
    obtain ⟨joined, holds, names⟩ := ih joined holds others
      fun before other later split => succeed (write :: before) other later (congrArg _ split)
    exact ⟨joined, holds, names.trans kept⟩

/-- In a cluster of any number of nodes that replicate at once and know one another as the peers of
a cache, which all of them hold alike: after any changes of the cache, one after the other at any of
the nodes and with every look-up and call succeeding, all nodes hold what the changes make of it.
Each change sends at most one message to each other node and none to its own, and no other node
sends anything. -/
theorem synchronous_nodes_converge (cluster : Cluster) (cache : String) (store : Store)
    (writes : List Write) (joined : Joined cache cluster.state)
    (hold : Hold cache store cluster.state)
    (among : ∀ write ∈ writes, write.node ∈ cluster.state.names)
    (succeed : ∀ before write later, writes = before ++ write :: later →
      Succeeds (performAll cache cluster before) cache write) :
    (performAll cache cluster writes).state.names = cluster.state.names ∧
    Hold cache (writes.foldl (fun store write => (write.change.on cache store).1) store)
      (performAll cache cluster writes).state ∧
    ∀ before write later, writes = before ++ write :: later →
      let earlier := performAll cache cluster before
      let calls := callsOf earlier cache write
      ∀ name node, node? earlier name = some node → ∃ after,
        node? (perform cache earlier write) name = some after ∧
        after.deliveries = node.deliveries ++ (if name = write.node then calls else []) ∧
        ((node.callsAt calls).flatMap messages).length ≤ if name = write.node then 0 else 1 := by
  obtain ⟨-, holds, names⟩ := joined.performAll hold among succeed
  refine ⟨names, holds, ?_⟩
  rintro before write later rfl
  obtain ⟨first, second⟩ := List.forall_mem_append.1 among
  obtain ⟨joined, holds, names⟩ := joined.performAll hold first fun earlier other between split =>
    succeed earlier other (between ++ write :: later) (by rw [split, List.append_assoc]; rfl)
  obtain ⟨node, known⟩ := Table.mem_names_iff.1 (names ▸ second write List.mem_cons_self)
  intro earlier calls name peer found
  have succeeds := succeed before write later rfl
  obtain ⟨after, foundAfter, -, -, sent⟩ := joined.becomes holds known succeeds found
  exact ⟨after, foundAfter, sent, joined.messages_le holds known succeeds found⟩

/-- A node that knows others on the same machine. -/
def neighbour (port : Nat) (others : List Nat) : Node where
  listener := {
    host := "localhost", requestedPort := port, caches := .ofList [("c", ∅)], isRunning := true }
  provider := .manual (others.map fun other => PeerUrl.format "localhost" other "c")
  dispatcher := { settings := { asynchronous := false } }
  loader := none
  lookupTimeout := 10
  isRunning := true

/-- Three nodes that know one another. -/
def three : List (String × Node) :=
  [("a", neighbour 4000 [4001, 4002]), ("b", neighbour 4001 [4000, 4002]),
    ("d", neighbour 4002 [4000, 4001])]

def trio : Cluster where
  state := .ofList three

def putAt (name : String) (value : List UInt8) : Write where
  pause := 5
  node := name
  change := .put ⟨"k", value, 1, 0⟩
  mesh := { connect _ _ := ⟨0, .ok ()⟩, call _ _ _ := ⟨2, .ok .ok⟩ }

theorem takesPart_neighbour (port : Nat) (others : List Nat) :
    (neighbour port others).TakesPart where
  inOrder := by
    constructor
    · have named : ∀ name ∈ ["c"], Node.isCacheName name = true := by decide +kernel
      exact named
    · have known : Address.isKnownHost "localhost" = true := by decide +kernel
      exact fun _ => known
  isRunning := rfl
  listens := rfl
  settled := nofun
  isAlive := rfl
  synchronous := rfl
  noQueues := rfl
  replicates := ⟨rfl, rfl, rfl⟩
  puts := rfl
  updates := rfl

theorem neighbour_of_mem_three {e : String × Node} (mem : e ∈ three) :
    ∃ port others, e.2 = neighbour port others := by
  simp only [three, List.mem_cons, List.not_mem_nil, or_false] at mem
  rcases mem with rfl | rfl | rfl <;> exact ⟨_, _, rfl⟩

theorem joined_trio : Joined "c" trio.state where
  takesPart := by
    refine Table.of_get?_ofList Node.TakesPart fun e mem => ?_
    obtain ⟨port, others, same⟩ := neighbour_of_mem_three mem
    exact same ▸ takesPart_neighbour port others
  apart name node other peer known knownPeer := by
    have apart : ∀ e ∈ trio.state.entries, ∀ e' ∈ trio.state.entries,
        e.2.address = e'.2.address → e.1 = e'.1 := by decide +kernel
    exact apart (name, node) ((Table.mem_entries_iff _ _ _).2 known) (other, peer)
      ((Table.mem_entries_iff _ _ _).2 knownPeer)
  knows name node other peer known knownPeer ne := by
    have knows : ∀ e ∈ trio.state.entries, ∀ e' ∈ trio.state.entries, e.1 ≠ e'.1 →
        e.2.provider.registry.peers.get? (e'.2.listener.urlFor "c") = some ⟨0, false⟩ := by
      decide +kernel
    exact ⟨0, knows (name, node) ((Table.mem_entries_iff _ _ _).2 known) (other, peer)
      ((Table.mem_entries_iff _ _ _).2 knownPeer) ne⟩
  knowsOnce name node other peer url known knownPeer registered _ := by
    have knowsOnce : ∀ e ∈ trio.state.entries, ∀ e' ∈ trio.state.entries,
        ∀ url ∈ e.2.provider.registry.peers.names,
          (e'.2.cacheAt? url).isSome → url = e'.2.listener.urlFor "c" := by decide +kernel
    exact knowsOnce (name, node) ((Table.mem_entries_iff _ _ _).2 known) (other, peer)
      ((Table.mem_entries_iff _ _ _).2 knownPeer) url registered

/-- Two puts at different nodes leave the later one at all three, and the second put calls each of
the other two once. -/
theorem converges_after_two_puts :
    let writes := [putAt "a" [1], putAt "b" [2]]
    let ended := performAll "c" trio writes
    ended.state.names = ["a", "b", "d"] ∧ Hold "c" (Store.put ∅ ⟨"k", [2], 1, 0⟩) ended.state ∧
      (callsOf (perform "c" trio (putAt "a" [1])) "c" (putAt "b" [2])).map (·.url) =
        ["tcp://localhost:4000/c", "tcp://localhost:4002/c"] := by
  have hold : Hold "c" ∅ trio.state := by
    refine Table.of_get?_ofList (fun node : Node => node.store? "c" = some ∅) fun e mem => ?_
    obtain ⟨port, others, same⟩ := neighbour_of_mem_three mem
    exact same ▸ rfl
  obtain ⟨names, holds, -⟩ := synchronous_nodes_converge trio "c" ∅ [putAt "a" [1], putAt "b" [2]]
    joined_trio hold (by decide +kernel) (by
      rintro (_ | ⟨first, _ | ⟨second, before⟩⟩) write later split
      · obtain ⟨rfl, -⟩ := List.cons.inj split
        exact ⟨fun _ _ _ _ _ _ => rfl, by decide +kernel⟩
      · obtain ⟨same, split⟩ := List.cons.inj split
        obtain ⟨rfl, -⟩ := List.cons.inj split
        subst first
        exact ⟨fun _ _ _ _ _ _ => rfl, by decide +kernel⟩
      · simp at split)
  exact ⟨names.trans (by decide +kernel), holds, by decide +kernel⟩

end Cluster

end CacheCluster
