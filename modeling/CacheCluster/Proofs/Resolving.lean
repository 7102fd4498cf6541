import CacheCluster.Proofs.KeptHandles
import CacheCluster.Proofs.RemoteOperations
import CacheCluster.Proofs.UrlReadings

/-! # Handles that a lookup gives

The peers of a cache are the urls whose last piece is its name, and the handle of such a url asks
for what follows the first slash after the address. Where that has a slash of its own, the peers of
a cache are asked for another one.
-/

namespace CacheCluster

open Connector

/-! ## What a handle asks for -/

/-- A world that a connector which has made no handles comes to. -/
def Connector.World.IsReached (world : World) : Prop :=
  ∃ (start : World) (happenings : List Happening),
    start.connector.handles = ∅ ∧ start.run happenings = world

/-- The handles that are found for a cache, in the order of their urls. Each url is looked up in the
world of its turn, or in none if that takes too long. -/
def Neighbours.handlesFor (neighbours : Neighbours) (now : Nat) (cache : String)
    (turn : String → Option World) : List Handle :=
  (neighbours.urlsFor now cache).filterMap fun url =>
    (turn url).bind fun world =>
      (world.connector.connect world.network world.now url).result.toOption

variable {url address cache : String} {world : World} {handle : Handle}

theorem Connector.World.isReached_of_new (new : world.connector.handles = ∅) : world.IsReached :=
  ⟨world, [], new, rfl⟩

theorem parse_of_handleFor (reached : world.IsReached)
    (found : world.connector.handleFor url = .ok handle) :
    handle.url = url ∧ PeerUrl.parse url = .ok (handle.address, handle.cache) := by
  obtain ⟨start, happenings, new, rfl⟩ := reached
  obtain ⟨address, cache, read, same⟩ :=
    Handle.ofUrl_eq_ok_iff.1 (sound_run new happenings handle found).named
  injection same with same_url same_address same_cache
  exact ⟨same_url.symm, by rw [read, same_address, same_cache]⟩

theorem parse_of_connect (reached : world.IsReached)
    (connected : (world.connector.connect world.network world.now url).result = .ok handle) :
    handle.url = url ∧ PeerUrl.parse url = .ok (handle.address, handle.cache) := by
  unfold connect ping at connected
  rcases found : world.connector.handleFor url with error | before
  · simp [found, Except.map] at connected
  · obtain ⟨kept, same⟩ := Handle.call_same before world.network world.now .answered .ping
    have made : (before.call world.network world.now .answered .ping).handle = handle := by
      rw [found] at connected
      dsimp only [Except.map] at connected
      split at connected
      · cases connected
      · exact Except.ok.inj connected
    rw [← made, same]
    have read := parse_of_handleFor reached found
    exact read

theorem mem_handlesFor {neighbours : Neighbours} {now : Nat} {turn : String → Option World}
    (reached : ∀ url world, turn url = some world → world.IsReached)
    (found : handle ∈ neighbours.handlesFor now cache turn) :
    handle.url ∈ neighbours.urlsFor now cache ∧
      PeerUrl.parse handle.url = .ok (handle.address, handle.cache) := by
  obtain ⟨url, listed, found⟩ := List.mem_filterMap.1 found
  obtain ⟨world, turned, connected⟩ := Option.bind_eq_some_iff.1 found
  rcases result : (world.connector.connect world.network world.now url).result with error | other
  · simp [result, Except.toOption] at connected
  · obtain rfl : other = handle := by simpa [result, Except.toOption] using connected
    obtain ⟨rfl, read⟩ := parse_of_connect (reached url world turned) result
    exact ⟨listed, read⟩

theorem handlesFor_singleton {neighbours : Neighbours} {now : Nat} {turn : String → Option World}
    (listed : neighbours.urlsFor now cache = [url]) (turned : turn url = some world)
    (connected : (world.connector.connect world.network world.now url).result = .ok handle) :
    neighbours.handlesFor now cache turn = [handle] := by
  simp [Neighbours.handlesFor, listed, turned, connected, Except.toOption]

/-! ## Which handles are found -/

/-- There is one handle for each listed url that connecting succeeds for in its turn. -/
theorem map_url_handlesFor {neighbours : Neighbours} {now : Nat} {turn : String → Option World}
    (reached : ∀ url world, turn url = some world → world.IsReached) :
    (neighbours.handlesFor now cache turn).map Handle.url =
      (neighbours.urlsFor now cache).filter fun url => (turn url).any fun world =>
        (world.connector.connect world.network world.now url).result.toBool := by
  unfold Neighbours.handlesFor
  induction neighbours.urlsFor now cache with
  | nil => rfl
  | cons url urls ih =>
    rw [List.filterMap_cons, List.filter_cons, ← ih]
    rcases turned : turn url with _ | world
    · rfl
    · rcases result : (world.connector.connect world.network world.now url).result with _ | handle
      · simp [result, Except.toOption, Except.toBool]
      · obtain ⟨same, -⟩ := parse_of_connect (reached url world turned) result
        simp [result, Except.toOption, Except.toBool, same]

theorem Network.toBool_ask_ping_iff (network : Network) (now : Nat) (url : String) :
    (network.ask now url .ping).toBool = true ↔ network.Hosts url := by
  unfold ask
  rcases named : Handle.ofUrl url 0 with error | handle
  · exact iff_of_false nofun fun hosts => hosts.not_error named
  · have closed := connection_of_ofUrl named
    have same : Handle.ofUrl url 0 = .ok { handle with connection := none } := by
      rw [named, ← closed]
    rw [hosts_iff same, ← Handle.succeeds_call_of_closed closed]
    dsimp only
    rcases (handle.call network now .answered .ping).result with _ | error | response
    · exact iff_of_false nofun nofun
    · exact iff_of_false nofun nofun
    · exact iff_of_true rfl ⟨response, rfl⟩

theorem Network.succeedsWithin_mesh_iff (network : Network) (now timeout : Nat) (url : String) :
    (network.mesh.connect now url).succeedsWithin timeout = true ↔ network.Hosts url := by
  have connecting : network.mesh.connect now url =
      { outcome := (network.ask now url .ping).map fun _ => () } := rfl
  rw [connecting, ← network.toBool_ask_ping_iff now, Attempt.succeedsWithin, Attempt.within,
    if_pos (Nat.zero_le _)]
  rcases network.ask now url .ping with error | response <;> exact Iff.rfl

/-- A lookup over the mesh of a network finds the urls of the handles that a new connector gives. -/
theorem map_url_handlesFor_of_new {neighbours : Neighbours} {now timeout : Nat} {network : Network}
    (mesh : neighbours.mesh = network.mesh) :
    let world : World := { now, network, connector := { timeout } }
    (neighbours.handlesFor now cache fun _ => some world).map Handle.url =
      (neighbours.lookUp now cache).found := by
  intro world
  have reached (url : String) (other : World) (turned : some world = some other) :
      other.IsReached := by
    cases turned
    exact World.isReached_of_new rfl
  refine (map_url_handlesFor reached).trans (List.filter_congr fun url _ => ?_)
  have anew : world.Finds url ↔ network.Hosts url := finds_anew_iff world url
  rw [Bool.eq_iff_iff, mesh, Network.succeedsWithin_mesh_iff, ← anew, World.finds_iff_toBool]
  rfl

/-! ## What calls of the handles bring about -/

theorem Network.stored?_answering (network : Network) (address : String) (request : Request)
    (other cache : String) :
    (network.answering address request).stored? other cache =
      if other = address ∧ cache = request.cache then
        (network.stored? other cache).map fun store => (Service.perform store request.action).2
      else network.stored? other cache := by
  unfold stored? answering
  rw [get?_atAddress]
  by_cases here : other = address
  · subst here
    rcases network.listeners.get? other with _ | listener
    · simp
    simp only [if_true, Option.map_some, Option.bind_some, true_and]
    by_cases asked : cache = request.cache
    · subst asked
      rw [if_pos rfl]
      rcases served : listener.caches.get? request.cache with _ | store
      · rw [Service.answer_of_not_served served, served, Option.map_none]
      · rw [Service.answer_of_served served, Table.get?_insert, if_pos rfl, Option.map_some]
    · rw [if_neg asked, Service.get?_answer_of_ne asked]
  · rw [if_neg here, if_neg fun both => here both.1]

/-- A lookup reads in a url the last piece of the name that a connection reads in it, which is that
name exactly if it has no slash. So each handle that is found for a cache is one of a listed url of
the cache, and all that its calls can bring about is that the listener at its address answers
requests for the name a connection reads; that name ends in the name of the cache, and is it exactly
if it has no slash. -/
theorem handles_ask_for_parsed_name (neighbours : Neighbours) (now : Nat) (cache : String)
    (turn : String → Option World)
    (reached : ∀ url world, turn url = some world → world.IsReached) :
    (∀ url address name, PeerUrl.parse url = .ok (address, name) →
      PeerUrl.cacheName url = PeerUrl.cacheName name ∧
        (PeerUrl.cacheName url = name ↔ '/' ∉ name.toList)) ∧
    ∀ handle ∈ neighbours.handlesFor now cache turn,
      handle.url ∈ neighbours.urlsFor now cache ∧
      PeerUrl.parse handle.url = .ok (handle.address, handle.cache) ∧
      PeerUrl.cacheName handle.cache = cache ∧
      (handle.cache = cache ↔ '/' ∉ handle.cache.toList) ∧
      ∀ network now fate action,
        let after := (handle.call network now fate action).network
        after = network ∨ after = network.answering handle.address ⟨handle.cache, action⟩ := by
  constructor
  · intro url address name read
    have last := PeerUrl.cacheName_of_parse read
    exact ⟨last, by rw [last, PeerUrl.cacheName_eq_self_iff]⟩
  · intro handle found
    obtain ⟨listed, read⟩ := mem_handlesFor reached found
    have last : PeerUrl.cacheName handle.cache = cache := by
      rw [← PeerUrl.cacheName_of_parse read]
      simpa [PeerUrl.isFor] using (Bool.and_eq_true_iff.1 (List.mem_filter.1 listed).2).1
    refine ⟨listed, read, last, ?_, handle.call_asks⟩
    rw [← PeerUrl.cacheName_eq_self_iff, last, eq_comm]

/-! ### A name that ends in another -/

/-- A network whose one listener has a cache "a/b" beside a cache "b". -/
def slashed : Network where
  listeners := .ofList [("127.0.0.1:4000",
    { Handle.keeper with caches := .ofList [("a/b", ∅), ("b", ∅)] })]

/-- The url of the first cache is known. -/
def besideSlashed : Neighbours where
  registry := Registry.register {} 0 "tcp://127.0.0.1:4000/a/b"
  mesh := slashed.mesh

def lookingAtSlashed : World where
  network := slashed
  connector := { timeout := 1000 }

theorem parse_slashed :
    PeerUrl.parse "tcp://127.0.0.1:4000/a/b" = .ok ("127.0.0.1:4000", "a/b") := by
  decide +kernel

theorem hosts_slashed : slashed.Hosts "tcp://127.0.0.1:4000/a/b" := by
  have fits : Request.fits ⟨"a/b", .ping⟩ = true := by
    have name : (Json.string "a/b").size = 5 := by
      simp only [Json.size_string]
      decide +kernel
    rw [Request.fits_iff]
    simp only [Request.toJson, Request.Action.shape, Wire.size_tagged, List.map_cons, List.map_nil,
      List.sum_cons, List.sum_nil, size_texts, name, Frame.maxBytes]
    decide
  exact ⟨_, _, parse_slashed, fits, ⟨by decide +kernel, rfl⟩, _, rfl, rfl, rfl⟩

/-- A lookup of "b" gives one handle. It asks for "a/b", and no call of it touches "b". -/
theorem lookup_asks_for_longer_name :
    let turn (_ : String) := some lookingAtSlashed
    ∃ handle, besideSlashed.handlesFor 0 "b" turn = [handle] ∧ handle.cache = "a/b" ∧
      ∀ network now fate action, (handle.call network now fate action).network.stored?
        handle.address "b" = network.stored? handle.address "b" := by
  intro turn
  have reached : ∀ url world, turn url = some world → world.IsReached := by
    rintro url world ⟨⟩
    exact World.isReached_of_new rfl
  have urls : besideSlashed.urlsFor 0 "b" = ["tcp://127.0.0.1:4000/a/b"] := by decide +kernel
  have new : lookingAtSlashed.anew = lookingAtSlashed := rfl
  obtain ⟨handle, connected⟩ := new ▸ (finds_anew_iff lookingAtSlashed _).2 hosts_slashed
  have found : besideSlashed.handlesFor 0 "b" turn = [handle] :=
    handlesFor_singleton urls rfl connected
  obtain ⟨-, leads⟩ := handles_ask_for_parsed_name besideSlashed 0 "b" turn reached
  obtain ⟨listed, read, -, -, asks⟩ := leads handle (by simp [found])
  have name : handle.cache = "a/b" := by
    rw [urls, List.mem_singleton] at listed
    rw [listed, parse_slashed] at read
    exact (Prod.mk.inj (Except.ok.inj read)).2.symm
  refine ⟨handle, found, name, fun network now fate action => ?_⟩
  rcases asks network now fate action with same | answered
  · rw [same]
  · have other : "b" ≠ handle.cache := by
      rw [name]
      decide
    rw [answered, Network.stored?_answering, if_neg fun both => other both.2]

end CacheCluster
