import Mathlib.Data.List.Induction
import CacheCluster.Proofs.Reaching

/-! # Handles that are kept

A connector keeps the handle of each url with its connection, which the listener closes when it
stops and when the connection has been idle for too long. The handle learns of that only from a call
that fails, so that a peer can look absent to the connector which a new one would find.
-/

namespace CacheCluster

namespace Connector

/-- A connector and the network around it, at a time. -/
structure World where
  now : Nat := 0
  network : Network
  connector : Connector

/-- Something that happens to a connector, to its handles or at an address. -/
inductive Happening
  | connect (url : String) (fate : Fate)
  | call (url : String) (fate : Fate) (action : Request.Action)
  | start (address : String)
  | stop (address : String)
  /-- Caches are added and removed at an address, and others write to them. -/
  | serve (address : String) (change : Table Store → Table Store)
  | pass (milliseconds : Nat)

namespace Happening

/-- Whether the handle of a url comes to do something. -/
def Uses (url : String) : Happening → Prop
  | connect other fate | call other fate _ => other = url ∧ fate ≠ .dropped .connecting
  | _ => False

/-- Whether a call of the handle of a url is dropped when it has begun. -/
def Abandons (url : String) : Happening → Prop
  | connect other fate | call other fate _ => other = url ∧ fate.isAbandoned = true
  | _ => False

def duration : Happening → Nat
  | pass milliseconds => milliseconds
  | _ => 0

theorem Uses.duration_eq {url : String} {happening : Happening} (used : happening.Uses url) :
    happening.duration = 0 := by
  cases happening <;> first | rfl | cases used

/-- The time that passes while some things happen. -/
def elapsed (happenings : List Happening) : Nat :=
  (happenings.map duration).sum

end Happening

namespace World

def step (world : World) : Happening → World
  | .connect url fate =>
    match world.connector.ping world.network world.now fate url with
    | .error _ => world
    | .ok pinged =>
      { world with network := pinged.network, connector := world.connector.settle url pinged }
  | .call url fate action =>
    match world.connector.handles.get? url with
    | none => world
    | some handle =>
      let made := handle.call world.network world.now fate action
      { world with
        network := made.network
        connector := { world.connector with
          handles := world.connector.handles.insert url made.handle } }
  | .start address => { world with network := world.network.atAddress address Listener.restart }
  | .stop address => { world with network := world.network.atAddress address Listener.stop }
  | .serve address change =>
    { world with network := world.network.atAddress address fun listener =>
        { listener with caches := change listener.caches } }
  | .pass milliseconds => { world with now := world.now + milliseconds }

def run (world : World) (happenings : List Happening) : World :=
  happenings.foldl step world

/-- Connecting to a url succeeds. -/
def Finds (world : World) (url : String) : Prop :=
  ∃ handle, (world.connector.connect world.network world.now url).result = .ok handle

/-- The same network with a connector that has made no handles. -/
def anew (world : World) : World :=
  { world with connector := { timeout := world.connector.timeout } }

/-- What is left to be read by the handle of a url. -/
def unread (world : World) (url : String) : List Incoming :=
  match world.connector.handleFor url with
  | .ok handle => handle.unread
  | .error _ => []

/-- The handle of a url has a connection that it has not used while the listener was stopped, or for
longer than the listener leaves a connection idle. -/
def Strands (start : World) (happenings : List Happening) (url : String) : Prop :=
  ∃ earlier later handle listener, happenings = earlier ++ later ∧
    (∀ happening ∈ later, ¬happening.Uses url) ∧
    (start.run earlier).connector.handleFor url = .ok handle ∧ handle.connection ≠ none ∧
    (start.run earlier).network.listeners.get? handle.address = some listener ∧
    (.stop handle.address ∈ later ∨ listener.socketTimeout < Happening.elapsed later)

end World

open Happening World

variable {world : World} {happening : Happening} {happenings : List Happening}
  {url address : String}
  {handle : Handle} {connection : Connection} {listener : Listener}

/-! ## One step -/

theorem now_step (world : World) (happening : Happening) :
    (world.step happening).now = world.now + happening.duration := by
  unfold step
  split
  · split <;> rfl
  · split <;> rfl
  all_goals rfl

theorem timeout_settle (connector : Connector) (url : String) (pinged : Exchange) :
    (connector.settle url pinged).timeout = connector.timeout := by
  unfold settle
  split <;> rfl

theorem timeout_step (world : World) (happening : Happening) :
    (world.step happening).connector.timeout = world.connector.timeout := by
  unfold step
  split
  · split
    · rfl
    · exact timeout_settle _ _ _
  · split <;> rfl
  all_goals rfl

/-- A change at one address does to the listener there what it says, and nothing to any other. -/
theorem follows_atAddress {network : Network} {other : String} {change : Listener → Listener}
    {stopped : Prop} (known : network.listeners.get? address = some listener)
    (changed : other = address → listener.Follows stopped (change listener))
    (unchanged : other ≠ address → ¬stopped) :
    ∃ after, (network.atAddress other change).listeners.get? address = some after ∧
      listener.Follows stopped after := by
  rw [Network.get?_atAddress, known]
  split
  next same => exact ⟨_, rfl, changed same.symm⟩
  next ne =>
    exact ⟨listener, rfl, Listener.follows_caches (unchanged (Ne.symm ne)) listener listener.caches⟩

theorem follows_of_isServedAs {before after : Network} (same : before.IsServedAs after)
    {stopped : Prop} (unstopped : ¬stopped)
    (known : before.listeners.get? address = some listener) :
    ∃ later, after.listeners.get? address = some later ∧ listener.Follows stopped later := by
  obtain ⟨caches, known⟩ := same.2 address listener known
  exact ⟨_, known, Listener.follows_caches unstopped listener caches⟩

theorem ping_isServedAs {connector : Connector} {network : Network} {now : Nat} {fate : Fate}
    {pinged : Exchange} (done : connector.ping network now fate url = .ok pinged) :
    network.IsServedAs pinged.network := by
  unfold ping at done
  rcases found : connector.handleFor url with error | handle
  · rw [found] at done
    cases done
  · rw [found] at done
    obtain rfl := Except.ok.inj done
    exact Handle.call_isServedAs _ _ _ _ _

theorem follows_step (happening : Happening)
    (known : world.network.listeners.get? address = some listener) :
    ∃ after, (world.step happening).network.listeners.get? address = some after ∧
      listener.Follows (.stop address = happening) after := by
  unfold step
  split
  · split
    · exact ⟨listener, known, Listener.follows_caches nofun listener listener.caches⟩
    next pinged done => exact follows_of_isServedAs (ping_isServedAs done) nofun known
  · split
    · exact ⟨listener, known, Listener.follows_caches nofun listener listener.caches⟩
    next handle held =>
      exact follows_of_isServedAs (Handle.call_isServedAs _ _ _ _ _) nofun known
  · exact follows_atAddress known (fun _ => Listener.follows_restart nofun listener) fun _ => nofun
  next other =>
    refine follows_atAddress known (fun same => Listener.follows_stop (by rw [same]) listener) ?_
    rintro other_address ⟨⟩
    exact other_address rfl
  · exact follows_atAddress known (fun _ => Listener.follows_caches nofun listener _) fun _ => nofun
  · exact ⟨listener, known, Listener.follows_caches nofun listener listener.caches⟩

theorem step_connect_of_ping {fate : Fate} {pinged : Exchange}
    (done : world.connector.ping world.network world.now fate url = .ok pinged) :
    world.step (.connect url fate) =
      { world with network := pinged.network, connector := world.connector.settle url pinged } := by
  simp only [step, done]

theorem isIsolated_step (world : World) (happening : Happening) :
    (world.step happening).network.isIsolated = world.network.isIsolated := by
  unfold step
  split
  · split
    · rfl
    next pinged done => exact (ping_isServedAs done).1
  · split
    · rfl
    · exact (Handle.call_isServedAs _ _ _ _ _).1
  all_goals first | exact Network.isIsolated_atAddress _ _ _ | rfl

/-! ## What becomes of the handle of a url -/

theorem handleFor_of_absent {connector : Connector} (absent : connector.handles.get? url = none) :
    connector.handleFor url = Handle.ofUrl url connector.timeout := by
  rw [handleFor, absent]

theorem handleFor_of_held {connector : Connector}
    (held : connector.handles.get? url = some handle) :
    connector.handleFor url = .ok handle := by
  rw [handleFor, held]

theorem ofUrl_of_handleFor_eq_error {connector : Connector} {error : Error}
    (failed : connector.handleFor url = .error error) :
    Handle.ofUrl url connector.timeout = .error error := by
  rcases held : connector.handles.get? url with _ | handle
  · rwa [handleFor_of_absent held] at failed
  · cases (handleFor_of_held held).symm.trans failed

theorem handleFor_insert (connector : Connector) (url other : String) (handle : Handle) :
    { connector with handles := connector.handles.insert url handle }.handleFor other =
      if other = url then .ok handle else connector.handleFor other := by
  simp only [handleFor, Table.get?_insert]
  by_cases same : other = url
  · simp only [if_pos same]
  · simp only [if_neg same]

theorem handleFor_erase (connector : Connector) (url other : String) :
    { connector with handles := connector.handles.erase url }.handleFor other =
      if other = url then Handle.ofUrl other connector.timeout else connector.handleFor other := by
  simp only [handleFor, Table.get?_erase]
  by_cases same : other = url
  · simp only [same, if_true]
  · simp only [if_neg same]

theorem handleFor_settle (connector : Connector) (url other : String) (pinged : Exchange) :
    (connector.settle url pinged).handleFor other =
      if other = url then
        match pinged.result with
        | some (.error _) => Handle.ofUrl other connector.timeout
        | _ => .ok pinged.handle
      else connector.handleFor other := by
  rcases pinged with ⟨_ | error | response, handle, network⟩
  · exact handleFor_insert _ _ _ _
  · exact handleFor_erase _ _ _
  · exact handleFor_insert _ _ _ _

theorem handleFor_connect (world : World) (url other : String) (fate : Fate) :
    (world.step (.connect other fate)).connector.handleFor url =
      if url = other then
        match world.connector.handleFor url with
        | .error error => .error error
        | .ok handle =>
          let made := handle.call world.network world.now fate .ping
          match made.result with
          | some (.error _) => Handle.ofUrl url world.connector.timeout
          | _ => .ok made.handle
      else world.connector.handleFor url := by
  unfold step
  dsimp only
  unfold ping
  by_cases same : url = other
  · subst same
    rcases found : world.connector.handleFor url with error | handle
    · exact found.trans (if_pos rfl).symm
    · exact (handleFor_settle _ _ _ _).trans (by rw [if_pos rfl, if_pos rfl])
  · rw [if_neg same]
    rcases found : world.connector.handleFor other with error | handle
    · rfl
    · exact (handleFor_settle _ _ _ _).trans (if_neg same)

theorem handleFor_call (world : World) (url other : String) (fate : Fate)
    (action : Request.Action) :
    (world.step (.call other fate action)).connector.handleFor url =
      if url = other then
        match world.connector.handles.get? url with
        | none => world.connector.handleFor url
        | some handle => .ok (handle.call world.network world.now fate action).handle
      else world.connector.handleFor url := by
  unfold step
  dsimp only
  by_cases same : url = other
  · subst same
    rw [if_pos rfl]
    split
    · rfl
    · exact (handleFor_insert _ _ _ _).trans (if_pos rfl)
  · rw [if_neg same]
    split
    · rfl
    · exact (handleFor_insert _ _ _ _).trans (if_neg same)

/-- What can become of the handle of a url when something happens. -/
inductive Becomes (world : World) (happening : Happening) (url : String) (after : Result Handle) :
    Prop
  | kept (unused : ¬happening.Uses url) (same : after = world.connector.handleFor url)
  | forgotten (used : happening.Uses url)
      (new : after = Handle.ofUrl url world.connector.timeout)
  | called (used : happening.Uses url) {before : Handle} {fate : Fate} {action : Request.Action}
      (held : world.connector.handleFor url = .ok before) (begun : fate ≠ .dropped .connecting)
      (dropped : fate.isAbandoned = true → happening.Abandons url)
      (made : after = .ok (before.call world.network world.now fate action).handle)

theorem becomes_connect (world : World) (url : String) (fate : Fate) :
    Becomes world (.connect url fate) url
      ((world.step (.connect url fate)).connector.handleFor url) := by
  rw [handleFor_connect, if_pos rfl]
  by_cases begun : fate = .dropped .connecting
  · subst begun
    refine .kept (fun used => used.2 rfl) ?_
    rcases world.connector.handleFor url with error | handle
    · rfl
    · dsimp only
      rw [Handle.call_unbegun]
  · rcases held : world.connector.handleFor url with error | handle
    · exact .forgotten ⟨rfl, begun⟩ (ofUrl_of_handleFor_eq_error held).symm
    · dsimp only
      split
      · exact .forgotten ⟨rfl, begun⟩ rfl
      · exact .called ⟨rfl, begun⟩ held begun (fun abandoned => ⟨rfl, abandoned⟩) rfl

theorem becomes_call (world : World) (url : String) (fate : Fate) (action : Request.Action) :
    Becomes world (.call url fate action) url
      ((world.step (.call url fate action)).connector.handleFor url) := by
  rw [handleFor_call, if_pos rfl]
  by_cases begun : fate = .dropped .connecting
  · subst begun
    refine .kept (fun used => used.2 rfl) ?_
    split
    · rfl
    next held => rw [Handle.call_unbegun, handleFor_of_held held]
  · split
    next absent => exact .forgotten ⟨rfl, begun⟩ (handleFor_of_absent absent)
    next held =>
      exact .called ⟨rfl, begun⟩ (handleFor_of_held held) begun (fun abandoned => ⟨rfl, abandoned⟩)
        rfl

theorem becomes_step (world : World) (happening : Happening) (url : String) :
    Becomes world happening url ((world.step happening).connector.handleFor url) := by
  cases happening with
  | connect other fate =>
    by_cases same : url = other
    · subst same
      exact becomes_connect world url fate
    · exact .kept (fun used => same used.1.symm)
        ((handleFor_connect world url other fate).trans (if_neg same))
  | call other fate action =>
    by_cases same : url = other
    · subst same
      exact becomes_call world url fate action
    · exact .kept (fun used => same used.1.symm)
        ((handleFor_call world url other fate action).trans (if_neg same))
  | start | stop | serve | pass => exact .kept nofun rfl

theorem handleFor_step_of_not_uses (unused : ¬happening.Uses url) :
    (world.step happening).connector.handleFor url = world.connector.handleFor url := by
  cases becomes_step world happening url with
  | kept _ same => exact same
  | forgotten used | called used => exact absurd used unused

/-! ## Many steps -/

theorem run_concat (world : World) (happenings : List Happening) (happening : Happening) :
    world.run (happenings ++ [happening]) = (world.run happenings).step happening :=
  List.foldl_concat ..

theorem run_append (world : World) (earlier later : List Happening) :
    world.run (earlier ++ later) = (world.run earlier).run later :=
  List.foldl_append

theorem now_run (world : World) (happenings : List Happening) :
    (world.run happenings).now = world.now + elapsed happenings := by
  induction happenings generalizing world with
  | nil => rfl
  | cons happening happenings ih =>
    have first := now_step world happening
    rw [run, List.foldl_cons, ← run, ih, first, elapsed, elapsed, List.map_cons, List.sum_cons,
      Nat.add_assoc]

theorem timeout_run (world : World) (happenings : List Happening) :
    (world.run happenings).connector.timeout = world.connector.timeout := by
  induction happenings generalizing world with
  | nil => rfl
  | cons happening happenings ih => exact (ih _).trans (timeout_step world happening)

theorem follows_run (happenings : List Happening)
    (known : world.network.listeners.get? address = some listener) :
    ∃ after, (world.run happenings).network.listeners.get? address = some after ∧
      listener.Follows (.stop address ∈ happenings) after := by
  induction happenings generalizing world listener with
  | nil => exact ⟨listener, known, Listener.follows_caches nofun listener listener.caches⟩
  | cons happening happenings ih =>
    obtain ⟨between, known, first⟩ := follows_step happening known
    obtain ⟨after, known, later⟩ := ih known
    refine ⟨after, known, ?_⟩
    rw [List.mem_cons]
    exact first.trans later

theorem handleFor_run_of_not_uses (unused : ∀ happening ∈ happenings, ¬happening.Uses url) :
    (world.run happenings).connector.handleFor url = world.connector.handleFor url := by
  induction happenings generalizing world with
  | nil => rfl
  | cons happening happenings ih =>
    obtain ⟨first, later⟩ := List.forall_mem_cons.1 unused
    exact (ih later).trans (handleFor_step_of_not_uses first)

theorem handleFor_run_append {later : List Happening} (world : World) (earlier : List Happening)
    (unused : ∀ happening ∈ later, ¬happening.Uses url) :
    (world.run (earlier ++ later)).connector.handleFor url =
      (world.run earlier).connector.handleFor url := by
  rw [run_append, handleFor_run_of_not_uses unused]

/-- What is known of the handle of a url after some things have happened: it is one for the url, and
a connection on which nothing is left was last used over a listener that ran. -/
structure Sound (start : World) (happenings : List Happening) (url : String) (handle : Handle) :
    Prop where
  named : Handle.ofUrl url start.connector.timeout = .ok { handle with connection := none }
  reached : handle.connection ≠ none → (start.run happenings).network.HasWayTo handle.address
  used : ∀ connection, handle.connection = some connection → connection.unread = [] →
    ∃ earlier later listener, happenings = earlier ++ later ∧
      (∀ happening ∈ later, ¬happening.Uses url) ∧
      (start.run earlier).network.listeners.get? handle.address = some listener ∧
      listener.isRunning = true ∧ listener.session = connection.session ∧
      connection.lastUsed = (start.run earlier).now

theorem sound_of_closed {start : World} (closed : handle.connection = none)
    (named : Handle.ofUrl url start.connector.timeout = .ok handle) :
    Sound start happenings url handle where
  named := by
    rw [named, ← closed]
  reached connected := absurd closed connected
  used connection connected := by cases closed.symm.trans connected

theorem connection_of_ofUrl {timeout : Nat} (made : Handle.ofUrl url timeout = .ok handle) :
    handle.connection = none := by
  obtain ⟨address, cache, -, rfl⟩ := Handle.ofUrl_eq_ok_iff.1 made
  rfl

theorem Sound.kept {start : World} (h : Sound start happenings url handle)
    (unused : ¬happening.Uses url) : Sound start (happenings ++ [happening]) url handle where
  named := h.named
  reached connected := by
    rw [run_concat, Network.HasWayTo, isIsolated_step]
    exact h.reached connected
  used connection connected read := by
    obtain ⟨earlier, later, listener, rfl, rest, used⟩ := h.used connection connected read
    refine ⟨earlier, later ++ [happening], listener, List.append_assoc _ _ _, ?_, used⟩
    exact List.forall_mem_append.2 ⟨rest, List.forall_mem_singleton.2 unused⟩

theorem Sound.called {start : World} (h : Sound start happenings url handle) {fate : Fate}
    {action : Request.Action} (begun : fate ≠ .dropped .connecting) (used : happening.Uses url) :
    let before := start.run happenings
    Sound start (happenings ++ [happening]) url
      (handle.call before.network before.now fate action).handle := by
  obtain ⟨kept, same⟩ := Handle.call_same handle (start.run happenings).network
    (start.run happenings).now fate action
  have address_eq := congrArg Handle.address same
  refine ⟨?_, ?_, ?_⟩
  · rw [same]
    exact h.named
  · intro connected
    rw [address_eq, run_concat, Network.HasWayTo, isIsolated_step]
    obtain connected | ⟨connection, dialled⟩ := Handle.connected_of_call connected
    · exact h.reached connected
    · exact (Network.dial_eq_ok_iff.1 dialled).1
  · intro connection connected read
    obtain ⟨lastUsed, listener, known, running, session⟩ :=
      Handle.accepted_of_call connected read begun
    obtain ⟨after, known, follows⟩ := follows_step happening known
    have ran_on := follows.kept running fun stop => (stop ▸ used : Uses url (.stop _))
    refine ⟨happenings ++ [happening], [], after, (List.append_nil _).symm, nofun, ?_, ?_, ?_, ?_⟩
    · rwa [address_eq, run_concat]
    · exact (follows.same ran_on).trans running
    · exact ran_on.trans session
    · rw [run_concat, now_step, used.duration_eq]
      exact lastUsed

theorem sound_run {start : World} (new : start.connector.handles = ∅)
    (happenings : List Happening) (handle : Handle)
    (found : (start.run happenings).connector.handleFor url = .ok handle) :
    Sound start happenings url handle := by
  induction happenings using List.reverseRecOn generalizing handle with
  | nil =>
    have made : Handle.ofUrl url start.connector.timeout = .ok handle := by
      rwa [← handleFor_of_absent (by rw [new]; rfl)]
    exact sound_of_closed (connection_of_ofUrl made) made
  | append_singleton happenings happening ih =>
    rw [run_concat] at found
    cases becomes_step (start.run happenings) happening url with
    | kept unused same => exact (ih handle (same ▸ found)).kept unused
    | forgotten _ new =>
      rw [timeout_run] at new
      have made := new.symm.trans found
      exact sound_of_closed (connection_of_ofUrl made) made
    | @called used before fate action held begun _ made =>
      obtain rfl := Except.ok.inj (made.symm.trans found)
      exact (ih before held).called begun used

/-! ## What connecting comes to -/

theorem finds_iff (found : world.connector.handleFor url = .ok handle) :
    world.Finds url ↔
      Handle.Succeeds (handle.call world.network world.now .answered .ping).result := by
  unfold Finds connect ping
  rw [found]
  dsimp only [Except.map]
  obtain ⟨connection, leads⟩ := Handle.call_leads handle world.network world.now .answered .ping
  cases leads with
  | failed closed error =>
    obtain ⟨error, failed⟩ := error
    rw [failed]
    exact iff_of_false nofun nofun
  | unbegun dropped => cases dropped
  | abandoned dropped => cases dropped
  | answered finished first read left =>
    rw [read]
    rcases Handle.reading _ with error | answer
    · exact iff_of_false nofun nofun
    · exact iff_of_true ⟨_, rfl⟩ ⟨_, rfl⟩

theorem not_finds_of_error {error : Error} (failed : world.connector.handleFor url = .error error) :
    ¬world.Finds url := by
  unfold Finds connect ping
  rw [failed]
  exact nofun

theorem hosts_iff {timeout : Nat}
    (named : Handle.ofUrl url timeout = .ok { handle with connection := none })
    (network : Network) :
    network.Hosts url ↔
      Request.fits ⟨handle.cache, .ping⟩ = true ∧ network.HasWayTo handle.address ∧
        ∃ listener, network.listeners.get? handle.address = some listener ∧
          listener.isRunning = true ∧ (listener.caches.get? handle.cache).isSome = true := by
  obtain ⟨address, cache, parsed, same⟩ := Handle.ofUrl_eq_ok_iff.1 named
  obtain rfl : address = handle.address := congrArg Handle.address same
  obtain rfl : cache = handle.cache := congrArg Handle.cache same
  constructor
  · rintro ⟨address, cache, other, hosts⟩
    obtain ⟨rfl, rfl⟩ := Prod.mk.inj (Except.ok.inj (parsed.symm.trans other))
    exact hosts
  · exact fun hosts => ⟨_, _, parsed, hosts⟩

theorem finds_iff_of_closed (found : world.connector.handleFor url = .ok handle)
    (named : Handle.ofUrl url world.connector.timeout = .ok { handle with connection := none })
    (closed : handle.connection = none) : world.Finds url ↔ world.network.Hosts url := by
  rw [finds_iff found, Handle.succeeds_call_of_closed closed, hosts_iff named]

theorem World.finds_iff_toBool (world : World) (url : String) :
    world.Finds url ↔
      (world.connector.connect world.network world.now url).result.toBool = true := by
  unfold World.Finds
  rcases (world.connector.connect world.network world.now url).result with error | handle
  · exact iff_of_false nofun nofun
  · exact iff_of_true ⟨handle, rfl⟩ rfl

/-- A new connector finds a cache exactly if it is there. -/
theorem finds_anew_iff (world : World) (url : String) :
    world.anew.Finds url ↔ world.network.Hosts url := by
  have made : world.anew.connector.handleFor url = Handle.ofUrl url world.connector.timeout := rfl
  rcases named : Handle.ofUrl url world.connector.timeout with error | handle
  · exact iff_of_false (not_finds_of_error (made.trans named)) fun hosts => hosts.not_error named
  · have closed := connection_of_ofUrl named
    refine finds_iff_of_closed (made.trans named) (named.trans ?_) closed
    rw [← closed]

/-- The listener takes requests from a connection that it has served as long as it is not stopped
and the connection does not stand idle for too long. -/
theorem accepting?_run_iff (known : world.network.listeners.get? address = some listener)
    (running : listener.isRunning = true) (session : listener.session = connection.session)
    (used : connection.lastUsed = world.now) (read : connection.unread = [])
    (later : List Happening) :
    (∃ after, (world.run later).network.accepting? (world.run later).now address connection =
      some after) ↔ ¬(.stop address ∈ later ∨ listener.socketTimeout < elapsed later) := by
  obtain ⟨after, known, follows⟩ := follows_run later known
  have idle : (world.run later).now - connection.lastUsed = elapsed later := by
    rw [now_run, used, Nat.add_sub_cancel_left]
  simp only [Handle.accepting?_eq_some_iff read, idle]
  constructor
  · rintro ⟨other, same, -, same_session, soon⟩
    obtain rfl := Option.some.inj (known.symm.trans same)
    rintro (stopped | late)
    · have lost := follows.lost running stopped
      omega
    · rw [follows.timeout] at soon
      omega
  · intro kept
    obtain ⟨unstopped, soon⟩ := not_or.1 kept
    have ran_on := follows.kept running unstopped
    exact ⟨after, known, (follows.same ran_on).trans running, ran_on.trans session,
      follows.timeout ▸ Nat.le_of_not_lt soon⟩

theorem elapsed_append (earlier later : List Happening) :
    elapsed (earlier ++ later) = elapsed earlier + elapsed later := by
  rw [elapsed, List.map_append, List.sum_append]
  rfl

variable {start : World}

/-- The listener takes a request from a connection on which nothing is left exactly if it has not
been stopped and has not waited for too long. -/
theorem accepting?_iff_not_strands (new : start.connector.handles = ∅)
    (found : (start.run happenings).connector.handleFor url = .ok handle)
    (connected : handle.connection = some connection) (read : connection.unread = []) :
    (∃ listener, (start.run happenings).network.accepting? (start.run happenings).now handle.address
      connection = some listener) ↔ ¬start.Strands happenings url := by
  constructor
  · rintro accepted ⟨earlier, later, other, listener, rfl, unused, held, -, known, lost⟩
    rw [handleFor_run_append start earlier unused, held] at found
    obtain rfl := Except.ok.inj found
    -- the last use was even before these things
    obtain ⟨first, between, origin, rfl, -, known_then, running, session, used⟩ :=
      (sound_run new earlier other held).used connection connected read
    rw [List.append_assoc, run_append,
      accepting?_run_iff known_then running session used read] at accepted
    obtain ⟨after, known_after, follows⟩ := follows_run between known_then
    rw [run_append] at known
    obtain rfl := Option.some.inj (known.symm.trans known_after)
    refine accepted ?_
    rw [List.mem_append, elapsed_append, ← follows.timeout]
    exact lost.imp .inr fun late => by omega
  · intro kept
    obtain ⟨earlier, later, listener, rfl, unused, known, running, session, used⟩ :=
      (sound_run new happenings handle found).used connection connected read
    rw [run_append, accepting?_run_iff known running session used read]
    intro lost
    refine kept ⟨earlier, later, handle, listener, rfl, unused, ?_, ?_, known, lost⟩
    · rwa [handleFor_run_append start earlier unused] at found
    · rw [connected]
      nofun

theorem unread_eq (found : world.connector.handleFor url = .ok handle) :
    world.unread url = handle.unread := by
  rw [World.unread, found]

theorem connected_of_strands (strands : start.Strands happenings url)
    (found : (start.run happenings).connector.handleFor url = .ok handle) :
    handle.connection ≠ none := by
  obtain ⟨earlier, later, other, listener, rfl, unused, held, connected, -⟩ := strands
  rw [handleFor_run_append start earlier unused, held] at found
  obtain rfl := Except.ok.inj found
  exact connected

/-- Where nothing is left to be read, a handle that was kept finds the cache if it is there and the
connection has not been closed in the meantime. -/
theorem finds_run_iff (new : start.connector.handles = ∅)
    (read : (start.run happenings).unread url = []) :
    (start.run happenings).Finds url ↔
      (start.run happenings).network.Hosts url ∧ ¬start.Strands happenings url := by
  rcases found : (start.run happenings).connector.handleFor url with error | handle
  · exact iff_of_false (not_finds_of_error found) fun h =>
      h.1.not_error (ofUrl_of_handleFor_eq_error found)
  have sound := sound_run new happenings handle found
  have named := sound.named
  rw [← timeout_run start happenings] at named
  rcases connected : handle.connection with _ | connection
  · rw [finds_iff_of_closed found named connected]
    exact (and_iff_left fun strands => connected_of_strands strands found connected).symm
  · have read : connection.unread = [] := by
      rwa [unread_eq found, Handle.unread, connected] at read
    have open_ : handle.connection ≠ none := by
      rw [connected]
      exact Option.some_ne_none connection
    rw [finds_iff found, Handle.succeeds_call_of_open connected,
      Handle.succeeds_exchange_of_read read, hosts_iff named,
      ← accepting?_iff_not_strands new found connected read]
    constructor
    · rintro ⟨fits, listener, accepted, served⟩
      obtain ⟨known, running, -⟩ := (Handle.accepting?_eq_some_iff read).1 accepted
      exact ⟨⟨fits, sound.reached open_, listener, known, running, served⟩, listener, accepted⟩
    · rintro ⟨⟨fits, -, listener, known, running, served⟩, other, accepted⟩
      obtain ⟨same, -⟩ := (Handle.accepting?_eq_some_iff read).1 accepted
      obtain rfl := Option.some.inj (known.symm.trans same)
      exact ⟨fits, listener, accepted, served⟩

/-- The first answer that is left decides, whose ever it is. -/
theorem finds_run_of_left {first : Incoming} {rest : List Incoming}
    (new : start.connector.handles = ∅)
    (left : (start.run happenings).unread url = first :: rest) :
    (start.run happenings).Finds url ↔
      (∃ address cache, PeerUrl.parse url = .ok (address, cache) ∧
        Request.fits ⟨cache, .ping⟩ = true) ∧
      ∃ response, first = .answer response ∧ ∀ message, response ≠ .error message := by
  rcases found : (start.run happenings).connector.handleFor url with error | handle
  · rw [World.unread, found] at left
    cases left
  have named := (sound_run new happenings handle found).named
  obtain ⟨address, cache, parsed, same⟩ := Handle.ofUrl_eq_ok_iff.1 named
  obtain rfl : cache = handle.cache := congrArg Handle.cache same
  rw [unread_eq found, Handle.unread] at left
  rcases connected : handle.connection with _ | connection
  · rw [connected] at left
    cases left
  · rw [connected] at left
    rw [finds_iff found, Handle.succeeds_call_of_open connected,
      Handle.succeeds_exchange_of_left left, parsed]
    refine and_congr_left fun _ => ⟨fun fits => ⟨_, _, rfl, fits⟩, ?_⟩
    rintro ⟨_, _, ⟨⟩, fits⟩
    exact fits

theorem unread_of_closed (found : world.connector.handleFor url = .ok handle)
    (closed : handle.connection = none) : world.unread url = [] := by
  rw [unread_eq found, Handle.unread, closed]
  rfl

theorem unread_of_ofUrl {timeout : Nat}
    (forgotten : world.connector.handleFor url = Handle.ofUrl url timeout) :
    world.unread url = [] := by
  rcases made : Handle.ofUrl url timeout with error | handle
  · rw [World.unread, forgotten, made]
  · exact unread_of_closed (forgotten.trans made) (connection_of_ofUrl made)

/-- Calls that are not dropped when they have begun leave nothing to be read. -/
theorem unread_run (new : start.connector.handles = ∅) (happenings : List Happening)
    (finished : ∀ happening ∈ happenings, ¬happening.Abandons url) :
    (start.run happenings).unread url = [] := by
  induction happenings using List.reverseRecOn with
  | nil => exact unread_of_ofUrl (handleFor_of_absent (by rw [run, List.foldl_nil, new]; rfl))
  | append_singleton happenings happening ih =>
    obtain ⟨before, last⟩ := List.forall_mem_append.1 finished
    have last := List.forall_mem_singleton.1 last
    have read := ih before
    rw [run_concat]
    cases becomes_step (start.run happenings) happening url with
    | kept _ same =>
      rw [World.unread, same]
      exact read
    | forgotten _ new => exact unread_of_ofUrl new
    | @called _ handle fate action held begun dropped made =>
      rw [unread_eq held] at read
      obtain ⟨connection, leads⟩ := Handle.call_leads handle (start.run happenings).network
        (start.run happenings).now fate action
      cases leads with
      | failed closed => exact unread_of_closed made closed
      | unbegun unbegun => exact absurd unbegun begun
      | abandoned abandoned => exact absurd (dropped abandoned) last
      | answered finished first _ left =>
        rw [read] at first
        rw [unread_eq made, left.unread_eq]
        exact (List.cons.inj first).2.symm

/-- After a failure a connector has no handle of the url. -/
theorem handleFor_connect_of_failed {connector : Connector} {network : Network} {now : Nat}
    (failed : ¬∃ handle, (connector.connect network now url).result = .ok handle) :
    (connector.connect network now url).connector.handleFor url =
      Handle.ofUrl url connector.timeout := by
  unfold connect ping at failed ⊢
  rcases found : connector.handleFor url with error | handle
  · exact found.trans (ofUrl_of_handleFor_eq_error found).symm
  · rw [found] at failed
    dsimp only [Except.map] at failed ⊢
    revert failed
    rcases handle.call network now .answered .ping with ⟨_ | error | response, after, network⟩
    · exact fun failed => absurd ⟨_, rfl⟩ failed
    · exact fun _ => (handleFor_erase _ _ _).trans (if_pos rfl)
    · exact fun failed => absurd ⟨_, rfl⟩ failed

theorem connect_congr {connector other : Connector}
    (same : connector.handleFor url = other.handleFor url) (network : Network) (now : Nat) :
    (connector.connect network now url).result = (other.connect network now url).result := by
  unfold connect ping
  rw [same]
  rcases other.handleFor url with error | handle <;> rfl

/-- Whatever has happened to a connector, as long as no call of its handle of a url was dropped when
it had begun, connecting to the url succeeds exactly if it would with a new connector, unless the
listener has been stopped since the handle was last used or has left the connection alone for too
long. After such a call the first answer that is left decides. Only the connection that follows on a
failure is always one that a new connector would make. -/
theorem kept_handle_finds_unless_stranded (now timeout : Nat) (network : Network)
    (happenings : List Happening) (url : String) :
    let start : World := { now, network, connector := { timeout } }
    let world := start.run happenings
    (world.anew.Finds url ↔ world.network.Hosts url) ∧
    ((∀ happening ∈ happenings, ¬happening.Abandons url) → world.unread url = []) ∧
    (world.unread url = [] →
      (world.Finds url ↔ world.anew.Finds url ∧ ¬start.Strands happenings url)) ∧
    (∀ first rest, world.unread url = first :: rest →
      (world.Finds url ↔
        (∃ address cache, PeerUrl.parse url = .ok (address, cache) ∧
          Request.fits ⟨cache, .ping⟩ = true) ∧
        ∃ response, first = .answer response ∧ ∀ message, response ≠ .error message)) ∧
    (¬world.Finds url → ∀ later network,
      let after := (world.connector.connect world.network world.now url).connector
      (after.connect network later url).result =
        (({ timeout } : Connector).connect network later url).result) := by
  intro start world
  refine ⟨finds_anew_iff world url, unread_run rfl happenings, ?_, ?_, ?_⟩
  · intro read
    rw [finds_anew_iff]
    exact finds_run_iff rfl read
  · exact fun first rest left => finds_run_of_left rfl left
  · intro failed later network after
    refine connect_congr ?_ network later
    rw [handleFor_connect_of_failed failed, timeout_run]
    exact (handleFor_of_absent rfl).symm

/-- A connector that has made no handles, and a network with one cache. -/
def besideOneKey : World where
  network := Handle.oneKey
  connector := { timeout := 1000 }

theorem fits_ping_patient : Request.fits ⟨Handle.patient.cache, .ping⟩ = true :=
  fits_ping_unequal.1

/-- The listener once its cache has been asked for. -/
def askedKeeper : Listener :=
  { Handle.keeper with
    caches := (Service.answer Handle.keeper.caches ⟨Handle.patient.cache, .ping⟩).2 }

def askedOneKey : Network where
  listeners := Handle.oneKey.listeners.insert Handle.patient.address askedKeeper

theorem call_patient :
    Handle.patient.call Handle.oneKey 0 .answered .ping =
      { result := some (.ok .ok)
        handle := { Handle.patient with connection := some { session := 0, lastUsed := 0 } }
        network := askedOneKey } := by
  have begun : Handle.patient.call Handle.oneKey 0 .answered .ping =
      Handle.patient.proceed Handle.oneKey 0 .answered { session := 0, lastUsed := 0 } .ping :=
    Handle.exchange_of_fits fits_ping_patient
  have accepted : Handle.oneKey.accepting? 0 Handle.patient.address
      { session := 0, lastUsed := 0 } = some Handle.keeper := rfl
  have asked : Handle.patient.ask Handle.oneKey 0 { session := 0, lastUsed := 0 } .ping =
      (.answer .ok, askedOneKey) := by
    refine Prod.ext (Handle.ask_of_accepting accepted Response.fits_ok) ?_
    rw [Handle.ask, accepted]
    rfl
  rw [begun, Handle.proceed, asked]
  rfl

theorem step_besideOneKey :
    besideOneKey.step (.connect Handle.patient.url .answered) =
      { network := askedOneKey
        connector := {
          timeout := 1000
          handles := Table.insert ∅ Handle.patient.url
            { Handle.patient with connection := some { session := 0, lastUsed := 0 } } } } := by
  have found : besideOneKey.connector.handleFor Handle.patient.url = .ok Handle.patient := rfl
  have pinged : besideOneKey.connector.ping besideOneKey.network besideOneKey.now .answered
      Handle.patient.url = .ok (Handle.patient.call Handle.oneKey 0 .answered .ping) := by
    rw [ping, found]
    rfl
  rw [step_connect_of_ping pinged, call_patient]
  rfl

theorem hosts_oneKey {network : Network} {listener : Listener} (way : network.isIsolated = false)
    (known : network.listeners.get? Handle.patient.address = some listener)
    (running : listener.isRunning = true)
    (served : (listener.caches.get? Handle.patient.cache).isSome = true) :
    network.Hosts Handle.patient.url :=
  ⟨Handle.patient.address, Handle.patient.cache, rfl, fits_ping_patient, ⟨rfl, way⟩, listener,
    known, running, served⟩

/-- The listener is started anew after a first connection. -/
def restarted : List Happening :=
  [.stop Handle.patient.address, .start Handle.patient.address]

/-- Nothing happens after a first connection, for longer than the listener waits. -/
def idled : List Happening :=
  [.pass (Handle.keeper.socketTimeout + 1)]

/-- A cache is there and is not found, because its listener was started anew or had nothing to
do. -/
theorem restarted_or_idle_cache_looks_absent :
    let url := Handle.patient.url
    let after later := besideOneKey.run (.connect url .answered :: later)
    ((after restarted).anew.Finds url ∧ ¬(after restarted).Finds url) ∧
      (after idled).anew.Finds url ∧ ¬(after idled).Finds url := by
  intro url after
  have absent (later : List Happening) (unused : ∀ happening ∈ later, ¬happening.Uses url)
      (unabandoned : ∀ happening ∈ later, ¬happening.Abandons url)
      (lost : .stop Handle.patient.address ∈ later ∨ Handle.keeper.socketTimeout < elapsed later)
      (hosts : (after later).network.Hosts url) :
      (after later).anew.Finds url ∧ ¬(after later).Finds url := by
    obtain ⟨anew, finished, kept, -, -⟩ := kept_handle_finds_unless_stranded 0 1000 Handle.oneKey
      (.connect url .answered :: later) url
    have read := finished (List.forall_mem_cons.2 ⟨fun h => Bool.noConfusion h.2, unabandoned⟩)
    refine ⟨anew.2 hosts, fun found => ((kept read).1 found).2 ?_⟩
    refine ⟨[.connect url .answered], later,
      { Handle.patient with connection := some { session := 0, lastUsed := 0 } },
      askedKeeper, rfl, unused, ?_, nofun, ?_, lost⟩
    · change (besideOneKey.step (.connect url .answered)).connector.handleFor url = _
      rw [step_besideOneKey]
      exact handleFor_of_held ((Table.get?_insert _ _ _ _).trans (if_pos rfl))
    · change (besideOneKey.step (.connect url .answered)).network.listeners.get? _ = _
      rw [step_besideOneKey]
      exact (Table.get?_insert _ _ _ _).trans (if_pos rfl)
  have first (later : List Happening) :
      after later = (besideOneKey.step (.connect url .answered)).run later := rfl
  constructor
  · refine absent restarted ?_ ?_ (.inl List.mem_cons_self) ?_
    · simp [restarted, Uses]
    · simp [restarted, Abandons]
    · rw [first, step_besideOneKey]
      exact hosts_oneKey rfl rfl rfl rfl
  · refine absent idled ?_ ?_ (.inr (Nat.lt_succ_self _)) ?_
    · simp [idled, Uses]
    · simp [idled, Abandons]
    · rw [first, step_besideOneKey]
      exact hosts_oneKey rfl rfl rfl rfl

end Connector

end CacheCluster
