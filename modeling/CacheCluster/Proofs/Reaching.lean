import CacheCluster.Proofs.Responses

/-! # Reaching a listener

Whether a ping succeeds depends on the listener at the address of the handle: a new connection needs
one that runs, an old one needs one that has run since and has not waited for too long. Calls change
nothing of a listener but its caches; stopping it ends its session.
-/

namespace CacheCluster

/-! ## Where a cache is found -/

/-- Connections to an address can be opened, if a listener runs there. -/
def Network.HasWayTo (network : Network) (address : String) : Prop :=
  (Address.parse address).toBool = true ∧ network.isIsolated = false

/-- A running listener at the address of a url serves its cache. -/
def Network.Hosts (network : Network) (url : String) : Prop :=
  ∃ address cache, PeerUrl.parse url = .ok (address, cache) ∧
    Request.fits ⟨cache, .ping⟩ = true ∧ network.HasWayTo address ∧
    ∃ listener, network.listeners.get? address = some listener ∧
      listener.isRunning = true ∧ (listener.caches.get? cache).isSome = true

theorem Network.Hosts.not_error {network : Network} {url : String} {timeout : Nat} {error : Error}
    (hosts : network.Hosts url) : Handle.ofUrl url timeout ≠ .error error := by
  obtain ⟨address, cache, parsed, -⟩ := hosts
  rw [Handle.ofUrl_eq_ok_iff.2 ⟨address, cache, parsed, rfl⟩]
  nofun

theorem Network.dial_eq_ok_iff {network : Network} {now : Nat} {address : String}
    {connection : Connection} :
    network.dial now address = .ok connection ↔
      network.HasWayTo address ∧ ∃ listener, network.listeners.get? address = some listener ∧
        listener.isRunning = true ∧ { session := listener.session, lastUsed := now } =
          connection := by
  unfold dial HasWayTo
  rcases Address.parse address with error | place
  · exact iff_of_false nofun fun h => nomatch h.1.1
  dsimp only
  split
  next isolated => exact iff_of_false nofun fun h => by simp [isolated] at h
  next reachable =>
    rcases network.listeners.get? address with _ | listener
    · exact iff_of_false nofun nofun
    · dsimp only
      split
      next running =>
        constructor
        · intro dialled
          exact ⟨⟨rfl, by simpa using reachable⟩, listener, rfl, running, Except.ok.inj dialled⟩
        · rintro ⟨-, _, ⟨⟩, -, rfl⟩
          rfl
      next resting =>
        refine iff_of_false nofun ?_
        rintro ⟨-, _, ⟨⟩, running, -⟩
        exact resting running

theorem Response.fits_ok : Response.ok.fits = true := by
  rw [Response.fits_iff]
  simp only [Response.toJson, Wire.size_tagged, List.map_nil, List.sum_nil, size_texts,
    Frame.maxBytes]
  decide

/-! ## What calls leave of the network -/

/-- Changes the listener at an address. -/
def Network.atAddress (network : Network) (address : String) (change : Listener → Listener) :
    Network :=
  match network.listeners.get? address with
  | some listener =>
    { network with listeners := network.listeners.insert address (change listener) }
  | none => network

/-- The network once the listener at an address has answered a request. -/
def Network.answering (network : Network) (address : String) (request : Request) : Network :=
  network.atAddress address fun listener =>
    { listener with caches := (Service.answer listener.caches request).2 }

theorem Network.get?_atAddress (network : Network) (address : String) (change : Listener → Listener)
    (other : String) :
    (network.atAddress address change).listeners.get? other =
      if other = address then (network.listeners.get? other).map change
      else network.listeners.get? other := by
  unfold atAddress
  split
  next listener known =>
    rw [Table.get?_insert]
    split
    next same => rw [same, known, Option.map_some]
    next => rfl
  next absent =>
    split
    next same => rw [same, absent, Option.map_none]
    next => rfl

theorem Network.isIsolated_atAddress (network : Network) (address : String)
    (change : Listener → Listener) :
    (network.atAddress address change).isIsolated = network.isIsolated := by
  unfold atAddress
  split <;> rfl

/-- The listeners run as before, whatever is in their caches. -/
def Network.IsServedAs (before after : Network) : Prop :=
  after.isIsolated = before.isIsolated ∧
    ∀ address listener, before.listeners.get? address = some listener →
      ∃ caches, after.listeners.get? address = some { listener with caches }

theorem Network.IsServedAs.refl (network : Network) : network.IsServedAs network :=
  ⟨rfl, fun _ listener known => ⟨listener.caches, known⟩⟩

namespace Handle

variable {handle : Handle} {network : Network} {now : Nat} {fate : Fate}
  {connection after : Connection} {action : Request.Action}

/-- What is written to a connection reaches the listener at the address of the handle, as a request
for the cache of the handle, or nothing at all. -/
theorem ask_asks (handle : Handle) (network : Network) (now : Nat) (connection : Connection)
    (action : Request.Action) :
    (handle.ask network now connection action).2 = network ∨
      (handle.ask network now connection action).2 =
        network.answering handle.address ⟨handle.cache, action⟩ := by
  unfold ask
  split
  · exact .inl rfl
  next listener accepted =>
    obtain ⟨held, -⟩ := Option.filter_eq_some_iff.1 accepted
    right
    rw [Network.answering, Network.atAddress, held]

theorem call_asks (handle : Handle) (network : Network) (now : Nat) (fate : Fate)
    (action : Request.Action) :
    (handle.call network now fate action).network = network ∨
      (handle.call network now fate action).network =
        network.answering handle.address ⟨handle.cache, action⟩ := by
  have exchanged (connection : Connection) :
      (handle.exchange network now fate connection action).network = network ∨
        (handle.exchange network now fate connection action).network =
          network.answering handle.address ⟨handle.cache, action⟩ := by
    have asked := ask_asks handle network now connection action
    unfold exchange proceed
    split
    · exact .inl rfl
    · dsimp only
      split
      · rwa [receive_network]
      all_goals first | exact asked | exact .inl rfl
  unfold call
  split
  · exact .inl rfl
  · exact exchanged _
  · exact .inl rfl
  · split
    · exact .inl rfl
    · exact exchanged _

theorem call_isServedAs (handle : Handle) (network : Network) (now : Nat) (fate : Fate)
    (action : Request.Action) :
    network.IsServedAs (handle.call network now fate action).network := by
  rcases call_asks handle network now fate action with same | answered
  · rw [same]
    exact .refl network
  · rw [answered]
    refine ⟨Network.isIsolated_atAddress _ _ _, fun address listener known => ?_⟩
    rw [Network.answering, Network.get?_atAddress, known]
    split
    · exact ⟨_, rfl⟩
    · exact ⟨listener.caches, rfl⟩

theorem call_unbegun (handle : Handle) (network : Network) (now : Nat) (action : Request.Action) :
    handle.call network now (.dropped .connecting) action = ⟨none, handle, network⟩ := by
  unfold call
  split <;> first | rfl | contradiction

theorem tear_ne_nil {incoming : List Incoming} (some : incoming ≠ []) : tear incoming ≠ [] := by
  unfold tear
  split
  · nofun
  · exact some

theorem accepting?_eq_some_iff {address : String} {listener : Listener}
    (unread : connection.unread = []) :
    network.accepting? now address connection = some listener ↔
      network.listeners.get? address = some listener ∧ listener.isRunning = true ∧
        listener.session = connection.session ∧
        now - connection.lastUsed ≤ listener.socketTimeout := by
  simp only [Network.accepting?, Option.filter_eq_some_iff, Bool.and_eq_true, beq_iff_eq,
    decide_eq_true_eq, unread, List.contains_nil, Bool.not_false, and_true, and_assoc]

/-- If nothing is left to be read on a connection after a call over it, then the listener took the
request from it. -/
theorem accepted_of_exchange
    (kept : (handle.exchange network now fate connection action).handle.connection = some after)
    (read : after.unread = []) (begun : fate ≠ .dropped .connecting) :
    after.lastUsed = now ∧ ∃ listener, network.listeners.get? handle.address = some listener ∧
      listener.isRunning = true ∧ listener.session = after.session := by
  have comes (reply : Incoming) : connection.unread ++ [reply] ≠ [] :=
    List.append_ne_nil_of_right_ne_nil _ (List.cons_ne_nil _ _)
  unfold exchange at kept
  split at kept
  · cases kept
  unfold proceed at kept
  dsimp only at kept
  split at kept
  · unfold receive at kept
    split at kept
    next response later first =>
      obtain rfl := Option.some.inj kept
      obtain rfl : later = [] := read
      refine ⟨rfl, ?_⟩
      rcases accepted : network.accepting? now handle.address connection with _ | listener
      · rw [ask, accepted] at first
        have last := congrArg List.getLast? first
        rw [List.getLast?_concat] at last
        cases last
      · obtain ⟨known, takes⟩ := Option.filter_eq_some_iff.1 accepted
        simp only [Bool.and_eq_true, beq_iff_eq] at takes
        exact ⟨listener, known, takes.1.1.1, takes.1.1.2⟩
    · cases kept
  · cases kept
  · cases kept
  · cases kept
  · contradiction
  · obtain rfl := Option.some.inj kept
    exact absurd read (comes _)
  · obtain rfl := Option.some.inj kept
    exact absurd read (comes _)
  · obtain rfl := Option.some.inj kept
    exact absurd read (tear_ne_nil (comes _))

/-- A call over a connection that is open afterwards had one before or could open it. -/
theorem connected_of_call
    (kept : (handle.call network now fate action).handle.connection ≠ none) :
    handle.connection ≠ none ∨ ∃ connection, network.dial now handle.address = .ok connection := by
  unfold call at kept
  split at kept
  · exact .inl kept
  next open_ _ => exact .inl (by rw [open_]; nofun)
  · exact absurd rfl kept
  · split at kept
    · exact absurd rfl kept
    next connection dialled => exact .inr ⟨connection, dialled⟩

theorem accepted_of_call
    (kept : (handle.call network now fate action).handle.connection = some after)
    (read : after.unread = []) (begun : fate ≠ .dropped .connecting) :
    after.lastUsed = now ∧ ∃ listener, network.listeners.get? handle.address = some listener ∧
      listener.isRunning = true ∧ listener.session = after.session := by
  unfold call at kept
  split at kept
  · contradiction
  · exact accepted_of_exchange kept read begun
  · cases kept
  · split at kept
    · cases kept
    · exact accepted_of_exchange kept read begun

/-! ## What a ping comes to -/

/-- A call succeeds. -/
def Succeeds (result : Option (Result Response)) : Prop :=
  ∃ response, result = some (.ok response)

theorem reading_eq_ok_iff {response answer : Response} :
    reading response = .ok answer ↔ response = answer ∧ ∀ message, response ≠ .error message := by
  cases response
  case error message => exact iff_of_false nofun fun h => h.2 message rfl
  all_goals exact ⟨fun h => ⟨Except.ok.inj h, nofun⟩, fun h => congrArg Except.ok h.1⟩

theorem fits_of_succeeds
    (answered : Succeeds (handle.exchange network now fate connection action).result) :
    Request.fits ⟨handle.cache, action⟩ = true := by
  obtain ⟨response, answered⟩ := answered
  exact fits_of_exchanged answered

/-- Over a connection with answers that were left there a call succeeds if the first of them is no
error. -/
theorem succeeds_exchange_of_left {first : Incoming} {rest : List Incoming}
    (left : connection.unread = first :: rest) :
    Succeeds (handle.exchange network now .answered connection action).result ↔
      Request.fits ⟨handle.cache, action⟩ = true ∧
        ∃ response, first = .answer response ∧ ∀ message, response ≠ .error message := by
  refine ⟨fun answered => ⟨fits_of_succeeds answered, ?_⟩, ?_⟩
  · obtain ⟨answer, read⟩ := answered
    rw [exchange_of_fits (fits_of_succeeds ⟨answer, read⟩), proceed, left] at read
    cases first with
    | answer response =>
      exact ⟨response, rfl, (reading_eq_ok_iff.1 (Option.some.inj read)).2⟩
    | rest => cases read
    | ended => cases read
  · rintro ⟨fits, response, rfl, right⟩
    rw [exchange_of_fits fits, proceed, left]
    exact ⟨response, congrArg some (reading_eq_ok_iff.2 ⟨rfl, right⟩)⟩

/-- Over a connection on which nothing was left a ping succeeds if the listener takes it and serves
the cache. -/
theorem succeeds_exchange_of_read (read : connection.unread = []) :
    Succeeds (handle.exchange network now .answered connection .ping).result ↔
      Request.fits ⟨handle.cache, .ping⟩ = true ∧
        ∃ listener, network.accepting? now handle.address connection = some listener ∧
          (listener.caches.get? handle.cache).isSome = true := by
  refine ⟨fun answered => ⟨fits_of_succeeds answered, ?_⟩, ?_⟩
  · obtain ⟨answer, came⟩ := answered
    rw [exchange_of_fits (fits_of_succeeds ⟨answer, came⟩), proceed, read] at came
    rcases accepted : network.accepting? now handle.address connection with _ | listener
    · rw [ask, accepted] at came
      cases came
    · refine ⟨listener, rfl, ?_⟩
      rcases served : listener.caches.get? handle.cache with _ | store
      · rw [ask, accepted] at came
        dsimp only at came
        rw [Service.answer, served] at came
        dsimp only at came
        split at came
        · cases came
        · cases came
      · rfl
  · rintro ⟨fits, listener, accepted, served⟩
    obtain ⟨store, served⟩ := Option.isSome_iff_exists.1 served
    have answer : (Service.answer listener.caches ⟨handle.cache, .ping⟩).1 = .ok := by
      rw [Service.answer, served]
      rfl
    have asked : (handle.ask network now connection .ping).1 = .answer .ok := by
      rw [ask_of_accepting accepted (answer ▸ Response.fits_ok), answer]
    rw [exchange_of_fits fits]
    refine ⟨.ok, ?_⟩
    rw [proceed, read, asked]
    rfl

theorem succeeds_call_of_open (connected : handle.connection = some connection) :
    Succeeds (handle.call network now .answered action).result ↔
      Succeeds (handle.exchange network now .answered connection action).result := by
  simp only [call, connected]

/-- Without a connection a ping succeeds if there is a running listener that serves the cache. -/
theorem succeeds_call_of_closed (closed : handle.connection = none) :
    Succeeds (handle.call network now .answered .ping).result ↔
      Request.fits ⟨handle.cache, .ping⟩ = true ∧ network.HasWayTo handle.address ∧
        ∃ listener, network.listeners.get? handle.address = some listener ∧
          listener.isRunning = true ∧ (listener.caches.get? handle.cache).isSome = true := by
  simp only [call, closed]
  constructor
  · intro answered
    split at answered
    next => obtain ⟨response, failed⟩ := answered; cases failed
    next connection dialled =>
      obtain ⟨way, listener, known, running, rfl⟩ := Network.dial_eq_ok_iff.1 dialled
      obtain ⟨fits, other, accepted, served⟩ := (succeeds_exchange_of_read rfl).1 answered
      obtain ⟨same, -⟩ := (accepting?_eq_some_iff rfl).1 accepted
      obtain rfl := Option.some.inj (known.symm.trans same)
      exact ⟨fits, way, listener, known, running, served⟩
  · rintro ⟨fits, way, listener, known, running, served⟩
    rw [Network.dial_eq_ok_iff.2 ⟨way, listener, known, running, rfl⟩]
    refine (succeeds_exchange_of_read rfl).2 ⟨fits, listener, ?_, served⟩
    refine (accepting?_eq_some_iff rfl).2 ⟨known, running, rfl, ?_⟩
    exact (Nat.sub_self now).trans_le (Nat.zero_le _)

end Handle

/-! ## What happens to a listener -/

namespace Listener

/-- Starts a listener on the port that it had, if it does not run. -/
def restart (listener : Listener) : Listener :=
  if listener.isRunning then listener else (listener.start listener.port).toOption.getD listener

/-- What may have become of a listener, which has been stopped or not. As long as the session is the
same, the listener has run on. -/
structure Follows (stopped : Prop) (before after : Listener) : Prop where
  timeout : after.socketTimeout = before.socketTimeout
  later : before.session ≤ after.session
  same : after.session = before.session → after.isRunning = before.isRunning
  kept : before.isRunning = true → ¬stopped → after.session = before.session
  lost : before.isRunning = true → stopped → before.session < after.session

variable {stopped stopped' : Prop} {before between after : Listener}

theorem follows_caches {stopped : Prop} (unstopped : ¬stopped) (listener : Listener)
    (caches : Table Store) : listener.Follows stopped { listener with caches } where
  timeout := rfl
  later := Nat.le_refl _
  same _ := rfl
  kept _ _ := rfl
  lost _ h := absurd h unstopped

theorem follows_restart {stopped : Prop} (unstopped : ¬stopped) (listener : Listener) :
    listener.Follows stopped listener.restart := by
  unfold restart
  split
  next => exact follows_caches unstopped listener listener.caches
  next resting =>
    unfold start
    split
    · exact ⟨rfl, Nat.le_succ _, fun same => absurd same (Nat.succ_ne_self _),
        fun running => absurd running resting, fun _ h => absurd h unstopped⟩
    · exact follows_caches unstopped listener listener.caches

theorem follows_stop {stopped : Prop} (h : stopped) (listener : Listener) :
    listener.Follows stopped listener.stop := by
  unfold stop
  split
  next running =>
    exact ⟨rfl, Nat.le_succ _, fun same => absurd same (Nat.succ_ne_self _),
      fun _ unstopped => absurd h unstopped, fun _ _ => Nat.lt_succ_self _⟩
  next resting =>
    exact ⟨rfl, Nat.le_refl _, fun _ => rfl, fun running => absurd running resting,
      fun running => absurd running resting⟩

theorem Follows.trans (h : before.Follows stopped between) (h' : between.Follows stopped' after) :
    before.Follows (stopped ∨ stopped') after where
  timeout := h'.timeout.trans h.timeout
  later := h.later.trans h'.later
  same := by
    intro same
    have := h.later
    have := h'.later
    exact (h'.same (by omega)).trans (h.same (by omega))
  kept := by
    rintro running unstopped
    obtain ⟨first, second⟩ := not_or.1 unstopped
    have kept := h.kept running first
    exact (h'.kept ((h.same kept).trans running) second).trans kept
  lost := by
    intro running either
    by_cases first : stopped
    · exact (h.lost running first).trans_le h'.later
    · have kept := h.kept running first
      have lost := h'.lost ((h.same kept).trans running) (either.resolve_left first)
      rwa [kept] at lost

end Listener

end CacheCluster
