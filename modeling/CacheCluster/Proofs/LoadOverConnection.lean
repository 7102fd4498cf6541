import CacheCluster.Proofs.Connection
import CacheCluster.Proofs.Loading

/-! # Loading over a connection

A handle that only reads leaves the listener as it is, and gets every answer that fits in a frame;
one that does not fit costs it the connection, and the next call opens another. So a load over a
handle halves the chunks that are too large and copies the whole cache.
-/

namespace CacheCluster

/-! ## Answers in frames -/

theorem Frame.exists_write {text : String} (fits : (write text).toBool = true) :
    ∃ frame, write text = .ok frame := by
  rcases written : write text with error | frame
  · rw [written] at fits
    cases fits
  · exact ⟨frame, rfl⟩

namespace Wire

theorem size_tagged (tag : String) (fields : List (String × Json)) :
    (tagged tag fields).size = 9 + (Json.string tag).size +
      (fields.map fun field => (Json.string field.1).size + field.2.size + 2).sum := by
  have type : (Json.string "type").size = 6 := by
    rw [Json.size_string]
    decide +kernel
  rw [tagged, Json.size_object (List.cons_ne_nil _ _), List.map_cons, List.sum_cons]
  dsimp only
  omega

theorem size_ofStrings_perm {names others : List String} (perm : names.Perm others) :
    (ofStrings names).size = (ofStrings others).size := by
  rcases names with _ | ⟨name, rest⟩
  · rw [perm.nil_eq]
  · have some_others : others ≠ [] := by
      rintro rfl
      exact absurd perm.eq_nil (List.cons_ne_nil _ _)
    rw [ofStrings, ofStrings, Json.size_array (by simp),
      Json.size_array (by simpa using some_others)]
    exact congrArg (1 + ·) ((perm.map Json.string).map fun value => value.size + 1).sum_nat

end Wire

namespace Request

/-- A request for the keys is as long as a ping. -/
theorem fits_keys {cache : String} (ping : fits ⟨cache, .ping⟩ = true) :
    fits ⟨cache, .keys⟩ = true := by
  have tags : (Json.string "PING").size = (Json.string "KEYS").size := by
    rw [Json.size_string, Json.size_string]
    decide +kernel
  rw [fits_iff] at ping ⊢
  simp only [toJson, Action.shape, Wire.size_tagged] at ping ⊢
  omega

end Request

namespace Response

/-- Whether a response can be written to a frame. -/
def fits (response : Response) : Bool :=
  (Frame.write response.encode).toBool

theorem fits_iff (response : Response) :
    response.fits = true ↔ response.toJson.size ≤ Frame.maxBytes :=
  Frame.toBool_write response.encode

/-- The order of the keys does not matter to their frame. -/
theorem fits_keys_perm {names others : List String} (perm : names.Perm others) :
    (keys names).fits = true ↔ (keys others).fits = true := by
  rw [fits_iff, fits_iff, toJson, toJson, Wire.size_tagged, Wire.size_tagged]
  simp only [List.map_cons, List.map_nil, List.sum_cons, List.sum_nil,
    Wire.size_ofStrings_perm perm]

/-- The same response, with listed keys in another order. -/
def listing (names : List String) : Response → Response
  | .keys _ => .keys names
  | response => response

end Response

/-! ## One call that reads -/

namespace Service

theorem perform_reading {action : Request.Action} (reads : action.isReading = true)
    (store : Store) :
    (perform store action).2 = store := by
  cases action <;> first | rfl | cases reads

end Service

/-- A connection is of the session that the listener is in, and all answers on it have been read. -/
structure Connection.IsClean (network : Network) (address : String) (connection : Connection) :
    Prop where
  read : connection.unread = []
  current : ∀ listener, network.listeners.get? address = some listener →
    connection.session = listener.session

namespace Handle

variable {network : Network} {handle : Handle} {store : Store} {action : Request.Action} {now : Nat}

def IsClean (network : Network) (handle : Handle) : Prop :=
  ∀ connection, handle.connection = some connection → connection.IsClean network handle.address

/-- All answers on the connection that is kept have been read, whichever session it is of. -/
def IsRead (handle : Handle) : Prop :=
  ∀ connection, handle.connection = some connection → connection.unread = []

/-- A call is made before the listener closes the connection that is kept for being idle. -/
def IsInTime (network : Network) (now : Nat) (handle : Handle) : Prop :=
  ∀ connection listener, handle.connection = some connection →
    network.listeners.get? handle.address = some listener →
      now - connection.lastUsed ≤ listener.socketTimeout

/-- What a call that is waited for comes to, when it gets through. -/
def outcome (handle : Handle) (action : Request.Action) (response : Response) : Result Response :=
  match Frame.write (Request.encode ⟨handle.cache, action⟩), Frame.write response.encode with
  | .error error, _ => .error error
  | .ok _, .error _ => .error handle.closed
  | .ok _, .ok _ => reading response

theorem outcome_of_fits {response : Response} (request : Request.fits ⟨handle.cache, action⟩ = true)
    (answer : response.fits = true) : handle.outcome action response = reading response := by
  obtain ⟨frame, written⟩ := Frame.exists_write request
  obtain ⟨frame', written'⟩ := Frame.exists_write answer
  rw [outcome, written, written']

theorem outcome_of_tooLarge {response : Response}
    (large : ¬(Request.fits ⟨handle.cache, action⟩ = true ∧ response.fits = true)) :
    ∃ error, handle.outcome action response = .error error := by
  rw [outcome]
  split
  next error _ => exact ⟨error, rfl⟩
  next => exact ⟨_, rfl⟩
  next written written' =>
    refine absurd ⟨?_, ?_⟩ large
    · rw [Request.fits, written]
      rfl
    · rw [Response.fits, written']
      rfl

/-- What a call that reads does: it leaves the network as it is, and the handle with no connection
or with one that it has just used. -/
structure Reads (network : Network) (now : Nat) (handle : Handle) (outcome : Result Response)
    (exchange : Exchange) : Prop where
  unchanged : exchange.network = network
  answered : exchange.result = some outcome
  same : ∃ connection, exchange.handle = { handle with connection }
  clean : exchange.handle.IsClean network
  used : ∀ connection, exchange.handle.connection = some connection → connection.lastUsed = now

theorem reads_fail (network : Network) (now : Nat) (handle : Handle) (error : Error) :
    Reads network now handle (.error error) (handle.fail network error) :=
  ⟨rfl, rfl, ⟨none, rfl⟩, nofun, nofun⟩

theorem exchange_reads (serves : network.Serves handle.address handle.cache store)
    (reads : action.isReading = true) {connection : Connection}
    (clean : connection.IsClean network handle.address)
    (accepted : (network.accepting? now handle.address connection).isSome) :
    Reads network now handle (handle.outcome action (Service.perform store action).1)
      (handle.exchange network now .answered connection action) := by
  obtain ⟨listener, accepted⟩ := Option.isSome_iff_exists.1 accepted
  obtain ⟨listener', known, -, hosted⟩ := serves.hosted
  obtain rfl : listener' = listener := by
    have found := accepted
    rw [Network.accepting?, known, Option.filter_eq_some_iff] at found
    exact Option.some.inj found.1
  have answer : Service.answer listener'.caches ⟨handle.cache, action⟩ =
      ((Service.perform store action).1, listener'.caches) := by
    rw [Service.answer, hosted]
    dsimp only
    rw [Service.perform_reading reads, Table.insert_held hosted]
  have unchanged : { network with
      listeners := network.listeners.insert handle.address listener' } = network := by
    rw [Table.insert_held known]
  have asked : handle.ask network now connection action =
      (if (Frame.write (Service.perform store action).1.encode).toBool then
        .answer (Service.perform store action).1 else .ended, network) := by
    rw [ask, accepted]
    dsimp only
    rw [answer]
    dsimp only
    rw [unchanged]
  rw [exchange, outcome, proceed, asked, clean.read]
  rcases Frame.write (Request.encode ⟨handle.cache, action⟩) with error | frame
  · exact reads_fail network now handle error
  rcases Frame.write (Service.perform store action).1.encode with error | frame'
  · exact reads_fail network now handle _
  · refine ⟨rfl, rfl, ⟨_, rfl⟩, ?_, ?_⟩
    · rintro _ ⟨⟩
      exact ⟨rfl, clean.current⟩
    · rintro _ ⟨⟩
      rfl

theorem call_reads (serves : network.Serves handle.address handle.cache store)
    (reads : action.isReading = true) (clean : handle.IsClean network)
    (inTime : handle.IsInTime network now) :
    Reads network now handle (handle.outcome action (Service.perform store action).1)
      (handle.call network now .answered action) := by
  obtain ⟨place, resolves⟩ := serves.resolves
  obtain ⟨listener, known, running, _⟩ := serves.hosted
  unfold call
  rcases connected : handle.connection with _ | connection
  · have dialled : network.dial now handle.address =
        .ok { session := listener.session, lastUsed := now } := by
      simp [Network.dial, resolves, serves.reachable, known, running]
    dsimp only
    rw [dialled]
    refine exchange_reads serves reads ⟨rfl, ?_⟩ ?_
    · intro other known'
      rw [Option.some.inj (known.symm.trans known')]
    · simp [Network.accepting?, known, running, Option.filter]
  · have kept := clean connection connected
    have prompt := inTime connection listener connected known
    refine exchange_reads serves reads kept ?_
    simp [Network.accepting?, known, running, Option.filter, kept.current listener known, prompt,
      kept.read]

/-- Over a connection of a session that is past, a call gets no answer and closes the connection. -/
theorem call_fails_of_past {connection : Connection} {listener : Listener}
    (connected : handle.connection = some connection) (read : connection.unread = [])
    (known : network.listeners.get? handle.address = some listener)
    (past : connection.session ≠ listener.session) :
    ∃ error, handle.call network now .answered action = handle.fail network error := by
  have refused : network.accepting? now handle.address connection = none := by
    simp [Network.accepting?, known, Option.filter, Ne.symm past]
  simp only [call, connected, exchange]
  split
  next error _ => exact ⟨error, rfl⟩
  next => exact ⟨handle.closed, by simp only [proceed, ask, refused, read]; rfl⟩

/-- A call that reads leaves the network as it is, and no connection of a session that is past. -/
theorem isClean_of_call (serves : network.Serves handle.address handle.cache store)
    (reads : action.isReading = true) (read : handle.IsRead)
    (inTime : handle.IsInTime network now) :
    let exchange := handle.call network now .answered action
    exchange.network = network ∧ (∃ connection, exchange.handle = { handle with connection }) ∧
      exchange.handle.IsClean network := by
  by_cases clean : handle.IsClean network
  · have kept := call_reads serves reads clean inTime
    exact ⟨kept.unchanged, kept.same, kept.clean⟩
  · -- The answers are read, so it is the session that is past: the call fails and closes it.
    obtain ⟨connection, connected, past⟩ : ∃ connection, handle.connection = some connection ∧
        ¬connection.IsClean network handle.address := by
      simpa only [IsClean, not_forall, exists_prop] using clean
    obtain ⟨listener, known, -⟩ := serves.hosted
    have other : connection.session ≠ listener.session := by
      intro same
      refine past ⟨read connection connected, fun listener' known' => ?_⟩
      rw [same, Option.some.inj (known.symm.trans known')]
    obtain ⟨error, failed⟩ := call_fails_of_past connected (read connection connected) known other
    intro exchange
    rw [show exchange = handle.fail network error from failed]
    exact ⟨rfl, ⟨none, rfl⟩, nofun⟩

theorem fits_of_exchanged {fate : Fate} {connection : Connection} {response : Response}
    (exchanged : (handle.exchange network now fate connection action).result =
      some (.ok response)) : Request.fits ⟨handle.cache, action⟩ = true := by
  unfold exchange at exchanged
  split at exchanged
  · cases exchanged
  next frame written =>
    rw [Request.fits, written]
    rfl

theorem fits_of_answered {response : Response}
    (answered : (handle.call network now .answered action).result = some (.ok response)) :
    Request.fits ⟨handle.cache, action⟩ = true := by
  unfold call at answered
  split at answered
  · contradiction
  · exact fits_of_exchanged answered
  · contradiction
  · split at answered
    · cases answered
    · exact fits_of_exchanged answered

end Handle

/-! ## The calls of one handle -/

/-- The calls that one handle makes one after the other, each of which is waited for. The handle
keeps its connection as long as they succeed. The peer lists its keys in a given order. -/
inductive Carried (keys : List String) : Network → Handle → List Delivery → Prop
  | nil {network : Network} {handle : Handle} : Carried keys network handle []
  | cons {network : Network} {handle : Handle} {call : Delivery} {calls : List Delivery}
      {result : Result Response}
      (addressed : call.url = handle.url)
      (inTime : handle.IsInTime network call.start)
      (answered : (handle.call network call.start .answered call.action).result = some result)
      (given : call.result =
        (Handle.checked handle.url call.action result).map (Response.listing keys))
      (rest : Carried keys (handle.call network call.start .answered call.action).network
        (handle.call network call.start .answered call.action).handle calls) :
    Carried keys network handle (call :: calls)

section Carrying

variable {network : Network} {handle : Handle} {store : Store} {keys : List String}
  {calls : List Delivery}

/-- What a call that reads gives its caller. -/
def Handle.reply (handle : Handle) (store : Store) (keys : List String)
    (action : Request.Action) : Result Response :=
  (Handle.checked handle.url action
    (handle.outcome action (Service.perform store action).1)).map (Response.listing keys)

theorem Carried.reply (carried : Carried keys network handle calls)
    (serves : network.Serves handle.address handle.cache store) (clean : handle.IsClean network)
    (reading : ∀ call ∈ calls, call.action.isReading = true) :
    ∀ call ∈ calls, call.result = handle.reply store keys call.action := by
  induction carried with
  | nil => exact fun _ mem => by cases mem
  | @cons network handle call calls result addressed inTime answered given _ ih =>
    obtain ⟨first, others⟩ := List.forall_mem_cons.1 reading
    have reads := Handle.call_reads serves first clean inTime
    obtain ⟨connection, same⟩ := reads.same
    obtain rfl := Option.some.inj (answered.symm.trans reads.answered)
    refine List.forall_mem_cons.2 ⟨given, ?_⟩
    have later := ih (by rw [reads.unchanged, same]; exact serves)
      (by rw [reads.unchanged]; exact reads.clean) others
    rw [same] at later
    exact later

/-- After a first call that reads, the others are made over a connection of the current session. -/
theorem Carried.others {call : Delivery} (carried : Carried keys network handle (call :: calls))
    (serves : network.Serves handle.address handle.cache store) (read : handle.IsRead)
    (reads : call.action.isReading = true) :
    ∃ connection, Handle.IsClean network { handle with connection } ∧
      Carried keys network { handle with connection } calls := by
  cases carried with
  | cons addressed inTime answered given rest =>
    obtain ⟨unchanged, ⟨connection, same⟩, clean⟩ :=
      Handle.isClean_of_call serves reads read inTime
    rw [unchanged, same] at rest
    rw [same] at clean
    exact ⟨connection, clean, rest⟩

theorem Carried.fits_of_ok {call : Delivery} {response : Response}
    (carried : Carried keys network handle (call :: calls)) (ended : call.result = .ok response) :
    Request.fits ⟨handle.cache, call.action⟩ = true := by
  cases carried with
  | @cons _ _ _ _ result addressed inTime answered given rest =>
    rcases result with error | answer
    · rw [given] at ended
      cases ended
    · exact Handle.fits_of_answered answered

theorem Handle.reply_keys (request : Request.fits ⟨handle.cache, .keys⟩ = true)
    (answer : (Response.keys store.names).fits = true) :
    handle.reply store keys .keys = .ok (.keys keys) := by
  rw [reply, Service.perform, outcome_of_fits request answer]
  rfl

theorem Handle.reply_getElements {chunk : List String}
    (request : Request.fits ⟨handle.cache, .getElements chunk⟩ = true)
    (answer : (Response.elements (store.elementsFor chunk)).fits = true) :
    handle.reply store keys (.getElements chunk) = .ok (.elements (store.elementsFor chunk)) := by
  rw [reply, Service.perform, outcome_of_fits request answer]
  rfl

theorem Handle.reply_of_tooLarge {action : Request.Action}
    (large : ¬(Request.fits ⟨handle.cache, action⟩ = true ∧
      (Service.perform store action).1.fits = true)) :
    ∃ error, handle.reply store keys action = .error error := by
  obtain ⟨error, failed⟩ := outcome_of_tooLarge large
  rw [reply, failed]
  exact ⟨error, rfl⟩

/-- A handle that reads answers a load from the store at the other end, if the listed keys and each
element by itself can be sent. -/
theorem Carried.answeredFrom (carried : Carried keys network handle calls)
    (serves : network.Serves handle.address handle.cache store) (clean : handle.IsClean network)
    (reading : ∀ call ∈ calls, call.action.isReading = true)
    (request : Request.fits ⟨handle.cache, .keys⟩ = true)
    (listing : (Response.keys store.names).fits = true)
    (alone : ∀ key ∈ keys, Request.fits ⟨handle.cache, .getElements [key]⟩ = true ∧
      (Response.elements (store.elementsFor [key])).fits = true) :
    ∀ call ∈ calls, Load.AnsweredFrom store keys call := by
  intro call mem
  have given := carried.reply serves clean reading call mem
  unfold Load.AnsweredFrom
  split
  next asked =>
    rw [asked, Handle.reply_keys request listing] at given
    exact given
  next chunk asked =>
    rw [asked] at given
    by_cases small : Request.fits ⟨handle.cache, .getElements chunk⟩ = true ∧
        (Response.elements (store.elementsFor chunk)).fits = true
    · rw [Handle.reply_getElements small.1 small.2] at given
      exact .inl given
    · obtain ⟨error, failed⟩ :
          ∃ error, handle.reply store keys (.getElements chunk) = .error error :=
        Handle.reply_of_tooLarge small
      refine .inr ⟨⟨error, given.trans failed⟩, ?_⟩
      rintro key listed rfl
      exact small (alone key listed)
  next => trivial

end Carrying

/-! ## A whole load -/

/-- The load that `loadNow` runs. -/
def Loader.loadFrom (loader : Loader) (neighbours : Neighbours) (cache : String) (now : Nat) :
    Load × List Load.Write :=
  (loader.newLoad cache now).complete neighbours now

theorem Loader.isReading_loadFrom {loader : Loader} {neighbours : Neighbours} {cache : String}
    {now : Nat} : ∀ call ∈ (loader.loadFrom neighbours cache now).1.calls,
      call.action.isReading = true :=
  fun _ mem => (Load.isReading_acts mem).resolve_left List.not_mem_nil

/-- A load from a peer over a connection copies its cache. The peer is any one of those that were
found by a ping; the ping and the calls of the load are made by one handle, in time, while nobody
changes what is served, which is a store with each element under its own key. The keys come in any
order, and must fit in a frame, as must each key and its element alone. Then the load ends well,
having copied as many elements as there are keys, and what the store held is overlaid with exactly
the entries of the peer: however the chunks are cut, and whatever the first element is like. -/
theorem load_copies_peer (loader : Loader) (cache : String) (now : Nat)
    (neighbours : Neighbours) (network : Network) (handle : Handle) (store : Store)
    (keys : List String) (ping : Delivery)
    (found : let lookup := neighbours.lookUp (now + loader.startupDelay) cache
      lookup.found[loader.picks loader.loads.length % lookup.found.length]? = some handle.url)
    (serves : network.Serves handle.address handle.cache store)
    (keyed : store.IsKeyed)
    (read : handle.IsRead)
    (listed : keys.Perm store.names)
    (pinged : ping.action = .ping ∧ ping.result = .ok .ok)
    (carried : Carried keys network handle
      (ping :: (loader.loadFrom neighbours cache now).1.calls))
    (listing : (Response.keys keys).fits = true)
    (alone : ∀ key ∈ keys, Request.fits ⟨handle.cache, .getElements [key]⟩ = true ∧
      (Response.elements (store.elementsFor [key])).fits = true) :
    let (load, writes) := loader.loadFrom neighbours cache now
    (∃ time, load.outcome? = some (time, .ok keys.length)) ∧
    (∀ (old : Store) (key : String),
      (old.absorb cache writes).get? key = (store.get? key).or (old.get? key)) ∧
    (loader.loadNow neighbours cache now).result = .ok keys.length ∧
    (loader.loadNow neighbours cache now).writes = writes := by
  -- the ping got through, so the cache name is short enough for a request for the keys
  have request : Request.fits ⟨handle.cache, .ping⟩ = true := by
    rw [← pinged.1]
    exact carried.fits_of_ok pinged.2
  obtain ⟨connection, clean, calls⟩ := carried.others serves read (by rw [pinged.1]; rfl)
  have answered := calls.answeredFrom serves clean Loader.isReading_loadFrom
    (Request.fits_keys request) ((Response.fits_keys_perm listed).1 listing) alone
  obtain ⟨⟨time, outcome⟩, written, own⟩ := Load.brings_start rfl found answered
  have held : ∀ key ∈ keys, (store.get? key).isSome = true :=
    fun key mem => Store.mem_names_iff.1 (listed.mem_iff.1 mem)
  rw [Store.length_elementsFor held] at outcome
  refine ⟨⟨time, outcome⟩, fun old key => ?_, ?_, rfl⟩
  · rw [Store.absorb, List.filter_eq_self.2 fun write mem => by simpa using own write mem]
    refine Store.get?_putAll_elementsFor keyed listed ?_ key
    rw [← written]
    exact (List.mergeSort_perm _ _).map _
  · have ended : ((loader.loadFrom neighbours cache now).1.outcome?.getD (now, .ok 0)).2 =
        .ok keys.length := by
      rw [show (loader.loadFrom neighbours cache now).1.outcome? = _ from outcome]
      rfl
    exact ended

/-! ### Calls over the network's own mesh -/

/-- The mesh of a network whose caches do not change and whose listeners list keys in some order. -/
def Network.meshListing (network : Network) (keys : List String) : Mesh :=
  { network.mesh with call now url action := {
      outcome := (network.ask now url action).map (Response.listing keys) } }

theorem Network.ask_meshListing (network : Network) (keys : List String) (now : Nat) (url : String)
    (action : Request.Action) :
    ((network.meshListing keys).ask now url action).result =
      (network.ask now url action).map (Response.listing keys) :=
  rfl

/-- The load is over, or waits for a call to a url that it has made at a time. -/
def Load.Stage.AsksAt (mesh : Mesh) (url : String) (now : Nat) : Load.Stage → Prop
  | .listing call | .sampling _ call | .copying _ _ _ call =>
    ∃ action, call = mesh.ask now url action
  | .finished _ _ => True
  | _ => False

section OwnMesh

variable {network : Network} {handle : Handle} {store : Store} {keys : List String}
  {neighbours : Neighbours} {load : Load} {now time : Nat} {url : String}

theorem asksAt_copy (mesh : Mesh) (now : Nat) (url : String) (loaded : Nat)
    (pending : List (List String)) :
    (Load.copy mesh now url loaded pending).AsksAt mesh url now := by
  cases pending with
  | nil => trivial
  | cons chunk rest => exact ⟨_, rfl⟩

theorem due_of_asksAt (mesh : neighbours.mesh = network.meshListing keys)
    (asks : load.stage.AsksAt neighbours.mesh url now)
    (due : Load.due? now load.stage = some time) : time = now := by
  have atOnce (action : Request.Action) :
      max now (Load.callEnd (neighbours.mesh.ask now url action)) = now := by
    rw [mesh]
    exact Nat.max_self now
  rcases stage : load.stage with _ | _ | call | ⟨_, call⟩ | ⟨_, _, _, call⟩ | _
  all_goals
    rw [stage] at asks due
  case listing | sampling | copying =>
    obtain ⟨action, rfl⟩ := asks
    exact (Option.some.inj due).symm.trans (atOnce action)
  all_goals first | exact False.elim asks | cases due

theorem asksAt_next (asks : load.stage.AsksAt neighbours.mesh url now) :
    (load.next now neighbours).1.AsksAt neighbours.mesh url now := by
  rcases stage : load.stage with
    due | lookup | call | ⟨keys, call⟩ | ⟨chunk, rest, loaded, call⟩ | _
  all_goals
    rw [stage] at asks
    rw [Load.next, stage]
    dsimp only
  · cases asks
  · cases asks
  · obtain ⟨action, rfl⟩ := asks
    unfold Load.afterKeys
    split
    all_goals first | trivial | exact ⟨_, rfl⟩
  · obtain ⟨action, rfl⟩ := asks
    unfold Load.afterSample
    split
    · exact asksAt_copy ..
    · trivial
  · obtain ⟨action, rfl⟩ := asks
    unfold Load.afterChunk
    split
    · exact asksAt_copy ..
    · split
      · dsimp only
        exact asksAt_copy ..
      · trivial
  · trivial
  · cases asks

theorem ask_of_asksAt {mesh : Mesh} {stage : Load.Stage} (asks : stage.AsksAt mesh url now)
    {call : Delivery} (called : stage.call? = some call) :
    ∃ action, call = mesh.ask now url action := by
  cases stage <;> first | (cases called; exact asks) | cases called

/-- A connection of its own makes no difference to a call that reads. -/
theorem ask_reading (parsed : PeerUrl.parse handle.url = .ok (handle.address, handle.cache))
    (serves : network.Serves handle.address handle.cache store) {action : Request.Action}
    (reads : action.isReading = true) :
    network.ask now handle.url action = Handle.checked handle.url action
      (handle.outcome action (Service.perform store action).1) := by
  let fresh : Handle :=
    { url := handle.url, address := handle.address, cache := handle.cache, timeout := 0 }
  have made : Handle.ofUrl handle.url 0 = .ok fresh := by
    rw [Handle.ofUrl, parsed]
    rfl
  have exchanged : Handle.Reads network now fresh
      (fresh.outcome action (Service.perform store action).1)
      (fresh.call network now .answered action) :=
    Handle.call_reads serves reads nofun nofun
  rw [Network.ask, made]
  dsimp only
  rw [exchanged.answered]
  rfl

/-- A handle that is left alone until it is used again at once. -/
def Handle.IsUsedAt (network : Network) (now : Nat) (handle : Handle) : Prop :=
  handle.IsClean network ∧
    ∀ connection, handle.connection = some connection → connection.lastUsed = now

theorem Carried.of_ask (handle : Handle)
    (parsed : PeerUrl.parse handle.url = .ok (handle.address, handle.cache))
    (serves : network.Serves handle.address handle.cache store) {action : Request.Action}
    (reads : action.isReading = true) (usedAt : handle.IsUsedAt network now) {calls : List Delivery}
    (rest : ∀ connection, Handle.IsUsedAt network now { handle with connection } →
      Carried keys network { handle with connection } calls) :
    Carried keys network handle
      ((network.meshListing keys).ask now handle.url action :: calls) := by
  have inTime : handle.IsInTime network now := by
    intro connection listener kept _
    rw [usedAt.2 connection kept, Nat.sub_self]
    exact Nat.zero_le _
  have exchanged := Handle.call_reads serves reads usedAt.1 inTime
  obtain ⟨connection, same⟩ := exchanged.same
  have given := network.ask_meshListing keys now handle.url action
  rw [ask_reading parsed serves reads] at given
  refine .cons rfl inTime exchanged.answered given ?_
  have later := rest connection (same ▸ ⟨exchanged.clean, exchanged.used⟩)
  change Carried keys (handle.call network now .answered action).network
    (handle.call network now .answered action).handle calls
  rw [exchanged.unchanged, same]
  exact later

/-- The calls that a load makes over the mesh of a network are those of one handle. -/
theorem carried_acts (mesh : neighbours.mesh = network.meshListing keys)
    (parsed : PeerUrl.parse handle.url = .ok (handle.address, handle.cache))
    (serves : network.Serves handle.address handle.cache store)
    (asks : load.stage.AsksAt neighbours.mesh handle.url now) :
    ∃ calls, (load.acts neighbours now none).1.calls = load.calls ++ calls ∧
      ∀ connection, Handle.IsUsedAt network now { handle with connection } →
        Carried keys network { handle with connection } calls := by
  -- a failed call costs the handle its connection, so the calls to come are those of any connection
  induction now, load using Load.acts_induction neighbours with
  | ended now load none =>
    rw [Load.acts_of_none none]
    exact ⟨[], (List.append_nil _).symm, fun _ _ => .nil⟩
  | act now load time due ih =>
    obtain rfl := due_of_asksAt mesh asks due
    obtain ⟨calls, made, carried⟩ := ih (asksAt_next asks)
    rw [Load.acts_of_due due]
    refine ⟨(load.next time neighbours).1.call?.toList ++ calls, ?_, ?_⟩
    · rw [← List.append_assoc]
      exact made
    · intro connection usedAt
      rcases called : (load.next time neighbours).1.call? with _ | call
      · exact carried connection usedAt
      have reads := Load.isReading_next called
      obtain ⟨action, rfl⟩ := ask_of_asksAt (asksAt_next asks) called
      rw [mesh] at reads ⊢
      exact Carried.of_ask { handle with connection } parsed serves reads usedAt carried

theorem lookUpAll_finish (mesh : neighbours.mesh = network.meshListing keys) (now : Nat)
    (urls : List String) : (neighbours.lookUpAll now urls).finish = now := by
  have atOnce (url : String) :
      (neighbours.mesh.connect now url).duration neighbours.lookupTimeout = 0 := by
    rw [mesh]
    exact Nat.zero_min _
  simp only [Neighbours.lookUpAll, atOnce]
  induction urls with
  | nil => rfl
  | cons url urls ih => rwa [List.foldl_cons, Nat.add_zero, Nat.max_self]

/-- The look-up of a peer and a load from it, over the mesh of a network. -/
theorem carried_loadFrom (loader : Loader) (cache : String) (start : Nat)
    (mesh : neighbours.mesh = network.meshListing keys)
    (parsed : PeerUrl.parse handle.url = .ok (handle.address, handle.cache))
    (serves : network.Serves handle.address handle.cache store)
    (unused : handle.connection = none)
    (found : let lookup := neighbours.lookUp (start + loader.startupDelay) cache
      lookup.found[loader.picks loader.loads.length % lookup.found.length]? = some handle.url) :
    Carried keys network handle
      ((network.meshListing keys).ask (start + loader.startupDelay) handle.url .ping ::
        (loader.loadFrom neighbours cache start).1.calls) := by
  let now := start + loader.startupDelay
  let waiting := loader.newLoad cache start
  let looking := waiting.acted neighbours now
  let listing := looking.acted neighbours now
  have due : Load.due? start waiting.stage = some now :=
    congrArg some (Nat.max_eq_right (Nat.le_add_right start loader.startupDelay))
  have due' : Load.due? now looking.stage = some now := by
    refine congrArg some ?_
    rw [Neighbours.lookUp, lookUpAll_finish mesh, Nat.max_self]
  have stage : listing.stage = .listing (neighbours.mesh.ask now handle.url .keys) := by
    change Load.afterLookup neighbours.mesh now (loader.picks loader.loads.length)
      (neighbours.lookUp now cache).found = _
    rw [Load.afterLookup, found]
  have asks : listing.stage.AsksAt neighbours.mesh handle.url now := by
    rw [stage]
    exact ⟨_, rfl⟩
  obtain ⟨calls, made, carried⟩ := carried_acts mesh parsed serves asks
  have all : (loader.loadFrom neighbours cache start).1.calls =
      (network.meshListing keys).ask now handle.url .keys :: calls := by
    change (Load.acts neighbours start none waiting).1.calls = _
    rw [Load.acts_of_due due, Load.acts_of_due due']
    refine made.trans ?_
    have first : listing.calls = looking.calls ++ listing.stage.call?.toList := rfl
    rw [first, stage, mesh]
    rfl
  have usedAt : handle.IsUsedAt network now := by
    constructor
    all_goals
      intro connection kept
      rw [unused] at kept
      cases kept
  rw [all]
  refine Carried.of_ask handle parsed serves rfl usedAt fun connection usedAt => ?_
  exact Carried.of_ask { handle with connection } parsed serves rfl usedAt carried

end OwnMesh

/-! ### Elements that only fit alone -/

section Unequal

open Dispatcher (filled size_filled)

/-- A store with a small element that is listed first, and two of `n` bytes. -/
def unequalStore (n : Nat) : Store :=
  Store.putAll ∅ [filled 1 "a", filled n "b", filled n "d"]

/-- A network with one listener, which serves that store. -/
def unequalNetwork (n : Nat) : Network where
  listeners := .ofList [("127.0.0.1:4000", {
    host := "127.0.0.1", requestedPort := 4000, isRunning := true,
    caches := .ofList [("c", unequalStore n)] })]

def unequalHandle : Handle where
  url := "tcp://127.0.0.1:4000/c"
  address := "127.0.0.1:4000"
  cache := "c"
  timeout := 0

def unequalNeighbours (n : Nat) : Neighbours where
  registry := Registry.register {} 0 unequalHandle.url
  mesh := (unequalNetwork n).meshListing ["a", "d", "b"]

/-- The sizes of the names and the tags in the requests and responses of a load. -/
theorem size_texts :
    (Json.string "PING").size = 6 ∧ (Json.string "KEYS").size = 6 ∧
      (Json.string "GET_ELEMENTS").size = 14 ∧ (Json.string "OK").size = 4 ∧
      (Json.string "ELEMENTS").size = 10 ∧ (Json.string "cache_name").size = 12 ∧
      (Json.string "keys").size = 6 ∧ (Json.string "elements").size = 10 ∧
      (Json.string "a").size = 3 ∧ (Json.string "b").size = 3 ∧ (Json.string "c").size = 3 ∧
      (Json.string "d").size = 3 := by
  simp only [Json.size_string]
  decide +kernel

theorem fits_ping_unequal :
    Request.fits ⟨unequalHandle.cache, .ping⟩ = true ∧ Response.ok.fits = true := by
  rw [Request.fits_iff, Response.fits_iff]
  simp only [unequalHandle, Request.toJson, Request.Action.shape, Response.toJson, Wire.size_tagged,
    List.map_cons, List.map_nil, List.sum_cons, List.sum_nil, size_texts, Frame.maxBytes]
  decide

theorem fits_keys_unequal : (Response.keys ["a", "d", "b"]).fits = true := by
  rw [Response.fits_iff]
  simp only [Response.toJson, Wire.size_tagged, Wire.ofStrings, List.map_cons, List.map_nil,
    List.sum_cons, List.sum_nil, Json.size_array (List.cons_ne_nil _ _), size_texts, Frame.maxBytes]
  decide

variable {n : Nat} {key : String}

theorem fits_alone (pos : 0 < n) (small : n ≤ 9000000) (short : (Json.string key).size = 3) :
    Request.fits ⟨unequalHandle.cache, .getElements [key]⟩ = true ∧
      (Response.elements [filled n key]).fits = true := by
  rw [Request.fits_iff, Response.fits_iff]
  simp only [unequalHandle, Request.toJson, Request.Action.shape, Response.toJson, Wire.size_tagged,
    Wire.ofStrings, List.map_cons, List.map_nil, List.sum_cons, List.sum_nil,
    Json.size_array (List.cons_ne_nil _ _), size_filled pos, size_texts, short, Frame.maxBytes]
  omega

theorem not_fits_together (large : 9000000 ≤ n) :
    (Response.elements [filled n "d", filled n "b"]).fits = false := by
  have pos : 0 < n := by omega
  rw [← Bool.not_eq_true, Response.fits_iff]
  simp only [Response.toJson, Wire.size_tagged, List.map_cons, List.map_nil, List.sum_cons,
    List.sum_nil, Json.size_array (List.cons_ne_nil _ _), size_filled pos, size_texts,
    Frame.maxBytes]
  omega

theorem elementsFor_unequal (n : Nat) :
    (unequalStore n).elementsFor ["a"] = [filled 1 "a"] ∧
      (unequalStore n).elementsFor ["b"] = [filled n "b"] ∧
      (unequalStore n).elementsFor ["d"] = [filled n "d"] ∧
      (unequalStore n).elementsFor ["d", "b"] = [filled n "d", filled n "b"] := by
  simp [Store.elementsFor, unequalStore, Store.putAll, filled]

theorem names_unequal (n : Nat) : (unequalStore n).names = ["a", "b", "d"] := by
  have order : ¬"b" < "a" ∧ ¬"d" < "a" ∧ ¬"d" < "b" := by decide +kernel
  have empty : (∅ : Table Element).entries = [] := rfl
  simp [Table.names, unequalStore, Store.putAll, Store.put, Table.insert, Table.place, filled,
    order, empty]

theorem fits_alone_unequal (pos : 0 < n) (small : n ≤ 9000000) :
    ∀ key ∈ ["a", "d", "b"], Request.fits ⟨unequalHandle.cache, .getElements [key]⟩ = true ∧
      (Response.elements ((unequalStore n).elementsFor [key])).fits = true := by
  obtain ⟨a, b, d, -⟩ := elementsFor_unequal n
  simp only [List.forall_mem_cons, a, b, d]
  refine ⟨fits_alone (by decide) (by decide) ?_, fits_alone pos small ?_, fits_alone pos small ?_,
    nofun⟩
  all_goals simp only [size_texts]

theorem serves_unequal (n : Nat) :
    (unequalNetwork n).Serves unequalHandle.address unequalHandle.cache (unequalStore n) :=
  ⟨rfl, ⟨_, rfl⟩, _, rfl, rfl, rfl⟩

theorem ping_unequal (n now : Nat) :
    (unequalNetwork n).ask now unequalHandle.url .ping = .ok .ok := by
  have outcome : unequalHandle.outcome .ping .ok = Handle.reading .ok :=
    Handle.outcome_of_fits fits_ping_unequal.1 fits_ping_unequal.2
  rw [ask_reading rfl (serves_unequal n) rfl, Service.perform, outcome]
  rfl

theorem found_unequal (n : Nat) :
    ((unequalNeighbours n).lookUp 0 "c").found = [unequalHandle.url] := by
  have urls : (unequalNeighbours n).urlsFor 0 "c" = [unequalHandle.url] := by
    have live : (unequalNeighbours n).registry.live 0 = [unequalHandle.url] := rfl
    have named : PeerUrl.isFor "c" unequalHandle.url = true := by decide +kernel
    rw [Neighbours.urlsFor, live, List.filter_cons_of_pos (by rw [named]; rfl), List.filter_nil]
  have connected : (unequalNeighbours n).mesh.connect 0 unequalHandle.url =
      { outcome := .ok () } := by
    change ({ outcome := ((unequalNetwork n).ask 0 unequalHandle.url .ping).map fun _ => () } :
      Attempt Unit) = _
    rw [ping_unequal]
    rfl
  rw [Neighbours.lookUp, urls]
  simp only [Neighbours.lookUpAll, List.filter_cons, List.filter_nil, connected]
  rfl

/-- Two elements that are too long for one frame arrive behind a small one all the same. -/
theorem load_copies_unequal_elements :
    (Response.elements ((unequalStore 9000000).elementsFor ["d", "b"])).fits = false ∧
    let (load, writes) := Loader.loadFrom {} (unequalNeighbours 9000000) "c" 0
    (∃ time, load.outcome? = some (time, .ok 3)) ∧
    ∀ (old : Store) (key : String),
      (old.absorb "c" writes).get? key = ((unequalStore 9000000).get? key).or (old.get? key) := by
  generalize size : 9000000 = n
  have found : ((unequalNeighbours n).lookUp (0 + 0) "c").found[
      0 % ((unequalNeighbours n).lookUp (0 + 0) "c").found.length]? = some unequalHandle.url := by
    rw [found_unequal]
    rfl
  have keyed : (unequalStore n).IsKeyed := Store.isKeyed_putAll nofun
  have read : unequalHandle.IsRead := nofun
  have listed : ["a", "d", "b"].Perm (unequalStore n).names := by
    rw [names_unequal]
    exact .cons "a" (.swap "b" "d" [])
  let ping := ((unequalNetwork n).meshListing ["a", "d", "b"]).ask (0 + 0) unequalHandle.url .ping
  have pinged : ping.result = .ok .ok := by
    rw [Network.ask_meshListing, ping_unequal]
    rfl
  have carried : Carried ["a", "d", "b"] (unequalNetwork n) unequalHandle
      (ping :: (Loader.loadFrom {} (unequalNeighbours n) "c" 0).1.calls) :=
    carried_loadFrom {} "c" 0 rfl rfl (serves_unequal n) rfl found
  have copied := load_copies_peer {} "c" 0 (unequalNeighbours n) (unequalNetwork n) unequalHandle
    (unequalStore n) ["a", "d", "b"] ping found (serves_unequal n) keyed read listed ⟨rfl, pinged⟩
    carried fits_keys_unequal (fits_alone_unequal (by omega) (by omega))
  refine ⟨?_, copied.1, copied.2.1⟩
  rw [(elementsFor_unequal n).2.2.2]
  exact not_fits_together (by omega)

end Unequal

end CacheCluster
