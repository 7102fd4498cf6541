import CacheCluster.Proofs.JsonText
import CacheCluster.Proofs.Replica
import CacheCluster.Transport.Handle

/-! # Calls over a connection

A call whose request fits in a frame does to a store at the other end what it says; one whose
request does not fit does nothing. The size of a request is the sum of the sizes of its messages and
a fixed rest.
-/

namespace CacheCluster

open Delivery

namespace Frame

theorem toBool_write (text : String) :
    (write text).toBool = true ↔ text.utf8ByteSize ≤ maxBytes := by
  unfold write
  dsimp only
  constructor
  · intro written
    split at written
    next small => exact small
    next => cases written
  · intro small
    rw [if_pos small]
    rfl

end Frame

/-! ## The size of a request -/

namespace Request

def fits (request : Request) : Bool :=
  (Frame.write request.encode).toBool

theorem fits_iff (request : Request) :
    request.fits = true ↔ request.toJson.size ≤ Frame.maxBytes :=
  Frame.toBool_write request.encode

theorem size_names :
    (Json.string "type").size = 6 ∧ (Json.string "cache_name").size = 12 ∧
      (Json.string "PUT").size = 5 ∧ (Json.string "element").size = 9 ∧
      (Json.string "SEND").size = 6 ∧ (Json.string "messages").size = 10 := by
  simp only [Json.size_string]
  decide +kernel

/-- The messages of a batch add up, each with a comma or a bracket, behind a start of fixed size. -/
theorem size_send (cache : String) {messages : List Message} (speaks : messages ≠ []) :
    (toJson ⟨cache, .send messages⟩).size =
      42 + (Json.string cache).size +
        (messages.map fun message => message.toJson.size + 1).sum := by
  obtain ⟨type, named, -, -, send, body⟩ := size_names
  have some_values : messages.map Message.toJson ≠ [] := by simpa using speaks
  have array := Json.size_array some_values
  rw [List.map_map] at array
  rw [toJson, Action.shape]
  dsimp only [Wire.tagged]
  rw [Json.size_object (List.cons_ne_nil _ _)]
  simp only [List.map_cons, List.map_nil, List.sum_cons, List.sum_nil, type, send, named, body,
    array, Function.comp_def]
  omega

theorem size_put (cache : String) (element : Element) :
    (toJson ⟨cache, .put element⟩).size =
      39 + (Json.string cache).size + element.toJson.size := by
  obtain ⟨type, named, put, body, -⟩ := size_names
  rw [toJson, Action.shape]
  dsimp only [Wire.tagged]
  rw [Json.size_object (List.cons_ne_nil _ _)]
  simp only [List.map_cons, List.map_nil, List.sum_cons, List.sum_nil, type, put, named, body]
  omega

theorem size_put_message (element : Element) :
    (Message.toJson (.put element)).size = 25 + element.toJson.size := by
  obtain ⟨type, -, put, body, -⟩ := size_names
  rw [Message.toJson, Wire.tagged, Json.size_object (List.cons_ne_nil _ _)]
  simp only [List.map_cons, List.map_nil, List.sum_cons, List.sum_nil, type, put, body]
  omega

end Request

/-! ## One call -/

/-- A listener at an address serves a cache, with some store. -/
structure Network.Serves (network : Network) (address cache : String) (store : Store) : Prop where
  reachable : network.isIsolated = false
  resolves : ∃ place, Address.parse address = .ok place
  hosted : ∃ listener, network.listeners.get? address = some listener ∧
    listener.isRunning = true ∧ listener.caches.get? cache = some store

def Network.stored? (network : Network) (address cache : String) : Option Store :=
  (network.listeners.get? address).bind fun listener => listener.caches.get? cache

variable {network last : Network} {address cache : String} {store : Store} {now : Nat}

theorem Network.Serves.stored? (serves : network.Serves address cache store) :
    network.stored? address cache = some store := by
  obtain ⟨listener, known, _, hosted⟩ := serves.hosted
  rw [Network.stored?, known]
  exact hosted

namespace Handle

variable {handle : Handle} {action : Request.Action}

/-- A handle can make a call if it has no connection, or one that is still accepted. -/
def IsReady (network : Network) (now : Nat) (handle : Handle) : Prop :=
  ∀ connection, handle.connection = some connection →
    (network.accepting? now handle.address connection).isSome

theorem receive_network (handle : Handle) (network : Network) (now : Nat) (connection : Connection)
    (incoming : List Incoming) :
    (handle.receive network now connection incoming).network = network := by
  unfold receive
  split <;> rfl

theorem exchange_network {connection : Connection} {listener : Listener}
    (accepted : network.accepting? now handle.address connection = some listener) :
    (handle.exchange network now .answered connection action).network =
      if Request.fits ⟨handle.cache, action⟩ then
        { network with listeners := network.listeners.insert handle.address { listener with
            caches := (Service.answer listener.caches ⟨handle.cache, action⟩).2 } }
      else network := by
  unfold exchange proceed Request.fits ask
  rw [accepted]
  rcases Frame.write (Request.encode ⟨handle.cache, action⟩) with error | frame
  · rfl
  · exact receive_network _ _ _ _ _

theorem exchange_serves (serves : network.Serves handle.address handle.cache store)
    {connection : Connection}
    (accepted : (network.accepting? now handle.address connection).isSome) :
    (handle.exchange network now .answered connection action).network.Serves handle.address
      handle.cache
      (if Request.fits ⟨handle.cache, action⟩ then (Service.perform store action).2
      else store) := by
  obtain ⟨listener, accepted⟩ := Option.isSome_iff_exists.1 accepted
  obtain ⟨listener', known, running, hosted⟩ := serves.hosted
  have same : listener' = listener := by
    have := accepted
    rw [Network.accepting?, known, Option.filter_eq_some_iff] at this
    exact Option.some.inj this.1
  subst same
  rw [exchange_network accepted]
  split
  · refine ⟨serves.reachable, serves.resolves, ?_⟩
    refine ⟨_, (Table.get?_insert _ _ _ _).trans (if_pos rfl), running, ?_⟩
    unfold Service.answer
    dsimp only
    rw [hosted]
    exact (Table.get?_insert _ _ _ _).trans (if_pos rfl)
  · exact serves

/-- A call does its work at the other end if its request fits in a frame, and nothing otherwise. -/
theorem call_serves (serves : network.Serves handle.address handle.cache store)
    (ready : handle.IsReady network now) :
    (handle.call network now .answered action).network.Serves handle.address handle.cache
      (if Request.fits ⟨handle.cache, action⟩ then (Service.perform store action).2
      else store) := by
  unfold call
  rcases connected : handle.connection with _ | connection
  · obtain ⟨place, resolves⟩ := serves.resolves
    obtain ⟨listener, known, running, _⟩ := serves.hosted
    have dialled : network.dial now handle.address =
        .ok { session := listener.session, lastUsed := now } := by
      simp [Network.dial, resolves, serves.reachable, known, running]
    dsimp only
    rw [dialled]
    refine exchange_serves serves ?_
    simp [Network.accepting?, known, running, Option.filter]
  · exact exchange_serves serves (ready connection connected)

end Handle

/-! ## Calls one after the other -/

/-- Calls to a url that are carried out one after the other, each by a handle that is ready for
it. -/
inductive Delivered (url : String) : Network → List Delivery → Network → Prop
  | nil {network : Network} : Delivered url network [] network
  | cons {network last : Network} {call : Delivery} {calls : List Delivery} {handle : Handle}
      (addressed : PeerUrl.parse url = .ok (handle.address, handle.cache))
      (ready : handle.IsReady network call.start)
      (rest : Delivered url (handle.call network call.start .answered call.action).network calls
        last) :
    Delivered url network (call :: calls) last

variable {url : String} {calls : List Delivery}

/-- As long as the peer is up, there is a way to carry out any calls. -/
theorem exists_delivered (parsed : PeerUrl.parse url = .ok (address, cache))
    (serves : network.Serves address cache store) (calls : List Delivery) :
    ∃ last, Delivered url network calls last := by
  induction calls generalizing network store with
  | nil => exact ⟨network, .nil⟩
  | cons call calls ih =>
    let handle : Handle := { url, address, cache, timeout := 0 }
    have ready : handle.IsReady network call.start := fun _ connected => by cases connected
    obtain ⟨last, rest⟩ := ih (handle.call_serves serves ready)
    exact ⟨last, .cons parsed ready rest⟩

theorem Delivered.serves (delivered : Delivered url network calls last)
    (parsed : PeerUrl.parse url = .ok (address, cache))
    (serves : network.Serves address cache store) :
    last.Serves address cache (store.applyAll
      ((calls.filter fun call => Request.fits ⟨cache, call.action⟩).flatMap messages)) := by
  induction delivered generalizing store with
  | nil => exact serves
  | @cons network last call calls handle addressed ready _ ih =>
    obtain ⟨rfl, rfl⟩ := Prod.mk.inj (Except.ok.inj (addressed.symm.trans parsed))
    have later := ih (handle.call_serves serves ready)
    rw [Service.perform_snd] at later
    rw [List.filter_cons]
    split at later
    next fits =>
      rw [if_pos fits, List.flatMap_cons, Store.applyAll_append]
      exact later
    next tooLarge =>
      rw [if_neg tooLarge]
      exact later

/-! ## Batches in frames -/

namespace Dispatcher

variable {dispatcher : Dispatcher} {events : List Event}

/-- Of the batches that a dispatcher sends, the peer gets those that fit in a frame. -/
theorem Queueing.delivered (h : dispatcher.Queueing now events)
    (parsed : PeerUrl.parse url = .ok (address, cache))
    (serves : network.Serves address cache store)
    (delivered : Delivered url network (dispatcher.callsMade url) last) :
    last.stored? address cache = some (store.applyAll
      (((dispatcher.callsMade url).map messages).filter fun batch =>
        Request.fits ⟨cache, .send batch⟩).flatten) := by
  have same : (dispatcher.callsMade url).filter (fun call => Request.fits ⟨cache, call.action⟩) =
      (dispatcher.callsMade url).filter fun call => Request.fits ⟨cache, .send call.messages⟩ := by
    refine List.filter_congr fun call mem => ?_
    rw [← h.action_eq mem]
  rw [(delivered.serves parsed serves).stored?, same, List.filter_map, List.flatMap_def]
  rfl

/-- A dispatcher that delivers at once has each message carried out that fits in a frame alone. -/
theorem Direct.delivered (h : dispatcher.Direct now events)
    (parsed : PeerUrl.parse url = .ok (address, cache))
    (serves : network.Serves address cache store)
    (alone : ∀ message ∈ messagesFor (PeerUrl.cacheName url) events,
      Request.fits ⟨cache, message.action⟩ = true)
    (delivered : Delivered url network (dispatcher.callsMade url) last) :
    last.stored? address cache =
      some (store.applyAll ((dispatcher.callsMade url).flatMap messages)) := by
  have sound : dispatcher.Sound now events := .direct h
  have all : (dispatcher.callsMade url).filter (fun call => Request.fits ⟨cache, call.action⟩) =
      dispatcher.callsMade url := by
    refine List.filter_eq_self.2 fun call mem => ?_
    have sent : call ∈ dispatcher.sent := by
      rw [callsMade, deliveries_of_no_queues h.noQueues] at mem
      exact (mem_callsTo_iff.1 mem).1
    obtain ⟨message, asked⟩ := h.single call sent
    rw [asked]
    refine alone message ((sound.orderly url).subsequence.subset ?_)
    refine List.mem_flatMap.2 ⟨call, mem, ?_⟩
    rw [messages_of_action asked]
    exact List.mem_singleton_self message
  rw [(delivered.serves parsed serves).stored?, all]

def inMode (settings : Settings.Replication) (asynchronous : Bool) : Settings.Replication :=
  { settings with asynchronous }

/-- Over connections, the copy that is sent batches and the copy that is sent each message alone
agree exactly if the batches that do not fit in a frame make no difference. A batch fits as long as
the sizes of its messages add up to no more than the limit leaves for them, however few they are. -/
theorem queueing_agrees_iff (settings : Settings.Replication) (now : Nat)
    (queued direct : List Step) (url address cache : String) (network : Network) (store : Store)
    (parsed : PeerUrl.parse url = .ok (address, cache))
    (serves : network.Serves address cache store)
    (same : accepted settings queued = accepted settings direct)
    (alone : ∀ message ∈ messagesFor (PeerUrl.cacheName url) (accepted settings direct),
      Request.fits ⟨cache, message.action⟩ = true)
    (findsQueued : FindsThroughout url { now, state := { settings := inMode settings true } }
      queued)
    (findsDirect : FindsThroughout url { now, state := { settings := inMode settings false } }
      direct)
    (drained : (runSteps { now, state := { settings := inMode settings true } }
      queued).state.IsDrained (PeerUrl.cacheName url)) :
    let batched := (runSteps { now, state := { settings := inMode settings true } } queued).state
    let single := (runSteps { now, state := { settings := inMode settings false } } direct).state
    let batches := (batched.callsMade url).map messages
    let fit := batches.filter fun batch => Request.fits ⟨cache, .send batch⟩
    ((∃ last, Delivered url network (batched.callsMade url) last) ∧
      ∃ last, Delivered url network (single.callsMade url) last) ∧
    (∀ last last', Delivered url network (batched.callsMade url) last →
      Delivered url network (single.callsMade url) last' →
      last'.stored? address cache = some (store.applyAll batches.flatten) ∧
      last.stored? address cache = some (store.applyAll fit.flatten) ∧
      (last.stored? address cache = last'.stored? address cache ↔
        store.applyAll fit.flatten = store.applyAll batches.flatten)) ∧
    ∀ batch, batch ≠ [] → (Request.fits ⟨cache, .send batch⟩ = true ↔
      42 + (Json.string cache).size + (batch.map fun message => message.toJson.size + 1).sum ≤
        Frame.maxBytes) := by
  intro batched single batches fit
  have queueing := (sound_fresh (inMode settings true) now queued).of_alive
    (by rw [settings_run]; rfl) drained.1
  have instant := (sound_fresh (inMode settings false) now direct).of_synchronous
    (by rw [settings_run]; rfl)
  refine ⟨⟨exists_delivered parsed serves _, exists_delivered parsed serves _⟩, ?_, ?_⟩
  · intro last last' delivered delivered'
    have sent : (batched.callsMade url).flatMap messages =
        messagesFor (PeerUrl.cacheName url) (accepted settings queued) :=
      callsMade_messages (inMode settings true) now findsQueued fun _ => drained
    have sent' : (single.callsMade url).flatMap messages =
        messagesFor (PeerUrl.cacheName url) (accepted settings direct) :=
      callsMade_messages (inMode settings false) now findsDirect fun asynchronous => by
        cases asynchronous
    have stored := queueing.delivered parsed serves delivered
    have stored' := instant.delivered parsed serves alone delivered'
    rw [show (Dispatcher.callsMade _ url).flatMap messages = _ from sent', ← same, ← sent,
      List.flatMap_def] at stored'
    refine ⟨stored', stored, ?_⟩
    rw [stored, stored', Option.some.injEq]
  · intro batch speaks
    rw [Request.fits_iff, Request.size_send cache speaks]

/-! ### Two puts that only fit alone -/

/-- An element of `n` bytes, the greatest that there are. -/
def filled (n : Nat) (key : String) : Element :=
  ⟨key, List.replicate n 255, 1, 0⟩

theorem size_filled {n : Nat} (pos : 0 < n) (key : String) :
    (filled n key).toJson.size = 4 * n + (Json.string key).size + 47 := by
  have some_bytes : List.replicate n (Json.number (.integer (255 : UInt8).toNat)) ≠ [] :=
    List.ne_nil_of_length_pos (by rwa [List.length_replicate])
  have array := Json.size_array some_bytes
  rw [List.map_replicate, List.sum_replicate_nat] at array
  have byte : (Json.number (.integer (255 : UInt8).toNat)).size = 3 := by decide +kernel
  have version : (Json.number (.integer (1 : Int64).toInt)).size = 1 := by decide +kernel
  have time : (Json.number (.integer (0 : Int64).toInt)).size = 1 := by decide +kernel
  have names : (Json.string "key").size + (Json.string "value").size +
      (Json.string "version").size + (Json.string "creationTime").size = 35 := by
    simp only [Json.size_string]
    decide +kernel
  rw [Element.toJson, filled, Json.size_object (List.cons_ne_nil _ _)]
  simp only [List.map_cons, List.map_nil, List.sum_cons, List.sum_nil, List.map_replicate, array,
    byte, version, time]
  omega

/-- A network with one listener, which serves an empty cache. -/
def oneListener : Network where
  listeners := .ofList [("127.0.0.1:4000", {
    host := "127.0.0.1", requestedPort := 4000, isRunning := true, caches := .ofList [("c", ∅)] })]

/-- The cache of that listener as the one peer, which is always found and asked over the network. -/
def onePeer : Neighbours where
  registry := Registry.register {} 0 "tcp://127.0.0.1:4000/c"
  mesh := { oneListener.mesh with connect _ _ := ⟨0, .ok ()⟩ }

theorem finds_onePeer (time : Nat) : onePeer.Finds time "tcp://127.0.0.1:4000/c" where
  live := .head _
  notLocal := List.not_mem_nil
  answers := rfl

def twoPuts (first second : Element) : List Step :=
  [⟨.notify (.put "c" first), fun _ => onePeer⟩, ⟨.notify (.put "c" second), fun _ => onePeer⟩,
    ⟨.pass 1000, fun _ => onePeer⟩]

def afterTwoPuts (asynchronous : Bool) (first second : Element) : Dispatcher :=
  (runSteps { state := { settings := inMode {} asynchronous } } (twoPuts first second)).state

variable (first second : Element)

theorem accepted_twoPuts :
    accepted {} (twoPuts first second) = [.put "c" first, .put "c" second] := rfl

theorem finds_twoPuts (asynchronous : Bool) :
    FindsThroughout "tcp://127.0.0.1:4000/c" { state := { settings := inMode {} asynchronous } }
      (twoPuts first second) :=
  ⟨fun _ _ _ _ _ => finds_onePeer _, fun _ _ _ _ _ => finds_onePeer _,
    fun _ _ _ => finds_onePeer _, trivial⟩

/-- The queue of the cache when the batch is yet to be sent. -/
def waiting : Queue Fanout where
  cache := "c"
  pending := [.put "c" first, .put "c" second]

/-- The queue of the cache when the batch has been sent. -/
def emptied : Queue Fanout where
  cache := "c"
  flushes := [{
    start := 1000
    batch := ⟨"c", [.put "c" first, .put "c" second]⟩
    work := some (.ofPeers onePeer.mesh Settings.Configuration.defaultSocketTimeout 1000
      [.put first, .put second] ["tcp://127.0.0.1:4000/c"])
    finish := some 1000 }]
  seen := 1000

/-- The flusher hands the batch over, finds the peer, and is told that the peer has answered. -/
theorem run_waiting (metrics : Metrics) :
    ((waiting first second).run (.fanout onePeer Settings.Configuration.defaultSocketTimeout) 0 1000
      metrics).1 = emptied first second := by
  unfold Queue.run
  rw [if_neg (by rintro ⟨⟩),
    Queue.acts_of_due (show (waiting first second).nextAct? _ 0 = some 1000 from rfl)
      (Nat.le_refl _),
    Queue.acts_of_due (show _ = some 1000 from rfl) (Nat.le_refl _),
    Queue.acts_of_due (show _ = some 1000 from rfl) (Nat.le_refl _), Queue.acts_of_none rfl]
  rfl

theorem queue_notified_twice :
    (runSteps { state := { settings := inMode {} true } }
      ((twoPuts first second).take 2)).state.queues.get? "c" = some (waiting first second) := by
  simp [twoPuts, runSteps, step, notify, Settings.Replication.accept, inMode, enqueue, queueFor,
    Queue.pushMetered, Queue.append, Event.put, Clocked.after, Clocked.waitUntil,
    Table.get?_insert, waiting]

theorem queue_twoPuts :
    (afterTwoPuts true first second).queues.get? "c" = some (emptied first second) := by
  have queueing := (sound_fresh (inMode {} true) 0 ((twoPuts first second).take 2)).of_alive
    (by rw [settings_run]; rfl) (by rw [isAlive_run]; rfl)
  have ran : afterTwoPuts true first second = (runSteps { state := { settings := inMode {} true } }
    ((twoPuts first second).take 2)).state.run onePeer 0 1000 := rfl
  rw [ran, get?_run onePeer (fun cache queue known => (queueing.kept cache queue known).1.named)
    (Nat.zero_le _), queue_notified_twice, Option.map_some, ranQueue, sink, settings_run]
  exact congrArg some (run_waiting first second _)

theorem isDrained_twoPuts : (afterTwoPuts true first second).IsDrained "c" := by
  constructor
  · rw [afterTwoPuts, isAlive_run]
    rfl
  · intro queue known
    obtain rfl := Option.some.inj ((queue_twoPuts first second).symm.trans known)
    exact ⟨rfl, rfl⟩

theorem batches_twoPuts :
    ((afterTwoPuts true first second).callsMade "tcp://127.0.0.1:4000/c").map messages =
      [[.put first, .put second]] := by
  have queueing : (afterTwoPuts true first second).Queueing _ _ :=
    (sound_fresh (inMode {} true) 0 (twoPuts first second)).of_alive (by rw [settings_run]; rfl)
      (isDrained_twoPuts first second).1
  have queue : (afterTwoPuts true first second).queues.get?
      (PeerUrl.cacheName "tcp://127.0.0.1:4000/c") = _ := queue_twoPuts first second
  rw [callsMade, queueing.callsTo_deliveries, queue]
  rfl

/-- Two puts whose texts fit in a frame alone but not together reach the peer one by one, and not at
all as a batch. -/
theorem queueing_loses_two_large_puts :
    let first := filled 9000000 "a"
    let second := filled 9000000 "b"
    (∃ last, Delivered "tcp://127.0.0.1:4000/c" oneListener
      ((afterTwoPuts true first second).callsMade "tcp://127.0.0.1:4000/c") last) ∧
    (∃ last, Delivered "tcp://127.0.0.1:4000/c" oneListener
      ((afterTwoPuts false first second).callsMade "tcp://127.0.0.1:4000/c") last) ∧
    ∀ last last',
      Delivered "tcp://127.0.0.1:4000/c" oneListener
        ((afterTwoPuts true first second).callsMade "tcp://127.0.0.1:4000/c") last →
      Delivered "tcp://127.0.0.1:4000/c" oneListener
        ((afterTwoPuts false first second).callsMade "tcp://127.0.0.1:4000/c") last' →
      last.stored? "127.0.0.1:4000" "c" = some ∅ ∧
      last'.stored? "127.0.0.1:4000" "c" = some (Store.putAll ∅ [first, second]) := by
  intro first second
  have keys : (Json.string "c").size = 3 ∧ (Json.string "a").size = 3 ∧
      (Json.string "b").size = 3 := by
    simp only [Json.size_string]
    decide +kernel
  have sizes : first.toJson.size = 36000050 ∧ second.toJson.size = 36000050 := by
    rw [size_filled (by decide), size_filled (by decide)]
    omega
  have alone : ∀ message ∈ messagesFor "c" (accepted {} (twoPuts first second)),
      Request.fits ⟨"c", message.action⟩ = true := by
    intro message mem
    rw [accepted_twoPuts] at mem
    rcases List.mem_pair.1 mem with rfl | rfl
    · rw [Message.action, Request.fits_iff, Request.size_put, Frame.maxBytes]
      omega
    · rw [Message.action, Request.fits_iff, Request.size_put, Frame.maxBytes]
      omega
  obtain ⟨⟨exists_batched, exists_single⟩, stores, fits_iff⟩ := queueing_agrees_iff {} 0
    (twoPuts first second) (twoPuts first second) "tcp://127.0.0.1:4000/c" "127.0.0.1:4000" "c"
    oneListener ∅ rfl ⟨rfl, ⟨_, rfl⟩, _, rfl, rfl, rfl⟩ rfl alone (finds_twoPuts first second true)
    (finds_twoPuts first second false) (isDrained_twoPuts first second)
  have tooLarge : Request.fits ⟨"c", .send [.put first, .put second]⟩ = false := by
    rw [← Bool.not_eq_true, fits_iff _ (List.cons_ne_nil _ _)]
    simp only [List.map_cons, List.map_nil, List.sum_cons, List.sum_nil, Request.size_put_message,
      Frame.maxBytes]
    omega
  refine ⟨exists_batched, exists_single, fun last last' delivered delivered' => ?_⟩
  obtain ⟨one, batch, _⟩ := stores last last' delivered delivered'
  have batches := batches_twoPuts first second
  rw [afterTwoPuts] at batches
  rw [batches] at one batch
  rw [List.filter_cons_of_neg (by simp [tooLarge])] at batch
  exact ⟨batch, one⟩

end Dispatcher

end CacheCluster
