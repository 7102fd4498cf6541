import CacheCluster.Node.Cluster
import CacheCluster.Proofs.DispatcherHistory

/-! # Copies of a cache

A node writes to a cache, and a peer applies what it is sent. When all kinds of changes are
replicated and the peer is always there, its copy holds nothing that the writer does not hold, and
it is the same when elements are sent themselves.
-/

namespace CacheCluster

open Delivery

/-! ## What messages leave -/

namespace Message

def concerns (key : String) : Message → Bool
  | .put element => element.key == key
  | .remove other => other == key
  | .removeAll => true

def left : Message → Option Element
  | .put element => some element
  | .remove _ | .removeAll => none

end Message

namespace Store

variable {key : String} {messages : List Message}

theorem get?_apply (store : Store) (message : Message) (key : String) :
    (store.apply message).get? key =
      if message.concerns key then message.left else store.get? key := by
  cases message with
  | put element => simp [apply, Message.concerns, Message.left, @eq_comm _ key]
  | remove other => simp [apply, Message.concerns, Message.left, @eq_comm _ key]
  | removeAll => rfl

/-- What messages leave for a key, if one of them concerns it. -/
def leaves (key : String) (messages : List Message) : Option (Option Element) :=
  (messages.filter (·.concerns key)).getLast?.map Message.left

theorem leaves_of_others (others : ∀ message ∈ messages, message.concerns key = false) :
    leaves key messages = none := by
  rw [leaves, List.filter_eq_nil_iff.2 fun message mem => by simp [others message mem]]
  rfl

/-- Of the messages on a key, only the last one matters. -/
theorem get?_applyAll (store : Store) (messages : List Message) (key : String) :
    (store.applyAll messages).get? key = (leaves key messages).getD (store.get? key) := by
  induction messages generalizing store with
  | nil => rfl
  | cons message messages ih =>
    refine (ih (store.apply message)).trans ?_
    rw [get?_apply, leaves, leaves, List.filter_cons]
    rcases message.concerns key with _ | _
    · rfl
    · rw [if_pos rfl, if_pos rfl, List.getLast?_cons]
      generalize (messages.filter (·.concerns key)).getLast? = last
      cases last <;> rfl

theorem applyAll_eq_iff {first second : List Message} (same : first.Perm second) (store : Store) :
    store.applyAll first = store.applyAll second ↔
      ∀ key, leaves key first = leaves key second := by
  constructor
  · intro equal key
    have held : (store.applyAll first).get? key = (store.applyAll second).get? key := by rw [equal]
    rw [get?_applyAll, get?_applyAll] at held
    have both : leaves key first = none ↔ leaves key second = none := by
      simp only [leaves, Option.map_eq_none_iff, List.getLast?_eq_none_iff]
      rw [← List.length_eq_zero_iff, ← List.length_eq_zero_iff, (same.filter _).length_eq]
    rcases one : leaves key first with _ | left
    · exact (both.1 one).symm
    · rcases other : leaves key second with _ | left'
      · rw [both.2 other] at one
        cases one
      · rw [one, other] at held
        exact congrArg some held
  · intro agree
    refine Table.ext_get? fun key => ?_
    rw [get?_applyAll, get?_applyAll, agree key]

end Store

/-! ## Copies within a store -/

namespace Store

variable {replica writer : Store}

/-- Every entry of a copy is an entry of the store that it follows. -/
def IsWithin (replica writer : Store) : Prop :=
  ∀ key element, replica.get? key = some element → writer.get? key = some element

theorem IsWithin.put (within : replica.IsWithin writer) (element : Element) :
    (replica.put element).IsWithin (writer.put element) := by
  intro key held h
  rw [get?_put] at h ⊢
  split at h
  next own => rwa [if_pos own]
  next other =>
    rw [if_neg other]
    exact within key held h

theorem IsWithin.drop (within : replica.IsWithin writer) {key : String} {changed : Store}
    (same : ∀ other, other ≠ key → changed.get? other = writer.get? other) :
    (replica.remove key).IsWithin changed := by
  intro other held h
  rw [get?_remove] at h
  split at h
  · cases h
  next ne =>
    rw [same other ne]
    exact within other held h

theorem isWithin_empty (writer : Store) : Store.IsWithin ∅ writer := by
  intro key held h
  simp at h

end Store

namespace Service

def performAll (store : Store) (calls : List Delivery) : Store :=
  calls.foldl (fun store call => (perform store call.action).2) store

theorem perform_snd (store : Store) (call : Delivery) :
    (perform store call.action).2 = store.applyAll call.messages := by
  unfold perform messages
  cases call.action <;> rfl

theorem performAll_eq (store : Store) (calls : List Delivery) :
    performAll store calls = store.applyAll (calls.flatMap messages) := by
  induction calls generalizing store with
  | nil => rfl
  | cons call calls ih =>
    rw [List.flatMap_cons, Store.applyAll_append, ← perform_snd]
    exact ih _

end Service

namespace Node

/-! ## Changes -/

/-- What a user does to a cache. -/
inductive Change
  | put (element : Element)
  | remove (key : String)
  | removeAll

namespace Change

def on (cache : String) (store : Store) : Change → Store × Option Event
  | .put element =>
    (store.put element,
      some (if store.contains element.key then .update cache element else .put cache element))
  | .remove key =>
    if store.contains key then (store.remove key, some (.remove cache key)) else (store, none)
  | .removeAll => (∅, some (.removeAll cache))

variable {cache : String} {settings : Settings.Replication} {replica writer : Store}

/-- The message that a change sends to the peers, if all goes on as the settings say. -/
def message? (settings : Settings.Replication) (cache : String) (store : Store)
    (change : Change) : Option Message :=
  ((change.on cache store).2.bind settings.accept).bind Event.message?

structure AllReplicated (settings : Settings.Replication) : Prop where
  puts : settings.puts = true
  updates : settings.updates = true
  removals : settings.removals = true

/-- An element that is put is sent, or the peers are told to drop its key. -/
theorem message?_put (all : AllReplicated settings) (element : Element) :
    message? settings cache writer (.put element) =
      some (if (if writer.contains element.key then settings.updatesViaCopy
        else settings.putsViaCopy) then .put element else .remove element.key) := by
  rcases held : writer.contains element.key with _ | _
  · rcases copied : settings.putsViaCopy with _ | _ <;>
      simp [message?, on, held, Event.put, Settings.Replication.accept, all.puts, copied,
        Event.message?]
  · rcases copied : settings.updatesViaCopy with _ | _ <;>
      simp [message?, on, held, Event.update, Settings.Replication.accept, all.updates, copied,
        Event.message?]

theorem message?_remove (all : AllReplicated settings) (key : String) :
    message? settings cache writer (.remove key) =
      if writer.contains key then some (.remove key) else none := by
  rcases held : writer.contains key with _ | _
  · simp [message?, on, held]
  · simp [message?, on, held, Event.remove, Settings.Replication.accept, all.removals,
      Event.message?]

theorem message?_removeAll (all : AllReplicated settings) :
    message? settings cache writer .removeAll = some .removeAll := by
  simp [message?, on, Event.removeAll, Settings.Replication.accept,
    Settings.Replication.replicatesAnything, all.puts, Event.message?]

theorem within (all : AllReplicated settings) (within : replica.IsWithin writer)
    (change : Change) :
    (replica.applyAll (message? settings cache writer change).toList).IsWithin
      (change.on cache writer).1 := by
  cases change with
  | put element =>
    rw [message?_put all]
    rcases (if writer.contains element.key then settings.updatesViaCopy
      else settings.putsViaCopy) with _ | _
    · refine within.drop fun other ne => ?_
      exact (Store.get?_put writer element other).trans (if_neg ne)
    · exact within.put element
  | remove key =>
    rw [message?_remove all, on]
    split
    · refine within.drop fun other ne => ?_
      exact (Store.get?_remove writer key other).trans (if_neg ne)
    · exact within
  | removeAll =>
    rw [message?_removeAll all]
    exact Store.isWithin_empty _

theorem same (all : AllReplicated settings) (puts : settings.putsViaCopy = true)
    (updates : settings.updatesViaCopy = true) (change : Change) :
    writer.applyAll (message? settings cache writer change).toList =
      (change.on cache writer).1 := by
  cases change with
  | put element =>
    rw [message?_put all, puts, updates, ite_self]
    rfl
  | remove key =>
    rw [message?_remove all, on]
    split <;> rfl
  | removeAll =>
    rw [message?_removeAll all]
    rfl

end Change

/-! ## A node on a clock -/

def make (node : Node) (mesh : Mesh) (now : Nat) (cache : String) (store : Store) :
    Change → Step Unit
  | .put element => node.put mesh now cache store element
  | .remove key =>
    let step := node.remove mesh now cache store key
    ⟨step.node, (), step.finish⟩
  | .removeAll => node.removeAll mesh now cache

inductive Happening
  | change (cache : String) (change : Change)
  | pass (milliseconds : Nat)
  /-- The node learns of other peers, or forgets some. -/
  | meet (provider : Provider)

/-- Something that happens, and how the peers behave in each turn. -/
structure Moment where
  happening : Happening
  mesh : (turn : Nat) → Mesh

def background (mesh : Nat → Mesh) : Background Node :=
  fun turn now limit node => node.run (mesh turn) now limit

def step (clock : Clocked Node) (moment : Moment) : Clocked Node :=
  match moment.happening with
  | .change cache change =>
    match clock.state.store? cache with
    | some store =>
      let made := clock.state.make (moment.mesh clock.turn) clock.now cache store change
      clock.after (background moment.mesh) made.node made.finish
    | none => clock
  | .pass milliseconds => clock.advance (background moment.mesh) milliseconds
  | .meet provider => { clock with state := { clock.state with provider } }

def runMoments (clock : Clocked Node) (moments : List Moment) : Clocked Node :=
  moments.foldl step clock

variable {node : Node} {mesh : Mesh} {now limit finish : Nat} {cache url : String} {store : Store}

/-- Every change is a write to the store, and then the notification of its event if it has one. -/
theorem make_eq (node : Node) (mesh : Mesh) (now : Nat) (cache : String) (store : Store)
    (change : Change) :
    node.make mesh now cache store change =
      match (change.on cache store).2 with
      | some event => (node.setStore cache (change.on cache store).1).notify mesh now event
      | none => ⟨node, (), now⟩ := by
  cases change with
  | put element => rfl
  | remove key =>
    unfold make remove Change.on
    dsimp only
    split <;> rfl
  | removeAll => rfl

def IsSettled (node : Node) : Prop :=
  ∀ loader, node.loader = some loader → loader.pending = 0

def absorbAt (writes : List Load.Write) (node : Node) (name : String) : Node :=
  (node.store? name).elim node fun store => node.setStore name (Store.absorb name writes store)

theorem absorb_eq (node : Node) (writes : List Load.Write) :
    node.absorb writes = node.cacheNames.foldl (absorbAt writes) node := by
  refine congrArg (List.foldl · node node.cacheNames) (funext₂ fun node name => ?_)
  unfold absorbAt
  rcases node.store? name with _ | store <;> rfl

/-- What loads wrote only replaces stores that there are. -/
theorem absorb_induction {motive : Node → Prop} {writes : List Load.Write} {node : Node}
    (start : motive node)
    (set : ∀ node name store, node.store? name = some store → motive node →
      motive (node.setStore name (Store.absorb name writes store))) :
    motive (node.absorb writes) := by
  rw [absorb_eq]
  generalize node.cacheNames = names
  induction names generalizing node with
  | nil => exact start
  | cons name names ih =>
    refine ih ?_
    unfold absorbAt
    rcases hosted : node.store? name with _ | store
    · exact start
    · exact set node name store hosted start

theorem absorb_nil (node : Node) : node.absorb [] = node := by
  have kept (store : Store) (cache : String) : Store.absorb cache [] store = store := by
    simp [Store.absorb, Store.putAll]
  have same (after : Node) (name : String) (store : Store)
      (hosted : after.store? name = some store) (h : after = node) :
      after.setStore name (Store.absorb name [] store) = node := by
    rw [kept, setStore, Listener.serveCache, Table.insert_held hosted]
    exact h
  exact absorb_induction (motive := (· = node)) rfl same

theorem run_of_isSettled (settled : node.IsSettled) (mesh : Mesh) (now limit : Nat) :
    node.run mesh now limit =
      { node with dispatcher := node.dispatcher.run (node.neighbours mesh) now limit } := by
  unfold run
  dsimp only
  split
  · rfl
  next loader known =>
    have still : ∀ load ∈ loader.loads, load.isPending = false := by
      have := settled loader known
      simpa [Loader.pending, List.countP_eq_zero] using this
    have loads : loader.loads.map (Load.run (node.neighbours mesh) now limit) =
        loader.loads.map fun load => (load, []) :=
      List.map_congr_left fun load mem => by simp [Load.run, still load mem]
    have ran : loader.run (node.neighbours mesh) now limit = (loader, []) := by
      simp [Loader.run, loads, Function.comp_def]
    rw [ran]
    dsimp only
    rw [absorb_nil, ← known]

theorem neighbours_setStore (hosted : node.store? cache = some store) (changed : Store)
    (mesh : Mesh) : (node.setStore cache changed).neighbours mesh = node.neighbours mesh := by
  unfold neighbours setStore Listener.serveCache Listener.advertised Listener.urlFor
  rw [Table.names_insert hosted]

theorem store?_setStore (node : Node) (cache other : String) (changed : Store) :
    (node.setStore cache changed).store? other =
      if other = cache then some changed else node.store? other :=
  Table.get?_insert _ _ _ _

/-! ## What a copy follows -/

theorem accept_cache {settings : Settings.Replication} {event taken : Event}
    (h : settings.accept event = some taken) : taken.cache = event.cache := by
  unfold Settings.Replication.accept at h
  split at h
  all_goals
    split at h
    · obtain rfl := Option.some.inj h
      rfl
    · cases h

theorem messagesFor_accept (settings : Settings.Replication) (event : Event) (cache : String) :
    Dispatcher.messagesFor cache (settings.accept event).toList =
      if event.cache = cache then ((settings.accept event).bind Event.message?).toList else [] := by
  rcases accepted : settings.accept event with _ | taken
  · simp
  · rw [Option.toList_some, Dispatcher.messagesFor_singleton, accept_cache accepted]
    rfl

namespace Change

theorem cache_of_on {cache : String} {store : Store} {change : Change} {event : Event}
    (h : (change.on cache store).2 = some event) : event.cache = cache := by
  cases change with
  | put element =>
    obtain rfl := Option.some.inj h
    split <;> rfl
  | remove key =>
    unfold on at h
    dsimp only at h
    split at h
    · obtain rfl := Option.some.inj h
      rfl
    · cases h
  | removeAll =>
    obtain rfl := Option.some.inj h
    rfl

/-- A relation between a copy and the store that it follows, kept by each change and its message. -/
def Keeps (settings : Settings.Replication) (R : Store → Store → Prop) : Prop :=
  ∀ (cache : String) (change : Change) (replica writer : Store), R replica writer →
    R (replica.applyAll (message? settings cache writer change).toList) (change.on cache writer).1

end Change

/-- At every look-up of a moment for its cache, `url` is found. -/
def FindsIn (url : String) (clock : Clocked Node) (moment : Moment) : Prop :=
  match moment.happening with
  | .change cache change => ∀ store, clock.state.store? cache = some store →
    ∀ event, (change.on cache store).2 = some event →
      Dispatcher.FindsAtOnce (clock.state.neighbours (moment.mesh clock.turn)) clock.now url
        clock.state.dispatcher event
  | .pass _ =>
    Dispatcher.FindsMeanwhile (clock.state.neighbours (moment.mesh (clock.turn + 1))) url
      clock.state.dispatcher (step clock moment).state.dispatcher
  | .meet _ => True

def FindsThroughout (url : String) : Clocked Node → List Moment → Prop
  | _, [] => True
  | clock, moment :: moments =>
    FindsIn url clock moment ∧ FindsThroughout url (step clock moment) moments

/-- What a node keeps while it sends what happens to its caches to a peer at `url`. -/
structure Sending (settings : Settings.Replication) (url : String) (events : List Event)
    (clock : Clocked Node) : Prop where
  configured : clock.state.dispatcher.settings = settings
  settled : clock.state.IsSettled
  isAlive : clock.state.dispatcher.isAlive = true
  sound : clock.state.dispatcher.Sound clock.now events
  complete : clock.state.dispatcher.Complete url events

/-- The peer follows one of the caches meanwhile. -/
structure Followed (settings : Settings.Replication) (R : Store → Store → Prop) (url : String)
    (replica : Store) (events : List Event) (clock : Clocked Node) : Prop
    extends Sending settings url events clock where
  follows : ∃ writer, clock.state.store? (PeerUrl.cacheName url) = some writer ∧
    R (replica.applyAll (Dispatcher.messagesFor (PeerUrl.cacheName url) events)) writer

variable {settings : Settings.Replication} {R : Store → Store → Prop} {replica : Store}
  {events : List Event} {clock : Clocked Node} {moment : Moment}

/-- A notification that is over leaves nothing to happen behind it. -/
theorem after_eq {background' : Nat → Mesh} (settled : node.IsSettled)
    (still : clock.now < finish → node.dispatcher.queues = ∅) :
    clock.after (background background') node finish =
      ⟨max clock.now finish, clock.turn + 2, node⟩ := by
  unfold Clocked.after Clocked.waitUntil
  dsimp only
  split
  next waits =>
    rw [background, run_of_isSettled settled, Dispatcher.run_of_no_queues (still waits)]
  next => rfl

theorem Sending.setStore (h : Sending settings url events clock) (cache : String) (store : Store) :
    Sending settings url events { clock with state := clock.state.setStore cache store } :=
  ⟨h.configured, h.settled, h.isAlive, h.sound, h.complete⟩

theorem Sending.meet (h : Sending settings url events clock) (provider : Provider) :
    Sending settings url events { clock with state := { clock.state with provider } } :=
  ⟨h.configured, h.settled, h.isAlive, h.sound, h.complete⟩

theorem Sending.notify (h : Sending settings url events clock) (mesh : Nat → Mesh) {event : Event}
    (finds : Dispatcher.FindsAtOnce (clock.state.neighbours (mesh clock.turn)) clock.now url
      clock.state.dispatcher event) :
    let notified := clock.state.notify (mesh clock.turn) clock.now event
    let after := clock.after (background mesh) notified.node notified.finish
    Sending settings url (events ++ (settings.accept event).toList) after ∧
      ∀ cache, after.state.store? cache = clock.state.store? cache := by
  intro notified after
  let neighbours := clock.state.neighbours (mesh clock.turn)
  have sound := h.sound.notify neighbours event
  have complete := h.complete.notify h.sound finds
  obtain ⟨configured, isAlive⟩ := Dispatcher.notify_keeps neighbours clock.now
    clock.state.dispatcher event
  have waited : after = ⟨max clock.now notified.finish, clock.turn + 2, notified.node⟩ :=
    after_eq h.settled (h.sound.still neighbours event)
  have taken : clock.state.dispatcher.taken? event = settings.accept event := by
    rw [Dispatcher.taken?, h.isAlive, h.configured, if_pos rfl]
  rw [taken] at sound complete
  rw [waited]
  exact ⟨⟨configured.trans h.configured, h.settled, isAlive.trans h.isAlive,
    sound.later (Nat.le_max_right _ _), complete⟩, fun _ => rfl⟩

theorem Sending.pass (h : Sending settings url events clock) {mesh : Nat → Mesh}
    {milliseconds : Nat} (finds : FindsIn url clock ⟨.pass milliseconds, mesh⟩) :
    let after := step clock ⟨.pass milliseconds, mesh⟩
    Sending settings url events after ∧
      ∀ cache, after.state.store? cache = clock.state.store? cache := by
  intro after
  let neighbours := clock.state.neighbours (mesh (clock.turn + 1))
  let limit := clock.now + milliseconds
  have le : clock.now ≤ limit := Nat.le_add_right _ _
  have ran : after.state = { clock.state with
      dispatcher := clock.state.dispatcher.run neighbours clock.now limit } :=
    run_of_isSettled h.settled _ _ _
  have complete : (clock.state.dispatcher.run neighbours clock.now limit).Complete url events := by
    refine h.complete.run h.sound le ?_
    have finds : Dispatcher.FindsMeanwhile neighbours url clock.state.dispatcher
        after.state.dispatcher := finds
    rwa [ran] at finds
  obtain ⟨configured, isAlive, _⟩ := Dispatcher.run_keeps neighbours clock.now limit
    clock.state.dispatcher
  have now : after = ⟨limit, clock.turn + 2, after.state⟩ := rfl
  rw [now, ran]
  exact ⟨⟨configured.trans h.configured, h.settled, isAlive.trans h.isAlive,
    h.sound.run le neighbours, complete⟩, fun _ => rfl⟩

theorem sending_start (fresh : node.dispatcher = { settings }) (settled : node.IsSettled)
    (now : Nat) (url : String) : Sending settings url [] { now, state := node } where
  configured := by rw [fresh]
  settled := settled
  isAlive := by rw [fresh]
  sound := by
    rw [fresh]
    exact Dispatcher.sound_start settings now
  complete := by
    rw [fresh]
    exact Dispatcher.complete_start settings url

/-- A copy at a peer that has answered all calls is what the messages make of it. -/
theorem Sending.received (h : Sending settings url events clock)
    (succeed : ∀ call ∈ clock.state.dispatcher.callsMade url, call.failed = false)
    (drained : settings.asynchronous = true →
      clock.state.dispatcher.IsDrained (PeerUrl.cacheName url)) (replica : Store) :
    Service.performAll replica (clock.state.dispatcher.answered url) =
      replica.applyAll (Dispatcher.messagesFor (PeerUrl.cacheName url) events) := by
  have received := h.complete.messages_eq h.sound (h.configured.symm ▸ drained)
  rw [Service.performAll_eq, Dispatcher.answered_eq succeed, Dispatcher.callsMade, received]

theorem related_setStore (keeps : Change.Keeps settings R)
    (hosted : node.store? cache = some store) (change : Change)
    (related : ∃ writer, node.store? (PeerUrl.cacheName url) = some writer ∧
      R (replica.applyAll (Dispatcher.messagesFor (PeerUrl.cacheName url) events)) writer)
    {event : Event} (happened : (change.on cache store).2 = some event) :
    ∃ writer,
      (node.setStore cache (change.on cache store).1).store? (PeerUrl.cacheName url) =
        some writer ∧
      R (replica.applyAll (Dispatcher.messagesFor (PeerUrl.cacheName url)
        (events ++ (settings.accept event).toList))) writer := by
  obtain ⟨writer, known, related⟩ := related
  have named := Change.cache_of_on happened
  rw [Dispatcher.messagesFor_append, Store.applyAll_append, messagesFor_accept, named,
    store?_setStore]
  by_cases same : cache = PeerUrl.cacheName url
  · subst same
    obtain rfl : store = writer := Option.some.inj (hosted.symm.trans known)
    refine ⟨_, if_pos rfl, ?_⟩
    rw [if_pos rfl]
    have kept := keeps (PeerUrl.cacheName url) change _ store related
    rwa [Change.message?, happened] at kept
  · refine ⟨writer, (if_neg (Ne.symm same)).trans known, ?_⟩
    rw [if_neg same]
    exact related

theorem Followed.change (h : Followed settings R url replica events clock)
    (keeps : Change.Keeps settings R) {mesh : Nat → Mesh} {change : Change}
    (finds : FindsIn url clock ⟨.change cache change, mesh⟩) :
    ∃ events, Followed settings R url replica events
      (step clock ⟨.change cache change, mesh⟩) := by
  unfold step
  dsimp only
  split
  next store hosted =>
    rw [make_eq]
    rcases happened : (change.on cache store).2 with _ | event
    · refine ⟨events, ?_⟩
      rw [after_eq h.settled fun waits => absurd waits (Nat.lt_irrefl _)]
      exact ⟨⟨h.configured, h.settled, h.isAlive, h.sound.later (Nat.le_max_left _ _),
        h.complete⟩, h.follows⟩
    · have written := h.setStore cache (change.on cache store).1
      have found := finds store hosted event happened
      rw [← neighbours_setStore hosted (change.on cache store).1] at found
      obtain ⟨sending, same⟩ := written.notify mesh found
      refine ⟨_, sending, ?_⟩
      obtain ⟨writer, known, related⟩ :=
        related_setStore keeps hosted change h.follows happened
      exact ⟨writer, (same _).trans known, related⟩
  next => exact ⟨events, h⟩

theorem Followed.pass (h : Followed settings R url replica events clock) {mesh : Nat → Mesh}
    {milliseconds : Nat} (finds : FindsIn url clock ⟨.pass milliseconds, mesh⟩) :
    Followed settings R url replica events (step clock ⟨.pass milliseconds, mesh⟩) := by
  obtain ⟨sending, same⟩ := h.toSending.pass finds
  obtain ⟨writer, known, related⟩ := h.follows
  exact ⟨sending, writer, (same _).trans known, related⟩

theorem Followed.run (h : Followed settings R url replica events clock)
    (keeps : Change.Keeps settings R) {moments : List Moment}
    (finds : FindsThroughout url clock moments) :
    ∃ events, Followed settings R url replica events (runMoments clock moments) := by
  induction moments generalizing clock events with
  | nil => exact ⟨events, h⟩
  | cons moment moments ih =>
    obtain ⟨now, later⟩ := finds
    rcases moment with ⟨⟨cache, change⟩ | milliseconds | provider, mesh⟩
    · obtain ⟨events, h⟩ := h.change keeps now
      exact ih h later
    · exact ih (h.pass now) later
    · have met : Followed settings R url replica events (step clock ⟨.meet provider, mesh⟩) :=
        ⟨h.meet provider, h.follows⟩
      exact ih met later

theorem followed_start {writer : Store} (fresh : node.dispatcher = { settings })
    (settled : node.IsSettled) (hosted : node.store? (PeerUrl.cacheName url) = some writer)
    (related : R replica writer) (now : Nat) :
    Followed settings R url replica [] { now, state := node } :=
  ⟨sending_start fresh settled now url, writer, hosted, related⟩

/-- A copy that has received all that was sent is as the relation says. -/
theorem Followed.related (h : Followed settings R url replica events clock)
    (succeed : ∀ call ∈ clock.state.dispatcher.callsMade url, call.failed = false)
    (drained : settings.asynchronous = true →
      clock.state.dispatcher.IsDrained (PeerUrl.cacheName url)) :
    ∃ writer, clock.state.store? (PeerUrl.cacheName url) = some writer ∧
      R (Service.performAll replica (clock.state.dispatcher.answered url)) writer := by
  rw [h.received succeed drained]
  exact h.follows

/-- While a single node changes its caches and replicates all changes, a peer that is always found
and answers every call holds nothing for a key but what the writer holds, as soon as nothing waits;
and when elements are always sent themselves, two copies that were equal are equal again. -/
theorem copies_cohere (node : Node) (settings : Settings.Replication) (now : Nat)
    (moments : List Moment) (url : String) (writer replica : Store)
    (all : Change.AllReplicated settings) (fresh : node.dispatcher = { settings })
    (settled : node.IsSettled) (hosted : node.store? (PeerUrl.cacheName url) = some writer)
    (within : replica.IsWithin writer)
    (finds : FindsThroughout url { now, state := node } moments)
    (succeed : ∀ call ∈ (runMoments { now, state := node } moments).state.dispatcher.callsMade url,
      call.failed = false)
    (drained : settings.asynchronous = true →
      (runMoments { now, state := node } moments).state.dispatcher.IsDrained
        (PeerUrl.cacheName url)) :
    let ended := (runMoments { now, state := node } moments).state
    let copy := Service.performAll replica (ended.dispatcher.answered url)
    ∃ written, ended.store? (PeerUrl.cacheName url) = some written ∧
      (∀ key element, copy.get? key = some element → written.get? key = some element) ∧
      (settings.putsViaCopy = true → settings.updatesViaCopy = true → replica = writer →
        copy = written) := by
  intro ended copy
  obtain ⟨events, followed⟩ := (followed_start fresh settled hosted within now).run
    (fun _ change _ _ within => change.within all within) finds
  obtain ⟨written, known, isWithin⟩ := followed.related succeed drained
  refine ⟨written, known, isWithin, fun puts updates same => ?_⟩
  have keeps : Change.Keeps settings Eq := by
    rintro cache change _ writer rfl
    exact change.same all puts updates
  obtain ⟨events, followed⟩ := (followed_start fresh settled hosted same now).run keeps finds
  obtain ⟨written', known', same⟩ := followed.related succeed drained
  exact same.trans (Option.some.inj (known'.symm.trans known))

/-- A writer that sends each change at once to one peer. -/
def writing : Node where
  listener := { host := "localhost", requestedPort := 4000, caches := .ofList [("c", ∅)] }
  provider := .manual ["tcp://away:4000/c"]
  dispatcher := { settings := { asynchronous := false } }
  loader := none
  lookupTimeout := 10

def answering : Nat → Mesh :=
  fun _ => { connect _ _ := ⟨0, .ok ()⟩, call _ _ _ := ⟨0, .ok .ok⟩ }

def putting (value : List UInt8) (version : Int64) : Moment where
  happening := .change "c" (.put ⟨"k", value, version, 0⟩)
  mesh _ := { connect _ _ := ⟨0, .ok ()⟩, call _ _ _ := ⟨0, .ok .ok⟩ }

/-- A put and an update leave the same in both copies. -/
theorem copies_cohere_put_update :
    let ended := (runMoments { state := writing } [putting [1] 1, putting [2] 2]).state
    ∃ written, ended.store? "c" = some written ∧
      Service.performAll ∅ (ended.dispatcher.answered "tcp://away:4000/c") = written := by
  obtain ⟨written, known, _, same⟩ := copies_cohere writing { asynchronous := false } 0
    [putting [1] 1, putting [2] 2] "tcp://away:4000/c" ∅ ∅ ⟨rfl, rfl, rfl⟩ rfl
    (fun loader known => by cases known) rfl (Store.isWithin_empty ∅)
    ⟨fun _ _ _ _ _ _ _ _ _ => ⟨by decide, by decide +kernel, by decide +kernel⟩,
      fun _ _ _ _ _ _ _ _ _ => ⟨by decide +kernel, by decide +kernel, by decide +kernel⟩,
      trivial⟩
    (by decide +kernel) (fun asynchronous => by cases asynchronous)
  exact ⟨written, known, same rfl rfl rfl⟩

end Node

end CacheCluster
