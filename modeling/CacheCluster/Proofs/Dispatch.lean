import CacheCluster.Proofs.Fanout
import CacheCluster.Replication.Dispatcher

/-! # What a dispatcher keeps

A dispatcher is in one of three states: it delivers at once, it queues, or it queued and was shut
down. In each of them the calls to a peer carry a subsequence of the messages for its cache, and all
of them when every look-up found the peer and nothing waits.
-/

namespace CacheCluster

open scoped List
open Delivery

namespace Dispatcher

variable {neighbours : Neighbours} {now limit : Nat} {events : List Event} {url cache : String}
  {dispatcher : Dispatcher}

/-! ## Messages -/

/-- The messages that the peers of a cache are to apply for some events. -/
def messagesFor (cache : String) (events : List Event) : List Message :=
  (events.filter (·.cache == cache)).filterMap Event.message?

@[simp] theorem messagesFor_nil (cache : String) : messagesFor cache [] = [] := rfl

@[simp] theorem messagesFor_append (cache : String) (first second : List Event) :
    messagesFor cache (first ++ second) = messagesFor cache first ++ messagesFor cache second := by
  simp [messagesFor]

theorem messagesFor_singleton (event : Event) :
    messagesFor cache [event] = if event.cache = cache then event.message?.toList else [] := by
  by_cases same : event.cache = cache
  · rcases message : event.message? with _ | message <;> simp [messagesFor, same, message]
  · simp [messagesFor, same]

theorem messages_of_action {call : Delivery} {message : Message}
    (h : call.action = message.action) : call.messages = [message] := by
  cases message <;> simp [Delivery.messages, h, Message.action]

/-! ## Calls one after the other -/

/-- A call to each url, one after the other, from a time to the end. -/
theorem deliverInTurn_calls (mesh : Mesh) (timeout : Nat) (action : Request.Action) (time : Nat)
    (urls : List String) :
    let made := deliverInTurn mesh timeout action time urls
    made.1.map (·.url) = urls ∧ time ≤ made.2 ∧
      ∀ call ∈ made.1, call.action = action ∧ time ≤ call.start ∧ call.over timeout ≤ made.2 := by
  induction urls generalizing time with
  | nil => simp [deliverInTurn]
  | cons url urls ih =>
    let call := mesh.askWithin timeout time url action
    have took : time ≤ call.over timeout := by
      simp only [call, Mesh.askWithin, Delivery.over]
      split <;> simp
    obtain ⟨called, le, calls⟩ := ih (call.over timeout)
    refine ⟨congrArg (url :: ·) called, took.trans le, ?_⟩
    rintro other (_ | ⟨_, mem⟩)
    · exact ⟨rfl, le_rfl, le⟩
    · obtain ⟨asked, waited, isOver⟩ := calls other mem
      exact ⟨asked, took.trans waited, isOver⟩

/-- A delivery calls a url once if it was found, and not at all otherwise. -/
theorem callsTo_deliverInTurn (neighbours : Neighbours) (now timeout : Nat) (cache url : String)
    (message : Message) :
    let lookup := neighbours.lookUp now cache
    let made := deliverInTurn neighbours.mesh timeout message.action lookup.finish lookup.found
    (url ∉ lookup.found ∧ callsTo url made.1 = []) ∨
      PeerUrl.cacheName url = cache ∧ ∃ call, callsTo url made.1 = [call] ∧
        call.messages = [message] ∧ now ≤ call.start := by
  intro lookup made
  obtain ⟨called, _, calls⟩ := deliverInTurn_calls neighbours.mesh timeout message.action
    lookup.finish lookup.found
  have nodup : lookup.found.Nodup := neighbours.nodup_found now cache
  rcases callsTo_of_nodup (called.symm ▸ nodup) url with ⟨none, others⟩ | ⟨call, mem, rfl, one⟩
  · refine .inl ⟨fun found => ?_, none⟩
    rw [← called] at found
    obtain ⟨call, mem, same⟩ := List.mem_map.1 found
    exact others call mem same
  · have found : call.url ∈ lookup.found := called ▸ List.mem_map_of_mem mem
    obtain ⟨asked, waited, _⟩ := calls call mem
    exact .inr ⟨(Neighbours.mem_found_iff.1 found).1, call, one, messages_of_action asked,
      (neighbours.le_finish_lookUp now cache).trans waited⟩

/-! ## The queues of a dispatcher -/

/-- The events that a queue has taken in, whether they were handed over or wait. -/
def queued (dispatcher : Dispatcher) (cache : String) : List Event :=
  ((dispatcher.queues.get? cache).map Queue.events).getD []

/-- The batches of a cache that were handed over. -/
def handedOver (dispatcher : Dispatcher) (cache : String) : List (Flush Fanout) :=
  ((dispatcher.queues.get? cache).map Queue.handedOver).getD []

/-- Each queue after some time, on its own. -/
def ranQueue (neighbours : Neighbours) (now limit : Nat) (dispatcher : Dispatcher)
    (queue : Queue Fanout) : Queue Fanout :=
  (queue.run (dispatcher.sink neighbours) now limit {}).1

theorem runQueue_keeps (queues : List (Queue Fanout)) (dispatcher : Dispatcher) :
    let ran := queues.foldl (runQueue neighbours now limit) dispatcher
    ran.settings = dispatcher.settings ∧ ran.isAlive = dispatcher.isAlive ∧
      ran.sent = dispatcher.sent := by
  induction queues generalizing dispatcher with
  | nil => exact ⟨rfl, rfl, rfl⟩
  | cons queue queues ih => exact ih (runQueue neighbours now limit dispatcher queue)

/-- Queues of different caches do not touch one another as they run. -/
theorem get?_runQueue (neighbours : Neighbours) {entries : List (String × Queue Fanout)}
    (le : now ≤ limit)
    (sorted : entries.Pairwise fun a b => a.1 < b.1) (named : ∀ e ∈ entries, e.2.cache = e.1)
    (dispatcher : Dispatcher) (cache : String) :
    ((entries.map Prod.snd).foldl (runQueue neighbours now limit) dispatcher).queues.get? cache =
      ((entries.lookup cache).map (ranQueue neighbours now limit dispatcher)).or
        (dispatcher.queues.get? cache) := by
  induction entries generalizing dispatcher with
  | nil => rfl
  | cons e rest ih =>
    obtain ⟨name, queue⟩ := e
    obtain ⟨first, rest_sorted⟩ := List.pairwise_cons.1 sorted
    have rest_named : ∀ e ∈ rest, e.2.cache = e.1 := fun e mem =>
      named e (List.mem_cons_of_mem _ mem)
    obtain rfl : queue.cache = name := named _ List.mem_cons_self
    have ran : (runQueue neighbours now limit dispatcher queue).queues.get? cache =
        if cache = queue.cache then some (ranQueue neighbours now limit dispatcher queue)
        else dispatcher.queues.get? cache := by
      unfold runQueue ranQueue
      rw [Table.get?_insert, Queue.run_fst dispatcher.metrics {}, (Queue.run_keeps le _).2.1]
    rw [List.map_cons, List.foldl_cons, ih rest_sorted rest_named, ran, Table.lookup_cons]
    by_cases same : cache = queue.cache
    · subst same
      rw [Table.lookup_eq_none first, if_pos rfl, if_pos rfl]
      rfl
    · rw [if_neg same, if_neg same]
      rfl

theorem get?_run (neighbours : Neighbours)
    (named : ∀ name queue, dispatcher.queues.get? name = some queue → queue.cache = name)
    (le : now ≤ limit) (cache : String) :
    (dispatcher.run neighbours now limit).queues.get? cache =
      (dispatcher.queues.get? cache).map (ranQueue neighbours now limit dispatcher) := by
  have h := get?_runQueue neighbours le dispatcher.queues.sorted
    (fun e mem => named e.1 e.2 ((Table.mem_entries_iff _ _ _).1 mem)) dispatcher cache
  rw [run, Table.values, h, ← Table.get?]
  cases dispatcher.queues.get? cache <;> rfl

theorem run_keeps (neighbours : Neighbours) (now limit : Nat) (dispatcher : Dispatcher) :
    let ran := dispatcher.run neighbours now limit
    ran.settings = dispatcher.settings ∧ ran.isAlive = dispatcher.isAlive ∧
      ran.sent = dispatcher.sent :=
  runQueue_keeps dispatcher.queues.values dispatcher

theorem run_of_no_queues (h : dispatcher.queues = ∅) :
    dispatcher.run neighbours now limit = dispatcher := by
  simp only [run, h]
  rfl

theorem deliveries_of_no_queues (h : dispatcher.queues = ∅) :
    dispatcher.deliveries = dispatcher.sent := by
  rw [deliveries, h]
  exact List.append_nil _

/-- The calls of the queues that are closed come behind those of before. -/
theorem sent_closeQueue (queues : List (Queue Fanout)) (closing : Closing) :
    (queues.foldl (dispatcher.closeQueue neighbours now) closing).sent =
      closing.sent ++ queues.flatMap fun queue =>
        (queue.shutdown (dispatcher.sink neighbours) dispatcher.settings.shutdownGrace now
          {}).queue.deliveries := by
  induction queues generalizing closing with
  | nil => exact (List.append_nil _).symm
  | cons queue queues ih =>
    rw [List.foldl_cons, ih, List.flatMap_cons, ← List.append_assoc]
    simp only [closeQueue,
      Queue.shutdown_queue dispatcher.settings.shutdownGrace closing.metrics {}]

/-! ## The states of a dispatcher -/

/-- It delivers at once, whether it was shut down or not. -/
structure Direct (now : Nat) (events : List Event) (dispatcher : Dispatcher) : Prop where
  synchronous : dispatcher.settings.asynchronous = false
  noQueues : dispatcher.queues = ∅
  bounded : ∀ call ∈ dispatcher.sent, call.over dispatcher.settings.callTimeout ≤ now
  single : ∀ call ∈ dispatcher.sent, ∃ message : Message, call.action = message.action
  orderly : ∀ url, Orderly dispatcher.settings.callTimeout
    (messagesFor (PeerUrl.cacheName url) events) (callsTo url dispatcher.sent)

/-- It queues, and each queue has the events of its cache. -/
structure Queueing (now : Nat) (events : List Event) (dispatcher : Dispatcher) : Prop where
  asynchronous : dispatcher.settings.asynchronous = true
  isAlive : dispatcher.isAlive = true
  unsent : dispatcher.sent = []
  kept : ∀ cache queue, dispatcher.queues.get? cache = some queue →
    queue.Kept dispatcher.settings.callTimeout cache ∧ queue.closed = false ∧ queue.seen ≤ now
  queued : ∀ cache, dispatcher.queued cache = events.filter (·.cache == cache)

/-- It queued and was shut down. -/
structure Ended (events : List Event) (dispatcher : Dispatcher) : Prop where
  asynchronous : dispatcher.settings.asynchronous = true
  notAlive : dispatcher.isAlive = false
  noQueues : dispatcher.queues = ∅
  orderly : ∀ url, Orderly dispatcher.settings.callTimeout
    (messagesFor (PeerUrl.cacheName url) events) (callsTo url dispatcher.sent)

/-- What holds at each time of a dispatcher that has taken in some events. -/
inductive Sound (now : Nat) (events : List Event) (dispatcher : Dispatcher) : Prop
  | direct (h : dispatcher.Direct now events)
  | queueing (h : dispatcher.Queueing now events)
  | ended (h : dispatcher.Ended events)

theorem sound_start (settings : Settings.Replication) (now : Nat) :
    ({ settings } : Dispatcher).Sound now [] := by
  rcases asynchronous : settings.asynchronous with _ | _
  · exact .direct ⟨asynchronous, rfl, by simp, by simp, fun _ => orderly_nil _ _⟩
  · exact .queueing ⟨asynchronous, rfl, rfl, by simp, fun _ => rfl⟩

theorem Sound.of_synchronous (h : dispatcher.Sound now events)
    (synchronous : dispatcher.settings.asynchronous = false) : dispatcher.Direct now events := by
  rcases h with h | h | h
  · exact h
  · exact absurd synchronous (by simp [h.asynchronous])
  · exact absurd synchronous (by simp [h.asynchronous])

theorem Sound.of_alive (h : dispatcher.Sound now events)
    (asynchronous : dispatcher.settings.asynchronous = true) (alive : dispatcher.isAlive = true) :
    dispatcher.Queueing now events := by
  rcases h with h | h | h
  · exact absurd asynchronous (by simp [h.synchronous])
  · exact h
  · exact absurd alive (by simp [h.notAlive])

/-! What has been recorded matters to none of them. -/

theorem Direct.metered (h : dispatcher.Direct now events) (metrics : Metrics) :
    { dispatcher with metrics }.Direct now events :=
  ⟨h.synchronous, h.noQueues, h.bounded, h.single, h.orderly⟩

theorem Queueing.metered (h : dispatcher.Queueing now events) (metrics : Metrics) :
    { dispatcher with metrics }.Queueing now events :=
  ⟨h.asynchronous, h.isAlive, h.unsent, h.kept, h.queued⟩

theorem Sound.later {later : Nat} (h : dispatcher.Sound now events) (le : now ≤ later) :
    dispatcher.Sound later events := by
  rcases h with h | h | h
  · exact .direct { h with bounded := fun call mem => (h.bounded call mem).trans le }
  · refine .queueing { h with kept := fun cache queue known => ?_ }
    obtain ⟨kept, isOpen, seen⟩ := h.kept cache queue known
    exact ⟨kept, isOpen, seen.trans le⟩
  · exact .ended h

/-- Only the queue of its own cache can have made calls to a peer. -/
theorem Queueing.callsTo_values (h : dispatcher.Queueing now events)
    (calls : Queue Fanout → List Delivery)
    (others : ∀ cache queue, dispatcher.queues.get? cache = some queue →
      PeerUrl.cacheName url ≠ cache → callsTo url (calls queue) = []) :
    callsTo url (dispatcher.sent ++ dispatcher.queues.values.flatMap calls) =
      ((dispatcher.queues.get? (PeerUrl.cacheName url)).map
        fun queue => callsTo url (calls queue)).getD [] := by
  rw [h.unsent, List.nil_append, callsTo_flatMap]
  exact Table.flatMap_values fun cache queue known ne => others cache queue known ne.symm

theorem Queueing.callsTo_deliveries (h : dispatcher.Queueing now events) (url : String) :
    callsTo url dispatcher.deliveries =
      ((dispatcher.queues.get? (PeerUrl.cacheName url)).map
        fun queue => callsTo url queue.deliveries).getD [] :=
  h.callsTo_values Queue.deliveries fun cache queue known ne =>
    (h.kept cache queue known).1.callsTo_of_ne ne

/-- A dispatcher that queues sends all messages of a batch together. -/
theorem Queueing.action_eq (h : dispatcher.Queueing now events) {call : Delivery}
    (mem : call ∈ callsTo url dispatcher.deliveries) : call.action = .send call.messages := by
  rw [h.callsTo_deliveries] at mem
  rcases known : dispatcher.queues.get? (PeerUrl.cacheName url) with _ | queue
  · rw [known] at mem
    exact absurd mem List.not_mem_nil
  · rw [known] at mem
    exact (h.kept _ queue known).1.action_eq (mem_callsTo_iff.1 mem).1

theorem Queueing.events_eq (h : dispatcher.Queueing now events) {queue : Queue Fanout}
    (known : dispatcher.queues.get? cache = some queue) :
    queue.events.filterMap Event.message? = messagesFor cache events := by
  have queued := h.queued cache
  simp only [Dispatcher.queued, known, Option.map_some, Option.getD_some] at queued
  rw [queued, messagesFor]

/-- The calls to a peer carry a subsequence of the messages for its cache, in order. -/
theorem Sound.orderly (h : dispatcher.Sound now events) (url : String) :
    Orderly dispatcher.settings.callTimeout (messagesFor (PeerUrl.cacheName url) events)
      (callsTo url dispatcher.deliveries) := by
  rcases h with h | h | h
  · exact deliveries_of_no_queues h.noQueues ▸ h.orderly url
  · rw [h.callsTo_deliveries url]
    rcases known : dispatcher.queues.get? (PeerUrl.cacheName url) with _ | queue
    · exact orderly_nil _ _
    · refine ((h.kept _ queue known).1.orderly url).mono ?_
      exact h.events_eq known ▸ queue.sentMessages_sublist
  · exact deliveries_of_no_queues h.noQueues ▸ h.orderly url

/-! ## Events in -/

/-- The event that a dispatcher takes in when it is notified of one. -/
def taken? (dispatcher : Dispatcher) (event : Event) : Option Event :=
  if dispatcher.isAlive then dispatcher.settings.accept event else none

theorem notify_of_none {event : Event} (h : dispatcher.taken? event = none) :
    dispatcher.notify neighbours now event = ⟨dispatcher, now⟩ := by
  unfold taken? at h
  unfold notify
  split
  next alive =>
    rw [if_pos alive] at h
    rw [h]
  next => rfl

/-- A dispatcher that has counted an event. -/
def counting (dispatcher : Dispatcher) (event : Event) : Dispatcher :=
  { dispatcher with metrics := dispatcher.metrics.add (.events event.cache event.kind) 1 }

/-- An event that is taken in is counted before it is delivered or queued. -/
theorem notify_of_taken (neighbours : Neighbours) (now : Nat) {event taken : Event}
    (h : dispatcher.taken? event = some taken) :
    dispatcher.notify neighbours now event =
      if dispatcher.settings.asynchronous then ⟨(dispatcher.counting taken).enqueue now taken, now⟩
      else (dispatcher.counting taken).deliver neighbours now taken := by
  unfold taken? at h
  unfold notify
  split at h
  next alive =>
    rw [if_pos alive, h]
    rfl
  next => simp at h

theorem notify_of_some (neighbours : Neighbours) (now : Nat) {event taken : Event}
    (h : dispatcher.taken? event = some taken) :
    ∃ metrics, dispatcher.notify neighbours now event =
      if dispatcher.settings.asynchronous then
        ⟨{ dispatcher with metrics }.enqueue now taken, now⟩
      else { dispatcher with metrics }.deliver neighbours now taken :=
  ⟨_, notify_of_taken neighbours now h⟩

/-- A delivery calls each peer that was found once, and comes behind all calls of before. -/
theorem Direct.deliver (h : dispatcher.Direct now events) (neighbours : Neighbours)
    (event : Event) :
    (dispatcher.deliver neighbours now event).dispatcher.Direct
      (dispatcher.deliver neighbours now event).finish (events ++ [event]) := by
  unfold Dispatcher.deliver
  split
  next silent =>
    refine ⟨h.synchronous, h.noQueues, h.bounded, h.single, fun url => (h.orderly url).mono ?_⟩
    rw [messagesFor_append]
    exact List.sublist_append_left _ _
  next message speaks =>
    let lookup := neighbours.lookUp now event.cache
    obtain ⟨called, le, calls⟩ := deliverInTurn_calls neighbours.mesh
      dispatcher.settings.callTimeout message.action lookup.finish lookup.found
    have found : now ≤ lookup.finish := neighbours.le_finish_lookUp now event.cache
    refine ⟨h.synchronous, h.noQueues, fun call mem => ?_, fun call mem => ?_, fun url => ?_⟩
    · rcases List.mem_append.1 mem with mem | mem
      · exact (h.bounded call mem).trans (found.trans le)
      · exact (calls call mem).2.2
    · rcases List.mem_append.1 mem with mem | mem
      · exact h.single call mem
      · exact ⟨message, (calls call mem).1⟩
    · dsimp only
      rw [callsTo_append, messagesFor_append]
      rcases callsTo_deliverInTurn neighbours now dispatcher.settings.callTimeout event.cache url
        message with ⟨_, none⟩ | ⟨named, call, one, carries, waited⟩
      · rw [none, List.append_nil]
        exact (h.orderly url).mono (List.sublist_append_left _ _)
      · rw [one, messagesFor_singleton, if_pos named.symm, speaks, Option.toList_some, ← carries]
        refine (h.orderly url).concat fun before memBefore => ?_
        exact (h.bounded before (mem_callsTo_iff.1 memBefore).1).trans waited

theorem queueFor_kept (h : dispatcher.Queueing now events) (cache : String) :
    (dispatcher.queueFor cache).Kept dispatcher.settings.callTimeout cache ∧
      (dispatcher.queueFor cache).closed = false ∧ (dispatcher.queueFor cache).seen ≤ now ∧
      (dispatcher.queueFor cache).events = dispatcher.queued cache := by
  unfold queueFor Dispatcher.queued
  rcases known : dispatcher.queues.get? cache with _ | queue
  · exact ⟨Queue.kept_start _ _ _ _, rfl, Nat.zero_le _, rfl⟩
  · obtain ⟨kept, isOpen, seen⟩ := h.kept cache queue known
    exact ⟨kept, isOpen, seen, rfl⟩

theorem get?_enqueue (h : dispatcher.Queueing now events) (event : Event) (cache : String) :
    (dispatcher.enqueue now event).queues.get? cache =
      if cache = event.cache then some ((dispatcher.queueFor event.cache).append now event)
      else dispatcher.queues.get? cache := by
  have isOpen := (queueFor_kept h event.cache).2.1
  simp [enqueue, Queue.pushMetered, isOpen]

theorem Queueing.enqueue (h : dispatcher.Queueing now events) (event : Event) :
    (dispatcher.enqueue now event).Queueing now (events ++ [event]) := by
  obtain ⟨kept, isOpen, seen, same⟩ := queueFor_kept h event.cache
  refine ⟨h.asynchronous, h.isAlive, h.unsent, fun cache queue known => ?_, fun cache => ?_⟩
  · rw [get?_enqueue h] at known
    split at known
    next own =>
      obtain rfl := Option.some.inj known
      exact ⟨own ▸ kept.append isOpen event, isOpen, seen⟩
    next => exact h.kept cache queue known
  · rw [List.filter_append, ← h.queued cache]
    unfold Dispatcher.queued at same ⊢
    rw [get?_enqueue h]
    by_cases own : cache = event.cache
    · subst own
      simp [same]
    · simp [own, Ne.symm own]

/-- A notification leaves a dispatcher sound when it is over, and what it took in comes last. -/
theorem Sound.notify (h : dispatcher.Sound now events) (neighbours : Neighbours) (event : Event) :
    (dispatcher.notify neighbours now event).dispatcher.Sound
      (dispatcher.notify neighbours now event).finish
      (events ++ (dispatcher.taken? event).toList) := by
  rcases taken : dispatcher.taken? event with _ | taken'
  · rw [notify_of_none taken, Option.toList_none, List.append_nil]
    exact h
  · obtain ⟨metrics, notified⟩ := notify_of_some neighbours now taken
    rw [notified]
    rcases h with h | h | h
    · rw [h.synchronous]
      exact .direct ((h.metered metrics).deliver neighbours taken')
    · rw [h.asynchronous]
      exact .queueing ((h.metered metrics).enqueue taken')
    · simp [taken?, h.notAlive] at taken

/-! ## Time and shutdown -/

theorem Queueing.run (h : dispatcher.Queueing now events) (le : now ≤ limit)
    (neighbours : Neighbours) :
    (dispatcher.run neighbours now limit).Queueing limit events := by
  obtain ⟨settings, alive, sent⟩ := run_keeps neighbours now limit dispatcher
  have named : ∀ name queue, dispatcher.queues.get? name = some queue → queue.cache = name :=
    fun name queue known => (h.kept name queue known).1.named
  have ran := get?_run neighbours named le
  refine ⟨settings ▸ h.asynchronous, alive ▸ h.isAlive, sent ▸ h.unsent, ?_, fun cache => ?_⟩
  · intro cache queue known
    rw [ran, Option.map_eq_some_iff] at known
    obtain ⟨before, known, rfl⟩ := known
    obtain ⟨kept, isOpen, seen⟩ := h.kept cache before known
    rw [settings]
    exact ⟨kept.run seen le {}, (Queue.run_keeps le {}).2.2.trans isOpen,
      Queue.seen_run (seen.trans le) {}⟩
  · rw [← h.queued cache]
    unfold Dispatcher.queued
    rw [ran]
    cases dispatcher.queues.get? cache with
    | none => rfl
    | some queue => exact (Queue.run_keeps le {}).1

theorem Sound.run (h : dispatcher.Sound now events) (le : now ≤ limit) (neighbours : Neighbours) :
    (dispatcher.run neighbours now limit).Sound limit events := by
  rcases h with h | h | h
  · rw [run_of_no_queues h.noQueues]
    exact (Sound.direct h).later le
  · exact .queueing (h.run le neighbours)
  · rw [run_of_no_queues h.noQueues]
    exact .ended h

theorem shutdown_sent (neighbours : Neighbours) (now : Nat) (dispatcher : Dispatcher) :
    (dispatcher.shutdown neighbours now).dispatcher.sent =
      dispatcher.sent ++ dispatcher.queues.values.flatMap fun queue =>
        (queue.shutdown (dispatcher.sink neighbours) dispatcher.settings.shutdownGrace now
          {}).queue.deliveries :=
  sent_closeQueue _ _

theorem shutdown_sent_of_no_queues (neighbours : Neighbours) (now : Nat)
    (h : dispatcher.queues = ∅) :
    (dispatcher.shutdown neighbours now).dispatcher.sent = dispatcher.sent := by
  rw [shutdown_sent, h]
  exact List.append_nil _

/-- A dispatcher that queued ends with the calls of its queues, which are orderly up to the last. -/
theorem Queueing.shutdown (h : dispatcher.Queueing now events) (neighbours : Neighbours) :
    (dispatcher.shutdown neighbours now).dispatcher.Ended events := by
  refine ⟨h.asynchronous, rfl, rfl, fun url => ?_⟩
  let calls (queue : Queue Fanout) : List Delivery :=
    (queue.shutdown (dispatcher.sink neighbours) dispatcher.settings.shutdownGrace now
      {}).queue.deliveries
  have closed (cache : String) (queue : Queue Fanout)
      (known : dispatcher.queues.get? cache = some queue) :
      (∀ url, Orderly dispatcher.settings.callTimeout (queue.events.filterMap Event.message?)
        (callsTo url (calls queue))) ∧
        ∀ url, PeerUrl.cacheName url ≠ cache → callsTo url (calls queue) = [] := by
    obtain ⟨kept, isOpen, seen⟩ := h.kept cache queue known
    exact kept.orderly_shutdown isOpen seen dispatcher.settings.shutdownGrace {}
  rw [shutdown_sent,
    h.callsTo_values calls fun cache queue known => (closed cache queue known).2 url]
  rcases known : dispatcher.queues.get? (PeerUrl.cacheName url) with _ | queue
  · exact orderly_nil _ _
  · exact h.events_eq known ▸ (closed _ queue known).1 url

theorem Sound.shutdown (h : dispatcher.Sound now events) (neighbours : Neighbours) :
    (dispatcher.shutdown neighbours now).dispatcher.Sound now events := by
  rcases h with h | h | h
  · have sent := shutdown_sent_of_no_queues neighbours now h.noQueues
    exact .direct ⟨h.synchronous, rfl, sent ▸ h.bounded, sent ▸ h.single, sent ▸ h.orderly⟩
  · exact .ended (h.shutdown neighbours)
  · have sent := shutdown_sent_of_no_queues neighbours now h.noQueues
    exact .ended ⟨h.asynchronous, rfl, rfl, sent ▸ h.orderly⟩

/-! ## Peers that are always found -/

/-- What a notification delivers at once is delivered to `url`, if it concerns its cache. -/
def FindsAtOnce (neighbours : Neighbours) (now : Nat) (url : String) (dispatcher : Dispatcher)
    (event : Event) : Prop :=
  dispatcher.settings.asynchronous = false → ∀ taken ∈ dispatcher.taken? event,
    taken.cache = PeerUrl.cacheName url → taken.message?.isSome → neighbours.Finds now url

/-- Every look-up for a batch that is handed over meanwhile finds `url`. -/
def FindsMeanwhile (neighbours : Neighbours) (url : String) (before after : Dispatcher) : Prop :=
  let cache := PeerUrl.cacheName url
  ∀ flush ∈ (after.handedOver cache).drop (before.handedOver cache).length,
    flush.batch.messages ≠ [] → neighbours.Finds flush.start url

/-- Nothing waits in the queue of a cache, and no batch of it is under way. -/
def IsDrained (dispatcher : Dispatcher) (cache : String) : Prop :=
  dispatcher.isAlive = true ∧ ∀ queue, dispatcher.queues.get? cache = some queue →
    queue.pending = [] ∧ queue.stage = .idle

/-- A peer has been sent, or is being sent, all that was handed over for its cache. -/
structure Complete (url : String) (events : List Event) (dispatcher : Dispatcher) : Prop where
  direct : dispatcher.settings.asynchronous = false →
    (callsTo url dispatcher.sent).flatMap messages = messagesFor (PeerUrl.cacheName url) events
  queueing : ∀ queue, dispatcher.queues.get? (PeerUrl.cacheName url) = some queue →
    queue.Each fun _ => Flush.Reaches url

theorem complete_start (settings : Settings.Replication) (url : String) :
    ({ settings } : Dispatcher).Complete url [] where
  direct _ := rfl
  queueing queue known := by simp at known

theorem Complete.deliver (h : dispatcher.Complete url events) (neighbours : Neighbours)
    {event : Event} (synchronous : dispatcher.settings.asynchronous = false)
    (finds : event.cache = PeerUrl.cacheName url → event.message?.isSome →
      neighbours.Finds now url) :
    (dispatcher.deliver neighbours now event).dispatcher.Complete url (events ++ [event]) := by
  unfold Dispatcher.deliver
  split
  next silent =>
    refine ⟨fun _ => ?_, h.queueing⟩
    rw [h.direct synchronous, messagesFor_append, messagesFor_singleton, silent]
    simp
  next message speaks =>
    refine ⟨fun _ => ?_, h.queueing⟩
    dsimp only
    rw [callsTo_append, List.flatMap_append, h.direct synchronous, messagesFor_append,
      messagesFor_singleton]
    congr 1
    rcases callsTo_deliverInTurn neighbours now dispatcher.settings.callTimeout event.cache url
      message with ⟨missed, none⟩ | ⟨named, call, one, carries, _⟩
    · have other : event.cache ≠ PeerUrl.cacheName url := fun same =>
        missed (Neighbours.mem_found_iff.2 ⟨same.symm, finds same (speaks ▸ rfl)⟩)
      rw [none, if_neg other]
      rfl
    · rw [one, List.flatMap_singleton, carries, if_pos named.symm, speaks]
      rfl

theorem Complete.notify (h : dispatcher.Complete url events) (sound : dispatcher.Sound now events)
    {event : Event} (finds : FindsAtOnce neighbours now url dispatcher event) :
    (dispatcher.notify neighbours now event).dispatcher.Complete url
      (events ++ (dispatcher.taken? event).toList) := by
  rcases taken : dispatcher.taken? event with _ | taken'
  · rw [notify_of_none taken, Option.toList_none, List.append_nil]
    exact h
  · obtain ⟨metrics, notified⟩ := notify_of_some neighbours now taken
    have metered : Complete url events { dispatcher with metrics } := ⟨h.direct, h.queueing⟩
    rw [notified]
    rcases sound with sound | sound | sound
    · rw [sound.synchronous]
      exact metered.deliver neighbours sound.synchronous (finds sound.synchronous taken' taken)
    · rw [sound.asynchronous]
      refine ⟨fun synchronous => absurd synchronous (by simp [enqueue, sound.asynchronous]), ?_⟩
      intro queue known
      rw [if_pos rfl, get?_enqueue (sound.metered metrics)] at known
      split at known
      next own =>
        obtain rfl := Option.some.inj known
        unfold queueFor Queue.Each
        rw [Queue.handedOver_append, ← own]
        rcases known : dispatcher.queues.get? (PeerUrl.cacheName url) with _ | queue
        · simp [Queue.handedOver]
        · exact h.queueing queue known
      next => exact h.queueing queue known
    · simp [taken?, sound.notAlive] at taken

theorem Complete.run (h : dispatcher.Complete url events) (sound : dispatcher.Sound now events)
    (le : now ≤ limit)
    (finds : FindsMeanwhile neighbours url dispatcher (dispatcher.run neighbours now limit)) :
    (dispatcher.run neighbours now limit).Complete url events := by
  rcases sound with sound | sound | sound
  · rw [run_of_no_queues sound.noQueues]
    exact h
  · obtain ⟨settings, _, _⟩ := run_keeps neighbours now limit dispatcher
    have named : ∀ name queue, dispatcher.queues.get? name = some queue → queue.cache = name :=
      fun name queue known => (sound.kept name queue known).1.named
    have ran := get?_run neighbours named le (PeerUrl.cacheName url)
    refine ⟨fun synchronous => ?_, fun queue known => ?_⟩
    · rw [settings, sound.asynchronous] at synchronous
      exact absurd synchronous (by simp)
    · rw [ran, Option.map_eq_some_iff] at known
      obtain ⟨before, known, rfl⟩ := known
      refine Queue.reaches_run (named _ before known) le (h.queueing before known) {} ?_
      simpa [FindsMeanwhile, handedOver, ran, known, ranQueue, sink] using finds
  · rw [run_of_no_queues sound.noQueues]
    exact h

theorem Complete.shutdown (h : dispatcher.Complete url events)
    (sound : dispatcher.Sound now events)
    (synchronous : dispatcher.settings.asynchronous = false) :
    (dispatcher.shutdown neighbours now).dispatcher.Complete url events := by
  refine ⟨fun _ => ?_, fun queue known => by simp [Dispatcher.shutdown] at known⟩
  rw [shutdown_sent_of_no_queues _ _ (sound.of_synchronous synchronous).noQueues]
  exact h.direct synchronous

/-- A peer that was always found has been sent all messages for its cache once nothing waits. -/
theorem Complete.messages_eq (h : dispatcher.Complete url events)
    (sound : dispatcher.Sound now events)
    (drained : dispatcher.settings.asynchronous = true →
      dispatcher.IsDrained (PeerUrl.cacheName url)) :
    (callsTo url dispatcher.deliveries).flatMap messages =
      messagesFor (PeerUrl.cacheName url) events := by
  rcases sound with sound | sound | sound
  · rw [deliveries_of_no_queues sound.noQueues]
    exact h.direct sound.synchronous
  · rw [sound.callsTo_deliveries]
    rcases known : dispatcher.queues.get? (PeerUrl.cacheName url) with _ | queue
    · rw [messagesFor, ← sound.queued, Dispatcher.queued, known]
      rfl
    · obtain ⟨empty, idle⟩ := (drained sound.asynchronous).2 queue known
      have kept := (sound.kept _ queue known).1
      refine (kept.messages_eq (h.queueing queue known) idle).trans ?_
      rw [← sound.events_eq known, Queue.sentMessages, Queue.events, empty, List.append_nil]
  · have alive := (drained sound.asynchronous).1
    simp [sound.notAlive] at alive

end Dispatcher

end CacheCluster
