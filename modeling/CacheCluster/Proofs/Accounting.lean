import CacheCluster.Proofs.QueueRecords
import CacheCluster.Proofs.LateRecords

/-! # What the metrics account for

Every event that a dispatcher takes in is counted when it is taken in, and the gauge of a cache
shows how many of them wait. A dispatcher that delivers at once counts each failure with its call.
One that queues counts the failures of a batch when the batch is over, so that those of a batch that
is given up are never counted.
-/

namespace CacheCluster

open Delivery

/-! ## The calls for a cache -/

namespace Delivery

/-- The calls to the peers of a cache. -/
def callsFor (cache : String) (calls : List Delivery) : List Delivery :=
  calls.filter (PeerUrl.cacheName ·.url == cache)

theorem callsFor_append (cache : String) (first second : List Delivery) :
    callsFor cache (first ++ second) = callsFor cache first ++ callsFor cache second :=
  List.filter_append ..

theorem callsFor_eq_self {cache : String} {calls : List Delivery}
    (named : ∀ call ∈ calls, PeerUrl.cacheName call.url = cache) : callsFor cache calls = calls :=
  List.filter_eq_self.2 fun call made => beq_iff_eq.2 (named call made)

theorem callsFor_eq_nil {cache : String} {calls : List Delivery}
    (others : ∀ call ∈ calls, PeerUrl.cacheName call.url ≠ cache) : callsFor cache calls = [] :=
  List.filter_eq_nil_iff.2 fun call made => mt beq_iff_eq.1 (others call made)

end Delivery

/-! ## The metrics of several queues -/

namespace Metrics

variable {timeout : Nat} {cache other : String} {metrics after : Metrics}
  {queue? held : Option (Queue Fanout)} {become : Queue Fanout → Queue Fanout}
  {record : Metrics → Queue Fanout → Metrics}

/-- What the metrics show of a cache, by its queue if it has one. -/
def Shows (timeout : Nat) (cache : String) (metrics : Metrics) : Option (Queue Fanout) → Prop
  | none => metrics.total (.failures cache) = 0 ∧ metrics.get? (.queueSize cache) = none
  | some queue => queue.cache = cache ∧ queue.Recorded timeout metrics

theorem Shows.congr (h : metrics.Shows timeout cache queue?)
    (failures : after.total (.failures cache) = metrics.total (.failures cache))
    (waiting : after.get? (.queueSize cache) = metrics.get? (.queueSize cache)) :
    after.Shows timeout cache queue? := by
  cases queue? with
  | none => exact ⟨failures.trans h.1, waiting.trans h.2⟩
  | some queue =>
    obtain ⟨rfl, recorded⟩ := h
    exact ⟨rfl, failures.trans recorded.failures, waiting.trans recorded.waiting, recorded.timely⟩

theorem Shows.of_agreesBut (h : metrics.Shows timeout cache queue?)
    (agrees : metrics.AgreesBut other after) (ne : cache ≠ other) :
    after.Shows timeout cache queue? :=
  h.congr (agrees.total (beq_false_of_ne ne)) (agrees _ (beq_false_of_ne ne))

/-- What is done with a queue is recorded. -/
structure Records (timeout : Nat) (become : Queue Fanout → Queue Fanout)
    (record : Metrics → Queue Fanout → Metrics) : Prop where
  own : ∀ {queue metrics}, queue.Recorded timeout metrics →
    (become queue).Recorded timeout (record metrics queue)
  cache : ∀ queue, (become queue).cache = queue.cache
  others : ∀ (metrics : Metrics) (queue : Queue Fanout),
    metrics.AgreesBut queue.cache (record metrics queue)

/-- What is done with all queues is recorded for each. -/
theorem Shows.foldl (records : Records timeout become record)
    {entries : List (String × Queue Fanout)} (sorted : entries.Pairwise fun a b => a.1 < b.1)
    (named : ∀ e ∈ entries, e.2.cache = e.1)
    (h : metrics.Shows timeout cache ((entries.lookup cache).or held)) :
    ((entries.map Prod.snd).foldl record metrics).Shows timeout cache
      (((entries.lookup cache).map become).or held) := by
  -- `held` becomes what is left of the queue of the cache when that has been dealt with
  induction entries generalizing metrics held with
  | nil => exact h
  | cons e rest ih =>
    obtain ⟨name, queue⟩ := e
    obtain ⟨first, rest_sorted⟩ := List.pairwise_cons.1 sorted
    have rest_named : ∀ e ∈ rest, e.2.cache = e.1 := fun e mem =>
      named e (List.mem_cons_of_mem _ mem)
    obtain rfl : queue.cache = name := named _ List.mem_cons_self
    rw [Table.lookup_cons] at h ⊢
    rw [List.map_cons, List.foldl_cons]
    by_cases own : cache = queue.cache
    · subst own
      rw [if_pos rfl] at h ⊢
      have shown : (record metrics queue).Shows timeout queue.cache (some (become queue)) :=
        ⟨records.cache queue, records.own h.2⟩
      have none : rest.lookup queue.cache = none := Table.lookup_eq_none first
      have last := @ih (record metrics queue) (some (become queue)) rest_sorted rest_named
      rw [none] at last
      exact last shown
    · rw [if_neg own] at h ⊢
      exact ih rest_sorted rest_named (h.of_agreesBut (records.others metrics queue) own)

theorem Records.total_foldl (records : Records timeout become record) {series : Series}
    (foreign : ∀ cache, series.isOfQueue cache = false) (queues : List (Queue Fanout))
    (metrics : Metrics) : (queues.foldl record metrics).total series = metrics.total series := by
  induction queues generalizing metrics with
  | nil => rfl
  | cons queue queues ih =>
    exact (ih (record metrics queue)).trans ((records.others metrics queue).total (foreign _))

end Metrics

namespace Dispatcher

open Metrics

variable {dispatcher : Dispatcher} {clock : Clocked Dispatcher} {neighbours : Neighbours}
  {now limit : Nat} {events : List Event} {cache : String} {kind : Mutation}

theorem metrics_foldl_runQueue (queues : List (Queue Fanout)) (dispatcher : Dispatcher) :
    (queues.foldl (runQueue neighbours now limit) dispatcher).metrics =
      queues.foldl (fun metrics queue =>
        (queue.run (dispatcher.sink neighbours) now limit metrics).2) dispatcher.metrics := by
  induction queues generalizing dispatcher with
  | nil => rfl
  | cons queue queues ih => exact ih (runQueue neighbours now limit dispatcher queue)

theorem metrics_foldl_closeQueue (queues : List (Queue Fanout)) (closing : Closing) :
    (queues.foldl (dispatcher.closeQueue neighbours now) closing).metrics =
      queues.foldl (fun metrics queue =>
        (queue.shutdown (dispatcher.sink neighbours) dispatcher.settings.shutdownGrace now
          metrics).metrics) closing.metrics := by
  induction queues generalizing closing with
  | nil => rfl
  | cons queue queues ih => exact ih (dispatcher.closeQueue neighbours now closing queue)

theorem records_run (neighbours : Neighbours) (now limit : Nat) (dispatcher : Dispatcher) :
    Records dispatcher.settings.callTimeout (ranQueue neighbours now limit dispatcher)
      fun metrics queue => (queue.run (dispatcher.sink neighbours) now limit metrics).2 where
  own {queue metrics} recorded := by
    rw [ranQueue, Queue.run_fst {} metrics]
    exact (Queue.keeps_recorded neighbours dispatcher.settings.callTimeout).run recorded
  cache queue := ((Queue.keeps_agreesBut _ queue.cache {}).run ⟨rfl, .refl _ _⟩).1
  others metrics queue :=
    ((Queue.keeps_agreesBut (dispatcher.sink neighbours) queue.cache metrics).run
      ⟨rfl, .refl _ _⟩).2

theorem records_shutdown (neighbours : Neighbours) (now : Nat) (dispatcher : Dispatcher) :
    Records dispatcher.settings.callTimeout
      (fun queue => (dispatcher.closed neighbours now queue).queue)
      fun metrics queue => (queue.shutdown (dispatcher.sink neighbours)
        dispatcher.settings.shutdownGrace now metrics).metrics where
  own {queue metrics} recorded := by
    rw [closed, Queue.shutdown_queue _ {} metrics]
    exact (Queue.keeps_recorded neighbours dispatcher.settings.callTimeout).shutdown recorded _
  cache queue := ((Queue.keeps_agreesBut _ queue.cache {}).shutdown ⟨rfl, .refl _ _⟩ _).1
  others metrics queue :=
    ((Queue.keeps_agreesBut (dispatcher.sink neighbours) queue.cache metrics).shutdown
      ⟨rfl, .refl _ _⟩ _).2

/-! ## Events -/

/-- Whether an event is of one kind and of one cache. -/
def isCounted (cache : String) (kind : Mutation) (event : Event) : Bool :=
  event.cache == cache && event.kind == kind

theorem total_counting (dispatcher : Dispatcher) (event : Event) :
    (dispatcher.counting event).metrics.total (.events cache kind) =
      dispatcher.metrics.total (.events cache kind) + [event].countP (isCounted cache kind) := by
  have same : Series.events cache kind = .events event.cache event.kind ↔
      isCounted cache kind event = true := by
    simp only [Series.events.injEq, isCounted, Bool.and_eq_true, beq_iff_eq]
    exact and_congr eq_comm eq_comm
  rw [counting, total_add, List.countP_singleton]
  simp only [same]

theorem total_enqueue (dispatcher : Dispatcher) (event : Event) :
    (dispatcher.enqueue now event).metrics.total (.events cache kind) =
      dispatcher.metrics.total (.events cache kind) :=
  (Queue.agreesBut_pushMetered now event (dispatcher.queueFor event.cache)
    dispatcher.metrics).total rfl

theorem total_deliver (dispatcher : Dispatcher) (event : Event) :
    (dispatcher.deliver neighbours now event).dispatcher.metrics.total (.events cache kind) =
      dispatcher.metrics.total (.events cache kind) := by
  unfold deliver
  split
  · rfl
  · exact (total_add ..).trans (by simp)

theorem total_notify (dispatcher : Dispatcher) (event : Event) :
    (dispatcher.notify neighbours now event).dispatcher.metrics.total (.events cache kind) =
      dispatcher.metrics.total (.events cache kind) +
        (dispatcher.taken? event).toList.countP (isCounted cache kind) := by
  rcases taken : dispatcher.taken? event with _ | taken'
  · rw [notify_of_none taken]
    rfl
  · rw [notify_of_taken neighbours now taken, Option.toList_some, ← total_counting]
    split
    · exact total_enqueue _ taken'
    · exact total_deliver _ taken'

theorem total_run (dispatcher : Dispatcher) :
    (dispatcher.run neighbours now limit).metrics.total (.events cache kind) =
      dispatcher.metrics.total (.events cache kind) := by
  rw [run, metrics_foldl_runQueue]
  exact (records_run neighbours now limit dispatcher).total_foldl (fun _ => rfl) _ _

theorem total_shutdown (dispatcher : Dispatcher) :
    (dispatcher.shutdown neighbours now).dispatcher.metrics.total (.events cache kind) =
      dispatcher.metrics.total (.events cache kind) := by
  dsimp only [shutdown, close]
  rw [metrics_foldl_closeQueue]
  exact (records_shutdown neighbours now dispatcher).total_foldl (fun _ => rfl) _ _

/-- A step counts the events that it takes in. -/
theorem total_step (sound : clock.state.Sound clock.now events) (s : Step) :
    (step clock s).state.metrics.total (.events cache kind) =
      clock.state.metrics.total (.events cache kind) +
        (takenIn clock.state s).countP (isCounted cache kind) := by
  unfold step takenIn Step.event?
  rcases s with ⟨event | milliseconds | _, neighbours⟩
  · dsimp only
    rw [after_eq (sound.still _ event)]
    exact total_notify clock.state event
  · exact total_run clock.state
  · dsimp only
    rw [after_eq fun _ => rfl]
    exact total_shutdown clock.state

theorem total_runSteps (sound : clock.state.Sound clock.now events) (steps : List Step) :
    (runSteps clock steps).state.metrics.total (.events cache kind) =
      clock.state.metrics.total (.events cache kind) +
        (if clock.state.isAlive then accepted clock.state.settings steps else []).countP
          (isCounted cache kind) := by
  induction steps generalizing clock events with
  | nil => simp [runSteps, accepted]
  | cons s steps ih =>
    rw [← takenIn_append_accepted, List.countP_append, ← Nat.add_assoc, ← total_step sound]
    exact ih (sound_step sound s)

/-! ## Dispatchers that deliver at once -/

/-- The counter of each cache shows the calls to its peers that failed, and there is no gauge. -/
def CountsCalls (dispatcher : Dispatcher) : Prop :=
  ∀ cache, dispatcher.metrics.total (.failures cache) =
      (callsFor cache dispatcher.sent).countP failed ∧
    dispatcher.metrics.get? (.queueSize cache) = none

theorem CountsCalls.counting (h : dispatcher.CountsCalls) (event : Event) :
    (dispatcher.counting event).CountsCalls := by
  intro cache
  obtain ⟨failures, none⟩ := h cache
  refine ⟨(total_add ..).trans ?_, (get?_add ..).trans ?_⟩
  · rw [if_neg (by simp)]
    exact failures
  · rw [if_neg (by simp)]
    exact none

theorem CountsCalls.deliver (h : dispatcher.CountsCalls) (event : Event) :
    (dispatcher.deliver neighbours now event).dispatcher.CountsCalls := by
  unfold Dispatcher.deliver
  split
  · exact h
  next message _ =>
    intro cache
    obtain ⟨failures, none⟩ := h cache
    let lookup := neighbours.lookUp now event.cache
    obtain ⟨called, -, -⟩ := deliverInTurn_calls neighbours.mesh dispatcher.settings.callTimeout
      message.action lookup.finish lookup.found
    have named : ∀ call ∈ (deliverInTurn neighbours.mesh dispatcher.settings.callTimeout
        message.action lookup.finish lookup.found).1, PeerUrl.cacheName call.url = event.cache := by
      intro call made
      have found : call.url ∈ lookup.found := called ▸ List.mem_map_of_mem made
      exact (Neighbours.mem_found_iff.1 found).1
    refine ⟨(total_add ..).trans ?_, (get?_add ..).trans (by simpa using none)⟩
    dsimp only
    rw [failures, callsFor_append, List.countP_append]
    by_cases own : cache = event.cache
    · rw [if_pos (congrArg _ own), own, callsFor_eq_self named]
    · rw [if_neg (by simpa using own), callsFor_eq_nil fun call made =>
        (named call made).trans_ne (Ne.symm own)]
      rfl

theorem CountsCalls.notify (h : dispatcher.CountsCalls)
    (synchronous : dispatcher.settings.asynchronous = false) (event : Event) :
    (dispatcher.notify neighbours now event).dispatcher.CountsCalls := by
  rcases taken : dispatcher.taken? event with _ | taken'
  · rw [notify_of_none taken]
    exact h
  · rw [notify_of_taken neighbours now taken, synchronous]
    exact (h.counting taken').deliver taken'

theorem CountsCalls.step (h : clock.state.CountsCalls)
    (direct : clock.state.Direct clock.now events) (s : Step) :
    (step clock s).state.CountsCalls := by
  unfold Dispatcher.step
  rcases s with ⟨event | milliseconds | _, neighbours⟩
  · dsimp only
    rw [after_eq ((Sound.direct direct).still _ event)]
    exact h.notify direct.synchronous event
  · have still : clock.state.run (neighbours (clock.turn + 1)) clock.now
        (clock.now + milliseconds) = clock.state := run_of_no_queues direct.noQueues
    rw [← still] at h
    exact h
  · dsimp only
    rw [after_eq fun _ => rfl]
    unfold CountsCalls
    rw [shutdown_sent_of_no_queues _ _ direct.noQueues]
    dsimp only [shutdown, close]
    rw [direct.noQueues]
    exact h

theorem CountsCalls.runSteps (h : clock.state.CountsCalls)
    (sound : clock.state.Sound clock.now events)
    (synchronous : clock.state.settings.asynchronous = false) (steps : List Step) :
    (runSteps clock steps).state.CountsCalls := by
  induction steps generalizing clock events with
  | nil => exact h
  | cons s steps ih =>
    refine ih (h.step (sound.of_synchronous synchronous) s) (sound_step sound s) ?_
    rw [(step_keeps clock s).1]
    exact synchronous

/-! ## Dispatchers that queue -/

/-- A cache has a queue as soon as an event of it was taken in, and what became of it up to now has
been recorded. -/
structure IsShown (cache : String) (now : Nat) (events : List Event) (dispatcher : Dispatcher) :
    Prop where
  metrics : dispatcher.metrics.Shows dispatcher.settings.callTimeout cache
    (dispatcher.queues.get? cache)
  touched : (dispatcher.queues.get? cache).isSome = events.any (·.cache == cache)
  upToDate : ∀ queue ∈ dispatcher.queues.get? cache, queue.IsUpToDate now

theorem metrics_enqueue (h : dispatcher.Queueing now events) (event : Event) :
    (dispatcher.enqueue now event).metrics =
      dispatcher.metrics.set (.queueSize (dispatcher.queueFor event.cache).cache)
        ((dispatcher.queueFor event.cache).append now event).pending.length := by
  have isOpen := (queueFor_kept h event.cache).2.1
  simp [enqueue, Queue.pushMetered, isOpen, Queue.append]

theorem IsShown.enqueue (h : dispatcher.IsShown cache now events)
    (queueing : dispatcher.Queueing now events) (event : Event) :
    (dispatcher.enqueue now event).IsShown cache now (events ++ [event]) := by
  have named : (dispatcher.queueFor event.cache).cache = event.cache :=
    (queueFor_kept queueing event.cache).1.named
  have shown := h.metrics
  constructor
  · rw [metrics_enqueue queueing, get?_enqueue queueing]
    by_cases own : cache = event.cache
    · subst own
      rw [if_pos rfl]
      refine ⟨named, ?_⟩
      unfold queueFor
      rcases known : dispatcher.queues.get? event.cache with _ | queue
      · rw [known] at shown
        exact Queue.recorded_append shown.1 (List.forall_mem_nil _) now event
      · rw [known] at shown
        obtain ⟨same, recorded⟩ := shown
        exact Queue.recorded_append recorded.failures recorded.timely now event
    · rw [if_neg own]
      exact shown.of_agreesBut (agreesBut_set (beq_self_eq_true _) _) fun same =>
        own (same.trans named)
  · rw [get?_enqueue queueing, List.any_append, List.any_cons, List.any_nil, Bool.or_false,
      ← h.touched]
    by_cases own : cache = event.cache
    · rw [if_pos own, own, beq_self_eq_true, Bool.or_true]
      rfl
    · rw [if_neg own, beq_false_of_ne (Ne.symm own), Bool.or_false]
  · intro queue known
    rw [get?_enqueue queueing] at known
    by_cases own : cache = event.cache
    · subst own
      obtain rfl := Option.some.inj ((if_pos rfl).symm.trans known)
      unfold queueFor
      rcases held : dispatcher.queues.get? event.cache with _ | queue
      · exact ⟨⟨rfl, rfl⟩, .inr rfl⟩
      · exact (h.upToDate queue held).append event
    · exact h.upToDate queue ((if_neg own).symm.trans known)

/-- A dispatcher that queues is never waited for. -/
theorem finish_notify (queueing : dispatcher.Queueing now events) (neighbours : Neighbours)
    (event : Event) : (dispatcher.notify neighbours now event).finish = now := by
  rcases taken : dispatcher.taken? event with _ | taken'
  · rw [notify_of_none taken]
  · rw [notify_of_taken neighbours now taken, queueing.asynchronous]
    rfl

theorem IsShown.notify (h : dispatcher.IsShown cache now events)
    (queueing : dispatcher.Queueing now events) (neighbours : Neighbours) (event : Event) :
    (dispatcher.notify neighbours now event).dispatcher.IsShown cache
      (dispatcher.notify neighbours now event).finish
      (events ++ (dispatcher.taken? event).toList) := by
  rcases taken : dispatcher.taken? event with _ | taken'
  · rw [notify_of_none taken, Option.toList_none, List.append_nil]
    exact h
  · rw [notify_of_taken neighbours now taken, queueing.asynchronous]
    have counted : (dispatcher.counting taken').IsShown cache now events := by
      refine ⟨h.metrics.congr ?_ ?_, h.touched, h.upToDate⟩
      · exact (total_add ..).trans (by simp)
      · exact (get?_add ..).trans (if_neg (by simp))
    exact counted.enqueue (queueing.metered _) taken'

theorem IsShown.run (h : dispatcher.IsShown cache now events)
    (queueing : dispatcher.Queueing now events) (le : now ≤ limit) :
    (dispatcher.run neighbours now limit).IsShown cache limit events := by
  have named : ∀ name queue, dispatcher.queues.get? name = some queue → queue.cache = name :=
    fun name queue known => (queueing.kept name queue known).1.named
  have shown := h.metrics
  constructor
  · rw [get?_run neighbours named le, (run_keeps neighbours now limit dispatcher).1, Dispatcher.run,
      metrics_foldl_runQueue]
    rw [← Option.or_none (o := dispatcher.queues.get? cache)] at shown
    rw [← Option.or_none (o := Option.map _ _)]
    exact shown.foldl (records_run neighbours now limit dispatcher) dispatcher.queues.sorted
      fun e mem => named e.1 e.2 ((Table.mem_entries_iff _ _ _).1 mem)
  · rw [get?_run neighbours named le, Option.isSome_map]
    exact h.touched
  · intro queue known
    rw [get?_run neighbours named le] at known
    obtain ⟨before, held, rfl⟩ := Option.map_eq_some_iff.1 known
    exact (h.upToDate before held).run (fun _ _ => Option.some_ne_none _) le {}

/-- How a dispatcher has dealt with a cache whose queue is as it is, or as a shutdown left it. -/
structure Reflects (cache : String) (known : Nat) (events : List Event)
    (queue? : Option (Queue Fanout)) (dispatcher : Dispatcher) : Prop where
  metrics : dispatcher.metrics.Shows dispatcher.settings.callTimeout cache queue?
  touched : queue?.isSome = events.any (·.cache == cache)
  calls : callsFor cache dispatcher.deliveries = (queue?.map Queue.deliveries).getD []
  pending : dispatcher.pending cache = (queue?.map (·.pending.length)).getD 0
  kept : ∀ queue ∈ queue?, queue.Kept dispatcher.settings.callTimeout cache
  upToDate : ∀ queue ∈ queue?, queue.seen = known ∨ queue.handedOver = []

/-- The calls for a cache are those of its queue. -/
theorem callsFor_values {queues : Table (Queue Fanout)} {become : Queue Fanout → Queue Fanout}
    {timeout : Nat}
    (kept : ∀ name queue, queues.get? name = some queue → (become queue).Kept timeout name)
    (cache : String) :
    callsFor cache (queues.values.flatMap fun queue => (become queue).deliveries) =
      (((queues.get? cache).map become).map Queue.deliveries).getD [] := by
  have own (name : String) (queue : Queue Fanout) (known : queues.get? name = some queue) :
      ∀ call ∈ (become queue).deliveries, PeerUrl.cacheName call.url = name :=
    fun call made => (kept name queue known).cacheName_of_mem made
  rw [callsFor, List.filter_flatMap, Table.flatMap_values]
  · rcases known : queues.get? cache with _ | queue
    · rfl
    · exact callsFor_eq_self (own cache queue known)
  · exact fun name queue known ne =>
      callsFor_eq_nil fun call made => (own name queue known call made).trans_ne ne

theorem IsShown.reflects (h : dispatcher.IsShown cache now events)
    (queueing : dispatcher.Queueing now events) :
    dispatcher.Reflects cache now events (dispatcher.queues.get? cache) where
  metrics := h.metrics
  touched := h.touched
  calls := by
    rw [deliveries, queueing.unsent, List.nil_append]
    have kept : ∀ name queue, dispatcher.queues.get? name = some queue →
        (id queue).Kept dispatcher.settings.callTimeout name :=
      fun name queue known => (queueing.kept name queue known).1
    exact (callsFor_values kept cache).trans (by rw [Option.map_id, id])
  pending := rfl
  kept queue known := (queueing.kept cache queue known).1
  upToDate queue known := (h.upToDate queue known).seen

/-- The queue of a cache as a shutdown leaves it. -/
def leftQueue (neighbours : Neighbours) (now : Nat) (dispatcher : Dispatcher) (cache : String) :
    Option (Queue Fanout) :=
  (dispatcher.queues.get? cache).map fun queue => (dispatcher.closed neighbours now queue).queue

theorem IsShown.shutdown (h : dispatcher.IsShown cache now events)
    (queueing : dispatcher.Queueing now events) (neighbours : Neighbours) :
    (dispatcher.shutdown neighbours now).dispatcher.Reflects cache
      (((dispatcher.leftQueue neighbours now cache).map (·.seen)).getD 0) events
      (dispatcher.leftQueue neighbours now cache) := by
  have settled (name : String) (queue : Queue Fanout)
      (known : dispatcher.queues.get? name = some queue) :
      (dispatcher.closed neighbours now queue).queue.Kept dispatcher.settings.callTimeout name ∧
        (dispatcher.closed neighbours now queue).queue.pending = [] := by
    obtain ⟨kept, isOpen, seen⟩ := queueing.kept name queue known
    exact kept.shutdown isOpen seen dispatcher.settings.shutdownGrace {}
  have shown := h.metrics
  unfold leftQueue
  refine ⟨?_, ?_, ?_, ?_, ?_, ?_⟩
  · dsimp only [Dispatcher.shutdown, close]
    rw [metrics_foldl_closeQueue]
    rw [← Option.or_none (o := dispatcher.queues.get? cache)] at shown
    rw [← Option.or_none (o := Option.map _ _)]
    exact shown.foldl (records_shutdown neighbours now dispatcher) dispatcher.queues.sorted
      fun e mem => (queueing.kept e.1 e.2 ((Table.mem_entries_iff _ _ _).1 mem)).1.named
  · rw [Option.isSome_map]
    exact h.touched
  · rw [deliveries_of_no_queues rfl, shutdown_sent, queueing.unsent, List.nil_append]
    exact callsFor_values (fun name queue known => (settled name queue known).1) cache
  · rcases known : dispatcher.queues.get? cache with _ | queue
    · rfl
    · exact (congrArg List.length (settled cache queue known).2).symm
  · intro queue left
    obtain ⟨before, known, rfl⟩ := Option.map_eq_some_iff.1 left
    exact (settled cache before known).1
  · intro queue left
    rw [left]
    exact .inl rfl

/-- The queue of a cache as it is after some steps, or as the shutdown among them left it. -/
def queueAfter (cache : String) : Clocked Dispatcher → List Step → Option (Queue Fanout)
  | clock, [] => clock.state.queues.get? cache
  | clock, s :: steps =>
    if s.isShutdown then clock.state.leftQueue (s.neighbours clock.turn) clock.now cache
    else queueAfter cache (step clock s) steps

/-- Up to when it is known what has become of the calls for a cache: the time, or what its queue has
seen when the shutdown was over. -/
def knownAfter (cache : String) : Clocked Dispatcher → List Step → Nat
  | clock, [] => clock.now
  | clock, s :: steps =>
    if s.isShutdown then
      ((clock.state.leftQueue (s.neighbours clock.turn) clock.now cache).map (·.seen)).getD 0
    else knownAfter cache (step clock s) steps

theorem IsShown.step (h : clock.state.IsShown cache clock.now events)
    (queueing : clock.state.Queueing clock.now events) {s : Step} (goesOn : s.isShutdown = false) :
    (Dispatcher.step clock s).state.IsShown cache (Dispatcher.step clock s).now
      (events ++ takenIn clock.state s) := by
  unfold Dispatcher.step takenIn Step.event?
  rcases s with ⟨event | milliseconds | _, neighbours⟩
  · dsimp only
    rw [after_eq ((Sound.queueing queueing).still _ event)]
    have atOnce := finish_notify queueing (neighbours clock.turn) event
    have notified := h.notify queueing (neighbours clock.turn) event
    rw [atOnce] at notified ⊢
    rw [Nat.max_self]
    exact notified
  · rw [Option.bind_none, Option.toList_none, List.append_nil]
    exact h.run queueing (Nat.le_add_right _ _)
  · cases goesOn

theorem state_step_of_isShutdown (clock : Clocked Dispatcher) {s : Step}
    (ends : s.isShutdown = true) :
    (Dispatcher.step clock s).state =
      (clock.state.shutdown (s.neighbours clock.turn) clock.now).dispatcher := by
  unfold Dispatcher.step
  rcases s with ⟨event | milliseconds | _, neighbours⟩
  · cases ends
  · cases ends
  · dsimp only
    rw [after_eq fun _ => rfl]

/-- A dispatcher that queues reflects the queue of each cache until it is shut down and ever
after. -/
theorem IsShown.runSteps (h : clock.state.IsShown cache clock.now events)
    (queueing : clock.state.Queueing clock.now events) (steps : List Step) :
    (runSteps clock steps).state.Reflects cache (knownAfter cache clock steps)
      (events ++ accepted clock.state.settings steps) (queueAfter cache clock steps) := by
  induction steps generalizing clock events with
  | nil =>
    rw [accepted, List.takeWhile_nil, List.filterMap_nil, List.filterMap_nil, List.append_nil]
    exact h.reflects queueing
  | cons s steps ih =>
    obtain ⟨settings, alive⟩ := step_keeps clock s
    rw [accepted_cons, queueAfter, knownAfter]
    rcases ends : s.isShutdown with _ | _
    · have sound := sound_step (.queueing queueing) s
      have next : (Dispatcher.step clock s).state.Queueing (Dispatcher.step clock s).now
          (events ++ takenIn clock.state s) :=
        sound.of_alive (settings ▸ queueing.asynchronous)
          (by rw [alive, queueing.isAlive, ends]; rfl)
      have later := ih (h.step queueing ends) next
      rw [takenIn_eq, if_pos queueing.isAlive, settings, List.append_assoc] at later
      exact later
    -- nothing that comes after a shutdown changes the dispatcher
    · have ended := state_step_of_isShutdown clock ends
      have still : (Dispatcher.runSteps (Dispatcher.step clock s) steps).state = _ :=
        runSteps_of_dead (congrArg isAlive ended) (congrArg queues ended) steps
      rw [if_pos rfl, if_pos rfl, if_pos rfl, List.append_nil]
      change Reflects _ _ _ _ (Dispatcher.runSteps (Dispatcher.step clock s) steps).state
      rw [still, ended]
      exact h.shutdown queueing (s.neighbours clock.turn)

/-! ## Whole histories -/

theorem isShown_start (settings : Settings.Replication) (now : Nat) (cache : String) :
    ({ settings } : Dispatcher).IsShown cache now [] :=
  ⟨⟨rfl, rfl⟩, rfl, nofun⟩

theorem countsCalls_start (settings : Settings.Replication) :
    ({ settings } : Dispatcher).CountsCalls :=
  fun _ => ⟨rfl, rfl⟩

/-- What is counted of a queue and what is not are all failures of a cache. -/
theorem Reflects.failures {known : Nat} {queue? : Option (Queue Fanout)}
    (h : dispatcher.Reflects cache known events queue?) :
    dispatcher.metrics.total (.failures cache) +
        ((queue?.map Queue.unsettledCalls).getD []).countP
          (hasFailedBy dispatcher.settings.callTimeout known) =
      (callsFor cache dispatcher.deliveries).countP
        (hasFailedBy dispatcher.settings.callTimeout known) := by
  rw [h.calls]
  have shown := h.metrics
  rcases queue? with _ | queue
  · exact shown.1
  · obtain ⟨rfl, recorded⟩ := shown
    have failures := recorded.failures_deliveries (h.kept queue rfl)
    rcases h.upToDate queue rfl with rfl | none
    · exact failures
    · simpa [Queue.unsettledCalls, Queue.deliveries, none] using failures

theorem Reflects.unsettledCalls {known : Nat} {queue? : Option (Queue Fanout)}
    (h : dispatcher.Reflects cache known events queue?)
    (rests : ∀ queue ∈ queue?, queue.stage = .idle ∨ ∃ time, queue.stage = .drained time) :
    (queue?.map Queue.unsettledCalls).getD [] = [] := by
  rcases queue? with _ | queue
  · rfl
  · exact (h.kept queue rfl).unsettledCalls_eq_nil (rests queue rfl)

theorem Reflects.waiting {known : Nat} {queue? : Option (Queue Fanout)}
    (h : dispatcher.Reflects cache known events queue?) :
    dispatcher.metrics.get? (.queueSize cache) =
      if events.any (·.cache == cache) then some (dispatcher.pending cache) else none := by
  rw [← h.touched, h.pending]
  have shown := h.metrics
  rcases queue? with _ | queue
  · exact shown.2
  · obtain ⟨rfl, recorded⟩ := shown
    exact recorded.waiting

theorem CountsCalls.failures (h : dispatcher.CountsCalls)
    (direct : dispatcher.Direct now events) (cache : String) :
    dispatcher.metrics.total (.failures cache) = (callsFor cache dispatcher.deliveries).countP
      (hasFailedBy dispatcher.settings.callTimeout now) := by
  rw [(h cache).1, deliveries_of_no_queues direct.noQueues]
  refine List.countP_congr fun call made => ?_
  simp [hasFailedBy, direct.bounded call (List.mem_of_mem_filter made)]

/-- In every history of a dispatcher, the counter of events shows for each kind how many events were
taken in. In synchronous mode the counter of failures shows the calls to the peers of a cache that
got an error or timed out. In asynchronous mode it shows those of them whose batch was over; what is
missing are the failed calls of a batch under way, or of the one that a shutdown gave up, and
nothing when the flusher has come to rest. The gauge is there once an event of its cache was taken
in, and shows how many wait. It does so too when pushes, the flusher and a shutdown use a queue at
the same time, as soon as none of them has anything to record, if the numbers were recorded in the
order in which they were seen. -/
theorem metrics_account_for_history (settings : Settings.Replication) (start : Nat)
    (steps : List Step) (cache : String) :
    let fresh : Clocked Dispatcher := { now := start, state := { settings } }
    let ended := runSteps fresh steps
    let metrics := ended.state.metrics
    let failedBy := hasFailedBy settings.callTimeout
    (∀ kind, metrics.total (.events cache kind) = (accepted settings steps).countP
      fun event => event.cache == cache && event.kind == kind) ∧
    (settings.asynchronous = false →
      metrics.total (.failures cache) =
        (callsFor cache ended.state.deliveries).countP (failedBy ended.now) ∧
      metrics.get? (.queueSize cache) = none) ∧
    (settings.asynchronous = true →
      let known := knownAfter cache fresh steps
      let unsettled := ((queueAfter cache fresh steps).map Queue.unsettledCalls).getD []
      metrics.total (.failures cache) + unsettled.countP (failedBy known) =
        (callsFor cache ended.state.deliveries).countP (failedBy known) ∧
      ((∀ queue ∈ queueAfter cache fresh steps,
        queue.stage = .idle ∨ ∃ time, queue.stage = .drained time) → unsettled = []) ∧
      metrics.get? (.queueSize cache) =
        if (accepted settings steps).any (·.cache == cache) then some (ended.state.pending cache)
        else none) ∧
    ∀ {ω : Type} (sink : Sink ω) (interval maxBatch grace : Nat) (pushed : List Event)
      (racing : List Queue.Gauged.Step), Queue.Gauged.InOrder racing →
      let gauged := (Queue.Gauged.start cache interval maxBatch grace pushed).run sink racing
      gauged.IsAtRest → gauged.gauge.getD 0 = gauged.race.queue.pending.length := by
  intro fresh ended metrics failedBy
  have started : fresh.state.Sound fresh.now [] := sound_start settings start
  have settled : ended.state.settings = settings := settings_run fresh steps
  refine ⟨fun kind => ?_, fun synchronous => ?_, fun asynchronous => ?_,
    fun sink interval maxBatch grace pushed racing inOrder =>
      Queue.Gauged.gauge_shows_waiting cache interval maxBatch grace pushed inOrder⟩
  · exact (total_runSteps started steps).trans (Nat.zero_add _)
  · have counts : ended.state.CountsCalls :=
      (countsCalls_start settings).runSteps started synchronous steps
    have direct : ended.state.Direct ended.now (accepted settings steps) :=
      (sound_fresh settings start steps).of_synchronous (settled.symm ▸ synchronous :)
    have failures := counts.failures direct cache
    rw [settled] at failures
    exact ⟨failures, (counts cache).2⟩
  · have reflects : ended.state.Reflects cache (knownAfter cache fresh steps)
        (accepted settings steps) (queueAfter cache fresh steps) :=
      (isShown_start settings start cache).runSteps (started.of_alive asynchronous rfl) steps
    have failures := reflects.failures
    rw [settled] at failures
    exact ⟨failures, reflects.unsettledCalls, reflects.waiting⟩

/-- Two peers of a cache; one refuses every call, and the other takes long to answer. -/
def unlikePeers : Neighbours where
  registry := (Registry.register {} 0 "tcp://a:1/c").register 0 "tcp://b:1/c"
  mesh :=
    { connect _ _ := ⟨0, .ok ()⟩
      call _ url _ :=
        if url = "tcp://a:1/c" then ⟨0, .error (.remote "refused")⟩ else ⟨100000, .ok .ok⟩ }

/-- A removal is sent, and the shutdown gives it up half a second after it has begun. -/
def givenUp : List Step :=
  [⟨.notify (.remove "c" "k"), fun _ => unlikePeers⟩, ⟨.pass 1200, fun _ => unlikePeers⟩,
    ⟨.shutdown, fun _ => unlikePeers⟩, ⟨.pass 200000, fun _ => unlikePeers⟩]

/-- The queue while the removal is sent to both peers. -/
def sendingBoth : Queue Fanout where
  cache := "c"
  stage := .busy 1000 ⟨"c", [.remove "c" "k"]⟩
    (.ofPeers unlikePeers.mesh 120000 1000 [.remove "k"] ["tcp://a:1/c", "tcp://b:1/c"])
  seen := 1200

theorem run_sendingBoth :
    (Queue.run (.fanout unlikePeers 120000) 0 1200
      { cache := "c", pending := [.remove "c" "k"] } {}).1 = sendingBoth := by
  unfold Queue.run
  rw [if_neg (by rintro ⟨⟩), Queue.acts_of_due (show _ = some 1000 from rfl) (by decide),
    Queue.acts_of_due (show _ = some 1000 from rfl) (by decide),
    Queue.acts_of_not_due (show _ = some 101000 from rfl) (by decide)]
  rfl

theorem shutdown_sendingBoth :
    (sendingBoth.shutdown (.fanout unlikePeers 120000) 500 1200 {}).queue =
      ({ sendingBoth.close with seen := 1699 }.discard 1700 {}).queue := by
  unfold Queue.shutdown Queue.run
  rw [if_neg (by rintro ⟨⟩), if_neg (by decide)]
  dsimp only
  rw [if_neg (by rintro ⟨⟩), Queue.acts_of_not_due (show _ = some 101000 from rfl) (by decide)]
  rfl

/-- The batch is given up while one of its two calls is known to have failed; it is never
counted. -/
theorem given_up_batch_hides_failure :
    let settings : Settings.Replication := { shutdownGrace := 500 }
    let fresh : Clocked Dispatcher := { state := { settings } }
    let ended := runSteps fresh givenUp
    knownAfter "c" fresh givenUp = 1699 ∧
      (callsFor "c" ended.state.deliveries).countP (hasFailedBy settings.callTimeout 1699) = 1 ∧
      ended.state.metrics.total (.failures "c") = 0 := by
  intro settings fresh ended
  let queued := step fresh ⟨.notify (.remove "c" "k"), fun _ => unlikePeers⟩
  let sent := step queued ⟨.pass 1200, fun _ => unlikePeers⟩
  let given := ({ sendingBoth.close with seen := 1699 }.discard 1700 {}).queue
  have unused : fresh.state.IsInUse fresh.now := isInUse_start settings 0
  have inUse : queued.state.IsInUse queued.now := unused.becomes (.step _)
  have sending : sent.state.queues.get? "c" = some sendingBoth :=
    (inUse.get?_run (Nat.zero_le 1200) unlikePeers "c").trans (congrArg some run_sendingBoth)
  have left : sent.state.leftQueue unlikePeers sent.now "c" = some given := by
    rw [leftQueue, sending]
    exact congrArg some shutdown_sendingBoth
  have known : knownAfter "c" fresh givenUp = 1699 :=
    congrArg (fun queue? => (queue?.map Queue.seen).getD 0) left
  obtain ⟨-, -, queues, -⟩ := metrics_account_for_history settings 0 givenUp "c"
  obtain ⟨failures, -, -⟩ := queues rfl
  have made : callsFor "c" ended.state.deliveries = given.deliveries := by
    have queueing : fresh.state.Queueing fresh.now [] := (sound_start settings 0).of_alive rfl rfl
    refine ((isShown_start settings 0 "c").runSteps queueing givenUp).calls.trans ?_
    exact congrArg (fun queue? => (queue?.map Queue.deliveries).getD []) left
  have one : given.deliveries.countP (hasFailedBy settings.callTimeout 1699) = 1 := by
    decide +kernel
  have hidden : given.unsettledCalls.countP (hasFailedBy settings.callTimeout 1699) = 1 := by
    decide +kernel
  have unsettled : ((queueAfter "c" fresh givenUp).map Queue.unsettledCalls).getD [] =
      given.unsettledCalls :=
    congrArg (fun queue? => (queue?.map Queue.unsettledCalls).getD []) left
  rw [unsettled, known, hidden] at failures
  rw [made]
  refine ⟨known, one, ?_⟩
  have total : ended.state.metrics.total (.failures "c") + 1 = 1 :=
    failures.trans ((congrArg _ made).trans one)
  omega

end Dispatcher

end CacheCluster
