import CacheCluster.Proofs.DispatcherHistory

/-! # Invalidation

A dispatcher reads of an event only the message that it has for the peers of its cache. When
elements are not sent by copy, what a mutation put is no part of that message, and peers cannot tell
two histories apart in which the same keys were written.
-/

namespace CacheCluster

/-! ## Events that say the same -/

/-- A change of events that no peer notices. -/
structure Event.Keeps (change : Event → Event) : Prop where
  kind : ∀ event, (change event).kind = event.kind
  cache : ∀ event, (change event).cache = event.cache
  message : ∀ event, (change event).message? = event.message?

section

variable {ω : Type} {change : Event → Event}

namespace Batch

def mapEvents (change : Event → Event) (batch : Batch) : Batch :=
  { batch with events := batch.events.map change }

theorem messages_mapEvents (keeps : Event.Keeps change) (batch : Batch) :
    (batch.mapEvents change).messages = batch.messages := by
  unfold messages mapEvents
  rw [List.filterMap_map]
  exact List.filterMap_congr fun event _ => keeps.message event

end Batch

def Flush.mapEvents (change : Event → Event) (flush : Flush ω) : Flush ω :=
  { flush with batch := flush.batch.mapEvents change }

def Stage.mapEvents (change : Event → Event) : Stage ω → Stage ω
  | .busy start batch work => .busy start (batch.mapEvents change) work
  | .idle => .idle
  | .drained time => .drained time
  | .broken time => .broken time
  | .stopped => .stopped

namespace Queue

/-- The queue that has been given other events. -/
def mapEvents (change : Event → Event) (queue : Queue ω) : Queue ω :=
  { queue with
    pending := queue.pending.map change
    stage := queue.stage.mapEvents change
    flushes := queue.flushes.map (Flush.mapEvents change) }

variable {sink : Sink ω} {now limit time : Nat} {queue : Queue ω}

theorem nextAct?_mapEvents (queue : Queue ω) :
    (queue.mapEvents change).nextAct? sink now = queue.nextAct? sink now := by
  unfold nextAct? mapEvents fullSize
  cases queue.stage <;> simp [Stage.mapEvents]

theorem handedOver_mapEvents (queue : Queue ω) :
    (queue.mapEvents change).handedOver = queue.handedOver.map (Flush.mapEvents change) := by
  unfold handedOver mapEvents
  cases queue.stage <;> simp [Stage.mapEvents, Flush.mapEvents]

/-- A sink that does the same with a batch of changed events. -/
def Ignores (change : Event → Event) (sink : Sink ω) : Prop :=
  ∀ time batch, sink.start time (batch.mapEvents change) = sink.start time batch

theorem handOver_mapEvents (ignores : Ignores change sink) (queue : Queue ω) (metrics : Metrics) :
    (queue.mapEvents change).handOver sink time metrics =
      ((queue.handOver sink time metrics).1.mapEvents change,
        (queue.handOver sink time metrics).2) := by
  have next : (queue.mapEvents change).nextEvents = queue.nextEvents.map change :=
    List.map_take.symm
  have rest : (queue.mapEvents change).afterTake = queue.afterTake.mapEvents change := by
    unfold afterTake mapEvents
    rw [List.map_drop]
    rfl
  unfold handOver
  rw [next]
  rcases queue.nextEvents with _ | ⟨first, others⟩
  · rfl
  · have started : sink.start time ⟨queue.cache, change first :: others.map change⟩ =
        sink.start time ⟨queue.cache, first :: others⟩ :=
      ignores time ⟨queue.cache, first :: others⟩
    rw [rest, List.map_cons]
    simp only [mapEvents, started]
    rcases sink.start time ⟨queue.cache, first :: others⟩ with _ | work
    · simp [Stage.mapEvents, Flush.mapEvents, Batch.mapEvents, afterTake]
    · simp [Stage.mapEvents, Batch.mapEvents, afterTake]

theorem goOn_mapEvents (start : Nat) (batch : Batch) (work : ω) (queue : Queue ω)
    (metrics : Metrics) :
    (queue.mapEvents change).goOn sink time start (batch.mapEvents change) work metrics =
      ((queue.goOn sink time start batch work metrics).1.mapEvents change,
        (queue.goOn sink time start batch work metrics).2) := by
  unfold goOn
  rcases sink.next time work with _ | work'
  · simp [mapEvents, Stage.mapEvents, Flush.mapEvents]
  · simp [mapEvents, Stage.mapEvents]

theorem act_mapEvents (ignores : Ignores change sink) (queue : Queue ω) (metrics : Metrics) :
    (queue.mapEvents change).act sink time metrics =
      ((queue.act sink time metrics).1.mapEvents change, (queue.act sink time metrics).2) := by
  have stage : (queue.mapEvents change).stage = queue.stage.mapEvents change := rfl
  unfold act
  rw [stage]
  rcases queue.stage with _ | ⟨start, batch, work⟩ | _ | _ | _
  · exact handOver_mapEvents ignores queue metrics
  · exact goOn_mapEvents start batch work queue metrics
  all_goals rfl

theorem acts_mapEvents (ignores : Ignores change sink) (queue : Queue ω) (metrics : Metrics) :
    (queue.mapEvents change).acts sink now limit metrics =
      ((queue.acts sink now limit metrics).1.mapEvents change,
        (queue.acts sink now limit metrics).2) := by
  induction now, queue, metrics using acts.induct sink limit with
  | case1 now queue metrics none =>
    rw [acts_of_none none, acts_of_none ((nextAct?_mapEvents queue).trans none)]
  | case2 now queue metrics time next due ih =>
    rw [acts_of_due next due, acts_of_due ((nextAct?_mapEvents queue).trans next) due,
      act_mapEvents ignores]
    exact ih
  | case3 now queue metrics time next notDue =>
    rw [acts_of_not_due next notDue,
      acts_of_not_due ((nextAct?_mapEvents queue).trans next) notDue]

theorem run_mapEvents (ignores : Ignores change sink) (queue : Queue ω) (metrics : Metrics) :
    (queue.mapEvents change).run sink now limit metrics =
      ((queue.run sink now limit metrics).1.mapEvents change,
        (queue.run sink now limit metrics).2) := by
  have stopped : (queue.mapEvents change).isStopped = queue.isStopped := by
    unfold isStopped mapEvents
    rcases queue.stage with _ | _ | _ | _ | _ <;> rfl
  unfold run
  rw [stopped, acts_mapEvents ignores]
  split <;> rfl

def Closing.mapEvents (change : Event → Event) (closing : Closing ω) : Closing ω :=
  { closing with queue := closing.queue.mapEvents change }

theorem conclude_mapEvents (queue : Queue ω) (began deadline : Nat) (metrics : Metrics) :
    (queue.mapEvents change).conclude began deadline metrics =
      (queue.conclude began deadline metrics).mapEvents change := by
  have stage : (queue.mapEvents change).stage = queue.stage.mapEvents change := rfl
  have discard (finish : Nat) : (queue.mapEvents change).discard finish metrics =
      (queue.discard finish metrics).mapEvents change := by
    unfold discard Closing.mapEvents
    rw [handedOver_mapEvents]
    simp [mapEvents, Stage.mapEvents]
  unfold conclude
  rw [stage]
  rcases queue.stage with _ | _ | _ | _ | _
  case drained => rfl
  all_goals exact discard _

theorem shutdown_mapEvents (ignores : Ignores change sink) (grace : Nat) (queue : Queue ω)
    (metrics : Metrics) :
    (queue.mapEvents change).shutdown sink grace now metrics =
      (queue.shutdown sink grace now metrics).mapEvents change := by
  have closed : (queue.mapEvents change).close = queue.close.mapEvents change := rfl
  unfold shutdown
  rw [closed, run_mapEvents ignores]
  split
  next was =>
    rw [if_pos (show queue.closed = true from was)]
    rfl
  next isOpen =>
    rw [if_neg (show ¬queue.closed = true from isOpen)]
    by_cases atOnce : grace = 0
    · rw [if_pos atOnce, if_pos atOnce]
      exact conclude_mapEvents queue.close now _ metrics
    · rw [if_neg atOnce, if_neg atOnce]
      exact conclude_mapEvents _ now _ _

theorem ignores_fanout (keeps : Event.Keeps change) (neighbours : Neighbours) (timeout : Nat) :
    Ignores change (.fanout neighbours timeout) := by
  intro time batch
  refine congrArg some ?_
  unfold Fanout.ofBatch
  rw [Batch.messages_mapEvents keeps]
  rfl

theorem deliveries_mapEvents (queue : Queue Fanout) :
    (queue.mapEvents change).deliveries = queue.deliveries := by
  unfold deliveries
  rw [handedOver_mapEvents, List.flatMap_map]
  rfl

theorem pushMetered_mapEvents (queue : Queue ω) (event : Event) (metrics : Metrics) :
    (queue.mapEvents change).pushMetered now (change event) metrics =
      ((queue.pushMetered now event metrics).1.mapEvents change,
        (queue.pushMetered now event metrics).2) := by
  unfold pushMetered
  split
  next was =>
    rw [if_pos (show queue.closed = true from was)]
  next isOpen =>
    rw [if_neg (show ¬queue.closed = true from isOpen)]
    simp [append, mapEvents]

end Queue

/-! ## Dispatchers that are notified of the same -/

def Dispatcher.mapEvents (change : Event → Event) (dispatcher : Dispatcher) : Dispatcher :=
  { dispatcher with queues := dispatcher.queues.map (Queue.mapEvents change) }

def Dispatching.mapEvents (change : Event → Event) (after : Dispatching) : Dispatching :=
  { after with dispatcher := after.dispatcher.mapEvents change }

namespace Dispatcher

variable {dispatcher : Dispatcher} {neighbours : Neighbours} {now limit : Nat}

theorem deliveries_mapEvents (dispatcher : Dispatcher) :
    (dispatcher.mapEvents change).deliveries = dispatcher.deliveries := by
  unfold deliveries mapEvents
  dsimp only
  rw [Table.values_map, List.flatMap_map]
  simp only [Queue.deliveries_mapEvents]

theorem queueFor_mapEvents (dispatcher : Dispatcher) (cache : String) :
    (dispatcher.mapEvents change).queueFor cache =
      (dispatcher.queueFor cache).mapEvents change := by
  unfold queueFor mapEvents
  dsimp only
  rw [Table.get?_map]
  rcases dispatcher.queues.get? cache with _ | queue <;> rfl

theorem enqueue_mapEvents (keeps : Event.Keeps change) (dispatcher : Dispatcher) (event : Event) :
    (dispatcher.mapEvents change).enqueue now (change event) =
      (dispatcher.enqueue now event).mapEvents change := by
  unfold enqueue
  rw [keeps.cache, queueFor_mapEvents]
  rw [show (dispatcher.mapEvents change).metrics = dispatcher.metrics from rfl,
    Queue.pushMetered_mapEvents]
  simp only [mapEvents, Table.map_insert]

theorem deliver_mapEvents (keeps : Event.Keeps change) (dispatcher : Dispatcher) (event : Event) :
    (dispatcher.mapEvents change).deliver neighbours now (change event) =
      (dispatcher.deliver neighbours now event).mapEvents change := by
  unfold deliver
  rw [keeps.cache, keeps.message]
  rcases event.message? with _ | message <;> rfl

theorem notify_mapEvents (keeps : Event.Keeps change) (dispatcher : Dispatcher)
    {event event' : Event}
    (accepted : dispatcher.settings.accept event' = (dispatcher.settings.accept event).map change) :
    (dispatcher.mapEvents change).notify neighbours now event' =
      (dispatcher.notify neighbours now event).mapEvents change := by
  unfold notify
  split
  next alive =>
    rw [if_pos (show dispatcher.isAlive = true from alive)]
    rw [show (dispatcher.mapEvents change).settings.accept event' = _ from accepted]
    rcases dispatcher.settings.accept event with _ | taken
    · rfl
    · dsimp only [Option.map_some]
      rw [keeps.cache, keeps.kind]
      let counted : Dispatcher := { dispatcher with
        metrics := dispatcher.metrics.add (.events taken.cache taken.kind) 1 }
      split
      next queues =>
        rw [if_pos (show dispatcher.settings.asynchronous = true from queues)]
        exact congrArg (Dispatching.mk · now) (enqueue_mapEvents keeps counted taken)
      next atOnce =>
        rw [if_neg (show ¬dispatcher.settings.asynchronous = true from atOnce)]
        exact deliver_mapEvents keeps counted taken
  next dead =>
    rw [if_neg (show ¬dispatcher.isAlive = true from dead)]
    rfl

theorem ignores_sink (keeps : Event.Keeps change) (dispatcher : Dispatcher)
    (neighbours : Neighbours) : Queue.Ignores change (dispatcher.sink neighbours) :=
  Queue.ignores_fanout keeps _ _

theorem run_mapEvents (keeps : Event.Keeps change) (dispatcher : Dispatcher) :
    (dispatcher.mapEvents change).run neighbours now limit =
      (dispatcher.run neighbours now limit).mapEvents change := by
  unfold run
  rw [show (dispatcher.mapEvents change).queues.values = _ from Table.values_map _ _]
  generalize dispatcher.queues.values = queues
  induction queues generalizing dispatcher with
  | nil => rfl
  | cons queue queues ih =>
    rw [List.map_cons, List.foldl_cons, List.foldl_cons, ← ih]
    refine congrArg (List.foldl _ · _) ?_
    unfold runQueue
    rw [show (dispatcher.mapEvents change).sink = dispatcher.sink from rfl,
      show (dispatcher.mapEvents change).metrics = dispatcher.metrics from rfl,
      Queue.run_mapEvents (ignores_sink keeps dispatcher neighbours)]
    simp only [mapEvents, Table.map_insert]
    rfl

theorem shutdown_mapEvents (keeps : Event.Keeps change) (dispatcher : Dispatcher) :
    (dispatcher.mapEvents change).shutdown neighbours now =
      (dispatcher.shutdown neighbours now).mapEvents change := by
  have same : (dispatcher.mapEvents change).close neighbours now =
      dispatcher.close neighbours now := by
    unfold close
    rw [show (dispatcher.mapEvents change).queues.values = _ from Table.values_map _ _,
      List.foldl_map]
    refine List.foldl_ext _ _ _ fun closing queue _ => ?_
    unfold closeQueue
    rw [show (dispatcher.mapEvents change).sink = dispatcher.sink from rfl,
      show (dispatcher.mapEvents change).settings = dispatcher.settings from rfl,
      Queue.shutdown_mapEvents (ignores_sink keeps dispatcher neighbours)]
    simp only [Queue.Closing.mapEvents, Queue.deliveries_mapEvents]
  unfold shutdown
  rw [same]
  rfl

end Dispatcher

end

/-! ## Events without elements -/

namespace Event

/-- The event without what it put, as if no copy had been asked for. -/
def bare (event : Event) : Event :=
  { event with element := none, viaCopy := false }

/-- The event without what its message does not say. -/
def trimmed (event : Event) : Event :=
  match event.message? with
  | some (.remove _) | some .removeAll => event.bare
  | some (.put _) | none => event

theorem keeps_trimmed : Keeps trimmed where
  kind event := by unfold trimmed; split <;> rfl
  cache event := by unfold trimmed; split <;> rfl
  message event := by
    obtain ⟨kind, cache, key, element, viaCopy⟩ := event
    cases kind
    case put | update => cases viaCopy <;> cases element <;> rfl
    case remove | removeAll => rfl

end Event

namespace Settings.Replication

variable {settings : Replication} {event taken : Event}

/-- Elements are never sent by copy. -/
structure OnlyInvalidates (settings : Replication) : Prop where
  puts : settings.putsViaCopy = false
  updates : settings.updatesViaCopy = false

theorem trimmed_of_accept (invalidates : settings.OnlyInvalidates)
    (accepted : settings.accept event = some taken) : taken.trimmed = event.bare := by
  obtain ⟨kind, cache, key, element, viaCopy⟩ := event
  unfold accept at accepted
  rw [invalidates.puts, invalidates.updates] at accepted
  cases kind
  all_goals
    dsimp only at accepted
    split at accepted
    · obtain rfl := Option.some.inj accepted
      rfl
    · cases accepted

theorem accept_bare (invalidates : settings.OnlyInvalidates) (event : Event) :
    settings.accept event.bare = (settings.accept event).map Event.trimmed := by
  have unchanged :
      settings.accept event.bare = (settings.accept event).map fun _ => event.bare := by
    obtain ⟨kind, cache, key, element, viaCopy⟩ := event
    unfold accept
    rw [invalidates.puts, invalidates.updates]
    cases kind
    all_goals
      dsimp only [Event.bare]
      split <;> rfl
  rw [unchanged]
  exact Option.map_congr fun taken accepted => (trimmed_of_accept invalidates accepted).symm

theorem message?_ne_put (invalidates : settings.OnlyInvalidates)
    (accepted : settings.accept event = some taken) (element : Element) :
    taken.message? ≠ some (.put element) := by
  rw [← Event.keeps_trimmed.message, trimmed_of_accept invalidates accepted]
  obtain ⟨kind, cache, key, value, viaCopy⟩ := event
  cases kind <;> exact nofun

end Settings.Replication

/-! ## Histories that are the same -/

namespace Dispatcher

variable {clock : Clocked Dispatcher}

/-- A dispatcher on a clock whose events have been trimmed. -/
def trimmed (clock : Clocked Dispatcher) : Clocked Dispatcher :=
  { clock with state := clock.state.mapEvents Event.trimmed }

/-- The step without what the event put. -/
def Step.bare (s : Step) : Step :=
  match s.happening with
  | .notify event => { s with happening := .notify event.bare }
  | .pass _ | .shutdown => s

theorem after_trimmed (clock : Clocked Dispatcher) (neighbours : Nat → Neighbours)
    {ended ended' : Dispatching} (same : ended' = ended.mapEvents Event.trimmed) :
    (trimmed clock).after (background neighbours) ended'.dispatcher ended'.finish =
      trimmed (clock.after (background neighbours) ended.dispatcher ended.finish) := by
  subst same
  have ran : (ended.dispatcher.mapEvents Event.trimmed).run (neighbours (clock.turn + 1)) clock.now
      (ended.finish - 1) = _ := run_mapEvents Event.keeps_trimmed ended.dispatcher
  refine congrArg (Clocked.mk (max clock.now ended.finish) (clock.turn + 2)) ?_
  refine Eq.trans ?_ (apply_ite (mapEvents Event.trimmed) (clock.now < ended.finish) _ _).symm
  exact congrArg (ite (clock.now < ended.finish) · _) ran

theorem step_bare (invalidates : clock.state.settings.OnlyInvalidates) (s : Step) :
    step (trimmed clock) s.bare = trimmed (step clock s) := by
  rcases s with ⟨event | milliseconds | _, neighbours⟩
  · exact after_trimmed clock neighbours (notify_mapEvents Event.keeps_trimmed clock.state
      (Settings.Replication.accept_bare invalidates event))
  · unfold step Step.bare Clocked.advance background trimmed
    dsimp only
    rw [← run_mapEvents Event.keeps_trimmed]
  · exact after_trimmed clock neighbours (shutdown_mapEvents Event.keeps_trimmed clock.state)

/-- A history with the events left bare is that history with its events trimmed. -/
theorem runSteps_bare (invalidates : clock.state.settings.OnlyInvalidates)
    (steps : List Step) :
    runSteps (trimmed clock) (steps.map Step.bare) = trimmed (runSteps clock steps) := by
  induction steps generalizing clock with
  | nil => rfl
  | cons s steps ih =>
    refine (congrArg (runSteps · (steps.map Step.bare)) (step_bare invalidates s)).trans (ih ?_)
    rw [(step_keeps clock s).1]
    exact invalidates

/-- A dispatcher that only invalidates sends no element. -/
theorem message_ne_put {settings : Settings.Replication}
    (invalidates : settings.OnlyInvalidates) (now : Nat) (steps : List Step) :
    ∀ call ∈ (runSteps { now, state := { settings } } steps).state.deliveries,
      ∀ message ∈ call.messages, ∀ element, message ≠ .put element := by
  intro call made message carried element
  have orderly := (sound_fresh settings now steps).orderly call.url
  have said : message ∈ messagesFor (PeerUrl.cacheName call.url) (accepted settings steps) :=
    orderly.subsequence.subset
      (List.mem_flatMap_of_mem (Delivery.mem_callsTo_iff.2 ⟨made, rfl⟩) carried)
  obtain ⟨taken, known, speaks⟩ := List.mem_filterMap.1 said
  obtain ⟨event, -, taken?⟩ := List.mem_filterMap.1 (List.mem_of_mem_filter known)
  rintro rfl
  exact Settings.Replication.message?_ne_put invalidates taken? element speaks

/-- Two histories of a dispatcher that only invalidates, in which the same happens to the same keys
among the same peers, are over at the same time and have made the same calls, whatever elements were
put and however they were to be sent. No call carries an element. -/
theorem invalidation_hides_elements (settings : Settings.Replication)
    (puts : settings.putsViaCopy = false) (updates : settings.updatesViaCopy = false) (now : Nat)
    {steps steps' : List Step} (same : steps.map Step.bare = steps'.map Step.bare) :
    let ended := runSteps { now, state := { settings } } steps
    let ended' := runSteps { now, state := { settings } } steps'
    ended.now = ended'.now ∧ ended.state.deliveries = ended'.state.deliveries ∧
      ended.state.metrics = ended'.state.metrics ∧
      ∀ call ∈ ended.state.deliveries, ∀ message ∈ call.messages,
        ∀ element, message ≠ .put element := by
  intro ended ended'
  have invalidates : settings.OnlyInvalidates := ⟨puts, updates⟩
  let fresh : Clocked Dispatcher := { now, state := { settings } }
  have alike : trimmed ended = trimmed ended' := by
    have bare := @runSteps_bare fresh invalidates
    rw [← bare, ← bare, same]
  have calls := congrArg (·.state.deliveries) alike
  dsimp only [trimmed] at calls
  rw [deliveries_mapEvents, deliveries_mapEvents] at calls
  exact ⟨congrArg (·.now) alike, calls, congrArg (·.state.metrics) alike,
    message_ne_put invalidates now steps⟩

/-- A peer of a cache that answers after a while. -/
def readers : Neighbours where
  registry := Registry.register {} 0 "tcp://127.0.0.1:40002/c"
  mesh :=
    { connect _ _ := ⟨1, .ok ()⟩
      call _ _ _ := ⟨20, .ok .ok⟩ }

/-- One history puts an element by copy, the other does not say what it puts. -/
theorem invalidation_hides_a_copy :
    let settings : Settings.Replication :=
      { putsViaCopy := false, updatesViaCopy := false, asynchronous := false }
    let told (event : Event) : Dispatcher :=
      (runSteps { state := { settings } } [⟨.notify event, fun _ => readers⟩]).state
    (told (.put "c" ⟨"k", [1], 1, 0⟩)).deliveries.map (fun call => (call.start, call.messages)) =
        [(1, [.remove "k"])] ∧
      (told (.put "c" ⟨"k", [1], 1, 0⟩)).deliveries =
        (told ⟨.put, "c", "k", none, false⟩).deliveries := by
  intro settings told
  have alike : [(⟨.notify (.put "c" ⟨"k", [1], 1, 0⟩), fun _ => readers⟩ : Step)].map Step.bare =
      [⟨.notify ⟨.put, "c", "k", none, false⟩, fun _ => readers⟩].map Step.bare := rfl
  obtain ⟨-, same, -⟩ := invalidation_hides_elements settings rfl rfl 0 alike
  exact ⟨by decide +kernel, same⟩

end Dispatcher

end CacheCluster
