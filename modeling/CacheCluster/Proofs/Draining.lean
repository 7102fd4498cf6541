import CacheCluster.Chunk
import CacheCluster.Proofs.Lifecycle

/-! # Draining the queues

A dispatcher that queues is shut down by letting all its queues drain side by side, each as long as
its batches take but not beyond one grace period. What has been queued by then is handed over or
counted as discarded, and nothing is taken in or handed over any more.
-/

namespace CacheCluster

/-! ## How long a queue takes -/

namespace Fanout

variable {neighbours : Neighbours} {timeout time : Nat}

/-- When a transmission that goes on at `time` is over, if nothing stops it. -/
def overAt (neighbours : Neighbours) (timeout time : Nat) : Fanout → Nat
  | .looking messages lookup =>
    (ofPeers neighbours.mesh timeout (max time lookup.finish) messages lookup.found).due
  | .sending _ finish => max time finish

/-- When batches of a cache that are transmitted one after the other from `time` on are over. -/
def overAll (neighbours : Neighbours) (timeout : Nat) (cache : String) :
    (time : Nat) → (batches : List (List Event)) → Nat
  | time, [] => time
  | time, events :: batches =>
    overAll neighbours timeout cache
      (overAt neighbours timeout time (ofBatch neighbours time ⟨cache, events⟩)) batches

theorem le_due_ofPeers (mesh : Mesh) (timeout time : Nat) (messages : List Message)
    (urls : List String) : time ≤ (ofPeers mesh timeout time messages urls).due :=
  le_latest _ _

theorem le_overAt (fanout : Fanout) : time ≤ overAt neighbours timeout time fanout := by
  cases fanout with
  | looking messages lookup => exact (Nat.le_max_left _ _).trans (le_due_ofPeers _ _ _ _ _)
  | sending deliveries finish => exact Nat.le_max_left _ _

theorem le_overAll {cache : String} (batches : List (List Event)) :
    time ≤ overAll neighbours timeout cache time batches := by
  induction batches generalizing time with
  | nil => exact le_rfl
  | cons events batches ih => exact (le_overAt _).trans ih

end Fanout

namespace Queue

variable {neighbours : Neighbours} {timeout now limit time grace : Nat} {queue after : Queue Fanout}

/-- When a queue that takes no more events has transmitted all its batches, if nothing stops it. -/
def drainedAt (neighbours : Neighbours) (timeout now : Nat) (queue : Queue Fanout) : Nat :=
  let remaining := chunks queue.fullSize queue.pending
  match queue.stage with
  | .idle => Fanout.overAll neighbours timeout queue.cache now remaining
  | .busy _ _ work =>
    Fanout.overAll neighbours timeout queue.cache (Fanout.overAt neighbours timeout now work)
      remaining
  | .drained time => time
  | .broken _ | .stopped => now

/-- An act brings a closed queue no nearer to the time at which it is drained, and no further
away. -/
theorem drainedAt_acted (closed : queue.closed = true)
    (next : queue.nextAct? (.fanout neighbours timeout) now = some time)
    (acted : Acted (.fanout neighbours timeout) time queue after) :
    after.drainedAt neighbours timeout time = queue.drainedAt neighbours timeout now := by
  cases acted with
  | drain idle _ empty =>
    obtain rfl : now = time := by simpa [nextAct?, idle, closed] using next
    simp [drainedAt, idle, empty, chunks, Fanout.overAll]
  | begin idle waiting started =>
    obtain rfl : now = time := by simpa [nextAct?, idle, closed] using next
    obtain rfl := Option.some.inj started
    rw [drainedAt, drainedAt, idle]
    dsimp only
    rw [chunks_of_ne_nil queue.fullSize_pos waiting]
    rfl
  | breakDown _ _ failed => cases failed
  | @goOn start batch work work' busy due goesOn =>
    have atTime : max now (Fanout.due work) = time := by
      simpa [nextAct?, busy, Sink.fanout] using next
    rw [drainedAt, drainedAt, busy]
    cases work with
    | looking messages lookup =>
      obtain rfl := Option.some.inj goesOn
      obtain rfl : max now lookup.finish = time := atTime
      exact congrArg (Fanout.overAll neighbours timeout queue.cache · _)
        (Nat.max_eq_right (Fanout.le_due_ofPeers _ _ _ _ _))
    | sending deliveries finish => cases goesOn
  | @finish start batch work busy due noMore =>
    have atTime : max now (Fanout.due work) = time := by
      simpa [nextAct?, busy, Sink.fanout] using next
    rw [drainedAt, drainedAt, busy]
    cases work with
    | looking messages lookup => cases noMore
    | sending deliveries finish =>
      obtain rfl : max now finish = time := atTime
      rfl

theorem le_drainedAt (active : queue.stage.isActive = true) :
    now ≤ queue.drainedAt neighbours timeout now := by
  unfold drainedAt
  rcases stage : queue.stage with _ | ⟨start, batch, work⟩ | _ | _ | _
  · exact Fanout.le_overAll _
  · exact (Fanout.le_overAt _).trans (Fanout.le_overAll _)
  all_goals simp [stage, Stage.isActive] at active

/-! ## When transmissions begin -/

/-- The transmissions of a queue, and the calls for them, have begun by some time. -/
def HasBegunBy (time : Nat) (queue : Queue Fanout) : Prop :=
  ∀ flush ∈ queue.handedOver, flush.start ≤ time ∧ ∀ call ∈ flush.calls, call.start ≤ time

theorem HasBegunBy.later (h : queue.HasBegunBy now) (le : now ≤ time) : queue.HasBegunBy time :=
  fun flush mem => ⟨(h flush mem).1.trans le, fun call made => ((h flush mem).2 call made).trans le⟩

/-- Every call of a fan-out that goes on is made at that time. -/
theorem start_of_next {work work' : Fanout}
    (next : (Sink.fanout neighbours timeout).next time work = some work') :
    ∀ call ∈ work'.deliveries, call.start = time := by
  cases work with
  | looking messages lookup =>
    obtain rfl := Option.some.inj next
    intro call made
    obtain ⟨url, -, rfl⟩ := List.mem_map.1 made
    rfl
  | sending => cases next

theorem deliveries_ofBatch (neighbours : Neighbours) (time : Nat) (batch : Batch) :
    (Fanout.ofBatch neighbours time batch).deliveries = [] := by
  unfold Fanout.ofBatch
  split <;> rfl

theorem HasBegunBy.acted (h : queue.HasBegunBy now) (le : now ≤ time)
    (acted : Acted (.fanout neighbours timeout) time queue after) : after.HasBegunBy time := by
  have begun := h.later le
  unfold HasBegunBy at begun ⊢
  rw [handedOver_eq] at begun ⊢
  cases acted with
  | drain idle =>
    rw [idle] at begun
    exact begun
  | begin idle _ started =>
    obtain rfl := Option.some.inj started
    rw [idle] at begun
    refine List.forall_mem_append.2 ⟨fun flush mem => begun flush (List.mem_append_left _ mem), ?_⟩
    refine List.forall_mem_singleton.2 ⟨le_rfl, fun call made => ?_⟩
    have none :
        call ∈ (Fanout.ofBatch neighbours time ⟨queue.cache, queue.nextEvents⟩).deliveries := made
    rw [deliveries_ofBatch] at none
    exact absurd none List.not_mem_nil
  | breakDown _ _ failed => cases failed
  | goOn busy due next =>
    rw [busy] at begun
    obtain ⟨before, last⟩ := List.forall_mem_append.1 begun
    refine List.forall_mem_append.2 ⟨before, List.forall_mem_singleton.2 ⟨?_, fun call made => ?_⟩⟩
    · exact (List.forall_mem_singleton.1 last).1
    · exact (start_of_next next call made).le
  | finish busy =>
    rw [busy] at begun
    obtain ⟨before, last⟩ := List.forall_mem_append.1 begun
    refine List.forall_mem_append.2 ⟨?_, List.forall_mem_nil _⟩
    exact List.forall_mem_append.2 ⟨before, List.forall_mem_singleton.2
      (last ⟨_, _, some _, none⟩ List.mem_cons_self)⟩

theorem HasBegunBy.run (h : queue.HasBegunBy now) (le : now ≤ limit) (metrics : Metrics) :
    (queue.run (.fanout neighbours timeout) now limit metrics).1.HasBegunBy limit :=
  run_preserves (.fanout neighbours timeout) limit (I := HasBegunBy) (fun le h => h.later le)
    (fun h le _ acted => h.acted le acted) (fun h => h) metrics le h

/-! ## Draining -/

/-- A closed queue that is being drained, or has been. -/
structure IsDraining (now : Nat) (queue : Queue Fanout) : Prop where
  closed : queue.closed = true
  stage : queue.stage.isActive = true ∧ queue.HasBegunBy now ∨
    ∃ time ≤ now, queue.stage = .drained time ∧ queue.pending = [] ∧ queue.HasBegunBy time

theorem IsDraining.hasBegunBy (h : queue.IsDraining now) : queue.HasBegunBy now := by
  rcases h.stage with ⟨-, begun⟩ | ⟨time, le, -, -, begun⟩
  · exact begun
  · exact begun.later le

theorem IsDraining.acted (h : queue.IsDraining now) (le : now ≤ time)
    (acted : Acted (.fanout neighbours timeout) time queue after) :
    after.IsDraining time ∧ time ≤ after.drainedAt neighbours timeout time := by
  have closed : after.closed = true := acted.setup.2.2.1.trans h.closed
  have begun : after.HasBegunBy time := h.hasBegunBy.acted le acted
  cases acted with
  | drain _ _ empty => exact ⟨⟨closed, .inr ⟨time, le_rfl, rfl, empty, begun⟩⟩, le_rfl⟩
  | begin => exact ⟨⟨closed, .inl ⟨rfl, begun⟩⟩, le_drainedAt rfl⟩
  | breakDown _ _ failed => cases failed
  | goOn => exact ⟨⟨closed, .inl ⟨rfl, begun⟩⟩, le_drainedAt rfl⟩
  | finish => exact ⟨⟨closed, .inl ⟨rfl, begun⟩⟩, le_drainedAt rfl⟩

/-- A queue that is being drained acts until it is drained. -/
theorem IsDraining.of_none (h : queue.IsDraining now)
    (none : queue.nextAct? (.fanout neighbours timeout) now = none) :
    ∃ time ≤ now, queue.stage = .drained time ∧ queue.pending = [] ∧ queue.HasBegunBy time := by
  rcases h.stage with ⟨active, -⟩ | drained
  · rcases stage : queue.stage with _ | _ | _ | _ | _
    · simp [nextAct?, stage, h.closed] at none
    · simp [nextAct?, stage] at none
    all_goals simp [stage, Stage.isActive] at active
  · exact drained

/-- Where a queue that is drained at `drained` if nothing stops it has come to by `limit`. -/
structure HasDrained (drained limit : Nat) (queue : Queue Fanout) : Prop where
  begun : queue.HasBegunBy (min drained limit)
  stage : (drained ≤ limit ∧ queue.stage = .drained drained ∧ queue.pending = []) ∨
    limit < drained ∧ queue.stage.isActive = true

/-- A queue that is being drained reaches the time at which it is drained, unless it is stopped
before. -/
theorem IsDraining.acts (h : queue.IsDraining now) (le : now ≤ limit) (metrics : Metrics) :
    (queue.acts (.fanout neighbours timeout) now limit metrics).1.HasDrained
      (queue.drainedAt neighbours timeout now) limit := by
  induction now, queue, metrics using acts.induct (.fanout neighbours timeout) limit with
  | case1 now queue metrics none =>
    obtain ⟨time, before, drained, empty, begun⟩ := h.of_none none
    have ended : queue.drainedAt neighbours timeout now = time := by rw [drainedAt, drained]
    rw [acts_of_none none, ended]
    have reached : time ≤ limit := before.trans le
    exact ⟨(min_eq_left reached).symm ▸ begun, .inl ⟨reached, drained, empty⟩⟩
  | case2 now queue metrics time next due ih =>
    have acted := acted_act next metrics
    rw [acts_of_due next due, ← drainedAt_acted h.closed next acted]
    exact ih (h.acted (le_of_nextAct? next) acted).1 due
  | case3 now queue metrics time next notDue =>
    have acted := acted_act next metrics
    have later := (h.acted (le_of_nextAct? next) acted).2
    rw [drainedAt_acted h.closed next acted] at later
    have missed : limit < queue.drainedAt neighbours timeout now :=
      (Nat.lt_of_not_le notDue).trans_le later
    rw [acts_of_not_due next notDue]
    refine ⟨(min_eq_right missed.le).symm ▸ h.hasBegunBy.later le, .inr ⟨missed, ?_⟩⟩
    rcases h.stage with ⟨active, -⟩ | ⟨ended, -, drained, -⟩
    · exact active
    · rw [nextAct?_of_drained drained] at next
      cases next

theorem IsDraining.run (h : queue.IsDraining now) (le : now ≤ limit) (metrics : Metrics) :
    (queue.run (.fanout neighbours timeout) now limit metrics).1.HasDrained
      (queue.drainedAt neighbours timeout now) limit := by
  have running : ¬queue.isStopped = true := by
    unfold isStopped
    rcases h.stage with ⟨active, -⟩ | ⟨time, -, drained, -⟩
    · cases stage : queue.stage <;> simp_all [Stage.isActive]
    · simp [drained]
  have reached : (queue.acts (.fanout neighbours timeout) now limit metrics).1.HasDrained
      (queue.drainedAt neighbours timeout now) limit := h.acts le metrics
  unfold Queue.run
  rw [if_neg running]
  exact ⟨reached.begun, reached.stage⟩

/-! ## The end of a queue -/

theorem conclude_of_drained {began deadline : Nat} (drained : queue.stage = .drained time)
    (metrics : Metrics) : queue.conclude began deadline metrics = ⟨queue, metrics, 0, time⟩ := by
  rw [conclude, drained]

theorem conclude_of_active {began deadline : Nat} (active : queue.stage.isActive = true)
    (metrics : Metrics) :
    queue.conclude began deadline metrics = queue.discard deadline metrics := by
  unfold conclude
  split
  next drained => simp [drained, Stage.isActive] at active
  next broken => simp [broken, Stage.isActive] at active
  next => rfl

/-- How the shutdown of a queue ends that had events and would be drained at `drained`. -/
structure Settles (events : List Event) (drained deadline : Nat) (closing : Closing Fanout) :
    Prop where
  /-- The events are handed over or counted. -/
  conserved : ∃ left, closing.queue.batches.flatMap (·.events) ++ left = events ∧
    closing.discarded = left.length ∧ (drained < deadline → left = [])
  begun : closing.queue.HasBegunBy closing.finish
  finish : closing.finish = min drained deadline

theorem HasDrained.conclude {drained : Nat} (h : queue.HasDrained drained limit)
    (began : Nat) (metrics : Metrics) :
    Settles queue.events drained (limit + 1) (queue.conclude began (limit + 1) metrics) := by
  obtain ⟨begun, ⟨reached, stage, empty⟩ | ⟨missed, active⟩⟩ := h
  · rw [conclude_of_drained stage]
    have finish : drained = min drained (limit + 1) := (min_eq_left (by omega)).symm
    refine ⟨⟨[], ?_, rfl, fun _ => rfl⟩, min_eq_left reached ▸ begun, finish⟩
    rw [Queue.events, empty]
  · rw [conclude_of_active active]
    have finish : limit + 1 = min drained (limit + 1) := (min_eq_right missed).symm
    have begun : queue.HasBegunBy (limit + 1) :=
      begun.later ((min_le_right _ _).trans (Nat.le_succ limit))
    exact ⟨⟨queue.pending, rfl, rfl, fun inTime => by omega⟩, begun, finish⟩

/-- The shutdown of a queue in use ends when it is drained, or at the end of the grace period. -/
theorem IsWorking.shutdown (h : queue.IsWorking) (begun : queue.HasBegunBy now) (grace : Nat)
    (metrics : Metrics) :
    Settles queue.events (queue.drainedAt neighbours timeout now) (now + grace)
      (queue.shutdown (.fanout neighbours timeout) grace now metrics) := by
  have isOpen : ¬queue.closed = true := by rw [h.isOpen]; exact Bool.false_ne_true
  unfold Queue.shutdown
  rw [if_neg isOpen]
  by_cases atOnce : grace = 0
  · rw [if_pos atOnce, atOnce]
    dsimp only
    have active : queue.close.stage.isActive = true := h.isActive
    rw [conclude_of_active active]
    have drained : now ≤ queue.drainedAt neighbours timeout now := le_drainedAt h.isActive
    exact ⟨⟨queue.pending, rfl, rfl, fun inTime => by omega⟩, begun, (min_eq_right drained).symm⟩
  · rw [if_neg atOnce]
    have draining : queue.close.IsDraining now := ⟨rfl, .inl ⟨h.isActive, begun⟩⟩
    have deadline : now + grace = now + grace - 1 + 1 := by omega
    have le : now ≤ now + grace - 1 := by omega
    have same : (queue.close.run (.fanout neighbours timeout) now (now + grace - 1)
        metrics).1.events = queue.events := (run_keeps le metrics).1
    rw [← same]
    generalize now + grace - 1 = limit at *
    rw [deadline]
    exact (draining.run le metrics).conclude now _

end Queue

/-! ## All queues of a dispatcher -/

namespace Dispatcher

variable {dispatcher : Dispatcher} {clock : Clocked Dispatcher} {neighbours : Neighbours}
  {now limit : Nat}

/-- Every queue has only begun transmissions by some time. -/
def HasBegunBy (time : Nat) (dispatcher : Dispatcher) : Prop :=
  ∀ cache queue, dispatcher.queues.get? cache = some queue → queue.HasBegunBy time

theorem HasBegunBy.later {later : Nat} (h : dispatcher.HasBegunBy now) (le : now ≤ later) :
    dispatcher.HasBegunBy later :=
  fun cache queue known => (h cache queue known).later le

theorem HasBegunBy.notify (h : dispatcher.HasBegunBy now) (inUse : dispatcher.IsInUse now)
    (neighbours : Neighbours) (event : Event) :
    (dispatcher.notify neighbours now event).dispatcher.HasBegunBy now := by
  intro cache queue known
  rcases inUse.get?_notify neighbours event known with known | ⟨-, taken, rfl⟩
  · exact h cache queue known
  · unfold queueFor
    rcases known : dispatcher.queues.get? cache with _ | queue
    · exact List.forall_mem_nil _
    · exact h cache queue known

theorem HasBegunBy.run (h : dispatcher.HasBegunBy now) (inUse : dispatcher.IsInUse now)
    (le : now ≤ limit) (neighbours : Neighbours) :
    (dispatcher.run neighbours now limit).HasBegunBy limit := by
  intro cache queue known
  rw [inUse.get?_run le, Option.map_eq_some_iff] at known
  obtain ⟨before, known, rfl⟩ := known
  exact (h cache before known).run le {}

theorem HasBegunBy.step (h : clock.state.HasBegunBy clock.now)
    (inUse : clock.state.IsInUse clock.now) (s : Step) :
    (step clock s).state.HasBegunBy (step clock s).now := by
  obtain ⟨events, sound⟩ := inUse.sound
  unfold Dispatcher.step
  rcases s with ⟨event | milliseconds | _, neighbours⟩
  · dsimp only
    rw [after_eq (sound.still _ event)]
    exact (h.notify inUse _ event).later (Nat.le_max_left _ _)
  · exact h.run inUse (Nat.le_add_right _ _) _
  · dsimp only
    rw [after_eq fun _ => rfl]
    exact nofun

/-- Whatever has been done with a dispatcher, it is in use and ahead of nothing. -/
theorem hasBegunBy_runSteps (inUse : clock.state.IsInUse clock.now)
    (begun : clock.state.HasBegunBy clock.now) (steps : List Step) :
    (runSteps clock steps).state.IsInUse (runSteps clock steps).now ∧
      (runSteps clock steps).state.HasBegunBy (runSteps clock steps).now := by
  induction steps generalizing clock with
  | nil => exact ⟨inUse, begun⟩
  | cons s steps ih => exact ih (inUse.becomes (.step s)) (begun.step inUse s)

theorem runSteps_of_dead (dead : clock.state.isAlive = false) (noQueues : clock.state.queues = ∅)
    (steps : List Step) : (runSteps clock steps).state = clock.state := by
  induction steps generalizing clock with
  | nil => rfl
  | cons s steps ih =>
    have same := step_of_dead dead noQueues s
    exact (ih (same ▸ dead) (same ▸ noQueues)).trans same

/-! ## Shutdown -/

/-- What others find of a dispatcher while it is shut down, once some of its queues are drained. -/
def stopped (dispatcher : Dispatcher) (closing : Closing) : Dispatcher :=
  { dispatcher with
    isAlive := false, queues := ∅, metrics := closing.metrics, sent := closing.sent }

/-- How the shutdown of a queue ends in that of its dispatcher. -/
def closed (neighbours : Neighbours) (now : Nat) (dispatcher : Dispatcher) (queue : Queue Fanout) :
    Queue.Closing Fanout :=
  queue.shutdown (dispatcher.sink neighbours) dispatcher.settings.shutdownGrace now {}

/-- The events of a cache that have been handed over when a shutdown ends. -/
def transmitted (neighbours : Neighbours) (now : Nat) (dispatcher : Dispatcher) (cache : String) :
    List Event :=
  ((dispatcher.queues.get? cache).map fun queue =>
    (dispatcher.closed neighbours now queue).queue.batches.flatMap (·.events)).getD []

/-- The queues are drained side by side: what they discard adds up, and the last to end decides. -/
theorem foldl_closeQueue (queues : List (Queue Fanout)) (closing : Closing) :
    let ended := queues.foldl (dispatcher.closeQueue neighbours now) closing
    ended.discarded = closing.discarded +
        (queues.map fun queue => (dispatcher.closed neighbours now queue).discarded).sum ∧
      ended.finish = Fanout.latest closing.finish
        (queues.map fun queue => (dispatcher.closed neighbours now queue).finish) := by
  induction queues generalizing closing with
  | nil => exact ⟨rfl, rfl⟩
  | cons queue queues ih =>
    let shut (metrics : Metrics) := queue.shutdown (dispatcher.sink neighbours)
      dispatcher.settings.shutdownGrace now metrics
    obtain ⟨-, discarded, finish⟩ :
        (shut closing.metrics).queue = (shut {}).queue ∧
          (shut closing.metrics).discarded = (shut {}).discarded ∧
          (shut closing.metrics).finish = (shut {}).finish := Queue.shutdown_unmetered _ _ _
    obtain ⟨total, last⟩ := ih (dispatcher.closeQueue neighbours now closing queue)
    constructor
    · refine total.trans ?_
      rw [List.map_cons, List.sum_cons, ← Nat.add_assoc, closed, ← discarded]
      rfl
    · refine last.trans ?_
      rw [List.map_cons, closed, ← finish]
      rfl

/-- When a queue has transmitted all that it has, if nothing stops it. -/
def drainedAt (neighbours : Neighbours) (now : Nat) (dispatcher : Dispatcher)
    (queue : Queue Fanout) : Nat :=
  queue.drainedAt neighbours dispatcher.settings.callTimeout now

/-- The time at which a shutdown gives up what is left. -/
def deadline (now : Nat) (dispatcher : Dispatcher) : Nat :=
  now + dispatcher.settings.shutdownGrace

section

variable {events : List Event} (inUse : dispatcher.IsInUse now) (begun : dispatcher.HasBegunBy now)

include inUse begun

theorem settles_closed {cache : String} {queue : Queue Fanout}
    (known : dispatcher.queues.get? cache = some queue) (neighbours : Neighbours) :
    Queue.Settles queue.events (dispatcher.drainedAt neighbours now queue)
      (dispatcher.deadline now) (dispatcher.closed neighbours now queue) :=
  (inUse.working cache queue known).shutdown (begun cache queue known) _ {}

theorem finish_shutdown (neighbours : Neighbours) :
    (dispatcher.shutdown neighbours now).finish = Fanout.latest now (dispatcher.queues.values.map
      fun queue => min (dispatcher.drainedAt neighbours now queue) (dispatcher.deadline now)) := by
  refine (foldl_closeQueue dispatcher.queues.values _).2.trans ?_
  refine congrArg (Fanout.latest now) (List.map_congr_left fun queue mem => ?_)
  obtain ⟨cache, known⟩ := Table.mem_values_iff.1 mem
  exact (settles_closed inUse begun known neighbours).finish

/-- All calls that a dispatcher made are begun when its shutdown is over. -/
theorem start_le_finish_shutdown (queueing : dispatcher.Queueing now events)
    (neighbours : Neighbours) :
    ∀ call ∈ (dispatcher.shutdown neighbours now).dispatcher.deliveries,
      call.start ≤ (dispatcher.shutdown neighbours now).finish := by
  intro call made
  rw [deliveries_of_no_queues rfl, shutdown_sent, queueing.unsent, List.nil_append] at made
  obtain ⟨queue, mem, made⟩ := List.mem_flatMap.1 made
  obtain ⟨whole, began, rfl⟩ := List.mem_map.1 made
  obtain ⟨flush, known, called⟩ := List.mem_flatMap.1 began
  obtain ⟨cache, known'⟩ := Table.mem_values_iff.1 mem
  have inTime : whole.start ≤ (dispatcher.closed neighbours now queue).finish :=
    ((settles_closed inUse begun known' neighbours).begun flush known).2 whole called
  refine inTime.trans ?_
  rw [finish_shutdown inUse begun, (settles_closed inUse begun known' neighbours).finish]
  exact Fanout.le_latest_of_mem (List.mem_map_of_mem mem)

/-- Each cache has a rest of events that are not handed over, and the rests are counted. -/
theorem exists_discarded (queueing : dispatcher.Queueing now events) (neighbours : Neighbours) :
    ∃ discarded : String → List Event,
      (∀ cache, dispatcher.transmitted neighbours now cache ++ discarded cache =
        events.filter (·.cache == cache)) ∧
      (dispatcher.close neighbours now).discarded =
        (dispatcher.queues.names.map fun cache => (discarded cache).length).sum ∧
      ((∀ queue ∈ dispatcher.queues.values,
          dispatcher.drainedAt neighbours now queue < dispatcher.deadline now) →
        ∀ cache, discarded cache = []) := by
  have each (cache : String) : ∃ left,
      dispatcher.transmitted neighbours now cache ++ left = events.filter (·.cache == cache) ∧
      ∀ queue, dispatcher.queues.get? cache = some queue →
        (dispatcher.closed neighbours now queue).discarded = left.length ∧
        (dispatcher.drainedAt neighbours now queue < dispatcher.deadline now → left = []) := by
    rw [← queueing.queued]
    unfold queued transmitted
    rcases known : dispatcher.queues.get? cache with _ | queue
    · exact ⟨[], rfl, nofun⟩
    · obtain ⟨left, conserved, counted, inTime⟩ :=
        (settles_closed inUse begun known neighbours).conserved
      refine ⟨left, conserved, ?_⟩
      rintro _ ⟨⟩
      exact ⟨counted, inTime⟩
  choose discarded conserved counted using each
  refine ⟨discarded, conserved, ?_, fun inTime cache => ?_⟩
  · refine (foldl_closeQueue dispatcher.queues.values _).1.trans ?_
    rw [Nat.zero_add, Table.values, Table.names, List.map_map, List.map_map]
    refine congrArg List.sum (List.map_congr_left fun entry mem => ?_)
    exact (counted _ _ ((Table.mem_entries_iff _ _ _).1 mem)).1
  · rcases known : dispatcher.queues.get? cache with _ | queue
    · have none : dispatcher.transmitted neighbours now cache ++ discarded cache = [] := by
        rw [conserved, ← queueing.queued, queued, known]
        rfl
      exact (List.append_eq_nil_iff.1 none).2
    · refine (counted cache queue known).2 (inTime queue ?_)
      exact Table.mem_values_iff.2 ⟨cache, known⟩

end

/-- A dispatcher that queues and is shut down after any use has until the end of one grace period,
however many queues it has. No call starts after the shutdown is over, which is when the last queue
is drained or the grace period ends. What a cache was notified of has been handed over, in order,
but for a rest that is counted; there is no rest if each queue can be drained before the grace
period ends. From the moment the shutdown begins, nothing that is done with the dispatcher changes
it. -/
theorem shutdown_drains_within_grace (settings : Settings.Replication)
    (asynchronous : settings.asynchronous = true) (start : Nat) (before : List Step)
    (alive : before.any Step.isShutdown = false) (neighbours : Neighbours) :
    let clock := runSteps { now := start, state := { settings } } before
    let now := clock.now
    let dispatcher := clock.state
    let deadline := now + settings.shutdownGrace
    let drained (queue : Queue Fanout) := queue.drainedAt neighbours settings.callTimeout now
    let closing := dispatcher.close neighbours now
    let shut := dispatcher.shutdown neighbours now
    (shut.finish = Fanout.latest now
        (dispatcher.queues.values.map fun queue => min (drained queue) deadline) ∧
      now ≤ shut.finish ∧ shut.finish ≤ deadline) ∧
    (shut.dispatcher.queues = ∅ ∧ ∀ call ∈ shut.dispatcher.deliveries, call.start ≤ shut.finish) ∧
    (∃ discarded : String → List Event,
      (∀ cache, dispatcher.transmitted neighbours now cache ++ discarded cache =
        (accepted settings before).filter (·.cache == cache)) ∧
      closing.discarded = (dispatcher.queues.names.map fun cache => (discarded cache).length).sum ∧
      ((∀ queue ∈ dispatcher.queues.values, drained queue < deadline) →
        ∀ cache, discarded cache = [])) ∧
    shut.dispatcher = dispatcher.stopped closing ∧
    ∀ partly time turn steps,
      (runSteps ⟨time, turn, dispatcher.stopped partly⟩ steps).state =
        dispatcher.stopped partly := by
  intro clock now dispatcher deadline drained closing shut
  have settled : dispatcher.settings = settings := settings_run _ before
  obtain ⟨inUse, begun⟩ : dispatcher.IsInUse now ∧ dispatcher.HasBegunBy now :=
    @hasBegunBy_runSteps { now := start, state := { settings } } (isInUse_start settings start)
      (fun _ _ none => nomatch none) before
  have queueing : dispatcher.Queueing now (accepted settings before) := by
    refine (sound_fresh settings start before).of_alive ((settings_run ..).symm ▸ asynchronous) ?_
    rw [isAlive_run, alive]
    rfl
  have finish := finish_shutdown inUse begun neighbours
  have account := exists_discarded inUse begun queueing neighbours
  unfold Dispatcher.drainedAt Dispatcher.deadline at finish account
  rw [settled] at finish account
  refine ⟨⟨finish, ?_, ?_⟩, ⟨rfl, start_le_finish_shutdown inUse begun queueing neighbours⟩,
    account, rfl, fun partly time turn steps => runSteps_of_dead rfl rfl steps⟩
  · rw [finish]
    exact Fanout.le_latest _ _
  · rw [finish]
    refine Fanout.latest_le (Nat.le_add_right _ _) fun time mem => ?_
    obtain ⟨queue, -, rfl⟩ := List.mem_map.1 mem
    exact min_le_right _ _

/-- Peers of two caches, one of which takes longer to answer. -/
def unevenPeers : Neighbours where
  registry :=
    (Registry.register {} 0 "tcp://127.0.0.1:40002/c").register 0 "tcp://127.0.0.1:40002/d"
  mesh :=
    { connect _ _ := ⟨0, .ok ()⟩
      call _ url _ := ⟨if url = "tcp://127.0.0.1:40002/c" then 20 else 5, .ok .ok⟩ }

/-- An event for each of the two caches. -/
def twoCaches : List Step :=
  [⟨.notify (.put "c" ⟨"k", [1], 1, 0⟩), fun _ => unevenPeers⟩,
    ⟨.notify (.remove "d" "k"), fun _ => unevenPeers⟩]

/-- Both queues are drained within a grace period that is too short for one after the other. -/
theorem drains_two_queues_side_by_side :
    let settings : Settings.Replication := { shutdownGrace := 22 }
    let dispatcher := (runSteps { state := { settings } } twoCaches).state
    (dispatcher.shutdown unevenPeers 0).finish = 20 ∧
      (dispatcher.close unevenPeers 0).discarded = 0 ∧
      dispatcher.transmitted unevenPeers 0 "c" = [.put "c" ⟨"k", [1], 1, 0⟩] ∧
      dispatcher.transmitted unevenPeers 0 "d" = [.remove "d" "k"] := by
  intro settings dispatcher
  obtain ⟨⟨finish, -, -⟩, -, ⟨discarded, conserved, counted, inTime⟩, -⟩ :=
    shutdown_drains_within_grace settings rfl 0 twoCaches rfl unevenPeers
  have ends : dispatcher.queues.values.map
      (·.drainedAt unevenPeers settings.callTimeout 0) = [20, 5] := by decide +kernel
  have rest : ∀ cache, discarded cache = [] := by
    refine inTime fun queue mem => ?_
    have bound : queue.drainedAt unevenPeers settings.callTimeout 0 ∈ [20, 5] :=
      ends ▸ List.mem_map_of_mem mem
    rcases List.mem_pair.1 bound with same | same
    · exact lt_of_eq_of_lt same (by decide)
    · exact lt_of_eq_of_lt same (by decide)
  have whole (cache : String) : dispatcher.transmitted unevenPeers 0 cache =
      (accepted settings twoCaches).filter (·.cache == cache) := by
    rw [← conserved cache, rest, List.append_nil]
    rfl
  refine ⟨finish.trans ?_, counted.trans (by simp [rest]), whole "c", whole "d"⟩
  have both := congrArg (List.map (min · 22)) ends
  rw [List.map_map] at both
  exact congrArg (Fanout.latest 0) both

end Dispatcher

end CacheCluster
