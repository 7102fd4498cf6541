import CacheCluster.Metrics

/-! # The replication queue of a cache

Events wait here until enough of them have come or the oldest has waited long enough; a flusher then
hands them over in batches, one transmission at a time. Closing the queue lets the flusher drain it
within a grace period; what is left then is discarded.

The flusher acts at certain times only, so a queue runs from one time to another by acting at each
of them in turn.
-/

namespace CacheCluster

/-- Where batches go. A transmission may take several rounds; `ω` is what is known of one under
way. -/
structure Sink (ω : Type) where
  /-- Begins a transmission, unless the sink breaks down. -/
  start : (time : Nat) → Batch → Option ω
  /-- When the transmission goes on. -/
  due : ω → Nat
  /-- Begins the next round; there is none when the transmission is over. -/
  next : (time : Nat) → ω → Option ω
  /-- The number of deliveries that failed. -/
  failures : ω → Nat
  /-- A bound on the rounds to come. -/
  rounds : ω → Nat
  rounds_next : ∀ {time work work'}, next time work = some work' → rounds work' < rounds work

/-- A sink that takes `delay` for each batch and breaks down on an event for a fatal key. -/
def Sink.steady (delay : Nat) (fatal : Option String) : Sink Nat where
  start time batch :=
    if fatal.any fun key => batch.events.any (·.key == key) then none else some (time + delay)
  due finish := finish
  next _ _ := none
  failures _ := 0
  rounds _ := 0
  rounds_next h := by simp at h

/-- A batch that was handed over. -/
structure Flush (ω : Type) where
  start : Nat
  batch : Batch
  /-- The transmission, unless the sink broke down. -/
  work : Option ω
  /-- When the transmission was over, if it ran to its end. -/
  finish : Option Nat

/-- What the flusher is doing. -/
inductive Stage (ω : Type)
  | idle
  | busy (start : Nat) (batch : Batch) (work : ω)
  /-- The queue was closed and has been drained. -/
  | drained (time : Nat)
  | broken (time : Nat)
  /-- The grace period ran out. -/
  | stopped

structure Queue (ω : Type) where
  cache : String
  /-- Milliseconds that the oldest event waits at most while the flusher is idle. -/
  interval : Nat := 1000
  maxBatch : Nat := 1000
  pending : List Event := []
  /-- When the queue last became nonempty. -/
  since : Nat := 0
  closed : Bool := false
  stage : Stage ω := .idle
  /-- The batches whose transmission is over, in order. -/
  flushes : List (Flush ω) := []
  /-- Everything due up to this time has happened. -/
  seen : Nat := 0

namespace Queue

variable {ω : Type}

/-- The size of a full batch. -/
def fullSize (queue : Queue ω) : Nat :=
  max 1 queue.maxBatch

/-! ## Events in and out -/

/-- Adds an event, whether or not the queue is closed. -/
def append (queue : Queue ω) (now : Nat) (event : Event) : Queue ω :=
  { queue with
    pending := queue.pending ++ [event]
    since := if queue.pending.isEmpty then now else queue.since }

/-- Adds an event and records how many wait; a closed queue stays as it is. -/
def pushMetered (queue : Queue ω) (now : Nat) (event : Event) (metrics : Metrics) :
    Queue ω × Metrics :=
  if queue.closed then (queue, metrics)
  else
    let queue := queue.append now event
    (queue, metrics.set (.queueSize queue.cache) queue.pending.length)

/-- The events of the next batch. -/
def nextEvents (queue : Queue ω) : List Event :=
  queue.pending.take queue.fullSize

/-- Takes the events of the next batch away; what is left keeps its age. -/
def afterTake (queue : Queue ω) : Queue ω :=
  { queue with pending := queue.pending.drop queue.fullSize }

/-- Every batch that was handed over, the one under way included. -/
def handedOver (queue : Queue ω) : List (Flush ω) :=
  match queue.stage with
  | .busy start batch work => queue.flushes ++ [⟨start, batch, some work, none⟩]
  | _ => queue.flushes

/-! ## The flusher -/

/-- When the flusher acts next. -/
def nextAct? (sink : Sink ω) (now : Nat) (queue : Queue ω) : Option Nat :=
  match queue.stage with
  | .idle =>
    if queue.closed || queue.fullSize ≤ queue.pending.length then some now
    else if queue.pending.isEmpty then none
    else some (max now (queue.since + queue.interval))
  | .busy _ _ work => some (max now (sink.due work))
  | _ => none

/-- Hands the next batch over, or stops if there is none. -/
def handOver (sink : Sink ω) (time : Nat) (queue : Queue ω) (metrics : Metrics) :
    Queue ω × Metrics :=
  match queue.nextEvents with
  | [] => ({ queue with stage := .drained time }, metrics)
  | events =>
    let batch : Batch := ⟨queue.cache, events⟩
    let rest := queue.afterTake
    let metrics := metrics.set (.queueSize queue.cache) rest.pending.length
    match sink.start time batch with
    | some work => ({ rest with stage := .busy time batch work }, metrics)
    | none => ({ rest with
        stage := .broken time, flushes := queue.flushes ++ [⟨time, batch, none, none⟩] }, metrics)

/-- Goes on with the transmission under way. -/
def goOn (sink : Sink ω) (time start : Nat) (batch : Batch) (work : ω) (queue : Queue ω)
    (metrics : Metrics) : Queue ω × Metrics :=
  match sink.next time work with
  | some work => ({ queue with stage := .busy start batch work }, metrics)
  | none =>
    ({ queue with
        stage := .idle
        flushes := queue.flushes ++ [⟨start, batch, some work, some time⟩] },
      (metrics.add (.failures queue.cache) (sink.failures work)).add (.flushes queue.cache) 1)

/-- What the flusher does when it acts. -/
def act (sink : Sink ω) (time : Nat) (queue : Queue ω) (metrics : Metrics) : Queue ω × Metrics :=
  match queue.stage with
  | .idle => queue.handOver sink time metrics
  | .busy start batch work => queue.goOn sink time start batch work metrics
  | _ => (queue, metrics)

/-- A bound on what the flusher does before the next batch. -/
def Stage.acts (sink : Sink ω) : Stage ω → Nat
  | .idle => 1
  | .busy _ _ work => sink.rounds work + 2
  | _ => 0

theorem act_decreases {sink : Sink ω} {now time : Nat} {queue : Queue ω} (metrics : Metrics)
    (h : queue.nextAct? sink now = some time) :
    Prod.Lex (· < ·) (· < ·)
      ((queue.act sink time metrics).1.pending.length,
        Stage.acts sink (queue.act sink time metrics).1.stage)
      (queue.pending.length, Stage.acts sink queue.stage) := by
  rcases hstage : queue.stage with _ | ⟨start, batch, work⟩ | t | t | _
  · rcases hevents : queue.nextEvents with _ | ⟨first, rest⟩
    · simp only [act, hstage, handOver, hevents]
      exact .right _ (by simp [Stage.acts])
    · have pending : queue.pending ≠ [] := by
        rintro hnil
        simp [nextEvents, hnil] at hevents
      have shorter : queue.afterTake.pending.length < queue.pending.length := by
        have := List.length_pos_iff.2 pending
        simp only [afterTake, List.length_drop, fullSize]
        omega
      simp only [act, hstage, handOver, hevents]
      split <;> exact .left _ _ shorter
  · simp only [act, hstage, goOn]
    split
    next work' hnext =>
      exact .right _ (by simp only [Stage.acts]; have := sink.rounds_next hnext; omega)
    next => exact .right _ (by simp only [Stage.acts]; omega)
  all_goals simp [nextAct?, hstage] at h

/-- Lets the flusher act at every time from `now` up to `limit`. -/
def acts (sink : Sink ω) (now limit : Nat) (queue : Queue ω) (metrics : Metrics) :
    Queue ω × Metrics :=
  match _h : queue.nextAct? sink now with
  | none => (queue, metrics)
  | some time =>
    if time ≤ limit then
      acts sink time limit (queue.act sink time metrics).1 (queue.act sink time metrics).2
    else (queue, metrics)
termination_by (queue.pending.length, Stage.acts sink queue.stage)
decreasing_by exact act_decreases metrics ‹_›

def isStopped (queue : Queue ω) : Bool :=
  match queue.stage with
  | .stopped => true
  | _ => false

/-- Runs the queue from `now` up to and including `limit`; one that was stopped stays as it is. -/
def run (sink : Sink ω) (now limit : Nat) (queue : Queue ω) (metrics : Metrics) :
    Queue ω × Metrics :=
  if queue.isStopped then (queue, metrics)
  else
    let (queue, metrics) := queue.acts sink now limit metrics
    ({ queue with seen := limit }, metrics)

/-! ## Shutdown -/

/-- The end of a queue. -/
structure Closing (ω : Type) where
  queue : Queue ω
  metrics : Metrics
  /-- The number of events that were not sent. -/
  discarded : Nat
  finish : Nat

/-- Gives up what is under way and drops what is left. -/
def discard (finish : Nat) (queue : Queue ω) (metrics : Metrics) : Closing ω where
  queue := { queue with pending := [], stage := .stopped, flushes := queue.handedOver }
  metrics := metrics.set (.queueSize queue.cache) 0
  discarded := queue.pending.length
  finish := finish

/-- Takes no more events; the flusher goes on until nothing is left. -/
def close (queue : Queue ω) : Queue ω :=
  { queue with closed := true }

/-- Ends a shutdown that began at `now` and may last until `deadline`, once all that happens before
has happened. -/
def conclude (now deadline : Nat) (queue : Queue ω) (metrics : Metrics) : Closing ω :=
  match queue.stage with
  | .drained time => ⟨queue, metrics, 0, time⟩
  | .broken time => queue.discard (max now time) metrics
  | _ => queue.discard deadline metrics

/-- Closes the queue and lets it drain before `grace` milliseconds have passed. -/
def shutdown (sink : Sink ω) (grace now : Nat) (queue : Queue ω) (metrics : Metrics) : Closing ω :=
  if queue.closed then ⟨queue, metrics, 0, now⟩
  else
    let (queue, metrics) :=
      if grace = 0 then (queue.close, metrics)
      else queue.close.run sink now (now + grace - 1) metrics
    queue.conclude now (now + grace) metrics

end Queue

end CacheCluster
