import CacheCluster.Proofs.QueueHistory

/-! # When batches are handed over

A flusher that rests has a transmission under way, or it has too few events for a full batch and
none of them has waited for the interval. The time when the queue was last filled decides for all
events that wait: they came no earlier, and a batch that is not full leaves one interval after it.
-/

namespace CacheCluster.Queue

variable {ω : Type} {sink : Sink ω} {now middle time limit : Nat} {queue after : Queue ω}

/-! ## Rest -/

/-- The flusher does nothing more before some time has passed. -/
def IsAtRest (sink : Sink ω) (now : Nat) (queue : Queue ω) : Prop :=
  ∀ time ∈ queue.nextAct? sink now, now < time

/-- Nothing but the passing of time makes the flusher act. -/
theorem nextAct?_later (le : now ≤ middle)
    (rests : ∀ time ∈ queue.nextAct? sink now, middle < time) :
    queue.nextAct? sink middle = queue.nextAct? sink now := by
  rcases stage : queue.stage with _ | ⟨start, batch, work⟩ | _ | _ | _
  · simp only [nextAct?, stage] at rests ⊢
    split
    next full =>
      have := rests now (by rw [if_pos full]; rfl)
      omega
    next notFull =>
      split
      · rfl
      next waiting =>
        have := rests (max now (queue.since + queue.interval))
          (by rw [if_neg notFull, if_neg waiting]; rfl)
        rw [Nat.max_eq_right (by omega), Nat.max_eq_right (by omega)]
  · simp only [nextAct?, stage] at rests ⊢
    have := rests (max now (sink.due work)) rfl
    rw [Nat.max_eq_right (by omega), Nat.max_eq_right (by omega)]
  all_goals simp only [nextAct?, stage]

theorem isAtRest_acts (le : now ≤ limit) (metrics : Metrics) :
    (queue.acts sink now limit metrics).1.IsAtRest sink limit := by
  induction now, queue, metrics using acts.induct sink limit with
  | case1 now queue metrics none =>
    rw [acts_of_none none, IsAtRest, nextAct?_later le (by simp [none]), none]
    exact fun time mem => absurd mem (Option.not_mem_none time)
  | case2 now queue metrics time next due ih =>
    rw [acts_of_due next due]
    exact ih due
  | case3 now queue metrics time next notDue =>
    have rests : ∀ time ∈ queue.nextAct? sink now, limit < time := by
      simpa [next] using notDue
    rw [acts_of_not_due next notDue, IsAtRest, nextAct?_later le rests]
    exact rests

/-- It does not matter where a stretch of time is divided. -/
theorem acts_acts (le : now ≤ middle) (le' : middle ≤ limit) (metrics : Metrics) :
    (queue.acts sink now middle metrics).1.acts sink middle limit
        (queue.acts sink now middle metrics).2 =
      queue.acts sink now limit metrics := by
  induction now, queue, metrics using acts.induct sink middle with
  | case1 now queue metrics none =>
    have later : queue.nextAct? sink middle = .none := by
      rw [nextAct?_later le (by simp [none]), none]
    rw [acts_of_none none, acts_of_none none, acts_of_none later]
  | case2 now queue metrics time next due ih =>
    rw [acts_of_due next due, acts_of_due next (due.trans le')]
    exact ih due
  | case3 now queue metrics time next notDue =>
    have later : queue.nextAct? sink middle = some time := by
      rw [nextAct?_later le (by simpa [next] using notDue), next]
    rw [acts_of_not_due next notDue]
    by_cases due : time ≤ limit
    · rw [acts_of_due next due, acts_of_due later due]
    · rw [acts_of_not_due next due, acts_of_not_due later due]

theorem act_see (seen : Nat) (metrics : Metrics) :
    ({ queue with seen } : Queue ω).act sink time metrics =
      ({ (queue.act sink time metrics).1 with seen }, (queue.act sink time metrics).2) := by
  unfold act
  dsimp only
  split
  · unfold handOver nextEvents
    dsimp only [fullSize]
    split
    · rfl
    · dsimp only [afterTake, fullSize]
      split <;> rfl
  · unfold goOn
    split <;> rfl
  · rfl

/-- The flusher does not look at how far a queue has been run. -/
theorem acts_see (seen : Nat) (metrics : Metrics) :
    ({ queue with seen } : Queue ω).acts sink now limit metrics =
      ({ (queue.acts sink now limit metrics).1 with seen },
        (queue.acts sink now limit metrics).2) := by
  induction now, queue, metrics using acts.induct sink limit with
  | case1 now queue metrics none =>
    have unseen : ({ queue with seen } : Queue ω).nextAct? sink now = .none := none
    rw [acts_of_none none, acts_of_none unseen]
  | case2 now queue metrics time next due ih =>
    have unseen : ({ queue with seen } : Queue ω).nextAct? sink now = some time := next
    rw [acts_of_due next due, ← ih, acts_of_due unseen due, act_see]
  | case3 now queue metrics time next notDue =>
    have unseen : ({ queue with seen } : Queue ω).nextAct? sink now = some time := next
    rw [acts_of_not_due next notDue, acts_of_not_due unseen notDue]

theorem IsWorking.run_eq (h : queue.IsWorking) (metrics : Metrics) :
    queue.run sink now limit metrics =
      ({ (queue.acts sink now limit metrics).1 with seen := limit },
        (queue.acts sink now limit metrics).2) := by
  have notStopped : queue.isStopped = false := by
    have active := h.isActive
    unfold isStopped
    split
    next stopped => simp [stopped, Stage.isActive] at active
    next => rfl
  rw [Queue.run, notStopped]
  rfl

/-- An idle flusher that rests waits for more events or for the interval to pass. -/
theorem IsWorking.lt_of_isAtRest (h : queue.IsWorking) (rests : queue.IsAtRest sink now) :
    queue.stage.underWay ≠ [] ∨ queue.pending.length < queue.fullSize ∧
      (queue.pending = [] ∨ now < queue.since + queue.interval) := by
  have active := h.isActive
  unfold IsAtRest at rests
  rcases stage : queue.stage with _ | ⟨start, batch, work⟩ | _ | _ | _
  · refine .inr ?_
    simp only [nextAct?, stage, h.isOpen, Bool.false_or, decide_eq_true_eq] at rests
    by_cases full : queue.fullSize ≤ queue.pending.length
    · exact absurd (rests now (by rw [if_pos full]; rfl)) (by omega)
    · refine ⟨by omega, ?_⟩
      rw [if_neg full] at rests
      by_cases empty : queue.pending = []
      · exact .inl empty
      · have := rests (max now (queue.since + queue.interval))
          (by rw [if_neg (by simpa using empty)]; rfl)
        exact .inr (by omega)
  · exact .inl (by simp [Stage.underWay])
  all_goals simp [stage, Stage.isActive] at active

/-! ## Departures -/

/-- A batch and the time when it was handed over. -/
structure Departure where
  time : Nat
  batch : Batch

def departures (queue : Queue ω) : List Departure :=
  queue.handedOver.map fun flush => ⟨flush.start, flush.batch⟩

theorem Acted.departures (acted : Acted sink time queue after) :
    (queue.stage = .idle → queue.pending = []) ∧
        after.departures = queue.departures ∧ after.pending = queue.pending ∨
      queue.stage = .idle ∧ queue.pending ≠ [] ∧
        after.departures = queue.departures ++ [⟨time, queue.cache, queue.nextEvents⟩] ∧
        after.pending = queue.pending.drop queue.fullSize := by
  unfold Queue.departures
  simp only [handedOver_eq]
  cases acted with
  | drain idle _ empty => exact .inl ⟨fun _ => empty, by simp [idle, Stage.underWay], rfl⟩
  | begin idle waiting =>
    exact .inr ⟨idle, waiting, by simp [idle, Stage.underWay, afterTake], rfl⟩
  | breakDown idle waiting => exact .inr ⟨idle, waiting, by simp [idle, Stage.underWay], rfl⟩
  | goOn busy => exact .inl ⟨by simp [busy], by simp [busy, Stage.underWay], rfl⟩
  | finish busy => exact .inl ⟨by simp [busy], by simp [busy, Stage.underWay], rfl⟩

/-- A batch that is not full leaves only when the interval is over. -/
theorem IsWorking.le_of_nextAct? (h : queue.IsWorking) (idle : queue.stage = .idle)
    (next : queue.nextAct? sink now = some time)
    (short : queue.nextEvents.length < queue.fullSize) : queue.since + queue.interval ≤ time := by
  have notFull : ¬ queue.fullSize ≤ queue.pending.length := by
    rw [nextEvents, List.length_take] at short
    omega
  simp only [nextAct?, idle, h.isOpen, Bool.false_or, decide_eq_true_eq, if_neg notFull] at next
  split at next
  · cases next
  · cases next
    exact Nat.le_max_right _ _

/-- What the flusher makes of a queue in use while no events come. -/
structure Flushed (before queue : Queue ω) : Prop where
  working : queue.IsWorking
  cache : queue.cache = before.cache
  fullSize : queue.fullSize = before.fullSize
  interval : queue.interval = before.interval
  since : queue.since = before.since
  pending : queue.pending <:+ before.pending
  departures : ∃ new, queue.departures = before.departures ++ new ∧ ∀ departure ∈ new,
    before.pending ≠ [] ∧ (departure.batch.events.length < before.fullSize →
      before.since + before.interval ≤ departure.time)

variable {before : Queue ω}

theorem IsWorking.flushed (h : queue.IsWorking) : Flushed queue queue :=
  ⟨h, rfl, rfl, rfl, rfl, List.suffix_rfl, [], (List.append_nil _).symm, by simp⟩

theorem Flushed.act (h : Flushed before queue)
    (starts : ∀ time batch, sink.start time batch ≠ none)
    (next : queue.nextAct? sink now = some time) (acted : Acted sink time queue after) :
    Flushed before after := by
  have setup : after.cache = queue.cache ∧ after.fullSize = queue.fullSize ∧
      after.interval = queue.interval ∧ after.since = queue.since := by
    cases acted <;> exact ⟨rfl, rfl, rfl, rfl⟩
  obtain ⟨new, departed, late⟩ := h.departures
  refine ⟨h.working.acted starts acted, setup.1.trans h.cache, setup.2.1.trans h.fullSize,
    setup.2.2.1.trans h.interval, setup.2.2.2.trans h.since, ?_, ?_⟩
  all_goals obtain ⟨-, same, left⟩ | ⟨idle, waiting, more, left⟩ := acted.departures
  · exact left ▸ h.pending
  · exact left ▸ (List.drop_suffix _ _).trans h.pending
  · exact ⟨new, same.trans departed, late⟩
  · refine ⟨new ++ [⟨time, queue.cache, queue.nextEvents⟩], ?_, ?_⟩
    · rw [more, departed, List.append_assoc]
    · intro departure mem
      rw [List.mem_append, List.mem_singleton] at mem
      rcases mem with mem | rfl
      · exact late departure mem
      · refine ⟨fun empty => waiting (List.suffix_nil.1 (empty ▸ h.pending)), fun short => ?_⟩
        rw [← h.since, ← h.interval]
        exact h.working.le_of_nextAct? idle next (h.fullSize ▸ short)

theorem Flushed.run (h : queue.IsWorking) (starts : ∀ time batch, sink.start time batch ≠ none)
    (le : now ≤ limit) (metrics : Metrics) :
    Flushed queue (queue.run sink now limit metrics).1 :=
  run_induction sink limit (I := fun _ => Flushed queue) (fun _ h => h)
    (fun h next _ acted => h.act starts next acted)
    (fun h => ⟨⟨h.working.isOpen, h.working.isActive⟩, h.cache, h.fullSize, h.interval, h.since,
      h.pending, h.departures⟩) metrics le h.flushed

/-! ## Histories -/

namespace History

variable {history : History ω}

/-- Nothing more happens to the queue before some time has passed. -/
def IsAtRest (sink : Sink ω) (history : History ω) : Prop :=
  history.queue.IsAtRest sink history.now

theorem isAtRest_pass (working : history.queue.IsWorking) (milliseconds : Nat) :
    (history.pass sink milliseconds).IsAtRest sink := by
  unfold pass IsAtRest
  dsimp only
  rw [working.run_eq]
  exact isAtRest_acts (Nat.le_add_right _ _) history.metrics

theorem pass_pass (starts : ∀ time batch, sink.start time batch ≠ none)
    (working : history.queue.IsWorking) (milliseconds more : Nat) :
    (history.pass sink milliseconds).pass sink more = history.pass sink (milliseconds + more) := by
  have still := working.run starts (Nat.le_add_right history.now milliseconds) history.metrics
  unfold pass
  dsimp only
  rw [still.run_eq, working.run_eq, working.run_eq, acts_see, Nat.add_assoc,
    acts_acts (Nat.le_add_right _ _) (by omega)]

theorem act_of_due {time : Nat} (next : history.queue.nextAct? sink history.now = some time)
    (due : time ≤ history.now) :
    history.act sink = { history with
      queue := (history.queue.act sink time history.metrics).1
      metrics := (history.queue.act sink time history.metrics).2 } := by
  unfold History.act
  split
  next none => cases next.symm.trans none
  next other =>
    obtain rfl : time = _ := Option.some.inj (next.symm.trans other)
    exact if_pos due

theorem exists_due_of_not_isAtRest (busy : ¬ history.IsAtRest sink) :
    ∃ time, history.queue.nextAct? sink history.now = some time ∧ time ≤ history.now := by
  simpa [IsAtRest, Queue.IsAtRest] using busy

theorem act_of_isAtRest (rests : history.IsAtRest sink) : history.act sink = history := by
  unfold History.act
  split
  · rfl
  next next => exact if_neg (Nat.not_le.2 (rests _ next))

theorem now_act : (history.act sink).now = history.now := by
  unfold History.act
  split
  · rfl
  · split <;> rfl

theorem flushed_act (working : history.queue.IsWorking)
    (starts : ∀ time batch, sink.start time batch ≠ none) :
    Flushed history.queue (history.act sink).queue := by
  by_cases rests : history.IsAtRest sink
  · rw [act_of_isAtRest rests]
    exact working.flushed
  · obtain ⟨time, next, due⟩ := exists_due_of_not_isAtRest rests
    rw [act_of_due next due]
    exact working.flushed.act starts next (acted_act next history.metrics)

/-- A full batch leaves at once when the flusher is idle. -/
theorem departures_act (idle : history.queue.stage = .idle)
    (full : history.queue.fullSize ≤ history.queue.pending.length) :
    (history.act sink).queue.departures = history.queue.departures ++
      [⟨history.now, history.queue.cache, history.queue.nextEvents⟩] := by
  have next : history.queue.nextAct? sink history.now = some history.now := by
    simp [nextAct?, idle, full]
  have waiting : history.queue.pending ≠ [] := by
    rw [← List.length_pos_iff]
    exact (fullSize_pos _).trans_le full
  rw [act_of_due next le_rfl]
  obtain ⟨empty, -⟩ | ⟨-, -, departed, -⟩ := (acted_act next history.metrics).departures
  · exact absurd (empty idle) waiting
  · exact departed

/-- What is due happens before any time passes. -/
theorem pass_act (working : history.queue.IsWorking)
    (starts : ∀ time batch, sink.start time batch ≠ none) (milliseconds : Nat) :
    (history.act sink).pass sink milliseconds = history.pass sink milliseconds := by
  by_cases rests : history.IsAtRest sink
  · rw [act_of_isAtRest rests]
  · obtain ⟨time, next, due⟩ := exists_due_of_not_isAtRest rests
    obtain rfl : time = history.now := Nat.le_antisymm due (le_of_nextAct? next)
    have acted := acted_act next history.metrics
    rw [act_of_due next le_rfl]
    unfold pass
    dsimp only
    rw [(working.acted starts acted).run_eq, working.run_eq,
      acts_of_due next (Nat.le_add_right _ _)]

end History

/-! ## Watching a history -/

/-- An event and the time when it was pushed. -/
structure Arrival where
  time : Nat
  event : Event

/-- A history of which it is noted when events come. -/
structure Watched (ω : Type) where
  history : History ω
  /-- When a push last made the queue nonempty. -/
  filledAt : Option Nat := none
  /-- The accepted events, in order. -/
  arrivals : List Arrival := []

namespace Watched

open History

variable {watched : Watched ω}

/-- A new queue. -/
def start (cache : String) (interval maxBatch : Nat) : Watched ω where
  history := .start cache interval maxBatch

def step (sink : Sink ω) (watched : Watched ω) (happening : Happening) : Watched ω where
  history := watched.history.step sink happening
  filledAt :=
    if (pushed? happening).isSome && watched.history.accepts &&
        watched.history.queue.pending.isEmpty then
      some watched.history.now
    else watched.filledAt
  arrivals :=
    if watched.history.accepts then
      watched.arrivals ++ (pushed? happening).toList.map fun event => ⟨watched.history.now, event⟩
    else watched.arrivals

def run (sink : Sink ω) (watched : Watched ω) (happenings : List Happening) : Watched ω :=
  happenings.foldl (step sink) watched

/-- The arrivals of the events that wait. -/
def waiting (watched : Watched ω) : List Arrival :=
  watched.arrivals.drop (watched.arrivals.length - watched.history.queue.pending.length)

/-- Watching changes nothing. -/
theorem history_run (happenings : List Happening) :
    (watched.run sink happenings).history = watched.history.run sink happenings := by
  induction happenings generalizing watched with
  | nil => rfl
  | cons happening happenings ih => exact ih

/-- The queue is in use, and what has been noted of it agrees with its state. -/
structure Agrees (cache : String) (interval size : Nat) (watched : Watched ω) : Prop where
  working : watched.history.queue.IsWorking
  cache : watched.history.queue.cache = cache
  interval : watched.history.queue.interval = interval
  fullSize : watched.history.queue.fullSize = size
  accepted : watched.arrivals.map (·.event) = watched.history.accepted
  arrived : watched.history.queue.pending <:+ watched.arrivals.map (·.event)
  filledAt : watched.history.queue.pending ≠ [] →
    watched.filledAt = some watched.history.queue.since
  past : watched.history.queue.pending ≠ [] →
    watched.history.queue.since ≤ watched.history.now
  waited : ∀ arrival ∈ watched.waiting, watched.history.queue.since ≤ arrival.time

variable {cache : String} {interval size : Nat}

theorem agrees_start (cache : String) (interval maxBatch : Nat) :
    (start cache interval maxBatch : Watched ω).Agrees cache interval (max 1 maxBatch) where
  working := ⟨rfl, rfl⟩
  cache := rfl
  interval := rfl
  fullSize := rfl
  accepted := rfl
  arrived := List.suffix_rfl
  filledAt some_wait := absurd rfl some_wait
  past some_wait := absurd rfl some_wait
  waited := List.forall_mem_nil _

theorem Agrees.waiting_eq (h : watched.Agrees cache interval size) :
    watched.waiting.map (·.event) = watched.history.queue.pending := by
  have arrived := List.suffix_iff_eq_drop.1 h.arrived
  rw [waiting, List.map_drop]
  rw [List.length_map] at arrived
  exact arrived.symm

theorem Agrees.push (h : watched.Agrees cache interval size) (event : Event) :
    (watched.step sink (.push event)).Agrees cache interval size := by
  have isOpen := h.working.isOpen
  have pushed : watched.step sink (.push event) = {
      history := watched.history.push event
      filledAt := if watched.history.queue.pending.isEmpty then some watched.history.now
        else watched.filledAt
      arrivals := watched.arrivals ++ [⟨watched.history.now, event⟩] } := by
    simp [step, History.step, pushed?, accepts, isOpen]
  have waiting : (watched.step sink (.push event)).waiting =
      watched.waiting ++ [⟨watched.history.now, event⟩] := by
    rw [pushed, push_of_open isOpen]
    simp only [Watched.waiting, append, List.length_append, List.length_singleton,
      Nat.add_sub_add_right]
    exact List.drop_append_of_le_length (Nat.sub_le _ _)
  -- an event that comes into an empty queue sets the time that all later ones are measured by
  have waited : ∀ arrival ∈ watched.waiting ++ [⟨watched.history.now, event⟩],
      (watched.history.queue.append watched.history.now event).since ≤ arrival.time := by
    rcases empty : watched.history.queue.pending with _ | ⟨first, rest⟩
    · have none_waits : watched.waiting = [] := by simpa [empty] using h.waiting_eq
      simp [none_waits, append, empty]
    · intro arrival mem
      rw [List.mem_append, List.mem_singleton] at mem
      rcases mem with mem | rfl
      · simpa [append, empty] using h.waited arrival mem
      · simpa [append, empty] using h.past
  rw [pushed, push_of_open isOpen] at waiting ⊢
  refine ⟨h.working.append _ event, h.cache, h.interval, h.fullSize, ?_, ?_, ?_, ?_,
    fun arrival mem => waited arrival (waiting ▸ mem)⟩
  · simp [h.accepted]
  · obtain ⟨gone, arrived⟩ := h.arrived
    exact ⟨gone, by simp [append, ← arrived]⟩
  all_goals rcases empty : watched.history.queue.pending with _ | ⟨first, rest⟩
  · simp [append, empty]
  · simpa [append, empty] using h.filledAt
  · simp [append, empty]
  · simpa [append, empty] using h.past

theorem Agrees.flushed (h : watched.Agrees cache interval size) {history : History ω}
    (flushed : Flushed watched.history.queue history.queue)
    (accepted : history.accepted = watched.history.accepted)
    (le : watched.history.now ≤ history.now) :
    ({ watched with history } : Watched ω).Agrees cache interval size := by
  have some_waited : history.queue.pending ≠ [] → watched.history.queue.pending ≠ [] :=
    fun some_wait none_waited =>
      some_wait (List.suffix_nil.1 (none_waited ▸ flushed.pending))
  refine ⟨flushed.working, flushed.cache.trans h.cache, flushed.interval.trans h.interval,
    flushed.fullSize.trans h.fullSize, h.accepted.trans accepted.symm,
    flushed.pending.trans h.arrived, ?_, ?_, ?_⟩
  · intro some_wait
    dsimp only
    rw [flushed.since]
    exact h.filledAt (some_waited some_wait)
  · intro some_wait
    dsimp only
    rw [flushed.since]
    exact (h.past (some_waited some_wait)).trans le
  · intro arrival mem
    dsimp only
    rw [flushed.since]
    refine h.waited arrival ((List.drop_sublist_drop_left _ ?_).subset mem)
    exact Nat.sub_le_sub_left flushed.pending.length_le _

theorem Agrees.step (h : watched.Agrees cache interval size)
    (starts : ∀ time batch, sink.start time batch ≠ none) {happening : Happening}
    (notClose : happening ≠ .close) :
    (watched.step sink happening).Agrees cache interval size := by
  have isOpen := h.working.isOpen
  cases happening with
  | push event => exact h.push event
  | act =>
    have still : watched.step sink .act = { watched with history := watched.history.act sink } := by
      simp [Watched.step, History.step, pushed?]
    have accepted : (watched.history.act sink).accepted = _ := accepted_step .act
    have now : (watched.history.act sink).now = watched.history.now := now_act
    rw [still]
    exact h.flushed (flushed_act h.working starts) (by simpa [pushed?] using accepted) now.ge
  | pass milliseconds =>
    have still : watched.step sink (.pass milliseconds) =
        { watched with history := watched.history.pass sink milliseconds } := by
      simp [Watched.step, History.step, pushed?]
    rw [still]
    exact h.flushed (.run h.working starts (Nat.le_add_right _ _) _) rfl (Nat.le_add_right _ _)
  | close => exact absurd rfl notClose
  | conclude =>
    have still : watched.step sink .conclude = watched := by
      simp [Watched.step, History.step, pushed?, History.conclude, isOpen]
    rw [still]
    exact h

theorem Agrees.run (h : watched.Agrees cache interval size)
    (starts : ∀ time batch, sink.start time batch ≠ none) {happenings : List Happening}
    (unclosed : .close ∉ happenings) :
    (watched.run sink happenings).Agrees cache interval size := by
  induction happenings generalizing watched with
  | nil => exact h
  | cons happening happenings ih =>
    rw [List.mem_cons, not_or] at unclosed
    exact ih (h.step starts (Ne.symm unclosed.1)) unclosed.2

/-- A batch that is not full leaves one interval after the queue was filled, or later. -/
theorem Agrees.departures_step (h : watched.Agrees cache interval size)
    (starts : ∀ time batch, sink.start time batch ≠ none) (happening : Happening) :
    ∃ new, (watched.history.step sink happening).queue.departures =
        watched.history.queue.departures ++ new ∧
      ∀ departure ∈ new, departure.batch.events.length < size →
        ∃ filled ∈ watched.filledAt, filled + interval ≤ departure.time := by
  have late {after : Queue ω} (flushed : Flushed watched.history.queue after) :
      ∃ new, after.departures = watched.history.queue.departures ++ new ∧
        ∀ departure ∈ new, departure.batch.events.length < size →
          ∃ filled ∈ watched.filledAt, filled + interval ≤ departure.time := by
    obtain ⟨new, departed, late⟩ := flushed.departures
    refine ⟨new, departed, fun departure mem short => ?_⟩
    obtain ⟨some_waited, late⟩ := late departure mem
    refine ⟨_, h.filledAt some_waited, ?_⟩
    rw [h.fullSize, h.interval] at late
    exact late short
  cases happening with
  | push event =>
    rw [History.step, push_of_open h.working.isOpen]
    exact ⟨[], (List.append_nil _).symm, List.forall_mem_nil _⟩
  | act => exact late (flushed_act h.working starts)
  | pass milliseconds => exact late (.run h.working starts (Nat.le_add_right _ _) _)
  | close => exact ⟨[], (List.append_nil _).symm, List.forall_mem_nil _⟩
  | conclude =>
    rw [History.step, History.conclude, h.working.isOpen]
    exact ⟨[], (List.append_nil _).symm, List.forall_mem_nil _⟩

/-- The event that makes a batch full sends it off, when the flusher is idle. -/
theorem Agrees.departures_push (h : watched.Agrees cache interval size)
    (starts : ∀ time batch, sink.start time batch ≠ none)
    (idle : watched.history.queue.stage = .idle) (event : Event)
    (full : size ≤ watched.history.queue.pending.length + 1) :
    let pushed := watched.history.push event
    let departed := watched.history.queue.departures ++
      [⟨watched.history.now, cache, (watched.history.queue.pending ++ [event]).take size⟩]
    (pushed.act sink).queue.departures = departed ∧
    ∀ milliseconds, departed <+: (pushed.pass sink milliseconds).queue.departures := by
  intro pushed departed
  have queue : pushed.queue = watched.history.queue.append watched.history.now event := by
    simp only [pushed, push_of_open h.working.isOpen]
  have now : pushed.now = watched.history.now := rfl
  have working : pushed.queue.IsWorking := queue ▸ h.working.append _ event
  have enough : pushed.queue.fullSize ≤ pushed.queue.pending.length := by
    rw [queue]
    change watched.history.queue.fullSize ≤ (watched.history.queue.pending ++ [event]).length
    rw [List.length_append, h.fullSize]
    exact full
  have atOnce : (pushed.act sink).queue.departures = departed := by
    rw [departures_act (by rw [queue]; exact idle) enough, queue, now]
    simp only [departed, ← h.cache, ← h.fullSize]
    rfl
  refine ⟨atOnce, fun milliseconds => ?_⟩
  have acted := (flushed_act working starts).working
  obtain ⟨new, more, -⟩ := (Flushed.run acted starts
    (Nat.le_add_right (pushed.act sink).now milliseconds) (pushed.act sink).metrics).departures
  rw [← pass_act working starts, ← atOnce]
  exact ⟨new, more.symm⟩

/-- At the end of every history without a shutdown, a flusher that rests has a transmission under
way, or less than a full batch waits, its events for less than the interval. Time passes at rest
only. Whatever happens next, a batch that is not full leaves no earlier than one interval after
the queue was last filled; and when the flusher is idle, a full batch leaves without any time
passing. -/
theorem flushes_on_time (sink : Sink ω) (starts : ∀ time batch, sink.start time batch ≠ none)
    (cache : String) (interval maxBatch : Nat) (happenings : List Happening)
    (unclosed : .close ∉ happenings) :
    let watched := (start cache interval maxBatch).run sink happenings
    let history := watched.history
    let size := max 1 maxBatch
    (history = (History.start cache interval maxBatch).run sink happenings ∧
      watched.arrivals.map (·.event) = history.accepted ∧
      watched.waiting.map (·.event) = history.queue.pending) ∧
    (history.IsAtRest sink → history.queue.stage.underWay ≠ [] ∨
      history.queue.pending.length < size ∧
      (history.queue.pending = [] ∨ ∃ filled ∈ watched.filledAt, history.now < filled + interval) ∧
      ∀ arrival ∈ watched.waiting, history.now < arrival.time + interval) ∧
    (∀ milliseconds, (history.pass sink milliseconds).IsAtRest sink ∧
      ∀ more, (history.pass sink milliseconds).pass sink more =
        history.pass sink (milliseconds + more)) ∧
    (∀ happening, ∃ new, (history.step sink happening).queue.departures =
        history.queue.departures ++ new ∧
      ∀ departure ∈ new, departure.batch.events.length < size →
        ∃ filled ∈ watched.filledAt, filled + interval ≤ departure.time) ∧
    (history.queue.stage = .idle → ∀ event, size ≤ history.queue.pending.length + 1 →
      let pushed := history.push event
      let departed := history.queue.departures ++
        [⟨history.now, cache, (history.queue.pending ++ [event]).take size⟩]
      (pushed.act sink).queue.departures = departed ∧
      ∀ milliseconds, departed <+: (pushed.pass sink milliseconds).queue.departures) := by
  intro watched history size
  have h : watched.Agrees cache interval size :=
    (agrees_start cache interval maxBatch).run starts unclosed
  refine ⟨⟨history_run happenings, h.accepted, h.waiting_eq⟩, fun rests => ?_,
    fun milliseconds => ?_, h.departures_step starts, h.departures_push starts⟩
  · refine (h.working.lt_of_isAtRest rests).imp id ?_
    rintro ⟨few, young⟩
    rw [h.fullSize] at few
    rw [h.interval] at young
    rcases young with empty | young
    · have none_waits : watched.waiting = [] := by simpa [history, empty] using h.waiting_eq
      exact ⟨few, .inl empty, by simp [none_waits]⟩
    · refine ⟨few, ?_, fun arrival mem => ?_⟩
      · by_cases empty : history.queue.pending = []
        · exact .inl empty
        · exact .inr ⟨_, h.filledAt empty, young⟩
      · have := h.waited arrival mem
        omega
  · exact ⟨isAtRest_pass h.working milliseconds, pass_pass starts h.working milliseconds⟩

/-- Of two events that make a full batch, the second one sends both off. -/
theorem second_event_fills_batch :
    let sink := Sink.steady 5 none
    let happenings : List Happening := [.push (.remove "c" "a")]
    let history := ((start "c" 10 2).run sink happenings).history
    (∀ time batch, sink.start time batch ≠ none) ∧ .close ∉ happenings ∧
    (history.IsAtRest sink → history.now < 0 + 10) ∧
    ((history.push (.remove "c" "b")).act sink).queue.departures =
      [⟨0, "c", [.remove "c" "a", .remove "c" "b"]⟩] := by
  intro sink happenings history
  have starts : ∀ time batch, sink.start time batch ≠ none := by simp [sink, Sink.steady]
  have unclosed : .close ∉ happenings := by simp [happenings]
  have onTime := flushes_on_time sink starts "c" 10 2 happenings unclosed
  refine ⟨starts, unclosed, fun rests => ?_, (onTime.2.2.2.2 rfl (.remove "c" "b") le_rfl).1⟩
  obtain busy | ⟨-, -, young⟩ := onTime.2.1 rests
  · exact absurd rfl busy
  · exact young ⟨0, .remove "c" "a"⟩ (List.mem_singleton_self _)

end Watched

end CacheCluster.Queue
