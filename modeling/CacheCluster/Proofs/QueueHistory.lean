import Mathlib.Data.List.Infix
import CacheCluster.Proofs.Flusher

/-! # The history of a queue

What happens to a queue, in any order: events are pushed, the flusher does one thing or all that
falls due as time passes, and a shutdown begins and ends. No event is lost, doubled or moved on the
way, except those that the shutdown counts as discarded.
-/

namespace CacheCluster.Queue

variable {ω : Type}

/-- Something that happens to a queue. -/
inductive Happening
  | push (event : Event)
  /-- The flusher does the next thing that is due, and then something else happens. -/
  | act
  /-- The flusher does all that falls due while time passes. -/
  | pass (milliseconds : Nat)
  /-- A shutdown begins. -/
  | close
  /-- The shutdown ends, as the queue is drained or the grace period is over. -/
  | conclude

/-- A queue at a time, and what its users have learnt. -/
structure History (ω : Type) where
  now : Nat := 0
  queue : Queue ω
  metrics : Metrics := {}
  /-- The events whose push returned true, in the order of the pushes. -/
  accepted : List Event := []
  discarded : List Event := []
  /-- What the shutdown returned, once it is over. -/
  returned : Option Nat := none

namespace History

variable (sink : Sink ω) (history : History ω)

/-- A new queue. -/
def start (cache : String) (interval maxBatch : Nat) : History ω where
  queue := { cache, interval, maxBatch }

/-- What a push returns. -/
def accepts : Bool :=
  !history.queue.closed

def push (event : Event) : History ω :=
  let pushed := history.queue.pushMetered history.now event history.metrics
  { history with
    queue := pushed.1
    metrics := pushed.2
    accepted := if history.accepts then history.accepted ++ [event] else history.accepted }

def act : History ω :=
  match history.queue.nextAct? sink history.now with
  | none => history
  | some time =>
    if time ≤ history.now then
      let acted := history.queue.act sink time history.metrics
      { history with queue := acted.1, metrics := acted.2 }
    else history

def pass (milliseconds : Nat) : History ω :=
  let now := history.now + milliseconds
  let ran := history.queue.run sink history.now now history.metrics
  { history with now, queue := ran.1, metrics := ran.2 }

def close : History ω :=
  { history with queue := history.queue.close }

/-- The end of a shutdown; there is one for each queue. -/
def conclude : History ω :=
  if history.queue.closed && history.returned.isNone then
    let closing := history.queue.conclude history.now history.now history.metrics
    { history with
      queue := closing.queue
      metrics := closing.metrics
      discarded := history.queue.pending
      returned := some closing.discarded }
  else history

def step : Happening → History ω
  | .push event => history.push event
  | .act => history.act sink
  | .pass milliseconds => history.pass sink milliseconds
  | .close => history.close
  | .conclude => history.conclude

def run (happenings : List Happening) : History ω :=
  happenings.foldl (step sink) history

variable {sink history}

theorem run_cons (happening : Happening) (happenings : List Happening) :
    history.run sink (happening :: happenings) =
      (history.step sink happening).run sink happenings := rfl

theorem run_append (before after : List Happening) :
    history.run sink (before ++ after) = (history.run sink before).run sink after :=
  List.foldl_append

/-! ## What every history keeps -/

/-- The size and the shape of what a flusher hands over. -/
def WellSized (size : Nat) (queue : Queue ω) : Prop :=
  queue.fullSize = size ∧
    queue.Each fun _ flush => flush.batch.events ≠ [] ∧ flush.batch.events.length ≤ size

/-- Every event that was accepted is in a batch, waits or was discarded, and they are in order. -/
structure Sound (size : Nat) (history : History ω) : Prop where
  conserved : history.queue.events ++ history.discarded = history.accepted
  sized : WellSized size history.queue
  tidy : history.queue.Tidy history.now
  pending : history.returned = none → history.discarded = []
  closed : ∀ n, history.returned = some n → history.queue.closed
  atEnd : ∀ n, history.returned = some n →
    history.queue.stage = .stopped ∨ ∃ time, history.queue.stage = .drained time
  empty : ∀ n, history.returned = some n → history.queue.pending = []
  counted : ∀ n, history.returned = some n → n = history.discarded.length

variable {size : Nat}

theorem wellSized_act {queue after : Queue ω} {time : Nat} (h : WellSized size queue)
    (acted : Acted sink time queue after) : WellSized size after := by
  obtain ⟨rfl, each⟩ := h
  refine ⟨acted.setup.2.1, ?_⟩
  refine (Maintains.act ⟨?_, ?_, ?_, ?_⟩ each (Nat.zero_le _) acted).1
  · exact fun _ some_events few _ => ⟨some_events, few⟩
  · exact fun _ some_events few _ => ⟨some_events, few⟩
  · exact fun holds _ _ => holds
  · exact fun holds _ _ => holds

theorem sound_start (cache : String) (interval maxBatch : Nat) :
    Sound (max 1 maxBatch) (start cache interval maxBatch : History ω) where
  conserved := rfl
  sized := ⟨rfl, fun i flush h => by simp [start, handedOver] at h⟩
  tidy := ⟨by simp [start, handedOver], by simp [start, handedOver], .nil, by simp [start],
    by simp [start]⟩
  pending _ := rfl
  closed n h := by simp [start] at h
  atEnd n h := by simp [start] at h
  empty n h := by simp [start] at h
  counted n h := by simp [start] at h

/-- What the flusher does leaves a history sound, whether it does one thing or many. -/
theorem Sound.flush (h : Sound size history) {now : Nat} {queue : Queue ω} {metrics : Metrics}
    (events : queue.events = history.queue.events) (closed : queue.closed = history.queue.closed)
    (sized : WellSized size queue) (tidy : queue.Tidy now)
    (still : history.returned ≠ none → queue.stage = history.queue.stage ∧
      queue.pending = history.queue.pending) :
    Sound size { history with now, queue, metrics } where
  conserved := by rw [events]; exact h.conserved
  sized := sized
  tidy := tidy
  pending := h.pending
  closed n hn := by rw [closed]; exact h.closed n hn
  atEnd n hn := by
    have := still (by simp only at hn; simp [hn])
    rw [this.1]
    exact h.atEnd n hn
  empty n hn := by
    have := still (by simp only at hn; simp [hn])
    rw [this.2]
    exact h.empty n hn
  counted := h.counted

theorem nextAct?_eq_none (h : Sound size history) (returned : history.returned ≠ none)
    (now : Nat) : history.queue.nextAct? sink now = none := by
  obtain ⟨n, hn⟩ := Option.ne_none_iff_exists'.1 returned
  rcases h.atEnd n hn with stopped | ⟨time, drained⟩
  · exact nextAct?_of_stopped stopped
  · exact nextAct?_of_drained drained

theorem Sound.act (h : Sound size history) : Sound size (history.act sink) := by
  unfold History.act
  split
  · exact h
  next time next =>
    split
    next due =>
      obtain rfl : time = history.now := Nat.le_antisymm due (le_of_nextAct? next)
      have acted := acted_act next history.metrics
      refine h.flush acted.events acted.setup.2.2.1 (wellSized_act h.sized acted)
        (h.tidy.act le_rfl acted) ?_
      intro returned
      rw [nextAct?_eq_none h returned] at next
      simp at next
    next => exact h

theorem Sound.pass (h : Sound size history) (milliseconds : Nat) :
    Sound size (history.pass sink milliseconds) := by
  have kept := run_preserves sink (history.now + milliseconds)
    (I := fun now queue => queue.events = history.queue.events ∧
      queue.closed = history.queue.closed ∧ WellSized size queue ∧ queue.Tidy now)
    (fun le h => ⟨h.1, h.2.1, h.2.2.1, h.2.2.2.later le⟩)
    (fun h le _ acted => ⟨acted.events.trans h.1, acted.setup.2.2.1.trans h.2.1,
      wellSized_act h.2.2.1 acted, h.2.2.2.act le acted⟩)
    (fun h => ⟨h.1, h.2.1, h.2.2.1, h.2.2.2.see _⟩)
    history.metrics (Nat.le_add_right _ _) ⟨rfl, rfl, h.sized, h.tidy⟩
  refine h.flush kept.1 kept.2.1 kept.2.2.1 kept.2.2.2 ?_
  intro returned
  unfold Queue.run
  split
  · exact ⟨rfl, rfl⟩
  · rw [acts_of_none (nextAct?_eq_none h returned _)]
    exact ⟨rfl, rfl⟩

/-- A push into a closed queue changes nothing. -/
theorem push_of_closed (closed : history.queue.closed = true) (event : Event) :
    history.push event = history := by
  simp [push, pushMetered, accepts, closed]

theorem push_of_open (isOpen : history.queue.closed = false) (event : Event) :
    history.push event = { history with
      queue := history.queue.append history.now event
      metrics := history.metrics.set (.queueSize history.queue.cache)
        (history.queue.append history.now event).pending.length
      accepted := history.accepted ++ [event] } := by
  simp [push, pushMetered, accepts, isOpen]
  rfl

theorem Sound.returned_eq_none (h : Sound size history) (isOpen : history.queue.closed = false) :
    history.returned = none := by
  rcases returned : history.returned with _ | n
  · rfl
  · simp [h.closed n returned] at isOpen

theorem Sound.push (h : Sound size history) (event : Event) : Sound size (history.push event) := by
  rcases closed : history.queue.closed with _ | _
  · have unreturned := h.returned_eq_none closed
    have discarded := h.pending unreturned
    have conserved := h.conserved
    rw [discarded, List.append_nil] at conserved
    rw [push_of_open closed]
    constructor
    · rw [discarded, List.append_nil, events_append, conserved]
    · exact h.sized
    · exact h.tidy.append closed event
    · exact h.pending
    all_goals simp [unreturned]
  · rw [push_of_closed closed]
    exact h

theorem Sound.close (h : Sound size history) : Sound size history.close where
  conserved := h.conserved
  sized := h.sized
  tidy := ⟨h.tidy.started, h.tidy.finished, h.tidy.apart, h.tidy.ended,
    fun time drained => ⟨rfl, (h.tidy.drained time drained).2⟩⟩
  pending := h.pending
  closed _ _ := rfl
  atEnd := h.atEnd
  empty := h.empty
  counted := h.counted

theorem Sound.conclude (h : Sound size history) : Sound size history.conclude := by
  unfold History.conclude
  split
  next closed =>
    simp only [Bool.and_eq_true, Option.isNone_iff_eq_none] at closed
    have conserved := h.conserved
    rw [h.pending closed.2, List.append_nil] at conserved
    rcases conclude_cases h.tidy history.now history.now history.metrics with
      ⟨drained, empty, same, count⟩ | ⟨finish, gaveUp⟩
    · dsimp only
      rw [same, count, empty]
      constructor
      · rw [List.append_nil, conserved]
      · exact h.sized
      · exact h.tidy
      · simp
      · exact fun _ _ => closed.1
      · exact fun _ _ => .inr drained
      · exact fun _ _ => empty
      · simp
    · dsimp only
      rw [gaveUp]
      constructor
      · rw [← conserved, Queue.events, Queue.events, batches, handedOver_discard]
        simp [Queue.discard, batches]
      · exact h.sized
      · exact h.tidy.discard finish history.metrics
      · simp
      · exact fun _ _ => closed.1
      · exact fun _ _ => .inl rfl
      · exact fun _ _ => rfl
      · simp [Queue.discard]
  next => exact h

theorem Sound.step (h : Sound size history) (happening : Happening) :
    Sound size (history.step sink happening) := by
  cases happening with
  | push event => exact h.push event
  | act => exact h.act
  | pass milliseconds => exact h.pass milliseconds
  | close => exact h.close
  | conclude => exact h.conclude

theorem Sound.run (h : Sound size history) (happenings : List Happening) :
    Sound size (history.run sink happenings) := by
  induction happenings generalizing history with
  | nil => exact h
  | cons happening happenings ih => exact ih (h.step happening)

/-! ## What is accepted -/

/-- The event that a happening pushes. -/
def pushed? : Happening → Option Event
  | .push event => some event
  | .act | .pass _ | .close | .conclude => none

/-- Whether a happening begins a shutdown. -/
def isClose : Happening → Bool
  | .close => true
  | .push _ | .act | .pass _ | .conclude => false

/-- The events pushed before the first shutdown began. -/
def pushedInTime (happenings : List Happening) : List Event :=
  (happenings.takeWhile (!isClose ·)).filterMap pushed?

theorem pushedInTime_cons (happening : Happening) (happenings : List Happening) :
    pushedInTime (happening :: happenings) =
      if isClose happening then [] else (pushed? happening).toList ++ pushedInTime happenings := by
  unfold pushedInTime
  rcases close : isClose happening with _ | _
  · rcases pushed : pushed? happening with _ | event
    · simp [close, pushed]
    · simp [close, pushed]
  · simp [close]

theorem closed_step (sink : Sink ω) (history : History ω) (happening : Happening) :
    (history.step sink happening).queue.closed = (history.queue.closed || isClose happening) := by
  cases happening with
  | push event =>
    rcases closed : history.queue.closed with _ | _
    · rw [History.step, push_of_open closed]
      exact closed
    · rw [History.step, push_of_closed closed, closed]
      rfl
  | act =>
    rw [History.step, History.act, isClose, Bool.or_false]
    split
    · rfl
    next next =>
      split
      · exact (acted_act next history.metrics).setup.2.2.1
      · rfl
  | pass milliseconds =>
    rw [isClose, Bool.or_false]
    exact (run_keeps (Nat.le_add_right _ _) _).2.2
  | close => exact (Bool.or_true _).symm
  | conclude =>
    rw [History.step, History.conclude, isClose, Bool.or_false]
    split
    · exact closed_conclude _ _ _
    · rfl

theorem accepted_step (happening : Happening) :
    (history.step sink happening).accepted =
      if history.queue.closed then history.accepted
      else history.accepted ++ (pushed? happening).toList := by
  cases happening with
  | push event =>
    rcases closed : history.queue.closed with _ | _
    · rw [History.step, push_of_open closed]
      rfl
    · rw [History.step, push_of_closed closed]
      rfl
  | act =>
    rw [History.step, History.act]
    split
    · simp [pushed?]
    · split <;> simp [pushed?]
  | pass => simp [History.step, pass, pushed?]
  | close => simp [History.step, History.close, pushed?]
  | conclude =>
    rw [History.step, History.conclude]
    split <;> simp [pushed?]

theorem closed_history (happenings : List Happening) :
    (history.run sink happenings).queue.closed =
      (history.queue.closed || happenings.any isClose) := by
  induction happenings generalizing history with
  | nil => simp [History.run]
  | cons happening happenings ih =>
    rw [List.any_cons, ← Bool.or_assoc, ← closed_step sink]
    exact ih

theorem accepted_history (sink : Sink ω) (history : History ω) (happenings : List Happening) :
    (history.run sink happenings).accepted =
      if history.queue.closed then history.accepted
      else history.accepted ++ pushedInTime happenings := by
  induction happenings generalizing history with
  | nil => simp [History.run, pushedInTime]
  | cons happening happenings ih =>
    rw [run_cons, ih, closed_step, accepted_step, pushedInTime_cons]
    rcases closed : history.queue.closed with _ | _
    · rcases close : isClose happening with _ | _
      · simp
      · have : pushed? happening = none := by
          cases happening <;> simp_all [isClose, pushed?]
        simp [this]
    · simp

theorem batches_grow_step (happening : Happening) :
    history.queue.batches <+: (history.step sink happening).queue.batches := by
  cases happening with
  | push event =>
    rcases closed : history.queue.closed with _ | _
    · rw [History.step, push_of_open closed]
      exact List.prefix_rfl
    · rw [History.step, push_of_closed closed]
  | act =>
    rw [History.step, History.act]
    split
    · exact List.prefix_rfl
    next next =>
      split
      · exact (acted_act next history.metrics).batches_grow
      · exact List.prefix_rfl
  | pass milliseconds =>
    exact run_preserves sink _ (I := fun _ queue => history.queue.batches <+: queue.batches)
      (fun _ h => h) (fun h _ _ acted => h.trans acted.batches_grow) (fun h => h)
      history.metrics (Nat.le_add_right _ _) List.prefix_rfl
  | close => exact List.prefix_rfl
  | conclude =>
    rw [History.step, History.conclude]
    split
    · dsimp only
      rw [batches_conclude]
    · exact List.prefix_rfl

theorem batches_grow (happenings : List Happening) :
    history.queue.batches <+: (history.run sink happenings).queue.batches := by
  induction happenings generalizing history with
  | nil => exact List.prefix_rfl
  | cons happening happenings ih => exact (batches_grow_step happening).trans ih

theorem accepted_grows (happenings : List Happening) :
    history.accepted <+: (history.run sink happenings).accepted := by
  rw [accepted_history]
  split
  · exact List.prefix_rfl
  · exact List.prefix_append _ _

/-- What comes in after some moment is in none of the batches taken before. -/
theorem Sound.since {later : History ω} (h : Sound size history) (soundLater : Sound size later)
    (batches_grow : history.queue.batches <+: later.queue.batches)
    (accepted_grows : history.accepted <+: later.accepted) :
    ∃ batches events, later.queue.batches = history.queue.batches ++ batches ∧
      later.accepted = history.accepted ++ events ∧
      batches.flatMap (·.events) ++ later.queue.pending ++ later.discarded =
        history.queue.pending ++ history.discarded ++ events := by
  obtain ⟨batches, hb⟩ := batches_grow
  obtain ⟨events, he⟩ := accepted_grows
  refine ⟨batches, events, hb.symm, he.symm, ?_⟩
  have conserved := soundLater.conserved
  rw [← he, ← h.conserved, Queue.events, Queue.events, ← hb, List.flatMap_append] at conserved
  simp only [List.append_assoc] at conserved ⊢
  exact List.append_cancel_left conserved

/-! ## Shutdown -/

/-- A shutdown that is waited for: the queue has the grace period to itself, but for its very
end. -/
def shutdown (grace : Nat) : List Happening :=
  if grace = 0 then [.close, .conclude] else [.close, .pass (grace - 1), .conclude]

/-- Shutting a queue down is to close it, to let the grace period pass and to give up what is
left. -/
theorem run_shutdown (isOpen : history.queue.closed = false) (unreturned : history.returned = none)
    (grace : Nat) :
    let ended := history.run sink (shutdown grace)
    let closing := history.queue.shutdown sink grace history.now history.metrics
    ended.queue = closing.queue ∧ ended.returned = some closing.discarded ∧
      ended.metrics = closing.metrics := by
  unfold shutdown Queue.shutdown
  simp only [isOpen, Bool.false_eq_true, if_false]
  split
  next =>
    simp only [History.run, List.foldl_cons, List.foldl_nil, History.step, History.conclude,
      History.close, Queue.close, unreturned, Option.isNone_none, Bool.and_self, if_true]
    exact ⟨conclude_queue _ _, congrArg some (conclude_discarded _ _), conclude_metrics _⟩
  next notZero =>
    have closed : ((history.queue.close).run sink history.now (history.now + (grace - 1))
        history.metrics).1.closed = true :=
      (run_keeps (Nat.le_add_right _ _) _).2.2
    have limit : history.now + grace - 1 = history.now + (grace - 1) := by omega
    simp only [History.run, List.foldl_cons, List.foldl_nil, History.step, History.conclude,
      History.close, History.pass, unreturned, Option.isNone_none, closed, Bool.and_self, if_true,
      limit]
    exact ⟨conclude_queue _ _, congrArg some (conclude_discarded _ _), conclude_metrics _⟩

/-- In every history of a queue, the batches handed over, what waits and what a shutdown discarded
are the events whose push returned true, in the order of the pushes. Batches are neither empty nor
too large, are sent one at a time, and take in no event that comes later. A queue that is being shut
down takes nothing more, and the shutdown returns the number of the events that it discarded. -/
theorem batches_conserve_events (sink : Sink ω) (cache : String) (interval maxBatch : Nat)
    (before after : List Happening) :
    let history := (start cache interval maxBatch).run sink before
    let later := history.run sink after
    (later.queue.batches.flatMap (·.events) ++ later.queue.pending ++ later.discarded =
        later.accepted ∧
      later.accepted = pushedInTime (before ++ after) ∧
      (later.returned = none → later.discarded = []) ∧
      ∀ n, later.returned = some n → later.queue.pending = [] ∧ later.discarded.length = n) ∧
    (∀ batch ∈ later.queue.batches,
      batch.events ≠ [] ∧ batch.events.length ≤ max 1 maxBatch) ∧
    later.queue.handedOver.Pairwise (fun flush next =>
      ∃ finish ∈ flush.finish, flush.start ≤ finish ∧ finish ≤ next.start) ∧
    (∃ batches events, later.queue.batches = history.queue.batches ++ batches ∧
      later.accepted = history.accepted ++ events ∧
      batches.flatMap (·.events) ++ later.queue.pending ++ later.discarded =
        history.queue.pending ++ history.discarded ++ events) ∧
    (.close ∈ before →
      history.accepts = false ∧ ∀ event, history.push event = history) ∧
    (.close ∉ before → ∀ grace,
      let ended := history.run sink (shutdown grace)
      let closing := history.queue.shutdown sink grace history.now history.metrics
      ended.queue = closing.queue ∧ ended.returned = some closing.discarded) := by
  intro history later
  have sound : history.Sound (max 1 maxBatch) := (sound_start cache interval maxBatch).run before
  have soundLater : later.Sound (max 1 maxBatch) := sound.run after
  have closed : history.queue.closed = before.any isClose := by
    rw [closed_history]
    exact Bool.false_or _
  have closed_iff : history.queue.closed = true ↔ .close ∈ before := by
    rw [closed, List.any_eq_true]
    constructor
    · rintro ⟨happening, mem, isClose⟩
      cases happening <;> simp_all [History.isClose]
    · exact fun mem => ⟨.close, mem, rfl⟩
  refine ⟨⟨soundLater.conserved, ?_, soundLater.pending, fun n hn => ?_⟩, ?_, ?_, ?_, ?_, ?_⟩
  · have := accepted_history sink (start cache interval maxBatch)
      (before ++ after)
    rwa [run_append] at this
  · exact ⟨soundLater.empty n hn, (soundLater.counted n hn).symm⟩
  · intro batch mem
    obtain ⟨flush, memFlush, rfl⟩ := List.mem_map.1 mem
    exact each_iff_forall_mem.1 soundLater.sized.2 flush memFlush
  · refine soundLater.tidy.apart.imp_of_mem ?_
    rintro flush next mem - ⟨finish, hf, le⟩
    exact ⟨finish, hf, (soundLater.tidy.finished flush mem finish hf).1, le⟩
  · exact sound.since soundLater (batches_grow after) (accepted_grows after)
  · intro mem
    have closed := closed_iff.2 mem
    exact ⟨by simp [accepts, closed], push_of_closed closed⟩
  · intro notMem grace
    have isOpen : history.queue.closed = false := by
      rw [← Bool.not_eq_true, closed_iff]
      exact notMem
    obtain ⟨queue, returned, -⟩ := run_shutdown isOpen (sound.returned_eq_none isOpen) grace
    exact ⟨queue, returned⟩

end History

end CacheCluster.Queue
