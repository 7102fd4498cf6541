import CacheCluster.Proofs.Draining

/-! # What is recorded of a queue

A queue counts the failed deliveries of a batch when the batch is over, and sets the gauge of its
cache to the number of events that wait, whenever that changes. So at each time the counter shows
the failures of the batches that are over, whatever the flusher has done and when the queue has been
shut down, and nothing is recorded of another cache.
-/

namespace CacheCluster

open Delivery

/-! ## Records -/

namespace Metrics

/-- What is recorded for the queue of a cache. -/
def Series.isOfQueue (cache : String) : Series → Bool
  | failures other | queueSize other | flushes other => other == cache
  | _ => false

/-- What has been recorded meanwhile is of the queue of one cache. -/
def AgreesBut (cache : String) (before after : Metrics) : Prop :=
  ∀ series, series.isOfQueue cache = false → after.get? series = before.get? series

variable {cache : String} {before between after metrics : Metrics} {series : Series}

theorem AgreesBut.refl (cache : String) (metrics : Metrics) : metrics.AgreesBut cache metrics :=
  fun _ _ => rfl

theorem AgreesBut.trans (first : before.AgreesBut cache between)
    (second : between.AgreesBut cache after) : before.AgreesBut cache after :=
  fun series other => (second series other).trans (first series other)

theorem AgreesBut.total (h : before.AgreesBut cache after)
    (other : series.isOfQueue cache = false) : after.total series = before.total series :=
  congrArg (·.getD 0) (h series other)

theorem agreesBut_set (own : series.isOfQueue cache = true) (n : Nat) :
    metrics.AgreesBut cache (metrics.set series n) := by
  intro other foreign
  have ne : other ≠ series := by
    rintro rfl
    simp [own] at foreign
  rw [get?_set, if_neg ne]

theorem agreesBut_add (own : series.isOfQueue cache = true) (n : Nat) :
    metrics.AgreesBut cache (metrics.add series n) := by
  intro other foreign
  have ne : other ≠ series := by
    rintro rfl
    simp [own] at foreign
  rw [get?_add, if_neg fun same => ne same.1]

end Metrics

/-! ## Calls that have failed -/

namespace Delivery

/-- Whether a call has got an error or has timed out by some time. -/
def hasFailedBy (timeout time : Nat) (call : Delivery) : Bool :=
  call.failed && call.over timeout ≤ time

/-- What has not happened yet does not tell whether a call has failed. -/
theorem hasFailedBy_cutAfter {timeout time : Nat} {call : Delivery}
    (timely : call.over timeout ≤ call.start + timeout) :
    hasFailedBy timeout time (call.cutAfter time) = call.hasFailedBy timeout time := by
  obtain ⟨url, start, action, _ | finish, result, turn⟩ := call
  · rfl
  · have timely : finish ≤ start + timeout := timely
    by_cases known : finish ≤ time
    · simp [cutAfter, Option.filter, known]
    · have ahead : time < start + timeout := (Nat.lt_of_not_le known).trans_le timely
      simp [hasFailedBy, cutAfter, Delivery.over, Option.filter, known, ahead]

end Delivery

/-! ## What a queue records -/

namespace Queue

open Metrics

section

variable {ω : Type} {sink : Sink ω} {now limit : Nat} {queue : Queue ω} {metrics : Metrics}

/-- Something that is true of a queue and of what has been recorded stays true whatever the flusher
does and when the queue is shut down. -/
structure Keeps (sink : Sink ω) (I : Queue ω → Metrics → Prop) : Prop where
  act : ∀ {time queue metrics}, I queue metrics →
    I (queue.act sink time metrics).1 (queue.act sink time metrics).2
  see : ∀ {limit queue metrics}, I queue metrics → I { queue with seen := limit } metrics
  close : ∀ {queue metrics}, I queue metrics → I queue.close metrics
  discard : ∀ {finish queue metrics}, I queue metrics →
    I (queue.discard finish metrics).queue (queue.discard finish metrics).metrics

variable {I : Queue ω → Metrics → Prop}

theorem Keeps.acts (keeps : Keeps sink I) (inv : I queue metrics) :
    I (queue.acts sink now limit metrics).1 (queue.acts sink now limit metrics).2 := by
  induction now, queue, metrics using acts.induct sink limit with
  | case1 now queue metrics none =>
    rw [acts_of_none none]
    exact inv
  | case2 now queue metrics time next due ih =>
    rw [acts_of_due next due]
    exact ih (keeps.act inv)
  | case3 now queue metrics time next notDue =>
    rw [acts_of_not_due next notDue]
    exact inv

theorem Keeps.run (keeps : Keeps sink I) (inv : I queue metrics) :
    I (queue.run sink now limit metrics).1 (queue.run sink now limit metrics).2 := by
  unfold Queue.run
  split
  · exact inv
  · exact keeps.see (keeps.acts inv)

theorem Keeps.conclude (keeps : Keeps sink I) (inv : I queue metrics) (began deadline : Nat) :
    I (queue.conclude began deadline metrics).queue
      (queue.conclude began deadline metrics).metrics := by
  unfold Queue.conclude
  split
  · exact inv
  · exact keeps.discard inv
  · exact keeps.discard inv

theorem Keeps.shutdown (keeps : Keeps sink I) (inv : I queue metrics) (grace : Nat) :
    I (queue.shutdown sink grace now metrics).queue
      (queue.shutdown sink grace now metrics).metrics := by
  unfold Queue.shutdown
  split
  · exact inv
  · by_cases atOnce : grace = 0
    · rw [if_pos atOnce]
      exact keeps.conclude (keeps.close inv) _ _
    · rw [if_neg atOnce]
      exact keeps.conclude (keeps.run (keeps.close inv)) _ _

theorem agreesBut_pushMetered (now : Nat) (event : Event) (queue : Queue ω) (metrics : Metrics) :
    metrics.AgreesBut queue.cache (queue.pushMetered now event metrics).2 := by
  unfold pushMetered
  split
  · exact .refl _ _
  · exact agreesBut_set (beq_self_eq_true _) _

/-- A queue is in use, and all that its batches have come to by now has happened. -/
structure IsUpToDate (now : Nat) (queue : Queue ω) : Prop where
  working : queue.IsWorking
  seen : queue.seen = now ∨ queue.handedOver = []

theorem IsUpToDate.append (h : queue.IsUpToDate now) (event : Event) :
    (queue.append now event).IsUpToDate now :=
  ⟨h.working.append now event, h.seen⟩

theorem IsUpToDate.run (h : queue.IsUpToDate now)
    (starts : ∀ time batch, sink.start time batch ≠ none) (le : now ≤ limit) (metrics : Metrics) :
    (queue.run sink now limit metrics).1.IsUpToDate limit := by
  have goesOn : ¬queue.isStopped = true := by
    have active := h.working.isActive
    unfold isStopped
    cases stage : queue.stage <;> simp_all [Stage.isActive]
  refine ⟨h.working.run starts le metrics, .inl ?_⟩
  unfold Queue.run
  rw [if_neg goesOn]

/-- A queue records nothing that is not its own. -/
theorem keeps_agreesBut (sink : Sink ω) (cache : String) (before : Metrics) :
    Keeps sink fun queue metrics => queue.cache = cache ∧ before.AgreesBut cache metrics where
  act {time queue metrics} h := by
    obtain ⟨rfl, agrees⟩ := h
    have own : (Series.queueSize queue.cache).isOfQueue queue.cache = true := beq_self_eq_true _
    unfold Queue.act
    split
    · unfold handOver
      split
      · exact ⟨rfl, agrees⟩
      · dsimp only
        split <;> exact ⟨rfl, agrees.trans (agreesBut_set own _)⟩
    · unfold goOn
      split
      · exact ⟨rfl, agrees⟩
      · exact ⟨rfl, agrees.trans <| (agreesBut_add (beq_self_eq_true _) _).trans
          (agreesBut_add (beq_self_eq_true _) 1)⟩
    · exact ⟨rfl, agrees⟩
  see h := h
  close h := h
  discard {finish queue metrics} h := by
    obtain ⟨rfl, agrees⟩ := h
    exact ⟨rfl, agrees.trans (agreesBut_set (beq_self_eq_true _) 0)⟩

end

/-! ## The calls of a queue -/

section

variable {neighbours : Neighbours} {timeout time now : Nat} {cache : String}
  {queue : Queue Fanout} {metrics : Metrics}

/-- The calls for the batches that are over. -/
def settledCalls (queue : Queue Fanout) : List Delivery :=
  (queue.handedOver.filter (·.finish.isSome)).flatMap Flush.calls

/-- The calls for a batch that is under way, or was when the queue gave up. -/
def unsettledCalls (queue : Queue Fanout) : List Delivery :=
  (queue.handedOver.filter (·.finish.isNone)).flatMap Flush.calls

theorem settledCalls_eq (queue : Queue Fanout) :
    queue.settledCalls = (queue.flushes.filter (·.finish.isSome)).flatMap Flush.calls := by
  have none : queue.stage.underWay.filter (·.finish.isSome) = [] := by
    cases queue.stage <;> rfl
  rw [settledCalls, handedOver_eq, List.filter_append, none, List.append_nil]

/-- The counter and the gauge show the batches that are over and the events that wait; no call takes
longer than it may. -/
structure Recorded (timeout : Nat) (queue : Queue Fanout) (metrics : Metrics) : Prop where
  failures : metrics.total (.failures queue.cache) = queue.settledCalls.countP failed
  waiting : metrics.get? (.queueSize queue.cache) = some queue.pending.length
  timely : ∀ flush ∈ queue.handedOver, ∀ call ∈ flush.calls,
    call.over timeout ≤ call.start + timeout

theorem over_le_of_next {work work' : Fanout}
    (next : (Sink.fanout neighbours timeout).next time work = some work') :
    ∀ call ∈ work'.deliveries, call.over timeout ≤ call.start + timeout := by
  cases work with
  | looking messages lookup =>
    obtain rfl := Option.some.inj next
    intro call made
    obtain ⟨url, -, rfl⟩ := List.mem_map.1 made
    unfold Delivery.over Mesh.askWithin
    dsimp only
    split
    next inTime => exact Nat.add_le_add_left inTime time
    next => exact le_rfl
  | sending => cases next

theorem recorded_append
    (failures : metrics.total (.failures queue.cache) = queue.settledCalls.countP failed)
    (timely : ∀ flush ∈ queue.handedOver, ∀ call ∈ flush.calls,
      call.over timeout ≤ call.start + timeout) (now : Nat) (event : Event) :
    (queue.append now event).Recorded timeout
      (metrics.set (.queueSize queue.cache) (queue.append now event).pending.length) where
  failures := (total_set_of_ne _ (by simp) _).trans failures
  waiting := (get?_set ..).trans (if_pos rfl)
  timely := timely

theorem Recorded.handOver (h : queue.Recorded timeout metrics) (idle : queue.stage = .idle) :
    (queue.handOver (.fanout neighbours timeout) time metrics).1.Recorded timeout
      (queue.handOver (.fanout neighbours timeout) time metrics).2 := by
  obtain ⟨failures, waiting, timely⟩ := h
  rw [settledCalls_eq] at failures
  simp only [handedOver_eq, idle, Stage.underWay, List.append_nil] at timely
  unfold Queue.handOver
  split
  next =>
    refine ⟨?_, waiting, ?_⟩
    · rw [settledCalls_eq]
      exact failures
    · simpa only [handedOver_eq, Stage.underWay, List.append_nil] using timely
  next =>
    dsimp only
    split
    next work started =>
      obtain rfl := Option.some.inj started
      refine ⟨?_, ?_, ?_⟩
      · rw [settledCalls_eq]
        exact (total_set_of_ne _ (by simp) _).trans failures
      · exact (get?_set ..).trans (if_pos rfl)
      · rw [handedOver_eq]
        refine List.forall_mem_append.2 ⟨timely, List.forall_mem_singleton.2 fun call made => ?_⟩
        have none : call ∈
            (Fanout.ofBatch neighbours time ⟨queue.cache, queue.nextEvents⟩).deliveries := made
        rw [deliveries_ofBatch] at none
        exact absurd none List.not_mem_nil
    next failed => cases failed

theorem Recorded.goOn (h : queue.Recorded timeout metrics) {start : Nat} {batch : Batch}
    {work : Fanout} (busy : queue.stage = .busy start batch work) :
    (queue.goOn (.fanout neighbours timeout) time start batch work metrics).1.Recorded timeout
      (queue.goOn (.fanout neighbours timeout) time start batch work metrics).2 := by
  obtain ⟨failures, waiting, timely⟩ := h
  rw [settledCalls_eq] at failures
  rw [handedOver_eq, busy] at timely
  obtain ⟨before, last⟩ := List.forall_mem_append.1 timely
  have last := List.forall_mem_singleton.1 last
  unfold Queue.goOn
  split
  next next =>
    refine ⟨?_, waiting, ?_⟩
    · rw [settledCalls_eq]
      exact failures
    · rw [handedOver_eq]
      exact List.forall_mem_append.2 ⟨before, List.forall_mem_singleton.2 (over_le_of_next next)⟩
  next =>
    refine ⟨?_, ?_, ?_⟩
    · rw [settledCalls_eq, total_add, total_add, if_pos rfl, if_neg nofun, failures,
        List.filter_append, List.flatMap_append, List.countP_append, Nat.add_zero]
      exact congrArg _ (congrArg (List.countP failed) (List.append_nil work.deliveries).symm)
    · rw [get?_add, get?_add, if_neg nofun, if_neg nofun]
      exact waiting
    · simp only [handedOver_eq, Stage.underWay, List.append_nil]
      exact List.forall_mem_append.2 ⟨before, List.forall_mem_singleton.2 last⟩

theorem Recorded.discard (h : queue.Recorded timeout metrics) (finish : Nat) :
    (queue.discard finish metrics).queue.Recorded timeout
      (queue.discard finish metrics).metrics := by
  refine ⟨(total_set_of_ne _ (by simp) _).trans h.failures, ?_, h.timely⟩
  exact (get?_set ..).trans (if_pos rfl)

/-- What becomes of a queue is in the metrics. -/
theorem keeps_recorded (neighbours : Neighbours) (timeout : Nat) :
    Keeps (.fanout neighbours timeout) (Recorded timeout) where
  act {time queue metrics} h := by
    unfold Queue.act
    split
    next idle => exact h.handOver idle
    next busy => exact h.goOn busy
    next => exact h
  see h := ⟨h.failures, h.waiting, h.timely⟩
  close h := ⟨h.failures, h.waiting, h.timely⟩
  discard h := h.discard _

/-- The failures that the counter shows, with those of a batch that is not over, are all that there
have been. -/
theorem Recorded.failures_deliveries (h : queue.Recorded timeout metrics)
    (kept : queue.Kept timeout queue.cache) :
    metrics.total (.failures queue.cache) +
        queue.unsettledCalls.countP (hasFailedBy timeout queue.seen) =
      queue.deliveries.countP (hasFailedBy timeout queue.seen) := by
  -- a batch that is over was over before what has been seen, and its calls before it
  have settled : queue.settledCalls.countP failed =
      queue.settledCalls.countP (hasFailedBy timeout queue.seen) := by
    refine List.countP_congr fun call made => ?_
    obtain ⟨flush, mem, made⟩ := List.mem_flatMap.1 made
    obtain ⟨known, isOver⟩ := List.mem_filter.1 mem
    obtain ⟨finish, ended⟩ := Option.isSome_iff_exists.1 isOver
    have before : finish ≤ queue.seen := (kept.tidy.finished flush known finish ended).2
    have inTime := (each_iff_forall_mem.1 kept.proper flush known).over_le call made finish ended
    simp [hasFailedBy, inTime.trans before]
  have split : (queue.handedOver.flatMap Flush.calls).countP (hasFailedBy timeout queue.seen) =
      queue.settledCalls.countP (hasFailedBy timeout queue.seen) +
        queue.unsettledCalls.countP (hasFailedBy timeout queue.seen) := by
    rw [settledCalls, unsettledCalls, ← List.countP_append, ← List.flatMap_append]
    refine (List.Perm.flatMap_right _ ?_).countP_eq _
    simpa only [Option.not_isSome] using
      (List.filter_append_perm (·.finish.isSome) queue.handedOver).symm
  rw [h.failures, settled, ← split, deliveries, List.countP_map]
  refine List.countP_congr fun call made => ?_
  obtain ⟨flush, known, made⟩ := List.mem_flatMap.1 made
  rw [Function.comp, hasFailedBy_cutAfter (h.timely flush known call made)]

/-- A queue whose flusher came to rest has no batch that is not over. -/
theorem Kept.unsettledCalls_eq_nil (h : queue.Kept timeout cache)
    (rests : queue.stage = .idle ∨ ∃ time, queue.stage = .drained time) :
    queue.unsettledCalls = [] := by
  have same : queue.handedOver = queue.flushes := by
    rcases rests with idle | ⟨time, drained⟩ <;> simp [handedOver_eq, Stage.underWay, *]
  have ended : ∀ flush ∈ queue.flushes, flush.finish.isSome := by
    rcases rests with idle | ⟨time, drained⟩ <;> exact h.tidy.ended (by simp [*]) (by simp [*])
  rw [unsettledCalls, same, List.filter_eq_nil_iff.2, List.flatMap_nil]
  intro flush mem
  simpa using Option.isSome_iff_ne_none.1 (ended flush mem)

end

end Queue

end CacheCluster
