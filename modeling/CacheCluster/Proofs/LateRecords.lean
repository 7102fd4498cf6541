import CacheCluster.Proofs.LatePushes

/-! # The gauge of a queue in use

A push, the flusher and a shutdown change a queue while they hold its lock, and record how many
events wait when they have let it go; the flusher takes the lock once more to look how many there
are. In between others can change the queue and record what they see. The gauge is right when nobody
is between a change and its record, unless a number was recorded before one that had been seen
earlier.
-/

namespace CacheCluster

variable {ω : Type}

namespace Queue

/-- Who records how many events wait. -/
inductive Recorder
  | push | flusher | shutdown
  deriving DecidableEq

def Step.isOfFlusher : Step → Bool
  | .flush | .resume _ | .halt => true
  | .push _ | .shutdown | .pass _ => false

def Race.sees (race : Race ω) : Step → List (Recorder × Nat)
  | .push index =>
    match race.pushes[index]? with
    | some (.admitted _) => [(.push, race.queue.pending.length + 1)]
    | _ => []
  | .shutdown =>
    match race.ending with
    | .discarding => [(.shutdown, 0)]
    | _ => []
  | _ => []

/-- A queue that pushes, its flusher and a shutdown use at the same time, and its gauge. -/
structure Gauged (ω : Type) where
  race : Race ω
  gauge : Option Nat := none
  /-- Whether the flusher has taken a batch and has yet to look what is left. -/
  hasToLook : Bool := false
  seen : List (Recorder × Nat) := []

namespace Gauged

inductive Step
  | race (step : Queue.Step)
  /-- The flusher looks how many events its batch has left. -/
  | look
  | record (index : Nat)

def start (cache : String) (interval maxBatch grace : Nat) (events : List Event) : Gauged ω where
  race := .start cache interval maxBatch grace events

variable (sink : Sink ω) (gauged : Gauged ω)

def isRecording : Bool :=
  gauged.hasToLook || gauged.seen.any (·.1 == .flusher)

def step : Step → Gauged ω
  | .race step =>
    if step.isOfFlusher && gauged.isRecording then gauged
    else
      let race := gauged.race.step sink step
      let hasTaken := race.queue.pending.length != gauged.race.queue.pending.length
      { gauged with
        race
        hasToLook := gauged.hasToLook || step.isOfFlusher && hasTaken
        seen := gauged.seen ++ gauged.race.sees step }
  | .look =>
    if gauged.hasToLook then
      { gauged with
        hasToLook := false
        seen := gauged.seen ++ [(.flusher, gauged.race.queue.pending.length)] }
    else gauged
  | .record index =>
    match gauged.seen[index]? with
    | some (_, n) => { gauged with gauge := some n, seen := gauged.seen.eraseIdx index }
    | none => gauged

def run (steps : List Step) : Gauged ω :=
  steps.foldl (step sink) gauged

/-- Nobody is between a change of the queue and the record of it. -/
def IsAtRest : Prop :=
  gauged.hasToLook = false ∧ gauged.seen = []

def lastSeen : Nat :=
  ((gauged.seen.getLast?.map (·.2)).or gauged.gauge).getD 0

variable {sink gauged}

/-! ## Records that follow at once -/

section

variable {metrics : Metrics} {race : Race ω} {gauge : Option Nat} {index : Nat} {event : Event}

theorem step_push (sink : Sink ω) (race : Race ω) (gauge : Option Nat)
    (seen : List (Recorder × Nat)) (index : Nat) :
    step sink ⟨race, gauge, false, seen⟩ (.race (.push index)) =
      ⟨race.push index, gauge, false, seen ++ race.sees (.push index)⟩ := by
  simp [Gauged.step, Queue.Step.isOfFlusher, Race.step]

/-- A push that nobody interrupts is one into the queue as it is. -/
theorem run_push (shown : metrics.get? (.queueSize race.queue.cache) = gauge)
    (known : race.pushes[index]? = some (.begun event)) :
    let pushed := run sink ⟨race, gauge, false, []⟩
      [.race (.push index), .race (.push index), .record 0]
    let metered := race.queue.pushMetered race.now event metrics
    pushed.race.queue = metered.1 ∧
      pushed.gauge = metered.2.get? (.queueSize race.queue.cache) := by
  obtain ⟨inside, -⟩ := List.getElem?_eq_some_iff.1 known
  have looked : race.sees (.push index) = [] := by rw [Race.sees, known]
  dsimp only [run, List.foldl_cons, List.foldl_nil]
  rw [step_push sink race, looked, step_push, Race.push_of_begun known, List.append_nil,
    List.nil_append]
  rcases closed : race.queue.closed with _ | _
  · have admitted : (race.pushes.set index (.admitted event))[index]? = some (.admitted event) :=
      List.getElem?_set_self inside
    simp only [Bool.false_eq_true, if_false]
    rw [Race.push_of_admitted admitted, Race.sees, admitted, pushMetered, if_neg (by simp [closed])]
    refine ⟨rfl, Eq.symm ((Metrics.get?_set ..).trans ((if_pos rfl).trans ?_))⟩
    exact congrArg some List.length_append
  · have returned : (race.pushes.set index (.returned event false))[index]? =
        some (.returned event false) := List.getElem?_set_self inside
    simp only [if_true]
    rw [Race.push_of_returned returned, Race.sees, returned, pushMetered, if_pos closed]
    exact ⟨rfl, shown.symm⟩

theorem handOver_of_waiting (sink : Sink ω) {queue : Queue ω} (waiting : queue.pending ≠ [])
    (time : Nat) (metrics : Metrics) :
    (queue.handOver sink time metrics).1 = (queue.handOver sink time {}).1 ∧
      (queue.handOver sink time metrics).1.pending = queue.afterTake.pending ∧
      (queue.handOver sink time metrics).2 =
        metrics.set (.queueSize queue.cache) queue.afterTake.pending.length := by
  unfold handOver
  split
  next none => exact absurd (nextEvents_eq_nil_iff.1 none) waiting
  next =>
    dsimp only
    split <;> exact ⟨rfl, rfl, rfl⟩

theorem run_flush (idle : race.queue.stage = .idle) (place : race.place = .taking)
    (waiting : race.queue.pending ≠ []) :
    let taken := run sink ⟨race, gauge, false, []⟩ [.race .flush, .look, .record 0]
    let metered := race.queue.handOver sink race.now metrics
    taken.race.queue = metered.1 ∧
      taken.gauge = metered.2.get? (.queueSize race.queue.cache) := by
  have flushed : race.flush sink = { race.take sink with place := .top } := by
    rw [Race.flush, idle, place]
    exact if_neg waiting
  obtain ⟨same, left, recorded⟩ := handOver_of_waiting sink waiting race.now metrics
  have shorter : race.queue.afterTake.pending.length ≠ race.queue.pending.length := by
    have := List.length_pos_iff.2 waiting
    have := race.queue.fullSize_pos
    simp only [afterTake, List.length_drop]
    omega
  have first : step sink ⟨race, gauge, false, []⟩ (.race .flush) =
      ⟨{ race.take sink with place := .top }, gauge, true, []⟩ := by
    simp [Gauged.step, isRecording, Race.step, flushed, Race.sees, Queue.Step.isOfFlusher,
      Race.take, ← same, left, shorter]
  dsimp only [run, List.foldl_cons, List.foldl_nil]
  rw [first, recorded]
  refine ⟨same.symm, Eq.symm ((Metrics.get?_set ..).trans ((if_pos rfl).trans ?_))⟩
  rw [← left, same]
  rfl

theorem run_shutdown (discarding : race.ending = .discarding) (finish : Nat) :
    let given := run sink ⟨race, gauge, false, []⟩ [.race .shutdown, .record 0]
    let closing := race.queue.discard finish metrics
    given.race.queue.pending = closing.queue.pending ∧
      given.gauge = closing.metrics.get? (.queueSize race.queue.cache) := by
  have first : step sink ⟨race, gauge, false, []⟩ (.race .shutdown) =
      ⟨race.shutdown, gauge, false, [(.shutdown, 0)]⟩ := by
    simp [Gauged.step, Queue.Step.isOfFlusher, Race.step, Race.sees, discarding]
  dsimp only [run, List.foldl_cons, List.foldl_nil]
  rw [first, Race.shutdown, discarding]
  exact ⟨rfl, ((Metrics.get?_set ..).trans (if_pos rfl)).symm⟩

end

/-! ## What is seen -/

/-- A step changes how many events wait only if that is seen, or the flusher is to look. -/
theorem pending_step (sink : Sink ω) (race : Race ω) (step : Queue.Step) :
    (∃ who n, race.sees step = [(who, n)] ∧ (race.step sink step).queue.pending.length = n) ∨
      race.sees step = [] ∧ (step.isOfFlusher = true ∨
        (race.step sink step).queue.pending = race.queue.pending) := by
  cases step with
  | push index =>
    dsimp only [Race.sees, Race.step]
    rcases known : race.pushes[index]? with _ | event | event | ⟨event, accepted⟩
    · exact .inr ⟨rfl, .inr (by rw [Race.push, known])⟩
    · exact .inr ⟨rfl, .inr (by rw [Race.push_of_begun known])⟩
    · refine .inl ⟨_, _, rfl, ?_⟩
      rw [Race.push_of_admitted known]
      exact List.length_append
    · exact .inr ⟨rfl, .inr (by rw [Race.push_of_returned known])⟩
  | flush | resume reason | halt => exact .inr ⟨rfl, .inl rfl⟩
  | shutdown =>
    dsimp only [Race.sees, Race.step]
    unfold Race.shutdown
    rcases race.ending with _ | _ | deadline | _ | n
    · exact .inr ⟨rfl, .inr rfl⟩
    · exact .inr ⟨rfl, .inr rfl⟩
    · refine .inr ⟨rfl, .inr ?_⟩
      dsimp only
      split
      · rfl
      · rfl
      · split <;> rfl
    · exact .inl ⟨_, _, rfl, rfl⟩
    · exact .inr ⟨rfl, .inr rfl⟩
  | pass milliseconds => exact .inr ⟨rfl, .inr rfl⟩

def IsCurrent (gauged : Gauged ω) : Prop :=
  gauged.hasToLook = true ∨ gauged.lastSeen = gauged.race.queue.pending.length

theorem lastSeen_concat (race : Race ω) (gauge : Option Nat) (hasToLook : Bool)
    (seen : List (Recorder × Nat)) (who : Recorder) (n : Nat) :
    (⟨race, gauge, hasToLook, seen ++ [(who, n)]⟩ : Gauged ω).lastSeen = n := by
  simp [lastSeen]

theorem IsCurrent.race (h : gauged.IsCurrent) (step : Queue.Step) :
    (gauged.step sink (.race step)).IsCurrent := by
  unfold Gauged.step
  dsimp only
  split
  · exact h
  · rcases pending_step sink gauged.race step with ⟨who, n, seen, same⟩ | ⟨none, waits⟩
    · right
      rw [seen, lastSeen_concat]
      exact same.symm
    · rw [none, List.append_nil]
      -- what the flusher takes is not seen at once, so that it has to look
      rcases h with looks | current
      · exact .inl (by rw [looks, Bool.true_or])
      · by_cases same : (gauged.race.step sink step).queue.pending.length =
            gauged.race.queue.pending.length
        · exact .inr (current.trans same.symm)
        · rcases waits with flusher | waits
          · left
            simp [flusher, same]
          · exact absurd (congrArg List.length waits) same

theorem IsCurrent.look (h : gauged.IsCurrent) : (gauged.step sink .look).IsCurrent := by
  unfold Gauged.step
  dsimp only
  split
  · exact .inr (lastSeen_concat ..)
  · exact h

theorem IsCurrent.record (h : gauged.IsCurrent) :
    (gauged.step sink (.record 0)).IsCurrent := by
  obtain ⟨race, gauge, hasToLook, _ | ⟨⟨who, n⟩, seen⟩⟩ := gauged
  · exact h
  · refine h.imp id fun current => Eq.trans ?_ current
    rcases seen with _ | ⟨next, seen⟩
    · rfl
    · simp [Gauged.step, lastSeen, List.getLast?_cons]

/-- No number is recorded before one that had been seen earlier. -/
def InOrder (steps : List Step) : Prop :=
  ∀ step ∈ steps, ∀ index, step = .record index → index = 0

theorem IsCurrent.run (h : gauged.IsCurrent) {steps : List Step} (inOrder : InOrder steps) :
    (gauged.run sink steps).IsCurrent := by
  induction steps generalizing gauged with
  | nil => exact h
  | cons step steps ih =>
    obtain ⟨first, rest⟩ := List.forall_mem_cons.1 inOrder
    refine ih ?_ rest
    cases step with
    | race step => exact h.race step
    | look => exact h.look
    | record index =>
      obtain rfl := first index rfl
      exact h.record

/-- Whatever pushes, the flusher and a shutdown do at the same time, the gauge shows how many events
wait when nobody is between a change and its record, if the numbers are recorded in the order in
which they were seen. -/
theorem gauge_shows_waiting (cache : String) (interval maxBatch grace : Nat) (events : List Event)
    {steps : List Step} (inOrder : InOrder steps) :
    let ended := (start cache interval maxBatch grace events).run sink steps
    ended.IsAtRest → ended.gauge.getD 0 = ended.race.queue.pending.length := by
  rintro ended ⟨looked, recorded⟩
  have fresh : (start cache interval maxBatch grace events : Gauged ω).IsCurrent := .inr rfl
  have current : ended.lastSeen = ended.race.queue.pending.length :=
    (fresh.run inOrder).resolve_left (by rw [looked]; exact Bool.false_ne_true)
  rw [← current, lastSeen, recorded]
  rfl

/-- A push adds an event; the flusher takes it, and records that none is left before the push
records that there was one. -/
def overtaken : List Step :=
  [.race (.push 0), .race (.push 0), .race .flush, .race .flush, .look, .record 1, .record 0]

/-- A gauge that shows an event although none waits. -/
theorem late_record_outlives_batch :
    let ended := (start "c" 1000 1 0 [.remove "c" "k"]).run (Sink.steady 0 none) overtaken
    ended.IsAtRest ∧ ended.gauge = some 1 ∧ ended.race.queue.pending = [] :=
  ⟨⟨rfl, rfl⟩, rfl, rfl⟩

end Gauged

end Queue

end CacheCluster
