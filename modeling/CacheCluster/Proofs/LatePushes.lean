import Mathlib.Data.List.Induction
import CacheCluster.Proofs.Flusher

/-! # Pushes during a shutdown

A push first looks whether the queue is open and then appends its event; in between the queue may be
closed, drained and given up. An event whose push returned true is in a batch or among those that a
shutdown counted, unless it was appended when the flusher had stopped or the shutdown had returned.
-/

namespace CacheCluster

variable {ω : Type}

namespace Queue

/-- A call of push. -/
inductive Push
  | begun (event : Event)
  /-- It has found the queue open. -/
  | admitted (event : Event)
  | returned (event : Event) (accepted : Bool)
  deriving DecidableEq

def Push.hasReturned : Push → Bool
  | .returned _ _ => true
  | _ => false

def Push.accepted? : Push → Option Event
  | .returned event true => some event
  | _ => none

/-- Where the flusher is when no transmission is under way. -/
inductive Place
  | top
  | waiting (due : Option Nat)
  | taking
  /-- About to take a batch, or to stop when nothing is left. -/
  | draining

/-- How far the shutdown is. -/
inductive Ending
  | ahead
  /-- The queue is closed, and the flusher has not been told. -/
  | closed
  | waiting (deadline : Nat)
  /-- The flusher has failed or has been told to give up. -/
  | discarding
  | returned (discarded : Nat)
  deriving DecidableEq

def Ending.hasReturned : Ending → Bool
  | .returned _ => true
  | _ => false

def Ending.hasSignalled : Ending → Bool
  | .ahead | .closed => false
  | _ => true

def Ending.hasAborted : Ending → Bool
  | .discarding | .returned _ => true
  | _ => false

/-- A queue while pushes, its flusher and a shutdown go on at the same time. -/
structure Race (ω : Type) where
  now : Nat := 0
  queue : Queue ω
  place : Place := .top
  woken : Bool := false
  pushes : List Push
  grace : Nat
  ending : Ending := .ahead
  discarded : List Event := []

/-- Why the flusher waits no longer. -/
inductive Reason
  | push | due | shutdown

/-- What one of the parties does next. -/
inductive Step
  /-- The next step of a push, told by its place. -/
  | push (index : Nat)
  /-- The flusher looks how many events wait, takes a batch or goes on with a transmission. -/
  | flush
  | resume (reason : Reason)
  /-- The flusher gives up, which it does only while it waits or transmits. -/
  | halt
  | shutdown
  | pass (milliseconds : Nat)

namespace Race

def start (cache : String) (interval maxBatch grace : Nat) (events : List Event) : Race ω where
  queue := { cache, interval, maxBatch }
  pushes := events.map .begun
  grace

variable (sink : Sink ω) (race : Race ω)

def push (index : Nat) : Race ω :=
  match race.pushes[index]? with
  | some (.begun event) => { race with
      pushes := race.pushes.set index
        (if race.queue.closed then .returned event false else .admitted event) }
  | some (.admitted event) => { race with
      queue := race.queue.append race.now event
      woken := true
      pushes := race.pushes.set index (.returned event true) }
  | _ => race

/-- Takes a batch and begins to transmit it, at one go, since the flusher does not wait in between;
it stops when there is none. -/
def take : Race ω :=
  { race with queue := (race.queue.handOver sink race.now {}).1 }

def flush : Race ω :=
  match race.queue.stage, race.place with
  | .busy start batch work, _ =>
    if sink.due work ≤ race.now then
      { race with queue := (race.queue.goOn sink race.now start batch work {}).1 }
    else race
  | .idle, .top =>
    if race.queue.fullSize ≤ race.queue.pending.length then { race with place := .taking }
    else if race.queue.pending = [] then { race with place := .waiting none }
    else { race with place := .waiting (some (race.queue.since + race.queue.interval)) }
  | .idle, .taking =>
    if race.queue.pending = [] then { race with place := .top }
    else { race.take sink with place := .top }
  | .idle, .draining => race.take sink
  | _, _ => race

def resume (reason : Reason) : Race ω :=
  match race.queue.stage, race.place, reason with
  | .idle, .waiting _, .push =>
    if race.woken then { race with place := .top, woken := false } else race
  | .idle, .waiting (some due), .due =>
    if due ≤ race.now then { race with place := .taking } else race
  | .idle, .waiting _, .shutdown =>
    if race.ending.hasSignalled then { race with place := .draining } else race
  | _, _, _ => race

def halt : Race ω :=
  let halted := { race with
    queue := { race.queue with stage := .stopped, flushes := race.queue.handedOver } }
  match race.queue.stage, race.place with
  | .busy _ _ _, _ | .idle, .waiting _ => if race.ending.hasAborted then halted else race
  | _, _ => race

def shutdown : Race ω :=
  match race.ending with
  | .ahead => { race with queue := race.queue.close, ending := .closed }
  | .closed => { race with ending := .waiting (race.now + race.grace) }
  | .waiting deadline =>
    match race.queue.stage with
    | .drained _ => { race with ending := .returned 0 }
    | .broken _ => { race with ending := .discarding }
    | _ => if deadline ≤ race.now then { race with ending := .discarding } else race
  | .discarding => { race with
      queue := { race.queue with pending := [] }
      discarded := race.queue.pending
      ending := .returned race.queue.pending.length }
  | .returned _ => race

def step : Step → Race ω
  | .push index => race.push index
  | .flush => race.flush sink
  | .resume reason => race.resume reason
  | .halt => race.halt
  | .shutdown => race.shutdown
  | .pass milliseconds => { race with now := race.now + milliseconds }

def run (steps : List Step) : Race ω :=
  steps.foldl (step sink) race

def accepted : List Event :=
  race.pushes.filterMap Push.accepted?

def sent : List Event :=
  race.queue.batches.flatMap (·.events)

/-- The flusher has found nothing more to send, or the shutdown has returned. -/
def IsOver : Prop :=
  (∃ time, race.queue.stage = .drained time) ∨ race.ending.hasReturned = true

variable {sink race} {index : Nat} {event : Event}

theorem run_concat (steps : List Step) (step : Step) :
    race.run sink (steps ++ [step]) = (race.run sink steps).step sink step := by
  simp [run]

/-! ## What the parties do -/

theorem push_of_begun (known : race.pushes[index]? = some (.begun event)) :
    race.push index = { race with
      pushes := race.pushes.set index
        (if race.queue.closed then .returned event false else .admitted event) } := by
  rw [push, known]

theorem push_of_admitted (known : race.pushes[index]? = some (.admitted event)) :
    race.push index = { race with
      queue := race.queue.append race.now event
      woken := true
      pushes := race.pushes.set index (.returned event true) } := by
  rw [push, known]

theorem push_of_returned {accepted : Bool}
    (known : race.pushes[index]? = some (.returned event accepted)) : race.push index = race := by
  rw [push, known]

/-- A push whose two steps follow each other is one into the queue as it is. -/
theorem run_push (known : race.pushes[index]? = some (.begun event)) (metrics : Metrics) :
    let pushed := race.run sink [.push index, .push index]
    pushed.queue = (race.queue.pushMetered race.now event metrics).1 ∧
      pushed.pushes[index]? = some (.returned event !race.queue.closed) := by
  obtain ⟨inside, -⟩ := List.getElem?_eq_some_iff.1 known
  change ((race.push index).push index).queue = _ ∧
    ((race.push index).push index).pushes[index]? = _
  rw [push_of_begun known]
  rcases closed : race.queue.closed with _ | _
  · have admitted : (race.pushes.set index (.admitted event))[index]? = some (.admitted event) :=
      List.getElem?_set_self inside
    simp only [Bool.false_eq_true, if_false]
    rw [push_of_admitted admitted]
    exact ⟨by simp [pushMetered, closed], List.getElem?_set_self (by simpa using inside)⟩
  · have returned : (race.pushes.set index (.returned event false))[index]? =
        some (.returned event false) := List.getElem?_set_self inside
    simp only [if_true]
    rw [push_of_returned returned]
    exact ⟨by simp [pushMetered, closed], returned⟩

theorem run_shutdown {deadline : Nat} (waits : race.ending = .waiting deadline)
    (vain : deadline ≤ race.now) (began : Nat) (metrics : Metrics) :
    let ended := race.run sink [.shutdown, .shutdown]
    let closing := race.queue.conclude began deadline metrics
    ended.ending = .returned closing.discarded ∧ ended.queue.pending = closing.queue.pending := by
  rcases stage : race.queue.stage with _ | _ | _ | _ | _
  all_goals simp [run, Race.step, shutdown, waits, stage, vain, conclude, Queue.discard]

theorem split_pushes {call : Push} (known : race.pushes[index]? = some call) (next : Push) :
    ∃ first rest, race.pushes = first ++ call :: rest ∧
      race.pushes.set index next = first ++ next :: rest := by
  obtain ⟨inside, here⟩ := List.getElem?_eq_some_iff.1 known
  refine ⟨race.pushes.take index, race.pushes.drop (index + 1), ?_, ?_⟩
  · rw [← here, List.getElem_cons_drop, List.take_append_drop]
  · rw [List.set_eq_take_append_cons_drop, if_pos inside]

theorem push_cases (race : Race ω) (index : Nat) :
    (∃ pushes, race.push index = { race with pushes } ∧
      pushes.filterMap Push.accepted? = race.accepted) ∨
    ∃ event pushes, race.pushes[index]? = some (.admitted event) ∧
      race.push index =
        { race with queue := race.queue.append race.now event, woken := true, pushes } ∧
      (pushes.filterMap Push.accepted?).Perm (race.accepted ++ [event]) := by
  unfold push
  split
  next event known =>
    obtain ⟨first, rest, before, after⟩ := split_pushes known
      (if race.queue.closed then .returned event false else .admitted event)
    refine .inl ⟨_, rfl, ?_⟩
    rw [after, accepted, before]
    cases race.queue.closed <;> simp [List.filterMap_cons, Push.accepted?]
  next event known =>
    obtain ⟨first, rest, before, after⟩ := split_pushes known (.returned event true)
    refine .inr ⟨event, _, known, rfl, ?_⟩
    rw [after, accepted, before]
    simp only [List.filterMap_append, List.filterMap_cons, Push.accepted?, List.append_assoc]
    exact (List.perm_append_singleton _ _).symm.append_left _
  next => exact .inl ⟨_, rfl, rfl⟩

theorem flush_cases (sink : Sink ω) (closes : race.place = .draining → race.queue.closed = true) :
    ∃ queue place, race.flush sink = { race with queue, place } ∧
      (queue = race.queue ∨ Acted sink race.now race.queue queue) ∧
      (place = .draining → race.place = .draining) := by
  unfold flush
  split
  next busy =>
    split
    next due => exact ⟨_, _, rfl, .inr (acted_goOn busy due {}), id⟩
    next => exact ⟨_, _, rfl, .inl rfl, id⟩
  next =>
    split
    · exact ⟨_, _, rfl, .inl rfl, nofun⟩
    · split
      · exact ⟨_, _, rfl, .inl rfl, nofun⟩
      · exact ⟨_, _, rfl, .inl rfl, nofun⟩
  next idle _ =>
    split
    next => exact ⟨_, _, rfl, .inl rfl, nofun⟩
    next waiting =>
      exact ⟨_, _, rfl, .inr (acted_handOver idle (fun empty => absurd empty waiting) {}), nofun⟩
  next idle draining =>
    exact ⟨_, _, rfl, .inr (acted_handOver idle (fun _ => closes draining) {}), id⟩
  next => exact ⟨_, _, rfl, .inl rfl, id⟩

theorem resume_cases (race : Race ω) (reason : Reason) :
    ∃ place woken, race.resume reason = { race with place, woken } ∧
      (place = .draining → race.place = .draining ∨ race.ending.hasSignalled = true) := by
  unfold resume
  split
  · split <;> exact ⟨_, _, rfl, by simp_all⟩
  · split <;> exact ⟨_, _, rfl, by simp_all⟩
  · split <;> exact ⟨_, _, rfl, by simp_all⟩
  · exact ⟨_, _, rfl, .inl⟩

theorem halt_cases (race : Race ω) :
    race.halt = race ∨ race.queue.stage.isActive = true ∧ race.halt = { race with
      queue := { race.queue with stage := .stopped, flushes := race.queue.handedOver } } := by
  unfold halt
  dsimp only
  split
  next busy =>
    split
    · exact .inr ⟨by simp [busy, Stage.isActive], rfl⟩
    · exact .inl rfl
  next idle _ =>
    split
    · exact .inr ⟨by simp [idle, Stage.isActive], rfl⟩
    · exact .inl rfl
  next => exact .inl rfl

/-! ## What is kept -/

theorem perm_append_right_comm (first second third : List Event) :
    (first ++ second ++ third).Perm (first ++ third ++ second) := by
  rw [List.append_assoc, List.append_assoc]
  exact List.perm_append_comm.append_left first

/-- Every accepted event was sent, waits or was discarded. -/
structure Sound (race : Race ω) : Prop where
  conserved : (race.queue.events ++ race.discarded).Perm race.accepted
  closed : race.ending ≠ .ahead → race.queue.closed = true
  draining : race.place = .draining → race.queue.closed = true
  kept : race.ending.hasReturned = false → race.discarded = []
  counted : ∀ n, race.ending = .returned n → race.discarded.length = n

theorem sound_start (cache : String) (interval maxBatch grace : Nat) (events : List Event) :
    (start cache interval maxBatch grace events : Race ω).Sound where
  conserved := by simp [start, accepted, Queue.events, batches, handedOver, Push.accepted?]
  closed begun := absurd rfl begun
  draining := nofun
  kept _ := rfl
  counted := nofun

theorem Sound.push (h : race.Sound) (index : Nat) : (race.push index).Sound := by
  obtain ⟨pushes, pushed, same⟩ | ⟨event, pushes, -, pushed, more⟩ := race.push_cases index
  · rw [pushed]
    exact ⟨h.conserved.trans (.of_eq same.symm), h.closed, h.draining, h.kept, h.counted⟩
  · rw [pushed]
    refine ⟨?_, h.closed, h.draining, h.kept, h.counted⟩
    rw [events_append]
    calc
      List.Perm (race.queue.events ++ [event] ++ race.discarded)
          (race.queue.events ++ race.discarded ++ [event]) := perm_append_right_comm ..
      List.Perm _ (race.accepted ++ [event]) := h.conserved.append_right [event]
      List.Perm _ (pushes.filterMap Push.accepted?) := more.symm

theorem Sound.flush (h : race.Sound) : (race.flush sink).Sound := by
  obtain ⟨queue, place, flushed, acted, drains⟩ := flush_cases sink h.draining
  obtain ⟨events, closed⟩ :
      queue.events = race.queue.events ∧ queue.closed = race.queue.closed := by
    rcases acted with rfl | acted
    · exact ⟨rfl, rfl⟩
    · exact ⟨acted.events, acted.setup.2.2.1⟩
  rw [flushed]
  exact ⟨events ▸ h.conserved, closed ▸ h.closed, fun here => closed ▸ h.draining (drains here),
    h.kept, h.counted⟩

theorem Sound.resume (h : race.Sound) (reason : Reason) : (race.resume reason).Sound := by
  obtain ⟨place, woken, resumed, drains⟩ := race.resume_cases reason
  rw [resumed]
  refine ⟨h.conserved, h.closed, fun here => ?_, h.kept, h.counted⟩
  rcases drains here with before | signalled
  · exact h.draining before
  · exact h.closed fun ahead => by simp [ahead, Ending.hasSignalled] at signalled

theorem Sound.halt (h : race.Sound) : race.halt.Sound := by
  rcases race.halt_cases with still | ⟨-, halted⟩
  · rwa [still]
  · rw [halted]
    exact ⟨h.conserved, h.closed, h.draining, h.kept, h.counted⟩

theorem Sound.proceed (h : race.Sound) (closed : race.queue.closed = true)
    (unreturned : race.ending.hasReturned = false) {ending : Ending}
    (still : ending.hasReturned = false) : { race with ending }.Sound := by
  refine ⟨h.conserved, fun _ => closed, h.draining, fun _ => h.kept unreturned,
    fun n returned => ?_⟩
  simp [show ending = .returned n from returned, Ending.hasReturned] at still

theorem Sound.shutdown (h : race.Sound) : race.shutdown.Sound := by
  unfold Race.shutdown
  split
  next ahead =>
    have kept : race.discarded = [] := h.kept (by simp [ahead, Ending.hasReturned])
    exact ⟨h.conserved, fun _ => rfl, fun _ => rfl, fun _ => kept, nofun⟩
  next closed =>
    exact h.proceed (h.closed (by simp [closed])) (by simp [closed, Ending.hasReturned]) rfl
  next waiting =>
    have closed : race.queue.closed = true := h.closed (by simp [waiting])
    have unreturned : race.ending.hasReturned = false := by simp [waiting, Ending.hasReturned]
    split
    · refine ⟨h.conserved, fun _ => closed, h.draining, nofun, fun n returned => ?_⟩
      cases returned
      exact congrArg List.length (h.kept unreturned)
    · exact h.proceed closed unreturned rfl
    · split
      · exact h.proceed closed unreturned rfl
      · exact h
  next discarding =>
    have closed : race.queue.closed = true := h.closed (by simp [discarding])
    have kept : race.discarded = [] := h.kept (by simp [discarding, Ending.hasReturned])
    refine ⟨?_, fun _ => closed, h.draining, nofun, fun n returned => ?_⟩
    · have conserved := h.conserved
      rw [kept, List.append_nil] at conserved
      change ((race.sent ++ []) ++ race.queue.pending).Perm race.accepted
      rwa [List.append_nil]
    · cases returned
      rfl
  next => exact h

theorem Sound.step (h : race.Sound) (step : Step) : (race.step sink step).Sound := by
  cases step with
  | push index => exact h.push index
  | flush => exact h.flush
  | resume reason => exact h.resume reason
  | halt => exact h.halt
  | shutdown => exact h.shutdown
  | pass milliseconds => exact ⟨h.conserved, h.closed, h.draining, h.kept, h.counted⟩

theorem Sound.run (h : race.Sound) (steps : List Step) : (race.run sink steps).Sound := by
  induction steps generalizing race with
  | nil => exact h
  | cons step steps ih => exact ih (h.step step)

/-! ## Late pushes -/

theorem IsOver.exists_drained (isOver : race.IsOver)
    (unreturned : race.ending.hasReturned = false) :
    ∃ time, race.queue.stage = .drained time :=
  isOver.resolve_right (by simp [unreturned])

/-- When the queue is over, it has been so before, or nothing waits in it. -/
theorem over_step (h : race.Sound) (step : Step) (isOver : (race.step sink step).IsOver) :
    race.IsOver ∨ (race.step sink step).queue.pending = [] := by
  cases step with
  | push index =>
    left
    obtain ⟨pushes, pushed, -⟩ | ⟨event, pushes, -, pushed, -⟩ := race.push_cases index
    · rwa [Race.step, pushed] at isOver
    · rwa [Race.step, pushed] at isOver
  | flush =>
    obtain ⟨queue, place, flushed, acted, -⟩ := flush_cases sink h.draining
    rw [Race.step, flushed] at isOver ⊢
    rcases isOver with ⟨time, drained⟩ | returned
    -- the flusher stops only when it finds nothing
    · rcases acted with rfl | acted
      · exact .inl (.inl ⟨time, drained⟩)
      · cases acted with
        | drain _ _ empty => exact .inr empty
        | begin | breakDown | goOn | finish => cases drained
    · exact .inl (.inr returned)
  | resume reason =>
    left
    obtain ⟨place, woken, resumed, -⟩ := race.resume_cases reason
    rwa [Race.step, resumed] at isOver
  | halt =>
    left
    rcases race.halt_cases with still | ⟨-, halted⟩
    · rwa [Race.step, still] at isOver
    · rw [Race.step, halted] at isOver
      exact .inr (isOver.resolve_left nofun)
  | shutdown =>
    revert isOver
    rw [Race.step]
    unfold Race.shutdown
    split
    · exact fun isOver => .inl (.inl (isOver.exists_drained rfl))
    · exact fun isOver => .inl (.inl (isOver.exists_drained rfl))
    · split
      next drained => exact fun _ => .inl (.inl ⟨_, drained⟩)
      · exact fun isOver => .inl (.inl (isOver.exists_drained rfl))
      · split
        · exact fun isOver => .inl (.inl (isOver.exists_drained rfl))
        · exact .inl
    · exact fun _ => .inr rfl
    · exact .inl
  | pass milliseconds => exact .inl isOver

theorem mem_pending_step (h : race.Sound) {step : Step}
    (waits : event ∈ (race.step sink step).queue.pending) :
    event ∈ race.queue.pending ∨
      ∃ index, step = .push index ∧ race.pushes[index]? = some (.admitted event) := by
  cases step with
  | push index =>
    obtain ⟨pushes, pushed, -⟩ | ⟨other, pushes, known, pushed, -⟩ := race.push_cases index
    · rw [Race.step, pushed] at waits
      exact .inl waits
    · rw [Race.step, pushed] at waits
      rcases List.mem_append.1 waits with waits | waits
      · exact .inl waits
      · obtain rfl := List.mem_singleton.1 waits
        exact .inr ⟨index, rfl, known⟩
  | flush =>
    obtain ⟨queue, place, flushed, acted, -⟩ := flush_cases sink h.draining
    rw [Race.step, flushed] at waits
    rcases acted with rfl | acted
    · exact .inl waits
    · exact .inl (acted.pending_suffix.subset waits)
  | resume reason =>
    obtain ⟨place, woken, resumed, -⟩ := race.resume_cases reason
    rw [Race.step, resumed] at waits
    exact .inl waits
  | halt =>
    rcases race.halt_cases with still | ⟨-, halted⟩
    · rw [Race.step, still] at waits
      exact .inl waits
    · rw [Race.step, halted] at waits
      exact .inl waits
  | shutdown =>
    left
    revert waits
    rw [Race.step]
    unfold Race.shutdown
    split
    · exact id
    · exact id
    · split
      · exact id
      · exact id
      · split <;> exact id
    · exact nofun
    · exact id
  | pass milliseconds => exact .inl waits

/-- Some push has looked while the queue was open and appends the event when it is over. -/
def AppendsLate (sink : Sink ω) (race : Race ω) (steps : List Step) (event : Event) : Prop :=
  ∃ before index after, steps = before ++ .push index :: after ∧
    (race.run sink before).IsOver ∧
    (race.run sink before).pushes[index]? = some (.admitted event)

theorem AppendsLate.concat {steps : List Step} (late : race.AppendsLate sink steps event)
    (step : Step) : race.AppendsLate sink (steps ++ [step]) event := by
  obtain ⟨before, index, after, rfl, isOver, known⟩ := late
  exact ⟨before, index, after ++ [step], by simp, isOver, known⟩

theorem appendsLate_of_isOver (h : race.Sound) (steps : List Step) (begun : ¬ race.IsOver)
    (isOver : (race.run sink steps).IsOver) (waits : event ∈ (race.run sink steps).queue.pending) :
    race.AppendsLate sink steps event := by
  induction steps using List.reverseRecOn with
  | nil => exact absurd isOver begun
  | append_singleton steps step ih =>
    have sound : (race.run sink steps).Sound := h.run steps
    rw [run_concat] at isOver waits
    rcases over_step sound step isOver with before | empty
    · rcases mem_pending_step sound waits with waited | ⟨index, rfl, known⟩
      · exact (ih before waited).concat step
      · exact ⟨steps, index, [], rfl, before, known⟩
    · rw [empty] at waits
      cases waits

/-! ## The end -/

/-- The pushes and the shutdown have returned, and the flusher acts no more. -/
structure IsDone (race : Race ω) : Prop where
  pushes : ∀ push ∈ race.pushes, push.hasReturned = true
  ending : race.ending.hasReturned = true
  stage : race.queue.stage.isActive = false

theorem push_of_hasReturned (returned : ∀ push ∈ race.pushes, push.hasReturned = true)
    (index : Nat) : race.push index = race := by
  unfold push
  split
  next known => exact absurd (returned _ (List.mem_of_getElem? known)) (by simp [Push.hasReturned])
  next known => exact absurd (returned _ (List.mem_of_getElem? known)) (by simp [Push.hasReturned])
  next => rfl

theorem IsDone.flush (h : race.IsDone) : race.flush sink = race := by
  have inactive := h.stage
  unfold Race.flush
  split
  next busy => simp [busy, Stage.isActive] at inactive
  next idle _ => simp [idle, Stage.isActive] at inactive
  next idle _ => simp [idle, Stage.isActive] at inactive
  next idle _ => simp [idle, Stage.isActive] at inactive
  next => rfl

theorem IsDone.resume (h : race.IsDone) (reason : Reason) : race.resume reason = race := by
  have inactive := h.stage
  unfold Race.resume
  split
  next idle _ => simp [idle, Stage.isActive] at inactive
  next idle _ => simp [idle, Stage.isActive] at inactive
  next idle _ => simp [idle, Stage.isActive] at inactive
  next => rfl

theorem IsDone.shutdown (h : race.IsDone) : race.shutdown = race := by
  have returned := h.ending
  unfold Race.shutdown
  split
  next ahead => cases ahead ▸ returned
  next closed => cases closed ▸ returned
  next waiting => cases waiting ▸ returned
  next discarding => cases discarding ▸ returned
  next => rfl

theorem IsDone.step (h : race.IsDone) (sink : Sink ω) (step : Step) :
    ∃ now, race.step sink step = { race with now } := by
  cases step with
  | push index => exact ⟨race.now, push_of_hasReturned h.pushes index⟩
  | flush => exact ⟨race.now, h.flush⟩
  | resume reason => exact ⟨race.now, h.resume reason⟩
  | halt =>
    exact ⟨race.now, race.halt_cases.resolve_right fun halted => by simp [h.stage] at halted⟩
  | shutdown => exact ⟨race.now, h.shutdown⟩
  | pass milliseconds => exact ⟨_, rfl⟩

theorem IsDone.run (h : race.IsDone) (steps : List Step) :
    ∃ now, race.run sink steps = { race with now } := by
  induction steps generalizing race with
  | nil => exact ⟨race.now, rfl⟩
  | cons step steps ih =>
    obtain ⟨now, same⟩ := h.step sink step
    obtain ⟨later, still⟩ := @ih (race.step sink step) (same ▸ ⟨h.pushes, h.ending, h.stage⟩)
    exact ⟨later, still.trans (by rw [same])⟩

/-- When the shutdown and all pushes have returned, every accepted event is in exactly one batch, is
one of those that the shutdown counted, or waits. One that waits was appended late, by a push that
had found the queue open. Nothing waits if and only if the batches and the discarded events are all
that were accepted, and once the flusher acts no more, what waits stays where it is. -/
theorem only_late_pushes_are_lost (sink : Sink ω) (cache : String) (interval maxBatch grace : Nat)
    (events : List Event) (steps : List Step) (n : Nat) :
    let begun := start cache interval maxBatch grace events
    let race := begun.run sink steps
    race.ending = .returned n → (∀ push ∈ race.pushes, push.hasReturned = true) →
    race.discarded.length = n ∧
    (race.sent ++ race.discarded ++ race.queue.pending).Perm race.accepted ∧
    (∀ event ∈ race.queue.pending, begun.AppendsLate sink steps event) ∧
    ((race.sent ++ race.discarded).Perm race.accepted ↔ race.queue.pending = []) ∧
    (race.queue.stage.isActive = false →
      ∀ more, ∃ now, race.run sink more = { race with now }) := by
  intro begun race ended returned
  have soundBegun : begun.Sound := sound_start cache interval maxBatch grace events
  have sound : race.Sound := soundBegun.run steps
  have isOver : race.ending.hasReturned = true := by rw [ended]; rfl
  have accounted : (race.sent ++ race.discarded ++ race.queue.pending).Perm race.accepted :=
    (perm_append_right_comm ..).trans sound.conserved
  refine ⟨sound.counted n ended, accounted, fun event waits => ?_,
    ⟨fun claimed => ?_, fun empty => ?_⟩, fun stopped => IsDone.run ⟨returned, isOver, stopped⟩⟩
  · exact appendsLate_of_isOver soundBegun steps
      (by simp [begun, IsOver, start, Ending.hasReturned]) (.inr isOver) waits
  · have same := accounted.length_eq.trans claimed.length_eq.symm
    rw [List.length_append] at same
    exact List.length_eq_zero_iff.1 (by omega)
  · rwa [empty, List.append_nil] at accounted

/-- A push looks; the queue is closed, drained and found to be empty; the push appends. -/
def overtaking : List Step :=
  [.push 0, .flush, .shutdown, .shutdown, .resume .shutdown, .flush, .shutdown, .push 0]

def overtaken : Race Nat :=
  (start "c" 10 2 1000 [.remove "c" "a"]).run (.steady 5 none) overtaking

/-- The event of that push is in no batch and is not counted, and it stays where it is. -/
theorem drained_before_append :
    overtaken.ending = .returned 0 ∧ (∀ push ∈ overtaken.pushes, push.hasReturned = true) ∧
    overtaken.accepted = [.remove "c" "a"] ∧ overtaken.sent = [] ∧ overtaken.discarded = [] ∧
    ¬ (overtaken.sent ++ overtaken.discarded).Perm overtaken.accepted ∧
    (overtaken.run (.steady 5 none) [.pass 1000, .flush]).queue.pending = [.remove "c" "a"] := by
  have ended : overtaken.ending = .returned 0 := rfl
  have returned : ∀ push ∈ overtaken.pushes, push.hasReturned = true := by decide
  have left : overtaken.queue.pending = [.remove "c" "a"] := rfl
  obtain ⟨-, -, -, complete, still⟩ := only_late_pushes_are_lost (.steady 5 none) "c" 10 2 1000
    [.remove "c" "a"] overtaking 0 ended returned
  obtain ⟨now, same⟩ := still rfl [.pass 1000, .flush]
  refine ⟨ended, returned, rfl, rfl, rfl, fun claimed => ?_, ?_⟩
  · exact List.cons_ne_nil _ _ (left.symm.trans (complete.1 claimed))
  · exact (congrArg (fun later => later.queue.pending) same).trans left

end Race

end Queue

end CacheCluster
