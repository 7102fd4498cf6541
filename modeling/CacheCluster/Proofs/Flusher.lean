import Mathlib.Data.Nat.Basic
import Mathlib.Order.Basic
import CacheCluster.Replication.Queue

/-! # What the flusher does to a queue

An act of the flusher is one of five things. Whatever each of them keeps is kept while a queue runs:
the events handed over with those that wait are the same events in the same order, and the batches
are of the right size and one after the other.
-/

namespace CacheCluster

variable {ω : Type}

/-- The transmission that a stage is busy with. -/
def Stage.underWay : Stage ω → List (Flush ω)
  | .busy start batch work => [⟨start, batch, some work, none⟩]
  | _ => []

/-- Whether the flusher goes on. -/
def Stage.isActive {ω : Type} : Stage ω → Bool
  | .idle | .busy _ _ _ => true
  | _ => false

namespace Queue

variable {sink : Sink ω} {now time limit : Nat} {queue after : Queue ω}

/-! ## Acts -/

/-- What an act at `time` makes of a queue. -/
inductive Acted (sink : Sink ω) (time : Nat) (queue : Queue ω) : Queue ω → Prop
  | drain (idle : queue.stage = .idle) (closed : queue.closed = true) (empty : queue.pending = []) :
    Acted sink time queue { queue with stage := .drained time }
  | begin {work : ω} (idle : queue.stage = .idle) (waiting : queue.pending ≠ [])
      (started : sink.start time ⟨queue.cache, queue.nextEvents⟩ = some work) :
    Acted sink time queue
      { queue.afterTake with stage := .busy time ⟨queue.cache, queue.nextEvents⟩ work }
  | breakDown (idle : queue.stage = .idle) (waiting : queue.pending ≠ [])
      (failed : sink.start time ⟨queue.cache, queue.nextEvents⟩ = none) :
    Acted sink time queue
      { queue.afterTake with
        stage := .broken time
        flushes := queue.flushes ++ [⟨time, ⟨queue.cache, queue.nextEvents⟩, none, none⟩] }
  | goOn {start : Nat} {batch : Batch} {work work' : ω}
      (busy : queue.stage = .busy start batch work) (due : sink.due work ≤ time)
      (next : sink.next time work = some work') :
    Acted sink time queue { queue with stage := .busy start batch work' }
  | finish {start : Nat} {batch : Batch} {work : ω}
      (busy : queue.stage = .busy start batch work) (due : sink.due work ≤ time)
      (noMore : sink.next time work = none) :
    Acted sink time queue
      { queue with
        stage := .idle, flushes := queue.flushes ++ [⟨start, batch, some work, some time⟩] }

theorem fullSize_pos (queue : Queue ω) : 0 < queue.fullSize := by
  unfold fullSize
  omega

theorem nextEvents_eq_nil_iff : queue.nextEvents = [] ↔ queue.pending = [] := by
  simp [nextEvents, (fullSize_pos queue).ne']

/-- An idle flusher acts for want of events only when the queue is closed. -/
theorem closed_of_nextAct? (h : queue.nextAct? sink now = some time) (idle : queue.stage = .idle)
    (empty : queue.pending = []) : queue.closed = true := by
  have h : queue.closed = true ∧ now = time := by
    simpa [nextAct?, idle, empty, (fullSize_pos queue).ne'] using h
  exact h.1

theorem acted_handOver (idle : queue.stage = .idle)
    (ends : queue.pending = [] → queue.closed = true)
    (metrics : Metrics) : Acted sink time queue (queue.handOver sink time metrics).1 := by
  unfold handOver
  split
  next none_left =>
    have empty := nextEvents_eq_nil_iff.1 none_left
    exact .drain idle (ends empty) empty
  next some_left =>
    have waiting : queue.pending ≠ [] := fun h => some_left (nextEvents_eq_nil_iff.2 h)
    dsimp only
    split
    next started => exact .begin idle waiting started
    next failed => exact .breakDown idle waiting failed

theorem acted_goOn {start : Nat} {batch : Batch} {work : ω}
    (busy : queue.stage = .busy start batch work) (due : sink.due work ≤ time)
    (metrics : Metrics) :
    Acted sink time queue (queue.goOn sink time start batch work metrics).1 := by
  unfold goOn
  split
  next next => exact .goOn busy due next
  next noMore => exact .finish busy due noMore

theorem acted_act (h : queue.nextAct? sink now = some time) (metrics : Metrics) :
    Acted sink time queue (queue.act sink time metrics).1 := by
  rcases stage : queue.stage with _ | ⟨start, batch, work⟩ | _ | _ | _
  · simp only [act, stage]
    exact acted_handOver stage (closed_of_nextAct? h stage) metrics
  · simp only [nextAct?, stage, Option.some.injEq] at h
    simp only [act, stage]
    exact acted_goOn stage (by omega) metrics
  all_goals simp [nextAct?, stage] at h

theorem le_of_nextAct? (h : queue.nextAct? sink now = some time) : now ≤ time := by
  unfold nextAct? at h
  split at h
  · split at h
    · simp_all
    · split at h
      · simp at h
      · simp only [Option.some.injEq] at h; omega
  · simp only [Option.some.injEq] at h; omega
  · simp at h

theorem acts_of_none (next : queue.nextAct? sink now = none) (metrics : Metrics) :
    queue.acts sink now limit metrics = (queue, metrics) := by
  rw [acts]
  split
  · rfl
  next _ other => simp [next] at other

theorem acts_of_due (next : queue.nextAct? sink now = some time) (due : time ≤ limit)
    (metrics : Metrics) :
    queue.acts sink now limit metrics =
      (queue.act sink time metrics).1.acts sink time limit (queue.act sink time metrics).2 := by
  rw [acts]
  split
  next other => simp [next] at other
  next other =>
    obtain rfl : time = _ := Option.some.inj (next.symm.trans other)
    exact if_pos due

theorem acts_of_not_due (next : queue.nextAct? sink now = some time) (notDue : ¬ time ≤ limit)
    (metrics : Metrics) :
    queue.acts sink now limit metrics = (queue, metrics) := by
  rw [acts]
  split
  · rfl
  next other =>
    obtain rfl : time = _ := Option.some.inj (next.symm.trans other)
    exact if_neg notDue

/-- What every act keeps when it is due, and the passing of time as well, holds at the end of a run
of acts. -/
theorem acts_induction (sink : Sink ω) (limit : Nat) {I : Nat → Queue ω → Prop}
    (later : ∀ {now later queue}, now ≤ later → I now queue → I later queue)
    (act : ∀ {now time queue after}, I now queue → queue.nextAct? sink now = some time →
      time ≤ limit → Acted sink time queue after → I time after)
    (metrics : Metrics) (le : now ≤ limit) (inv : I now queue) :
    I limit (queue.acts sink now limit metrics).1 := by
  induction now, queue, metrics using acts.induct sink limit with
  | case1 now queue metrics none =>
    rw [acts_of_none none]
    exact later le inv
  | case2 now queue metrics time next due ih =>
    rw [acts_of_due next due]
    exact ih due (act inv next due (acted_act next metrics))
  | case3 now queue metrics time next notDue =>
    rw [acts_of_not_due next notDue]
    exact later le inv

theorem run_induction (sink : Sink ω) (limit : Nat) {I : Nat → Queue ω → Prop}
    (later : ∀ {now later queue}, now ≤ later → I now queue → I later queue)
    (act : ∀ {now time queue after}, I now queue → queue.nextAct? sink now = some time →
      time ≤ limit → Acted sink time queue after → I time after)
    (seen : ∀ {queue}, I limit queue → I limit { queue with seen := limit })
    (metrics : Metrics) (le : now ≤ limit) (inv : I now queue) :
    I limit (queue.run sink now limit metrics).1 := by
  unfold run
  split
  · exact later le inv
  · exact seen (acts_induction sink limit (I := I) later act metrics le inv)

/-- What every act keeps, due or not, and the passing of time as well, holds at the end of a run of
acts. -/
theorem acts_preserves (sink : Sink ω) (limit : Nat) {I : Nat → Queue ω → Prop}
    (later : ∀ {now later queue}, now ≤ later → I now queue → I later queue)
    (act : ∀ {now time queue after}, I now queue → now ≤ time → time ≤ limit →
      Acted sink time queue after → I time after)
    (metrics : Metrics) (le : now ≤ limit) (inv : I now queue) :
    I limit (queue.acts sink now limit metrics).1 :=
  acts_induction sink limit (I := I) later (fun inv next => act inv (le_of_nextAct? next)) metrics
    le inv

theorem run_preserves (sink : Sink ω) (limit : Nat) {I : Nat → Queue ω → Prop}
    (later : ∀ {now later queue}, now ≤ later → I now queue → I later queue)
    (act : ∀ {now time queue after}, I now queue → now ≤ time → time ≤ limit →
      Acted sink time queue after → I time after)
    (seen : ∀ {queue}, I limit queue → I limit { queue with seen := limit })
    (metrics : Metrics) (le : now ≤ limit) (inv : I now queue) :
    I limit (queue.run sink now limit metrics).1 :=
  run_induction sink limit (I := I) later (fun inv next => act inv (le_of_nextAct? next)) seen
    metrics le inv

/-! ## The events of a queue -/

theorem handedOver_eq (queue : Queue ω) :
    queue.handedOver = queue.flushes ++ queue.stage.underWay := by
  unfold handedOver
  split
  next busy => rw [busy]; rfl
  next other =>
    rcases stage : queue.stage with _ | ⟨start, batch, work⟩ | _ | _ | _
    · simp [Stage.underWay]
    · exact absurd stage (other start batch work)
    all_goals simp [Stage.underWay]

/-- The batches handed over, in order. -/
def batches (queue : Queue ω) : List Batch :=
  queue.handedOver.map (·.batch)

/-- The events handed over, and behind them those that wait. -/
def events (queue : Queue ω) : List Event :=
  queue.batches.flatMap (·.events) ++ queue.pending

theorem Acted.events (h : Acted sink time queue after) : after.events = queue.events := by
  cases h with
  | drain idle => simp [Queue.events, batches, handedOver_eq, idle, Stage.underWay]
  | begin idle =>
    simp [Queue.events, batches, handedOver_eq, idle, Stage.underWay, afterTake, nextEvents]
  | breakDown idle =>
    simp [Queue.events, batches, handedOver_eq, idle, Stage.underWay, afterTake, nextEvents]
  | goOn busy => simp [Queue.events, batches, handedOver_eq, busy, Stage.underWay]
  | finish busy => simp [Queue.events, batches, handedOver_eq, busy, Stage.underWay]

theorem Acted.pending_suffix (h : Acted sink time queue after) :
    after.pending <:+ queue.pending := by
  cases h with
  | begin | breakDown => exact List.drop_suffix _ _
  | drain | goOn | finish => exact List.suffix_rfl

/-- An act changes nothing of how a queue was set up or closed. -/
theorem Acted.setup (h : Acted sink time queue after) :
    after.cache = queue.cache ∧ after.fullSize = queue.fullSize ∧ after.closed = queue.closed ∧
      after.seen = queue.seen := by
  cases h <;> exact ⟨rfl, rfl, rfl, rfl⟩

/-- A batch once handed over stays where it is. -/
theorem Acted.batches_grow (h : Acted sink time queue after) :
    queue.batches <+: after.batches := by
  cases h with
  | drain idle => simp [batches, handedOver_eq, idle, Stage.underWay]
  | begin idle => simp [batches, handedOver_eq, idle, Stage.underWay, afterTake]
  | breakDown idle => simp [batches, handedOver_eq, idle, Stage.underWay, afterTake]
  | goOn busy => simp [batches, handedOver_eq, busy, Stage.underWay]
  | finish busy => simp [batches, handedOver_eq, busy, Stage.underWay]

/-- Time moves events from those that wait to those handed over, and nothing else. -/
theorem run_keeps (le : now ≤ limit) (metrics : Metrics) :
    let ran := (queue.run sink now limit metrics).1
    ran.events = queue.events ∧ ran.cache = queue.cache ∧ ran.closed = queue.closed := by
  refine run_preserves sink limit
    (I := fun _ ran => ran.events = queue.events ∧ ran.cache = queue.cache ∧
      ran.closed = queue.closed) (fun _ h => h) ?_ (fun h => h) metrics le ⟨rfl, rfl, rfl⟩
  rintro _ _ _ _ ⟨events, cache, closed⟩ _ _ acted
  exact ⟨acted.events.trans events, acted.setup.1.trans cache, acted.setup.2.2.1.trans closed⟩

theorem seen_run (seen : queue.seen ≤ limit) (metrics : Metrics) :
    (queue.run sink now limit metrics).1.seen ≤ limit := by
  unfold run
  split
  · exact seen
  · exact le_rfl

/-! ## The order of transmissions -/

/-- Transmissions are over before the next one starts, and only the last can have no end. -/
structure Tidy (now : Nat) (queue : Queue ω) : Prop where
  started : ∀ flush ∈ queue.handedOver, flush.start ≤ now
  finished : ∀ flush ∈ queue.handedOver, ∀ finish ∈ flush.finish,
    flush.start ≤ finish ∧ finish ≤ now
  apart : queue.handedOver.Pairwise fun flush next => ∃ finish ∈ flush.finish, finish ≤ next.start
  ended : (∀ time, queue.stage ≠ .broken time) → queue.stage ≠ .stopped →
    ∀ flush ∈ queue.flushes, flush.finish.isSome
  drained : ∀ time, queue.stage = .drained time → queue.closed = true ∧ queue.pending = []

theorem Tidy.later (le : now ≤ time) (h : Tidy now queue) : Tidy time queue where
  started flush mem := (h.started flush mem).trans le
  finished flush mem finish hf :=
    ⟨(h.finished flush mem finish hf).1, (h.finished flush mem finish hf).2.trans le⟩
  apart := h.apart
  ended := h.ended
  drained := h.drained

theorem Tidy.see (h : Tidy now queue) (seen : Nat) : Tidy now { queue with seen } where
  started := h.started
  finished := h.finished
  apart := h.apart
  ended := h.ended
  drained := h.drained

/-- A transmission that starts now comes behind all others, when none is under way. -/
theorem Tidy.begin (h : Tidy now queue) (le : now ≤ time) (idle : queue.stage = .idle)
    (batch : Batch) (work : Option ω) (stage : Stage ω) (flushes : List (Flush ω))
    (same : flushes ++ stage.underWay = queue.handedOver ++ [⟨time, batch, work, none⟩])
    (kept : (∀ time, stage ≠ .broken time) → flushes = queue.flushes)
    (busy : ∀ time, stage ≠ .drained time) :
    Tidy time { queue.afterTake with stage, flushes } := by
  have ended : ∀ flush ∈ queue.handedOver, flush.finish.isSome := by
    have := h.ended (by simp [idle]) (by simp [idle])
    simpa [handedOver_eq, idle, Stage.underWay] using this
  constructor
  · intro flush mem
    rw [handedOver_eq, same, List.mem_append, List.mem_singleton] at mem
    rcases mem with mem | rfl
    · exact (h.started flush mem).trans le
    · exact le_rfl
  · intro flush mem finish hf
    rw [handedOver_eq, same, List.mem_append, List.mem_singleton] at mem
    rcases mem with mem | rfl
    · exact ⟨(h.finished flush mem finish hf).1, (h.finished flush mem finish hf).2.trans le⟩
    · simp at hf
  · rw [handedOver_eq, same, List.pairwise_append]
    refine ⟨h.apart, List.pairwise_singleton _ _, ?_⟩
    intro flush mem next hn
    rw [List.mem_singleton] at hn
    subst hn
    obtain ⟨finish, hf⟩ := Option.isSome_iff_exists.1 (ended flush mem)
    exact ⟨finish, hf, (h.finished flush mem finish hf).2.trans le⟩
  · intro notBroken _ flush mem
    rw [kept notBroken] at mem
    exact ended flush (by rw [handedOver_eq]; exact List.mem_append_left _ mem)
  · intro t ht
    exact absurd ht (busy t)

/-- A transmission that goes on or ends stays in its place. -/
theorem Tidy.progress (h : Tidy now queue) (le : now ≤ time) {start : Nat} {batch : Batch}
    {work : ω} (busy : queue.stage = .busy start batch work) (stage : Stage ω)
    (flushes : List (Flush ω)) (flush : Flush ω)
    (same : flushes ++ stage.underWay = queue.flushes ++ [flush]) (starts : flush.start = start)
    (ends : ∀ finish ∈ flush.finish, finish = time)
    (kept : ∀ flush ∈ flushes, flush ∈ queue.flushes ∨ flush.finish.isSome)
    (notDrained : ∀ time, stage ≠ .drained time) :
    Tidy time { queue with stage, flushes } := by
  have before : queue.handedOver = queue.flushes ++ [⟨start, batch, some work, none⟩] := by
    rw [handedOver_eq, busy]; rfl
  have began : start ≤ now := h.started ⟨start, batch, some work, none⟩ (by simp [before])
  have old : ∀ flush ∈ queue.flushes, flush ∈ queue.handedOver := fun flush mem => by
    rw [before]; exact List.mem_append_left _ mem
  constructor
  · intro other mem
    rw [handedOver_eq, same, List.mem_append, List.mem_singleton] at mem
    rcases mem with mem | rfl
    · exact (h.started other (old other mem)).trans le
    · exact starts ▸ began.trans le
  · intro other mem finish hf
    rw [handedOver_eq, same, List.mem_append, List.mem_singleton] at mem
    rcases mem with mem | rfl
    · have := h.finished other (old other mem) finish hf
      exact ⟨this.1, this.2.trans le⟩
    · rw [ends finish hf, starts]
      exact ⟨began.trans le, le_rfl⟩
  · have apart := h.apart
    rw [before, List.pairwise_append] at apart
    rw [handedOver_eq, same, List.pairwise_append]
    refine ⟨apart.1, List.pairwise_singleton _ _, ?_⟩
    intro other mem next hn
    rw [List.mem_singleton] at hn
    subst hn
    rw [starts]
    exact apart.2.2 other mem ⟨start, batch, some work, none⟩ List.mem_cons_self
  · intro _ _ other mem
    rcases kept other mem with mem | isOver
    · exact h.ended (by simp [busy]) (by simp [busy]) other mem
    · exact isOver
  · intro t ht
    exact absurd ht (notDrained t)

theorem Tidy.act (h : Tidy now queue) (le : now ≤ time) (acted : Acted sink time queue after) :
    Tidy time after := by
  cases acted with
  | drain idle closed empty =>
    have same : Queue.handedOver { queue with stage := .drained time } = queue.handedOver := by
      simp [handedOver_eq, idle, Stage.underWay]
    have h := h.later le
    exact ⟨same ▸ h.started, same ▸ h.finished, same ▸ h.apart,
      fun _ _ => h.ended (by simp [idle]) (by simp [idle]), fun _ _ => ⟨closed, empty⟩⟩
  | @begin work idle =>
    refine h.begin le idle ⟨queue.cache, queue.nextEvents⟩ work _ _ ?_ (fun _ => rfl) (by simp)
    simp [handedOver_eq, idle, Stage.underWay, afterTake]
  | breakDown idle =>
    refine h.begin le idle ⟨queue.cache, queue.nextEvents⟩ none _ _ ?_
      (fun notBroken => absurd rfl (notBroken time)) (by simp)
    simp [handedOver_eq, idle, Stage.underWay]
  | goOn busy =>
    exact h.progress le busy _ _ _ rfl rfl (by simp) (fun _ mem => .inl mem) (by simp)
  | finish busy =>
    refine h.progress le busy _ _ _ (by simp [Stage.underWay]; rfl) rfl (by simp) ?_ (by simp)
    intro flush mem
    rw [List.mem_append, List.mem_singleton] at mem
    exact mem.imp id fun same => by simp [same]

/-! ## Events in -/

@[simp] theorem handedOver_append (queue : Queue ω) (now : Nat) (event : Event) :
    (queue.append now event).handedOver = queue.handedOver := rfl

@[simp] theorem events_append (queue : Queue ω) (now : Nat) (event : Event) :
    (queue.append now event).events = queue.events ++ [event] :=
  (List.append_assoc ..).symm

theorem Tidy.append (h : Tidy now queue) (isOpen : queue.closed = false) (event : Event) :
    Tidy now (queue.append time event) where
  started := h.started
  finished := h.finished
  apart := h.apart
  ended := h.ended
  drained t drained := by simp [(h.drained t drained).1] at isOpen

/-! ## What holds of every transmission -/

/-- Each transmission, told by its place, satisfies a predicate. -/
def Each (Holds : Nat → Flush ω → Prop) (queue : Queue ω) : Prop :=
  ∀ i flush, queue.handedOver[i]? = some flush → Holds i flush

theorem each_iff_forall_mem {Holds : Flush ω → Prop} :
    queue.Each (fun _ => Holds) ↔ ∀ flush ∈ queue.handedOver, Holds flush := by
  constructor
  · intro each flush mem
    obtain ⟨i, hi⟩ := List.mem_iff_getElem?.1 mem
    exact each i flush hi
  · exact fun all i flush hi => all flush (List.mem_of_getElem? hi)

/-- A predicate that a sink makes true of each new transmission from the place `first` on, and keeps
true of each one under way. -/
structure Maintains (sink : Sink ω) (cache : String) (size first : Nat)
    (Holds : Nat → Flush ω → Prop) : Prop where
  begin : ∀ {i time events work}, first ≤ i → events ≠ [] → events.length ≤ size →
    sink.start time ⟨cache, events⟩ = some work → Holds i ⟨time, ⟨cache, events⟩, some work, none⟩
  breakDown : ∀ {i time events}, first ≤ i → events ≠ [] → events.length ≤ size →
    sink.start time ⟨cache, events⟩ = none → Holds i ⟨time, ⟨cache, events⟩, none, none⟩
  goOn : ∀ {i start batch work work' time}, Holds i ⟨start, batch, some work, none⟩ →
    sink.due work ≤ time → sink.next time work = some work' →
    Holds i ⟨start, batch, some work', none⟩
  finish : ∀ {i start batch work time}, Holds i ⟨start, batch, some work, none⟩ →
    sink.due work ≤ time → sink.next time work = none →
    Holds i ⟨start, batch, some work, some time⟩

theorem each_append_iff {Holds : Nat → Flush ω → Prop} {flushes : List (Flush ω)}
    {last : Flush ω} :
    (∀ i flush, (flushes ++ [last])[i]? = some flush → Holds i flush) ↔
      (∀ i flush, flushes[i]? = some flush → Holds i flush) ∧ Holds flushes.length last := by
  constructor
  · intro h
    refine ⟨fun i flush hi => h i flush ?_, h _ _ (by simp)⟩
    obtain ⟨lt, _⟩ := List.getElem?_eq_some_iff.1 hi
    rw [List.getElem?_append_left lt, hi]
  · rintro ⟨h, atLast⟩ i flush hi
    rcases Nat.lt_or_ge i flushes.length with lt | ge
    · exact h i flush (by rwa [List.getElem?_append_left lt] at hi)
    · obtain ⟨lt, same⟩ := List.getElem?_eq_some_iff.1 hi
      have : i = flushes.length := by simp at lt; omega
      subst this
      rw [List.getElem_concat_length rfl] at same
      exact same ▸ atLast

theorem Maintains.act {Holds : Nat → Flush ω → Prop} {first : Nat}
    (maintains : Maintains sink queue.cache queue.fullSize first Holds)
    (each : queue.Each Holds) (le : first ≤ queue.handedOver.length)
    (acted : Acted sink time queue after) :
    after.Each Holds ∧ first ≤ after.handedOver.length := by
  have small : queue.nextEvents.length ≤ queue.fullSize := List.length_take_le _ _
  unfold Each at each ⊢
  rw [handedOver_eq] at each le ⊢
  cases acted with
  | drain idle =>
    rw [idle] at each le
    exact ⟨each, le⟩
  | begin idle waiting started =>
    have waiting := mt nextEvents_eq_nil_iff.1 waiting
    rw [idle] at each le
    simp only [Stage.underWay, List.append_nil] at each le ⊢
    refine ⟨each_append_iff.2 ⟨each, maintains.begin le waiting small started⟩, ?_⟩
    exact le.trans (by simp [afterTake])
  | breakDown idle waiting failed =>
    have waiting := mt nextEvents_eq_nil_iff.1 waiting
    rw [idle] at each le
    simp only [Stage.underWay, List.append_nil] at each le ⊢
    refine ⟨each_append_iff.2 ⟨each, maintains.breakDown le waiting small failed⟩, ?_⟩
    exact le.trans (by simp)
  | goOn busy due next =>
    rw [busy] at each le
    obtain ⟨each, last⟩ := each_append_iff.1 each
    refine ⟨each_append_iff.2 ⟨each, maintains.goOn last due next⟩, ?_⟩
    simpa [Stage.underWay] using le
  | finish busy due noMore =>
    rw [busy] at each le
    simp only [Stage.underWay, List.append_nil] at each le ⊢
    obtain ⟨each, last⟩ := each_append_iff.1 each
    refine ⟨each_append_iff.2 ⟨each, maintains.finish last due noMore⟩, ?_⟩
    simpa [Stage.underWay] using le

/-! ## Closing -/

@[simp] theorem handedOver_discard (finish : Nat) (queue : Queue ω) (metrics : Metrics) :
    (queue.discard finish metrics).queue.handedOver = queue.handedOver := rfl

theorem Tidy.discard (h : Tidy now queue) (finish : Nat) (metrics : Metrics) :
    Tidy now (queue.discard finish metrics).queue where
  started := h.started
  finished := h.finished
  apart := h.apart
  ended _ notStopped := absurd rfl notStopped
  drained _ stopped := by simp [Queue.discard] at stopped

/-- A shutdown ends with nothing left, and counts the events that it gave up. -/
theorem conclude_cases (h : Tidy now queue) (began deadline : Nat) (metrics : Metrics) :
    ((∃ finish, queue.stage = .drained finish) ∧ queue.pending = [] ∧
        (queue.conclude began deadline metrics).queue = queue ∧
        (queue.conclude began deadline metrics).discarded = 0) ∨
      ∃ finish, queue.conclude began deadline metrics = queue.discard finish metrics := by
  unfold conclude
  split
  next finish drained => exact .inl ⟨⟨finish, drained⟩, (h.drained finish drained).2, rfl, rfl⟩
  next finish => exact .inr ⟨_, rfl⟩
  next => exact .inr ⟨_, rfl⟩

/-- The times of a shutdown decide only when it ends. -/
theorem conclude_queue {began deadline began' deadline' : Nat} (metrics other : Metrics) :
    (queue.conclude began deadline metrics).queue =
      (queue.conclude began' deadline' other).queue := by
  unfold conclude
  split <;> rfl

theorem conclude_discarded {began deadline began' deadline' : Nat} (metrics other : Metrics) :
    (queue.conclude began deadline metrics).discarded =
      (queue.conclude began' deadline' other).discarded := by
  unfold conclude
  split <;> rfl

theorem conclude_metrics {began deadline began' deadline' : Nat} (metrics : Metrics) :
    (queue.conclude began deadline metrics).metrics =
      (queue.conclude began' deadline' metrics).metrics := by
  unfold conclude
  split <;> rfl

theorem closed_conclude (began deadline : Nat) (metrics : Metrics) :
    (queue.conclude began deadline metrics).queue.closed = queue.closed := by
  unfold conclude
  split <;> rfl

theorem batches_conclude (began deadline : Nat) (metrics : Metrics) :
    (queue.conclude began deadline metrics).queue.batches = queue.batches := by
  unfold conclude
  split <;> rfl

theorem nextAct?_of_stopped (h : queue.stage = .stopped) : queue.nextAct? sink now = none := by
  simp [nextAct?, h]

theorem nextAct?_of_drained (h : queue.stage = .drained time) :
    queue.nextAct? sink now = none := by
  simp [nextAct?, h]

/-! ## Queues that are in use -/

/-- The queue takes events, and its flusher hands them over. -/
structure IsWorking (queue : Queue ω) : Prop where
  isOpen : queue.closed = false
  isActive : queue.stage.isActive = true

theorem IsWorking.append (h : queue.IsWorking) (now : Nat) (event : Event) :
    (queue.append now event).IsWorking :=
  ⟨h.isOpen, h.isActive⟩

/-- What waits in a queue that is in use will be handed over. -/
theorem IsWorking.exists_nextAct? (h : queue.IsWorking) (waiting : queue.pending ≠ [])
    (sink : Sink ω) (now : Nat) : ∃ time, queue.nextAct? sink now = some time := by
  have active := h.isActive
  unfold nextAct?
  split
  · split
    · exact ⟨_, rfl⟩
    · rw [if_neg (by simpa using waiting)]
      exact ⟨_, rfl⟩
  · exact ⟨_, rfl⟩
  next idle busy =>
    unfold Stage.isActive at active
    split at active
    next stage => exact absurd stage idle
    next stage => exact absurd stage (busy _ _ _)
    next => cases active

theorem IsWorking.acted (h : queue.IsWorking) (starts : ∀ time batch, sink.start time batch ≠ none)
    (acted : Acted sink time queue after) : after.IsWorking := by
  cases acted with
  | drain _ closed _ => exact absurd closed (by simp [h.isOpen])
  | begin => exact ⟨h.isOpen, rfl⟩
  | breakDown _ _ failed => exact absurd failed (starts _ _)
  | goOn => exact ⟨h.isOpen, rfl⟩
  | finish => exact ⟨h.isOpen, rfl⟩

theorem IsWorking.run (h : queue.IsWorking) (starts : ∀ time batch, sink.start time batch ≠ none)
    (le : now ≤ limit) (metrics : Metrics) :
    (queue.run sink now limit metrics).1.IsWorking :=
  run_preserves sink limit (I := fun _ => IsWorking) (fun _ h => h)
    (fun h _ _ acted => h.acted starts acted) (fun h => ⟨h.isOpen, h.isActive⟩) metrics le h

/-! ## Metrics

What a queue becomes does not depend on what has been recorded.
-/

theorem act_fst (metrics other : Metrics) :
    (queue.act sink time metrics).1 = (queue.act sink time other).1 := by
  unfold act
  split
  · unfold handOver
    split
    · rfl
    · dsimp only
      split <;> rfl
  · unfold goOn
    split <;> rfl
  · rfl

theorem acts_fst (metrics other : Metrics) :
    (queue.acts sink now limit metrics).1 = (queue.acts sink now limit other).1 := by
  induction now, queue, metrics using acts.induct sink limit generalizing other with
  | case1 now queue metrics none => rw [acts_of_none none, acts_of_none none]
  | case2 now queue metrics time next due ih =>
    rw [acts_of_due next due, acts_of_due next due, act_fst other metrics]
    exact ih _
  | case3 now queue metrics time next notDue =>
    rw [acts_of_not_due next notDue, acts_of_not_due next notDue]

theorem run_fst (metrics other : Metrics) :
    (queue.run sink now limit metrics).1 = (queue.run sink now limit other).1 := by
  unfold run
  split
  · rfl
  · dsimp only
    rw [acts_fst metrics other]

theorem conclude_unmetered (began deadline : Nat) (metrics other : Metrics) :
    let closing := queue.conclude began deadline metrics
    let closing' := queue.conclude began deadline other
    closing.queue = closing'.queue ∧ closing.discarded = closing'.discarded ∧
      closing.finish = closing'.finish := by
  unfold conclude
  split <;> exact ⟨rfl, rfl, rfl⟩

theorem shutdown_unmetered (grace : Nat) (metrics other : Metrics) :
    let closing := queue.shutdown sink grace now metrics
    let closing' := queue.shutdown sink grace now other
    closing.queue = closing'.queue ∧ closing.discarded = closing'.discarded ∧
      closing.finish = closing'.finish := by
  unfold shutdown
  split
  · exact ⟨rfl, rfl, rfl⟩
  · by_cases atOnce : grace = 0
    · rw [if_pos atOnce, if_pos atOnce]
      exact conclude_unmetered _ _ metrics other
    · rw [if_neg atOnce, if_neg atOnce]
      dsimp only
      rw [run_fst metrics other]
      exact conclude_unmetered _ _ _ _

theorem shutdown_queue (grace : Nat) (metrics other : Metrics) :
    (queue.shutdown sink grace now metrics).queue =
      (queue.shutdown sink grace now other).queue :=
  (shutdown_unmetered grace metrics other).1

end Queue

end CacheCluster
