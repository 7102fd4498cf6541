import CacheCluster.Proofs.CopyRequests
import CacheCluster.Proofs.DispatcherHistory
import CacheCluster.Proofs.QueueHistory
import CacheCluster.Transport.Service
import CacheCluster.Trial.Dispatcher
import CacheCluster.Trial.Loader
import CacheCluster.Trial.Queue

/-! # Trials as histories

Trials put a queue, a dispatcher or a loader on a clock, among peers that follow scripts. Whatever
is done in them is something that happens in a history, so what is shown of all histories holds of
every trial.
-/

namespace CacheCluster

open scoped List

/-! ## Peers -/

namespace Script

/-- The peer answers every request from its elements. -/
structure IsPlain (script : Script) : Prop where
  answers : script.callFails = false
  own : script.keys = .own
  unlimited : script.limit = none
  willing : script.badKey = none
  distinct : (script.elements.map Element.key).Nodup

theorem get?_putAll_iff {elements : List Element} (distinct : (elements.map Element.key).Nodup)
    {key : String} {element : Element} :
    (Store.putAll ∅ elements).get? key = some element ↔ element ∈ elements ∧ element.key = key := by
  -- The store that is put into holds something from the second element on.
  have general (store : Store) : (store.putAll elements).get? key = some element ↔
      element ∈ elements ∧ element.key = key ∨
        key ∉ elements.map Element.key ∧ store.get? key = some element := by
    induction elements generalizing store with
    | nil => simp [Store.putAll]
    | cons first elements ih =>
      obtain ⟨fresh, distinct⟩ := List.nodup_cons.1 distinct
      rw [Store.putAll, List.foldl_cons, ← Store.putAll, ih distinct, Store.get?_put]
      by_cases same : key = first.key
      · subst same
        simp only [if_pos, Option.some.injEq]
        grind
      · simp only [if_neg same]
        grind
  simpa using general ∅

/-- A peer that always answers says what a listener says that serves the same elements, in an order
of its own. -/
theorem IsPlain.answer_perm {script : Script} (h : script.IsPlain) {keys : List String}
    (once : keys.Nodup) :
    let store := Store.putAll ∅ script.elements
    (∃ listed names, script.answer .keys = .ok (.keys listed) ∧
      (Service.perform store .keys).1 = .keys names ∧ listed ~ names) ∧
    ∃ found held, script.answer (.getElements keys) = .ok (.elements found) ∧
      (Service.perform store (.getElements keys)).1 = .elements held ∧ found ~ held := by
  intro store
  have get?_iff {key : String} {element : Element} := @get?_putAll_iff _ h.distinct key element
  refine ⟨⟨script.elements.map Element.key, store.names, ?_, rfl, ?_⟩,
    script.elements.filter (keys.contains ·.key), store.elementsFor keys, ?_, rfl, ?_⟩
  · simp [answer, h.answers, answerKeys, h.own]
  · refine (List.perm_ext_iff_of_nodup h.distinct store.nodup_names).2 fun key => ?_
    rw [Store.mem_names_iff, Option.isSome_iff_exists, List.mem_map]
    exact exists_congr fun element => get?_iff.symm
  · simp [answer, h.answers, answerElements, h.willing, h.unlimited]
  · have nodup : (store.elementsFor keys).Nodup :=
      once.filterMap fun key other element here there =>
        (get?_iff.1 here).2.symm.trans (get?_iff.1 there).2
    refine (List.perm_ext_iff_of_nodup (h.distinct.of_map.filter _) nodup).2 fun element => ?_
    rw [List.mem_filter, Store.elementsFor, List.mem_filterMap]
    constructor
    · rintro ⟨mem, asked⟩
      exact ⟨element.key, by simpa using asked, get?_iff.2 ⟨mem, rfl⟩⟩
    · rintro ⟨key, asked, held⟩
      obtain ⟨mem, rfl⟩ := get?_iff.1 held
      exact ⟨mem, by simpa using asked⟩

end Script

/-! ## Queues -/

namespace QueueTrial

open Queue (Happening History)

/-- Something that is done to a queue on trial. -/
inductive Action
  | push (event : Event)
  | advance (milliseconds : Nat)
  | shutdown (grace : Nat)

def act (trial : QueueTrial) : Action → QueueTrial
  | .push event => trial.push event
  | .advance milliseconds => trial.advance milliseconds
  | .shutdown grace => (trial.shutdown grace).1

def actAll (trial : QueueTrial) (actions : List Action) : QueueTrial :=
  actions.foldl act trial

/-- What happens to the queue. -/
def Action.happenings : Action → List Happening
  | .push event => [.push event]
  | .advance milliseconds => [.pass milliseconds]
  | .shutdown grace => History.shutdown grace

/-- A trial has come as far as a history; once a shutdown has returned, only time goes on. -/
inductive Follows (history : History Nat) (trial : QueueTrial) : Prop
  | running (isOpen : history.queue.closed = false) (now : trial.clock.now = history.now)
      (same : trial.clock.state = (history.queue, history.metrics))
  | ended (returned : history.returned ≠ none) {seen : Nat}
      (same : trial.clock.state = ({ history.queue with seen }, history.metrics))

variable {history : History Nat} {trial : QueueTrial} {size : Nat}

theorem run_of_none {sink : Sink Nat} {now : Nat} {queue : Queue Nat} (limit : Nat)
    (metrics : Metrics) (none : queue.nextAct? sink now = none) :
    ∃ seen, queue.run sink now limit metrics = ({ queue with seen }, metrics) := by
  unfold Queue.run
  split
  · exact ⟨queue.seen, rfl⟩
  · rw [Queue.acts_of_none none]
    exact ⟨limit, rfl⟩

theorem closed_of_returned (sound : history.Sound size) (returned : history.returned ≠ none) :
    history.queue.closed = true := by
  obtain ⟨n, returned⟩ := Option.ne_none_iff_exists'.1 returned
  exact sound.closed n returned

/-- Once a shutdown has returned, whatever happens changes nothing but the time. -/
theorem step_of_returned (sound : history.Sound size) (returned : history.returned ≠ none)
    (sink : Sink Nat) (happening : Happening) :
    ∃ now seen, history.step sink happening =
      { history with now, queue := { history.queue with seen } } := by
  have closed := closed_of_returned sound returned
  have still (now : Nat) : history.queue.nextAct? sink now = none :=
    History.nextAct?_eq_none sound returned now
  cases happening with
  | push event => exact ⟨_, _, History.push_of_closed closed event⟩
  | act =>
    refine ⟨history.now, history.queue.seen, ?_⟩
    rw [History.step, History.act, still]
  | pass milliseconds =>
    obtain ⟨seen, ran⟩ := run_of_none (history.now + milliseconds) history.metrics
      (still history.now)
    refine ⟨history.now + milliseconds, seen, ?_⟩
    rw [History.step, History.pass, ran]
  | close =>
    refine ⟨history.now, history.queue.seen, ?_⟩
    rw [History.step, History.close, Queue.close, ← closed]
  | conclude =>
    refine ⟨history.now, history.queue.seen, ?_⟩
    have gone : history.returned.isNone = false := Option.isNone_eq_false_iff.2
      (Option.isSome_iff_ne_none.2 returned)
    rw [History.step, History.conclude, gone, Bool.and_false]
    rfl

theorem run_of_returned (sound : history.Sound size) (returned : history.returned ≠ none)
    (sink : Sink Nat) (happenings : List Happening) :
    ∃ now seen, history.run sink happenings =
      { history with now, queue := { history.queue with seen } } := by
  induction happenings generalizing history with
  | nil => exact ⟨_, _, rfl⟩
  | cons happening happenings ih =>
    obtain ⟨now, seen, stepped⟩ := step_of_returned sound returned sink happening
    have later := ih (sound.step happening) (by rw [stepped]; exact returned)
    rw [stepped] at later
    rw [History.run_cons, stepped]
    exact later

theorem act_of_returned (sound : history.Sound size) (returned : history.returned ≠ none)
    {seen : Nat} (same : trial.clock.state = ({ history.queue with seen }, history.metrics))
    (action : Action) :
    ∃ seen, (trial.act action).clock.state = ({ history.queue with seen }, history.metrics) := by
  have closed := closed_of_returned sound returned
  cases action with
  | push event =>
    refine ⟨seen, ?_⟩
    simp [act, push, queue, same, Queue.pushMetered, closed]
  | advance milliseconds =>
    have still : ({ history.queue with seen } : Queue Nat).nextAct? trial.sink trial.clock.now =
        none := History.nextAct?_eq_none sound returned trial.clock.now
    obtain ⟨seen, ran⟩ := run_of_none (trial.clock.now + milliseconds) history.metrics still
    refine ⟨seen, ?_⟩
    simp only [act, advance, Clocked.advance, background, same]
    exact ran
  | shutdown grace =>
    refine ⟨seen, ?_⟩
    simp [act, shutdown, queue, same, Queue.shutdown, closed]

theorem Follows.act (h : Follows history trial) (sound : history.Sound size) (action : Action) :
    Follows (history.run trial.sink action.happenings) (trial.act action) := by
  cases h with
  | running isOpen now same =>
    cases action with
    | push event =>
      refine .running ?_ now ?_
      · exact (History.closed_step trial.sink history (.push event)).trans (by rw [isOpen]; rfl)
      · simp only [QueueTrial.act, push, queue, same, now]
        rfl
    | advance milliseconds =>
      refine .running ?_ (congrArg (· + milliseconds) now) ?_
      · exact (History.closed_step trial.sink history (.pass milliseconds)).trans
          (by rw [isOpen]; rfl)
      · simp only [QueueTrial.act, advance, Clocked.advance, background, same, now]
        rfl
    | shutdown grace =>
      obtain ⟨queue, returned, metrics⟩ :=
        @History.run_shutdown _ trial.sink history isOpen (sound.returned_eq_none isOpen) grace
      have acted : (trial.act (.shutdown grace)).clock.state =
          ((history.run trial.sink (History.shutdown grace)).queue,
            (history.run trial.sink (History.shutdown grace)).metrics) := by
        rw [queue, metrics]
        simp only [QueueTrial.act, shutdown, QueueTrial.queue, same, now]
      exact .ended (by rw [Action.happenings, returned]; nofun) acted
  | ended returned same =>
    obtain ⟨seen, acted⟩ := act_of_returned sound returned same action
    -- One more shutdown lets its grace period pass in the history only, so the clocks part here.
    obtain ⟨now, seen', ran⟩ := run_of_returned sound returned trial.sink action.happenings
    rw [ran]
    exact .ended returned acted

theorem sink_act (trial : QueueTrial) (action : Action) : (trial.act action).sink = trial.sink := by
  cases action <;> rfl

theorem sink_actAll (trial : QueueTrial) (actions : List Action) :
    (trial.actAll actions).sink = trial.sink := by
  induction actions generalizing trial with
  | nil => rfl
  | cons action actions ih => exact (ih (trial.act action)).trans (sink_act trial action)

theorem Follows.actAll (h : Follows history trial) (sound : history.Sound size)
    (actions : List Action) :
    Follows (history.run trial.sink (actions.flatMap Action.happenings))
      (trial.actAll actions) := by
  induction actions generalizing history trial with
  | nil => exact h
  | cons action actions ih =>
    have later := ih (h.act sound action) (sound.run action.happenings)
    rw [sink_act, ← History.run_append] at later
    exact later

/-- What becomes of a queue on trial is what becomes of it in a history, and a shutdown says how
many events are discarded there. -/
theorem follows_history (cache : String) (interval maxBatch delay : Nat) (fatal : Option String)
    (actions : List Action) :
    let trial := (start { cache, interval, maxBatch } delay fatal).actAll actions
    let history := (History.start cache interval maxBatch).run (.steady delay fatal)
      (actions.flatMap Action.happenings)
    (∃ seen, trial.queue = { history.queue with seen }) ∧ trial.clock.state.2 = history.metrics ∧
    (history.queue.closed = false → trial.clock.now = history.now ∧ ∀ grace,
      (history.run (.steady delay fatal) (History.shutdown grace)).returned =
        some (trial.shutdown grace).2) := by
  intro trial history
  have started : (History.start cache interval maxBatch : History Nat).Sound (max 1 maxBatch) :=
    History.sound_start cache interval maxBatch
  have sound : history.Sound (max 1 maxBatch) := started.run (actions.flatMap Action.happenings)
  have begun : Follows (History.start cache interval maxBatch)
      (start { cache, interval, maxBatch } delay fatal) := .running rfl rfl rfl
  have follows : Follows history trial := begun.actAll started actions
  have sink : trial.sink = .steady delay fatal := sink_actAll _ actions
  cases follows with
  | running isOpen now same =>
    refine ⟨⟨history.queue.seen, congrArg Prod.fst same⟩, congrArg Prod.snd same,
      fun _ => ⟨now, fun grace => ?_⟩⟩
    have shut := @History.run_shutdown _ (.steady delay fatal) history isOpen
      (sound.returned_eq_none isOpen) grace
    rw [shut.2.1, shutdown, sink, QueueTrial.queue, same, now]
  | @ended returned seen same =>
    refine ⟨⟨seen, congrArg Prod.fst same⟩, congrArg Prod.snd same, fun isOpen => ?_⟩
    exact absurd (closed_of_returned sound returned) (by simp [isOpen])

end QueueTrial

/-! ## Dispatchers -/

namespace DispatcherTrial

open Dispatcher (Step accepted messagesFor runSteps takenIn)

/-- Something that is done to a dispatcher on trial, or to what it finds around it. -/
inductive Action
  | notify (event : Event)
  | advance (milliseconds : Nat)
  | shutdown
  | lookUp (cache : String)
  | resolve (url : String)
  | setRegistry (registry : Registry)
  | changeScript (url : String) (change : Script → Script)

def act (trial : DispatcherTrial) : Action → DispatcherTrial
  | .notify event => trial.notify event
  | .advance milliseconds => trial.advance milliseconds
  | .shutdown => trial.shutdown
  | .lookUp cache => (trial.lookUp cache).1
  | .resolve url => (trial.resolve url).1
  | .setRegistry registry => trial.setRegistry registry
  | .changeScript url change => trial.changeScript url change

def actAll (trial : DispatcherTrial) (actions : List Action) : DispatcherTrial :=
  actions.foldl act trial

namespace Action

/-- What happens to the dispatcher itself. -/
def happening? : Action → Option Dispatcher.Happening
  | .notify event => some (.notify event)
  | .advance milliseconds => some (.pass milliseconds)
  | .shutdown => some .shutdown
  | .lookUp _ | .resolve _ | .setRegistry _ | .changeScript .. => none

/-- A look-up is waited for, and the queues go on meanwhile. -/
def isLookup : Action → Bool
  | .lookUp _ | .resolve _ => true
  | .notify _ | .advance _ | .shutdown | .setRegistry _ | .changeScript .. => false

end Action

/-- What happens to the dispatcher, among its neighbours as they are then. -/
def steps (trial : DispatcherTrial) : List Action → List Step
  | [] => []
  | action :: actions =>
    (action.happening?.map fun happening => ⟨happening, fun _ => trial.neighbours⟩).toList ++
      (trial.act action).steps actions

variable {trial : DispatcherTrial} {events : List Event} {action : Action}

theorem steps_of_some {happening : Dispatcher.Happening} (trial : DispatcherTrial)
    (happens : action.happening? = some happening) (actions : List Action) :
    trial.steps (action :: actions) =
      ⟨happening, fun _ => trial.neighbours⟩ :: (trial.act action).steps actions := by
  rw [steps, happens]
  rfl

theorem steps_of_none (trial : DispatcherTrial) (none : action.happening? = none)
    (actions : List Action) :
    trial.steps (action :: actions) = (trial.act action).steps actions := by
  rw [steps, none]
  rfl

theorem clock_act_of_some {happening : Dispatcher.Happening} (trial : DispatcherTrial)
    (happens : action.happening? = some happening) :
    (trial.act action).clock =
      Dispatcher.step trial.clock ⟨happening, fun _ => trial.neighbours⟩ := by
  cases action <;> cases happens <;> rfl

/-- Only a look-up is waited for without anything happening to the dispatcher. -/
theorem clock_act_of_none (trial : DispatcherTrial) (none : action.happening? = none) :
    (trial.act action).clock = trial.clock ∨
      action.isLookup = true ∧ ∃ finish, (trial.act action).clock =
        trial.clock.waitUntil (Dispatcher.background fun _ => trial.neighbours) finish := by
  cases action with
  | lookUp | resolve => exact .inr ⟨rfl, _, rfl⟩
  | setRegistry | changeScript => exact .inl rfl
  | notify | advance | shutdown => cases none

/-- A dispatcher on trial that is not made to look anything up does what it does in a history. -/
theorem clock_actAll (trial : DispatcherTrial) {actions : List Action}
    (none : ∀ action ∈ actions, action.isLookup = false) :
    (trial.actAll actions).clock = runSteps trial.clock (trial.steps actions) := by
  induction actions generalizing trial with
  | nil => rfl
  | cons action actions ih =>
    obtain ⟨here, later⟩ := List.forall_mem_cons.1 none
    have rest := ih (trial.act action) later
    rcases happens : action.happening? with _ | happening
    · rcases trial.clock_act_of_none happens with same | ⟨lookup, -⟩
      · rw [trial.steps_of_none happens, ← same]
        exact rest
      · rw [here] at lookup
        cases lookup
    · rw [trial.steps_of_some happens, runSteps, List.foldl_cons, ← runSteps,
        ← trial.clock_act_of_some happens]
      exact rest

theorem sound_waitUntil (sound : trial.dispatcher.Sound trial.clock.now events) (finish : Nat) :
    let waited := trial.clock.waitUntil (Dispatcher.background fun _ => trial.neighbours) finish
    waited.state.Sound waited.now events ∧ waited.state.settings = trial.dispatcher.settings ∧
      waited.state.isAlive = trial.dispatcher.isAlive := by
  obtain ⟨settings, alive⟩ := Dispatcher.after_keeps trial.clock (fun _ => trial.neighbours)
    trial.dispatcher finish
  refine ⟨?_, settings, alive⟩
  unfold Clocked.waitUntil
  dsimp only
  split
  next waits =>
    have ran := sound.run (Nat.le_sub_one_of_lt waits) trial.neighbours
    exact ran.later (Nat.le_trans (Nat.sub_le _ _) (Nat.le_max_right _ _))
  next => exact sound.later (Nat.le_max_left _ _)

theorem sound_actAll (sound : trial.dispatcher.Sound trial.clock.now events)
    (actions : List Action) :
    (trial.actAll actions).dispatcher.Sound (trial.actAll actions).clock.now
        (events ++ if trial.dispatcher.isAlive then
          accepted trial.dispatcher.settings (trial.steps actions) else []) ∧
      (trial.actAll actions).dispatcher.settings = trial.dispatcher.settings := by
  induction actions generalizing trial events with
  | nil => simpa [actAll, steps, accepted] using sound
  | cons action actions ih =>
    rcases happens : action.happening? with _ | happening
    · have quiet : (trial.act action).dispatcher.Sound (trial.act action).clock.now events ∧
          (trial.act action).dispatcher.settings = trial.dispatcher.settings ∧
          (trial.act action).dispatcher.isAlive = trial.dispatcher.isAlive := by
        unfold dispatcher
        rcases trial.clock_act_of_none happens with same | ⟨-, finish, same⟩
        · rw [same]
          exact ⟨sound, rfl, rfl⟩
        · rw [same]
          exact sound_waitUntil sound finish
      obtain ⟨sound, settings, alive⟩ := quiet
      rw [trial.steps_of_none happens, ← settings, ← alive]
      exact ih sound
    · have same := trial.clock_act_of_some happens
      have stepped := Dispatcher.sound_step sound ⟨happening, fun _ => trial.neighbours⟩
      have taken := Dispatcher.takenIn_append_accepted trial.clock
        ⟨happening, fun _ => trial.neighbours⟩ ((trial.act action).steps actions)
      have settings := (Dispatcher.step_keeps trial.clock
        ⟨happening, fun _ => trial.neighbours⟩).1
      rw [← same] at stepped taken settings
      rw [trial.steps_of_some happens, dispatcher, ← taken, ← List.append_assoc, ← settings]
      exact ih stepped

/-- What the peers of a dispatcher on trial are sent is a subsequence of the messages that it took
in, one call after the other, whatever is looked up meanwhile. -/
theorem calls_carry_messages (settings : Settings.Replication) (scripts : List Script)
    (registry : Registry) (localUrls : List String) (lookupTimeout : Nat) (actions : List Action)
    (url : String) :
    let trial := start settings scripts registry localUrls lookupTimeout
    let calls := (trial.actAll actions).dispatcher.callsMade url
    calls.flatMap Delivery.messages <+
        messagesFor (PeerUrl.cacheName url) (accepted settings (trial.steps actions)) ∧
      calls.Pairwise fun call next => call.over settings.callTimeout ≤ next.start := by
  intro trial calls
  have begun : trial.dispatcher.Sound trial.clock.now [] := Dispatcher.sound_start settings 0
  obtain ⟨sound, same⟩ := sound_actAll begun actions
  have orderly := sound.orderly url
  rw [same] at orderly
  exact ⟨orderly.subsequence, orderly.apart⟩

end DispatcherTrial

/-! ## Loaders -/

namespace Load

/-- A load since it was begun: the moments at which it has acted, and whether it was given up behind
them. -/
structure Life where
  begun : Load
  moments : List Moment := []
  seen : Nat := 0
  givenUp : Bool := false

namespace Life

variable (life : Life)

/-- What has become of the load. -/
def load : Load :=
  let acted := { (life.begun.actsAt life.moments).1 with seen := life.seen }
  if life.givenUp then acted.cancel else acted

/-- What the load has put. -/
def writes : List Write :=
  (life.begun.actsAt life.moments).2

/-- The load has acted at one moment after the other, up to now if it is to go on. -/
structure IsOrderly (now : Nat) : Prop where
  ordered : life.moments.Pairwise (·.time ≤ ·.time)
  past : life.load.isPending = true → ∀ moment ∈ life.moments, moment.time ≤ now

/-- A life goes on as its load does, which has put some more by some time. -/
structure GoesOn (after : Load × List Write) (later : Nat) (next : Life) : Prop where
  begun : next.begun = life.begun
  load : next.load = after.1
  writes : next.writes = life.writes ++ after.2
  orderly : next.IsOrderly later

variable {life : Life} {now limit : Nat}

theorem load_of_not_givenUp (goesOn : life.givenUp = false) :
    life.load = { (life.begun.actsAt life.moments).1 with seen := life.seen } := by
  simp [load, goesOn]

theorem not_givenUp (pending : life.load.isPending = true) : life.givenUp = false := by
  rw [← Bool.not_eq_true]
  intro givenUp
  rw [load, if_pos givenUp, isPending_cancel] at pending
  cases pending

theorem IsOrderly.later {later : Nat} (h : life.IsOrderly now) (le : now ≤ later) :
    life.IsOrderly later :=
  ⟨h.ordered, fun pending moment mem => Nat.le_trans (h.past pending moment mem) le⟩

/-- As long as a load acts, moments come behind those of before. -/
theorem exists_acts (h : life.IsOrderly now) (goesOn : life.load.isPending = true)
    (neighbours : Neighbours) (limit : Option Nat) (seen : Nat) :
    ∃ moments, ({ life with moments, seen }).load =
        { (life.load.acts neighbours now limit).1 with seen } ∧
      ({ life with moments, seen }).writes =
        life.writes ++ (life.load.acts neighbours now limit).2 ∧
      moments.Pairwise (·.time ≤ ·.time) ∧
      ∀ moment ∈ moments, moment.time ≤ now ∨ limit.all (moment.time ≤ ·) = true := by
  have kept := not_givenUp goesOn
  obtain ⟨more, same, later, ordered⟩ := acts_eq_actsAt neighbours now limit life.load
  refine ⟨life.moments ++ more, ?_, ?_, List.pairwise_append.2 ⟨h.ordered, ordered, ?_⟩, ?_⟩
  · refine (@load_of_not_givenUp { life with moments := life.moments ++ more, seen } kept).trans ?_
    rw [same, load_of_not_givenUp kept, actsAt_seen _ life.seen, actsAt_append]
  · rw [same, load_of_not_givenUp kept, actsAt_seen]
    exact congrArg Prod.snd (actsAt_append life.begun life.moments more)
  · exact fun moment mem next after =>
      Nat.le_trans (h.past goesOn moment mem) (later next after).1
  · intro moment mem
    rcases List.mem_append.1 mem with mem | mem
    · exact .inl (h.past goesOn moment mem)
    · exact .inr (later moment mem).2

theorem IsOrderly.run (h : life.IsOrderly now) (le : now ≤ limit) (neighbours : Neighbours) :
    ∃ next, life.GoesOn (life.load.run neighbours now limit) limit next := by
  unfold Load.run
  split
  next goesOn =>
    obtain ⟨moments, load, writes, ordered, past⟩ :=
      exists_acts h goesOn neighbours (some limit) limit
    refine ⟨{ life with moments, seen := limit }, rfl, load, writes, ordered,
      fun _ moment mem => ?_⟩
    rcases past moment mem with past | past
    · exact Nat.le_trans past le
    · exact of_decide_eq_true past
  next => exact ⟨life, rfl, rfl, (List.append_nil _).symm, h.later le⟩

theorem IsOrderly.cancel (h : life.IsOrderly now) :
    ∃ next, life.GoesOn (life.load.cancel, []) now next := by
  -- A load that was given up before has nothing left to give up.
  have cancelled : ({ life with givenUp := true }).load = life.load.cancel := by
    rw [load, if_pos rfl, load]
    split
    next => rw [Load.cancel.eq_def (Load.cancel _), if_neg (by simp [isPending_cancel])]
    next => rfl
  refine ⟨{ life with givenUp := true }, rfl, cancelled, (List.append_nil _).symm, h.ordered,
    fun pending => ?_⟩
  rw [cancelled, isPending_cancel] at pending
  cases pending

theorem isPending_of_due? {load : Load} (none : due? now load.stage = none) :
    load.isPending = false := by
  rcases load with ⟨_, _, _, stage⟩
  cases stage <;> first
    | rfl
    | cases none

/-- A load that is waited for goes on until it is over, however late that is. -/
theorem exists_complete {begun : Load} (goesOn : begun.isPending = true) (neighbours : Neighbours)
    (now later : Nat) :
    ∃ next, ({ begun, seen := begun.seen } : Life).GoesOn (begun.complete neighbours now) later
      next := by
  have fresh : ({ begun, seen := begun.seen } : Life).IsOrderly now :=
    ⟨.nil, fun _ => List.forall_mem_nil _⟩
  let ended := (begun.acts neighbours now none).1
  let seen := (ended.outcome?.map Prod.fst).getD ended.seen
  obtain ⟨moments, load, writes, ordered, -⟩ := exists_acts fresh goesOn neighbours none seen
  refine ⟨{ begun, moments, seen }, rfl, load, writes, ordered, fun pending => ?_⟩
  have settled := isPending_of_due? (due?_acts neighbours now begun)
  rw [load] at pending
  exact absurd (pending.symm.trans settled) (by simp)

/-- What is done to each load is done to each life. -/
theorem exists_nexts {lives : List Life} {acts : Load → Load × List Write} {later : Nat}
    (each : ∀ life ∈ lives, ∃ next, life.GoesOn (acts life.load) later next) :
    ∃ nexts : List Life, nexts.map begun = lives.map begun ∧
      nexts.map load = (lives.map fun life => (acts life.load).1) ∧
      nexts.flatMap writes ~
        lives.flatMap writes ++ (lives.flatMap fun life => (acts life.load).2) ∧
      ∀ next ∈ nexts, next.IsOrderly later := by
  induction lives with
  | nil => exact ⟨[], rfl, rfl, .nil, List.forall_mem_nil _⟩
  | cons life lives ih =>
    obtain ⟨first, others⟩ := List.forall_mem_cons.1 each
    obtain ⟨next, goesOn⟩ := first
    obtain ⟨nexts, begun, loads, perm, orderly⟩ := ih others
    refine ⟨next :: nexts, by simp [goesOn.begun, begun], by simp [goesOn.load, loads], ?_,
      List.forall_mem_cons.2 ⟨goesOn.orderly, orderly⟩⟩
    simp only [List.flatMap_cons, goesOn.writes, List.append_assoc]
    exact .append_left _ ((perm.append_left _).trans (List.perm_append_comm_assoc _ _ _))

end Life

end Load

namespace LoaderTrial

open Load (Life Write)

/-- Something that is done to a loader on trial, or to its peers. -/
inductive Action
  | load
  | loadNow
  | advance (milliseconds : Nat)
  | shutdown
  | changeScripts (change : Script → Script)

def act (trial : LoaderTrial) : Action → LoaderTrial
  | .load => trial.load.1
  | .loadNow => trial.loadNow.1
  | .advance milliseconds => trial.advance milliseconds
  | .shutdown => trial.shutdown
  | .changeScripts change => trial.changeScripts change

def actAll (trial : LoaderTrial) (actions : List Action) : LoaderTrial :=
  actions.foldl act trial

/-- A load of a cache that waits for its start. -/
structure IsNew (cache : String) (load : Load) : Prop where
  cache_eq : load.cache = cache
  waits : ∃ due, load.stage = .waiting due
  uncalled : load.calls = []
  unseen : load.seen = 0

/-- The loads of a loader and what was put have come about in some lives. -/
structure Lives (cache : String) (now : Nat) (state : Loader × List Write) (lives : List Life) :
    Prop where
  loads : state.1.loads = lives.map Life.load
  writes : state.2 ~ lives.flatMap Life.writes
  begun : ∀ life ∈ lives, IsNew cache life.begun
  orderly : ∀ life ∈ lives, life.IsOrderly now

variable {cache : String} {now limit : Nat} {state : Loader × List Write} {lives : List Life}

theorem Lives.later {later : Nat} (h : Lives cache now state lives) (le : now ≤ later) :
    Lives cache later state lives :=
  ⟨h.loads, h.writes, h.begun, fun life mem => (h.orderly life mem).later le⟩

theorem Lives.map (h : Lives cache now state lives) {later : Nat}
    {acts : Load → Load × List Write}
    (each : ∀ life : Life, life.IsOrderly now →
      ∃ next, life.GoesOn (acts life.load) later next) :
    ∃ lives, Lives cache later
      ({ state.1 with loads := (state.1.loads.map acts).map Prod.fst },
        state.2 ++ (state.1.loads.map acts).flatMap Prod.snd) lives := by
  obtain ⟨nexts, begun, loads, writes, orderly⟩ :=
    Life.exists_nexts fun life mem => each life (h.orderly life mem)
  refine ⟨nexts, ?_, ?_, fun next mem => ?_, orderly⟩
  · simp [h.loads, loads]
  · refine .trans ?_ writes.symm
    simpa [h.loads, List.flatMap_map] using h.writes.append_right _
  · have known : next.begun ∈ lives.map Life.begun := begun ▸ List.mem_map_of_mem mem
    obtain ⟨life, here, same⟩ := List.mem_map.1 known
    exact same ▸ h.begun life here

theorem Lives.run (h : Lives cache now state lives) (le : now ≤ limit) (neighbours : Neighbours) :
    ∃ lives, Lives cache limit
      ((state.1.run neighbours now limit).1,
        state.2 ++ (state.1.run neighbours now limit).2) lives :=
  h.map fun _ orderly => orderly.run le neighbours

theorem Lives.shutdown (h : Lives cache now state lives) :
    ∃ lives, Lives cache now (state.1.shutdown, state.2) lives := by
  let cancelled (load : Load) : Load × List Write := (load.cancel, [])
  obtain ⟨lives, after⟩ : ∃ lives, Lives cache now
      ({ state.1 with loads := (state.1.loads.map cancelled).map Prod.fst },
        state.2 ++ (state.1.loads.map cancelled).flatMap Prod.snd) lives :=
    h.map fun _ orderly => orderly.cancel
  have nothing : (state.1.loads.map cancelled).flatMap Prod.snd = [] := by
    simp [cancelled, List.flatMap_eq_nil_iff]
  rw [nothing, List.append_nil, List.map_map] at after
  exact ⟨lives, after⟩

theorem Lives.concat (h : Lives cache now state lives) {life : Life} {load : Load}
    {writes : List Write} (new : IsNew cache life.begun) (same : life.load = load)
    (wrote : life.writes = writes) (orderly : life.IsOrderly now) :
    Lives cache now ({ state.1 with loads := state.1.loads ++ [load] }, state.2 ++ writes)
      (lives ++ [life]) where
  loads := by simp [h.loads, same]
  writes := by simpa [wrote] using h.writes.append_right writes
  begun := by simpa [or_imp, forall_and, new] using h.begun
  orderly := by simpa [or_imp, forall_and, orderly] using h.orderly

variable {trial : LoaderTrial}

/-- While a step is waited for, the loads go on. -/
theorem lives_after (h : Lives cache trial.clock.now state lives) (finish : Nat) :
    let ended := trial.clock.after trial.background state finish
    ∃ lives, Lives cache ended.now ended.state lives := by
  unfold Clocked.after Clocked.waitUntil
  dsimp only
  split
  next waits =>
    obtain ⟨lives, ran⟩ :=
      h.run (Nat.le_sub_one_of_lt waits) (trial.neighbours (trial.clock.turn + 1))
    exact ⟨lives, ran.later (Nat.le_trans (Nat.sub_le _ _) (Nat.le_max_right _ _))⟩
  next => exact ⟨lives, h.later (Nat.le_max_left _ _)⟩

theorem isNew_newLoad (loader : Loader) (cache : String) (now : Nat) :
    IsNew cache (loader.newLoad cache now) :=
  ⟨rfl, ⟨_, rfl⟩, rfl, rfl⟩

/-- A load that was waited for comes last, and the others have gone on meanwhile. -/
theorem lives_loadNow (h : Lives trial.cache trial.clock.now trial.clock.state lives) :
    ∃ lives, Lives trial.cache trial.loadNow.1.clock.now trial.loadNow.1.clock.state lives := by
  have new := isNew_newLoad trial.loader trial.cache trial.clock.now
  obtain ⟨life, goesOn⟩ :=
    @Life.exists_complete (trial.loader.newLoad trial.cache trial.clock.now) rfl
      (trial.neighbours trial.clock.turn) trial.clock.now trial.clock.now
  have more := h.concat (goesOn.begun ▸ new) goesOn.load goesOn.writes goesOn.orderly
  exact lives_after more _

theorem lives_act (h : Lives trial.cache trial.clock.now trial.clock.state lives)
    (action : Action) :
    ∃ lives, Lives trial.cache (trial.act action).clock.now
      (trial.act action).clock.state lives := by
  cases action with
  | load =>
    rcases asynchronous : trial.loader.settings.asynchronous with _ | _
    · have same : trial.load = trial.loadNow := by
        simp [load, loadNow, Loader.load, asynchronous]
      rw [act, same]
      exact lives_loadNow h
    · -- In the background a load has done nothing yet when it has been begun.
      have new := isNew_newLoad trial.loader trial.cache trial.clock.now
      let life : Life := { begun := trial.loader.newLoad trial.cache trial.clock.now }
      have orderly : life.IsOrderly trial.clock.now := ⟨.nil, fun _ => List.forall_mem_nil _⟩
      have more := h.concat new (show life.load = life.begun from rfl) rfl orderly
      rw [act, load, Loader.load, if_pos asynchronous]
      exact lives_after more trial.clock.now
  | loadNow => exact lives_loadNow h
  | advance milliseconds => exact h.run (Nat.le_add_right _ _) _
  | shutdown => exact h.shutdown
  | changeScripts change => exact ⟨lives, h⟩

theorem cache_act (trial : LoaderTrial) (action : Action) :
    (trial.act action).cache = trial.cache := by
  cases action <;> rfl

theorem lives_actAll (h : Lives trial.cache trial.clock.now trial.clock.state lives)
    (actions : List Action) :
    ∃ lives, Lives trial.cache (trial.actAll actions).clock.now
      (trial.actAll actions).clock.state lives := by
  induction actions generalizing trial lives with
  | nil => exact ⟨lives, h⟩
  | cons action actions ih =>
    obtain ⟨lives, acted⟩ := lives_act h action
    rw [← cache_act trial action] at acted ⊢
    exact ih acted

/-- Each load of a loader on trial has acted at one moment after the other since it was begun,
whether it was waited for or not, until it was over or was given up; and what the cache has been
given is what the loads have put. -/
theorem loads_act_in_order (trial : LoaderTrial) (unused : trial.clock.state.1.loads = [])
    (unwritten : trial.clock.state.2 = []) (actions : List Action) :
    ∃ lives, Lives trial.cache (trial.actAll actions).clock.now
      (trial.actAll actions).clock.state lives := by
  have begun : Lives trial.cache trial.clock.now trial.clock.state [] := by
    refine ⟨unused, ?_, List.forall_mem_nil _, List.forall_mem_nil _⟩
    rw [unwritten]
    exact .nil
  exact lives_actAll begun actions

end LoaderTrial

end CacheCluster
