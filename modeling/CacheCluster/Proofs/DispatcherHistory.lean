import CacheCluster.Clock
import CacheCluster.Proofs.Dispatch

/-! # The history of a dispatcher

A producer notifies a dispatcher of one event after the other while time passes, until it is shut
down. Peers come and go meanwhile, and calls to them end as they like. What one of them is sent are
the messages of the events that were taken in, in order, and all of them if it was always there.
-/

namespace CacheCluster

open scoped List
open Delivery

namespace Dispatcher

/-- Something that happens to a dispatcher. -/
inductive Happening
  | notify (event : Event)
  | pass (milliseconds : Nat)
  | shutdown

/-- Something that happens, among the peers as they are found in each turn. -/
structure Step where
  happening : Happening
  neighbours : (turn : Nat) → Neighbours

/-- The queues go on while something is waited for. -/
def background (neighbours : Nat → Neighbours) : Background Dispatcher :=
  fun turn now limit dispatcher => dispatcher.run (neighbours turn) now limit

/-- A dispatcher on a clock, after one more step. -/
def step (clock : Clocked Dispatcher) (step : Step) : Clocked Dispatcher :=
  let neighbours := step.neighbours clock.turn
  match step.happening with
  | .notify event =>
    let notified := clock.state.notify neighbours clock.now event
    clock.after (background step.neighbours) notified.dispatcher notified.finish
  | .pass milliseconds => clock.advance (background step.neighbours) milliseconds
  | .shutdown =>
    let ended := clock.state.shutdown neighbours clock.now
    clock.after (background step.neighbours) ended.dispatcher ended.finish

def runSteps (clock : Clocked Dispatcher) (steps : List Step) : Clocked Dispatcher :=
  steps.foldl step clock

/-! ## What is taken in -/

namespace Step

/-- The event that is notified of. -/
def event? (step : Step) : Option Event :=
  match step.happening with
  | .notify event => some event
  | .pass _ | .shutdown => none

def isShutdown (step : Step) : Bool :=
  match step.happening with
  | .shutdown => true
  | .notify _ | .pass _ => false

end Step

/-- The events that the settings let through before a shutdown, in the order of the
notifications. -/
def accepted (settings : Settings.Replication) (steps : List Step) : List Event :=
  ((steps.takeWhile (!·.isShutdown)).filterMap Step.event?).filterMap settings.accept

/-- The events that a step makes a dispatcher take in. -/
def takenIn (dispatcher : Dispatcher) (step : Step) : List Event :=
  (step.event?.bind dispatcher.taken?).toList

variable {clock : Clocked Dispatcher} {events : List Event} {url : String}

/-- A step that is over when all of it has happened leaves its outcome as it is. -/
theorem after_eq {neighbours : Nat → Neighbours} {dispatcher : Dispatcher} {finish : Nat}
    (still : clock.now < finish → dispatcher.queues = ∅) :
    clock.after (background neighbours) dispatcher finish =
      ⟨max clock.now finish, clock.turn + 2, dispatcher⟩ := by
  unfold Clocked.after Clocked.waitUntil
  dsimp only
  split
  next waits => rw [background, run_of_no_queues (still waits)]
  next => rfl

/-- A dispatcher that has queues is not waited for. -/
theorem Sound.still {now : Nat} {dispatcher : Dispatcher} (h : dispatcher.Sound now events)
    (neighbours : Neighbours) (event : Event) :
    now < (dispatcher.notify neighbours now event).finish →
      (dispatcher.notify neighbours now event).dispatcher.queues = ∅ := by
  intro waits
  rcases taken : dispatcher.taken? event with _ | taken'
  · rw [notify_of_none taken] at waits
    exact absurd waits (Nat.lt_irrefl _)
  · obtain ⟨metrics, notified⟩ := notify_of_some neighbours now taken
    rcases h with h | h | h
    · rw [notified, h.synchronous]
      exact ((h.metered metrics).deliver neighbours taken').noQueues
    · rw [notified, h.asynchronous] at waits
      exact absurd waits (Nat.lt_irrefl _)
    · simp [taken?, h.notAlive] at taken

theorem sound_step (h : clock.state.Sound clock.now events) (s : Step) :
    (step clock s).state.Sound (step clock s).now (events ++ takenIn clock.state s) := by
  unfold step takenIn Step.event?
  rcases s with ⟨event | milliseconds | _, neighbours⟩
  · dsimp only
    rw [after_eq (h.still _ event)]
    exact (h.notify (neighbours clock.turn) event).later (Nat.le_max_right _ _)
  · rw [Option.bind_none, Option.toList_none, List.append_nil]
    exact h.run (Nat.le_add_right _ _) (neighbours (clock.turn + 1))
  · dsimp only
    rw [after_eq fun _ => rfl, Option.bind_none, Option.toList_none, List.append_nil]
    exact (h.shutdown (neighbours clock.turn)).later (Nat.le_max_left _ _)

/-- At every look-up of a step for its cache, `url` is found. -/
def FindsIn (url : String) (clock : Clocked Dispatcher) (s : Step) : Prop :=
  match s.happening with
  | .notify event => FindsAtOnce (s.neighbours clock.turn) clock.now url clock.state event
  | .pass _ => FindsMeanwhile (s.neighbours (clock.turn + 1)) url clock.state (step clock s).state
  | .shutdown => True

theorem complete_step (h : clock.state.Complete url events)
    (sound : clock.state.Sound clock.now events) {s : Step} (finds : FindsIn url clock s)
    (synchronous : s.isShutdown = true → clock.state.settings.asynchronous = false) :
    (step clock s).state.Complete url (events ++ takenIn clock.state s) := by
  unfold step takenIn Step.event?
  rcases s with ⟨event | milliseconds | _, neighbours⟩
  · dsimp only
    rw [after_eq (sound.still _ event)]
    exact h.notify sound finds
  · rw [Option.bind_none, Option.toList_none, List.append_nil]
    exact h.run sound (Nat.le_add_right _ _) finds
  · dsimp only
    rw [after_eq fun _ => rfl, Option.bind_none, Option.toList_none, List.append_nil]
    exact h.shutdown sound (synchronous rfl)

theorem notify_keeps (neighbours : Neighbours) (now : Nat) (dispatcher : Dispatcher)
    (event : Event) :
    let notified := (dispatcher.notify neighbours now event).dispatcher
    notified.settings = dispatcher.settings ∧ notified.isAlive = dispatcher.isAlive := by
  rcases taken : dispatcher.taken? event with _ | taken'
  · rw [notify_of_none taken]
    exact ⟨rfl, rfl⟩
  · obtain ⟨metrics, notified⟩ := notify_of_some neighbours now taken
    rw [notified]
    split
    · exact ⟨rfl, rfl⟩
    · unfold deliver
      split <;> exact ⟨rfl, rfl⟩

theorem after_keeps (clock : Clocked Dispatcher) (neighbours : Nat → Neighbours)
    (dispatcher : Dispatcher) (finish : Nat) :
    let ended := (clock.after (background neighbours) dispatcher finish).state
    ended.settings = dispatcher.settings ∧ ended.isAlive = dispatcher.isAlive := by
  unfold Clocked.after Clocked.waitUntil
  dsimp only
  split
  · obtain ⟨settings, alive, _⟩ := run_keeps (neighbours (clock.turn + 1)) clock.now (finish - 1)
      dispatcher
    exact ⟨settings, alive⟩
  · exact ⟨rfl, rfl⟩

/-- Only a shutdown ends the life of a dispatcher, and nothing changes its settings. -/
theorem step_keeps (clock : Clocked Dispatcher) (s : Step) :
    (step clock s).state.settings = clock.state.settings ∧
      (step clock s).state.isAlive = (clock.state.isAlive && !s.isShutdown) := by
  unfold step Step.isShutdown
  rcases s with ⟨event | milliseconds | _, neighbours⟩
  · obtain ⟨settings, alive⟩ := notify_keeps (neighbours clock.turn) clock.now clock.state event
    obtain ⟨settings', alive'⟩ := after_keeps clock neighbours
      (clock.state.notify (neighbours clock.turn) clock.now event).dispatcher
      (clock.state.notify (neighbours clock.turn) clock.now event).finish
    exact ⟨settings'.trans settings, (alive'.trans alive).trans (Bool.and_true _).symm⟩
  · obtain ⟨settings, alive, _⟩ := run_keeps (neighbours (clock.turn + 1)) clock.now
      (clock.now + milliseconds) clock.state
    exact ⟨settings, alive.trans (Bool.and_true _).symm⟩
  · obtain ⟨settings, alive⟩ := after_keeps clock neighbours
      (clock.state.shutdown (neighbours clock.turn) clock.now).dispatcher
      (clock.state.shutdown (neighbours clock.turn) clock.now).finish
    exact ⟨settings, alive.trans (Bool.and_false _).symm⟩

theorem Step.event?_of_isShutdown (s : Step) (ends : s.isShutdown = true) : s.event? = none := by
  rcases s with ⟨event | milliseconds | _, neighbours⟩
  · cases ends
  · cases ends
  · rfl

theorem accepted_cons (settings : Settings.Replication) (s : Step) (steps : List Step) :
    accepted settings (s :: steps) =
      if s.isShutdown then [] else (s.event?.bind settings.accept).toList ++
        accepted settings steps := by
  unfold accepted
  rcases ends : s.isShutdown with _ | _
  · rcases notified : s.event? with _ | event
    · simp [ends, notified]
    · rcases taken : settings.accept event with _ | taken <;> simp [ends, notified, taken]
  · simp [ends]

theorem takenIn_eq (dispatcher : Dispatcher) (s : Step) :
    takenIn dispatcher s =
      if dispatcher.isAlive then (s.event?.bind dispatcher.settings.accept).toList else [] := by
  unfold takenIn
  rcases s.event? with _ | event
  · simp
  · unfold taken?
    split <;> rfl

theorem takenIn_append_accepted (clock : Clocked Dispatcher) (s : Step) (steps : List Step) :
    (takenIn clock.state s ++
        if (step clock s).state.isAlive then accepted (step clock s).state.settings steps else []) =
      if clock.state.isAlive then accepted clock.state.settings (s :: steps) else [] := by
  obtain ⟨settings, alive⟩ := step_keeps clock s
  rw [settings, alive]
  rw [takenIn_eq, accepted_cons]
  rcases clock.state.isAlive with _ | _
  · rfl
  · rcases ends : s.isShutdown with _ | _
    · rfl
    · rw [s.event?_of_isShutdown ends]
      rfl

/-! ## Whole histories -/

theorem sound_run (h : clock.state.Sound clock.now events) (steps : List Step) :
    (runSteps clock steps).state.Sound (runSteps clock steps).now
      (events ++ if clock.state.isAlive then accepted clock.state.settings steps else []) := by
  induction steps generalizing clock events with
  | nil => simpa [runSteps, accepted] using h
  | cons s steps ih =>
    rw [← takenIn_append_accepted, ← List.append_assoc]
    exact ih (sound_step h s)

theorem settings_run (clock : Clocked Dispatcher) (steps : List Step) :
    (runSteps clock steps).state.settings = clock.state.settings := by
  induction steps generalizing clock with
  | nil => rfl
  | cons s steps ih => exact (ih (step clock s)).trans (step_keeps clock s).1

theorem isAlive_run (clock : Clocked Dispatcher) (steps : List Step) :
    (runSteps clock steps).state.isAlive =
      (clock.state.isAlive && !steps.any Step.isShutdown) := by
  induction steps generalizing clock with
  | nil => simp [runSteps]
  | cons s steps ih =>
    rw [List.any_cons, Bool.not_or, ← Bool.and_assoc, ← (step_keeps clock s).2]
    exact ih (step clock s)

/-- At every look-up of a history for its cache, `url` is found. -/
def FindsThroughout (url : String) : Clocked Dispatcher → List Step → Prop
  | _, [] => True
  | clock, s :: steps => FindsIn url clock s ∧ FindsThroughout url (step clock s) steps

theorem complete_run (h : clock.state.Complete url events)
    (sound : clock.state.Sound clock.now events) {steps : List Step}
    (finds : FindsThroughout url clock steps)
    (synchronous : steps.any Step.isShutdown = true → clock.state.settings.asynchronous = false) :
    (runSteps clock steps).state.Complete url
      (events ++ if clock.state.isAlive then accepted clock.state.settings steps else []) := by
  induction steps generalizing clock events with
  | nil => simpa [runSteps, accepted] using h
  | cons s steps ih =>
    simp only [List.any_cons, Bool.or_eq_true] at synchronous
    rw [← takenIn_append_accepted, ← List.append_assoc]
    refine ih (complete_step h sound finds.1 fun ends => synchronous (.inl ends))
      (sound_step sound s) finds.2 fun ends => ?_
    rw [(step_keeps clock s).1]
    exact synchronous (.inr ends)

/-- The calls that a dispatcher made to a url. -/
def callsMade (dispatcher : Dispatcher) (url : String) : List Delivery :=
  callsTo url dispatcher.deliveries

/-- The calls to a url that succeeded. -/
def answered (dispatcher : Dispatcher) (url : String) : List Delivery :=
  (dispatcher.callsMade url).filter (!·.failed)

theorem answered_eq {dispatcher : Dispatcher}
    (succeed : ∀ call ∈ dispatcher.callsMade url, call.failed = false) :
    dispatcher.answered url = dispatcher.callsMade url :=
  List.filter_eq_self.2 fun call mem => by simp [succeed call mem]

/-- What a new dispatcher has taken in after some steps. -/
theorem sound_fresh (settings : Settings.Replication) (now : Nat) (steps : List Step) :
    (runSteps { now, state := { settings } } steps).state.Sound
      (runSteps { now, state := { settings } } steps).now (accepted settings steps) := by
  let fresh : Clocked Dispatcher := { now, state := { settings } }
  have started : fresh.state.Sound fresh.now [] := sound_start settings now
  exact sound_run started steps

/-- A new dispatcher that never lost sight of a peer has called it with all messages for its cache,
in order, once nothing waits. -/
theorem callsMade_messages (settings : Settings.Replication) (now : Nat) {steps : List Step}
    (finds : FindsThroughout url { now, state := { settings } } steps)
    (drained : settings.asynchronous = true →
      (runSteps { now, state := { settings } } steps).state.IsDrained (PeerUrl.cacheName url)) :
    ((runSteps { now, state := { settings } } steps).state.callsMade url).flatMap messages =
      messagesFor (PeerUrl.cacheName url) (accepted settings steps) := by
  let fresh : Clocked Dispatcher := { now, state := { settings } }
  have started : fresh.state.Sound fresh.now [] := sound_start settings now
  have synchronous : steps.any Step.isShutdown = true → settings.asynchronous = false := by
    intro ends
    rw [← Bool.not_eq_true]
    intro asynchronous
    have alive : (runSteps fresh steps).state.isAlive = true := (drained asynchronous).1
    rw [isAlive_run, ends] at alive
    exact absurd alive (by simp)
  have complete : (runSteps fresh steps).state.Complete url (accepted settings steps) :=
    complete_run (complete_start settings url) started finds synchronous
  have settled : (runSteps fresh steps).state.settings = settings := settings_run fresh steps
  exact complete.messages_eq (sound_fresh settings now steps) (settled ▸ drained)

/-- In every history of a dispatcher, the calls to a peer carry a subsequence of the messages for
its cache that the settings let through before a shutdown, one call after the other. A peer that
every look-up finds and that answers every call has received all of them in order when nothing
waits, whatever becomes of the other peers. -/
theorem calls_carry_accepted_messages (settings : Settings.Replication) (now : Nat)
    (steps : List Step) (url : String) :
    let ended := runSteps { now, state := { settings } } steps
    let calls := ended.state.callsMade url
    let expected := messagesFor (PeerUrl.cacheName url) (accepted settings steps)
    calls.flatMap messages <+ expected ∧
      calls.Pairwise (fun call next => call.over settings.callTimeout ≤ next.start) ∧
      (FindsThroughout url { now, state := { settings } } steps →
        (∀ call ∈ calls, call.failed = false) →
        (settings.asynchronous = true → ended.state.IsDrained (PeerUrl.cacheName url)) →
        (ended.state.answered url).flatMap messages = expected) := by
  intro ended calls expected
  have orderly := (sound_fresh settings now steps).orderly url
  rw [settings_run] at orderly
  refine ⟨orderly.subsequence, orderly.apart, fun finds succeed drained => ?_⟩
  rw [answered_eq succeed]
  exact callsMade_messages settings now finds drained

end Dispatcher

end CacheCluster
