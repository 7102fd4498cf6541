import Mathlib.Data.Nat.SuccPred
import CacheCluster.ShutdownSignal

/-! # Waking those that wait for the shutdown signal

A wait subscribes to a channel, looks whether the signal has been given, and then blocks until it
receives something. A trigger gives the signal and then sends. Whatever comes between these steps,
no wait returns before the signal is given, and none is left blocked once a trigger is over.
-/

namespace CacheCluster

/-! ## Channels -/

/-- What a receiver reads: a value, or how many it was too late for. -/
inductive Reception
  | value
  | lagged (missed : Nat)
  deriving DecidableEq, Repr

/-- A channel on which a value that is sent goes to all receivers that have subscribed by then. -/
structure Broadcast (σ ρ : Type) where
  subscribe : σ → ρ
  send : σ → σ
  /-- What a receiver reads; it blocks if there is nothing. -/
  receive? : σ → ρ → Option Reception

/-- A receiver that subscribed before a send reads that value or that it lags behind, and one that
subscribed after all sends reads nothing. -/
structure Broadcast.IsFaithful {σ ρ : Type} (broadcast : Broadcast σ ρ) : Prop where
  observes : ∀ state n, (broadcast.receive? (broadcast.send^[n + 1] state)
    (broadcast.subscribe state)).isSome = true
  blocks : ∀ state, broadcast.receive? state (broadcast.subscribe state) = none

/-- A channel that holds the last value only. It counts the values, and a receiver those before its
subscription. -/
def Broadcast.oneSlot : Broadcast Nat Nat where
  subscribe sent := sent
  send sent := sent + 1
  receive? sent before :=
    if sent ≤ before then none
    else if sent = before + 1 then some .value
    else some (.lagged (sent - before - 1))

theorem Broadcast.isFaithful_oneSlot : oneSlot.IsFaithful where
  observes sent n := by
    have later : oneSlot.send^[n + 1] sent = sent + (n + 1) := Nat.succ_iterate sent (n + 1)
    rw [later]
    dsimp only [oneSlot]
    rw [if_neg (by omega)]
    split <;> rfl
  blocks sent := if_pos (Nat.le_refl sent)

/-! ## Steps -/

namespace ShutdownSignal

/-- How far a wait is. -/
inductive Wait (ρ : Type)
  | begun
  | subscribed (receiver : ρ)
  | blocked (receiver : ρ)
  | returned
  deriving DecidableEq

/-- How far a trigger is. -/
inductive Trigger
  | begun | given | sent
  deriving DecidableEq

/-- A signal, the state of its channel, and the calls that wait for it or trigger it. -/
structure Shared (σ ρ : Type) where
  signal : ShutdownSignal := {}
  channel : σ
  waits : List (Wait ρ)
  triggers : List Trigger

/-- The next step of one of the calls, told by its place. -/
inductive Step
  | wait (index : Nat)
  | trigger (index : Nat)

variable {σ ρ : Type} {broadcast : Broadcast σ ρ}

/-- A wait after its next step. -/
def Wait.step (broadcast : Broadcast σ ρ) (signal : ShutdownSignal) (channel : σ) :
    Wait ρ → Wait ρ
  | .begun => .subscribed (broadcast.subscribe channel)
  | .subscribed receiver => if signal.isTriggered then .returned else .blocked receiver
  | .blocked receiver =>
    if (broadcast.receive? channel receiver).isSome then .returned else .blocked receiver
  | .returned => .returned

namespace Shared

def step (broadcast : Broadcast σ ρ) (shared : Shared σ ρ) : Step → Shared σ ρ
  | .wait index =>
    match shared.waits[index]? with
    | some wait => { shared with
        waits := shared.waits.set index (wait.step broadcast shared.signal shared.channel) }
    | none => shared
  | .trigger index =>
    match shared.triggers[index]? with
    | some .begun => { shared with
        signal := shared.signal.trigger, triggers := shared.triggers.set index .given }
    | some .given => { shared with
        channel := broadcast.send shared.channel, triggers := shared.triggers.set index .sent }
    | _ => shared

def run (broadcast : Broadcast σ ρ) (shared : Shared σ ρ) (steps : List Step) : Shared σ ρ :=
  steps.foldl (step broadcast) shared

/-- Some calls of each kind, none of which has taken a step. -/
def start (channel : σ) (waits triggers : Nat) : Shared σ ρ where
  channel
  waits := List.replicate waits .begun
  triggers := List.replicate triggers .begun

variable {shared : Shared σ ρ} {index : Nat} {wait : Wait ρ} {channel : σ} {receiver : ρ} {n : Nat}

theorem step_wait (broadcast : Broadcast σ ρ) (known : shared.waits[index]? = some wait) :
    shared.step broadcast (.wait index) = { shared with
      waits := shared.waits.set index (wait.step broadcast shared.signal shared.channel) } := by
  rw [step, known]

/-! ## What every step keeps -/

/-- A receiver subscribed before the last `n` sends. -/
def IsBehind (broadcast : Broadcast σ ρ) (channel : σ) (receiver : ρ) (n : Nat) : Prop :=
  ∃ state, receiver = broadcast.subscribe state ∧ channel = broadcast.send^[n] state

theorem isBehind_subscribe (broadcast : Broadcast σ ρ) (channel : σ) :
    IsBehind broadcast channel (broadcast.subscribe channel) 0 :=
  ⟨channel, rfl, rfl⟩

theorem IsBehind.send (h : IsBehind broadcast channel receiver n) :
    IsBehind broadcast (broadcast.send channel) receiver (n + 1) := by
  obtain ⟨state, rfl, rfl⟩ := h
  exact ⟨state, rfl, (Function.iterate_succ_apply' ..).symm⟩

theorem IsBehind.receives_iff (h : IsBehind broadcast channel receiver n)
    (faithful : broadcast.IsFaithful) :
    (broadcast.receive? channel receiver).isSome = true ↔ 0 < n := by
  obtain ⟨state, rfl, rfl⟩ := h
  rcases n with _ | n
  · simp [faithful.blocks]
  · simp only [faithful.observes, Nat.zero_lt_succ]

/-- What is known of a wait. It has returned only if the signal is given, and while it is blocked,
each trigger that is over has sent since it subscribed. -/
def Listens (broadcast : Broadcast σ ρ) (shared : Shared σ ρ) : Wait ρ → Prop
  | .begun => True
  | .subscribed receiver =>
    ∃ n, IsBehind broadcast shared.channel receiver n ∧
      (0 < n → shared.signal.isTriggered = true)
  | .blocked receiver =>
    ∃ n, IsBehind broadcast shared.channel receiver n ∧
      (0 < n → shared.signal.isTriggered = true) ∧ (.sent ∈ shared.triggers → 0 < n)
  | .returned => shared.signal.isTriggered = true

structure Sound (broadcast : Broadcast σ ρ) (shared : Shared σ ρ) : Prop where
  triggered : shared.signal.isTriggered = true ↔ ∃ call ∈ shared.triggers, call ≠ .begun
  alarms : shared.signal.alarms = []
  listens : ∀ wait ∈ shared.waits, shared.Listens broadcast wait

theorem sound_start (broadcast : Broadcast σ ρ) (channel : σ) (waits triggers : Nat) :
    (start channel waits triggers).Sound broadcast where
  triggered := by
    constructor
    · exact fun given => Bool.noConfusion given
    · rintro ⟨call, mem, moved⟩
      exact absurd (List.eq_of_mem_replicate mem) moved
  alarms := rfl
  listens wait mem := by
    rw [List.eq_of_mem_replicate mem]
    trivial

theorem Sound.isTriggered (h : shared.Sound broadcast) (isOver : .sent ∈ shared.triggers) :
    shared.signal.isTriggered = true :=
  h.triggered.2 ⟨.sent, isOver, Trigger.noConfusion⟩

theorem Sound.listens_step (h : shared.Sound broadcast) (faithful : broadcast.IsFaithful)
    (listens : shared.Listens broadcast wait) :
    shared.Listens broadcast (wait.step broadcast shared.signal shared.channel) := by
  cases wait with
  | begun => exact ⟨0, isBehind_subscribe _ _, fun sent => absurd sent (Nat.lt_irrefl 0)⟩
  | subscribed receiver =>
    obtain ⟨n, behind, triggered⟩ := listens
    dsimp only [Wait.step]
    split
    next given => exact given
    next notGiven =>
      -- a trigger that is over would have given the signal
      exact ⟨n, behind, triggered, fun isOver => absurd (h.isTriggered isOver) notGiven⟩
  | blocked receiver =>
    obtain ⟨n, behind, triggered, isOver⟩ := listens
    dsimp only [Wait.step]
    split
    next received => exact triggered ((behind.receives_iff faithful).1 received)
    next => exact ⟨n, behind, triggered, isOver⟩
  | returned => exact listens

theorem Listens.given (listens : shared.Listens broadcast wait) {triggers : List Trigger}
    (same : .sent ∈ triggers → .sent ∈ shared.triggers) :
    Listens broadcast { shared with signal := shared.signal.trigger, triggers } wait := by
  cases wait with
  | begun => trivial
  | subscribed receiver =>
    obtain ⟨n, behind, -⟩ := listens
    exact ⟨n, behind, fun _ => rfl⟩
  | blocked receiver =>
    obtain ⟨n, behind, -, isOver⟩ := listens
    exact ⟨n, behind, fun _ => rfl, fun sent => isOver (same sent)⟩
  | returned => rfl

theorem Listens.send (listens : shared.Listens broadcast wait)
    (given : shared.signal.isTriggered = true) (triggers : List Trigger) :
    Listens broadcast { shared with channel := broadcast.send shared.channel, triggers } wait := by
  cases wait with
  | begun => trivial
  | subscribed receiver =>
    obtain ⟨n, behind, -⟩ := listens
    exact ⟨n + 1, behind.send, fun _ => given⟩
  | blocked receiver =>
    obtain ⟨n, behind, -⟩ := listens
    exact ⟨n + 1, behind.send, fun _ => given, fun _ => n.succ_pos⟩
  | returned => exact given

theorem exists_moved_set {triggers : List Trigger} {call : Trigger}
    (inside : index < triggers.length)
    (moved : call ≠ .begun) : ∃ other ∈ triggers.set index call, other ≠ .begun :=
  ⟨call, List.mem_set inside call, moved⟩

theorem Sound.step (h : shared.Sound broadcast) (faithful : broadcast.IsFaithful) (step : Step) :
    (shared.step broadcast step).Sound broadcast := by
  rcases step with index | index
  · rcases known : shared.waits[index]? with _ | wait
    · rw [Shared.step, known]
      exact h
    · rw [step_wait broadcast known]
      refine ⟨h.triggered, h.alarms, fun other mem => ?_⟩
      rcases List.mem_or_eq_of_mem_set mem with old | rfl
      · exact h.listens other old
      · exact h.listens_step faithful (h.listens wait (List.mem_of_getElem? known))
  · unfold Shared.step
    dsimp only
    split
    next known =>
      obtain ⟨inside, -⟩ := List.getElem?_eq_some_iff.1 known
      refine ⟨⟨fun _ => exists_moved_set inside Trigger.noConfusion, fun _ => rfl⟩, h.alarms,
        fun wait mem => (h.listens wait mem).given fun sent => ?_⟩
      exact (List.mem_or_eq_of_mem_set sent).resolve_right Trigger.noConfusion
    next known =>
      obtain ⟨inside, -⟩ := List.getElem?_eq_some_iff.1 known
      have given : shared.signal.isTriggered = true :=
        h.triggered.2 ⟨.given, List.mem_of_getElem? known, Trigger.noConfusion⟩
      exact ⟨⟨fun _ => exists_moved_set inside Trigger.noConfusion, fun _ => given⟩, h.alarms,
        fun wait mem => (h.listens wait mem).send given _⟩
    next => exact h

theorem Sound.run (h : shared.Sound broadcast) (faithful : broadcast.IsFaithful)
    (steps : List Step) : (shared.run broadcast steps).Sound broadcast := by
  induction steps generalizing shared with
  | nil => exact h
  | cons step steps ih => exact ih (h.step faithful step)

/-! ## A wait by itself -/

/-- Steps of one wait that nothing comes between. -/
theorem waits_run_replicate (broadcast : Broadcast σ ρ) (known : shared.waits[index]? = some wait)
    (count : Nat) :
    (shared.run broadcast (List.replicate count (.wait index))).waits[index]? =
      some ((Wait.step broadcast shared.signal shared.channel)^[count] wait) := by
  induction count generalizing shared wait with
  | zero => exact known
  | succ count ih =>
    obtain ⟨inside, -⟩ := List.getElem?_eq_some_iff.1 known
    rw [List.replicate_succ, run, List.foldl_cons, ← run, step_wait broadcast known]
    exact ih (List.getElem?_set_self inside)

/-- Once a trigger is over, a wait returns within three steps. -/
theorem Sound.returns (h : shared.Sound broadcast) (faithful : broadcast.IsFaithful)
    (isOver : .sent ∈ shared.triggers) (listens : shared.Listens broadcast wait) :
    (Wait.step broadcast shared.signal shared.channel)^[3] wait = .returned := by
  have given := h.isTriggered isOver
  cases wait with
  | begun => simp [Wait.step, given]
  | subscribed receiver => simp [Wait.step, given]
  | blocked receiver =>
    obtain ⟨n, behind, -, sent⟩ := listens
    simp [Wait.step, (behind.receives_iff faithful).2 (sent isOver)]
  | returned => rfl

/-- A wait that nothing comes between returns exactly if the signal has been given. -/
theorem step_begun_eq_returned_iff (faithful : broadcast.IsFaithful) (signal : ShutdownSignal)
    (channel : σ) : (Wait.step broadcast signal channel)^[3] .begun = .returned ↔
      signal.isTriggered = true := by
  rcases given : signal.isTriggered with _ | _
  · simp [Wait.step, given, faithful.blocks]
  · simp [Wait.step, given]

theorem given?_eq_some_iff {signal : ShutdownSignal} (alarms : signal.alarms = [])
    (now duration : Nat) : signal.given? now duration = some now ↔ signal.isTriggered = true := by
  rw [given?, alarms]
  rcases signal.isTriggered with _ | _ <;> simp

end Shared

/-- Any number of calls wait for the signal or trigger it, in any interleaving of their steps. A
wait has returned only if some trigger has given the signal. When a trigger is over, every wait that
is blocked has something to receive, so that each wait returns as soon as it takes its steps. A wait
that nothing comes between returns exactly if the signal is given when it begins. -/
theorem no_wait_misses_trigger {σ ρ : Type} (broadcast : Broadcast σ ρ)
    (faithful : broadcast.IsFaithful) (channel : σ) (waits triggers : Nat) (steps : List Step) :
    let reached := (Shared.start channel waits triggers).run broadcast steps
    let alone := fun index => reached.run broadcast (List.replicate 3 (.wait index))
    (.returned ∈ reached.waits → reached.signal.isTriggered = true ∧
      ∃ call ∈ reached.triggers, call ≠ .begun) ∧
    (.sent ∈ reached.triggers →
      (∀ receiver, .blocked receiver ∈ reached.waits →
        (broadcast.receive? reached.channel receiver).isSome = true) ∧
      ∀ index wait, reached.waits[index]? = some wait →
        (alone index).waits[index]? = some .returned) ∧
    ∀ index now duration, reached.waits[index]? = some .begun →
      ((alone index).waits[index]? = some .returned ↔
        reached.signal.given? now duration = some now) := by
  intro reached alone
  have sound : reached.Sound broadcast := (Shared.sound_start broadcast channel waits triggers).run
    faithful steps
  refine ⟨fun returned => ?_, fun isOver => ⟨fun receiver mem => ?_, fun index wait known => ?_⟩,
    fun index now duration known => ?_⟩
  · have given : reached.signal.isTriggered = true := sound.listens .returned returned
    exact ⟨given, sound.triggered.1 given⟩
  · obtain ⟨n, behind, -, sent⟩ := sound.listens (.blocked receiver) mem
    exact (behind.receives_iff faithful).2 (sent isOver)
  · have listens := sound.listens wait (List.mem_of_getElem? known)
    exact (Shared.waits_run_replicate broadcast known 3).trans
      (congrArg some (sound.returns faithful isOver listens))
  · rw [Shared.given?_eq_some_iff sound.alarms,
      ← Shared.step_begun_eq_returned_iff faithful reached.signal reached.channel,
      show (alone index).waits[index]? = _ from Shared.waits_run_replicate broadcast known 3,
      Option.some_inj]

/-- A wait has blocked and another one has subscribed before two triggers, of which the channel
keeps only the second one. -/
theorem lagging_wait_returns :
    let steps : List Step :=
      [.wait 0, .wait 0, .trigger 0, .wait 1, .trigger 0, .trigger 1, .trigger 1]
    let reached := (Shared.start 0 2 2).run Broadcast.oneSlot steps
    Broadcast.oneSlot.IsFaithful ∧ reached.waits = [.blocked 0, .subscribed 0] ∧
    Broadcast.oneSlot.receive? reached.channel 0 = some (.lagged 1) ∧
    (reached.run Broadcast.oneSlot (List.replicate 3 (.wait 0))).waits[0]? = some .returned := by
  intro steps reached
  have isOver : Trigger.sent ∈ reached.triggers := by decide
  have blocked : reached.waits[0]? = some (.blocked 0) := rfl
  have waking := no_wait_misses_trigger .oneSlot Broadcast.isFaithful_oneSlot 0 2 2 steps
  exact ⟨Broadcast.isFaithful_oneSlot, rfl, rfl, (waking.2.1 isOver).2 0 _ blocked⟩

end ShutdownSignal

end CacheCluster
