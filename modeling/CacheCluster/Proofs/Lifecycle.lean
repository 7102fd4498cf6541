import CacheCluster.Proofs.Convergence

/-! # Starting and shutting down

A node, its listener and its dispatcher each know for themselves whether they are in service. The
listener is open exactly while the node is running. The dispatcher takes events from the beginning,
also of a node that was never started, and takes none any more once a running node has been shut
down, also when the node is started again.
-/

namespace CacheCluster

/-! ## What a dispatcher goes through -/

namespace Dispatcher

variable {dispatcher : Dispatcher} {clock after : Clocked Dispatcher} {events : List Event}
  {now limit : Nat} {ends : Bool} {event taken : Event} {neighbours : Neighbours}

/-- What a dispatcher that has been used in any way keeps. -/
structure IsInUse (now : Nat) (dispatcher : Dispatcher) : Prop where
  sound : ∃ events, dispatcher.Sound now events
  working : ∀ cache queue, dispatcher.queues.get? cache = some queue → queue.IsWorking

theorem isInUse_start (settings : Settings.Replication) (now : Nat) :
    ({ settings } : Dispatcher).IsInUse now :=
  ⟨⟨[], sound_start settings now⟩, nofun⟩

theorem IsInUse.noQueues (h : dispatcher.IsInUse now) (dead : dispatcher.isAlive = false) :
    dispatcher.queues = ∅ := by
  obtain ⟨events, h | h | h⟩ := h.sound
  · exact h.noQueues
  · exact absurd h.isAlive (by simp [dead])
  · exact h.noQueues

theorem IsInUse.later {later : Nat} (h : dispatcher.IsInUse now) (le : now ≤ later) :
    dispatcher.IsInUse later := by
  obtain ⟨events, sound⟩ := h.sound
  exact ⟨⟨events, sound.later le⟩, h.working⟩

theorem IsInUse.get?_run (h : dispatcher.IsInUse now) (le : now ≤ limit) (neighbours : Neighbours)
    (cache : String) :
    (dispatcher.run neighbours now limit).queues.get? cache =
      (dispatcher.queues.get? cache).map (ranQueue neighbours now limit dispatcher) := by
  obtain ⟨events, h | h | h⟩ := h.sound
  · rw [run_of_no_queues h.noQueues, h.noQueues]
    rfl
  · exact Dispatcher.get?_run neighbours
      (fun name queue known => (h.kept name queue known).1.named) le cache
  · rw [run_of_no_queues h.noQueues, h.noQueues]
    rfl

theorem IsInUse.run (h : dispatcher.IsInUse now) (le : now ≤ limit) (neighbours : Neighbours) :
    (dispatcher.run neighbours now limit).IsInUse limit := by
  obtain ⟨events, sound⟩ := h.sound
  refine ⟨⟨events, sound.run le neighbours⟩, fun cache queue known => ?_⟩
  rw [h.get?_run le, Option.map_eq_some_iff] at known
  obtain ⟨before, known, rfl⟩ := known
  exact (h.working cache before known).run (fun _ _ => Option.some_ne_none _) le {}

/-- The queue to which a dispatcher that queues adds an event. -/
theorem IsInUse.enqueue (h : dispatcher.IsInUse now) (alive : dispatcher.isAlive = true)
    (asynchronous : dispatcher.settings.asynchronous = true)
    (accepted : dispatcher.settings.accept event = some taken) (neighbours : Neighbours)
    (cache : String) :
    ((dispatcher.notify neighbours now event).dispatcher.queues.get? cache =
      if cache = taken.cache then some ((dispatcher.queueFor taken.cache).append now taken)
      else dispatcher.queues.get? cache) ∧
    (dispatcher.queueFor taken.cache).IsWorking := by
  obtain ⟨events, sound⟩ := h.sound
  obtain ⟨metrics, notified⟩ :=
    notify_of_some neighbours now ((if_pos alive).trans accepted)
  constructor
  · rw [notified, asynchronous, if_pos rfl,
      get?_enqueue ((sound.of_alive asynchronous alive).metered metrics)]
    rfl
  · unfold queueFor
    rcases known : dispatcher.queues.get? taken.cache with _ | queue
    · exact ⟨rfl, rfl⟩
    · exact h.working _ queue known

/-- A notification adds an event to a queue at most, which is made if there is none. -/
theorem IsInUse.get?_notify (h : dispatcher.IsInUse now) (neighbours : Neighbours) (event : Event)
    {cache : String} {queue : Queue Fanout}
    (known : (dispatcher.notify neighbours now event).dispatcher.queues.get? cache = some queue) :
    dispatcher.queues.get? cache = some queue ∨
      (dispatcher.queueFor cache).IsWorking ∧
        ∃ taken, queue = (dispatcher.queueFor cache).append now taken := by
  rcases taken? : dispatcher.taken? event with _ | taken
  · rw [notify_of_none taken?] at known
    exact .inl known
  have alive : dispatcher.isAlive = true := by
    by_contra dead
    rw [Dispatcher.taken?, if_neg dead] at taken?
    cases taken?
  have accepted : dispatcher.settings.accept event = some taken := (if_pos alive).symm.trans taken?
  rcases asynchronous : dispatcher.settings.asynchronous with _ | _
  · obtain ⟨calls, metrics, notified, -⟩ :=
      notify_at_once alive asynchronous neighbours now event
    rw [notified] at known
    exact .inl known
  · obtain ⟨queues, working⟩ := h.enqueue alive asynchronous accepted neighbours cache
    rw [queues] at known
    split at known
    next own =>
      obtain rfl := Option.some.inj known
      rw [own]
      exact .inr ⟨working, taken, rfl⟩
    next => exact .inl known

theorem IsInUse.notify (h : dispatcher.IsInUse now) (neighbours : Neighbours) (event : Event) :
    (dispatcher.notify neighbours now event).dispatcher.IsInUse
      (dispatcher.notify neighbours now event).finish := by
  obtain ⟨events, sound⟩ := h.sound
  refine ⟨⟨_, sound.notify neighbours event⟩, fun cache queue known => ?_⟩
  rcases h.get?_notify neighbours event known with known | ⟨working, taken, rfl⟩
  · exact h.working cache queue known
  · exact working.append now taken

theorem IsInUse.shutdown (h : dispatcher.IsInUse now) (neighbours : Neighbours) :
    (dispatcher.shutdown neighbours now).dispatcher.IsInUse now := by
  obtain ⟨events, sound⟩ := h.sound
  exact ⟨⟨events, sound.shutdown neighbours⟩, nofun⟩

/-- What can become of a dispatcher while something is done with its node, and whether it is shut
down. -/
inductive Becomes (clock : Clocked Dispatcher) : Bool → Clocked Dispatcher → Prop
  | rest : Becomes clock false clock
  | wait (neighbours : Nat → Neighbours) (finish : Nat) :
    Becomes clock false (clock.after (background neighbours) clock.state finish)
  | step (s : Step) : Becomes clock s.isShutdown (step clock s)

theorem Becomes.keeps (h : Becomes clock ends after) :
    after.state.settings = clock.state.settings ∧
      after.state.isAlive = (clock.state.isAlive && !ends) := by
  cases h with
  | rest => exact ⟨rfl, (Bool.and_true _).symm⟩
  | wait neighbours finish =>
    obtain ⟨settings, alive⟩ := after_keeps clock neighbours clock.state finish
    exact ⟨settings, alive.trans (Bool.and_true _).symm⟩
  | step s => exact step_keeps clock s

theorem IsInUse.becomes (h : clock.state.IsInUse clock.now) (becomes : Becomes clock ends after) :
    after.state.IsInUse after.now := by
  cases becomes with
  | rest => exact h
  | wait neighbours finish =>
    unfold Clocked.after Clocked.waitUntil
    dsimp only
    split
    · exact (h.run (by omega) _).later (by omega)
    · exact h.later (Nat.le_max_left _ _)
  | step s =>
    obtain ⟨events, sound⟩ := h.sound
    unfold step
    rcases s with ⟨event | milliseconds | _, neighbours⟩
    · dsimp only
      rw [after_eq (sound.still _ event)]
      exact (h.notify _ event).later (Nat.le_max_right _ _)
    · exact h.run (Nat.le_add_right _ _) _
    · dsimp only
      rw [after_eq fun _ => rfl]
      exact (h.shutdown _).later (Nat.le_max_left _ _)

theorem shutdown_of_dead (dead : dispatcher.isAlive = false) (noQueues : dispatcher.queues = ∅) :
    dispatcher.shutdown neighbours now = ⟨dispatcher, now⟩ := by
  obtain ⟨settings, isAlive, queues, metrics, sent⟩ := dispatcher
  obtain rfl : isAlive = false := dead
  obtain rfl : queues = ∅ := noQueues
  rfl

theorem step_of_dead (dead : clock.state.isAlive = false) (noQueues : clock.state.queues = ∅)
    (s : Step) : (step clock s).state = clock.state := by
  unfold step
  rcases s with ⟨event | milliseconds | _, neighbours⟩
  · have ignored : clock.state.taken? event = none := by simp [taken?, dead]
    dsimp only
    rw [notify_of_none ignored, after_eq fun _ => noQueues]
  · exact run_of_no_queues noQueues
  · dsimp only
    rw [shutdown_of_dead dead noQueues, after_eq fun _ => noQueues]

/-- Nothing happens to a dispatcher that was shut down. -/
theorem IsInUse.of_dead (h : clock.state.IsInUse clock.now) (dead : clock.state.isAlive = false)
    (becomes : Becomes clock ends after) : after.state = clock.state := by
  have noQueues := h.noQueues dead
  cases becomes with
  | rest => rfl
  | wait neighbours finish => rw [after_eq fun _ => noQueues]
  | step s => exact step_of_dead dead noQueues s

end Dispatcher

namespace Node

variable {node before after : Node} {clock : Clocked Node} {cache : String} {store : Store}

/-! ## What a node does with its dispatcher -/

/-- The dispatcher of a node on its clock. -/
def dispatching (clock : Clocked Node) : Clocked Dispatcher :=
  ⟨clock.now, clock.turn, clock.state.dispatcher⟩

theorem dispatcher_absorb (node : Node) (writes : List Load.Write) :
    (node.absorb writes).dispatcher = node.dispatcher :=
  absorb_induction (motive := (·.dispatcher = node.dispatcher)) rfl fun _ _ _ _ same => same

theorem dispatcher_run (node : Node) (mesh : Mesh) (now limit : Nat) :
    (node.run mesh now limit).dispatcher =
      node.dispatcher.run (node.neighbours mesh) now limit := by
  unfold run
  dsimp only
  split
  · rfl
  · exact dispatcher_absorb _ _

theorem dispatcher_addCache (node : Node) (mesh : Mesh) (now : Nat) (name : String) :
    (node.addCache mesh now name).node.dispatcher = node.dispatcher := by
  unfold addCache
  split
  · rfl
  · split
    · rfl
    · unfold fill
      split
      · rfl
      · exact dispatcher_absorb _ _

theorem dispatcher_start (node : Node) (interfaces : Interfaces) (freePort : Nat) :
    (node.start interfaces freePort).1.dispatcher = node.dispatcher := by
  unfold start
  split
  · rfl
  · split
    · rfl
    · split <;> rfl

theorem dispatching_after (clock : Clocked Node) (mesh : Nat → Mesh) (node : Node) (finish : Nat) :
    dispatching (clock.after (background mesh) node finish) =
      (dispatching clock).after (Dispatcher.background fun turn => node.neighbours (mesh turn))
        node.dispatcher finish := by
  unfold Clocked.after Clocked.waitUntil dispatching
  dsimp only
  split
  · rw [background, dispatcher_run]
    rfl
  · rfl

/-- Whether a deed shuts a running node down. -/
def Deed.ends (node : Node) : Deed → Bool
  | .shutdown _ => node.isRunning
  | _ => false

theorem step_of_absent (absent : clock.state.store? cache = none) (change : Change)
    (mesh : Nat → Mesh) : step clock ⟨.change cache change, mesh⟩ = clock := by
  unfold step
  dsimp only
  rw [absent]

theorem step_of_hosted (hosted : clock.state.store? cache = some store) (change : Change)
    (mesh : Nat → Mesh) :
    step clock ⟨.change cache change, mesh⟩ = clock.after (background mesh)
      (clock.state.make (mesh clock.turn) clock.now cache store change).node
      (clock.state.make (mesh clock.turn) clock.now cache store change).finish := by
  unfold step
  dsimp only
  rw [hosted]

/-- To the dispatcher a change with an event is a notification. -/
theorem dispatching_change {event : Event} (hosted : clock.state.store? cache = some store)
    (mesh : Nat → Mesh) {change : Change} (happened : (change.on cache store).2 = some event) :
    dispatching (step clock ⟨.change cache change, mesh⟩) =
      Dispatcher.step (dispatching clock) ⟨.notify event, fun turn =>
        (clock.state.setStore cache (change.on cache store).1).neighbours (mesh turn)⟩ := by
  rw [step_of_hosted hosted, dispatching_after, make_eq, happened]
  rfl

theorem dispatching_pass (clock : Clocked Node) (mesh : Nat → Mesh) (milliseconds : Nat) :
    dispatching (step clock ⟨.pass milliseconds, mesh⟩) =
      Dispatcher.step (dispatching clock)
        ⟨.pass milliseconds, fun turn => clock.state.neighbours (mesh turn)⟩ := by
  unfold step Dispatcher.step Clocked.advance dispatching background
  dsimp only
  rw [dispatcher_run]
  rfl

/-- A node that was not running only cancels its loads. -/
theorem shutdown_of_idle (idle : node.isRunning = false) (mesh : Mesh) (now : Nat) :
    node.shutdown mesh now =
      ⟨{ node with loader := node.loader.map Loader.shutdown }, (), now⟩ := by
  unfold Node.shutdown
  dsimp only
  rw [if_pos (by rw [idle]; rfl)]

theorem shutdown_of_running (running : node.isRunning = true) (mesh : Mesh) (now : Nat) :
    node.shutdown mesh now =
      ⟨{ node with
          loader := node.loader.map Loader.shutdown
          provider := node.provider.stop
          dispatcher := (node.dispatcher.shutdown (node.neighbours mesh) now).dispatcher
          listener := node.listener.stop
          isRunning := false },
        (), (node.dispatcher.shutdown (node.neighbours mesh) now).finish⟩ := by
  unfold Node.shutdown
  dsimp only
  rw [if_neg (by rw [running]; exact Bool.false_ne_true)]
  rfl

theorem dispatching_shutdown (mesh : Nat → Mesh) (running : clock.state.isRunning = true) :
    dispatching (perform clock (.shutdown mesh)) =
      Dispatcher.step (dispatching clock)
        ⟨.shutdown, fun turn => clock.state.neighbours (mesh turn)⟩ := by
  unfold perform Dispatcher.step
  dsimp only
  rw [dispatching_after, shutdown_of_running running, Dispatcher.after_eq fun _ => rfl,
    Dispatcher.after_eq fun _ => rfl]
  rfl

/-- What a deed does with the dispatcher. -/
theorem becomes_perform (clock : Clocked Node) (deed : Deed) :
    Dispatcher.Becomes (dispatching clock) (deed.ends clock.state)
      (dispatching (perform clock deed)) := by
  cases deed with
  | start interfaces freePort =>
    unfold perform dispatching
    dsimp only
    rw [dispatcher_start]
    exact .rest
  | addCache name mesh =>
    unfold perform
    dsimp only
    rw [dispatching_after, dispatcher_addCache]
    exact .wait _ _
  | live moment =>
    rcases moment with ⟨⟨cache, change⟩ | milliseconds | provider, mesh⟩
    · rw [perform]
      rcases hosted : clock.state.store? cache with _ | store
      · rw [step_of_absent hosted]
        exact .rest
      · rcases happened : (change.on cache store).2 with _ | event
        · rw [step_of_hosted hosted, make_eq, happened, dispatching_after]
          exact .wait _ _
        · rw [dispatching_change hosted mesh happened]
          exact .step ⟨.notify event, _⟩
    · rw [perform, dispatching_pass]
      exact .step ⟨.pass milliseconds, _⟩
    · exact .rest
  | shutdown mesh =>
    rcases running : clock.state.isRunning with _ | _
    · rw [perform, shutdown_of_idle running, dispatching_after, Deed.ends, running]
      exact .wait _ _
    · rw [dispatching_shutdown mesh running, Deed.ends, running]
      exact .step ⟨.shutdown, _⟩

/-! ## Shutting down -/

theorem isSettled_shutdown (node : Node) (mesh : Mesh) (now : Nat) :
    (node.shutdown mesh now).node.IsSettled := by
  have loads : (node.shutdown mesh now).node.loader = node.loader.map Loader.shutdown := by
    unfold Node.shutdown
    dsimp only
    split <;> rfl
  intro loader known
  rw [loads, Option.map_eq_some_iff] at known
  obtain ⟨before, -, rfl⟩ := known
  rw [Loader.pending, List.countP_eq_zero]
  intro load mem
  obtain ⟨started, -, rfl⟩ := List.mem_map.1 mem
  simp [Load.isPending_cancel]

/-- When a node has been shut down, nothing happens while it is waited for. -/
theorem perform_shutdown (clock : Clocked Node) (mesh : Nat → Mesh) :
    (perform clock (.shutdown mesh)).state =
      (clock.state.shutdown (mesh clock.turn) clock.now).node := by
  rw [perform, after_eq (isSettled_shutdown _ _ _)]
  intro waits
  rcases running : clock.state.isRunning with _ | _
  · rw [shutdown_of_idle running] at waits
    exact absurd waits (Nat.lt_irrefl _)
  · rw [shutdown_of_running running]
    rfl

/-! ## Whole lives -/

/-- The node was running at some time. -/
def HasRun (clock : Clocked Node) (deeds : List Deed) : Prop :=
  ∃ earlier later, deeds = earlier ++ later ∧ (performAll clock earlier).state.isRunning = true

/-- The node was shut down while it was running. -/
def WasShutDown (clock : Clocked Node) (deeds : List Deed) : Prop :=
  ∃ earlier mesh later, deeds = earlier ++ .shutdown mesh :: later ∧
    (performAll clock earlier).state.isRunning = true

variable {deed : Deed} {deeds : List Deed}

theorem performAll_cons (clock : Clocked Node) (deed : Deed) (deeds : List Deed) :
    performAll clock (deed :: deeds) = performAll (perform clock deed) deeds := rfl

theorem hasRun_cons : HasRun clock (deed :: deeds) ↔
    clock.state.isRunning = true ∨ HasRun (perform clock deed) deeds := by
  constructor
  · rintro ⟨_ | ⟨first, earlier⟩, later, split, running⟩
    · exact .inl running
    · obtain ⟨rfl, rfl⟩ := List.cons.inj split
      exact .inr ⟨earlier, later, rfl, running⟩
  · rintro (running | ⟨earlier, later, rfl, running⟩)
    · exact ⟨[], _, rfl, running⟩
    · exact ⟨deed :: earlier, later, rfl, running⟩

theorem wasShutDown_cons : WasShutDown clock (deed :: deeds) ↔
    deed.ends clock.state = true ∨ WasShutDown (perform clock deed) deeds := by
  constructor
  · rintro ⟨_ | ⟨first, earlier⟩, mesh, later, split, running⟩
    · obtain ⟨rfl, rfl⟩ := List.cons.inj split
      exact .inl running
    · obtain ⟨rfl, rfl⟩ := List.cons.inj split
      exact .inr ⟨earlier, mesh, later, rfl, running⟩
  · rintro (ends | ⟨earlier, mesh, later, rfl, running⟩)
    · cases deed with
      | shutdown mesh => exact ⟨[], mesh, deeds, rfl, ends⟩
      | _ => cases ends
    · exact ⟨deed :: earlier, mesh, later, rfl, running⟩

theorem running_addCache (node : Node) (mesh : Mesh) (now : Nat) (name : String) :
    (node.addCache mesh now name).node.isRunning = node.isRunning ∧
      (node.addCache mesh now name).node.listener.isRunning = node.listener.isRunning := by
  unfold addCache
  split
  · exact ⟨rfl, rfl⟩
  · split
    · exact ⟨rfl, rfl⟩
    · have alike := resembles_fill (node.setStore name ∅) mesh now name
      exact ⟨alike.running, alike.listening⟩

/-- Only a shutdown ends the running of a node. -/
theorem isRunning_perform (running : clock.state.isRunning = true)
    (goesOn : deed.ends clock.state = false) : (perform clock deed).state.isRunning = true := by
  cases deed with
  | start interfaces freePort =>
    rw [perform, Node.start, if_pos running]
    exact running
  | addCache name mesh =>
    rw [perform, (resembles_after _ _ _ _).running, (running_addCache _ _ _ _).1]
    exact running
  | live moment => exact (resembles_step clock moment).running.trans running
  | shutdown mesh =>
    have idle : clock.state.isRunning = false := goesOn
    exact absurd running (Bool.not_eq_true _ ▸ idle)

theorem hasRun_iff : HasRun clock deeds ↔
    (performAll clock deeds).state.isRunning = true ∨ WasShutDown clock deeds := by
  induction deeds generalizing clock with
  | nil =>
    constructor
    · rintro ⟨earlier, later, split, running⟩
      obtain ⟨rfl, rfl⟩ := List.append_eq_nil_iff.1 split.symm
      exact .inl running
    · rintro (running | ⟨earlier, mesh, later, split, -⟩)
      · exact ⟨[], [], rfl, running⟩
      · simp at split
  | cons deed deeds ih =>
    rw [hasRun_cons, wasShutDown_cons, ih, performAll_cons]
    constructor
    · rintro (running | running | ended)
      · -- a node that is running still runs after the deed, unless the deed shuts it down
        rcases ends : deed.ends clock.state with _ | _
        · have still := isRunning_perform running ends
          exact (ih.1 ⟨[], deeds, rfl, still⟩).imp id .inr
        · exact .inr (.inl rfl)
      · exact .inl running
      · exact .inr (.inr ended)
    · rintro (running | ends | ended)
      · exact .inr (.inl running)
      · cases deed with
        | shutdown mesh => exact .inl ends
        | _ => cases ends
      · exact .inr (.inr ended)

theorem isAlive_performAll : (performAll clock deeds).state.dispatcher.isAlive = true ↔
    clock.state.dispatcher.isAlive = true ∧ ¬WasShutDown clock deeds := by
  induction deeds generalizing clock with
  | nil =>
    have never : ¬WasShutDown clock [] := by
      rintro ⟨earlier, mesh, later, split, -⟩
      simp at split
    exact (and_iff_left never).symm
  | cons deed deeds ih =>
    have kept : (perform clock deed).state.dispatcher.isAlive =
        (clock.state.dispatcher.isAlive && !deed.ends clock.state) :=
      (becomes_perform clock deed).keeps.2
    rw [performAll_cons, ih, kept, wasShutDown_cons, Bool.and_eq_true,
      Bool.not_eq_true', not_or, and_assoc, Bool.not_eq_true]

/-- The listener is open exactly while the node is running. -/
def IsInStep (node : Node) : Prop :=
  node.listener.isRunning = node.isRunning

theorem isRunning_stop (listener : Listener) : listener.stop.isRunning = false := by
  unfold Listener.stop
  split
  · rfl
  next closed => exact Bool.not_eq_true _ ▸ closed

theorem IsInStep.start (h : node.IsInStep) (interfaces : Interfaces) (freePort : Nat) :
    (node.start interfaces freePort).1.IsInStep := by
  unfold Node.start
  split
  · exact h
  next idle =>
    split
    · exact h
    next listener opened =>
      unfold Listener.start at opened
      split at opened
      · obtain rfl := Except.ok.inj opened
        split
        · exact (isRunning_stop _).trans (Bool.not_eq_true _ ▸ idle).symm
        · rfl
      · cases opened

theorem IsInStep.shutdown (h : node.IsInStep) (mesh : Mesh) (now : Nat) :
    (node.shutdown mesh now).node.IsInStep ∧ (node.shutdown mesh now).node.isRunning = false := by
  rcases running : node.isRunning with _ | _
  · rw [shutdown_of_idle running]
    exact ⟨h, running⟩
  · rw [shutdown_of_running running]
    exact ⟨isRunning_stop _, rfl⟩

theorem IsInStep.of_resembles (h : before.IsInStep) (same : before.Resembles after) :
    after.IsInStep :=
  same.listening.trans (h.trans same.running.symm)

theorem IsInStep.perform (h : clock.state.IsInStep) (deed : Deed) :
    (perform clock deed).state.IsInStep := by
  cases deed with
  | start interfaces freePort => exact h.start interfaces freePort
  | addCache name mesh =>
    obtain ⟨running, listening⟩ := running_addCache clock.state (mesh clock.turn) clock.now name
    have added : (clock.state.addCache (mesh clock.turn) clock.now name).node.IsInStep :=
      listening.trans (h.trans running.symm)
    exact added.of_resembles (resembles_after _ _ _ _)
  | live moment => exact h.of_resembles (resembles_step clock moment)
  | shutdown mesh =>
    rw [perform_shutdown]
    exact (h.shutdown _ _).1

theorem IsInStep.performAll (h : clock.state.IsInStep) (deeds : List Deed) :
    (performAll clock deeds).state.IsInStep := by
  induction deeds generalizing clock with
  | nil => exact h
  | cons deed deeds ih => exact ih (h.perform deed)

theorem isInUse_perform (h : clock.state.dispatcher.IsInUse clock.now) (deed : Deed) :
    (perform clock deed).state.dispatcher.IsInUse (perform clock deed).now := by
  have inUse : (dispatching clock).state.IsInUse (dispatching clock).now := h
  exact inUse.becomes (becomes_perform clock deed)

theorem isInUse_performAll (h : clock.state.dispatcher.IsInUse clock.now) (deeds : List Deed) :
    (performAll clock deeds).state.dispatcher.IsInUse (performAll clock deeds).now := by
  induction deeds generalizing clock with
  | nil => exact h
  | cons deed deeds ih => exact ih (isInUse_perform h deed)

/-- A dispatcher that was shut down stays as it is, whatever is done with its node. -/
theorem dispatcher_performAll_of_dead (h : clock.state.dispatcher.IsInUse clock.now)
    (dead : clock.state.dispatcher.isAlive = false) (deeds : List Deed) :
    (performAll clock deeds).state.dispatcher = clock.state.dispatcher := by
  induction deeds generalizing clock with
  | nil => rfl
  | cons deed deeds ih =>
    have inUse : (dispatching clock).state.IsInUse (dispatching clock).now := h
    have still : (perform clock deed).state.dispatcher = clock.state.dispatcher :=
      inUse.of_dead dead (becomes_perform clock deed)
    exact (ih (isInUse_perform h deed) (still ▸ dead)).trans still

theorem fresh_ofConfiguration {config : Settings.Configuration} {picks : Nat → Nat}
    (built : (ofConfiguration config picks).value = .ok node) :
    node.IsInStep ∧ node.isRunning = false ∧ ∃ settings, node.dispatcher = { settings } := by
  unfold ofConfiguration at built
  simp only [bind, pure] at built
  split at built
  · cases built
  · split at built <;>
    · obtain rfl := Except.ok.inj built
      exact ⟨rfl, rfl, _, rfl⟩

/-- Whatever has been done with a node, a shutdown cancels its loads and leaves the listener closed.
It ends the dispatcher and its queues exactly if the node has ever been running, and the dispatcher
then stays as it is whatever is done later. Of a node that was never started the dispatcher goes on
as if there had been no shutdown. -/
theorem shutdown_ends_what_was_started (config : Settings.Configuration) {picks : Nat → Nat}
    (clock : Clocked Node) (built : (ofConfiguration config picks).value = .ok clock.state)
    (deeds : List Deed) (mesh : Nat → Mesh) :
    let before := performAll clock deeds
    let shut := perform before (.shutdown mesh)
    shut.state.IsSettled ∧ shut.state.isRunning = false ∧ shut.state.listener.isRunning = false ∧
    (shut.state.dispatcher.isAlive = false ∧ shut.state.dispatcher.queues = ∅ ↔
      HasRun clock deeds) ∧
    (HasRun clock deeds → ∀ later,
      (performAll shut later).state.dispatcher = shut.state.dispatcher) ∧
    (¬HasRun clock deeds → shut.state.dispatcher = before.state.dispatcher) := by
  intro before shut
  obtain ⟨inStep, -, settings, fresh⟩ := fresh_ofConfiguration built
  have start : clock.state.dispatcher.IsInUse clock.now :=
    fresh ▸ Dispatcher.isInUse_start settings clock.now
  have inUse : shut.state.dispatcher.IsInUse shut.now :=
    isInUse_perform (isInUse_performAll start deeds) (.shutdown mesh)
  have kept : shut.state.dispatcher.isAlive =
      (before.state.dispatcher.isAlive && !before.state.isRunning) :=
    (becomes_perform before (.shutdown mesh)).keeps.2
  have alive : clock.state.dispatcher.isAlive = true := by rw [fresh]
  have ended : shut.state.dispatcher.isAlive = false ↔ HasRun clock deeds := by
    rw [kept, hasRun_iff, ← Bool.not_eq_true, Bool.and_eq_true, isAlive_performAll,
      and_iff_right alive, Bool.not_eq_true', ← Bool.not_eq_true, not_and_or, not_not, not_not,
      or_comm]
  have closed : shut.state.IsInStep ∧ shut.state.isRunning = false := by
    rw [perform_shutdown]
    exact (inStep.performAll deeds).shutdown _ _
  refine ⟨?_, closed.2, closed.1.trans closed.2, ?_, fun run => ?_, fun never => ?_⟩
  · rw [perform_shutdown]
    exact isSettled_shutdown _ _ _
  · rw [← ended]
    exact and_iff_left_of_imp inUse.noQueues
  · exact dispatcher_performAll_of_dead inUse (ended.2 run)
  · have idle : before.state.isRunning = false :=
      Bool.not_eq_true _ ▸ fun running => never (hasRun_iff.2 (.inl running))
    rw [perform_shutdown, shutdown_of_idle idle]

/-- The node at the fixed address, with which nothing has been done. -/
def untouched : Node where
  listener := (Listener.ofConfiguration fixedAddress).value
  provider := .manual fixedAddress.peerUrls
  dispatcher := { settings := (Settings.Replication.ofConfiguration fixedAddress).value }
  loader := none
  lookupTimeout := fixedAddress.socketTimeout.value

theorem ofConfiguration_fixedAddress : (ofConfiguration fixedAddress).value = .ok untouched := rfl

/-- A cache is made and written to at a node that knows a peer of it and is not started. -/
def unstarted : List Deed :=
  [.addCache "c" answering, .live ⟨.meet (.manual ["tcp://127.0.0.1:40002/c"]), answering⟩,
    .live ⟨.change "c" (.put ⟨"k", [1], 1, 0⟩), answering⟩]

/-- The queue in which the element waits. -/
def waiting : Queue Fanout where
  cache := "c"
  pending := [.put "c" ⟨"k", [1], 1, 0⟩]

/-- What the node knows of its peer. -/
def peerAway : Neighbours where
  registry := Registry.register {} 0 "tcp://127.0.0.1:40002/c"
  localUrls := ["tcp://127.0.0.1:40001/c"]
  mesh := answering 0
  lookupTimeout := Settings.Configuration.defaultSocketTimeout

/-- The flusher looks the peer up, calls it, and is told that it has answered. -/
theorem run_waiting (timeout : Nat) :
    (waiting.run (.fanout peerAway timeout) 0 2000 {}).1.deliveries.map (·.url) =
      ["tcp://127.0.0.1:40002/c"] := by
  unfold Queue.run
  rw [if_neg (by rintro ⟨⟩),
    Queue.acts_of_due (show waiting.nextAct? _ 0 = some 1000 from rfl) (by decide),
    Queue.acts_of_due (show _ = some 1000 from rfl) (by decide),
    Queue.acts_of_due (show _ = some 1000 from rfl) (by decide), Queue.acts_of_none rfl]
  rfl

/-- A node that was never started sends an element to a peer after it has been shut down. -/
theorem sends_after_shutdown :
    let start : Clocked Node := { state := untouched }
    let shut := perform (performAll start unstarted) (.shutdown answering)
    let later := performAll shut [.live ⟨.pass 2000, answering⟩]
    ¬HasRun start unstarted ∧ shut.state.IsSettled ∧ shut.state.dispatcher.isAlive = true ∧
    shut.state.dispatcher.queues.get? "c" = some waiting ∧ shut.state.deliveries.length = 0 ∧
    ∃ queue, later.state.dispatcher.queues.get? "c" = some queue ∧
      queue.deliveries.map (·.url) = ["tcp://127.0.0.1:40002/c"] := by
  intro start shut later
  obtain ⟨settled, -, -, ends, -, goesOn⟩ := shutdown_ends_what_was_started fixedAddress start
    ofConfiguration_fixedAddress unstarted answering
  have alive : shut.state.dispatcher.isAlive = true := by decide +kernel
  have never : ¬HasRun start unstarted := fun run =>
    absurd alive (Bool.not_eq_true _ ▸ (ends.2 run).1)
  have waits : shut.state.dispatcher.queues.get? "c" = some waiting :=
    (congrArg (·.queues.get? "c") (goesOn never)).trans rfl
  have now : shut.now = 0 := by decide +kernel
  have fresh : start.state.dispatcher.IsInUse start.now := Dispatcher.isInUse_start _ 0
  have inUse : shut.state.dispatcher.IsInUse 0 := by
    rw [← now]
    exact isInUse_perform (isInUse_performAll fresh unstarted) _
  have knows : shut.state.neighbours (answering 9) = peerAway := by
    have own : shut.state.listener.advertised = ["tcp://127.0.0.1:40001/c"] := by decide +kernel
    rw [neighbours, own]
    rfl
  have passed : later.state.dispatcher = shut.state.dispatcher.run peerAway 0 2000 := by
    rw [← knows, ← Nat.zero_add 2000, ← now]
    exact dispatcher_run shut.state _ _ _
  refine ⟨never, settled, alive, waits, by decide +kernel, _, ?_,
    run_waiting shut.state.dispatcher.settings.callTimeout⟩
  rw [passed, inUse.get?_run (Nat.zero_le 2000), waits]
  rfl

end Node

/-! ## Events of a running node -/

namespace Dispatcher

/-- The dispatcher has called each peer that it found, with the message of an event. -/
def HasDelivered (neighbours : Neighbours) (now : Nat) (event : Event)
    (before after : Dispatcher) : Prop :=
  ∃ message calls, event.message? = some message ∧ after.sent = before.sent ++ calls ∧
    calls.map (·.url) = (neighbours.lookUp now event.cache).found ∧
    ∀ call ∈ calls, call.action = message.action

/-- An event waits behind those of before in an open queue, the flusher of which will act. -/
def HasQueued (neighbours : Neighbours) (now : Nat) (event : Event)
    (before after : Dispatcher) : Prop :=
  ∃ queue, after.queues.get? event.cache = some queue ∧ queue.closed = false ∧
    queue.pending = ((before.queues.get? event.cache).map (·.pending)).getD [] ++ [event] ∧
    ∃ time, queue.nextAct? (before.sink neighbours) now = some time

variable {dispatcher : Dispatcher} {now : Nat} {event taken : Event}

theorem hasDelivered_notify (isAlive : dispatcher.isAlive = true)
    (synchronous : dispatcher.settings.asynchronous = false)
    (accepted : dispatcher.settings.accept event = some taken) (speaks : taken.message?.isSome)
    (neighbours : Neighbours) :
    HasDelivered neighbours now taken dispatcher
      (dispatcher.notify neighbours now event).dispatcher := by
  obtain ⟨message, said⟩ := Option.isSome_iff_exists.1 speaks
  obtain ⟨calls, metrics, notified, called⟩ :=
    notify_at_once isAlive synchronous neighbours now event
  rw [accepted, Option.bind_some, said, ← Node.accept_cache accepted] at called
  rw [notified]
  exact ⟨message, calls, said, rfl, called⟩

theorem IsInUse.hasQueued_notify (h : dispatcher.IsInUse now) (isAlive : dispatcher.isAlive = true)
    (asynchronous : dispatcher.settings.asynchronous = true)
    (accepted : dispatcher.settings.accept event = some taken) (neighbours : Neighbours) :
    HasQueued neighbours now taken dispatcher
      (dispatcher.notify neighbours now event).dispatcher := by
  obtain ⟨queues, working⟩ := h.enqueue isAlive asynchronous accepted neighbours taken.cache
  have added := working.append now taken
  refine ⟨_, queues.trans (if_pos rfl), added.isOpen, ?_, added.exists_nextAct? ?_ _ _⟩
  · unfold queueFor
    rcases dispatcher.queues.get? taken.cache with _ | queue <;> rfl
  · exact List.append_ne_nil_of_right_ne_nil _ (List.cons_ne_nil _ _)

end Dispatcher

namespace Node

variable {node : Node} {cache : String} {store : Store} {change : Change} {event taken : Event}

/-- The event of a change has the element that it puts, and so has what is accepted of it. -/
theorem isSome_element (happened : (change.on cache store).2 = some event)
    (puts : event.kind = .put ∨ event.kind = .update) : event.element.isSome := by
  cases change with
  | put element =>
    obtain rfl := Option.some.inj happened
    split <;> rfl
  | remove key =>
    unfold Change.on at happened
    dsimp only at happened
    split at happened
    · obtain rfl := Option.some.inj happened
      rcases puts with puts | puts <;> cases puts
    · cases happened
  | removeAll =>
    obtain rfl := Option.some.inj happened
    rcases puts with puts | puts <;> cases puts

theorem accept_keeps {settings : Settings.Replication}
    (accepted : settings.accept event = some taken) :
    taken.kind = event.kind ∧ taken.element = event.element := by
  unfold Settings.Replication.accept at accepted
  split at accepted
  all_goals
    split at accepted
    · obtain rfl := Option.some.inj accepted
      exact ⟨rfl, rfl⟩
    · cases accepted

/-- What is accepted of a change has a message. -/
theorem isSome_message? {settings : Settings.Replication}
    (happened : (change.on cache store).2 = some event)
    (accepted : settings.accept event = some taken) : taken.message?.isSome := by
  obtain ⟨kind, element⟩ := accept_keeps accepted
  have carries := isSome_element happened
  rw [← kind, ← element] at carries
  unfold Event.message?
  split
  next put =>
    split
    · exact (Option.isSome_map ..).trans (carries (.inl put))
    · rfl
  next update =>
    split
    · exact (Option.isSome_map ..).trans (carries (.inr update))
    · rfl
  · rfl
  · rfl

theorem dispatcher_make (happened : (change.on cache store).2 = some event)
    (hosted : node.store? cache = some store) (mesh : Mesh) (now : Nat) :
    (node.make mesh now cache store change).node.dispatcher =
      (node.dispatcher.notify (node.neighbours mesh) now event).dispatcher := by
  rw [make_eq, happened, ← neighbours_setStore hosted (change.on cache store).1]
  rfl

/-- A running node has an open listener, whatever has been done with it. Its dispatcher is alive
exactly if the node was never shut down while it was running. Each change that the settings accept
is then delivered to the peers that are found, or waits in a queue for its turn. A node that was
started again after such a shutdown makes the change in its own store only. -/
theorem running_node_replicates_unless_restarted (config : Settings.Configuration)
    {picks : Nat → Nat} (clock : Clocked Node)
    (built : (ofConfiguration config picks).value = .ok clock.state) (deeds : List Deed)
    (running : (performAll clock deeds).state.isRunning = true) :
    let now := (performAll clock deeds).now
    let node := (performAll clock deeds).state
    let dispatcher := node.dispatcher
    node.listener.isRunning = true ∧
    (dispatcher.isAlive = true ↔ ¬WasShutDown clock deeds) ∧
    ∀ cache store change event taken mesh, node.store? cache = some store →
      (change.on cache store).2 = some event → dispatcher.settings.accept event = some taken →
      let made := (node.make mesh now cache store change).node
      made.store? cache = some (change.on cache store).1 ∧
      (¬WasShutDown clock deeds → dispatcher.settings.asynchronous = false →
        Dispatcher.HasDelivered (node.neighbours mesh) now taken dispatcher made.dispatcher) ∧
      (¬WasShutDown clock deeds → dispatcher.settings.asynchronous = true →
        Dispatcher.HasQueued (node.neighbours mesh) now taken dispatcher made.dispatcher) ∧
      (WasShutDown clock deeds → made.dispatcher = dispatcher) := by
  intro now node dispatcher
  obtain ⟨inStep, -, settings, fresh⟩ := fresh_ofConfiguration built
  have inUse : dispatcher.IsInUse now :=
    isInUse_performAll (fresh ▸ Dispatcher.isInUse_start settings clock.now) deeds
  have alive : dispatcher.isAlive = true ↔ ¬WasShutDown clock deeds :=
    isAlive_performAll.trans (and_iff_right (by rw [fresh]))
  refine ⟨(inStep.performAll deeds).trans running, alive, ?_⟩
  intro cache store change event taken mesh hosted happened accepted made
  have notified : made.dispatcher =
      (dispatcher.notify (node.neighbours mesh) now event).dispatcher :=
    dispatcher_make happened hosted mesh now
  rw [notified]
  refine ⟨?_, fun kept synchronous => ?_, fun kept asynchronous => ?_, fun ended => ?_⟩
  · rw [show made = (node.make mesh now cache store change).node from rfl, make_eq, happened]
    exact (store?_setStore node cache cache _).trans (if_pos rfl)
  · exact Dispatcher.hasDelivered_notify (alive.2 kept) synchronous accepted
      (isSome_message? happened accepted) _
  · exact inUse.hasQueued_notify (alive.2 kept) asynchronous accepted _
  · rw [Dispatcher.notify_of_none]
    exact if_neg fun live => alive.1 live ended

/-- A node that knows a peer of its cache is shut down and started again. -/
def restarted : List Deed :=
  [.start .isolated 0, .addCache "c" answering,
    .live ⟨.meet (.manual ["tcp://127.0.0.1:40002/c"]), answering⟩, .shutdown answering,
    .start .isolated 0]

/-- A node that was started again is running and writes to its own store, and sends nothing. -/
theorem restarted_node_sends_nothing :
    let ended := performAll { state := untouched } restarted
    let made := ended.state.make (answering 0) ended.now "c" ∅ (.put ⟨"k", [1], 1, 0⟩)
    ended.state.isRunning = true ∧ ended.state.listener.isRunning = true ∧
    ended.state.dispatcher.isAlive = false ∧
    made.node.store? "c" = some (Store.put ∅ ⟨"k", [1], 1, 0⟩) ∧
    made.node.dispatcher = ended.state.dispatcher ∧ ended.state.deliveries.length = 0 ∧
    ended.state.dispatcher.pending "c" = 0 := by
  intro ended made
  have running : ended.state.isRunning = true := by decide +kernel
  obtain ⟨listening, alive, changes⟩ := running_node_replicates_unless_restarted fixedAddress
    { state := untouched } ofConfiguration_fixedAddress restarted running
  have dead : ended.state.dispatcher.isAlive = false := by decide +kernel
  have wasShutDown : WasShutDown { state := untouched } restarted := by
    by_contra never
    exact absurd (alive.2 never) (Bool.not_eq_true _ ▸ dead)
  have accepted : ended.state.dispatcher.settings.accept (.put "c" ⟨"k", [1], 1, 0⟩) =
      some (.put "c" ⟨"k", [1], 1, 0⟩) := by decide +kernel
  obtain ⟨written, -, -, dropped⟩ := changes "c" ∅ (.put ⟨"k", [1], 1, 0⟩)
    (.put "c" ⟨"k", [1], 1, 0⟩) (.put "c" ⟨"k", [1], 1, 0⟩) (answering 0) rfl rfl accepted
  exact ⟨running, listening, dead, written, dropped wasShutDown, by decide +kernel,
    by decide +kernel⟩

end Node

end CacheCluster
