import CacheCluster.Proofs.Replica

/-! # Tasks that write at the same time

Several tasks use one cache of a node. A call looks, writes to the store and sends an event on, and
the steps of other calls may come between these. Nothing ties the order in which calls send to the
order in which they wrote, so what a peer ends with is what the last call to send on a key says.
-/

namespace CacheCluster

namespace Node

/-! ## Tasks -/

/-- How far a task is with a call. -/
inductive Phase
  | idle
  /-- It has looked whether there is an element with the key of the one to put. -/
  | looked (element : Element) (existed : Bool)
  /-- It has written to the store and has an event to send on. -/
  | written (event : Event)
  deriving DecidableEq

structure Task where
  /-- The calls that are still to be made. -/
  calls : List Change
  phase : Phase := .idle

/-- What a step of a task does. -/
inductive Effect
  | look
  | write (message : Message)
  | send (event : Event)

namespace Task

/-- The task after its next step, and what this step does. -/
def step (cache : String) (store : Store) (task : Task) : Task × Effect :=
  match task.phase with
  | .idle =>
    match task.calls with
    | [] => (task, .look)
    | .put element :: calls => (⟨calls, .looked element (store.contains element.key)⟩, .look)
    | .remove key :: calls =>
      if store.contains key then (⟨calls, .written (.remove cache key)⟩, .write (.remove key))
      else (⟨calls, .idle⟩, .look)
    | .removeAll :: calls => (⟨calls, .written (.removeAll cache)⟩, .write .removeAll)
  | .looked element existed =>
    (⟨task.calls, .written (if existed then .update cache element else .put cache element)⟩,
      .write (.put element))
  | .written event => (⟨task.calls, .idle⟩, .send event)

/-- The event that a task is still to send on. -/
def event? (task : Task) : Option Event :=
  match task.phase with
  | .written event => some event
  | _ => none

/-- The message that a task has written and not sent on. -/
def owed (task : Task) : List Message :=
  (task.event?.bind Event.message?).toList

end Task

/-- A node on a clock, and the tasks that use one of its caches. -/
structure Shared where
  clock : Clocked Node
  tasks : List Task
  /-- What was written to the store, in order. -/
  written : List Message := []
  /-- What was sent on, in order. -/
  sent : List Message := []

namespace Shared

/-- Something that happens while tasks share a cache. -/
inductive Happening
  /-- One of the tasks takes its next step. -/
  | step (index : Nat)
  | pass (milliseconds : Nat)
  | meet (provider : Provider)

/-- Something that happens, and how the peers behave in each turn. -/
structure Moment where
  happening : Happening
  mesh : (turn : Nat) → Mesh

/-- Carries out what a step of a task does. -/
def perform (cache : String) (mesh : Nat → Mesh) (store : Store) (shared : Shared) :
    Effect → Shared
  | .look => shared
  | .write message =>
    { shared with
      clock := { shared.clock with
        state := shared.clock.state.setStore cache (store.apply message) }
      written := shared.written ++ [message] }
  | .send event =>
    let notified := shared.clock.state.notify (mesh shared.clock.turn) shared.clock.now event
    { shared with
      clock := shared.clock.after (background mesh) notified.node notified.finish
      sent := shared.sent ++ event.message?.toList }

def step (cache : String) (shared : Shared) (moment : Moment) : Shared :=
  match moment.happening with
  | .step index =>
    match shared.tasks[index]?, shared.clock.state.store? cache with
    | some task, some store =>
      let (task, effect) := task.step cache store
      { shared with tasks := shared.tasks.set index task }.perform cache moment.mesh store effect
    | _, _ => shared
  | .pass milliseconds =>
    { shared with clock := Node.step shared.clock ⟨.pass milliseconds, moment.mesh⟩ }
  | .meet provider =>
    { shared with clock := Node.step shared.clock ⟨.meet provider, moment.mesh⟩ }

def run (cache : String) (shared : Shared) (moments : List Moment) : Shared :=
  moments.foldl (step cache) shared

/-- Tasks that are to make some calls each. -/
def start (clock : Clocked Node) (programs : List (List Change)) : Shared where
  clock := clock
  tasks := programs.map fun calls => { calls }

/-- What tasks have written and not sent on. -/
def owed (shared : Shared) : List Message :=
  shared.tasks.flatMap Task.owed

/-- No call is under way. -/
def HasReturned (shared : Shared) : Prop :=
  ∀ task ∈ shared.tasks, task.phase = .idle

instance (shared : Shared) : Decidable shared.HasReturned :=
  inferInstanceAs (Decidable (∀ task ∈ shared.tasks, task.phase = .idle))

/-- Every call has returned, the peer at `url` has answered every call to it, and nothing waits. -/
structure IsOver (url : String) (shared : Shared) : Prop where
  returned : shared.HasReturned
  succeed : ∀ call ∈ shared.clock.state.dispatcher.callsMade url, call.failed = false
  drained : shared.clock.state.dispatcher.IsDrained (PeerUrl.cacheName url)

end Shared

/-- The events by which a node tells of what it has written to a cache. -/
inductive Tells (cache : String) : Event → Message → Prop
  | put (element : Element) : Tells cache (.put cache element) (.put element)
  | update (element : Element) : Tells cache (.update cache element) (.put element)
  | remove (key : String) : Tells cache (.remove cache key) (.remove key)
  | removeAll : Tells cache (.removeAll cache) .removeAll

/-- Settings under which peers are sent everything as it is. -/
structure AllCopied (settings : Settings.Replication) : Prop
    extends Change.AllReplicated settings where
  putsViaCopy : settings.putsViaCopy = true
  updatesViaCopy : settings.updatesViaCopy = true

variable {settings : Settings.Replication} {cache url : String} {event : Event} {message : Message}

namespace Tells

theorem cache_eq (h : Tells cache event message) : event.cache = cache := by
  cases h <;> rfl

theorem message?_eq (h : Tells cache event message) : event.message? = some message := by
  cases h <;> rfl

theorem accept (h : Tells cache event message) (all : AllCopied settings) :
    settings.accept event = some event := by
  cases h with
  | put element =>
    simp [Settings.Replication.accept, Event.put, all.puts, all.putsViaCopy]
  | update element =>
    simp [Settings.Replication.accept, Event.update, all.updates, all.updatesViaCopy]
  | remove key => simp [Settings.Replication.accept, Event.remove, all.removals]
  | removeAll =>
    simp [Settings.Replication.accept, Event.removeAll, Settings.Replication.replicatesAnything,
      all.puts]

end Tells

namespace Task

variable {task : Task}

theorem owed_of_none (h : task.event? = none) : task.owed = [] := by
  rw [owed, h]
  rfl

theorem owed_of_some (h : task.event? = some event) : task.owed = event.message?.toList := by
  rw [owed, h]
  rfl

/-- What a step of a task can be: it writes only when it owes nothing, and then it owes what it has
written until it sends that. -/
inductive Proceeds (cache : String) (task next : Task) : Effect → Prop
  | look (before : task.event? = none) (after : next.event? = none) :
      Proceeds cache task next .look
  | write {event : Event} {message : Message} (before : task.event? = none)
      (after : next.event? = some event) (tells : Tells cache event message) :
      Proceeds cache task next (.write message)
  | send {event : Event} (before : task.event? = some event) (after : next.event? = none) :
      Proceeds cache task next (.send event)

theorem proceeds_step (cache : String) (store : Store) (task : Task) :
    Proceeds cache task (task.step cache store).1 (task.step cache store).2 := by
  rcases task with ⟨calls, _ | ⟨element, existed⟩ | event⟩
  case idle =>
    rcases calls with _ | ⟨element | key | _, calls⟩
    · exact .look rfl rfl
    · exact .look rfl rfl
    · unfold step
      dsimp only
      split
      · exact .write rfl rfl (.remove key)
      · exact .look rfl rfl
    · exact .write rfl rfl .removeAll
  case looked =>
    cases existed with
    | false => exact .write rfl rfl (.put element)
    | true => exact .write rfl rfl (.update element)
  case written =>
    have sends : Proceeds cache ⟨calls, .written event⟩ ⟨calls, .idle⟩ (.send event) :=
      .send rfl rfl
    exact sends

end Task

/-- All tasks that have something to send on tell of what they have written. -/
def AllTell (cache : String) (tasks : List Task) : Prop :=
  ∀ task ∈ tasks, ∀ event, task.event? = some event → ∃ message, Tells cache event message

theorem AllTell.proceeds {first rest : List Task} {task next : Task} {effect : Effect}
    (h : AllTell cache (first ++ task :: rest)) (proceeds : Task.Proceeds cache task next effect) :
    AllTell cache (first ++ next :: rest) := by
  obtain ⟨before, later⟩ := List.forall_mem_append.1 h
  refine List.forall_mem_append.2 ⟨before, List.forall_mem_cons.2 ⟨fun event owed => ?_, ?_⟩⟩
  · cases proceeds with
    | look _ after => cases after.symm.trans owed
    | @write _ message _ after tells =>
      obtain rfl := Option.some.inj (after.symm.trans owed)
      exact ⟨message, tells⟩
    | send _ after => cases after.symm.trans owed
  · exact (List.forall_mem_cons.1 later).2

namespace Shared

variable {shared : Shared} {moment : Moment}

theorem step_of_known {index : Nat} {task : Task} {store : Store}
    (known : shared.tasks[index]? = some task)
    (hosted : shared.clock.state.store? cache = some store) (mesh : Nat → Mesh) :
    shared.step cache ⟨.step index, mesh⟩ =
      { shared with tasks := shared.tasks.set index (task.step cache store).1 }.perform cache mesh
        store (task.step cache store).2 := by
  unfold step
  dsimp only
  rw [known, hosted]

/-- Only one task takes a step at a time. -/
theorem step_task (cache : String) (shared : Shared) (index : Nat) (mesh : Nat → Mesh) :
    shared.step cache ⟨.step index, mesh⟩ = shared ∨
    ∃ first task rest next store effect,
      shared.tasks[index]? = some task ∧ shared.tasks = first ++ task :: rest ∧
      shared.clock.state.store? cache = some store ∧ Task.Proceeds cache task next effect ∧
      shared.step cache ⟨.step index, mesh⟩ =
        { shared with tasks := first ++ next :: rest }.perform cache mesh store effect := by
  rcases known : shared.tasks[index]? with _ | task
  · left
    unfold step
    dsimp only
    rw [known]
  rcases hosted : shared.clock.state.store? cache with _ | store
  · left
    unfold step
    dsimp only
    rw [known, hosted]
  · right
    obtain ⟨inside, here⟩ := List.getElem?_eq_some_iff.1 known
    refine ⟨shared.tasks.take index, task, shared.tasks.drop (index + 1), _, store, _, rfl, ?_, rfl,
      task.proceeds_step cache store, ?_⟩
    · rw [← here, List.getElem_cons_drop, List.take_append_drop]
    · rw [step_of_known known hosted, List.set_eq_take_append_cons_drop, if_pos inside]

/-- A task that writes and then sends does both at one go. -/
theorem run_write {index : Nat} {task : Task} {calls : List Change} {store : Store} {event : Event}
    {message : Message} (known : shared.tasks[index]? = some task)
    (hosted : shared.clock.state.store? cache = some store) (mesh : Nat → Mesh)
    (writes : task.step cache store = (⟨calls, .written event⟩, .write message)) :
    let ended := shared.run cache [⟨.step index, mesh⟩, ⟨.step index, mesh⟩]
    let notified := (shared.clock.state.setStore cache (store.apply message)).notify
      (mesh shared.clock.turn) shared.clock.now event
    ended.clock = shared.clock.after (background mesh) notified.node notified.finish ∧
      ended.tasks = shared.tasks.set index ⟨calls, .idle⟩ := by
  obtain ⟨inside, -⟩ := List.getElem?_eq_some_iff.1 known
  have wrote := step_of_known known hosted mesh
  rw [writes] at wrote
  have hosts : (shared.step cache ⟨.step index, mesh⟩).clock.state.store? cache =
      some (store.apply message) := by
    rw [wrote]
    exact (store?_setStore _ _ _ _).trans (if_pos rfl)
  have owes : (shared.step cache ⟨.step index, mesh⟩).tasks[index]? =
      some ⟨calls, .written event⟩ := by
    rw [wrote]
    exact List.getElem?_set_self inside
  have sent := step_of_known owes hosts mesh
  rw [wrote] at sent
  rw [run, List.foldl_cons, List.foldl_cons, List.foldl_nil, wrote, sent]
  exact ⟨rfl, List.set_set ..⟩

/-- The steps of a call that no other step comes between are the change as the node makes it. -/
theorem run_call {index : Nat} {change : Change} {calls : List Change} {store : Store}
    (known : shared.tasks[index]? = some ⟨change :: calls, .idle⟩)
    (hosted : shared.clock.state.store? cache = some store) (mesh : Nat → Mesh) :
    ∃ count,
      let ended := shared.run cache (List.replicate count ⟨.step index, mesh⟩)
      let made := Node.step shared.clock ⟨.change cache change, mesh⟩
      ended.clock.state = made.state ∧ ended.clock.now = made.now ∧
        ended.tasks = shared.tasks.set index ⟨calls, .idle⟩ := by
  have made : Node.step shared.clock ⟨.change cache change, mesh⟩ =
      let made :=
        shared.clock.state.make (mesh shared.clock.turn) shared.clock.now cache store change
      shared.clock.after (background mesh) made.node made.finish := by
    unfold Node.step
    dsimp only
    rw [hosted]
  rw [made, make_eq]
  cases change with
  | put element =>
    obtain ⟨inside, -⟩ := List.getElem?_eq_some_iff.1 known
    let looked : Shared := { shared with
      tasks := shared.tasks.set index ⟨calls, .looked element (store.contains element.key)⟩ }
    have first : shared.step cache ⟨.step index, mesh⟩ = looked := step_of_known known hosted mesh
    have next : looked.tasks[index]? =
        some ⟨calls, .looked element (store.contains element.key)⟩ := List.getElem?_set_self inside
    obtain ⟨clock, tasks⟩ := run_write next hosted mesh rfl
    refine ⟨3, ?_⟩
    rw [run, List.replicate_succ, List.foldl_cons, first]
    exact ⟨congrArg (·.state) clock, congrArg (·.now) clock, tasks.trans (List.set_set ..)⟩
  | remove key =>
    by_cases present : store.contains key = true
    · have did : Change.on cache store (.remove key) =
          (store.remove key, some (.remove cache key)) := if_pos present
      obtain ⟨clock, tasks⟩ := run_write known hosted mesh (if_pos present)
      rw [did]
      exact ⟨2, congrArg (·.state) clock, congrArg (·.now) clock, tasks⟩
    · have did : Change.on cache store (.remove key) = (store, none) := if_neg present
      have looks : Task.step cache store ⟨.remove key :: calls, .idle⟩ =
          (⟨calls, .idle⟩, .look) := if_neg present
      have looked := step_of_known known hosted mesh
      rw [looks] at looked
      rw [did]
      refine ⟨1, ?_⟩
      rw [run, List.replicate_one, List.foldl_cons, List.foldl_nil, looked]
      unfold Clocked.after Clocked.waitUntil
      dsimp only
      rw [if_neg (Nat.lt_irrefl _), Nat.max_self]
      exact ⟨rfl, rfl, rfl⟩
  | removeAll =>
    obtain ⟨clock, tasks⟩ := run_write known hosted mesh rfl
    exact ⟨2, congrArg (·.state) clock, congrArg (·.now) clock, tasks⟩

/-! ## What is written and what is sent -/

/-- What is written is owed until it is sent. -/
inductive Moves (before after : Shared) : Prop
  | write (first messages rest : List Message)
      (written : after.written = before.written ++ messages) (sent : after.sent = before.sent)
      (owed : before.owed = first ++ rest) (owes : after.owed = first ++ messages ++ rest)
  | send (first messages rest : List Message)
      (written : after.written = before.written) (sent : after.sent = before.sent ++ messages)
      (owed : before.owed = first ++ messages ++ rest) (owes : after.owed = first ++ rest)

theorem Moves.of_same {before after : Shared} (written : after.written = before.written)
    (sent : after.sent = before.sent) (owed : after.owed = before.owed) : Moves before after :=
  .write [] [] before.owed (written.trans (List.append_nil _).symm) sent rfl owed

theorem owed_perform (cache : String) (mesh : Nat → Mesh) (store : Store) (shared : Shared)
    (effect : Effect) : (shared.perform cache mesh store effect).owed = shared.owed := by
  cases effect <;> rfl

theorem moves_step (cache : String) (shared : Shared) (moment : Moment) :
    Moves shared (shared.step cache moment) := by
  rcases moment with ⟨index | _ | _, mesh⟩
  case step =>
    rcases shared.step_task cache index mesh with
      still | ⟨first, task, rest, next, store, effect, -, split, -, proceeds, stepped⟩
    · exact .of_same (by rw [still]) (by rw [still]) (by rw [still])
    · have owed : shared.owed = first.flatMap Task.owed ++ task.owed ++ rest.flatMap Task.owed := by
        rw [Shared.owed, split, List.flatMap_append, List.flatMap_cons, List.append_assoc]
      have owes : (shared.step cache ⟨.step index, mesh⟩).owed =
          first.flatMap Task.owed ++ next.owed ++ rest.flatMap Task.owed := by
        rw [stepped, owed_perform, Shared.owed, List.flatMap_append, List.flatMap_cons,
          List.append_assoc]
      cases proceeds with
      | look before after =>
        rw [Task.owed_of_none before] at owed
        rw [Task.owed_of_none after] at owes
        exact .of_same (by rw [stepped]; rfl) (by rw [stepped]; rfl) (owes.trans owed.symm)
      | write before after tells =>
        rw [Task.owed_of_none before, List.append_nil] at owed
        rw [Task.owed_of_some after, tells.message?_eq] at owes
        exact .write _ _ _ (by rw [stepped]; rfl) (by rw [stepped]; rfl) owed owes
      | send before after =>
        rw [Task.owed_of_some before] at owed
        rw [Task.owed_of_none after, List.append_nil] at owes
        exact .send _ _ _ (by rw [stepped]; rfl) (by rw [stepped]; rfl) owed owes
  all_goals exact .of_same rfl rfl rfl

/-- What was written is what was sent and what is owed, in some order. -/
def Accounts (shared : Shared) : Prop :=
  shared.written.Perm (shared.sent ++ shared.owed)

theorem Moves.accounts {before after : Shared} (moves : Moves before after)
    (h : before.Accounts) : after.Accounts := by
  unfold Accounts at h ⊢
  rcases moves with ⟨first, messages, rest, written, sent, owed, owes⟩ |
    ⟨first, messages, rest, written, sent, owed, owes⟩
  · rw [written, sent, owes]
    rw [owed] at h
    grind
  · rw [written, sent, owes]
    rw [owed] at h
    grind

/-- At most one task owes a message on a key. -/
def IsExclusive (key : String) (shared : Shared) : Prop :=
  (shared.owed.filter (·.concerns key)).length ≤ 1

/-- What was written on a key is what was sent on it and what is owed, in this order. -/
def IsOrdered (key : String) (shared : Shared) : Prop :=
  shared.written.filter (·.concerns key) = (shared.sent ++ shared.owed).filter (·.concerns key)

/-- Where there is at most one message on a key, there is no order among them. -/
theorem filter_eq_of_perm {first second : List Message} {key : String} (same : first.Perm second)
    (short : (first.filter (·.concerns key)).length ≤ 1) :
    first.filter (·.concerns key) = second.filter (·.concerns key) := by
  have same := same.filter (·.concerns key)
  generalize first.filter (·.concerns key) = one at same short ⊢
  rcases one with _ | ⟨message, _ | _⟩
  · exact (List.nil_perm.1 same).symm
  · exact List.singleton_perm.1 same
  · simp at short

theorem Moves.isOrdered {before after : Shared} {key : String} (moves : Moves before after)
    (h : before.IsOrdered key) (exclusive : before.IsExclusive key)
    (stays : after.IsExclusive key) : after.IsOrdered key := by
  unfold IsOrdered IsExclusive at *
  rcases moves with ⟨first, messages, rest, written, sent, owed, owes⟩ |
    ⟨first, messages, rest, written, sent, owed, owes⟩
  · rw [owes] at stays
    have last : (first ++ messages ++ rest).filter (·.concerns key) =
        (first ++ rest ++ messages).filter (·.concerns key) :=
      filter_eq_of_perm (by grind) stays
    rw [written, sent, owes, List.filter_append before.sent, last, List.filter_append, h, owed,
      List.filter_append before.sent, List.filter_append (first ++ rest), List.append_assoc]
  · rw [owed] at exclusive
    have next : (first ++ messages ++ rest).filter (·.concerns key) =
        (messages ++ (first ++ rest)).filter (·.concerns key) :=
      filter_eq_of_perm (by grind) exclusive
    rw [written, sent, owes, h, owed, List.filter_append, next, ← List.filter_append,
      List.append_assoc]

/-! ## What the peer is sent -/

/-- At every look-up of a moment for its cache, `url` is found. -/
def FindsIn (url : String) (shared : Shared) : Moment → Prop
  | ⟨.step index, mesh⟩ => ∀ task event, shared.tasks[index]? = some task →
    task.event? = some event →
      Dispatcher.FindsAtOnce (shared.clock.state.neighbours (mesh shared.clock.turn))
        shared.clock.now url shared.clock.state.dispatcher event
  | ⟨.pass milliseconds, mesh⟩ => Node.FindsIn url shared.clock ⟨.pass milliseconds, mesh⟩
  | ⟨.meet _, _⟩ => True

/-- At every look-up of a run for its cache, `url` is found. -/
def FindsThroughout (url : String) : Shared → List Moment → Prop
  | _, [] => True
  | shared, moment :: moments =>
    FindsIn url shared moment ∧
      FindsThroughout url (shared.step (PeerUrl.cacheName url) moment) moments

theorem FindsThroughout.append {first rest : List Moment} (h : FindsThroughout url shared first)
    (later : FindsThroughout url (shared.run (PeerUrl.cacheName url) first) rest) :
    FindsThroughout url shared (first ++ rest) := by
  induction first generalizing shared with
  | nil => exact later
  | cons moment first ih => exact ⟨h.1, ih h.2 later⟩

/-- Throughout a run, at most one task owes a message on a key. -/
def ExclusiveThroughout (cache key : String) : Shared → List Moment → Prop
  | shared, [] => shared.IsExclusive key
  | shared, moment :: moments =>
    shared.IsExclusive key ∧ ExclusiveThroughout cache key (shared.step cache moment) moments

theorem length_owed_le (shared : Shared) : shared.owed.length ≤ shared.tasks.length := by
  have owed : shared.owed = shared.tasks.filterMap fun task => task.event?.bind Event.message? :=
    (List.filterMap_eq_flatMap_toList _ _).symm
  rw [owed]
  exact List.length_filterMap_le _ _

theorem length_tasks_step (cache : String) (shared : Shared) (moment : Moment) :
    (shared.step cache moment).tasks.length = shared.tasks.length := by
  rcases moment with ⟨index | _ | _, mesh⟩
  case step =>
    rcases shared.step_task cache index mesh with
      still | ⟨first, task, rest, next, store, effect, -, split, -, -, stepped⟩
    · rw [still]
    · have tasks : (shared.step cache ⟨.step index, mesh⟩).tasks = first ++ next :: rest := by
        rw [stepped]
        cases effect <;> rfl
      rw [tasks, split, List.length_append, List.length_append]
      rfl
  all_goals rfl

/-- No call comes between the writing and the sending of another one when there is only one task. -/
theorem exclusiveThroughout_of_single (single : shared.tasks.length ≤ 1) (cache key : String)
    (moments : List Moment) : ExclusiveThroughout cache key shared moments := by
  have exclusive : shared.IsExclusive key :=
    (List.length_filter_le _ _).trans (shared.length_owed_le.trans single)
  induction moments generalizing shared with
  | nil => exact exclusive
  | cons moment moments ih =>
    have later := (length_tasks_step cache shared moment).trans_le single
    exact ⟨exclusive, ih later ((List.length_filter_le _ _).trans ((length_owed_le _).trans later))⟩

/-- What holds while tasks use a cache that a peer at `url` follows. -/
structure Tracks (settings : Settings.Replication) (url : String) (store : Store)
    (shared : Shared) : Prop where
  sending : ∃ events, Sending settings url events shared.clock ∧
    Dispatcher.messagesFor (PeerUrl.cacheName url) events = shared.sent
  hosted : shared.clock.state.store? (PeerUrl.cacheName url) =
    some (store.applyAll shared.written)
  tell : AllTell (PeerUrl.cacheName url) shared.tasks

variable {store : Store}

theorem Tracks.stepTask (h : Tracks settings url store shared) (all : AllCopied settings)
    {index : Nat} {mesh : Nat → Mesh} (finds : FindsIn url shared ⟨.step index, mesh⟩) :
    Tracks settings url store (shared.step (PeerUrl.cacheName url) ⟨.step index, mesh⟩) := by
  rcases shared.step_task (PeerUrl.cacheName url) index mesh with
    still | ⟨first, task, rest, next, held, effect, known, split, hosted, proceeds, stepped⟩
  · rwa [still]
  obtain ⟨events, sending, told⟩ := h.sending
  have tell : AllTell (PeerUrl.cacheName url) (first ++ next :: rest) :=
    (split ▸ h.tell).proceeds proceeds
  rw [stepped]
  cases proceeds with
  | look => exact ⟨⟨events, sending, told⟩, h.hosted, tell⟩
  | @write event message =>
    refine ⟨⟨events, sending.setStore _ _, told⟩, ?_, tell⟩
    obtain rfl := Option.some.inj (hosted.symm.trans h.hosted)
    have applied := Store.applyAll_append store shared.written [message]
    exact (store?_setStore _ _ _ _).trans ((if_pos rfl).trans (congrArg some applied.symm))
  | @send event owed =>
    obtain ⟨message, tells⟩ := h.tell task (List.mem_of_getElem? known) event owed
    obtain ⟨sending, same⟩ := sending.notify mesh (finds task event known owed)
    refine ⟨⟨_, sending, ?_⟩, (same _).trans h.hosted, tell⟩
    rw [Dispatcher.messagesFor_append, told, messagesFor_accept, tells.accept all, tells.cache_eq,
      if_pos rfl]
    rfl

theorem Tracks.step (h : Tracks settings url store shared) (all : AllCopied settings)
    (finds : FindsIn url shared moment) :
    Tracks settings url store (shared.step (PeerUrl.cacheName url) moment) := by
  obtain ⟨events, sending, told⟩ := h.sending
  rcases moment with ⟨index | milliseconds | provider, mesh⟩
  · exact h.stepTask all finds
  · obtain ⟨sending, same⟩ := sending.pass finds
    exact ⟨⟨events, sending, told⟩, (same _).trans h.hosted, h.tell⟩
  · exact ⟨⟨events, sending.meet provider, told⟩, h.hosted, h.tell⟩

theorem Tracks.run (h : Tracks settings url store shared) (all : AllCopied settings)
    {moments : List Moment} (finds : FindsThroughout url shared moments) :
    Tracks settings url store (shared.run (PeerUrl.cacheName url) moments) := by
  induction moments generalizing shared with
  | nil => exact h
  | cons moment moments ih => exact ih (h.step all finds.1) finds.2

theorem Accounts.run (h : shared.Accounts) (cache : String) (moments : List Moment) :
    (shared.run cache moments).Accounts := by
  induction moments generalizing shared with
  | nil => exact h
  | cons moment moments ih => exact ih ((moves_step cache shared moment).accounts h)

theorem IsOrdered.run {key : String} (h : shared.IsOrdered key) {moments : List Moment}
    (exclusive : ExclusiveThroughout cache key shared moments) :
    (shared.run cache moments).IsOrdered key := by
  induction moments generalizing shared with
  | nil => exact h
  | cons moment moments ih =>
    obtain ⟨before, later⟩ := exclusive
    have after : (shared.step cache moment).IsExclusive key := by
      rcases moments with _ | ⟨_, _⟩
      · exact later
      · exact later.1
    exact ih ((moves_step cache shared moment).isOrdered h before after) later

theorem tracks_start {node : Node} (fresh : node.dispatcher = { settings })
    (settled : node.IsSettled) (hosted : node.store? (PeerUrl.cacheName url) = some store)
    (now : Nat) (programs : List (List Change)) :
    Tracks settings url store (start { now, state := node } programs) where
  sending := ⟨[], sending_start fresh settled now url, rfl⟩
  hosted := hosted
  tell task mem event owed := by
    obtain ⟨calls, -, rfl⟩ := List.mem_map.1 mem
    cases owed

theorem owed_start (clock : Clocked Node) (programs : List (List Change)) :
    (start clock programs).owed = [] := by
  rw [owed, List.flatMap_eq_nil_iff]
  intro task mem
  obtain ⟨calls, -, rfl⟩ := List.mem_map.1 mem
  rfl

theorem HasReturned.owed_eq (h : shared.HasReturned) : shared.owed = [] := by
  rw [owed, List.flatMap_eq_nil_iff]
  intro task mem
  refine Task.owed_of_none ?_
  rw [Task.event?, h task mem]

end Shared

/-- Tasks write to a cache at the same time, and a peer that is always found answers every call.
When all is over, the peer has applied what was written, each message once, in the order in which
the calls sent it, whereas the store has applied it in the order in which they wrote. So the copy is
the same exactly if the last message on each key leaves the same in both orders. It is the same
whenever no call writes on a key while another one has written on it and not sent yet, and so if
there is one task only. -/
theorem shared_copies_agree_iff (node : Node) (settings : Settings.Replication) (now : Nat)
    (programs : List (List Change)) (moments : List Shared.Moment) (url : String) (store : Store)
    (all : AllCopied settings) (fresh : node.dispatcher = { settings }) (settled : node.IsSettled)
    (hosted : node.store? (PeerUrl.cacheName url) = some store)
    (finds : Shared.FindsThroughout url (.start { now, state := node } programs) moments)
    (isOver : Shared.IsOver url
      (Shared.run (PeerUrl.cacheName url) (.start { now, state := node } programs) moments)) :
    let cache := PeerUrl.cacheName url
    let start : Shared := .start { now, state := node } programs
    let ended := start.run cache moments
    let copy := Service.performAll store (ended.clock.state.dispatcher.answered url)
    let held := store.applyAll ended.written
    ended.clock.state.store? cache = some held ∧ copy = store.applyAll ended.sent ∧
    ended.sent.Perm ended.written ∧
    (copy = held ↔ ∀ key, Store.leaves key ended.sent = Store.leaves key ended.written) ∧
    ((∀ key, Shared.ExclusiveThroughout cache key start moments) → copy = held) ∧
    (programs.length ≤ 1 → copy = held) := by
  intro cache start ended copy held
  have tracks : Shared.Tracks settings url store ended :=
    (Shared.tracks_start fresh settled hosted now programs).run all finds
  obtain ⟨events, sending, told⟩ := tracks.sending
  have received : copy = store.applyAll ended.sent :=
    told ▸ sending.received isOver.succeed (fun _ => isOver.drained) store
  have nothing : start.owed = [] := Shared.owed_start _ _
  have paid : ended.owed = [] := isOver.returned.owed_eq
  have same : ended.sent.Perm ended.written := by
    have accounts : start.Accounts := by
      rw [Shared.Accounts, nothing]
      exact .nil
    have accounts := accounts.run cache moments
    rw [Shared.Accounts, paid, List.append_nil] at accounts
    exact accounts.symm
  have agree := Store.applyAll_eq_iff same store
  have exclusive (apart : ∀ key, Shared.ExclusiveThroughout cache key start moments) :
      copy = held := by
    rw [received, agree]
    intro key
    have ordered : start.IsOrdered key := by
      rw [Shared.IsOrdered, nothing]
      rfl
    have ordered := ordered.run (apart key)
    rw [Shared.IsOrdered, paid, List.append_nil] at ordered
    rw [Store.leaves, Store.leaves, ordered]
  refine ⟨tracks.hosted, received, same, received ▸ agree, exclusive, fun single => ?_⟩
  have single : start.tasks.length ≤ 1 := (List.length_map _).trans_le single
  exact exclusive fun key => Shared.exclusiveThroughout_of_single single cache key moments

/-- Two tasks that put elements with one key. -/
def rivals : List (List Change) :=
  [[.put ⟨"k", [1], 1, 0⟩], [.put ⟨"k", [2], 2, 0⟩]]

/-- Steps of some tasks, one after the other. -/
def stepsOf (indices : List Nat) : List Shared.Moment :=
  indices.map fun index => ⟨.step index, answering⟩

/-- Both tasks have looked before one of them writes, but the second one writes when the first one
has sent: the element of the second one is in both copies. -/
theorem shared_copies_agree_in_turn :
    let moments := stepsOf [0, 1, 0, 0, 1, 1]
    let ended := Shared.run "c" (.start { state := writing } rivals) moments
    ended.clock.state.store? "c" = some (Store.put ∅ ⟨"k", [2], 2, 0⟩) ∧
    Service.performAll ∅ (ended.clock.state.dispatcher.answered "tcp://away:4000/c") =
      Store.put ∅ ⟨"k", [2], 2, 0⟩ := by
  intro moments ended
  have named : PeerUrl.cacheName "tcp://away:4000/c" = "c" := by decide +kernel
  have finds : Shared.FindsThroughout "tcp://away:4000/c" (.start { state := writing } rivals)
      moments := by
    refine ⟨?_, ?_, ?_, ?_, ?_, ?_, trivial⟩ <;>
      exact fun _ _ _ _ _ _ _ _ _ => ⟨by decide +kernel, by decide +kernel, by decide +kernel⟩
  have isOver : Shared.IsOver "tcp://away:4000/c" ended := by
    refine ⟨by decide +kernel, by decide +kernel, by decide +kernel, fun queue known => ?_⟩
    have none : (ended.clock.state.dispatcher.queues.get? "c").isNone := by decide +kernel
    rw [named] at known
    rw [known] at none
    cases none
  have exclusive (key : String) :
      Shared.ExclusiveThroughout "c" key (.start { state := writing } rivals) moments := by
    refine ⟨?_, ?_, ?_, ?_, ?_, ?_, ?_⟩ <;>
      exact (List.length_filter_le _ _).trans (by decide +kernel)
  have written : ended.written = [.put ⟨"k", [1], 1, 0⟩, .put ⟨"k", [2], 2, 0⟩] := by
    decide +kernel
  obtain ⟨held, -, -, -, agree, -⟩ := shared_copies_agree_iff writing { asynchronous := false } 0
    rivals moments "tcp://away:4000/c" ∅ ⟨⟨rfl, rfl, rfl⟩, rfl, rfl⟩ rfl
    (fun loader known => by cases known) rfl finds isOver
  have same := agree exclusive
  rw [named] at held same
  rw [written] at held same
  exact ⟨held, same⟩

/-- The writer when it queues what it sends. -/
def collecting : Node :=
  { writing with dispatcher := {} }

/-- The second task comes between the writing and the sending of the first one, and then the queue
is drained. -/
def overtaking : List Shared.Moment :=
  stepsOf [0, 0, 1, 1, 1, 0] ++ [⟨.pass 1000, answering⟩]

/-- What the writer knows of its peer. -/
def away : Neighbours where
  registry := Registry.register {} 0 "tcp://away:4000/c"
  localUrls := ["tcp://localhost:4000/c"]
  mesh := answering 0
  lookupTimeout := 10

theorem finds_away (time : Nat) : away.Finds time "tcp://away:4000/c" where
  live := .head _
  notLocal := by decide +kernel
  answers := rfl

/-- The queue of the cache once both tasks have returned. -/
def overtaken : Queue Fanout where
  cache := "c"
  pending := [.update "c" ⟨"k", [2], 2, 0⟩, .put "c" ⟨"k", [1], 1, 0⟩]

/-- The queue when the flusher has sent the batch. -/
def emptied : Queue Fanout where
  cache := "c"
  flushes := [{
    start := 1000
    batch := ⟨"c", overtaken.pending⟩
    work := some (.ofPeers away.mesh Settings.Configuration.defaultSocketTimeout 1000
      [.put ⟨"k", [2], 2, 0⟩, .put ⟨"k", [1], 1, 0⟩] ["tcp://away:4000/c"])
    finish := some 1000 }]
  seen := 1000

theorem run_overtaken :
    (overtaken.run (.fanout away Settings.Configuration.defaultSocketTimeout) 0 1000 {}).1 =
      emptied := by
  unfold Queue.run
  rw [if_neg (by rintro ⟨⟩),
    Queue.acts_of_due (show overtaken.nextAct? _ 0 = some 1000 from rfl) (Nat.le_refl _),
    Queue.acts_of_due (show _ = some 1000 from rfl) (Nat.le_refl _),
    Queue.acts_of_due (show _ = some 1000 from rfl) (Nat.le_refl _), Queue.acts_of_none rfl]
  rfl

/-- The tasks once both have returned. -/
def bothReturned : Shared :=
  Shared.run "c" (.start { state := collecting } rivals) (stepsOf [0, 0, 1, 1, 1, 0])

theorem neighbours_bothReturned : bothReturned.clock.state.neighbours (answering 0) = away := by
  have provider : bothReturned.clock.state.provider = collecting.provider := rfl
  have own : bothReturned.clock.state.listener.advertised = ["tcp://localhost:4000/c"] := by
    decide +kernel
  have timeout : bothReturned.clock.state.lookupTimeout = collecting.lookupTimeout := rfl
  rw [neighbours, provider, own, timeout]
  rfl

theorem queue_bothReturned :
    bothReturned.clock.state.dispatcher.queues.get? "c" = some overtaken := rfl

theorem finds_bothReturned :
    Shared.FindsThroughout "tcp://away:4000/c" (.start { state := collecting } rivals)
      (stepsOf [0, 0, 1, 1, 1, 0]) := by
  refine ⟨?_, ?_, ?_, ?_, ?_, ?_, trivial⟩ <;>
    exact fun _ _ _ _ synchronous => absurd synchronous (by decide +kernel)

theorem finds_overtaking :
    Shared.FindsThroughout "tcp://away:4000/c" (.start { state := collecting } rivals)
      overtaking := by
  refine finds_bothReturned.append ⟨?_, trivial⟩
  exact fun flush _ _ => neighbours_bothReturned ▸ finds_away flush.start

theorem tracks_collecting {moments : List Shared.Moment}
    (finds : Shared.FindsThroughout "tcp://away:4000/c" (.start { state := collecting } rivals)
      moments) :
    Shared.Tracks {} "tcp://away:4000/c" ∅
      (Shared.run "c" (.start { state := collecting } rivals) moments) := by
  have named : PeerUrl.cacheName "tcp://away:4000/c" = "c" := by decide +kernel
  rw [← named]
  refine (Shared.tracks_start rfl (fun _ known => by cases known) ?_ 0 rivals).run
    ⟨⟨rfl, rfl, rfl⟩, rfl, rfl⟩ finds
  rw [named]
  rfl

theorem tracks_bothReturned : Shared.Tracks {} "tcp://away:4000/c" ∅ bothReturned :=
  tracks_collecting finds_bothReturned

/-- The tasks once the queue is drained. -/
def bothDrained : Shared :=
  Shared.run "c" (.start { state := collecting } rivals) overtaking

theorem dispatcher_bothDrained :
    bothDrained.clock.state.dispatcher = bothReturned.clock.state.dispatcher.run away 0 1000 := by
  obtain ⟨events, sending, -⟩ := tracks_bothReturned.sending
  have now : bothReturned.clock.now = 0 := by decide +kernel
  have ran := run_of_isSettled sending.settled (answering 0) 0 1000
  rw [bothDrained, overtaking, Shared.run, List.foldl_append]
  change (bothReturned.clock.state.run (answering 0) bothReturned.clock.now
    (bothReturned.clock.now + 1000)).dispatcher = _
  rw [now, ← neighbours_bothReturned]
  exact congrArg Node.dispatcher ran

theorem queue_bothDrained : bothDrained.clock.state.dispatcher.queues.get? "c" = some emptied := by
  obtain ⟨events, sending, -⟩ := tracks_bothReturned.sending
  have queueing := sending.sound.of_alive (sending.configured ▸ rfl) sending.isAlive
  rw [dispatcher_bothDrained, Dispatcher.get?_run away
    (fun cache queue known => (queueing.kept cache queue known).1.named) (Nat.zero_le _),
    queue_bothReturned, Option.map_some, Dispatcher.ranQueue, Dispatcher.sink, sending.configured]
  exact congrArg some run_overtaken

theorem callsMade_bothDrained :
    bothDrained.clock.state.dispatcher.callsMade "tcp://away:4000/c" =
      Delivery.callsTo "tcp://away:4000/c" emptied.deliveries := by
  have tracks : Shared.Tracks {} "tcp://away:4000/c" ∅ bothDrained :=
    tracks_collecting finds_overtaking
  obtain ⟨events, sending, -⟩ := tracks.sending
  have queueing := sending.sound.of_alive (sending.configured ▸ rfl) sending.isAlive
  have named : PeerUrl.cacheName "tcp://away:4000/c" = "c" := by decide +kernel
  rw [Dispatcher.callsMade, queueing.callsTo_deliveries, named, queue_bothDrained]
  rfl

/-- A put that writes first and sends last stays at the peer, and what overtook it stays in the
store. -/
theorem overtaken_put_diverges :
    let url := "tcp://away:4000/c"
    let start : Shared := .start { state := collecting } rivals
    let ended := start.run "c" overtaking
    let copy := Service.performAll ∅ (ended.clock.state.dispatcher.answered url)
    AllCopied collecting.dispatcher.settings ∧ collecting.store? "c" = some ∅ ∧
    Shared.FindsThroughout url start overtaking ∧ ended.IsOver url ∧
    ∃ held, ended.clock.state.store? "c" = some held ∧
      held.get? "k" = some ⟨"k", [2], 2, 0⟩ ∧ copy.get? "k" = some ⟨"k", [1], 1, 0⟩ := by
  have tracks : Shared.Tracks {} "tcp://away:4000/c" ∅ bothDrained :=
    tracks_collecting finds_overtaking
  obtain ⟨events, sending, told⟩ := tracks.sending
  have named : PeerUrl.cacheName "tcp://away:4000/c" = "c" := by decide +kernel
  have isOver : bothDrained.IsOver "tcp://away:4000/c" := by
    refine ⟨by decide +kernel, ?_, sending.isAlive, ?_⟩
    · rw [callsMade_bothDrained]
      decide +kernel
    · intro other known
      rw [named] at known
      obtain rfl := Option.some.inj (queue_bothDrained.symm.trans known)
      exact ⟨rfl, rfl⟩
  have received := sending.received isOver.succeed (fun _ => isOver.drained) ∅
  have sent : bothDrained.sent = [.put ⟨"k", [2], 2, 0⟩, .put ⟨"k", [1], 1, 0⟩] := by
    decide +kernel
  have written : bothDrained.written = [.put ⟨"k", [1], 1, 0⟩, .put ⟨"k", [2], 2, 0⟩] := by
    decide +kernel
  have held := tracks.hosted
  rw [told, sent] at received
  rw [named, written] at held
  refine ⟨⟨⟨rfl, rfl, rfl⟩, rfl, rfl⟩, rfl, finds_overtaking, isOver, _, held, by decide +kernel,
    ?_⟩
  exact (congrArg (Table.get? · "k") received).trans (by decide +kernel)

end Node

end CacheCluster
