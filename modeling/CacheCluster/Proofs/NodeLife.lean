import CacheCluster.Proofs.Replica

/-! # The life of a node

A node is started and shut down, caches are added and changed, it learns of peers and time passes.
Whatever is done with it, each of its caches has a name that can stand in a url, and while it runs
its host is one that can be reached.
-/

namespace CacheCluster.Node

/-- Something that is done with a node, and how the peers behave in each turn of it. -/
inductive Deed
  | start (interfaces : Interfaces) (freePort : Nat)
  | addCache (name : String) (mesh : (turn : Nat) → Mesh)
  | live (moment : Moment)
  | shutdown (mesh : (turn : Nat) → Mesh)

/-- A node on a clock, after one more deed. -/
def perform (clock : Clocked Node) : Deed → Clocked Node
  | .start interfaces freePort =>
    { clock with state := (clock.state.start interfaces freePort).1 }
  | .addCache name mesh =>
    let added := clock.state.addCache (mesh clock.turn) clock.now name
    clock.after (background mesh) added.node added.finish
  | .live moment => step clock moment
  | .shutdown mesh =>
    let shut := clock.state.shutdown (mesh clock.turn) clock.now
    clock.after (background mesh) shut.node shut.finish

def performAll (clock : Clocked Node) (deeds : List Deed) : Clocked Node :=
  deeds.foldl perform clock

/-! ## What the others see of a node -/

/-- Two nodes look alike from outside, whatever is in their caches. -/
structure Resembles (before after : Node) : Prop where
  host : after.listener.host = before.listener.host
  names : after.cacheNames = before.cacheNames
  running : after.isRunning = before.isRunning
  listening : after.listener.isRunning = before.listener.isRunning

variable {before between after node : Node}

theorem Resembles.refl (node : Node) : node.Resembles node :=
  ⟨rfl, rfl, rfl, rfl⟩

theorem Resembles.trans (h : before.Resembles between) (h' : between.Resembles after) :
    before.Resembles after :=
  ⟨h'.host.trans h.host, h'.names.trans h.names, h'.running.trans h.running,
    h'.listening.trans h.listening⟩

theorem resembles_setStore {cache : String} {held : Store} (hosted : node.store? cache = some held)
    (store : Store) : node.Resembles (node.setStore cache store) :=
  ⟨rfl, Table.names_insert hosted store, rfl, rfl⟩

theorem resembles_absorb (node : Node) (writes : List Load.Write) :
    node.Resembles (node.absorb writes) :=
  absorb_induction (.refl node) fun _ _ _ hosted same => same.trans (resembles_setStore hosted _)

theorem resembles_run (node : Node) (mesh : Mesh) (now limit : Nat) :
    node.Resembles (node.run mesh now limit) := by
  unfold run
  dsimp only
  split
  · exact ⟨rfl, rfl, rfl, rfl⟩
  · refine .trans ?_ (resembles_absorb _ _)
    exact ⟨rfl, rfl, rfl, rfl⟩

theorem resembles_fill (node : Node) (mesh : Mesh) (now : Nat) (cache : String) :
    node.Resembles (node.fill mesh now cache).node := by
  unfold fill
  split
  · exact .refl node
  · refine .trans ?_ (resembles_absorb _ _)
    exact ⟨rfl, rfl, rfl, rfl⟩

theorem resembles_make {cache : String} {held : Store} (hosted : node.store? cache = some held)
    (mesh : Mesh) (now : Nat) (change : Change) :
    node.Resembles (node.make mesh now cache held change).node := by
  rw [make_eq]
  split
  · refine (resembles_setStore hosted (change.on cache held).1).trans ?_
    exact ⟨rfl, rfl, rfl, rfl⟩
  · exact .refl node

/-- A node looks the same after the wait for the end of a step as after the step. -/
theorem resembles_after (clock : Clocked Node) (mesh : Nat → Mesh) (node : Node) (finish : Nat) :
    node.Resembles (clock.after (background mesh) node finish).state := by
  unfold Clocked.after Clocked.waitUntil
  dsimp only
  split
  · exact resembles_run node _ _ _
  · exact .refl node

theorem resembles_step (clock : Clocked Node) (moment : Moment) :
    clock.state.Resembles (step clock moment).state := by
  unfold step
  split
  next cache change =>
    split
    next store hosted => exact (resembles_make hosted _ _ _).trans (resembles_after _ _ _ _)
    next => exact .refl _
  next => exact resembles_run _ _ _ _
  next => exact ⟨rfl, rfl, rfl, rfl⟩

/-! ## What a node keeps -/

/-- The caches have names that can stand in a url, and a running node is at a known host. -/
structure IsInOrder (node : Node) : Prop where
  named : ∀ name ∈ node.cacheNames, isCacheName name = true
  known : node.isRunning = true → Address.isKnownHost node.listener.host = true

theorem IsInOrder.of_resembles (h : before.IsInOrder) (same : before.Resembles after) :
    after.IsInOrder where
  named := by
    rw [same.names]
    exact h.named
  known := by
    rw [same.running, same.host]
    exact h.known

/-- A new node has no caches and does not run. -/
theorem new_ofConfiguration {config : Settings.Configuration} {picks : Nat → Nat}
    (built : (ofConfiguration config picks).value = .ok node) :
    node.listener.caches = ∅ ∧ node.isRunning = false := by
  unfold ofConfiguration at built
  simp only [bind, pure] at built
  split at built
  · cases built
  · split at built <;>
    · obtain rfl := Except.ok.inj built
      exact ⟨rfl, rfl⟩

theorem isInOrder_ofConfiguration {config : Settings.Configuration} {picks : Nat → Nat}
    (built : (ofConfiguration config picks).value = .ok node) : node.IsInOrder := by
  obtain ⟨bare, idle⟩ := new_ofConfiguration built
  constructor
  · intro name mem
    rw [cacheNames, bare] at mem
    cases mem
  · intro running
    rw [idle] at running
    cases running

theorem IsInOrder.start (h : node.IsInOrder) (interfaces : Interfaces) (freePort : Nat) :
    (node.start interfaces freePort).1.IsInOrder := by
  unfold Node.start
  split
  · exact h
  · split
    · exact h
    next listener opened =>
      unfold Listener.start at opened
      split at opened
      next known =>
        obtain rfl := Except.ok.inj opened
        split
        · exact ⟨h.named, fun _ => known⟩
        · exact ⟨h.named, fun _ => known⟩
      next => cases opened

theorem IsInOrder.addCache (h : node.IsInOrder) (mesh : Mesh) (now : Nat) (name : String) :
    (node.addCache mesh now name).node.IsInOrder := by
  unfold Node.addCache
  split
  · exact h
  next valid =>
    split
    · exact h
    · have made : (node.setStore name ∅).IsInOrder := by
        refine ⟨fun other mem => ?_, h.known⟩
        obtain ⟨store, hosted⟩ := Table.mem_names_iff.1 mem
        by_cases same : other = name
        · subst same
          simpa using valid
        · have held := (store?_setStore node name other ∅).symm.trans hosted
          rw [if_neg same] at held
          exact h.named other (Table.mem_names_iff.2 ⟨store, held⟩)
      exact made.of_resembles (resembles_fill _ mesh now name)

theorem IsInOrder.shutdown (h : node.IsInOrder) (mesh : Mesh) (now : Nat) :
    (node.shutdown mesh now).node.IsInOrder := by
  unfold Node.shutdown
  dsimp only
  split
  · exact ⟨h.named, h.known⟩
  · refine ⟨?_, nofun⟩
    unfold cacheNames Listener.stop
    dsimp only
    split
    · exact h.named
    · exact h.named

theorem IsInOrder.perform {clock : Clocked Node} (h : clock.state.IsInOrder) (deed : Deed) :
    (perform clock deed).state.IsInOrder := by
  cases deed with
  | start interfaces freePort => exact h.start interfaces freePort
  | addCache name mesh => exact (h.addCache _ _ _).of_resembles (resembles_after _ _ _ _)
  | live moment => exact h.of_resembles (resembles_step clock moment)
  | shutdown mesh => exact (h.shutdown _ _).of_resembles (resembles_after _ _ _ _)

theorem IsInOrder.performAll {clock : Clocked Node} (h : clock.state.IsInOrder)
    (deeds : List Deed) : (performAll clock deeds).state.IsInOrder := by
  induction deeds generalizing clock with
  | nil => exact h
  | cons deed deeds ih => exact ih (h.perform deed)

end CacheCluster.Node
