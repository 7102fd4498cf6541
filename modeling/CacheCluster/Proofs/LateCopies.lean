import CacheCluster.Proofs.Convergence

/-! # Writing to a cache that is being loaded

A load in the background puts what it copies over what the cache holds by then, and does not look
at how new that is. So an element that is put meanwhile stays until the load has copied its key from
a peer, and is lost then.
-/

namespace CacheCluster

/-! ## What changes a key -/

/-- The messages that an action asks a store to apply. -/
def Request.Action.messages : Request.Action → List Message
  | .put element => [.put element]
  | .remove key => [.remove key]
  | .removeAll => [.removeAll]
  | .send messages => messages
  | _ => []

theorem Service.perform_messages (store : Store) (action : Request.Action) :
    (perform store action).2 = store.applyAll action.messages := by
  cases action <;> rfl

/-- A change, as what makes the same of a copy. -/
def Node.Change.message : Change → Message
  | .put element => .put element
  | .remove key => .remove key
  | .removeAll => .removeAll

namespace Store

variable {cache key : String} {messages : List Message}

theorem on_fst (store : Store) (cache : String) (change : Node.Change) :
    (change.on cache store).1 = store.apply change.message := by
  cases change with
  | put element => rfl
  | remove key =>
    unfold Node.Change.on
    dsimp only
    split
    · rfl
    next absent =>
      have none : store.get? key = none := by
        rw [← Option.not_isSome_iff_eq_none]
        exact absent
      refine Table.ext_get? fun other => ?_
      rw [Node.Change.message, apply, get?_remove]
      split
      next same => rw [same, none]
      next => rfl
  | removeAll => rfl

/-- Of the elements that are put, the last one with a key stays. -/
theorem get?_putAll_getLast? (store : Store) (elements : List Element) (key : String) :
    (putAll store elements).get? key =
      (elements.filter (·.key == key)).getLast?.or (store.get? key) := by
  induction elements generalizing store with
  | nil => rfl
  | cons element elements ih =>
    refine (ih (store.put element)).trans ?_
    rw [get?_put, List.filter_cons]
    by_cases same : element.key = key
    · rw [if_pos same.symm, if_pos (beq_iff_eq.2 same), List.getLast?_cons, Option.some_or]
      generalize (elements.filter (·.key == key)).getLast? = last
      cases last <;> rfl
    · rw [if_neg (Ne.symm same), if_neg (by simpa using same)]

def copies (cache key : String) (writes : List Load.Write) : List Element :=
  (((writes.filter (·.cache == cache)).mergeSort (·.time ≤ ·.time)).map (·.element)).filter
    (·.key == key)

theorem get?_absorb (store : Store) (cache key : String) (writes : List Load.Write) :
    (absorb cache writes store).get? key = (copies cache key writes).getLast?.or (store.get? key) :=
  get?_putAll_getLast? _ _ _

theorem filter_of_others {writes : List Load.Write}
    (others : ∀ write ∈ writes, write.cache ≠ cache) :
    writes.filter (·.cache == cache) = [] :=
  List.filter_eq_nil_iff.2 fun write mem => by simpa using others write mem

theorem copies_of_others {writes : List Load.Write}
    (others : ∀ write ∈ writes, write.cache ≠ cache) : copies cache key writes = [] := by
  rw [copies, filter_of_others others, List.mergeSort_nil]
  rfl

theorem absorb_of_others {writes : List Load.Write} (store : Store)
    (others : ∀ write ∈ writes, write.cache ≠ cache) : absorb cache writes store = store := by
  rw [absorb, filter_of_others others, List.mergeSort_nil]
  rfl

theorem absorb_nil (cache : String) : absorb cache [] = id :=
  funext fun store => absorb_of_others store (List.forall_mem_nil _)

end Store

/-! ## What loads put -/

namespace Load

variable {neighbours : Neighbours} {now : Nat} {limit : Option Nat} {load : Load}

theorem cache_acts (neighbours : Neighbours) (now : Nat) (limit : Option Nat) (load : Load) :
    (load.acts neighbours now limit).1.cache = load.cache ∧
      ∀ write ∈ (load.acts neighbours now limit).2, write.cache = load.cache := by
  induction now, load using acts.induct neighbours limit with
  | case1 now load none =>
    rw [acts_of_none none]
    exact ⟨rfl, List.forall_mem_nil _⟩
  | case2 now load time due inTime step _ _ _ ih =>
    obtain ⟨same, own⟩ := ih
    rw [acts_of_in_time due inTime]
    refine ⟨same, List.forall_mem_append.2 ⟨?_, own⟩⟩
    intro write mem
    obtain ⟨element, -, rfl⟩ := List.mem_map.1 mem
    rfl
  | case3 now load time due late =>
    rw [acts_of_late due late]
    exact ⟨rfl, List.forall_mem_nil _⟩

theorem writes_acts_of_silent {time : Nat} (due : due? now load.stage = some time)
    (inTime : limit.all (time ≤ ·) = true) (silent : (load.next time neighbours).2 = []) :
    (load.acts neighbours now limit).2 =
      ((load.acted neighbours time).acts neighbours time limit).2 := by
  rw [acts_of_in_time due inTime, silent]
  rfl

theorem cache_run (neighbours : Neighbours) (now limit : Nat) (load : Load) :
    (load.run neighbours now limit).1.cache = load.cache ∧
      ∀ write ∈ (load.run neighbours now limit).2, write.cache = load.cache := by
  unfold run
  split
  · exact cache_acts neighbours now (some limit) load
  · exact ⟨rfl, List.forall_mem_nil _⟩

theorem run_of_not_pending (loaded : load.isPending = false) (limit : Nat) :
    load.run neighbours now limit = (load, []) := by
  rw [run, loaded]
  rfl

end Load

namespace Loader

variable {loader : Loader}

def HasLoaded (cache : String) (loader : Loader) : Prop :=
  ∀ load ∈ loader.loads, load.cache = cache → load.isPending = false

variable {cache : String}

theorem HasLoaded.run (h : loader.HasLoaded cache) (neighbours : Neighbours) (now limit : Nat) :
    (loader.run neighbours now limit).1.HasLoaded cache ∧
      ∀ write ∈ (loader.run neighbours now limit).2, write.cache ≠ cache := by
  constructor
  · intro load mem own
    obtain ⟨_, ran, rfl⟩ := List.mem_map.1 mem
    obtain ⟨before, known, rfl⟩ := List.mem_map.1 ran
    rw [(Load.cache_run _ _ _ _).1] at own
    have loaded := h before known own
    rw [Load.run_of_not_pending loaded]
    exact loaded
  · intro write mem own
    obtain ⟨_, ran, mem⟩ := List.mem_flatMap.1 mem
    obtain ⟨before, known, rfl⟩ := List.mem_map.1 ran
    have same := (Load.cache_run _ _ _ _).2 write mem
    rw [Load.run_of_not_pending (h before known (same.symm.trans own))] at mem
    cases mem

theorem HasLoaded.shutdown (h : loader.HasLoaded cache) : loader.shutdown.HasLoaded cache := by
  intro load mem own
  obtain ⟨before, known, rfl⟩ := List.mem_map.1 mem
  unfold Load.cancel at own ⊢
  split at own
  next pending => exact absurd (h before known own) (by simp [pending])
  next loaded => rwa [if_neg loaded, ← Bool.not_eq_true]

theorem load_keeps (loader : Loader) {name : String} (other : name ≠ cache)
    (neighbours : Neighbours) (now : Nat) :
    (∀ write ∈ (loader.load neighbours name now).writes, write.cache ≠ cache) ∧
      (loader.HasLoaded cache → (loader.load neighbours name now).loader.HasLoaded cache) := by
  have more {load : Load} (own : load.cache = name) (h : loader.HasLoaded cache) :
      ∀ before ∈ loader.loads ++ [load], before.cache = cache → before.isPending = false :=
    List.forall_mem_append.2 ⟨h, List.forall_mem_singleton.2
      fun same => absurd (own.symm.trans same) other⟩
  unfold load
  split
  · exact ⟨List.forall_mem_nil _, more rfl⟩
  · obtain ⟨same, own⟩ := Load.cache_acts neighbours now none (loader.newLoad name now)
    exact ⟨fun write mem => (own write mem).symm ▸ other, more same⟩

end Loader

namespace Node

variable {node : Node} {clock : Clocked Node} {cache name key : String} {store : Store}

/-- What the loads of a node put into its caches as time passes. -/
def copied (node : Node) (mesh : Mesh) (now limit : Nat) : List Load.Write :=
  match node.loader with
  | none => []
  | some loader => (loader.run (node.neighbours mesh) now limit).2

theorem store?_absorbAt (node : Node) (writes : List Load.Write) (name cache : String) :
    (node.absorbAt writes name).store? cache =
      if cache = name then (node.store? cache).map (Store.absorb cache writes)
      else node.store? cache := by
  unfold absorbAt
  rcases hosted : node.store? name with _ | store
  · split
    next own =>
      subst own
      rw [hosted]
      exact hosted
    · rfl
  · refine (store?_setStore node name cache _).trans ?_
    split
    next own =>
      subst own
      rw [hosted]
      rfl
    · rfl

theorem store?_foldl_absorbAt (writes : List Load.Write) {names : List String} (once : names.Nodup)
    (node : Node) (cache : String) :
    (names.foldl (absorbAt writes) node).store? cache =
      if cache ∈ names then (node.store? cache).map (Store.absorb cache writes)
      else node.store? cache := by
  induction names generalizing node with
  | nil => rfl
  | cons name names ih =>
    obtain ⟨fresh, once⟩ := List.nodup_cons.1 once
    rw [List.foldl_cons, ih once, store?_absorbAt]
    by_cases own : cache = name
    · subst own
      rw [if_neg fresh, if_pos rfl, if_pos List.mem_cons_self]
    · simp only [List.mem_cons, own, if_false, false_or]

theorem store?_absorb (node : Node) (writes : List Load.Write) (cache : String) :
    (node.absorb writes).store? cache = (node.store? cache).map (Store.absorb cache writes) := by
  have once : node.cacheNames.Nodup := Table.nodup_names _
  rw [absorb_eq, store?_foldl_absorbAt writes once]
  split
  · rfl
  next absent =>
    rcases hosted : node.store? cache with _ | store
    · rfl
    · exact absurd (Table.mem_names_iff.2 ⟨store, hosted⟩) absent

theorem store?_run (node : Node) (mesh : Mesh) (now limit : Nat) (cache : String) :
    (node.run mesh now limit).store? cache =
      (node.store? cache).map (Store.absorb cache (node.copied mesh now limit)) := by
  unfold run copied
  dsimp only
  rcases node.loader with _ | loader
  · rw [Store.absorb_nil, Option.map_id]
    rfl
  · exact store?_absorb _ _ cache

def HasLoaded (cache : String) (node : Node) : Prop :=
  ∀ loader, node.loader = some loader → loader.HasLoaded cache

theorem loader_absorb (node : Node) (writes : List Load.Write) :
    (node.absorb writes).loader = node.loader :=
  absorb_induction (motive := (·.loader = node.loader)) rfl fun _ _ _ _ same => same

theorem HasLoaded.run (h : node.HasLoaded cache) (mesh : Mesh) (now limit : Nat) :
    (node.run mesh now limit).HasLoaded cache ∧
      ∀ write ∈ node.copied mesh now limit, write.cache ≠ cache := by
  unfold Node.run copied
  dsimp only
  rcases known : node.loader with _ | loader
  · exact ⟨fun loader same => (nomatch same), List.forall_mem_nil _⟩
  · obtain ⟨loaded, others⟩ := (h loader known).run (node.neighbours mesh) now limit
    refine ⟨fun after same => ?_, others⟩
    rw [loader_absorb] at same
    obtain rfl := Option.some.inj same
    exact loaded

/-! ## What is done at once -/

theorem start_keeps (node : Node) (interfaces : Interfaces) (freePort : Nat) :
    (node.start interfaces freePort).1.listener.caches = node.listener.caches ∧
      (node.start interfaces freePort).1.loader = node.loader := by
  unfold start
  split
  · exact ⟨rfl, rfl⟩
  · split
    · exact ⟨rfl, rfl⟩
    next listener opened =>
      unfold Listener.start at opened
      split at opened
      · obtain rfl := Except.ok.inj opened
        split
        · exact ⟨rfl, rfl⟩
        · exact ⟨rfl, rfl⟩
      · cases opened

theorem make_keeps (node : Node) (mesh : Mesh) (now : Nat) (name : String) (store : Store)
    (change : Change) (hosted : node.store? name = some store) (cache : String) :
    (node.make mesh now name store change).node.store? cache =
        (if cache = name then some (store.apply change.message) else node.store? cache) ∧
      (node.make mesh now name store change).node.loader = node.loader := by
  rw [make_eq]
  rcases happened : (change.on name store).2 with _ | event
  · refine ⟨?_, rfl⟩
    rw [← Store.on_fst store name, Change.on_of_none happened]
    by_cases own : cache = name
    · rw [if_pos own, own]
      exact hosted
    · exact (if_neg own).symm
  · refine ⟨?_, rfl⟩
    rw [← Store.on_fst store name]
    exact store?_setStore node name cache _

theorem store?_serve (hosted : node.store? cache = some store) (request : Request) :
    (node.serve request).store? cache = some
      (store.applyAll (if request.cache = cache then request.action.messages else [])) := by
  obtain ⟨name, action⟩ := request
  by_cases own : name = cache
  · subst own
    rw [if_pos rfl, ← Service.perform_messages]
    unfold serve store?
    rw [Service.answer_of_served hosted]
    exact (Table.get?_insert ..).trans (if_pos rfl)
  · rw [if_neg own]
    exact (Service.get?_answer_of_ne (Ne.symm own)).trans hosted

theorem shutdown_keeps (node : Node) (mesh : Mesh) (now : Nat) :
    (node.shutdown mesh now).node.listener.caches = node.listener.caches ∧
      (node.shutdown mesh now).node.loader = node.loader.map Loader.shutdown := by
  unfold Node.shutdown Listener.stop
  dsimp only
  split
  · exact ⟨rfl, rfl⟩
  · dsimp only
    split <;> exact ⟨rfl, rfl⟩

theorem addCache_keeps (hosted : node.store? cache = some store) (mesh : Mesh) (now : Nat)
    (name : String) :
    (node.addCache mesh now name).node.store? cache = some store ∧
      (node.HasLoaded cache → (node.addCache mesh now name).node.HasLoaded cache) := by
  unfold addCache
  split
  · exact ⟨hosted, id⟩
  · split
    · exact ⟨hosted, id⟩
    next fresh =>
      have other : name ≠ cache := by
        rintro rfl
        exact fresh (Option.isSome_iff_exists.2 ⟨store, hosted⟩)
      have kept : (node.setStore name ∅).store? cache = some store :=
        (store?_setStore node name cache ∅).trans ((if_neg other.symm).trans hosted)
      unfold fill
      split
      · exact ⟨kept, id⟩
      next loader known =>
        dsimp only
        obtain ⟨others, loaded⟩ :=
          loader.load_keeps other ((node.setStore name ∅).neighbours mesh) now
        refine ⟨?_, fun h after same => ?_⟩
        · refine (store?_absorb _ _ cache).trans ((congrArg (Option.map _) kept).trans ?_)
          rw [Option.map_some, Store.absorb_of_others store others]
        · rw [loader_absorb] at same
          obtain rfl := Option.some.inj same
          exact loaded (h loader known)

/-! ## What is done with a node -/

/-- Something that is done with a node or asked of it by a peer. -/
inductive Use
  | deed (deed : Deed)
  | serve (request : Request)

def use (clock : Clocked Node) : Use → Clocked Node
  | .deed deed => perform clock deed
  | .serve request => { clock with state := clock.state.serve request }

def useAll (clock : Clocked Node) (uses : List Use) : Clocked Node :=
  uses.foldl use clock

namespace Use

/-- The messages that a use applies to a cache. -/
def messages (cache : String) : Use → List Message
  | .deed (.live ⟨.change name change, _⟩) => if name = cache then [change.message] else []
  | .serve request => if request.cache = cache then request.action.messages else []
  | _ => []

/-- What a use makes of a node at once. -/
def effect (clock : Clocked Node) : Use → Node
  | .deed (.start interfaces freePort) => (clock.state.start interfaces freePort).1
  | .deed (.addCache name mesh) =>
    (clock.state.addCache (mesh clock.turn) clock.now name).node
  | .deed (.live ⟨.change name change, mesh⟩) =>
    match clock.state.store? name with
    | some store => (clock.state.make (mesh clock.turn) clock.now name store change).node
    | none => clock.state
  | .deed (.live ⟨.pass _, _⟩) => clock.state
  | .deed (.live ⟨.meet provider, _⟩) => { clock.state with provider }
  | .deed (.shutdown mesh) => (clock.state.shutdown (mesh clock.turn) clock.now).node
  | .serve request => clock.state.serve request

/-- How the peers behave, and up to when, while the end of a step is waited for. -/
def span (clock : Clocked Node) (mesh : Nat → Mesh) (finish : Nat) : Option (Mesh × Nat) :=
  if clock.now < finish then some (mesh (clock.turn + 1), finish - 1) else none

/-- How the peers behave, and up to when, while the node goes on after a use. -/
def meanwhile (clock : Clocked Node) : Use → Option (Mesh × Nat)
  | .deed (.addCache name mesh) =>
    span clock mesh (clock.state.addCache (mesh clock.turn) clock.now name).finish
  | .deed (.live ⟨.change name change, mesh⟩) =>
    (clock.state.store? name).bind fun store =>
      span clock mesh (clock.state.make (mesh clock.turn) clock.now name store change).finish
  | .deed (.live ⟨.pass milliseconds, mesh⟩) =>
    some (mesh (clock.turn + 1), clock.now + milliseconds)
  | .deed (.shutdown mesh) =>
    span clock mesh (clock.state.shutdown (mesh clock.turn) clock.now).finish
  | _ => none

/-- What the loads put into the caches while the node goes on after a use. -/
def copied (clock : Clocked Node) (use : Use) : List Load.Write :=
  match use.meanwhile clock with
  | some (mesh, limit) => (use.effect clock).copied mesh clock.now limit
  | none => []

theorem state_after (clock : Clocked Node) (mesh : Nat → Mesh) (node : Node) (finish : Nat) :
    (clock.after (background mesh) node finish).state =
      match span clock mesh finish with
      | some (mesh, limit) => node.run mesh clock.now limit
      | none => node := by
  unfold Clocked.after Clocked.waitUntil span
  dsimp only
  split <;> rfl

/-- A use has an effect at once, and then the node goes on for a while. -/
theorem state_use (clock : Clocked Node) (u : Use) :
    (use clock u).state =
      match u.meanwhile clock with
      | some (mesh, limit) => (u.effect clock).run mesh clock.now limit
      | none => u.effect clock := by
  rcases u with (_ | ⟨name, mesh⟩ | ⟨⟨name, change⟩ | _ | _, mesh⟩ | mesh) | request
  case deed.addCache => exact state_after clock mesh _ _
  case deed.live.change =>
    unfold use perform meanwhile effect
    dsimp only [step]
    rcases clock.state.store? name with _ | store
    · rfl
    · exact state_after clock mesh _ _
  case deed.shutdown => exact state_after clock mesh _ _
  all_goals rfl

theorem store?_effect {clock : Clocked Node} {cache : String} {store : Store}
    (hosted : clock.state.store? cache = some store) (u : Use) :
    (u.effect clock).store? cache = some (store.applyAll (u.messages cache)) := by
  rcases u with (_ | ⟨name, mesh⟩ | ⟨⟨name, change⟩ | _ | _, mesh⟩ | mesh) | request
  case deed.start interfaces freePort =>
    exact (congrArg (Table.get? · cache) (start_keeps _ interfaces freePort).1).trans hosted
  case deed.addCache => exact (addCache_keeps hosted _ _ name).1
  case deed.live.change =>
    unfold effect messages
    dsimp only
    rcases other : clock.state.store? name with _ | held
    · have ne : name ≠ cache := by
        rintro rfl
        cases hosted.symm.trans other
      rw [if_neg ne]
      exact hosted
    · rw [(make_keeps _ _ _ name held change other cache).1]
      by_cases own : name = cache
      · subst own
        obtain rfl := Option.some.inj (hosted.symm.trans other)
        rw [if_pos rfl, if_pos rfl]
        rfl
      · rw [if_neg own, if_neg (Ne.symm own)]
        exact hosted
  case deed.shutdown =>
    exact (congrArg (Table.get? · cache) (shutdown_keeps _ _ _).1).trans hosted
  case serve => exact store?_serve hosted request
  all_goals exact hosted

/-- After a use a cache is what that makes of it at once, and what the loads put into it then. -/
theorem store?_state_use (clock : Clocked Node) (u : Use) (cache : String) :
    (use clock u).state.store? cache =
      ((u.effect clock).store? cache).map (Store.absorb cache (u.copied clock)) := by
  rw [state_use]
  unfold copied
  rcases u.meanwhile clock with _ | ⟨mesh, limit⟩
  · rw [Store.absorb_nil, Option.map_id]
    rfl
  · exact store?_run _ mesh _ limit cache

theorem store?_use {clock : Clocked Node} {cache : String} {store : Store}
    (hosted : clock.state.store? cache = some store) (u : Use) :
    (use clock u).state.store? cache =
      some (Store.absorb cache (u.copied clock) (store.applyAll (u.messages cache))) := by
  rw [store?_state_use, store?_effect hosted]
  rfl

theorem hasLoaded_effect {clock : Clocked Node} {cache : String} {store : Store}
    (hosted : clock.state.store? cache = some store) (h : clock.state.HasLoaded cache) (u : Use) :
    (u.effect clock).HasLoaded cache := by
  rcases u with (_ | ⟨name, mesh⟩ | ⟨⟨name, change⟩ | _ | _, mesh⟩ | mesh) | request
  case deed.start interfaces freePort =>
    intro loader known
    exact h loader ((start_keeps _ interfaces freePort).2.symm.trans known)
  case deed.addCache => exact (addCache_keeps hosted _ _ name).2 h
  case deed.live.change =>
    unfold effect
    dsimp only
    rcases held : clock.state.store? name with _ | store
    · exact h
    · intro loader known
      exact h loader ((make_keeps _ _ _ name store change held cache).2.symm.trans known)
  case deed.shutdown =>
    intro loader ended
    obtain ⟨before, known, rfl⟩ :=
      Option.map_eq_some_iff.1 ((shutdown_keeps _ _ _).2.symm.trans ended)
    exact (h before known).shutdown
  all_goals exact h

/-- The loads of a cache put nothing more into it once they are over. -/
theorem HasLoaded.use {clock : Clocked Node} {cache : String} {store : Store}
    (hosted : clock.state.store? cache = some store) (h : clock.state.HasLoaded cache) (u : Use) :
    (Node.use clock u).state.HasLoaded cache ∧ ∀ write ∈ u.copied clock, write.cache ≠ cache := by
  have loaded := hasLoaded_effect hosted h u
  rw [state_use]
  unfold copied
  rcases u.meanwhile clock with _ | ⟨mesh, limit⟩
  · exact ⟨loaded, List.forall_mem_nil _⟩
  · exact loaded.run mesh _ limit

end Use

/-! ## What becomes of a put -/

def copiesOf (cache key : String) : Clocked Node → List Use → List Element
  | _, [] => []
  | clock, u :: uses =>
    Store.copies cache key (u.copied clock) ++ copiesOf cache key (use clock u) uses

/-- While nobody changes what is held for a key, it is the last copy of it, if there is any. -/
theorem get?_useAll {clock : Clocked Node} (hosted : clock.state.store? cache = some store)
    {uses : List Use}
    (others : ∀ u ∈ uses, ∀ message ∈ u.messages cache, message.concerns key = false) :
    ∃ after, (useAll clock uses).state.store? cache = some after ∧
      after.get? key = (copiesOf cache key clock uses).getLast?.or (store.get? key) := by
  induction uses generalizing clock store with
  | nil => exact ⟨store, hosted, rfl⟩
  | cons u uses ih =>
    obtain ⟨first, rest⟩ := List.forall_mem_cons.1 others
    obtain ⟨after, held, last⟩ := ih (Use.store?_use hosted u) rest
    refine ⟨after, held, ?_⟩
    rw [last, Store.get?_absorb, Store.get?_applyAll, Store.leaves_of_others first, copiesOf,
      List.getLast?_append, Option.or_assoc, Option.getD_none]

/-- When the load of a cache is over, no copy is put into it any more. -/
theorem copiesOf_of_hasLoaded {clock : Clocked Node}
    (hosted : clock.state.store? cache = some store) (loaded : clock.state.HasLoaded cache)
    (uses : List Use) : copiesOf cache key clock uses = [] := by
  induction uses generalizing clock store with
  | nil => rfl
  | cons u uses ih =>
    obtain ⟨loaded, others⟩ := Use.HasLoaded.use hosted loaded u
    rw [copiesOf, Store.copies_of_others others, ih (Use.store?_use hosted u) loaded]
    rfl

/-- An element that is put into a cache stays until its key is changed or the load of the cache has
copied it. From then on the last copy is in its place, whatever is newer. Once the load is over, the
element stays. -/
theorem put_lasts_until_copied {clock : Clocked Node}
    (hosted : clock.state.store? cache = some store) (element : Element) (mesh : Nat → Mesh)
    {later : List Use}
    (last : ∀ u ∈ later, ∀ message ∈ u.messages cache, message.concerns element.key = false) :
    let uses := .deed (.live ⟨.change cache (.put element), mesh⟩) :: later
    let copies := copiesOf cache element.key clock uses
    (∃ after, (useAll clock uses).state.store? cache = some after ∧
      after.get? element.key = some (copies.getLast?.getD element)) ∧
    (clock.state.HasLoaded cache → copies = []) := by
  intro uses copies
  refine ⟨?_, fun loaded => copiesOf_of_hasLoaded hosted loaded uses⟩
  let put : Use := .deed (.live ⟨.change cache (.put element), mesh⟩)
  have written := Use.store?_use hosted put
  obtain ⟨after, held, found⟩ := get?_useAll written last
  refine ⟨after, held, found.trans ?_⟩
  have own : (store.applyAll (put.messages cache)).get? element.key = some element := by
    rw [Use.messages, if_pos rfl]
    exact (Store.get?_put store element _).trans (if_pos rfl)
  rw [Store.get?_absorb, own, ← Option.or_assoc, ← List.getLast?_append]
  change copies.getLast?.or (some element) = _
  rcases copies.getLast? with _ | copy <;> rfl

/-- A node that loads its caches in the background, and knows a peer of one. -/
def joining : Node where
  listener := { host := "127.0.0.1", requestedPort := 40001 }
  provider := .manual ["tcp://127.0.0.1:40002/c"]
  dispatcher := {}
  loader := some {}
  lookupTimeout := 1000

/-- The peer holds an old element, and takes its time to answer. -/
def holdingOld : Nat → Mesh := fun _ =>
  { connect _ _ := ⟨0, .ok ()⟩
    call _ _ action := ⟨100, .ok (match action with
      | .keys => .keys ["k"]
      | .getElements _ => .elements [⟨"k", [1], 1, 0⟩]
      | _ => .ok)⟩ }

def holder : Neighbours where
  registry := Registry.register {} 0 "tcp://127.0.0.1:40002/c"
  localUrls := ["tcp://127.0.0.1:40001/c"]
  mesh := holdingOld 0
  lookupTimeout := 1000

/-- The load of the cache once the sample has come. -/
def sampled : Load :=
  let begun := ((Load.start "c" 5000000 0 0).acted holder 0).acted holder 0
  (begun.acted holder 100).acted holder 200

theorem stage_sampled : sampled.stage = .copying ["k"] [] 0
    (holder.mesh.ask 200 "tcp://127.0.0.1:40002/c" (.getElements ["k"])) := by
  have one : chunks (Load.keysPerChunk 5000000 [⟨"k", [1], 1, 0⟩]) ["k"] = [["k"]] := by
    simp [chunks]
  exact congrArg (Load.copy holder.mesh 200 "tcp://127.0.0.1:40002/c" 0) one

/-- A load lists the keys, asks for a sample, and copies the element with a third call. -/
theorem run_start_holder :
    ((Load.start "c" 5000000 0 0).run holder 0 350).2 = [⟨300, "c", ⟨"k", [1], 1, 0⟩⟩] := by
  have finished : (sampled.acted holder 300).stage = .finished 300 (.ok 1) := by
    unfold Load.acted Load.next
    dsimp only
    rw [stage_sampled]
    rfl
  have due : Load.due? 200 sampled.stage = some 300 := by
    rw [stage_sampled]
    rfl
  have put : (sampled.next 300 holder).2 = [⟨"k", [1], 1, 0⟩] := by
    rw [Load.next, stage_sampled]
    rfl
  calc ((Load.start "c" 5000000 0 0).acts holder 0 (some 350)).2
      = (((Load.start "c" 5000000 0 0).acted holder 0).acts holder 0 (some 350)).2 :=
        Load.writes_acts_of_silent rfl rfl rfl
    _ = ((((Load.start "c" 5000000 0 0).acted holder 0).acted holder 0).acts holder 0
          (some 350)).2 := Load.writes_acts_of_silent (by decide +kernel) rfl rfl
    _ = (((((Load.start "c" 5000000 0 0).acted holder 0).acted holder 0).acted holder 100).acts
          holder 100 (some 350)).2 := Load.writes_acts_of_silent (by decide +kernel) rfl rfl
    _ = (sampled.acts holder 200 (some 350)).2 :=
        Load.writes_acts_of_silent (by decide +kernel) rfl rfl
    _ = [⟨300, "c", ⟨"k", [1], 1, 0⟩⟩] := by
        rw [Load.acts_of_in_time due rfl, Load.acts_of_none (by rw [finished]; rfl), put]
        rfl

def joined : Clocked Node where
  turn := 2
  state := { joining.setStore "c" ∅ with loader := some { loads := [Load.start "c" 5000000 0 0] } }

theorem use_addCache_joining :
    use { state := joining } (.deed (.addCache "c" holdingOld)) = joined := by
  have added : joining.addCache (holdingOld 0) 0 "c" = ⟨joined.state, .ok (), 0⟩ := by
    have named : isCacheName "c" = true := by decide +kernel
    unfold addCache
    rw [named]
    exact congrArg (fun node => (⟨node, .ok (), 0⟩ : Step (Result Unit))) (absorb_nil joined.state)
  unfold use perform
  dsimp only
  rw [added]
  rfl

def putMeanwhile : List Use :=
  [.deed (.live ⟨.change "c" (.put ⟨"k", [2], 2, 0⟩), holdingOld⟩),
    .deed (.live ⟨.pass 350, holdingOld⟩)]

theorem copiesOf_putMeanwhile :
    copiesOf "c" "k" joined putMeanwhile = [⟨"k", [1], 1, 0⟩] := by
  let written := use joined (.deed (.live ⟨.change "c" (.put ⟨"k", [2], 2, 0⟩), holdingOld⟩))
  have knows : written.state.neighbours (holdingOld 5) = holder := by
    have own : written.state.listener.advertised = ["tcp://127.0.0.1:40001/c"] := by
      decide +kernel
    rw [neighbours, own]
    rfl
  have loads : written.state.loader = some { loads := [Load.start "c" 5000000 0 0] } := rfl
  have copied : written.state.copied (holdingOld 5) 0 350 = [⟨300, "c", ⟨"k", [1], 1, 0⟩⟩] := by
    rw [Node.copied, loads, ← run_start_holder, ← knows]
    exact List.append_nil _
  have passed : Use.copied written (.deed (.live ⟨.pass 350, holdingOld⟩)) =
      [⟨300, "c", ⟨"k", [1], 1, 0⟩⟩] := copied
  have atOnce : Use.copied joined
      (.deed (.live ⟨.change "c" (.put ⟨"k", [2], 2, 0⟩), holdingOld⟩)) = [] := rfl
  rw [putMeanwhile, copiesOf, atOnce, copiesOf, passed]
  decide +kernel

/-- A put that is newer than what the peer holds is undone by the load. -/
theorem load_undoes_newer_put :
    let added := use { state := joining } (.deed (.addCache "c" holdingOld))
    added.state.store? "c" = some ∅ ∧
    ∃ after, (useAll added putMeanwhile).state.store? "c" = some after ∧
      after.get? "k" = some ⟨"k", [1], 1, 0⟩ := by
  rw [use_addCache_joining]
  have hosted : joined.state.store? "c" = some ∅ := rfl
  have last : ∀ u ∈ [Use.deed (.live ⟨.pass 350, holdingOld⟩)], ∀ message ∈ u.messages "c",
      message.concerns "k" = false :=
    List.forall_mem_singleton.2 (List.forall_mem_nil _)
  obtain ⟨⟨after, held, found⟩, -⟩ :=
    put_lasts_until_copied hosted ⟨"k", [2], 2, 0⟩ holdingOld last
  have copies := copiesOf_putMeanwhile
  unfold putMeanwhile at copies
  rw [copies] at found
  exact ⟨hosted, after, held, found⟩

end Node

end CacheCluster
