import CacheCluster.Proofs.LateCopies
import CacheCluster.Proofs.Lifecycle

/-! # Caches that are hosted

A node finds its caches by their names, and so does its listener when a request comes in; both refer
to stores that are made once. Whatever is done with the node, the two agree on the names and on the
store of each, and what the listener advertises are the names of the node in their order.
-/

namespace CacheCluster

/-! ## Advertised urls -/

namespace Listener

variable {listener : Listener} {name other : String}

theorem urlFor_lt (listener : Listener) (less : name < other) :
    listener.urlFor name < listener.urlFor other := by
  change (PeerUrl.format _ _ _).toList < (PeerUrl.format _ _ _).toList
  rw [PeerUrl.toList_format, PeerUrl.toList_format]
  exact List.append_left_lt (List.append_left_lt (List.cons_lt_cons_self.2 less))

/-- The urls are in the order of the names, as all begin alike. -/
theorem advertised_eq (listener : Listener) :
    listener.advertised = listener.caches.names.map listener.urlFor := by
  refine List.mergeSort_of_pairwise (List.pairwise_map.2 (listener.caches.sorted_names.imp ?_))
  intro name other less
  exact decide_eq_true (String.not_lt.1 (String.lt_asymm (listener.urlFor_lt less)))

end Listener

/-- What the load of a new cache puts into it before it is waited for no longer. -/
def Node.filled (node : Node) (mesh : Mesh) (now : Nat) (name : String) : List Load.Write :=
  match node.loader with
  | none => []
  | some loader => (loader.load (node.neighbours mesh) name now).writes

/-! ## Stores that are referred to -/

/-- The stores of a node, and who refers to them. -/
structure Hosting where
  /-- The stores in the order in which they were made. -/
  stores : List Store := []
  /-- The place of the store that a cache reads and writes. -/
  caches : Table Nat := ∅
  /-- The place of the store that the listener answers requests for a name from. -/
  served : Table Nat := ∅

namespace Hosting

/-- The caches with what is in their stores. -/
def contents (hosting : Hosting) : Table Store :=
  hosting.caches.map fun place => hosting.stores.getD place ∅

def write (hosting : Hosting) (name : String) (change : Store → Store) : Hosting :=
  match hosting.caches.get? name with
  | some place => { hosting with stores := hosting.stores.modify place change }
  | none => hosting

def absorb (hosting : Hosting) (writes : List Load.Write) : Hosting :=
  hosting.caches.names.foldl (fun hosting name => hosting.write name (Store.absorb name writes))
    hosting

/-- Makes a store, and hands it to a new cache and to the listener. -/
def add (hosting : Hosting) (name : String) : Hosting where
  stores := hosting.stores ++ [∅]
  caches := hosting.caches.insert name hosting.stores.length
  served := hosting.served.insert name hosting.stores.length

/-- Answers a request from the store that the listener finds for it. -/
def answer (hosting : Hosting) (request : Request) : Response × Hosting :=
  match hosting.served.get? request.cache with
  | none => (Service.notServed request.cache, hosting)
  | some place =>
    ((Service.perform (hosting.stores.getD place ∅) request.action).1,
      { hosting with stores := hosting.stores.modify place fun store =>
          (Service.perform store request.action).2 })

/-- The listener finds the store of each cache and nothing else, and no two caches share one. -/
structure IsSound (hosting : Hosting) : Prop where
  same : hosting.served = hosting.caches
  made : ∀ name place, hosting.caches.get? name = some place → place < hosting.stores.length
  apart : ∀ name other place, hosting.caches.get? name = some place →
    hosting.caches.get? other = some place → name = other

variable {hosting : Hosting} {name other : String} {change : Store → Store}

theorem isSound_empty : IsSound {} :=
  ⟨rfl, nofun, nofun⟩

@[simp] theorem caches_write (hosting : Hosting) (name : String) (change : Store → Store) :
    (hosting.write name change).caches = hosting.caches := by
  unfold write
  split <;> rfl

theorem IsSound.write (h : hosting.IsSound) (name : String) (change : Store → Store) :
    (hosting.write name change).IsSound := by
  unfold Hosting.write
  split
  · refine ⟨h.same, fun other place held => ?_, h.apart⟩
    rw [List.length_modify]
    exact h.made other place held
  · exact h

theorem IsSound.get?_contents_write (h : hosting.IsSound) (name : String)
    (change : Store → Store) (other : String) :
    (hosting.write name change).contents.get? other =
      if other = name then (hosting.contents.get? other).map change
      else hosting.contents.get? other := by
  unfold Hosting.write contents
  simp only [Table.get?_map]
  split
  next place found =>
    simp only [List.getD_eq_getElem?_getD, List.getElem?_modify]
    split
    next same =>
      subst same
      obtain ⟨store, held⟩ : ∃ store, hosting.stores[place]? = some store :=
        ⟨_, List.getElem?_eq_getElem (h.made other place found)⟩
      simp [found, held]
    next ne =>
      refine Option.map_congr fun place' found' => ?_
      have elsewhere : place ≠ place' := by
        rintro rfl
        exact ne (h.apart other name place found' found)
      simp [elsewhere]
  next absent =>
    split
    next same => simp [same, absent]
    next => rfl

theorem caches_foldl_write (change : String → Store → Store) (names : List String)
    (hosting : Hosting) :
    (names.foldl (fun hosting name => hosting.write name (change name)) hosting).caches =
      hosting.caches := by
  induction names generalizing hosting with
  | nil => rfl
  | cons name names ih => rw [List.foldl_cons, ih, caches_write]

/-- Writes to several caches are a write to each. -/
theorem IsSound.foldl_write (h : hosting.IsSound) (change : String → Store → Store)
    {names : List String} (once : names.Nodup) :
    let after := names.foldl (fun hosting name => hosting.write name (change name)) hosting
    after.IsSound ∧ ∀ other, after.contents.get? other =
      if other ∈ names then (hosting.contents.get? other).map (change other)
      else hosting.contents.get? other := by
  induction names generalizing hosting with
  | nil => exact ⟨h, fun _ => rfl⟩
  | cons name names ih =>
    obtain ⟨fresh, once⟩ := List.nodup_cons.1 once
    obtain ⟨sound, held⟩ := ih (h.write name (change name)) once
    refine ⟨sound, fun other => (held other).trans ?_⟩
    rw [h.get?_contents_write]
    by_cases own : other = name
    · subst own
      simp [fresh]
    · simp [own]

theorem names_contents (hosting : Hosting) : hosting.contents.names = hosting.caches.names := by
  simp [contents, Table.names, Table.map]

@[simp] theorem caches_absorb (hosting : Hosting) (writes : List Load.Write) :
    (hosting.absorb writes).caches = hosting.caches :=
  caches_foldl_write _ _ _

theorem IsSound.absorb (h : hosting.IsSound) (writes : List Load.Write) :
    (hosting.absorb writes).IsSound ∧ ∀ name, (hosting.absorb writes).contents.get? name =
      (hosting.contents.get? name).map (Store.absorb name writes) := by
  obtain ⟨sound, held⟩ := h.foldl_write (Store.absorb · writes) (Table.nodup_names _)
  refine ⟨sound, fun name => (held name).trans ?_⟩
  split
  · rfl
  next absent =>
    rw [← names_contents, Table.mem_names_iff] at absent
    rw [Option.eq_none_iff_forall_ne_some.2 fun store found => absent ⟨store, found⟩]
    rfl

theorem get?_caches_add (hosting : Hosting) (name other : String) :
    (hosting.add name).caches.get? other =
      if other = name then some hosting.stores.length else hosting.caches.get? other :=
  Table.get?_insert _ _ _ _

theorem IsSound.add (h : hosting.IsSound) (name : String) : (hosting.add name).IsSound where
  same := by rw [Hosting.add, h.same]
  made := by
    intro other place held
    have length : (hosting.add name).stores.length = hosting.stores.length + 1 :=
      List.length_append
    rw [get?_caches_add] at held
    rw [length]
    split at held
    · cases held
      exact Nat.lt_succ_self _
    · exact Nat.lt_succ_of_lt (h.made other place held)
  apart := by
    intro first second place held held'
    rw [get?_caches_add] at held held'
    split at held <;> split at held'
    next same same' => exact same.trans same'.symm
    next =>
      cases held
      exact absurd (h.made second _ held') (Nat.lt_irrefl _)
    next =>
      cases held'
      exact absurd (h.made first _ held) (Nat.lt_irrefl _)
    next => exact h.apart first second place held held'

theorem IsSound.get?_contents_add (h : hosting.IsSound) (name other : String) :
    (hosting.add name).contents.get? other =
      if other = name then some ∅ else hosting.contents.get? other := by
  simp only [contents, Table.get?_map, get?_caches_add]
  split
  · simp [Hosting.add]
  · refine Option.map_congr fun place held => ?_
    simp [Hosting.add, List.getElem?_append_left (h.made other place held)]

theorem IsSound.answer_eq (h : hosting.IsSound) (request : Request) :
    hosting.answer request =
      (match hosting.contents.get? request.cache with
        | none => Service.notServed request.cache
        | some store => (Service.perform store request.action).1,
        hosting.write request.cache fun store => (Service.perform store request.action).2) := by
  unfold answer Hosting.write contents
  rw [h.same, Table.get?_map]
  cases hosting.caches.get? request.cache <;> rfl

/-! ## The caches of a node -/

/-- What a use of a node makes of its caches at once. -/
def effect (clock : Clocked Node) (hosting : Hosting) : Node.Use → Hosting
  | .deed (.addCache name mesh) =>
    if Node.isCacheName name && !hosting.caches.contains name then
      (hosting.add name).absorb
        ((clock.state.setStore name ∅).filled (mesh clock.turn) clock.now name)
    else hosting
  | .deed (.live ⟨.change name change, _⟩) =>
    hosting.write name fun store => (change.on name store).1
  | .serve request => (hosting.answer request).2
  | _ => hosting

/-- What a use of a node makes of its caches, with what is loaded until it is over. -/
def use (clock : Clocked Node) (hosting : Hosting) (u : Node.Use) : Hosting :=
  (hosting.effect clock u).absorb (u.copied clock)

def useAll : Clocked Node → Hosting → List Node.Use → Hosting
  | _, hosting, [] => hosting
  | clock, hosting, u :: uses => useAll (Node.use clock u) (hosting.use clock u) uses

end Hosting

namespace Node

variable {node : Node} {clock : Clocked Node} {mesh : Mesh} {now : Nat} {name cache : String}

theorem addCache_of_invalid (invalid : isCacheName name = false) (node : Node) (mesh : Mesh)
    (now : Nat) : node.addCache mesh now name = ⟨node, .error (invalidName name), now⟩ := by
  rw [addCache, invalid]
  rfl

theorem addCache_of_hosted (valid : isCacheName name = true) (hosted : name ∈ node.cacheNames)
    (mesh : Mesh) (now : Nat) : node.addCache mesh now name = ⟨node, .ok (), now⟩ := by
  have known : node.listener.caches.contains name = true :=
    Option.isSome_iff_exists.2 (Table.mem_names_iff.1 hosted)
  rw [addCache, valid, known]
  rfl

theorem store?_fill (node : Node) (mesh : Mesh) (now : Nat) (name cache : String) :
    (node.fill mesh now name).node.store? cache =
      (node.store? cache).map (Store.absorb cache (node.filled mesh now name)) := by
  unfold fill filled
  rcases node.loader with _ | loader
  · rw [Store.absorb_nil, Option.map_id]
    rfl
  · exact store?_absorb _ _ cache

/-- A new cache holds what its load has put there by the time it is waited for. -/
theorem store?_addCache (node : Node) (mesh : Mesh) (now : Nat) (name cache : String) :
    (node.addCache mesh now name).node.store? cache =
      if isCacheName name && !node.listener.caches.contains name then
        (if cache = name then some ∅ else node.store? cache).map
          (Store.absorb cache ((node.setStore name ∅).filled mesh now name))
      else node.store? cache := by
  rw [addCache]
  rcases isCacheName name
  · rfl
  · rcases node.listener.caches.contains name
    · exact (store?_fill _ mesh now name cache).trans (by rw [store?_setStore]; rfl)
    · rfl

theorem serve_of_absent {request : Request} (absent : node.store? request.cache = none) :
    node.serve request = node := by
  unfold serve
  rw [Service.answer_of_not_served absent]

theorem store?_serve_eq (node : Node) (request : Request) (cache : String) :
    (node.serve request).store? cache =
      if cache = request.cache then
        (node.store? cache).map fun store => (Service.perform store request.action).2
      else node.store? cache := by
  unfold serve store?
  dsimp only
  split
  next own =>
    subst own
    rcases hosted : node.listener.caches.get? request.cache with _ | store
    · rw [Service.answer_of_not_served hosted]
      exact hosted
    · rw [Service.answer_of_served hosted, Table.get?_insert, if_pos rfl]
      rfl
  next other => exact Service.get?_answer_of_ne other

end Node

namespace Hosting

variable {clock : Clocked Node} {hosting : Hosting}

/-- The caches of a node hold what is in the stores that they refer to. -/
structure IsOf (hosting : Hosting) (node : Node) : Prop where
  sound : hosting.IsSound
  shown : ∀ cache, node.store? cache = hosting.contents.get? cache

theorem IsOf.contains_eq {node : Node} (h : hosting.IsOf node) (name : String) :
    node.listener.caches.contains name = hosting.caches.contains name := by
  have shown : node.listener.caches.get? name = hosting.contents.get? name := h.shown name
  rw [Table.contains, shown, contents, Table.get?_map, Option.isSome_map]
  rfl

/-- A request gets the same answer by the node and by the stores that its listener refers to. -/
theorem IsOf.serve {node : Node} (h : hosting.IsOf node) (request : Request) :
    (hosting.answer request).2.IsOf (node.serve request) := by
  rw [h.sound.answer_eq]
  refine ⟨h.sound.write _ _, fun cache => (node.store?_serve_eq request cache).trans ?_⟩
  rw [h.sound.get?_contents_write, h.shown]

theorem IsOf.response_eq {node : Node} (h : hosting.IsOf node) (request : Request) :
    (Service.answer node.listener.caches request).1 = (hosting.answer request).1 := by
  have shown : node.listener.caches.get? request.cache = hosting.contents.get? request.cache :=
    h.shown request.cache
  rw [h.sound.answer_eq, ← shown]
  rcases hosted : node.listener.caches.get? request.cache with _ | store
  · rw [Service.answer_of_not_served hosted]
  · rw [Service.answer_of_served hosted]

theorem IsOf.effect (h : hosting.IsOf clock.state) (u : Node.Use) :
    (hosting.effect clock u).IsOf (u.effect clock) := by
  rcases u with
    (⟨interfaces, freePort⟩ | ⟨name, mesh⟩ | ⟨⟨name, change⟩ | _ | _, mesh⟩ | mesh) | request
  case deed.start =>
    refine ⟨h.sound, fun cache => ?_⟩
    exact (congrArg (Table.get? · cache) (Node.start_keeps _ _ _).1).trans (h.shown cache)
  case deed.addCache =>
    unfold Hosting.effect
    dsimp only
    rw [← h.contains_eq]
    split
    next new =>
      obtain ⟨sound, held⟩ := (h.sound.add name).absorb
        ((clock.state.setStore name ∅).filled (mesh clock.turn) clock.now name)
      refine ⟨sound, fun cache => (Node.store?_addCache _ _ _ name cache).trans ?_⟩
      rw [if_pos new, held, h.sound.get?_contents_add, h.shown]
    next old =>
      refine ⟨h.sound, fun cache => (Node.store?_addCache _ _ _ name cache).trans ?_⟩
      rw [if_neg old, h.shown]
  case deed.live.change =>
    refine ⟨h.sound.write name _, fun cache => ?_⟩
    refine Eq.trans ?_ (h.sound.get?_contents_write name _ cache).symm
    rw [← h.shown]
    unfold Node.Use.effect
    dsimp only
    rcases held : clock.state.store? name with _ | store
    · by_cases own : cache = name
      · rw [if_pos own, own, held]
        rfl
      · rw [if_neg own]
    · rw [(Node.make_keeps _ _ _ name store change held cache).1]
      split
      next own => rw [own, held, Option.map_some, Store.on_fst]
      next => rfl
  case deed.shutdown =>
    refine ⟨h.sound, fun cache => ?_⟩
    exact (congrArg (Table.get? · cache) (Node.shutdown_keeps _ _ _).1).trans (h.shown cache)
  case serve => exact h.serve request
  all_goals exact ⟨h.sound, h.shown⟩

theorem IsOf.use (h : hosting.IsOf clock.state) (u : Node.Use) :
    (hosting.use clock u).IsOf (Node.use clock u).state := by
  have atOnce := h.effect u
  obtain ⟨sound, held⟩ := atOnce.sound.absorb (u.copied clock)
  refine ⟨sound, fun cache => (Node.Use.store?_state_use clock u cache).trans ?_⟩
  rw [atOnce.shown]
  exact (held cache).symm

theorem IsOf.useAll (h : hosting.IsOf clock.state) (uses : List Node.Use) :
    (hosting.useAll clock uses).IsOf (Node.useAll clock uses).state := by
  induction uses generalizing clock hosting with
  | nil => exact h
  | cons u uses ih => exact ih (h.use u)

/-! ## The names of the caches -/

theorem IsOf.caches_eq {node : Node} (h : hosting.IsOf node) :
    node.listener.caches = hosting.contents :=
  Table.ext_get? h.shown

theorem IsOf.cacheNames_eq {node : Node} (h : hosting.IsOf node) :
    node.cacheNames = hosting.caches.names := by
  rw [Node.cacheNames, h.caches_eq, names_contents]

theorem mem_names_add (hosting : Hosting) (name other : String) :
    other ∈ (hosting.add name).caches.names ↔ other ∈ hosting.caches.names ∨ other = name := by
  rw [Table.mem_names_iff, Table.mem_names_iff, get?_caches_add]
  by_cases same : other = name <;> simp [same]

/-- A name is new after a use if it is that of a cache which is added and can have it. -/
theorem mem_names_use (hosting : Hosting) (clock : Clocked Node) (u : Node.Use) (name : String) :
    name ∈ (hosting.use clock u).caches.names ↔
      name ∈ hosting.caches.names ∨
        Node.isCacheName name = true ∧ ∃ mesh, u = .deed (.addCache name mesh) := by
  rw [use, caches_absorb]
  rcases u with (_ | ⟨other, mesh⟩ | ⟨⟨other, change⟩ | _ | _, mesh⟩ | mesh) | request
  case deed.addCache =>
    have added : (∃ mesh', Node.Use.deed (.addCache other mesh) = .deed (.addCache name mesh')) ↔
        name = other := by
      simp [eq_comm]
    rw [added, effect]
    split
    next new =>
      rw [caches_absorb, mem_names_add]
      obtain ⟨valid, -⟩ := Bool.and_eq_true_iff.1 new
      constructor
      · exact Or.imp id fun same => ⟨same ▸ valid, same⟩
      · exact Or.imp id And.right
    next old =>
      refine (or_iff_left_of_imp ?_).symm
      rintro ⟨valid, rfl⟩
      have known : hosting.caches.contains name = true := by simpa [valid] using old
      exact Table.mem_names_iff.2 (Option.isSome_iff_exists.1 known)
  case deed.live.change => simp [effect]
  case serve =>
    have same : (hosting.answer request).2.caches = hosting.caches := by
      unfold answer
      split <;> rfl
    simp [effect, same]
  all_goals simp [effect]

theorem mem_names_useAll (hosting : Hosting) (clock : Clocked Node) (uses : List Node.Use)
    (name : String) :
    name ∈ (hosting.useAll clock uses).caches.names ↔
      name ∈ hosting.caches.names ∨
        Node.isCacheName name = true ∧ ∃ mesh, .deed (.addCache name mesh) ∈ uses := by
  induction uses generalizing clock hosting with
  | nil => simp [useAll]
  | cons u uses ih =>
    rw [useAll, ih, mem_names_use, or_assoc, ← and_or_left, ← exists_or]
    simp only [List.mem_cons, eq_comm]

end Hosting

namespace Node

/-- Whatever is done with a node, its caches are those with a valid name that were added, and they
are listed once each and in order. The listener finds the same names and, under each, the store that
the cache reads and writes, which it shares with no other; so a request is answered from the cache
that it names, changes no other, and is refused if there is none. The advertised urls are those of
the names, in their order. Adding a cache again leaves the node as it is, with no new load, and so
does a name that is not valid, for which there is an error. -/
theorem hosted_caches_agree (config : Settings.Configuration) {picks : Nat → Nat}
    (clock : Clocked Node) (built : (ofConfiguration config picks).value = .ok clock.state)
    (uses : List Use) :
    let node := (useAll clock uses).state
    let hosting := Hosting.useAll clock {} uses
    (node.cacheNames.Pairwise (· < ·) ∧ ∀ name, name ∈ node.cacheNames ↔
      isCacheName name = true ∧ ∃ mesh, .deed (.addCache name mesh) ∈ uses) ∧
    (hosting.IsSound ∧ node.listener.caches = hosting.contents) ∧
    node.listener.advertised = node.cacheNames.map node.listener.urlFor ∧
    (∀ request,
      (Service.answer node.listener.caches request).1 = (hosting.answer request).1 ∧
      (node.serve request).listener.caches = (hosting.answer request).2.contents ∧
      (request.cache ∉ node.cacheNames → node.serve request = node ∧
        (hosting.answer request).1 = Service.notServed request.cache) ∧
      ∀ name, (node.serve request).store? name =
        if name = request.cache then
          (node.store? name).map fun store => (Service.perform store request.action).2
        else node.store? name) ∧
    ∀ mesh now name,
      (name ∈ node.cacheNames → node.addCache mesh now name = ⟨node, .ok (), now⟩) ∧
      (isCacheName name = false →
        node.addCache mesh now name = ⟨node, .error (invalidName name), now⟩) := by
  intro node hosting
  have new : Hosting.IsOf {} clock.state := by
    refine ⟨Hosting.isSound_empty, fun cache => ?_⟩
    rw [store?, (new_ofConfiguration built).1]
    rfl
  have shows : hosting.IsOf node := new.useAll uses
  have names (name : String) : name ∈ node.cacheNames ↔
      isCacheName name = true ∧ ∃ mesh, .deed (.addCache name mesh) ∈ uses := by
    rw [shows.cacheNames_eq, Hosting.mem_names_useAll]
    exact or_iff_right List.not_mem_nil
  refine ⟨⟨Table.sorted_names _, names⟩, ⟨shows.sound, shows.caches_eq⟩,
    node.listener.advertised_eq, fun request => ?_, fun mesh now name => ?_⟩
  · refine ⟨shows.response_eq request, (shows.serve request).caches_eq, fun absent => ?_,
      node.store?_serve_eq request⟩
    have none : node.store? request.cache = none :=
      Option.eq_none_iff_forall_ne_some.2 fun store held =>
        absent (Table.mem_names_iff.2 ⟨store, held⟩)
    refine ⟨serve_of_absent none, ?_⟩
    rw [← shows.response_eq, Service.answer_of_not_served none]
  · exact ⟨fun hosted => addCache_of_hosted ((names name).1 hosted).1 hosted mesh now,
      fun invalid => addCache_of_invalid invalid node mesh now⟩

/-- Caches are added before and after a start, one of them in vain, and written to from both
sides. -/
def hostingTwo : List Use :=
  [.deed (.addCache "b" answering), .deed (.addCache "a|b" answering),
    .deed (.start .isolated 40001), .deed (.addCache "a" answering),
    .deed (.live ⟨.change "a" (.put ⟨"k", [1], 1, 0⟩), answering⟩),
    .serve ⟨"b", .put ⟨"k", [2], 1, 0⟩⟩, .deed (.shutdown answering)]

/-- The two caches are in order, and are left alone by what is not meant for them. -/
theorem two_hosted_caches_agree :
    let node := (useAll { state := untouched } hostingTwo).state
    node.cacheNames = ["a", "b"] ∧
    node.listener.advertised = [node.listener.urlFor "a", node.listener.urlFor "b"] ∧
    node.addCache (answering 0) 0 "a" = ⟨node, .ok (), 0⟩ ∧
    node.addCache (answering 0) 0 "a|b" = ⟨node, .error (invalidName "a|b"), 0⟩ ∧
    node.serve ⟨"a|b", .removeAll⟩ = node := by
  intro node
  obtain ⟨⟨ascending, names⟩, -, advertised, answers, adds⟩ :=
    hosted_caches_agree fixedAddress { state := untouched } ofConfiguration_fixedAddress hostingTwo
  have valid : isCacheName "a" = true ∧ isCacheName "b" = true := by decide +kernel
  have invalid : isCacheName "a|b" = false := by decide +kernel
  have added (name : String) : (∃ mesh, .deed (.addCache name mesh) ∈ hostingTwo) ↔
      name = "b" ∨ name = "a|b" ∨ name = "a" := by
    simp [hostingTwo, exists_or]
  have two : node.cacheNames = ["a", "b"] := by
    refine ascending.eq_of_mem_iff (by decide) fun name => (names name).trans ?_
    rw [added]
    constructor
    · rintro ⟨known, rfl | rfl | rfl⟩
      · simp
      · simp [invalid] at known
      · simp
    · intro mem
      obtain rfl | rfl : name = "a" ∨ name = "b" := by simpa using mem
      · exact ⟨valid.1, .inr (.inr rfl)⟩
      · exact ⟨valid.2, .inl rfl⟩
  refine ⟨two, by rw [advertised, two]; rfl, (adds _ 0 "a").1 ?_, (adds _ 0 "a|b").2 invalid,
    ((answers ⟨"a|b", .removeAll⟩).2.2.1 ?_).1⟩
  · rw [two]
    exact List.mem_cons_self
  · rw [two]
    simp

end Node

end CacheCluster
