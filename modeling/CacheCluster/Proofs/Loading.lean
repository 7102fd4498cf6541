import CacheCluster.Bootstrap.Loader

/-! # Loading from a peer that answers

A load asks for the elements of all listed keys, chunk by chunk. As long as the peer answers from
one store, and fails at most for chunks of several keys, the halving reaches every key, and what the
load puts into its own store is what the peer holds.
-/

namespace CacheCluster

namespace Store

/-- Every element is held under its own key. -/
def IsKeyed (store : Store) : Prop :=
  ∀ key element, store.get? key = some element → element.key = key

variable {store source old : Store} {keys : List String}

theorem isKeyed_putAll {elements : List Element} (keyed : store.IsKeyed) :
    (putAll store elements).IsKeyed := by
  induction elements generalizing store with
  | nil => exact keyed
  | cons element elements ih =>
    refine ih fun key held h => ?_
    rw [get?_put] at h
    split at h
    next same =>
      obtain rfl := Option.some.inj h
      exact same.symm
    next => exact keyed key held h

theorem elementsFor_append (store : Store) (keys more : List String) :
    store.elementsFor (keys ++ more) = store.elementsFor keys ++ store.elementsFor more :=
  List.filterMap_append

theorem length_elementsFor (held : ∀ key ∈ keys, (store.get? key).isSome = true) :
    (store.elementsFor keys).length = keys.length := by
  induction keys with
  | nil => rfl
  | cons key keys ih =>
    obtain ⟨first, others⟩ := List.forall_mem_cons.1 held
    obtain ⟨element, eq⟩ := Option.isSome_iff_exists.1 first
    rw [elementsFor, List.filterMap_cons_some eq, List.length_cons, List.length_cons, ← ih others]
    rfl

/-- Elements of one store that are put into another take the places that they have in the first. -/
theorem get?_putAll {elements : List Element}
    (own : ∀ element ∈ elements, source.get? element.key = some element) (old : Store)
    (key : String) :
    (putAll old elements).get? key =
      if key ∈ elements.map Element.key then source.get? key else old.get? key := by
  induction elements generalizing old with
  | nil => rfl
  | cons element elements ih =>
    obtain ⟨first, others⟩ := List.forall_mem_cons.1 own
    rw [putAll, List.foldl_cons, ← putAll, ih others, get?_put, List.map_cons]
    by_cases later : key ∈ elements.map Element.key
    · rw [if_pos later, if_pos (List.mem_cons_of_mem _ later)]
    · rw [if_neg later]
      by_cases same : key = element.key
      · rw [if_pos same, if_pos (same ▸ List.mem_cons_self), same, first]
      · rw [if_neg same, if_neg (by simp [same, later])]

theorem mem_names_iff {key : String} : key ∈ store.names ↔ (store.get? key).isSome = true := by
  rw [Table.names, List.mem_map, Option.isSome_iff_exists]
  constructor
  · rintro ⟨⟨_, element⟩, mem, rfl⟩
    exact ⟨element, (Table.mem_entries_iff store _ element).1 mem⟩
  · rintro ⟨element, held⟩
    exact ⟨(key, element), (Table.mem_entries_iff store key element).2 held, rfl⟩

/-- The elements of a whole store overlay another one, in whatever order they are put into it. -/
theorem get?_putAll_elementsFor (keyed : source.IsKeyed) (listed : keys.Perm source.names)
    {elements : List Element} (perm : elements.Perm (source.elementsFor keys)) (key : String) :
    (putAll old elements).get? key = (source.get? key).or (old.get? key) := by
  have mem (element : Element) :
      element ∈ elements ↔ ∃ key ∈ keys, source.get? key = some element := by
    rw [perm.mem_iff, elementsFor, List.mem_filterMap]
  have own : ∀ element ∈ elements, source.get? element.key = some element := by
    intro element here
    obtain ⟨key, -, held⟩ := (mem element).1 here
    rwa [keyed key element held]
  rw [get?_putAll own]
  rcases held : source.get? key with _ | element
  · rw [Option.none_or, if_neg]
    intro here
    obtain ⟨element, there, rfl⟩ := List.mem_map.1 here
    rw [own element there] at held
    cases held
  · have here : element ∈ elements :=
      (mem element).2 ⟨key, listed.mem_iff.2 (mem_names_iff.2 (by rw [held]; rfl)), held⟩
    rw [Option.some_or, if_pos]
    exact List.mem_map.2 ⟨element, here, keyed key element held⟩

end Store

/-- Whether an action asks for something and changes nothing. -/
def Request.Action.isReading : Request.Action → Bool
  | .ping | .keys | .getElements _ => true
  | _ => false

namespace Load

variable {neighbours : Neighbours} {load : Load} {now time : Nat} {limit : Option Nat}

/-! ## One act after the other -/

/-- A load that has acted. -/
def acted (neighbours : Neighbours) (time : Nat) (load : Load) : Load :=
  { load with
    stage := (load.next time neighbours).1
    calls := load.calls ++ (load.next time neighbours).1.call?.toList }

theorem isPending_cancel (load : Load) : load.cancel.isPending = false := by
  unfold cancel
  split
  · rfl
  next settled => exact Bool.not_eq_true _ ▸ settled

theorem acts_of_none (ended : due? now load.stage = none) :
    load.acts neighbours now limit = (load, []) := by
  rw [acts]
  split
  · rfl
  next _ other => simp [ended] at other

theorem acts_of_in_time (due : due? now load.stage = some time)
    (inTime : limit.all (time ≤ ·) = true) :
    load.acts neighbours now limit =
      (((load.acted neighbours time).acts neighbours time limit).1,
        (load.next time neighbours).2.map (⟨time, load.cache, ·⟩) ++
          ((load.acted neighbours time).acts neighbours time limit).2) := by
  rw [acts]
  split
  next other => simp [due] at other
  next other =>
    obtain rfl : time = _ := Option.some.inj (due.symm.trans other)
    rw [if_pos inTime]
    rfl

theorem acts_of_late (due : due? now load.stage = some time)
    (late : ¬limit.all (time ≤ ·) = true) : load.acts neighbours now limit = (load, []) := by
  rw [acts]
  split
  · rfl
  next other =>
    obtain rfl : time = _ := Option.some.inj (due.symm.trans other)
    exact if_neg late

theorem acts_of_due (due : due? now load.stage = some time) :
    load.acts neighbours now none =
      (((load.acted neighbours time).acts neighbours time none).1,
        (load.next time neighbours).2.map (⟨time, load.cache, ·⟩) ++
          ((load.acted neighbours time).acts neighbours time none).2) :=
  acts_of_in_time due rfl

/-- What holds of loads that are over, and is handed back by every act, holds of all loads. -/
theorem acts_induction (neighbours : Neighbours) {I : Nat → Load → Prop}
    (ended : ∀ now load, due? now load.stage = none → I now load)
    (act : ∀ now load time, due? now load.stage = some time → I time (load.acted neighbours time) →
      I now load) (now : Nat) (load : Load) : I now load := by
  induction now, load using acts.induct neighbours none with
  | case1 now load none => exact ended now load none
  | case2 now load time due _ _ _ _ _ ih => exact act now load time due ih
  | case3 now load time due limited => exact absurd rfl limited

/-- Acting makes more calls and takes none back. -/
theorem calls_subset_acts : load.calls ⊆ (load.acts neighbours now none).1.calls := by
  induction now, load using acts_induction neighbours with
  | ended now load none =>
    rw [acts_of_none none]
    exact List.Subset.refl _
  | act now load time due ih =>
    rw [acts_of_due due]
    exact List.Subset.trans (List.subset_append_left _ _) ih

theorem isReading_copy {mesh : Mesh} {url : String} {loaded : Nat} {pending : List (List String)}
    {call : Delivery} (asks : (copy mesh time url loaded pending).call? = some call) :
    call.action.isReading = true := by
  cases pending with
  | nil => cases asks
  | cons chunk rest =>
    cases asks
    rfl

/-- A load asks only for keys and elements. -/
theorem isReading_next {call : Delivery} (asks : (load.next time neighbours).1.call? = some call) :
    call.action.isReading = true := by
  rcases stage : load.stage with
    due | lookup | call | ⟨keys, call⟩ | ⟨chunk, rest, loaded, call⟩ | _
  all_goals
    rw [next, stage] at asks
    dsimp only at asks
  · cases asks
  · unfold afterLookup at asks
    split at asks <;> cases asks
    rfl
  · unfold afterKeys at asks
    split at asks <;> cases asks
    rfl
  · unfold afterSample at asks
    split at asks
    · exact isReading_copy asks
    · cases asks
  · unfold afterChunk at asks
    split at asks
    · exact isReading_copy asks
    · split at asks
      · dsimp only at asks
        exact isReading_copy asks
      · cases asks
  all_goals cases asks

theorem isReading_acts {call : Delivery} (made : call ∈ (load.acts neighbours now none).1.calls) :
    call ∈ load.calls ∨ call.action.isReading = true := by
  induction now, load using acts_induction neighbours with
  | ended now load none =>
    rw [acts_of_none none] at made
    exact .inl made
  | act now load time due ih =>
    rw [acts_of_due due] at made
    rcases ih made with known | reading
    · rcases List.mem_append.1 known with before | asked
      · exact .inl before
      · exact .inr (isReading_next (Option.mem_toList.1 asked))
    · exact .inr reading

/-! ## A peer that answers -/

/-- A call is answered from a store. The keys are listed in a given order, and a request for the
element of one of them alone does not fail. -/
def AnsweredFrom (store : Store) (keys : List String) (call : Delivery) : Prop :=
  match call.action with
  | .keys => call.result = .ok (.keys keys)
  | .getElements chunk =>
    call.result = .ok (.elements (store.elementsFor chunk)) ∨
      (∃ error, call.result = .error error) ∧ ∀ key ∈ keys, chunk ≠ [key]
  | _ => True

/-- A load that is over has copied `n` elements, and put some into the store of its cache. -/
structure Brings (done : Load × List Write) (cache : String) (n : Nat) (elements : List Element) :
    Prop where
  outcome : ∃ time, done.1.outcome? = some (time, .ok n)
  written : done.2.map (·.element) = elements
  own : ∀ write ∈ done.2, write.cache = cache

theorem brings_of_finished {n : Nat} (finished : load.stage = .finished time (.ok n)) :
    Brings (load.acts neighbours now none) load.cache n [] := by
  have ended : due? now load.stage = none := by rw [finished]; rfl
  rw [acts_of_none ended]
  exact ⟨⟨time, by rw [outcome?, finished]⟩, rfl, fun _ mem => by cases mem⟩

/-- What an act puts into the store comes before what the later ones do. -/
theorem Brings.of_due {n : Nat} {elements : List Element} (due : due? now load.stage = some time)
    (later : Brings ((load.acted neighbours time).acts neighbours time none) load.cache n
      elements) :
    Brings (load.acts neighbours now none) load.cache n
      ((load.next time neighbours).2 ++ elements) := by
  obtain ⟨outcome, written, own⟩ := later
  rw [acts_of_due due]
  refine ⟨outcome, ?_, ?_⟩
  · rw [List.map_append, written, List.map_map]
    congr 1
    exact List.map_id _
  · intro write mem
    rcases List.mem_append.1 mem with first | rest
    · obtain ⟨element, -, rfl⟩ := List.mem_map.1 first
      rfl
    · exact own write rest

section Answered

variable {store : Store} {keys : List String}

/-- Every call of a load that is over, the one under way among them, is answered from the store. -/
structure Answered (neighbours : Neighbours) (store : Store) (keys : List String) (now : Nat)
    (load : Load) : Prop where
  known : ∀ call, load.stage.call? = some call → call ∈ load.calls
  answered : ∀ call ∈ (load.acts neighbours now none).1.calls, AnsweredFrom store keys call

theorem Answered.acted (h : Answered neighbours store keys now load)
    (due : due? now load.stage = some time) :
    Answered neighbours store keys time (load.acted neighbours time) where
  known := by
    intro call pending
    refine List.mem_append_right _ ?_
    rw [show (load.next time neighbours).1.call? = some call from pending]
    exact List.mem_singleton_self call
  answered := by
    have answered := h.answered
    rw [acts_of_due due] at answered
    exact answered

theorem Answered.current (h : Answered neighbours store keys now load) {call : Delivery}
    (pending : load.stage.call? = some call) : AnsweredFrom store keys call :=
  h.answered call (calls_subset_acts (h.known call pending))

/-- A load that is not over brings what it puts next, and what it brings from there on. -/
theorem Answered.brings_of_put {n : Nat} {put elements : List Element} {stage : Nat → Stage}
    (h : Answered neighbours store keys now load) (waits : (due? now load.stage).isSome = true)
    (next : ∀ time, load.next time neighbours = (stage time, put))
    (later : ∀ time, Answered neighbours store keys time (load.acted neighbours time) →
      (load.acted neighbours time).stage = stage time →
      Brings ((load.acted neighbours time).acts neighbours time none) load.cache n elements) :
    Brings (load.acts neighbours now none) load.cache n (put ++ elements) := by
  obtain ⟨time, due⟩ := Option.isSome_iff_exists.1 waits
  have brings := Brings.of_due due (later time (h.acted due) (by rw [Load.acted, next]))
  rwa [next] at brings

theorem Answered.brings_of_next {n : Nat} {elements : List Element} {stage : Nat → Stage}
    (h : Answered neighbours store keys now load) (waits : (due? now load.stage).isSome = true)
    (next : ∀ time, load.next time neighbours = (stage time, []))
    (later : ∀ time, Answered neighbours store keys time (load.acted neighbours time) →
      (load.acted neighbours time).stage = stage time →
      Brings ((load.acted neighbours time).acts neighbours time none) load.cache n elements) :
    Brings (load.acts neighbours now none) load.cache n elements :=
  h.brings_of_put waits next later

/-- Chunks of keys that the peer has listed. -/
def AreChunks (keys : List String) (pending : List (List String)) : Prop :=
  ∀ chunk ∈ pending, chunk ≠ [] ∧ ∀ key ∈ chunk, key ∈ keys

/-- A chunk that fails holds more than one key. -/
theorem one_lt_length {chunk : List String} (some_keys : chunk ≠ [])
    (listed : ∀ key ∈ chunk, key ∈ keys) (several : ∀ key ∈ keys, chunk ≠ [key]) :
    1 < chunk.length := by
  obtain ⟨key, rest, rfl⟩ := List.exists_cons_of_ne_nil some_keys
  obtain ⟨here, -⟩ := List.forall_mem_cons.1 listed
  rcases rest with _ | ⟨other, rest⟩
  · exact absurd rfl (several key here)
  · simp

theorem AreChunks.halves {chunk : List String} {rest : List (List String)}
    (h : AreChunks keys (chunk :: rest)) (long : 1 < chunk.length) :
    AreChunks keys (chunk.take (chunk.length / 2) :: chunk.drop (chunk.length / 2) :: rest) := by
  obtain ⟨⟨-, listed⟩, others⟩ := List.forall_mem_cons.1 h
  refine List.forall_mem_cons.2 ⟨⟨?_, ?_⟩, List.forall_mem_cons.2 ⟨⟨?_, ?_⟩, others⟩⟩
  · exact List.ne_nil_of_length_pos (by rw [List.length_take]; omega)
  · exact fun key mem => listed key (List.mem_of_mem_take mem)
  · exact List.ne_nil_of_length_pos (by rw [List.length_drop]; omega)
  · exact fun key mem => listed key (List.mem_of_mem_drop mem)

/-- Copying chunks goes on to the end, whatever chunks of several keys fail: a chunk that is
answered is done, and the halves of one that fails take its place. -/
theorem brings_copy {url : String} {start loaded : Nat} {pending : List (List String)}
    (h : Answered neighbours store keys now load)
    (stage : load.stage = copy neighbours.mesh start url loaded pending)
    (chunks : AreChunks keys pending) :
    Brings (load.acts neighbours now none) load.cache
      (loaded + (store.elementsFor pending.flatten).length)
      (store.elementsFor pending.flatten) := by
  -- halving makes more chunks of one, so the induction is on the requests that they may still take
  induction count : requestsFor pending using Nat.strongRecOn
    generalizing now load start loaded pending with
  | ind count ih =>
    rcases pending with _ | ⟨chunk, rest⟩
    · exact brings_of_finished stage
    obtain ⟨⟨some_keys, listed⟩, others⟩ := List.forall_mem_cons.1 chunks
    have waits : (due? now load.stage).isSome = true := by
      rw [stage]
      rfl
    have next (time : Nat) : load.next time neighbours =
        afterChunk neighbours.mesh time chunk rest loaded
          (neighbours.mesh.ask start url (.getElements chunk)) := by
      rw [Load.next, stage]
      rfl
    have answer : AnsweredFrom store keys (neighbours.mesh.ask start url (.getElements chunk)) :=
      h.current (by rw [stage]; rfl)
    have counts : requestsFor (chunk :: rest) = requests chunk + requestsFor rest := rfl
    rcases answer with found | ⟨⟨error, failed⟩, several⟩
    · -- the chunk has come, and its elements are put
      have put (time : Nat) : load.next time neighbours =
          (copy neighbours.mesh time url (loaded + (store.elementsFor chunk).length) rest,
            store.elementsFor chunk) := by
        rw [next, afterChunk, elementsOf, found]
        rfl
      have positive : 1 ≤ requests chunk := Nat.le_max_left ..
      rw [List.flatten_cons, Store.elementsFor_append, List.length_append, ← Nat.add_assoc]
      exact h.brings_of_put waits put fun time answered copying =>
        ih (requestsFor rest) (by omega) answered copying others rfl
    · -- the halves take the place of the chunk
      have long := one_lt_length some_keys listed several
      have halved (time : Nat) : load.next time neighbours =
          (copy neighbours.mesh time url loaded
            (chunk.take (chunk.length / 2) :: chunk.drop (chunk.length / 2) :: rest), []) := by
        rw [next, afterChunk, elementsOf, failed]
        exact if_pos long
      have fewer := requests_halves long
      refine h.brings_of_next waits halved fun time answered copying => ?_
      have brings := ih _ (by rw [requestsFor, requestsFor]; omega) answered copying
        (chunks.halves long) rfl
      rwa [List.flatten_cons, List.flatten_cons, ← List.append_assoc,
        List.take_append_drop] at brings

theorem areChunks_chunks (size : Nat) (keys : List String) : AreChunks keys (chunks size keys) := by
  intro chunk mem
  constructor
  · induction keys using chunks.induct size with
    | case1 => simp [chunks] at mem
    | case2 key keys ih =>
      rw [chunks, List.mem_cons] at mem
      rcases mem with rfl | rest
      · exact List.cons_ne_nil _ _
      · exact ih rest
  · intro key here
    rw [← flatten_chunks size keys]
    exact List.mem_flatten_of_mem mem here

/-- The sample only decides how large the chunks are at first. -/
theorem brings_sampling {url key : String} {start : Nat} {rest : List String}
    (h : Answered neighbours store (key :: rest) now load)
    (stage : load.stage =
      .sampling (key :: rest) (neighbours.mesh.ask start url (.getElements [key]))) :
    Brings (load.acts neighbours now none) load.cache
      (store.elementsFor (key :: rest)).length (store.elementsFor (key :: rest)) := by
  have waits : (due? now load.stage).isSome = true := by
    rw [stage]
    rfl
  have answer : AnsweredFrom store (key :: rest) (neighbours.mesh.ask start url
      (.getElements [key])) := h.current (by rw [stage]; rfl)
  rcases answer with found | ⟨-, several⟩
  · have next (time : Nat) : load.next time neighbours = (copy neighbours.mesh time url 0
        (chunks (keysPerChunk load.budget (store.elementsFor [key])) (key :: rest)), []) := by
      rw [Load.next, stage]
      dsimp only
      rw [afterSample, elementsOf, found]
      rfl
    refine h.brings_of_next waits next fun time answered copying => ?_
    have brings := brings_copy answered copying (areChunks_chunks _ _)
    rwa [flatten_chunks, Nat.zero_add] at brings
  · exact absurd rfl (several key List.mem_cons_self)

theorem brings_listing {url : String} {start : Nat} (h : Answered neighbours store keys now load)
    (stage : load.stage = .listing (neighbours.mesh.ask start url .keys)) :
    Brings (load.acts neighbours now none) load.cache (store.elementsFor keys).length
      (store.elementsFor keys) := by
  have waits : (due? now load.stage).isSome = true := by
    rw [stage]
    rfl
  have answer : AnsweredFrom store keys (neighbours.mesh.ask start url .keys) :=
    h.current (by rw [stage]; rfl)
  have listed : (neighbours.mesh.ask start url .keys).result = .ok (.keys keys) := answer
  rcases keys with _ | ⟨key, rest⟩
  · have next (time : Nat) : load.next time neighbours = (.finished time (.ok 0), []) := by
      rw [Load.next, stage]
      dsimp only
      rw [afterKeys, listed]
    exact h.brings_of_next waits next fun _ _ finished => brings_of_finished finished
  · have next (time : Nat) : load.next time neighbours = (.sampling (key :: rest)
        (neighbours.mesh.ask time url (.getElements [key])), []) := by
      rw [Load.next, stage]
      dsimp only
      rw [afterKeys, listed]
      rfl
    exact h.brings_of_next waits next fun _ answered sampling => brings_sampling answered sampling

theorem brings_looking {url : String} {lookup : Lookup}
    (h : Answered neighbours store keys now load) (stage : load.stage = .looking lookup)
    (chosen : lookup.found[load.pick % lookup.found.length]? = some url) :
    Brings (load.acts neighbours now none) load.cache (store.elementsFor keys).length
      (store.elementsFor keys) := by
  have waits : (due? now load.stage).isSome = true := by
    rw [stage]
    rfl
  have next (time : Nat) : load.next time neighbours =
      (.listing (neighbours.mesh.ask time url .keys), []) := by
    rw [Load.next, stage]
    dsimp only
    rw [afterLookup, chosen]
  exact h.brings_of_next waits next fun _ answered listing => brings_listing answered listing

/-- A whole load, from the peer that is picked among those that are found. -/
theorem brings_start {cache url : String} {budget delay pick now : Nat} {load : Load}
    (started : load = { start cache budget delay now with pick })
    (chosen : (neighbours.lookUp (now + delay) cache).found[
      pick % (neighbours.lookUp (now + delay) cache).found.length]? = some url)
    (answered : ∀ call ∈ (load.acts neighbours now none).1.calls, AnsweredFrom store keys call) :
    Brings (load.acts neighbours now none) cache (store.elementsFor keys).length
      (store.elementsFor keys) := by
  subst started
  have due : due? now (.waiting (now + delay)) = some (now + delay) :=
    congrArg some (Nat.max_eq_right (Nat.le_add_right now delay))
  have h : Answered neighbours store keys now { start cache budget delay now with pick } :=
    ⟨fun _ pending => (by cases pending), answered⟩
  exact Brings.of_due due (brings_looking (h.acted due) rfl chosen)

end Answered

end Load

end CacheCluster
