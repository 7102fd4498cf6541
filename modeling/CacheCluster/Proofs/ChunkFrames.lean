import CacheCluster.Proofs.LoadOverConnection

/-! # Chunks that fit in a frame

The answer to a request for elements is as long as the elements and little more, so elements of at
most half the size of a frame fit in one. A load that cuts its chunks by the size of a sample asks
for no more than that as long as the other elements are no larger, and then no chunk is ever halved.
-/

namespace CacheCluster

/-! ## The size of an answer -/

theorem Json.two_le_size_string (s : String) : 2 ≤ (Json.string s).size := by
  rw [size_string]
  exact Nat.le_add_left 2 _

namespace Element

theorem wireSize_eq (element : Element) : element.wireSize = element.toJson.size := rfl

theorem size_key_add_le (element : Element) :
    (Json.string element.key).size + 44 ≤ element.wireSize := by
  have names : (Json.string "key").size + (Json.string "value").size +
      (Json.string "version").size + (Json.string "creationTime").size = 35 := by
    simp only [Json.size_string]
    decide +kernel
  rw [wireSize_eq, toJson, Json.size_object (List.cons_ne_nil _ _)]
  simp only [List.map_cons, List.map_nil, List.sum_cons, List.sum_nil]
  omega

theorem length_mul_le_totalSize (elements : List Element) :
    46 * elements.length ≤ totalSize elements := by
  induction elements with
  | nil => exact Nat.le_refl 0
  | cons element elements ih =>
    have := element.size_key_add_le
    have := Json.two_le_size_string element.key
    rw [List.length_cons, totalSize]
    omega

theorem totalSize_le {elements : List Element} {size : Nat}
    (small : ∀ element ∈ elements, element.wireSize ≤ size) :
    totalSize elements ≤ elements.length * size := by
  induction elements with
  | nil => exact Nat.zero_le _
  | cons element elements ih =>
    obtain ⟨first, others⟩ := List.forall_mem_cons.1 small
    have := ih others
    rw [totalSize, List.length_cons, Nat.succ_mul]
    omega

end Element

namespace Response

open Element (totalSize)

/-- The elements add up, each with a comma or a bracket, behind a start of fixed size. -/
theorem size_elements {elements : List Element} (some_elements : elements ≠ []) :
    (toJson (.elements elements)).size = 32 + totalSize elements + elements.length := by
  have some_values : elements.map Element.toJson ≠ [] := by simpa using some_elements
  have each : ∀ elements : List Element,
      ((elements.map Element.toJson).map fun value => value.size + 1).sum =
        totalSize elements + elements.length := by
    intro elements
    induction elements with
    | nil => rfl
    | cons element elements ih =>
      rw [List.map_cons, List.map_cons, List.sum_cons, ih, totalSize, List.length_cons,
        Element.wireSize_eq]
      omega
  obtain ⟨-, -, -, -, tag, -, -, name, -⟩ := size_texts
  rw [toJson, Wire.size_tagged]
  simp only [List.map_cons, List.map_nil, List.sum_cons, List.sum_nil, tag, name,
    Json.size_array some_values, each]
  omega

theorem fits_elements {elements : List Element}
    (small : totalSize elements ≤ Settings.Bootstrap.maxBudget) :
    (Response.elements elements).fits = true := by
  rw [fits_iff]
  rcases eq_or_ne elements [] with rfl | some_elements
  · have array : (Json.array []).size = 2 := by decide +kernel
    obtain ⟨-, -, -, -, tag, -, -, name, -⟩ := size_texts
    rw [toJson, Wire.size_tagged]
    simp only [List.map_nil, List.map_cons, List.sum_cons, List.sum_nil, tag, name, array,
      Frame.maxBytes]
    omega
  · have many := Element.length_mul_le_totalSize elements
    rw [size_elements some_elements]
    rw [Settings.Bootstrap.maxBudget] at small
    rw [Frame.maxBytes]
    omega

end Response

namespace Load

theorem length_mul_le_budget {n size budget : Nat} (small : size ≤ budget)
    (few : n ≤ max 1 (budget / max 1 size)) : n * size ≤ budget := by
  rcases Nat.eq_zero_or_pos size with rfl | pos
  · exact Nat.zero_le _
  · rw [Nat.max_eq_right pos] at few
    have one : 1 ≤ budget / size := (Nat.one_le_div_iff pos).2 small
    rw [Nat.max_eq_right one] at few
    exact (Nat.le_div_iff_mul_le pos).1 few

theorem totalSize_le_budget {sample : Element} {elements : List Element} {budget : Nat}
    (small : sample.wireSize ≤ budget)
    (few : elements.length ≤ keysPerChunk budget [sample])
    (even : ∀ element ∈ elements, element.wireSize ≤ sample.wireSize) :
    Element.totalSize elements ≤ budget :=
  Nat.le_trans (Element.totalSize_le even) (length_mul_le_budget small few)

end Load

theorem Settings.Bootstrap.budget_le (settings : Settings.Bootstrap) :
    settings.budget ≤ maxBudget :=
  Nat.min_le_right ..

/-! ## The requests of a load that halves nothing -/

namespace Load

variable {neighbours : Neighbours} {load : Load} {now time : Nat} {url : String} {store : Store}
  {keys : List String} {asked : List (List String)}

/-- A call lists the keys, or brings what a store holds, if it asks for some of the given keys. -/
def Gives (store : Store) (keys : List String) (asked : List (List String)) (call : Delivery) :
    Prop :=
  (call.action = .keys → call.result = .ok (.keys keys)) ∧
    ∀ chunk ∈ asked, call.action = .getElements chunk →
      call.result = .ok (.elements (store.elementsFor chunk))

/-- Every call of a load that is over gives what it asks for, also the one under way. -/
structure Given (neighbours : Neighbours) (store : Store) (keys : List String)
    (asked : List (List String)) (now : Nat) (load : Load) : Prop where
  known : ∀ call, load.stage.call? = some call → call ∈ load.calls
  gives : ∀ call ∈ (load.acts neighbours now none).1.calls, Gives store keys asked call

theorem Given.current (h : Given neighbours store keys asked now load) {call : Delivery}
    (pending : load.stage.call? = some call) : Gives store keys asked call :=
  h.gives call (calls_subset_acts (h.known call pending))

theorem Given.acted (h : Given neighbours store keys asked now load)
    (due : due? now load.stage = some time) :
    Given neighbours store keys asked time (load.acted neighbours time) where
  known call pending := List.mem_append_right _ (Option.mem_toList.2 pending)
  gives := by
    have gives := h.gives
    rwa [acts_of_due due] at gives

def actions (load : Load) : List Request.Action :=
  load.calls.map (·.action)

theorem actions_acted (load : Load) (neighbours : Neighbours) (time : Nat) :
    (load.acted neighbours time).actions =
      load.actions ++ ((load.next time neighbours).1.call?.toList.map (·.action)) :=
  List.map_append

theorem actions_copy (mesh : Mesh) (time : Nat) (url : String) (loaded : Nat)
    (pending : List (List String)) :
    (copy mesh time url loaded pending).call?.toList.map (·.action) =
      pending.head?.toList.map .getElements := by
  cases pending <;> rfl

/-- A copy whose requests are all answered makes one request for each chunk, the first of which is
under way. -/
theorem actions_copying {start loaded : Nat} {pending : List (List String)}
    (h : Given neighbours store keys asked now load)
    (stage : load.stage = copy neighbours.mesh start url loaded pending)
    (among : pending ⊆ asked) :
    (load.acts neighbours now none).1.actions = load.actions ++ pending.tail.map .getElements := by
  induction pending generalizing now load start loaded with
  | nil =>
    rw [acts_of_none (by rw [stage]; rfl)]
    exact (List.append_nil _).symm
  | cons chunk rest ih =>
    obtain ⟨first, others⟩ := List.cons_subset.1 among
    obtain ⟨time, due⟩ : ∃ time, due? now load.stage = some time := by
      rw [stage]
      exact ⟨_, rfl⟩
    have came : (neighbours.mesh.ask start url (.getElements chunk)).result =
        .ok (.elements (store.elementsFor chunk)) :=
      (h.current (by rw [stage]; rfl)).2 chunk first rfl
    have next : (load.next time neighbours).1 =
        copy neighbours.mesh time url (loaded + (store.elementsFor chunk).length) rest := by
      rw [Load.next, stage, copy]
      dsimp only
      rw [afterChunk, elementsOf, came]
      rfl
    have later := ih (h.acted due) next others
    rw [acts_of_due due, later, actions_acted, next, actions_copy, List.append_assoc,
      ← List.map_append, List.tail_cons]
    cases rest <;> rfl

theorem actions_sampling {start : Nat} {first : String}
    (h : Given neighbours store keys asked now load)
    (stage : load.stage = .sampling keys (neighbours.mesh.ask start url (.getElements [first])))
    (sample : [first] ∈ asked)
    (among : chunks (keysPerChunk load.budget (store.elementsFor [first])) keys ⊆ asked) :
    (load.acts neighbours now none).1.actions = load.actions ++
      (chunks (keysPerChunk load.budget (store.elementsFor [first])) keys).map .getElements := by
  obtain ⟨time, due⟩ : ∃ time, due? now load.stage = some time := by
    rw [stage]
    exact ⟨_, rfl⟩
  have came : (neighbours.mesh.ask start url (.getElements [first])).result =
      .ok (.elements (store.elementsFor [first])) :=
    (h.current (by rw [stage]; rfl)).2 [first] sample rfl
  have next : (load.next time neighbours).1 = copy neighbours.mesh time url 0
      (chunks (keysPerChunk load.budget (store.elementsFor [first])) keys) := by
    rw [Load.next, stage]
    dsimp only
    rw [afterSample, elementsOf, came]
    rfl
  rw [acts_of_due due, actions_copying (h.acted due) next among, actions_acted, next, actions_copy,
    List.append_assoc, ← List.map_append]
  cases chunks (keysPerChunk load.budget (store.elementsFor [first])) keys <;> rfl

theorem actions_listing {start : Nat} {first : String} {rest : List String}
    (h : Given neighbours store (first :: rest) asked now load)
    (stage : load.stage = .listing (neighbours.mesh.ask start url .keys))
    (sample : [first] ∈ asked)
    (among : chunks (keysPerChunk load.budget (store.elementsFor [first])) (first :: rest) ⊆
      asked) :
    (load.acts neighbours now none).1.actions = load.actions ++ .getElements [first] ::
      (chunks (keysPerChunk load.budget (store.elementsFor [first])) (first :: rest)).map
        .getElements := by
  obtain ⟨time, due⟩ : ∃ time, due? now load.stage = some time := by
    rw [stage]
    exact ⟨_, rfl⟩
  have listed : (neighbours.mesh.ask start url .keys).result = .ok (.keys (first :: rest)) :=
    (h.current (by rw [stage]; rfl)).1 rfl
  have next : (load.next time neighbours).1 =
      .sampling (first :: rest) (neighbours.mesh.ask time url (.getElements [first])) := by
    rw [Load.next, stage]
    dsimp only
    rw [afterKeys, listed]
    rfl
  rw [acts_of_due due, actions_sampling (h.acted due) next sample among, actions_acted, next,
    List.append_assoc]
  rfl

theorem actions_looking {lookup : Lookup} {first : String} {rest : List String}
    (h : Given neighbours store (first :: rest) asked now load)
    (stage : load.stage = .looking lookup)
    (chosen : lookup.found[load.pick % lookup.found.length]? = some url)
    (sample : [first] ∈ asked)
    (among : chunks (keysPerChunk load.budget (store.elementsFor [first])) (first :: rest) ⊆
      asked) :
    (load.acts neighbours now none).1.actions = load.actions ++ .keys :: .getElements [first] ::
      (chunks (keysPerChunk load.budget (store.elementsFor [first])) (first :: rest)).map
        .getElements := by
  obtain ⟨time, due⟩ : ∃ time, due? now load.stage = some time := by
    rw [stage]
    exact ⟨_, rfl⟩
  have next : (load.next time neighbours).1 = .listing (neighbours.mesh.ask time url .keys) := by
    rw [Load.next, stage]
    dsimp only
    rw [afterLookup, chosen]
  rw [acts_of_due due, actions_listing (h.acted due) next sample among, actions_acted, next,
    List.append_assoc]
  rfl

/-- A whole load whose requests are all answered, from the peer that is picked among those that are
found: it asks for the keys, for the sample, and for each chunk once. -/
theorem actions_start {cache : String} {budget delay pick now : Nat} {load : Load} {first : String}
    {rest : List String} (started : load = { start cache budget delay now with pick })
    (chosen : (neighbours.lookUp (now + delay) cache).found[
      pick % (neighbours.lookUp (now + delay) cache).found.length]? = some url)
    (gives : ∀ call ∈ (load.acts neighbours now none).1.calls,
      Gives store (first :: rest) asked call)
    (sample : [first] ∈ asked)
    (among : chunks (keysPerChunk budget (store.elementsFor [first])) (first :: rest) ⊆ asked) :
    let size := keysPerChunk budget (store.elementsFor [first])
    (load.acts neighbours now none).1.actions = .keys :: .getElements [first] ::
      (chunks size (first :: rest)).map .getElements := by
  subst started
  have due : due? now (.waiting (now + delay)) = some (now + delay) :=
    congrArg some (Nat.max_eq_right (Nat.le_add_right now delay))
  have h : Given neighbours store (first :: rest) asked now
      { start cache budget delay now with pick } :=
    ⟨fun _ pending => (by cases pending), gives⟩
  rw [acts_of_due due]
  exact actions_looking (h.acted due) rfl chosen sample among

end Load

/-! ## Requests that fit -/

namespace Request

/-- The keys add up, each with a comma or a bracket, behind a start of fixed size and the cache. -/
theorem size_getElements (cache : String) {keys : List String} (some_keys : keys ≠ []) :
    (toJson ⟨cache, .getElements keys⟩).size =
      46 + (Json.string cache).size + (keys.map fun key => (Json.string key).size + 1).sum := by
  obtain ⟨-, -, tag, -, -, named, name, -⟩ := size_texts
  have array := Json.size_array (show keys.map Json.string ≠ [] by simpa using some_keys)
  rw [List.map_map] at array
  simp only [toJson, Action.shape, Wire.size_tagged, Wire.ofStrings, List.map_cons, List.map_nil,
    List.sum_cons, List.sum_nil, tag, named, name, array, Function.comp_def]
  omega

theorem sum_size_keys_le {store : Store} (keyed : store.IsKeyed) {keys : List String}
    (held : ∀ key ∈ keys, (store.get? key).isSome = true) :
    (keys.map fun key => (Json.string key).size + 1).sum ≤
      Element.totalSize (store.elementsFor keys) := by
  induction keys with
  | nil => exact Nat.le_refl 0
  | cons key keys ih =>
    obtain ⟨first, others⟩ := List.forall_mem_cons.1 held
    obtain ⟨element, eq⟩ := Option.isSome_iff_exists.1 first
    obtain rfl := keyed key element eq
    have := element.size_key_add_le
    have := ih others
    rw [Store.elementsFor, List.filterMap_cons_some eq, ← Store.elementsFor, Element.totalSize,
      List.map_cons, List.sum_cons]
    omega

theorem fits_getElements {store : Store} {cache : String} {keys : List String}
    (keyed : store.IsKeyed) (some_keys : keys ≠ [])
    (held : ∀ key ∈ keys, (store.get? key).isSome = true)
    (name : (Json.string cache).size + 46 ≤ Settings.Bootstrap.maxBudget)
    (small : Element.totalSize (store.elementsFor keys) ≤ Settings.Bootstrap.maxBudget) :
    fits ⟨cache, .getElements keys⟩ = true := by
  have shorter := sum_size_keys_le keyed held
  rw [fits_iff, size_getElements cache some_keys]
  rw [Settings.Bootstrap.maxBudget] at name small
  rw [Frame.maxBytes]
  omega

theorem fits_keys_of_short {cache : String}
    (name : (Json.string cache).size + 46 ≤ Settings.Bootstrap.maxBudget) :
    fits ⟨cache, .keys⟩ = true := by
  obtain ⟨-, tag, -, -, -, named, -⟩ := size_texts
  rw [fits_iff]
  simp only [toJson, Action.shape, Wire.size_tagged, List.map_cons, List.map_nil, List.sum_cons,
    List.sum_nil, tag, named]
  rw [Settings.Bootstrap.maxBudget] at name
  rw [Frame.maxBytes]
  omega

end Request

/-! ## A load from a peer whose first element is the largest -/

namespace Load

section Fitting

variable {network : Network} {handle : Handle} {store : Store} {keys chunk : List String}
  {calls : List Delivery} {call : Delivery} {sample : Element} {settings : Settings.Bootstrap}

theorem totalSize_chunk_le (small : sample.wireSize ≤ settings.budget)
    (few : chunk.length ≤ keysPerChunk settings.budget [sample])
    (even : ∀ element ∈ store.elementsFor chunk, element.wireSize ≤ sample.wireSize) :
    Element.totalSize (store.elementsFor chunk) ≤ Settings.Bootstrap.maxBudget :=
  Nat.le_trans
    (totalSize_le_budget small (Nat.le_trans (List.length_filterMap_le _ _) few) even)
    settings.budget_le

theorem result_of_chunk (carried : Carried keys network handle calls)
    (serves : network.Serves handle.address handle.cache store) (clean : handle.IsClean network)
    (reading : ∀ call ∈ calls, call.action.isReading = true) (made : call ∈ calls)
    (asks : call.action = .getElements chunk)
    (request : Request.fits ⟨handle.cache, .getElements chunk⟩ = true)
    (small : sample.wireSize ≤ settings.budget)
    (few : chunk.length ≤ keysPerChunk settings.budget [sample])
    (even : ∀ element ∈ store.elementsFor chunk, element.wireSize ≤ sample.wireSize) :
    call.result = .ok (.elements (store.elementsFor chunk)) := by
  rw [carried.reply serves clean reading call made, asks]
  exact Handle.reply_getElements request
    (Response.fits_elements (totalSize_chunk_le small few even))

/-- All that a load asks for over a connection is answered, if no element of the peer is larger than
the sample and the name of the cache leaves room in a request. -/
theorem gives_of_even (carried : Carried keys network handle calls)
    (serves : network.Serves handle.address handle.cache store) (clean : handle.IsClean network)
    (reading : ∀ call ∈ calls, call.action.isReading = true) (keyed : store.IsKeyed)
    (listed : keys.Perm store.names) (listing : (Response.keys keys).fits = true)
    (name : (Json.string handle.cache).size + 46 ≤ Settings.Bootstrap.maxBudget)
    (small : sample.wireSize ≤ settings.budget)
    (even : ∀ key element, store.get? key = some element → element.wireSize ≤ sample.wireSize)
    {asked : List (List String)} (chunks : AreChunks keys asked)
    (few : ∀ chunk ∈ asked, chunk.length ≤ keysPerChunk settings.budget [sample]) :
    ∀ call ∈ calls, Gives store keys asked call := by
  intro call made
  constructor
  · intro asks
    rw [carried.reply serves clean reading call made, asks]
    exact Handle.reply_keys (Request.fits_keys_of_short name)
      ((Response.fits_keys_perm listed).1 listing)
  · intro chunk mem asks
    obtain ⟨some_keys, known⟩ := chunks chunk mem
    have held : ∀ key ∈ chunk, (store.get? key).isSome = true :=
      fun key here => Store.mem_names_iff.1 (listed.mem_iff.1 (known key here))
    have even : ∀ element ∈ store.elementsFor chunk, element.wireSize ≤ sample.wireSize := by
      intro element here
      obtain ⟨key, -, there⟩ := List.mem_filterMap.1 here
      exact even key element there
    have request := Request.fits_getElements keyed some_keys held name
      (totalSize_chunk_le small (few chunk mem) even)
    exact result_of_chunk carried serves clean reading made asks request small (few chunk mem) even

end Fitting

end Load

/-- Elements that together have no more bytes than the greatest budget fit in a frame, and so do as
many as a load asks for at once, if none is larger than a sample within the budget. A load over a
connection therefore gets every chunk that it cuts by such a sample and whose request can be sent;
if no element of the peer is larger than the first one and the name of the cache leaves room for the
requests, the load asks for each chunk once and halves none. -/
theorem Loader.chunks_fit_in_frames (loader : Loader) :
    (∀ elements : List Element, Element.totalSize elements ≤ Settings.Bootstrap.maxBudget →
      (Response.elements elements).encode.utf8ByteSize ≤ Frame.maxBytes ∧
        ∃ frame, Frame.write (Response.elements elements).encode = .ok frame) ∧
    (∀ (sample : Element) (elements : List Element), sample.wireSize ≤ loader.settings.budget →
      elements.length ≤ max 1 (loader.settings.budget / max 1 sample.wireSize) →
      (∀ element ∈ elements, element.wireSize ≤ sample.wireSize) →
      (Response.elements elements).encode.utf8ByteSize ≤ Frame.maxBytes ∧
        ∃ frame, Frame.write (Response.elements elements).encode = .ok frame) ∧
    ∀ (cache : String) (now : Nat) (neighbours : Neighbours) (network : Network)
      (handle : Handle) (store : Store) (first : String) (rest : List String) (sample : Element)
      (ping : Delivery),
      let lookup := neighbours.lookUp (now + loader.startupDelay) cache
      let calls := (loader.loadFrom neighbours cache now).1.calls
      let size := Load.keysPerChunk loader.settings.budget [sample]
      lookup.found[loader.picks loader.loads.length % lookup.found.length]? = some handle.url →
      network.Serves handle.address handle.cache store → store.IsKeyed → handle.IsRead →
      (first :: rest).Perm store.names → ping.action = .ping →
      Carried (first :: rest) network handle (ping :: calls) →
      store.get? first = some sample → sample.wireSize ≤ loader.settings.budget →
      (∀ call ∈ calls, ∀ chunk, call.action = .getElements chunk → chunk.length ≤ size →
        (∀ element ∈ store.elementsFor chunk, element.wireSize ≤ sample.wireSize) →
        Request.fits ⟨handle.cache, .getElements chunk⟩ = true →
        call.result = .ok (.elements (store.elementsFor chunk))) ∧
      ((∀ key element, store.get? key = some element → element.wireSize ≤ sample.wireSize) →
        (Response.keys (first :: rest)).fits = true →
        (Json.string handle.cache).size + 46 ≤ Settings.Bootstrap.maxBudget →
        calls.map (·.action) = .keys :: .getElements [first] ::
          (chunks size (first :: rest)).map .getElements) := by
  have written {elements : List Element}
      (small : Element.totalSize elements ≤ Settings.Bootstrap.maxBudget) :
      (Response.elements elements).encode.utf8ByteSize ≤ Frame.maxBytes ∧
        ∃ frame, Frame.write (Response.elements elements).encode = .ok frame := by
    have fits := Response.fits_elements small
    exact ⟨(Response.fits_iff _).1 fits, Frame.exists_write fits⟩
  refine ⟨fun _ => written, fun sample elements small few even => written ?_, ?_⟩
  · exact Nat.le_trans (Load.totalSize_le_budget small few even) loader.settings.budget_le
  intro cache now neighbours network handle store first rest sample ping lookup calls size found
    serves keyed read listed pings carried held small
  have reading : ∀ call ∈ calls, call.action.isReading = true := isReading_loadFrom
  obtain ⟨connection, clean, carried⟩ := carried.others serves read (by rw [pings]; rfl)
  refine ⟨fun call made chunk asks few even request => ?_, fun even listing name => ?_⟩
  · exact Load.result_of_chunk carried serves clean reading made asks request small few even
  · have sampled : store.elementsFor [first] = [sample] := by
      rw [Store.elementsFor, List.filterMap_cons_some held, List.filterMap_nil]
    have alone : [first] ≠ [] ∧ ∀ key ∈ [first], key ∈ first :: rest :=
      ⟨List.cons_ne_nil _ _, List.forall_mem_singleton.2 List.mem_cons_self⟩
    have pos : 1 ≤ size := Nat.le_max_left ..
    have few : ∀ chunk ∈ [first] :: chunks size (first :: rest), chunk.length ≤ size := by
      refine List.forall_mem_cons.2 ⟨pos, fun chunk mem => ?_⟩
      rw [← Nat.max_eq_right pos]
      exact length_of_mem_chunks mem
    have gives := Load.gives_of_even carried serves clean reading keyed listed listing name small
      even (List.forall_mem_cons.2 ⟨alone, Load.areChunks_chunks size (first :: rest)⟩) few
    have actions := Load.actions_start rfl found gives List.mem_cons_self
      (by rw [sampled]; exact List.subset_cons_self _ _)
    rwa [sampled] at actions

/-- Three elements of one byte come in one chunk. -/
theorem Loader.chunks_fit_in_frames_three_elements :
    (Loader.loadFrom {} (unequalNeighbours 1) "c" 0).1.calls.map (·.action) =
      [.keys, .getElements ["a"], .getElements ["a", "d", "b"]] := by
  generalize one : 1 = n
  have found : ((unequalNeighbours n).lookUp (0 + 0) "c").found[
      0 % ((unequalNeighbours n).lookUp (0 + 0) "c").found.length]? = some unequalHandle.url := by
    rw [found_unequal]
    rfl
  have listed : ["a", "d", "b"].Perm (unequalStore n).names := by
    rw [names_unequal]
    exact .cons "a" (.swap "b" "d" [])
  let ping := ((unequalNetwork n).meshListing ["a", "d", "b"]).ask (0 + 0) unequalHandle.url .ping
  have carried : Carried ["a", "d", "b"] (unequalNetwork n) unequalHandle
      (ping :: (Loader.loadFrom {} (unequalNeighbours n) "c" 0).1.calls) :=
    carried_loadFrom {} "c" 0 rfl rfl (serves_unequal n) rfl found
  have held : (unequalStore n).get? "a" = some (Dispatcher.filled 1 "a") := by
    simp [unequalStore, Store.putAll, Dispatcher.filled]
  obtain ⟨-, -, -, -, -, -, -, -, a, b, c, d⟩ := size_texts
  have size (key : String) (short : (Json.string key).size = 3) :
      (Dispatcher.filled 1 key).wireSize = 54 := by
    rw [Element.wireSize_eq, Dispatcher.size_filled Nat.one_pos, short]
  have small : (Dispatcher.filled 1 "a").wireSize ≤ ({} : Loader).settings.budget := by
    rw [size "a" a]
    decide
  have keyed : (unequalStore n).IsKeyed := Store.isKeyed_putAll fun _ _ none => by cases none
  have read : unequalHandle.IsRead := fun _ none => by cases none
  have loads := (chunks_fit_in_frames {}).2.2 "c" 0 (unequalNeighbours n) (unequalNetwork n)
    unequalHandle (unequalStore n) "a" ["d", "b"] (Dispatcher.filled 1 "a") ping found
    (serves_unequal n) keyed read listed rfl carried held small
  refine (loads.2 ?_ fits_keys_unequal ?_).trans ?_
  · subst one
    intro key element held
    simp only [unequalStore, Store.putAll, List.foldl_cons, List.foldl_nil, Store.get?_put,
      Table.get?_empty] at held
    have same : element.wireSize = 54 := by
      split at held
      next => exact Option.some.inj held ▸ size "d" d
      split at held
      next => exact Option.some.inj held ▸ size "b" b
      split at held
      next => exact Option.some.inj held ▸ size "a" a
      next => cases held
    rw [same, size "a" a]
  · change (Json.string "c").size + 46 ≤ _
    rw [c]
    decide
  · have per :
        Load.keysPerChunk ({} : Loader).settings.budget [Dispatcher.filled 1 "a"] = 92592 := by
      simp [Load.keysPerChunk, size "a" a, Settings.Bootstrap.budget, Settings.Bootstrap.maxBudget]
    rw [per]
    simp [chunks]

end CacheCluster
