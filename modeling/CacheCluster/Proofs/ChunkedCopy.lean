import CacheCluster.Proofs.Loading

/-! # Copying chunk by chunk

The peer that a load copies may fail and answer anything, from one request to the next. The requests
that succeed are for consecutive runs of the keys from the first one on, without gaps or
repetitions, and what they brought is what is put. They end behind the last key, or before one that
failed alone.
-/

namespace CacheCluster.Load

/-! ## Peers that change from act to act -/

/-- A time at which a load acts, and its neighbours then. -/
structure Moment where
  time : Nat
  neighbours : Neighbours

/-- Lets a load act at some moments, one after the other. -/
def actsAt (load : Load) : List Moment → Load × List Write
  | [] => (load, [])
  | ⟨time, neighbours⟩ :: moments =>
    let (ended, writes) := (load.acted neighbours time).actsAt moments
    (ended, (load.next time neighbours).2.map (⟨time, load.cache, ·⟩) ++ writes)

variable {neighbours : Neighbours} {load : Load} {mesh : Mesh} {now time : Nat} {url : String}
  {keys : List String} {moments : List Moment}

theorem actsAt_cons (load : Load) (time : Nat) (neighbours : Neighbours) (moments : List Moment) :
    load.actsAt (⟨time, neighbours⟩ :: moments) =
      (((load.acted neighbours time).actsAt moments).1,
        (load.next time neighbours).2.map (⟨time, load.cache, ·⟩) ++
          ((load.acted neighbours time).actsAt moments).2) := rfl

theorem actsAt_append (load : Load) (first second : List Moment) :
    load.actsAt (first ++ second) =
      (((load.actsAt first).1.actsAt second).1,
        (load.actsAt first).2 ++ ((load.actsAt first).1.actsAt second).2) := by
  induction first generalizing load with
  | nil => rfl
  | cons moment first ih =>
    rw [List.cons_append, actsAt_cons, ih, actsAt_cons, List.append_assoc]

/-- What a load does depends on its stage alone, not on what it has seen. -/
theorem actsAt_seen (load : Load) (seen : Nat) (moments : List Moment) :
    ({ load with seen }).actsAt moments =
      ({ (load.actsAt moments).1 with seen }, (load.actsAt moments).2) := by
  induction moments generalizing load with
  | nil => rfl
  | cons moment moments ih =>
    have acted : ({ load with seen }).acted moment.neighbours moment.time =
        { load.acted moment.neighbours moment.time with seen } := rfl
    rw [actsAt_cons, acted, ih, actsAt_cons]
    rfl

theorem le_of_due? {stage : Stage} (due : due? now stage = some time) : now ≤ time := by
  cases stage <;> first
    | exact (Option.some.inj due) ▸ Nat.le_max_left _ _
    | cases due

/-- Neighbours that stay as they are, and a load that acts whenever it is due. -/
theorem acts_eq_actsAt (neighbours : Neighbours) (now : Nat) (limit : Option Nat) (load : Load) :
    ∃ moments, load.acts neighbours now limit = load.actsAt moments ∧
      (∀ moment ∈ moments, now ≤ moment.time ∧ limit.all (moment.time ≤ ·) = true) ∧
      moments.Pairwise (·.time ≤ ·.time) := by
  induction now, load using acts.induct neighbours limit with
  | case1 now load none => exact ⟨[], acts_of_none none, List.forall_mem_nil _, .nil⟩
  | case2 now load time due inTime _ _ _ _ ih =>
    obtain ⟨moments, same, later, ordered⟩ := ih
    have same : (load.acted neighbours time).acts neighbours time limit =
        (load.acted neighbours time).actsAt moments := same
    have le := le_of_due? due
    refine ⟨⟨time, neighbours⟩ :: moments, ?_, List.forall_mem_cons.2 ⟨⟨le, inTime⟩, ?_⟩,
      .cons (fun moment mem => (later moment mem).1) ordered⟩
    · rw [acts_of_in_time due inTime, same, actsAt_cons]
    · exact fun moment mem => ⟨Nat.le_trans le (later moment mem).1, (later moment mem).2⟩
  | case3 now load time due late => exact ⟨[], acts_of_late due late, List.forall_mem_nil _, .nil⟩

/-- What is put at moments in order is put in order. -/
theorem absorb_actsAt (ordered : moments.Pairwise (·.time ≤ ·.time)) (load : Load) (store : Store) :
    store.absorb load.cache (load.actsAt moments).2 =
      store.putAll ((load.actsAt moments).2.map (·.element)) := by
  have put : ∀ (load : Load), (∀ write ∈ (load.actsAt moments).2, write.cache = load.cache ∧
      ∃ moment ∈ moments, write.time = moment.time) ∧
      (load.actsAt moments).2.Pairwise (·.time ≤ ·.time) := by
    induction moments with
    | nil => exact fun load => ⟨List.forall_mem_nil _, .nil⟩
    | cons moment moments ih =>
      obtain ⟨time, neighbours⟩ := moment
      obtain ⟨first, ordered⟩ := List.pairwise_cons.1 ordered
      intro load
      obtain ⟨own, sorted⟩ := ih ordered (load.acted neighbours time)
      rw [actsAt_cons]
      refine ⟨List.forall_mem_append.2 ⟨?_, ?_⟩, List.pairwise_append.2 ⟨?_, sorted, ?_⟩⟩
      · intro write mem
        obtain ⟨element, -, rfl⟩ := List.mem_map.1 mem
        exact ⟨rfl, _, List.mem_cons_self, rfl⟩
      · intro write mem
        obtain ⟨own, moment, known, same⟩ := own write mem
        exact ⟨own, moment, List.mem_cons_of_mem _ known, same⟩
      · exact List.pairwise_map.2 (List.pairwise_of_forall fun _ _ => Nat.le_refl _)
      · intro write mem next later
        obtain ⟨element, -, rfl⟩ := List.mem_map.1 mem
        obtain ⟨-, moment, known, same⟩ := own next later
        exact same ▸ first moment known
  obtain ⟨own, sorted⟩ := put load
  rw [Store.absorb, List.filter_eq_self.2 fun write mem => beq_iff_eq.2 (own write mem).1,
    List.mergeSort_of_pairwise (sorted.imp decide_eq_true)]

/-! ## What was asked for, and what came -/

/-- The keys that were asked for and the elements that came, of each request that succeeded. -/
def fetched (calls : List Delivery) : List (List String × List Element) :=
  calls.filterMap fun call =>
    match call.action, elementsOf call with
    | .getElements chunk, .ok elements => some (chunk, elements)
    | _, _ => none

/-- The keys of the requests that succeeded, in the order of the requests. -/
def keysFetched (calls : List Delivery) : List String :=
  (fetched calls).flatMap Prod.fst

/-- The elements that the requests brought, in the order of the requests. -/
def elementsFetched (calls : List Delivery) : List Element :=
  (fetched calls).flatMap Prod.snd

variable {call : Delivery} {chunk : List String}

theorem fetched_concat (before : List Delivery) (asks : call.action = .getElements chunk) :
    fetched (before ++ [call]) =
      fetched before ++ ((elementsOf call).toOption.map (chunk, ·)).toList := by
  rw [fetched, List.filterMap_append, ← fetched, List.filterMap_cons, asks]
  congr 1
  cases elementsOf call <;> rfl

theorem keysFetched_of_ok {elements : List Element} (before : List Delivery)
    (asks : call.action = .getElements chunk) (came : elementsOf call = .ok elements) :
    keysFetched (before ++ [call]) = keysFetched before ++ chunk ∧
      elementsFetched (before ++ [call]) = elementsFetched before ++ elements := by
  rw [keysFetched, elementsFetched, fetched_concat before asks, came, List.flatMap_append,
    List.flatMap_append]
  exact ⟨congrArg (_ ++ ·) (List.append_nil chunk), congrArg (_ ++ ·) (List.append_nil elements)⟩

theorem keysFetched_of_error {error : Error} (before : List Delivery)
    (asks : call.action = .getElements chunk) (failed : elementsOf call = .error error) :
    keysFetched (before ++ [call]) = keysFetched before ∧
      elementsFetched (before ++ [call]) = elementsFetched before := by
  rw [keysFetched, elementsFetched, fetched_concat before asks, failed]
  exact ⟨congrArg (List.flatMap _) (List.append_nil _),
    congrArg (List.flatMap _) (List.append_nil _)⟩

/-! ## How far a copy has come -/

/-- A copy of some keys that has made some calls and put some elements. What it has fetched and what
it is to ask for are the keys in order. -/
inductive Copies (url : String) (keys : List String) (made : List Delivery) (put : List Element) :
    Stage → Prop
  | copying {before : List Delivery} {call : Delivery} {chunk : List String}
      {rest : List (List String)} {loaded : Nat}
      (last : made = before ++ [call]) (asked : call.url = url)
      (asks : call.action = .getElements chunk) (nonempty : ∀ part ∈ chunk :: rest, part ≠ [])
      (all : keysFetched before ++ (chunk :: rest).flatten = keys)
      (puts : put = elementsFetched before) (counts : loaded = put.length) :
      Copies url keys made put (.copying chunk rest loaded call)
  | finished {time n : Nat} (all : keysFetched made = keys) (puts : put = elementsFetched made)
      (counts : n = put.length) :
      Copies url keys made put (.finished time (.ok n))
  | failed {before : List Delivery} {call : Delivery} {key : String} {rest : List String}
      {time : Nat} {error : Error} (last : made = before ++ [call])
      (asks : call.action = .getElements [key]) (failed : elementsOf call = .error error)
      (all : keysFetched before ++ key :: rest = keys) (puts : put = elementsFetched before) :
      Copies url keys made put (.finished time (.error error))

variable {made : List Delivery} {put : List Element}

theorem copies_copy {pending : List (List String)} (nonempty : ∀ part ∈ pending, part ≠ [])
    (all : keysFetched made ++ pending.flatten = keys) (puts : put = elementsFetched made)
    (mesh : Mesh) (time : Nat) (url : String) :
    let stage := copy mesh time url put.length pending
    Copies url keys (made ++ stage.call?.toList) put stage := by
  cases pending with
  | nil =>
    have none : made ++ (copy mesh time url put.length []).call?.toList = made :=
      List.append_nil made
    dsimp only
    rw [none]
    exact .finished ((List.append_nil _).symm.trans all) puts rfl
  | cons chunk rest => exact .copying rfl rfl rfl nonempty all puts rfl

/-- An act of a copy: the next chunk when one has come, its halves when it has failed. -/
theorem Copies.next (h : Copies url keys made put load.stage) (time : Nat)
    (neighbours : Neighbours) :
    let acted := load.next time neighbours
    Copies url keys (made ++ acted.1.call?.toList) (put ++ acted.2) acted.1 := by
  unfold Load.next
  cases stage : load.stage with
  | copying chunk rest loaded call =>
    rw [stage] at h
    cases h with
    | @copying before _ _ _ _ last asked asks nonempty all puts counts =>
    subst last asked counts
    obtain ⟨some_keys, others⟩ := List.forall_mem_cons.1 nonempty
    dsimp only
    unfold afterChunk
    split
    next elements came =>
      obtain ⟨fetched, brought⟩ := keysFetched_of_ok before asks came
      rw [← List.length_append]
      refine copies_copy others ?_ ?_ neighbours.mesh time call.url
      · rw [fetched, List.append_assoc]
        exact all
      · rw [brought, puts]
    next error failed =>
      obtain ⟨fetched, brought⟩ := keysFetched_of_error before asks failed
      split
      next long =>
        dsimp only
        rw [List.append_nil]
        refine copies_copy ?_ ?_ (puts.trans brought.symm) neighbours.mesh time call.url
        · have head : chunk.take (chunk.length / 2) ≠ [] :=
            List.ne_nil_of_length_pos (by rw [List.length_take]; omega)
          have tail : chunk.drop (chunk.length / 2) ≠ [] :=
            List.ne_nil_of_length_pos (by rw [List.length_drop]; omega)
          exact List.forall_mem_cons.2 ⟨head, List.forall_mem_cons.2 ⟨tail, others⟩⟩
        · rw [fetched, List.flatten_cons, List.flatten_cons, ← List.append_assoc (chunk.take _),
            List.take_append_drop]
          exact all
      next short =>
        obtain ⟨key, rfl⟩ : ∃ key, chunk = [key] :=
          List.length_eq_one_iff.1 (by have := List.length_pos_iff.2 some_keys; omega)
        rw [List.append_nil]
        exact .failed (List.append_nil _) asks failed all puts
  | finished time result =>
    rw [stage] at h
    dsimp only
    rwa [List.append_nil, show (Stage.finished time result).call?.toList = [] from rfl,
      List.append_nil]
  | _ =>
    rw [stage] at h
    cases h

theorem Copies.actsAt (h : Copies url keys made put load.stage) (moments : List Moment) :
    ∃ more, (load.actsAt moments).1.calls = load.calls ++ more ∧
      Copies url keys (made ++ more) (put ++ (load.actsAt moments).2.map (·.element))
        (load.actsAt moments).1.stage := by
  induction moments generalizing load made put with
  | nil => exact ⟨[], (List.append_nil _).symm, by simpa [Load.actsAt] using h⟩
  | cons moment moments ih =>
    obtain ⟨time, neighbours⟩ := moment
    have next : Copies url keys _ _ (load.acted neighbours time).stage := h.next time neighbours
    obtain ⟨more, calls, copies⟩ := ih next
    refine ⟨_, calls.trans (List.append_assoc ..), ?_⟩
    rw [actsAt_cons, List.map_append, List.map_map, ← List.append_assoc, ← List.append_assoc]
    simpa [Function.comp_def] using copies

theorem Copies.finished_or_copying {stage : Stage} (h : Copies url keys made put stage) :
    (∃ time result, stage = .finished time result) ∨
      ∃ chunk rest loaded call, stage = .copying chunk rest loaded call := by
  cases h with
  | copying => exact .inr ⟨_, _, _, _, rfl⟩
  | finished => exact .inl ⟨_, _, rfl⟩
  | failed => exact .inl ⟨_, _, rfl⟩

theorem outcome?_actsAt_of_finished {result : Result Nat}
    (finished : load.stage = .finished time result) (moments : List Moment) :
    (load.actsAt moments).1.outcome? = some (time, result) := by
  induction moments generalizing load with
  | nil => rw [actsAt, outcome?, finished]
  | cons moment moments ih =>
    have still : (load.acted moment.neighbours moment.time).stage = .finished time result := by
      rw [acted, Load.next, finished]
    exact ih still

theorem finished_of_outcome? {result : Result Nat} (outcome : load.outcome? = some (time, result)) :
    load.stage = .finished time result := by
  unfold outcome? at outcome
  split at outcome
  next finished =>
    cases outcome
    exact finished
  next => cases outcome

theorem requestsFor_pos (chunk : List String) (rest : List (List String)) :
    0 < requestsFor (chunk :: rest) :=
  Nat.lt_of_lt_of_le (Nat.le_max_left 1 _) (Nat.le_add_right _ _)

/-- Each act of a copy leaves fewer requests to be made. -/
theorem distance_acted_lt {rest : List (List String)} {loaded : Nat}
    (copying : load.stage = .copying chunk rest loaded call) (time : Nat)
    (neighbours : Neighbours) :
    (load.acted neighbours time).stage.distance.2 < requestsFor (chunk :: rest) := by
  have less : Prod.Lex (· < ·) (· < ·) (load.acted neighbours time).stage.distance
      (1, requestsFor (chunk :: rest)) := by
    rw [acted, Load.next, copying]
    exact distance_afterChunk_lt ..
  have positive := requestsFor_pos chunk rest
  revert less
  generalize (load.acted neighbours time).stage = stage
  intro less
  rw [Prod.lex_def] at less
  cases stage <;> simp_all [Stage.distance]

theorem Copies.ends (h : Copies url keys made put load.stage)
    (enough : load.stage.distance.2 ≤ moments.length) :
    (load.actsAt moments).1.outcome?.isSome = true := by
  induction moments generalizing load made put with
  | nil =>
    rcases h.finished_or_copying with ⟨time, result, finished⟩ | ⟨chunk, rest, _, _, copying⟩
    · rw [outcome?_actsAt_of_finished finished]
      rfl
    · rw [copying] at enough
      exact absurd (requestsFor_pos chunk rest) (Nat.not_lt.2 enough)
  | cons moment moments ih =>
    rcases h.finished_or_copying with ⟨time, result, finished⟩ | ⟨chunk, rest, _, _, copying⟩
    · rw [outcome?_actsAt_of_finished finished]
      rfl
    · have less := distance_acted_lt copying moment.time moment.neighbours
      rw [copying] at enough
      have enough : requestsFor (chunk :: rest) ≤ moments.length + 1 := enough
      exact ih (h.next moment.time moment.neighbours)
        (Nat.le_of_lt_succ (Nat.lt_of_lt_of_le less enough))

/-! ## A whole copy -/

/-- A load that begins to copy some keys in chunks. -/
def beginCopy (load : Load) (mesh : Mesh) (time : Nat) (url : String) (size : Nat)
    (keys : List String) : Load :=
  let stage := copy mesh time url 0 (chunks size keys)
  { load with stage, calls := load.calls ++ stage.call?.toList }

/-- However the peer fails or answers from one request to the next, a copy ends when it has had time
for its requests. If it ends well, its successful requests were for all keys, each once and in
order, and it has put and counted the elements that came, in the order of the requests. If it ends
in a failure, this is what a request for one key alone came to; the successful requests were for the
keys before that one, and what they brought has been put. -/
theorem copy_stops_at_failing_key (load : Load) (mesh : Mesh) (time : Nat) (url : String)
    (size : Nat) (keys : List String) (moments : List Moment) :
    let begun := load.beginCopy mesh time url size keys
    let (ended, writes) := begun.actsAt moments
    ∃ made, ended.calls = load.calls ++ made ∧
    (∀ finish n, ended.outcome? = some (finish, .ok n) →
      keysFetched made = keys ∧ writes.map (·.element) = elementsFetched made ∧
      n = (elementsFetched made).length) ∧
    (∀ finish error, ended.outcome? = some (finish, .error error) →
      ∃ i key before call, keys[i]? = some key ∧ made = before ++ [call] ∧
      call.action = .getElements [key] ∧ elementsOf call = .error error ∧
      keysFetched made = keys.take i ∧ writes.map (·.element) = elementsFetched made) ∧
    (moments.Pairwise (·.time ≤ ·.time) → ∀ store : Store,
      store.absorb load.cache writes = store.putAll (writes.map (·.element))) ∧
    (requestsFor (chunks size keys) ≤ moments.length → ended.outcome?.isSome = true) ∧
    ∀ neighbours now limit, ∃ due, begun.acts neighbours now limit = begun.actsAt due ∧
      due.Pairwise (·.time ≤ ·.time) := by
  intro begun
  have all : keysFetched [] ++ (chunks size keys).flatten = keys := flatten_chunks size keys
  have copies : Copies url keys begun.stage.call?.toList [] begun.stage :=
    copies_copy (fun part mem => (areChunks_chunks size keys part mem).1) all rfl mesh time url
  obtain ⟨more, calls, after⟩ := copies.actsAt moments
  rw [List.nil_append] at after
  generalize same : begun.stage.call?.toList ++ more = made at after
  refine ⟨made, same ▸ calls.trans (List.append_assoc ..), ?_, ?_,
    fun ordered store => absorb_actsAt ordered begun store, fun enough => copies.ends ?_,
    fun neighbours now limit => ?_⟩
  · intro finish n outcome
    rw [finished_of_outcome? outcome] at after
    cases after with
    | finished all puts counts => exact ⟨all, puts, counts.trans (congrArg List.length puts)⟩
  · intro finish error outcome
    rw [finished_of_outcome? outcome] at after
    cases after with
    | @failed before call key rest _ _ last asks failed all puts =>
    obtain ⟨fetched, brought⟩ := keysFetched_of_error before asks failed
    rw [← last] at fetched brought
    refine ⟨(keysFetched made).length, key, before, call, ?_, last, asks, failed, ?_, ?_⟩
    · rw [fetched, ← all, List.getElem?_append_right (Nat.le_refl _), Nat.sub_self]
      rfl
    · rw [fetched, ← all, List.take_left]
    · exact puts.trans brought.symm
  · refine Nat.le_trans ?_ enough
    change (copy mesh time url 0 (chunks size keys)).distance.2 ≤ _
    cases chunks size keys with
    | nil => exact Nat.zero_le _
    | cons chunk rest => exact Nat.le_refl _
  · obtain ⟨due, same, -, ordered⟩ := acts_eq_actsAt neighbours now limit begun
    exact ⟨due, same, ordered⟩

end CacheCluster.Load
