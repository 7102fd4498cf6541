import Mathlib.Algebra.Order.Floor.Div
import CacheCluster.Proofs.ChunkedCopy

/-! # How many requests a copy takes

A chunk that fails makes way for its halves, so the requests for it and its parts form a binary tree
in which every leaf has a key of its own. A chunk of `m` keys therefore takes at most `2 * m - 1`
requests, whatever the peer does, and a peer that answers for single keys only makes it take as
many.
-/

namespace CacheCluster

theorem length_chunks {α : Type} {size : Nat} (pos : 0 < size) (xs : List α) :
    (chunks size xs).length = xs.length ⌈/⌉ size := by
  induction xs using chunks.induct size with
  | case1 => simp [chunks]
  | case2 x xs ih =>
    rw [chunks, List.length_cons, ih, List.length_drop, List.length_cons,
      Nat.ceilDiv_eq_add_pred_div, Nat.ceilDiv_eq_add_pred_div]
    rcases Nat.lt_or_ge xs.length size with few | many
    · have none : (xs.length - (size - 1) + size - 1) / size = 0 :=
        Nat.div_eq_of_lt (by omega)
      have one : (xs.length + 1 + size - 1) / size = 1 :=
        Nat.div_eq_of_lt_le (by omega) (by omega)
      rw [none, one]
    · have shorter : xs.length + 1 + size - 1 = xs.length - (size - 1) + size - 1 + size := by omega
      rw [shorter, Nat.add_div_right _ pos]

namespace Load

/-! ## The requests for some chunks -/

section Counting

variable {chunk : List String} {pending : List (List String)} {size : Nat}

theorem requests_of_ne_nil (some_keys : chunk ≠ []) : requests chunk = 2 * chunk.length - 1 := by
  have := List.length_pos_iff.2 some_keys
  exact Nat.max_eq_right (by omega)

/-- A chunk that is halved takes one request more than its halves. -/
theorem requests_eq_halves (long : 1 < chunk.length) :
    requests chunk = 1 + (requests (chunk.take (chunk.length / 2)) +
      requests (chunk.drop (chunk.length / 2))) := by
  simp only [requests, List.length_take, List.length_drop]
  omega

theorem requestsFor_add_length (nonempty : ∀ part ∈ pending, part ≠ []) :
    requestsFor pending + pending.length = 2 * pending.flatten.length := by
  induction pending with
  | nil => rfl
  | cons chunk rest ih =>
    obtain ⟨some_keys, others⟩ := List.forall_mem_cons.1 nonempty
    have := List.length_pos_iff.2 some_keys
    have := ih others
    rw [requestsFor, requests_of_ne_nil some_keys, List.length_cons, List.flatten_cons,
      List.length_append]
    omega

theorem requestsFor_chunks (pos : 0 < size) (keys : List String) :
    requestsFor (chunks size keys) = 2 * keys.length - keys.length ⌈/⌉ size := by
  have counts := requestsFor_add_length fun part mem => (areChunks_chunks size keys part mem).1
  rw [flatten_chunks, length_chunks pos] at counts
  exact Nat.eq_sub_of_add_eq counts

end Counting

/-! ## The requests made so far -/

variable {neighbours : Neighbours} {load : Load} {mesh : Mesh} {now time : Nat} {url : String}
  {keys : List String} {made : List Delivery} {put : List Element} {stage : Stage} {call : Delivery}
  {bound : Nat}

/-- A request of a copy: for some consecutive keys. -/
def AsksFor (url : String) (keys : List String) (call : Delivery) : Prop :=
  call.url = url ∧ ∃ chunk, chunk ≠ [] ∧ chunk <:+: keys ∧ call.action = .getElements chunk

theorem Copies.asksFor (h : Copies url keys made put stage) (waits : stage.call? = some call) :
    AsksFor url keys call := by
  cases h with
  | @copying before _ chunk rest _ _ asked asks nonempty all =>
    cases waits
    refine ⟨asked, chunk, nonempty chunk List.mem_cons_self, ?_, asks⟩
    exact ⟨keysFetched before, rest.flatten, by rw [← all, List.flatten_cons, List.append_assoc]⟩
  | finished => cases waits
  | failed => cases waits

/-- The request that is under way is one of those that may be needed. -/
theorem Copies.length_call?_le (h : Copies url keys made put stage) :
    stage.call?.toList.length ≤ stage.distance.2 := by
  cases h with
  | copying => exact requestsFor_pos _ _
  | finished => exact Nat.le_refl 0
  | failed => exact Nat.le_refl 0

/-- A copy that has made some requests of its own, and needs no more than `bound` in all. The
request that is under way is both among those made and among those that may be needed. -/
structure KeepsTo (url : String) (keys : List String) (bound : Nat) (made : List Delivery)
    (stage : Stage) : Prop where
  asked : ∀ call ∈ made, AsksFor url keys call
  few : made.length + stage.distance.2 ≤ bound + stage.call?.toList.length

theorem KeepsTo.next (h : KeepsTo url keys bound made load.stage)
    (copies : Copies url keys made put load.stage) (time : Nat) (neighbours : Neighbours) :
    let stage := (load.next time neighbours).1
    KeepsTo url keys bound (made ++ stage.call?.toList) stage where
  asked := by
    intro call mem
    rcases List.mem_append.1 mem with before | last
    · exact h.asked call before
    · exact (copies.next time neighbours).asksFor (Option.mem_toList.1 last)
  few := by
    have few := h.few
    rw [List.length_append]
    rcases copies.finished_or_copying with ⟨_, _, finished⟩ | ⟨chunk, rest, _, _, copying⟩
    · have still : (load.next time neighbours).1 = load.stage := by
        rw [Load.next, finished]
      rw [finished] at few
      rw [still, finished]
      exact few
    · have less : (load.next time neighbours).1.distance.2 < requestsFor (chunk :: rest) :=
        distance_acted_lt copying time neighbours
      rw [copying] at few
      have few : made.length + requestsFor (chunk :: rest) ≤ bound + 1 := few
      omega

theorem KeepsTo.actsAt (h : KeepsTo url keys bound made load.stage)
    (copies : Copies url keys made put load.stage) (moments : List Moment) :
    ∃ more, (load.actsAt moments).1.calls = load.calls ++ more ∧
      KeepsTo url keys bound (made ++ more) (load.actsAt moments).1.stage := by
  induction moments generalizing load made put with
  | nil => exact ⟨[], (List.append_nil _).symm, by rwa [List.append_nil]⟩
  | cons moment moments ih =>
    obtain ⟨time, neighbours⟩ := moment
    have next : KeepsTo url keys bound _ (load.acted neighbours time).stage :=
      h.next copies time neighbours
    obtain ⟨more, calls, keeps⟩ := ih next (copies.next time neighbours)
    rw [List.append_assoc] at keeps
    exact ⟨_, calls.trans (List.append_assoc ..), keeps⟩

/-! ## The end of a copy -/

theorem due?_eq_none_of (ended : due? now stage = none) (later : Nat) :
    due? later stage = none := by
  cases stage <;> first
    | rfl
    | cases ended

/-- A load that acts without a limit goes on until nothing is left to wait for. -/
theorem due?_acts (neighbours : Neighbours) (now : Nat) (load : Load) :
    due? now (load.acts neighbours now none).1.stage = none := by
  induction now, load using acts_induction neighbours with
  | ended now load none => rwa [acts_of_none none]
  | act now load time due ih =>
    rw [acts_of_due due]
    exact due?_eq_none_of ih now

theorem Copies.isSome_outcome?_acts (h : Copies url keys made put load.stage)
    (neighbours : Neighbours) (now : Nat) :
    (load.acts neighbours now none).1.outcome?.isSome = true := by
  obtain ⟨moments, same, -, -⟩ := acts_eq_actsAt neighbours now none load
  obtain ⟨more, -, copies⟩ := h.actsAt moments
  have ended := due?_acts neighbours now load
  rw [same] at ended ⊢
  rcases copies.finished_or_copying with ⟨time, result, finished⟩ | ⟨_, _, _, _, copying⟩
  · rw [outcome?, finished]
    rfl
  · rw [copying] at ended
    cases ended

/-! ## A peer that answers for single keys only -/

/-- Every request for the elements of several keys fails, and no other. -/
def AnswersSingly (mesh : Mesh) : Prop :=
  ∀ time url chunk,
    (elementsOf (mesh.ask time url (.getElements chunk))).toBool = decide (chunk.length ≤ 1)

theorem acted_of_singly (singly : AnswersSingly neighbours.mesh) {chunk : List String}
    {rest : List (List String)} {loaded : Nat} (chunks : AreChunks keys (chunk :: rest))
    (copying : load.stage = copy neighbours.mesh time url loaded (chunk :: rest)) (due : Nat) :
    ∃ loaded' pending, (load.acted neighbours due).stage =
        copy neighbours.mesh due url loaded' pending ∧
      AreChunks keys pending ∧ requestsFor pending + 1 = requestsFor (chunk :: rest) := by
  obtain ⟨⟨some_keys, -⟩, others⟩ := List.forall_mem_cons.1 chunks
  have next : (load.acted neighbours due).stage =
      (afterChunk neighbours.mesh due chunk rest loaded
        (neighbours.mesh.ask time url (.getElements chunk))).1 := by
    rw [acted, Load.next, copying]
    rfl
  have answer := singly time url chunk
  rw [next, afterChunk]
  revert answer
  rcases elementsOf (neighbours.mesh.ask time url (.getElements chunk)) with error | elements <;>
    intro answer
  · have long : 1 < chunk.length := Nat.lt_of_not_le (of_decide_eq_false answer.symm)
    refine ⟨loaded, _, congrArg Prod.fst (if_pos long), chunks.halves long, ?_⟩
    rw [requestsFor, requestsFor, requestsFor, requests_eq_halves long]
    omega
  · have short : chunk.length ≤ 1 := of_decide_eq_true answer.symm
    have positive := List.length_pos_iff.2 some_keys
    refine ⟨_, rest, rfl, others, ?_⟩
    rw [requestsFor, requests_of_ne_nil some_keys]
    omega

/-- All requests that may be needed are made. -/
theorem length_calls_acts_of_singly (singly : AnswersSingly neighbours.mesh) (now : Nat)
    {loaded : Nat} {pending : List (List String)} (chunks : AreChunks keys pending)
    (copying : load.stage = copy neighbours.mesh time url loaded pending) :
    (load.acts neighbours now none).1.calls.length + load.stage.call?.toList.length =
      load.calls.length + requestsFor pending := by
  -- What is pending may grow with a step, but what it may need becomes less by one.
  induction count : requestsFor pending generalizing now load time loaded pending with
  | zero =>
    rcases pending with _ | ⟨chunk, rest⟩
    · rw [acts_of_none (by rw [copying]; rfl), copying]
      rfl
    · exact absurd count (Nat.ne_of_gt (requestsFor_pos chunk rest))
  | succ count ih =>
    rcases pending with _ | ⟨chunk, rest⟩
    · cases count
    obtain ⟨due, waits⟩ : ∃ due, due? now load.stage = some due := by
      rw [copying]
      exact ⟨_, rfl⟩
    obtain ⟨_, pending, next, chunks', fewer⟩ := acted_of_singly singly chunks copying due
    have later := ih due chunks' next (Nat.succ.inj (fewer.trans count))
    have asks : load.stage.call?.toList.length = 1 := by
      rw [copying]
      rfl
    have calls : (load.acted neighbours due).calls.length =
        load.calls.length + (load.acted neighbours due).stage.call?.toList.length :=
      List.length_append
    rw [acts_of_due waits]
    dsimp only
    omega

/-! ## A whole copy -/

/-- Whatever the peer answers from one request to the next, a copy of `n` keys in chunks of `size`
makes at most `2 * n - ⌈n / size⌉` requests, each for some consecutive keys, and has ended when it
has had time for so many. With neighbours that stay as they are it ends by itself; a peer that
answers for single keys only is asked as often as that. -/
theorem copy_ends_within_requests (load : Load) (mesh : Mesh) (time : Nat) (url : String)
    {size : Nat} (pos : 0 < size) (keys : List String) :
    let begun := load.beginCopy mesh time url size keys
    let bound := 2 * keys.length - keys.length ⌈/⌉ size
    (∀ moments, ∃ made,
      (begun.actsAt moments).1.calls = load.calls ++ made ∧ made.length ≤ bound ∧
      (∀ call ∈ made, AsksFor url keys call) ∧
      (bound ≤ moments.length → (begun.actsAt moments).1.outcome?.isSome = true)) ∧
    ∀ neighbours now, ∃ made,
      (begun.acts neighbours now none).1.calls = load.calls ++ made ∧ made.length ≤ bound ∧
      (begun.acts neighbours now none).1.outcome?.isSome = true ∧
      (neighbours.mesh = mesh → AnswersSingly mesh → made.length = bound) := by
  intro begun bound
  have needed : requestsFor (chunks size keys) = bound := requestsFor_chunks pos keys
  have distance : begun.stage.distance.2 = bound := by
    rw [← needed]
    change (copy mesh time url 0 (chunks size keys)).distance.2 = _
    cases chunks size keys <;> rfl
  have all : keysFetched [] ++ (chunks size keys).flatten = keys := flatten_chunks size keys
  have copies : Copies url keys begun.stage.call?.toList [] begun.stage :=
    copies_copy (fun part mem => (areChunks_chunks size keys part mem).1) all rfl mesh time url
  have keeps : KeepsTo url keys bound begun.stage.call?.toList begun.stage :=
    ⟨fun call mem => copies.asksFor (Option.mem_toList.1 mem), by omega⟩
  have run (moments : List Moment) : ∃ made,
      (begun.actsAt moments).1.calls = load.calls ++ made ∧ made.length ≤ bound ∧
      ∀ call ∈ made, AsksFor url keys call := by
    obtain ⟨more, calls, after⟩ := keeps.actsAt copies moments
    obtain ⟨more', calls', ended⟩ := copies.actsAt moments
    obtain rfl : more = more' := List.append_cancel_left (calls.symm.trans calls')
    have few := after.few
    have underWay := ended.length_call?_le
    have within : (begun.stage.call?.toList ++ more).length ≤ bound := by omega
    exact ⟨_, calls.trans (List.append_assoc ..), within, after.asked⟩
  refine ⟨fun moments => ?_, fun neighbours now => ?_⟩
  · obtain ⟨made, calls, few, asked⟩ := run moments
    exact ⟨made, calls, few, asked, fun enough => copies.ends (distance.trans_le enough)⟩
  · obtain ⟨moments, same, -, -⟩ := acts_eq_actsAt neighbours now none begun
    obtain ⟨made, calls, few, -⟩ := run moments
    rw [← same] at calls
    refine ⟨made, calls, few, copies.isSome_outcome?_acts neighbours now, ?_⟩
    rintro rfl singly
    have copying : begun.stage = copy neighbours.mesh time url 0 (chunks size keys) := rfl
    have exactly := length_calls_acts_of_singly singly now (areChunks_chunks size keys) copying
    have first : begun.calls.length = load.calls.length + begun.stage.call?.toList.length :=
      List.length_append
    rw [calls, List.length_append] at exactly
    omega

/-- Peers that hold nothing, and refuse to be asked for more than some elements at once. -/
def refusing (most : Nat) : Mesh where
  connect _ _ := { outcome := .ok () }
  call _ url
    | .getElements chunk =>
      { outcome :=
          if chunk.length ≤ most then .ok (.elements []) else .error (.remote (url ++ " refuses")) }
    | _ => { outcome := .ok (.elements []) }

theorem answersSingly_refusing : AnswersSingly (refusing 1) := by
  intro time url chunk
  by_cases few : chunk.length ≤ 1 <;>
    simp [refusing, Mesh.ask, elementsOf, few, Except.toBool]

/-- Three keys in chunks of two take four requests: one for two keys, and one for each. After four
answers the copy has ended, also if the peer has refused more or less in the meantime. -/
theorem copy_of_three_keys_takes_four :
    0 < 2 ∧ AnswersSingly (refusing 1) ∧
      let begun := (start "c" 5000 0 0).beginCopy (refusing 1) 0 "tcp://a:1/c" 2 ["x", "y", "z"]
      let ended := (begun.acts { registry := {}, mesh := refusing 1 } 0 none).1
      let moments := [2, 0, 1, 0].map fun most =>
        ({ time := 0, neighbours := { registry := {}, mesh := refusing most } } : Moment)
      ended.calls.length = 4 ∧ ended.outcome?.isSome = true ∧
        (begun.actsAt moments).1.outcome?.isSome = true := by
  refine ⟨Nat.two_pos, answersSingly_refusing, ?_⟩
  intro begun ended moments
  obtain ⟨changing, steady⟩ := copy_ends_within_requests (start "c" 5000 0 0) (refusing 1) 0
    "tcp://a:1/c" Nat.two_pos ["x", "y", "z"]
  obtain ⟨_, -, -, -, ends⟩ := changing moments
  obtain ⟨made, calls, -, isOver, all⟩ := steady { registry := {}, mesh := refusing 1 } 0
  have four : ended.calls.length = 4 := by
    rw [calls]
    exact all rfl answersSingly_refusing
  exact ⟨four, isOver, ends (Nat.le_refl 4)⟩

end Load

end CacheCluster
