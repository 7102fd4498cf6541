import CacheCluster.Peer.Delivery
import CacheCluster.Settings.Bootstrap
import CacheCluster.Store

/-! # Loading a cache from a peer

A load copies the cache of one peer: it lists the keys, asks for one element to learn how large they
are, and then for the rest in chunks that should fit in an answer. A chunk that fails is halved,
until a single key fails. A load acts when a wait or a call is over, so it runs from one time to
another by acting at each of them in turn.
-/

namespace CacheCluster

namespace Load

inductive Stage
  /-- Giving the peers time to be found. -/
  | waiting (due : Nat)
  | looking (lookup : Lookup)
  | listing (call : Delivery)
  | sampling (keys : List String) (call : Delivery)
  /-- Asking for `chunk`, with `rest` to come and `loaded` elements copied. -/
  | copying (chunk : List String) (rest : List (List String)) (loaded : Nat) (call : Delivery)
  | finished (time : Nat) (result : Result Nat)
  | cancelled

/-- An element that a load puts into its store. -/
structure Write where
  time : Nat
  cache : String
  element : Element
  deriving DecidableEq, Repr

end Load

structure Load where
  cache : String
  /-- Bytes asked for at a time. -/
  budget : Nat
  /-- Which of the peers that are found is copied, counted round. -/
  pick : Nat := 0
  stage : Load.Stage
  /-- The calls made, in order. -/
  calls : List Delivery := []
  /-- Everything due up to this time has happened. -/
  seen : Nat := 0

namespace Load

def start (cache : String) (budget delay now : Nat) : Load :=
  { cache, budget, stage := .waiting (now + delay) }

/-! ## Stages -/

/-- When a call is over. -/
def callEnd (call : Delivery) : Nat :=
  call.finish.getD call.start

/-- When the load acts next. -/
def due? (now : Nat) : Stage → Option Nat
  | .waiting due => some (max now due)
  | .looking lookup => some (max now lookup.finish)
  | .listing call | .sampling _ call | .copying _ _ _ call => some (max now (callEnd call))
  | .finished _ _ | .cancelled => none

/-- The number of keys in a chunk, from the size of a sample element. -/
def keysPerChunk (budget : Nat) (sample : List Element) : Nat :=
  max 1 (budget / max 1 ((sample.head?.map Element.wireSize).getD 1))

/-- The elements that a call for some brought; an answer to another question is a failure too. -/
def elementsOf (call : Delivery) : Result (List Element) :=
  match call.result with
  | .ok (.elements elements) => .ok elements
  | .ok response => .error (response.unexpectedFrom call.url)
  | .error error => .error error

variable (mesh : Mesh) (time : Nat)

/-- Asks for the first of some chunks. -/
def copy (url : String) (loaded : Nat) : List (List String) → Stage
  | [] => .finished time (.ok loaded)
  | chunk :: rest => .copying chunk rest loaded (mesh.ask time url (.getElements chunk))

/-- What follows when the peers have been looked up. -/
def afterLookup (pick : Nat) (found : List String) : Stage :=
  match found[pick % found.length]? with
  | none => .finished time (.ok 0)
  | some url => .listing (mesh.ask time url .keys)

/-- What follows when the keys have been listed. -/
def afterKeys (call : Delivery) : Stage :=
  match call.result with
  | .ok (.keys []) => .finished time (.ok 0)
  | .ok (.keys (key :: keys)) =>
    .sampling (key :: keys) (mesh.ask time call.url (.getElements [key]))
  | .ok response => .finished time (.error (response.unexpectedFrom call.url))
  | .error error => .finished time (.error error)

/-- What follows when the sample has come. -/
def afterSample (budget : Nat) (keys : List String) (call : Delivery) : Stage :=
  match elementsOf call with
  | .ok sample => copy mesh time call.url 0 (chunks (keysPerChunk budget sample) keys)
  | .error error => .finished time (.error error)

/-- What follows when a chunk has come, and the elements in it. -/
def afterChunk (chunk : List String) (rest : List (List String)) (loaded : Nat) (call : Delivery) :
    Stage × List Element :=
  match elementsOf call with
  | .ok elements => (copy mesh time call.url (loaded + elements.length) rest, elements)
  | .error error =>
    if 1 < chunk.length then
      (copy mesh time call.url loaded
        (chunk.take (chunk.length / 2) :: chunk.drop (chunk.length / 2) :: rest), [])
    else (.finished time (.error error), [])

/-- What a load does when it acts, and the elements that it puts into its store. -/
def next (neighbours : Neighbours) (load : Load) : Stage × List Element :=
  match load.stage with
  | .waiting _ => (.looking (neighbours.lookUp time load.cache), [])
  | .looking lookup => (afterLookup neighbours.mesh time load.pick lookup.found, [])
  | .listing call => (afterKeys neighbours.mesh time call, [])
  | .sampling keys call => (afterSample neighbours.mesh time load.budget keys call, [])
  | .copying chunk rest loaded call => afterChunk neighbours.mesh time chunk rest loaded call
  | stage => (stage, [])

/-! ## Running -/

/-- The call that a stage waits for. -/
def Stage.call? : Stage → Option Delivery
  | .listing call | .sampling _ call | .copying _ _ _ call => some call
  | _ => none

/-- A bound on the requests for a chunk and its parts. -/
def requests (chunk : List String) : Nat :=
  max 1 (2 * chunk.length - 1)

/-- A bound on the requests for several chunks and their parts. -/
def requestsFor : List (List String) → Nat
  | [] => 0
  | chunk :: chunks => requests chunk + requestsFor chunks

/-- How far a load is from its end: its phase, and the requests to come. -/
def Stage.distance : Stage → Nat × Nat
  | .waiting _ => (5, 0)
  | .looking _ => (4, 0)
  | .listing _ => (3, 0)
  | .sampling _ _ => (2, 0)
  | .copying chunk rest _ _ => (1, requestsFor (chunk :: rest))
  | .finished _ _ | .cancelled => (0, 0)

theorem distance_copy_fst_le (url : String) (loaded : Nat) (pending : List (List String)) :
    (copy mesh time url loaded pending).distance.1 ≤ 1 := by
  cases pending <;> simp [copy, Stage.distance]

theorem distance_copy_lt (url : String) (loaded : Nat) {n : Nat} {pending : List (List String)}
    (h : requestsFor pending < n) :
    Prod.Lex (· < ·) (· < ·) (copy mesh time url loaded pending).distance (1, n) := by
  cases pending with
  | nil => exact .left _ _ Nat.zero_lt_one
  | cons chunk rest => exact .right _ h

theorem distance_afterLookup_fst_le (pick : Nat) (found : List String) :
    (afterLookup mesh time pick found).distance.1 ≤ 3 := by
  unfold afterLookup
  split <;> simp [Stage.distance]

theorem distance_afterKeys_fst_le (call : Delivery) :
    (afterKeys mesh time call).distance.1 ≤ 2 := by
  unfold afterKeys
  split <;> simp [Stage.distance]

theorem distance_afterSample_fst_le (budget : Nat) (keys : List String) (call : Delivery) :
    (afterSample mesh time budget keys call).distance.1 ≤ 1 := by
  unfold afterSample
  split
  · exact distance_copy_fst_le ..
  · simp [Stage.distance]

theorem requests_halves {chunk : List String} (h : 1 < chunk.length) :
    requests (chunk.take (chunk.length / 2)) + requests (chunk.drop (chunk.length / 2)) <
      requests chunk := by
  simp only [requests, List.length_take, List.length_drop]
  omega

theorem distance_afterChunk_lt (chunk : List String) (rest : List (List String)) (loaded : Nat)
    (call : Delivery) :
    Prod.Lex (· < ·) (· < ·) (afterChunk mesh time chunk rest loaded call).1.distance
      (1, requestsFor (chunk :: rest)) := by
  have positive : 1 ≤ requests chunk := Nat.le_max_left ..
  simp only [requestsFor]
  unfold afterChunk
  split
  · exact distance_copy_lt _ _ _ _ (by omega)
  · split
    next long =>
      have := requests_halves long
      dsimp only
      refine distance_copy_lt _ _ _ _ ?_
      simp only [requestsFor]
      omega
    next => exact .left _ _ Nat.zero_lt_one

theorem next_decreases {now time : Nat} {neighbours : Neighbours} {load : Load}
    (h : due? now load.stage = some time) :
    Prod.Lex (· < ·) (· < ·) (load.next time neighbours).1.distance load.stage.distance := by
  unfold next
  rcases hstage : load.stage with
    due | lookup | call | ⟨keys, call⟩ | ⟨chunk, rest, loaded, call⟩ | _
  · exact .left _ _ (Nat.lt_succ_self 4)
  · exact .left _ _ (Nat.lt_succ_of_le (distance_afterLookup_fst_le ..))
  · exact .left _ _ (Nat.lt_succ_of_le (distance_afterKeys_fst_le ..))
  · exact .left _ _ (Nat.lt_succ_of_le (distance_afterSample_fst_le ..))
  · exact distance_afterChunk_lt ..
  all_goals simp [due?, hstage] at h

/-- Lets the load act at every time from `now` on, up to `limit` if there is one. -/
def acts (neighbours : Neighbours) (now : Nat) (limit : Option Nat) (load : Load) :
    Load × List Write :=
  match _h : due? now load.stage with
  | none => (load, [])
  | some time =>
    if limit.all (time ≤ ·) then
      let step := load.next time neighbours
      let (finished, writes) := acts neighbours time limit
        { load with stage := step.1, calls := load.calls ++ step.1.call?.toList }
      (finished, step.2.map (⟨time, load.cache, ·⟩) ++ writes)
    else (load, [])
termination_by load.stage.distance
decreasing_by exact next_decreases ‹_›

def isPending (load : Load) : Bool :=
  match load.stage with
  | .finished _ _ | .cancelled => false
  | _ => true

/-- Runs the load from `now` up to and including `limit`; one that is over stays as it is. -/
def run (neighbours : Neighbours) (now limit : Nat) (load : Load) : Load × List Write :=
  if load.isPending then
    let (load, writes) := load.acts neighbours now (some limit)
    ({ load with seen := limit }, writes)
  else (load, [])

/-- The time at which the load was over, and what came of it. -/
def outcome? (load : Load) : Option (Nat × Result Nat) :=
  match load.stage with
  | .finished time result => some (time, result)
  | _ => none

/-- Runs the load to its end. -/
def complete (neighbours : Neighbours) (now : Nat) (load : Load) : Load × List Write :=
  let (load, writes) := load.acts neighbours now none
  ({ load with seen := (load.outcome?.map Prod.fst).getD load.seen }, writes)

/-- Gives the load up, if it is not over. -/
def cancel (load : Load) : Load :=
  if load.isPending then { load with stage := .cancelled } else load

/-- The calls that the load made, as they stand when all it has seen has happened. -/
def deliveries (load : Load) : List Delivery :=
  load.calls.map (Delivery.cutAfter load.seen)

end Load

end CacheCluster
