import Mathlib.Data.List.Forall2
import CacheCluster.Proofs.LoadOverConnection

/-! # Whose answer a call reads

Requests carry no number. A listener answers them in order, and a call reads the first answer that
comes on its connection. That is the answer to its own request as long as no call over the
connection was dropped with its answer still to come; every such call makes the later ones read an
answer that is one request older.
-/

namespace CacheCluster

namespace Fate

/-- Whether a call leaves a request on its connection that is unanswered or written in part. -/
def isAbandoned : Fate → Bool
  | .dropped .connecting => false
  | .dropped _ => true
  | _ => false

theorem isAbandoned_dropped_iff {stage : Stage} :
    (dropped stage).isAbandoned = true ↔ stage ≠ .connecting := by
  cases stage <;> decide

end Fate

/-- How long the parts of a call take, in milliseconds. -/
structure Timing where
  /-- Until the handle is free for the call. -/
  turn : Nat
  connecting : Nat
  writing : Nat
  waiting : Nat
  reading : Nat
  /-- How long the caller waits for the whole of it, if not for ever. -/
  patience : Option Nat

namespace Timing

variable (timing : Timing)

/-- How long a call takes once it has begun. -/
def whole : Nat :=
  timing.connecting + timing.writing + timing.waiting + timing.reading

/-- The stage of a call some time after it has begun. -/
def stageAt (elapsed : Nat) : Fate.Stage :=
  if elapsed < timing.connecting then .connecting
  else if elapsed < timing.connecting + timing.writing then .writing
  else if elapsed < timing.connecting + timing.writing + timing.waiting then .waiting
  else .reading

/-- The moment when a call is over, finished or given up by its handle. -/
def finish (timeout : Nat) : Nat :=
  timing.turn + min timeout timing.whole

/-- How a call goes. The handle gives it time from when it begins, the caller from when it is made;
a caller that gives up before the call has begun leaves nothing behind. -/
def fate (timeout : Nat) : Fate :=
  match timing.patience.filter (· < timing.finish timeout) with
  | some patience =>
    .dropped (if patience < timing.turn then .connecting
      else timing.stageAt (patience - timing.turn))
  | none => if timing.whole ≤ timeout then .answered else .timedOut (timing.stageAt timeout)

theorem stageAt_eq_connecting_iff {elapsed : Nat} :
    timing.stageAt elapsed = .connecting ↔ elapsed < timing.connecting := by
  unfold stageAt
  split
  next early => exact iff_of_true rfl early
  next late =>
    refine iff_of_false ?_ late
    split
    · nofun
    · split <;> nofun

/-- A call is abandoned exactly if its caller gives up when it has begun to write and is not
over. -/
theorem isAbandoned_fate_iff {timeout : Nat} :
    (timing.fate timeout).isAbandoned = true ↔
      ∃ patience ∈ timing.patience,
        timing.turn + timing.connecting ≤ patience ∧ patience < timing.finish timeout := by
  unfold fate
  split
  next patience given =>
    obtain ⟨given, early⟩ := Option.filter_eq_some_iff.1 given
    have early : patience < timing.finish timeout := of_decide_eq_true early
    rw [given, Fate.isAbandoned_dropped_iff]
    simp only [Option.mem_def, Option.some.injEq, exists_eq_left']
    split
    next unbegun =>
      refine iff_of_false (fun begun => begun rfl) ?_
      omega
    next =>
      rw [Ne, stageAt_eq_connecting_iff]
      omega
  next given =>
    have late : ∀ patience ∈ timing.patience, ¬patience < timing.finish timeout := by
      intro patience mem early
      rw [mem, Option.filter_some, if_pos (decide_eq_true early)] at given
      cases given
    refine iff_of_false ?_ ?_
    · split <;> nofun
    · rintro ⟨patience, mem, -, early⟩
      exact late patience mem early

end Timing

namespace Handle

/-! ## One call -/

/-- A call of a handle, and the network as it is at that time. -/
structure Turn where
  network : Network
  now : Nat
  action : Request.Action
  timing : Timing

/-- The listener at a handle's address gives a response to the request of a call. -/
def Turn.IsAnsweredWith (turn : Turn) (address cache : String) (response : Response) : Prop :=
  ∃ listener, turn.network.listeners.get? address = some listener ∧
    response = (Service.answer listener.caches ⟨cache, turn.action⟩).1

/-- If what comes on a connection is an answer, then it is the one to the request of a call. -/
def Turn.Brings (address cache : String) (turn : Turn) (incoming : Incoming) : Prop :=
  ∀ response, incoming = .answer response → turn.IsAnsweredWith address cache response

def make (handle : Handle) (turn : Turn) : Exchange :=
  handle.call turn.network turn.now (turn.timing.fate handle.timeout) turn.action

/-- What has come on the connection and has not been read. -/
def unread (handle : Handle) : List Incoming :=
  (handle.connection.map Connection.unread).getD []

/-- A connection of a handle is open, and some answers on it have not been read. -/
def IsLeftWith (handle : Handle) (unread : List Incoming) : Prop :=
  ∃ connection, handle.connection = some connection ∧ connection.unread = unread

theorem IsLeftWith.ne_none {handle : Handle} {unread : List Incoming}
    (left : handle.IsLeftWith unread) : handle.connection ≠ none := by
  obtain ⟨connection, connected, -⟩ := left
  rw [connected]
  nofun

theorem IsLeftWith.unread_eq {handle : Handle} {unread : List Incoming}
    (left : handle.IsLeftWith unread) : handle.unread = unread := by
  obtain ⟨connection, connected, rfl⟩ := left
  rw [Handle.unread, connected]
  rfl

/-- What a call can come to, where `reply` comes for its own request. -/
inductive Leads (handle : Handle) (fate : Fate) (reply : Incoming) (made : Exchange) : Prop
  | failed (closed : made.handle.connection = none)
      (error : ∃ error, made.result = some (.error error))
  | unbegun (dropped : fate = .dropped .connecting) (silent : made.result = none)
      (same : made.handle = handle)
  | answered (finished : fate = .answered) {response : Response} {unread : List Incoming}
      (first : handle.unread ++ [reply] = .answer response :: unread)
      (read : made.result = some (reading response)) (left : made.handle.IsLeftWith unread)
  | abandoned (dropped : fate.isAbandoned = true) (silent : made.result = none)
      {unread : List Incoming}
      (worse : List.Forall₂ (fun kept came => ∀ response, kept = .answer response → came = kept)
        unread (handle.unread ++ [reply]))
      (left : made.handle.IsLeftWith unread)

variable {handle : Handle} {fate : Fate}

theorem ofUrl_eq_ok_iff {url : String} {timeout : Nat} :
    ofUrl url timeout = .ok handle ↔ ∃ address cache,
      PeerUrl.parse url = .ok (address, cache) ∧ { url, address, cache, timeout } = handle := by
  unfold ofUrl
  rcases PeerUrl.parse url with error | ⟨address, cache⟩
  · exact iff_of_false nofun nofun
  · constructor
    · intro made
      exact ⟨address, cache, rfl, Except.ok.inj made⟩
    · rintro ⟨_, _, ⟨⟩, rfl⟩
      rfl

theorem ask_brings (handle : Handle) (turn : Turn) (connection : Connection) :
    turn.Brings handle.address handle.cache
      (handle.ask turn.network turn.now connection turn.action).1 := by
  intro response came
  unfold ask at came
  split at came
  next => cases came
  next listener accepted =>
    obtain ⟨known, -⟩ := Option.filter_eq_some_iff.1 accepted
    refine ⟨listener, known, ?_⟩
    dsimp only at came
    split at came
    · exact (Incoming.answer.inj came).symm
    · cases came

theorem exchange_of_fits {network : Network} {now : Nat} {connection : Connection}
    {action : Request.Action} (fits : Request.fits ⟨handle.cache, action⟩ = true) :
    handle.exchange network now fate connection action =
      handle.proceed network now fate connection action := by
  obtain ⟨frame, written⟩ := Frame.exists_write fits
  rw [exchange, written]

theorem ask_of_accepting {network : Network} {now : Nat} {connection : Connection}
    {action : Request.Action} {listener : Listener}
    (accepted : network.accepting? now handle.address connection = some listener)
    (fits : (Service.answer listener.caches ⟨handle.cache, action⟩).1.fits = true) :
    (handle.ask network now connection action).1 =
      .answer (Service.answer listener.caches ⟨handle.cache, action⟩).1 := by
  rw [ask, accepted]
  exact if_pos fits

theorem isLeftWith_keep (handle : Handle) (now : Nat) (connection : Connection)
    (unread : List Incoming) : (handle.keep now connection unread).IsLeftWith unread :=
  ⟨_, rfl, rfl⟩

theorem exchange_leads (network : Network) (now : Nat) (fate : Fate) {connection : Connection}
    (action : Request.Action) (unread : handle.unread = connection.unread) :
    handle.Leads fate (handle.ask network now connection action).1
      (handle.exchange network now fate connection action) := by
  have same (incoming : List Incoming) :
      List.Forall₂ (fun kept came => ∀ response, kept = .answer response → came = kept)
        incoming incoming :=
    List.forall₂_same.2 fun _ _ _ _ => rfl
  unfold exchange
  split
  · exact .failed rfl ⟨_, rfl⟩
  unfold proceed
  dsimp only
  split
  · unfold receive
    split
    next response later first =>
      exact .answered rfl (unread ▸ first) rfl (isLeftWith_keep _ _ _ _)
    next => exact .failed rfl ⟨_, rfl⟩
  · exact .failed rfl ⟨_, rfl⟩
  · exact .failed rfl ⟨_, rfl⟩
  · exact .failed rfl ⟨_, rfl⟩
  · exact .unbegun rfl rfl rfl
  · refine .abandoned rfl rfl ?_ (isLeftWith_keep _ _ _ _)
    rw [unread]
    exact List.rel_append (same _) (.cons nofun .nil)
  · exact .abandoned rfl rfl (unread ▸ same _) (isLeftWith_keep _ _ _ _)
  · refine .abandoned rfl rfl ?_ (isLeftWith_keep _ _ _ _)
    rw [unread]
    generalize connection.unread ++ [(handle.ask network now connection action).1] = incoming
    unfold tear
    split
    · exact .cons nofun (same _)
    · exact same _

theorem unread_of_dial {network : Network} {now : Nat} {address : String} {connection : Connection}
    (dialled : network.dial now address = .ok connection) : connection.unread = [] := by
  unfold Network.dial at dialled
  split at dialled
  · cases dialled
  · split at dialled
    · cases dialled
    · split at dialled
      · split at dialled
        · obtain rfl := Except.ok.inj dialled
          rfl
        · cases dialled
      · cases dialled

/-- A call fails, has not begun, reads the first answer that comes, or leaves one more to come. -/
theorem call_leads (handle : Handle) (network : Network) (now : Nat) (fate : Fate)
    (action : Request.Action) :
    ∃ connection, handle.Leads fate (handle.ask network now connection action).1
      (handle.call network now fate action) := by
  unfold call
  rcases connected : handle.connection with _ | connection
  · split
    next unbegun => exact ⟨⟨0, now, []⟩, .unbegun rfl rfl rfl⟩
    · contradiction
    · exact ⟨⟨0, now, []⟩, .failed rfl ⟨_, rfl⟩⟩
    · split
      · exact ⟨⟨0, now, []⟩, .failed rfl ⟨_, rfl⟩⟩
      next connection dialled =>
        refine ⟨connection, exchange_leads network now _ action ?_⟩
        rw [unread, connected, unread_of_dial dialled]
        rfl
  · split
    next unbegun => exact ⟨⟨0, now, []⟩, .unbegun rfl rfl rfl⟩
    next same _ =>
      obtain rfl := Option.some.inj same
      refine ⟨connection, exchange_leads network now _ action ?_⟩
      rw [unread, connected]
      rfl
    · contradiction
    · contradiction

theorem make_leads (handle : Handle) (turn : Turn) :
    ∃ reply, turn.Brings handle.address handle.cache reply ∧
      handle.Leads (turn.timing.fate handle.timeout) reply (handle.make turn) := by
  obtain ⟨connection, leads⟩ := call_leads handle turn.network turn.now
    (turn.timing.fate handle.timeout) turn.action
  exact ⟨_, ask_brings handle turn connection, leads⟩

theorem exchange_same (handle : Handle) (network : Network) (now : Nat) (fate : Fate)
    (connection : Connection) (action : Request.Action) :
    ∃ kept, (handle.exchange network now fate connection action).handle =
      { handle with connection := kept } := by
  unfold exchange proceed receive
  split
  · exact ⟨_, rfl⟩
  · dsimp only
    split
    · split <;> exact ⟨_, rfl⟩
    all_goals exact ⟨_, rfl⟩

theorem call_same (handle : Handle) (network : Network) (now : Nat) (fate : Fate)
    (action : Request.Action) :
    ∃ kept, (handle.call network now fate action).handle = { handle with connection := kept } := by
  unfold call
  split
  · exact ⟨_, rfl⟩
  · exact exchange_same _ _ _ _ _ _
  · exact ⟨_, rfl⟩
  · split
    · exact ⟨_, rfl⟩
    · exact exchange_same _ _ _ _ _ _

/-! ## Calls one after the other -/

/-- What has become of a handle, with the calls that have written to the connection that is open. -/
structure History where
  handle : Handle
  calls : List Turn := []

namespace History

def step (history : History) (turn : Turn) : History :=
  let made := history.handle.make turn
  { handle := made.handle
    calls := if made.handle.connection = none then []
      else if turn.timing.fate history.handle.timeout = .dropped .connecting then history.calls
      else history.calls ++ [turn] }

def run (history : History) (turns : List Turn) : History :=
  turns.foldl step history

/-- How many calls over the open connection were abandoned. -/
def lag (history : History) : Nat :=
  history.calls.countP fun turn => (turn.timing.fate history.handle.timeout).isAbandoned

/-- What comes on the open connection belongs to the last calls over it, as many as were
abandoned. -/
structure Sound (address cache : String) (timeout : Nat) (history : History) : Prop where
  address_eq : history.handle.address = address
  cache_eq : history.handle.cache = cache
  timeout_eq : history.handle.timeout = timeout
  closed : history.handle.connection = none → history.calls = []
  due : ∃ answered due, history.calls = answered ++ due ∧ due.length = history.lag ∧
    List.Forall₂ (Turn.Brings address cache) due history.handle.unread

variable {url address cache : String} {timeout : Nat} {history : History} {turn : Turn}

theorem sound_start (made : Handle.ofUrl url timeout = .ok handle) :
    ∃ address cache, PeerUrl.parse url = .ok (address, cache) ∧
      Sound address cache timeout { handle } := by
  obtain ⟨address, cache, parsed, rfl⟩ := ofUrl_eq_ok_iff.1 made
  exact ⟨address, cache, parsed, rfl, rfl, rfl, fun _ => rfl, [], [], rfl, rfl, .nil⟩

theorem Sound.of_make (h : history.Sound address cache timeout) {calls : List Turn}
    (answered due : List Turn)
    (closed : (history.handle.make turn).handle.connection = none → calls = [])
    (split : calls = answered ++ due)
    (length : due.length = calls.countP fun turn => (turn.timing.fate timeout).isAbandoned)
    (brought : List.Forall₂ (Turn.Brings address cache) due
      (history.handle.make turn).handle.unread) :
    Sound address cache timeout ⟨(history.handle.make turn).handle, calls⟩ := by
  obtain ⟨kept, same⟩ : ∃ kept, (history.handle.make turn).handle =
      { history.handle with connection := kept } := call_same _ _ _ _ _
  have timeout_eq : (history.handle.make turn).handle.timeout = timeout := by
    rw [same]
    exact h.timeout_eq
  refine ⟨?_, ?_, timeout_eq, closed, answered, due, split, ?_, brought⟩
  · rw [same]
    exact h.address_eq
  · rw [same]
    exact h.cache_eq
  · rw [lag, timeout_eq]
    exact length

/-- What was kept of what came still belongs to the same calls. -/
theorem forall₂_brings_of_worse {turns : List Turn} {unread incoming : List Incoming}
    (worse : List.Forall₂ (fun kept came => ∀ response, kept = .answer response → came = kept)
      unread incoming)
    (brought : List.Forall₂ (Turn.Brings address cache) turns incoming) :
    List.Forall₂ (Turn.Brings address cache) turns unread := by
  induction worse generalizing turns with
  | nil => exact brought
  | cons first _ ih =>
    cases brought with
    | cons brings rest =>
      refine .cons (fun response kept => ?_) (ih rest)
      exact brings response ((first response kept).trans kept)

theorem Sound.step (h : history.Sound address cache timeout) (turn : Turn) :
    (history.step turn).Sound address cache timeout := by
  obtain ⟨reply, brings, leads⟩ := make_leads history.handle turn
  obtain ⟨answered, due, calls, length, brought⟩ := h.due
  rw [h.address_eq, h.cache_eq] at brings
  rw [lag, h.timeout_eq] at length
  rw [h.timeout_eq] at leads
  -- what comes next, with the answer to this request behind it
  have comes : List.Forall₂ (Turn.Brings address cache) (due ++ [turn])
      (history.handle.unread ++ [reply]) := List.rel_append brought (.cons brings .nil)
  unfold History.step
  rw [h.timeout_eq]
  dsimp only
  cases leads with
  | failed closed =>
    rw [if_pos closed]
    refine h.of_make [] [] (fun _ => rfl) rfl rfl ?_
    rw [Handle.unread, closed]
    exact .nil
  | unbegun dropped silent unchanged =>
    have same : (if history.handle.connection = none then [] else history.calls) =
        history.calls := by
      split
      next none => exact (h.closed none).symm
      next => rfl
    rw [unchanged, if_pos dropped, same]
    exact h
  | answered finished first read left =>
    rw [if_neg left.ne_none, if_neg (by rw [finished]; nofun)]
    rw [first] at comes
    obtain ⟨asked, later, -, brought, all⟩ := List.forall₂_cons_right_iff.1 comes
    have counted : (turn.timing.fate timeout).isAbandoned = false := by
      rw [finished]
      rfl
    have same_length := congrArg List.length all
    refine h.of_make (answered ++ [asked]) later (fun none => absurd none left.ne_none) ?_ ?_ ?_
    · rw [calls, List.append_assoc, all, List.append_assoc]
      rfl
    · rw [List.countP_append, ← length, List.countP_singleton, counted, if_neg (by decide)]
      simpa using same_length.symm
    · rwa [left.unread_eq]
  | abandoned dropped silent worse left =>
    have begun : turn.timing.fate timeout ≠ .dropped .connecting := by
      intro unbegun
      rw [unbegun] at dropped
      cases dropped
    rw [if_neg left.ne_none, if_neg begun]
    refine h.of_make answered (due ++ [turn]) (fun none => absurd none left.ne_none) ?_ ?_ ?_
    · rw [calls, List.append_assoc]
    · rw [List.countP_append, ← length, List.countP_singleton, dropped, if_pos rfl]
      exact List.length_append
    · rw [left.unread_eq]
      exact forall₂_brings_of_worse worse comes

theorem Sound.run (h : history.Sound address cache timeout) (turns : List Turn) :
    (history.run turns).Sound address cache timeout := by
  induction turns generalizing history with
  | nil => exact h
  | cons turn turns ih => exact ih (h.step turn)

end History

/-- Whatever calls a handle has made, the requests on its open connection that are written in part
or whose answers have not been read are as many as calls over it were abandoned. A call that does
not fail reads the answer to the request that was made so many calls before it over the same
connection, so that it is the answer to its own exactly if none was abandoned. A caller who gives up
as late as the handle does abandons a call that had to wait for its turn and is not over in time. -/
theorem responses_lag_behind (url : String) (timeout : Nat) (handle : Handle)
    (made : Handle.ofUrl url timeout = .ok handle) (turns : List Turn) :
    let history := History.run { handle } turns
    (∀ connection, history.handle.connection = some connection →
      connection.unread.length = history.lag) ∧
    (∀ turn result, (history.handle.make turn).result = some result →
      ((history.handle.make turn).handle.connection = none ∧ ∃ error, result = .error error) ∨
      ∃ asked response,
        (history.calls ++ [turn])[history.calls.length - history.lag]? = some asked ∧
        asked.IsAnsweredWith handle.address handle.cache response ∧ result = reading response) ∧
    history.lag ≤ history.calls.length ∧
    ∀ timing : Timing, timing.patience = some timeout →
      ((timing.fate timeout).isAbandoned = true ↔
        0 < timing.turn ∧ timing.turn + timing.connecting ≤ timeout ∧
          timeout < timing.turn + timing.whole) := by
  intro history
  obtain ⟨address, cache, -, sound⟩ := History.sound_start made
  have h : history.Sound address cache timeout := sound.run turns
  have handle_eq : handle.address = address ∧ handle.cache = cache :=
    ⟨sound.address_eq, sound.cache_eq⟩
  obtain ⟨answered, due, calls, length, brought⟩ := h.due
  refine ⟨?_, ?_, ?_, ?_⟩
  · intro connection connected
    have as_many := brought.length_eq
    rw [unread, connected] at as_many
    exact as_many.symm.trans length
  · intro turn result came
    obtain ⟨reply, brings, leads⟩ := make_leads history.handle turn
    rw [h.address_eq, h.cache_eq] at brings
    cases leads with
    | failed closed error =>
      obtain ⟨error, failed⟩ := error
      exact .inl ⟨closed, error, Option.some.inj (came.symm.trans failed)⟩
    | unbegun _ silent => cases silent.symm.trans came
    | abandoned _ silent => cases silent.symm.trans came
    | @answered _ response unread first read =>
      have comes : List.Forall₂ (Turn.Brings address cache) (due ++ [turn])
          (.answer response :: unread) := first ▸ List.rel_append brought (.cons brings .nil)
      obtain ⟨asked, later, answers, -, all⟩ := List.forall₂_cons_right_iff.1 comes
      refine .inr ⟨asked, response, ?_, ?_, Option.some.inj (came.symm.trans read)⟩
      · rw [calls, List.append_assoc, all, ← length, List.length_append, Nat.add_sub_cancel,
          List.getElem?_append_right (Nat.le_refl _), Nat.sub_self]
        rfl
      · rw [handle_eq.1, handle_eq.2]
        exact answers response rfl
  · rw [calls, ← length, List.length_append]
    exact Nat.le_add_left _ _
  · intro timing given
    rw [Timing.isAbandoned_fate_iff, given]
    simp only [Option.mem_def, Option.some.injEq, exists_eq_left', Timing.finish]
    omega

/-- A listener whose cache holds one key, and a network with no other. -/
def keeper : Listener where
  host := "127.0.0.1"
  requestedPort := 4000
  isRunning := true
  caches := .ofList [("c", Store.put ∅ ⟨"a", [], 1, 0⟩)]

def oneKey : Network where
  listeners := .ofList [("127.0.0.1:4000", keeper)]

/-- A handle for that cache, which gives a call a second. -/
def patient : Handle where
  url := "tcp://127.0.0.1:4000/c"
  address := "127.0.0.1:4000"
  cache := "c"
  timeout := 1000

/-- A caller who gives up after a second as well removes a key. -/
def removing (key : String) (turn waiting : Nat) : Turn where
  network := oneKey
  now := 0
  action := .remove key
  timing := ⟨turn, 0, 1, waiting, 1, some 1000⟩

theorem size_a : (Json.string "a").size = 3 := by
  obtain ⟨-, -, -, -, -, -, -, -, a, -⟩ := size_texts
  exact a

theorem size_b : (Json.string "b").size = 3 := by
  obtain ⟨-, -, -, -, -, -, -, -, -, b, -⟩ := size_texts
  exact b

theorem fits_removal {key : String} (short : (Json.string key).size = 3) (held : Bool) :
    Request.fits ⟨patient.cache, .remove key⟩ = true ∧ (Response.removed held).fits = true := by
  have names : (Json.string "REMOVE").size = 8 ∧ (Json.string "key").size = 5 ∧
      (Json.string "REMOVED").size = 9 ∧ (Json.string "removed").size = 9 := by
    simp only [Json.size_string]
    decide +kernel
  have truth : (Json.bool held).size ≤ 5 := by
    revert held
    decide +kernel
  rw [Request.fits_iff, Response.fits_iff]
  simp only [patient, Request.toJson, Request.Action.shape, Response.toJson, Wire.size_tagged,
    List.map_cons, List.map_nil, List.sum_cons, List.sum_nil, size_texts, names, short,
    Frame.maxBytes]
  omega

theorem make_removing : patient.make (removing "a" 300 800) =
    patient.proceed oneKey 0 (.dropped .waiting) { session := 0, lastUsed := 0 } (.remove "a") :=
  exchange_of_fits (fits_removal size_a true).1

/-- The connection after a removal that was given up while its answer was waited for. -/
theorem left_after_removal :
    (patient.make (removing "a" 300 800)).handle = { patient with
      connection := some
        { session := 0, lastUsed := 0, unread := [.answer (.removed true)] } } := by
  have fits := fits_removal size_a true
  have accepted : oneKey.accepting? 0 patient.address { session := 0, lastUsed := 0 } =
      some keeper := rfl
  have answer : (Service.answer keeper.caches ⟨patient.cache, .remove "a"⟩).1 = .removed true := rfl
  have asked : (patient.ask oneKey 0 { session := 0, lastUsed := 0 } (.remove "a")).1 =
      .answer (.removed true) := by
    rw [ask_of_accepting accepted (answer ▸ fits.2), answer]
  rw [make_removing]
  change patient.keep 0 _ ([] ++ [(patient.ask _ _ _ _).1]) = _
  rw [asked]
  rfl

theorem run_removing :
    History.run { handle := patient } [removing "a" 300 800] =
      ⟨(patient.make (removing "a" 300 800)).handle, [removing "a" 300 800]⟩ := by
  have stays : (patient.make (removing "a" 300 800)).handle.connection ≠ none := by
    rw [left_after_removal]
    nofun
  simp only [History.run, List.foldl_cons, List.foldl_nil, History.step, if_neg stays]
  rfl

theorem lag_removing : (History.run { handle := patient } [removing "a" 300 800]).lag = 1 := by
  rw [run_removing, History.lag, left_after_removal]
  rfl

/-- A removal that had to wait for its turn and is answered after more than a second leaves its
answer to the next removal, whose key is not there. -/
theorem removal_reads_older_answer :
    Handle.ofUrl patient.url 1000 = .ok patient ∧
      let history := History.run { handle := patient } [removing "a" 300 800]
      let made := history.handle.make (removing "b" 0 1)
      history.lag = 1 ∧ made.result = some (.ok (.removed true)) ∧
      ((removing "a" 300 800).IsAnsweredWith patient.address patient.cache (.removed true)) ∧
      ∀ response, (removing "b" 0 1).IsAnsweredWith patient.address patient.cache response →
        response = .removed false := by
  have opened : Handle.ofUrl patient.url 1000 = .ok patient := rfl
  refine ⟨opened, ?_⟩
  intro history made
  have history_eq : history = _ := run_removing
  have lag : history.lag = 1 := lag_removing
  have result : made.result = some (.ok (.removed true)) := by
    have fits := (fits_removal size_b true).1
    have carries (connection : Connection) :
        { patient with connection := some connection }.make (removing "b" 0 1) =
          { patient with connection := some connection }.proceed oneKey 0 .answered connection
            (.remove "b") := exchange_of_fits fits
    simp only [made]
    rw [history_eq, left_after_removal, carries]
    rfl
  refine ⟨lag, result, ?_, ?_⟩
  · obtain ⟨-, answers, -⟩ := responses_lag_behind patient.url 1000 patient opened
      [removing "a" 300 800]
    obtain ⟨-, error, wrong⟩ | ⟨asked, response, known, answered, read⟩ := answers _ _ result
    · cases wrong
    · have first : (history.calls ++ [removing "b" 0 1])[history.calls.length - history.lag]? =
          some (removing "a" 300 800) := by
        rw [lag, history_eq]
        rfl
      obtain rfl := Option.some.inj (first.symm.trans known)
      obtain rfl : response = .removed true := by
        cases response <;> cases read
        rfl
      exact answered
  · rintro response ⟨listener, known, rfl⟩
    obtain rfl : keeper = listener := Option.some.inj known
    rfl

end Handle

end CacheCluster
