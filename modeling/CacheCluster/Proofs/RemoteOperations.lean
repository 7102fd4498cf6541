import CacheCluster.Proofs.Reaching
import CacheCluster.Proofs.WireRoundTrip

/-! # Operations on the caches of other nodes

An operation on a cache of another node is written as a frame, served there, and its answer read
from the frame that comes back. It leaves the store there as the operation would and every other as
it was, and gives what the operation gives on the store itself, unless an earlier call that its
caller gave up has left something on the connection.
-/

namespace CacheCluster

/-- What can be done with a cache, by the kind of what it gives. -/
inductive Operation : Type → Type
  | put (element : Element) : Operation Unit
  | remove (key : String) : Operation Bool
  | removeAll : Operation Unit
  | send (messages : List Message) : Operation Unit
  | keys : Operation (List String)
  | getElements (names : List String) : Operation (List Element)

namespace Operation

variable {α : Type}

def on (store : Store) : Operation α → α × Store
  | .put element => ((), store.put element)
  | .remove key => (store.contains key, store.remove key)
  | .removeAll => ((), ∅)
  | .send messages => ((), messages.foldl Store.apply store)
  | .keys => (store.names, store)
  | .getElements names => (names.filterMap store.get?, store)

def action : Operation α → Request.Action
  | .put element => .put element
  | .remove key => .remove key
  | .removeAll => .removeAll
  | .send messages => .send messages
  | .keys => .keys
  | .getElements names => .getElements names

def reply? : Operation α → Response → Option α
  | .put _, .ok => some ()
  | .remove _, .removed held => some held
  | .removeAll, .ok => some ()
  | .send _, .ok => some ()
  | .keys, .keys names => some names
  | .getElements _, .elements found => some found
  | _, _ => none

/-- What the caller of an operation is given for the result of the call. -/
def given (url : String) (operation : Operation α) (result : Result Response) : Result α :=
  match Handle.checked url operation.action result with
  | .error error => .error error
  | .ok response =>
    match operation.reply? response with
    | some value => .ok value
    | none => .error (response.unexpectedFrom url)

theorem perform_action (operation : Operation α) (store : Store) :
    (Service.perform store operation.action).2 = (operation.on store).2 ∧
      ∀ url, operation.given url (Handle.reading (Service.perform store operation.action).1) =
        .ok (operation.on store).1 := by
  cases operation <;> exact ⟨rfl, fun _ => rfl⟩

/-- A response gives what it says, if it answers an operation of that kind, and is a failure if
not. -/
theorem given_reading (operation : Operation α) (url : String) (response : Response) :
    (∃ value, operation.reply? response = some value ∧
      operation.given url (Handle.reading response) = .ok value) ∨
    operation.reply? response = none ∧
      ∃ reason, operation.given url (Handle.reading response) = .error (.remote reason) := by
  cases operation <;> cases response <;>
    first | exact .inl ⟨_, rfl, rfl⟩ | exact .inr ⟨rfl, _, rfl⟩

end Operation

namespace Service

variable {caches : Table Store} {cache : String} {store : Store} {action : Request.Action}

theorem answer_of_served (served : caches.get? cache = some store) (action : Request.Action) :
    answer caches ⟨cache, action⟩ =
      ((perform store action).1, caches.insert cache (perform store action).2) := by
  rw [answer, served]

theorem answer_of_not_served (absent : caches.get? cache = none) (action : Request.Action) :
    answer caches ⟨cache, action⟩ = (notServed cache, caches) := by
  rw [answer, absent]

theorem get?_answer_of_ne {other : String} (ne : other ≠ cache) :
    (answer caches ⟨cache, action⟩).2.get? other = caches.get? other := by
  rcases served : caches.get? cache with _ | store
  · rw [answer_of_not_served served]
  · rw [answer_of_served served, Table.get?_insert, if_neg ne]

end Service

namespace Handle

variable {α : Type} {handle : Handle} {network : Network} {now : Nat} {connection : Connection}
  {listener : Listener} {action : Request.Action}

/-- An operation by a call that is waited for: what it gives, and the network afterwards. -/
def operate (handle : Handle) (network : Network) (now : Nat) (operation : Operation α) :
    Option (Result α) × Network :=
  let exchange := handle.call network now .answered operation.action
  (exchange.result.map (operation.given handle.url), exchange.network)

/-- What becomes of a call in bytes: the frame of the request is the stream that the listener
serves, and the first frame of what it writes is read. -/
def throughFrames (handle : Handle) (caches : Table Store) (action : Request.Action) :
    Result Response × Table Store :=
  match Frame.write (Request.encode ⟨handle.cache, action⟩) with
  | .error error => (.error error, caches)
  | .ok stream =>
    let (frames, caches) := Service.serve caches stream
    let result := match Frame.read Response.decode? (frames.foldr (· ++ ·) ByteArray.empty) with
      | .frame (.ok response) _ => reading response
      | .frame (.error error) _ | .broken error => .error error
      | .finished => .error handle.closed
    (result, caches)

/-- The answer that comes first on the connection that is kept, for the request of an earlier
call. -/
def leftOver? (handle : Handle) : Option Response :=
  match handle.unread with
  | .answer response :: _ => some response
  | _ => none

/-- The listener runs at the other end of the connection that the handle has kept, or can open, and
has not waited on it for too long. -/
def Meets (handle : Handle) (network : Network) (now : Nat) (listener : Listener) : Prop :=
  ∃ connection, (handle.connection = some connection ∨
      handle.connection = none ∧ network.dial now handle.address = .ok connection) ∧
    network.listeners.get? handle.address = some listener ∧ listener.isRunning = true ∧
    listener.session = connection.session ∧ now - connection.lastUsed ≤ listener.socketTimeout

/-- Nothing more comes on the connection that is kept: a request was written to it in part, or the
listener has closed it. -/
def IsStuck (handle : Handle) : Prop :=
  .ended ∈ handle.unread

/-- The listener takes a request from the connection that the handle has kept, or can open. -/
structure Reaches (handle : Handle) (network : Network) (now : Nat) (listener : Listener) :
    Prop where
  meets : handle.Meets network now listener
  free : ¬handle.IsStuck

/-! ## The bytes of a call -/

theorem serve_frame {caches : Table Store} {request : Request} {stream : ByteArray}
    (written : Frame.write request.encode = .ok stream) :
    Service.serve caches stream =
      ((Frame.write (Service.answer caches request).1.encode).toOption.toList,
        (Service.answer caches request).2) := by
  have decodes := Frame.roundTrips Request.decode?_encode
  obtain ⟨n, -, -, size⟩ := decodes.bounded request stream written
  have read := decodes.reads_one request stream ByteArray.empty written
  have last (count : Nat) :
      (Frame.readAll Request.decode? count ByteArray.empty).1 = [] := by
    cases count <;> rfl
  have requests : (Frame.readAll Request.decode? stream.size stream).1 = [.ok request] := by
    rw [ByteArray.append_empty] at read
    rw [size, Nat.add_comm, Frame.readAll, read]
    dsimp only
    rw [last]
  rw [Service.serve, requests, Service.answerAll]
  dsimp only
  rcases Frame.write (Service.answer caches request).1.encode with error | frame <;> rfl

/-- In bytes a call comes to what its response does, if both fit in their frames. -/
theorem throughFrames_eq (handle : Handle) (caches : Table Store) (action : Request.Action) :
    handle.throughFrames caches action =
      (handle.outcome action (Service.answer caches ⟨handle.cache, action⟩).1,
        if Request.fits ⟨handle.cache, action⟩ then
          (Service.answer caches ⟨handle.cache, action⟩).2
        else caches) := by
  unfold throughFrames outcome Request.fits
  rcases written : Frame.write (Request.encode ⟨handle.cache, action⟩) with error | stream
  · rfl
  dsimp only
  rw [serve_frame written]
  rcases answered : Frame.write (Service.answer caches ⟨handle.cache, action⟩).1.encode with
    error | frame
  · rfl
  · have read :=
      (Frame.roundTrips Response.decode?_encode).reads_one _ frame ByteArray.empty answered
    dsimp only [Except.toOption, Option.toList, List.foldr]
    rw [read]
    rfl

/-! ## A call that gets through -/

theorem Meets.stored? (meets : handle.Meets network now listener) (cache : String) :
    network.stored? handle.address cache = listener.caches.get? cache := by
  obtain ⟨connection, -, known, -⟩ := meets
  rw [Network.stored?, known]
  rfl

/-- A call goes over a connection with nothing more to read than the handle has, and gets through to
the listener unless the connection is stuck. -/
theorem Meets.call_eq (meets : handle.Meets network now listener) (action : Request.Action) :
    ∃ connection, connection.unread = handle.unread ∧
      (¬handle.IsStuck → network.accepting? now handle.address connection = some listener) ∧
      (handle.IsStuck → network.accepting? now handle.address connection = none) ∧
      handle.call network now .answered action =
        handle.exchange network now .answered connection action := by
  obtain ⟨connection, open_, known, running, same, prompt⟩ := meets
  have unread : connection.unread = handle.unread := by
    obtain kept | ⟨closed, dialled⟩ := open_
    · rw [Handle.unread, kept]
      rfl
    · rw [unread_of_dial dialled, Handle.unread, closed]
      rfl
  refine ⟨connection, unread, fun free => ?_, fun stuck => ?_, ?_⟩
  · rw [IsStuck, ← unread] at free
    simp [Network.accepting?, known, Option.filter, running, same, prompt, free]
  · rw [IsStuck, ← unread] at stuck
    simp [Network.accepting?, known, Option.filter, stuck]
  · obtain kept | ⟨closed, dialled⟩ := open_
    · simp only [call, kept]
    · simp only [call, closed, dialled]

theorem exchange_result
    (accepted : network.accepting? now handle.address connection = some listener)
    (read : connection.unread = []) :
    (handle.exchange network now .answered connection action).result =
      some (handle.outcome action (Service.answer listener.caches ⟨handle.cache, action⟩).1) := by
  unfold exchange outcome proceed ask
  rw [accepted, read]
  rcases Frame.write (Request.encode ⟨handle.cache, action⟩) with error | stream
  · rfl
  dsimp only [List.nil_append]
  rcases Frame.write (Service.answer listener.caches ⟨handle.cache, action⟩).1.encode with
    error | frame <;> rfl

theorem Reaches.call_network (reaches : handle.Reaches network now listener)
    (action : Request.Action) :
    (handle.call network now .answered action).network =
      { network with
        listeners := network.listeners.insert handle.address { listener with
          caches := (handle.throughFrames listener.caches action).2 } } := by
  obtain ⟨connection, -, accepts, -, made⟩ := reaches.meets.call_eq action
  have accepted := accepts reaches.free
  obtain ⟨held, -⟩ := Option.filter_eq_some_iff.1 accepted
  rw [made, exchange_network accepted, throughFrames_eq]
  dsimp only
  split
  · rfl
  · rw [Table.insert_held held]

theorem Reaches.call_result (reaches : handle.Reaches network now listener)
    (read : handle.unread = []) (action : Request.Action) :
    (handle.call network now .answered action).result =
      some (handle.throughFrames listener.caches action).1 := by
  obtain ⟨connection, same, accepts, -, made⟩ := reaches.meets.call_eq action
  rw [made, exchange_result (accepts reaches.free) (same.trans read), throughFrames_eq]

theorem Meets.call_network_of_stuck (meets : handle.Meets network now listener)
    (stuck : handle.IsStuck) (action : Request.Action) :
    (handle.call network now .answered action).network = network := by
  obtain ⟨connection, -, -, refuses, made⟩ := meets.call_eq action
  rw [made, exchange]
  split
  · rfl
  · simp only [proceed, ask, refuses stuck, receive_network]

theorem stored?_of_insert (network : Network) (listener : Listener) (caches : Table Store)
    (address other cache : String) :
    { network with
      listeners := network.listeners.insert address { listener with caches } }.stored? other cache =
      if other = address then caches.get? cache else network.stored? other cache := by
  unfold Network.stored?
  rw [Table.get?_insert]
  split <;> rfl

theorem stored?_operate (reaches : handle.Reaches network now listener) (operation : Operation α)
    (address cache : String) :
    (handle.operate network now operation).2.stored? address cache =
      if address = handle.address then
        (handle.throughFrames listener.caches operation.action).2.get? cache
      else network.stored? address cache := by
  rw [operate, reaches.call_network]
  exact stored?_of_insert ..

theorem operate_result (reaches : handle.Reaches network now listener)
    (read : handle.unread = []) (operation : Operation α) :
    (handle.operate network now operation).1 =
      some (operation.given handle.url
        (handle.throughFrames listener.caches operation.action).1) := by
  rw [operate, reaches.call_result read]
  rfl

/-- What an operation gives if something is left to be read before its own answer: what the answer
left over says, or a failure if that is to another question or no whole answer. -/
theorem operate_result_of_left (meets : handle.Meets network now listener)
    (left : handle.unread ≠ []) (operation : Operation α)
    (request : Request.fits ⟨handle.cache, operation.action⟩ = true) :
    (∃ value, handle.leftOver?.bind operation.reply? = some value ∧
      (handle.operate network now operation).1 = some (.ok value)) ∨
    handle.leftOver?.bind operation.reply? = none ∧
      ∃ reason, (handle.operate network now operation).1 = some (.error (.remote reason)) := by
  obtain ⟨connection, same, -, -, made⟩ := meets.call_eq operation.action
  rw [operate, made, exchange_of_fits request, proceed, same, leftOver?]
  rcases first : handle.unread with _ | ⟨incoming, rest⟩
  · exact absurd first left
  cases incoming with
  | answer response =>
    obtain ⟨value, said, given⟩ | ⟨said, reason, given⟩ :=
      operation.given_reading handle.url response
    · exact .inl ⟨value, said, congrArg some given⟩
    · exact .inr ⟨said, reason, congrArg some given⟩
  | rest => exact .inr ⟨rfl, _, rfl⟩
  | ended => exact .inr ⟨rfl, _, rfl⟩

theorem outcome_notServed (handle : Handle) (action : Request.Action) :
    ∃ reason, handle.outcome action (Service.notServed handle.cache) = .error (.remote reason) := by
  unfold outcome
  split
  next error failed =>
    unfold Frame.write at failed
    dsimp only at failed
    split at failed
    · cases failed
    · obtain rfl := Except.error.inj failed
      exact ⟨_, rfl⟩
  next => exact ⟨_, rfl⟩
  next => exact ⟨_, rfl⟩

theorem stored?_operate_of_served (reaches : handle.Reaches network now listener)
    {operation : Operation α} {store : Store}
    (served : listener.caches.get? handle.cache = some store)
    (request : Request.fits ⟨handle.cache, operation.action⟩ = true) :
    (handle.operate network now operation).2.stored? handle.address handle.cache =
      some (operation.on store).2 := by
  rw [stored?_operate reaches, if_pos rfl, throughFrames_eq, Service.answer_of_served served,
    if_pos request, (operation.perform_action store).1, Table.get?_insert, if_pos rfl]

theorem operate_result_of_served (reaches : handle.Reaches network now listener)
    (read : handle.unread = []) {operation : Operation α} {store : Store}
    (served : listener.caches.get? handle.cache = some store)
    (request : Request.fits ⟨handle.cache, operation.action⟩ = true)
    (answer : (Service.perform store operation.action).1.fits = true) :
    (handle.operate network now operation).1 = some (.ok (operation.on store).1) := by
  rw [operate_result reaches read, throughFrames_eq, Service.answer_of_served served,
    outcome_of_fits request answer, (operation.perform_action store).2]

theorem operate_result_of_not_served (reaches : handle.Reaches network now listener)
    (read : handle.unread = []) (operation : Operation α)
    (absent : listener.caches.get? handle.cache = none) :
    ∃ reason, (handle.operate network now operation).1 = some (.error (.remote reason)) := by
  obtain ⟨reason, failed⟩ := handle.outcome_notServed operation.action
  refine ⟨reason, ?_⟩
  rw [operate_result reaches read, throughFrames_eq, Service.answer_of_not_served absent, failed]
  rfl

theorem stored?_operate_of_ne (reaches : handle.Reaches network now listener)
    (operation : Operation α) {address cache : String}
    (other : listener.caches.get? handle.cache = none ∨
      (address, cache) ≠ (handle.address, handle.cache)) :
    (handle.operate network now operation).2.stored? address cache =
      network.stored? address cache := by
  rw [stored?_operate reaches, throughFrames_eq]
  split
  next same =>
    subst same
    rw [reaches.meets.stored?]
    dsimp only
    split
    · rcases other with absent | other
      · rw [Service.answer_of_not_served absent]
      · exact Service.get?_answer_of_ne fun same => other (same ▸ rfl)
    · rfl
  next => rfl

/-! ## Handles that have made calls -/

section Leftovers

variable {address cache : String} {timeout : Nat} {history : History}

theorem History.Sound.unread_eq_nil_iff (h : history.Sound address cache timeout) :
    history.handle.unread = [] ↔ history.lag = 0 := by
  obtain ⟨answered, due, -, length, brought⟩ := h.due
  rw [← length, brought.length_eq, List.length_eq_zero_iff]

/-- An answer left over is to the request that was made as many calls ago as were abandoned. -/
theorem History.Sound.exists_of_leftOver (h : history.Sound address cache timeout)
    {response : Response} (left : history.handle.leftOver? = some response) :
    ∃ asked, history.calls[history.calls.length - history.lag]? = some asked ∧
      asked.IsAnsweredWith address cache response := by
  obtain ⟨answered, due, calls, length, brought⟩ := h.due
  unfold leftOver? at left
  split at left
  next first rest unread =>
    obtain rfl := Option.some.inj left
    rw [unread] at brought
    obtain ⟨asked, later, brings, -, rfl⟩ := List.forall₂_cons_right_iff.1 brought
    refine ⟨asked, ?_, brings first rfl⟩
    rw [calls, ← length, List.length_append, Nat.add_sub_cancel,
      List.getElem?_append_right (Nat.le_refl _), Nat.sub_self]
    rfl
  next => cases left

end Leftovers

/-! ## What is given and what is left -/

theorem Meets.reaches (meets : handle.Meets network now listener) (read : handle.unread = []) :
    handle.Reaches network now listener where
  meets := meets
  free stuck := by
    rw [IsStuck, read] at stuck
    cases stuck

/-- An operation leaves what it leaves on the store itself exactly if the connection is not stuck,
or nothing changes. -/
theorem stored?_operate_iff (meets : handle.Meets network now listener) {operation : Operation α}
    {store : Store} (served : listener.caches.get? handle.cache = some store)
    (request : Request.fits ⟨handle.cache, operation.action⟩ = true) :
    (handle.operate network now operation).2.stored? handle.address handle.cache =
      some (operation.on store).2 ↔ ¬handle.IsStuck ∨ (operation.on store).2 = store := by
  by_cases stuck : handle.IsStuck
  · rw [operate, meets.call_network_of_stuck stuck, meets.stored?, served, Option.some.injEq,
      or_iff_right (not_not_intro stuck), eq_comm]
  · exact iff_of_true (stored?_operate_of_served ⟨meets, stuck⟩ served request) (.inl stuck)

theorem operate_result_iff_of_served (meets : handle.Meets network now listener)
    {operation : Operation α} {store : Store}
    (served : listener.caches.get? handle.cache = some store)
    (request : Request.fits ⟨handle.cache, operation.action⟩ = true)
    (answer : (Service.perform store operation.action).1.fits = true) :
    (handle.operate network now operation).1 = some (.ok (operation.on store).1) ↔
      handle.unread = [] ∨
        handle.leftOver?.bind operation.reply? = some (operation.on store).1 := by
  rcases eq_or_ne handle.unread [] with read | left
  · exact iff_of_true (operate_result_of_served (meets.reaches read) read served request answer)
      (.inl read)
  -- What is left is read in place of the answer, so only what it says counts.
  rw [or_iff_right left]
  obtain ⟨value, said, gave⟩ | ⟨said, reason, gave⟩ :=
    operate_result_of_left meets left operation request
  · rw [gave, said, Option.some.injEq, Option.some.injEq, Except.ok.injEq]
  · rw [gave, said]
    exact iff_of_false nofun nofun

theorem operate_result_iff_of_not_served (meets : handle.Meets network now listener)
    {operation : Operation α} (absent : listener.caches.get? handle.cache = none)
    (request : Request.fits ⟨handle.cache, operation.action⟩ = true) :
    (∃ reason, (handle.operate network now operation).1 = some (.error (.remote reason))) ↔
      handle.unread = [] ∨ handle.leftOver?.bind operation.reply? = none := by
  rcases eq_or_ne handle.unread [] with read | left
  · exact iff_of_true (operate_result_of_not_served (meets.reaches read) read operation absent)
      (.inl read)
  rw [or_iff_right left]
  obtain ⟨value, said, gave⟩ | ⟨said, reason, gave⟩ :=
    operate_result_of_left meets left operation request
  · rw [gave, said]
    exact iff_of_false nofun nofun
  · exact iff_of_true ⟨reason, gave⟩ said

theorem stored?_operate_of_other (meets : handle.Meets network now listener)
    (operation : Operation α) {address cache : String}
    (other : listener.caches.get? handle.cache = none ∨
      (address, cache) ≠ (handle.address, handle.cache)) :
    (handle.operate network now operation).2.stored? address cache =
      network.stored? address cache := by
  by_cases stuck : handle.IsStuck
  · rw [operate, meets.call_network_of_stuck stuck]
  · exact stored?_operate_of_ne ⟨meets, stuck⟩ operation other

/-- Whatever calls a handle has made, an operation within the limit of a frame on a cache of a
listener that runs leaves the store there as the operation on the store itself does exactly if the
connection is not stuck, or nothing changes. No other store is touched, and none at all if the cache
is not served. What the operation gives is what it gives on the store, or a failure if there is
none, exactly if no call over the connection was abandoned, or the answer that is left over from the
first such calls happens to say the same. Over a connection with no abandoned call, all is as the
frames of the request and the response bring it about. -/
theorem remote_operations_refine_local_iff (url : String) (timeout : Nat) (fresh : Handle)
    (made : ofUrl url timeout = .ok fresh) (turns : List Turn) (network : Network) (now : Nat)
    (listener : Listener)
    (meets : (History.run { handle := fresh } turns).handle.Meets network now listener)
    {α : Type} (operation : Operation α) :
    let history := History.run { handle := fresh } turns
    let handle := history.handle
    let done := handle.operate network now operation
    let through := handle.throughFrames listener.caches operation.action
    (Request.fits ⟨handle.cache, operation.action⟩ = true →
      (∀ store, listener.caches.get? handle.cache = some store →
        (done.2.stored? handle.address handle.cache = some (operation.on store).2 ↔
          ¬handle.IsStuck ∨ (operation.on store).2 = store) ∧
        ((Service.perform store operation.action).1.fits = true →
          (done.1 = some (.ok (operation.on store).1) ↔ history.lag = 0 ∨
            handle.leftOver?.bind operation.reply? = some (operation.on store).1))) ∧
      (listener.caches.get? handle.cache = none →
        ((∃ reason, done.1 = some (.error (.remote reason))) ↔ history.lag = 0 ∨
          handle.leftOver?.bind operation.reply? = none))) ∧
    (∀ address cache, listener.caches.get? handle.cache = none ∨
      (address, cache) ≠ (handle.address, handle.cache) →
        done.2.stored? address cache = network.stored? address cache) ∧
    (∀ response, handle.leftOver? = some response → ∃ asked,
      history.calls[history.calls.length - history.lag]? = some asked ∧
        asked.IsAnsweredWith fresh.address fresh.cache response) ∧
    (history.lag = 0 → ¬handle.IsStuck ∧
      done.1 = some (operation.given handle.url through.1) ∧
      (∀ cache, done.2.stored? handle.address cache = through.2.get? cache) ∧
      (listener.caches.get? handle.cache = none →
        ∃ reason, done.1 = some (.error (.remote reason)))) := by
  intro history handle done through
  obtain ⟨address, cache, -, start⟩ := History.sound_start made
  have sound : history.Sound address cache timeout := start.run turns
  have read : handle.unread = [] ↔ history.lag = 0 := sound.unread_eq_nil_iff
  refine ⟨fun request => ⟨fun store served => ⟨?_, fun answer => ?_⟩, fun absent => ?_⟩,
    fun address cache other => ?_, fun response left => ?_, fun whole => ?_⟩
  · exact stored?_operate_iff meets served request
  · rw [← read]
    exact operate_result_iff_of_served meets served request answer
  · rw [← read]
    exact operate_result_iff_of_not_served meets absent request
  · exact stored?_operate_of_other meets operation other
  · rw [start.address_eq, start.cache_eq]
    exact sound.exists_of_leftOver left
  · have reaches := meets.reaches (read.2 whole)
    exact ⟨reaches.free, operate_result reaches (read.2 whole) operation,
      fun cache => (stored?_operate reaches operation _ cache).trans (if_pos rfl),
      operate_result_of_not_served reaches (read.2 whole) operation⟩

/-- A listener with two caches that hold the same. -/
def twinKeeper : Listener :=
  { keeper with
    caches := .ofList [("c", Store.put ∅ ⟨"a", [], 1, 0⟩), ("d", Store.put ∅ ⟨"a", [], 1, 0⟩)] }

def twins : Network where
  listeners := .ofList [("127.0.0.1:4000", twinKeeper)]

def stalling : Turn where
  network := twins
  now := 0
  action := .keys
  timing := ⟨0, 2000, 0, 0, 0, none⟩

def serving (caches : Table Store) : Network where
  listeners := .ofList [("127.0.0.1:4000", { keeper with caches })]

def writing : Turn :=
  { removing "a" 300 0 with timing := ⟨300, 0, 800, 0, 0, some 1000⟩ }

theorem run_writing : (History.run { handle := patient } [writing]).handle =
    { patient with connection := some { session := 0, lastUsed := 0, unread := [.ended] } } := by
  have written : patient.make writing =
      patient.proceed oneKey 0 (.dropped .writing) { session := 0, lastUsed := 0 } (.remove "a") :=
    exchange_of_fits (fits_removal size_a true).1
  exact congrArg Exchange.handle written

/-- After a call that timed out, a removal finds its key in one cache and leaves the other alone.
After one that its caller gave up, a removal is told that its key was there, whether the cache is
empty by then or not served any more; after one that was given up while it was written, a removal is
not made. -/
theorem removal_after_abandoned_removal :
    (let handle := (History.run { handle := patient } [stalling]).handle
      let done := handle.operate twins 1000 (.remove "a")
      done.1 = some (.ok true) ∧ done.2.stored? patient.address "c" = some ∅ ∧
        done.2.stored? patient.address "d" = some (Store.put ∅ ⟨"a", [], 1, 0⟩)) ∧
    (let history := History.run { handle := patient } [removing "a" 300 800]
      let removal := Operation.remove "b"
      let empty := serving (.ofList [("c", ∅)])
      history.lag = 1 ∧ (patient.make (removing "a" 300 800)).network = empty ∧
        (history.handle.operate empty 1000 removal).1 = some (.ok true) ∧
        removal.on ∅ = (false, ∅) ∧
        ¬(history.handle.operate empty 1000 removal).1 = some (.ok (removal.on ∅).1) ∧
        ¬∃ reason, (history.handle.operate (serving ∅) 1000 removal).1 =
          some (.error (.remote reason))) ∧
    let handle := (History.run { handle := patient } [writing]).handle
    let store := Store.put ∅ ⟨"a", [], 1, 0⟩
    ¬(handle.operate oneKey 1000 (.remove "a")).2.stored? handle.address handle.cache =
      some ((Operation.remove "a").on store).2 := by
  refine ⟨?_, ?_, ?_⟩
  · intro handle done
    have dialled : twins.dial 1000 handle.address = .ok { session := 0, lastUsed := 1000 } :=
      Network.dial_eq_ok_iff.2 ⟨⟨by decide +kernel, rfl⟩, _, rfl, rfl, rfl⟩
    have meets : handle.Meets twins 1000 twinKeeper :=
      ⟨_, .inr ⟨rfl, dialled⟩, rfl, rfl, rfl, by decide⟩
    have fits := fits_removal size_a true
    obtain ⟨results, others, -⟩ := remote_operations_refine_local_iff patient.url 1000
      patient rfl [stalling] twins 1000 twinKeeper meets (.remove "a")
    obtain ⟨left, given⟩ := (results fits.1).1 (Store.put ∅ ⟨"a", [], 1, 0⟩) rfl
    refine ⟨(given fits.2).2 (.inl rfl), (left.2 (.inl ?_)).trans rfl, ?_⟩
    · exact List.not_mem_nil
    · exact (others patient.address "d" (.inr (by decide))).trans rfl
  · intro history removal empty
    have lag : history.lag = 1 := lag_removing
    have handle : history.handle = { patient with
        connection := some { session := 0, lastUsed := 0, unread := [.answer (.removed true)] } } :=
      (congrArg History.handle run_removing).trans left_after_removal
    have meets (caches : Table Store) :
        history.handle.Meets (serving caches) 1000 { keeper with caches } := by
      rw [handle]
      exact ⟨_, .inl rfl, rfl, rfl, rfl, show 1000 ≤ keeper.socketTimeout by decide⟩
    have fits : Request.fits ⟨history.handle.cache, removal.action⟩ = true ∧
        (Service.perform ∅ removal.action).1.fits = true := by
      rw [handle]
      exact fits_removal size_b false
    have told : history.handle.leftOver?.bind removal.reply? = some true := by
      rw [handle]
      rfl
    obtain ⟨results, -⟩ := remote_operations_refine_local_iff patient.url 1000 patient rfl
      [removing "a" 300 800] empty 1000 _ (meets _) removal
    obtain ⟨results', -⟩ := remote_operations_refine_local_iff patient.url 1000 patient rfl
      [removing "a" 300 800] (serving ∅) 1000 _ (meets _) removal
    refine ⟨lag, ?_, ?_, rfl, fun same => ?_, fun fails => ?_⟩
    · rw [make_removing]
      rfl
    · obtain ⟨value, said, gave⟩ | ⟨said, -⟩ := operate_result_of_left (meets _)
        (by rw [handle]; exact List.cons_ne_nil _ _) removal fits.1
      · obtain rfl := Option.some.inj (told.symm.trans said)
        exact gave
      · cases told.symm.trans said
    · obtain whole | said := (((results fits.1).1 ∅ (by rw [handle]; rfl)).2 fits.2).1 same
      · cases lag.symm.trans whole
      · cases told.symm.trans said
    · obtain whole | said := ((results' fits.1).2 (by rw [handle]; rfl)).1 fails
      · cases lag.symm.trans whole
      · cases told.symm.trans said
  · intro handle store carriedOut
    have fits := (fits_removal size_a true).1
    have left : handle = { patient with
        connection := some { session := 0, lastUsed := 0, unread := [.ended] } } := run_writing
    have meets : handle.Meets oneKey 1000 keeper := by
      rw [left]
      exact ⟨_, .inl rfl, rfl, rfl, rfl, by decide⟩
    have stuck : handle.IsStuck := by
      rw [left]
      exact List.mem_singleton_self _
    obtain ⟨results, -⟩ := remote_operations_refine_local_iff patient.url 1000 patient rfl [writing]
      oneKey 1000 keeper meets (.remove "a")
    have request : Request.fits ⟨handle.cache, .remove "a"⟩ = true := by
      rw [left]
      exact fits
    have served : keeper.caches.get? handle.cache = some store := by
      rw [left]
      rfl
    obtain free | same := ((results request).1 store served).1.1 carriedOut
    · exact free stuck
    · cases congrArg (·.get? "a") same

end Handle

end CacheCluster
