import Mathlib.Data.List.Basic
import Mathlib.Data.List.Flatten
import CacheCluster.Proofs.Flusher
import CacheCluster.Replication.Fanout

/-! # What one peer is sent

For each batch of its cache a peer gets at most one call, with all messages of the batch. So the
calls to it carry a subsequence of the messages of the queue, one call after the other, and the
whole sequence when every look-up finds it.
-/

namespace CacheCluster

open scoped List

/-! ## Look-ups -/

namespace Fanout

theorem le_latest (start : Nat) (times : List Nat) : start ≤ latest start times := by
  induction times generalizing start with
  | nil => exact le_rfl
  | cons time times ih => exact (Nat.le_max_left start time).trans (ih _)

theorem le_latest_of_mem {start time : Nat} {times : List Nat} (h : time ∈ times) :
    time ≤ latest start times := by
  induction times generalizing start with
  | nil => simp at h
  | cons first times ih =>
    rcases List.mem_cons.1 h with rfl | h
    · exact (Nat.le_max_right start time).trans (le_latest _ _)
    · exact ih h

theorem latest_le {start bound : Nat} {times : List Nat} (le : start ≤ bound)
    (all : ∀ time ∈ times, time ≤ bound) : latest start times ≤ bound := by
  induction times generalizing start with
  | nil => exact le
  | cons time times ih =>
    obtain ⟨first, rest⟩ := List.forall_mem_cons.1 all
    exact ih (Nat.max_le.2 ⟨le, first⟩) rest

end Fanout

namespace Neighbours

variable {neighbours : Neighbours} {time : Nat} {url cache : String}

/-- A look-up at some time finds a url that is live, not the node's own, and answers in time. -/
structure Finds (neighbours : Neighbours) (time : Nat) (url : String) : Prop where
  live : url ∈ neighbours.registry.live time
  notLocal : url ∉ neighbours.localUrls
  answers : (neighbours.mesh.connect time url).succeedsWithin neighbours.lookupTimeout = true

theorem mem_found_iff :
    url ∈ (neighbours.lookUp time cache).found ↔
      PeerUrl.cacheName url = cache ∧ neighbours.Finds time url := by
  simp only [lookUp, lookUpAll, urlsFor, PeerUrl.isFor, List.mem_filter, Bool.and_eq_true,
    beq_iff_eq, Bool.not_eq_true', List.contains_eq_mem, decide_eq_false_iff_not]
  constructor
  · rintro ⟨⟨live, named, notLocal⟩, answers⟩
    exact ⟨named, live, notLocal, answers⟩
  · rintro ⟨named, live, notLocal, answers⟩
    exact ⟨⟨live, named, notLocal⟩, answers⟩

theorem nodup_found (neighbours : Neighbours) (time : Nat) (cache : String) :
    (neighbours.lookUp time cache).found.Nodup := by
  have live : (neighbours.registry.live time).Nodup :=
    (Table.sorted_names _).imp String.ne_of_lt
  exact (live.filter _).filter _

theorem le_finish_lookUp (neighbours : Neighbours) (time : Nat) (cache : String) :
    time ≤ (neighbours.lookUp time cache).finish := by
  have h := Fanout.le_latest time ((neighbours.urlsFor time cache).map fun url =>
    time + (neighbours.mesh.connect time url).duration neighbours.lookupTimeout)
  rw [Fanout.latest, List.foldl_map] at h
  exact h

end Neighbours

/-! ## Calls to one peer -/

namespace Delivery

def callsTo (url : String) (calls : List Delivery) : List Delivery :=
  calls.filter (·.url == url)

theorem callsTo_flatMap {α : Type} (url : String) (items : List α) (calls : α → List Delivery) :
    callsTo url (items.flatMap calls) = items.flatMap fun item => callsTo url (calls item) :=
  List.filter_flatMap

@[simp] theorem callsTo_append (url : String) (first second : List Delivery) :
    callsTo url (first ++ second) = callsTo url first ++ callsTo url second :=
  List.filter_append ..

theorem mem_callsTo_iff {url : String} {call : Delivery} {calls : List Delivery} :
    call ∈ callsTo url calls ↔ call ∈ calls ∧ call.url = url := by
  simp [callsTo]

theorem callsTo_cut (url : String) (time : Nat) (calls : List Delivery) :
    callsTo url (calls.map (cutAfter time)) = (callsTo url calls).map (cutAfter time) := by
  simp only [callsTo, List.filter_map]
  rfl

/-- A url that is called once at most has no call or a single one. -/
theorem callsTo_of_nodup {calls : List Delivery} (nodup : (calls.map (·.url)).Nodup)
    (url : String) :
    (callsTo url calls = [] ∧ ∀ call ∈ calls, call.url ≠ url) ∨
      ∃ call ∈ calls, call.url = url ∧ callsTo url calls = [call] := by
  rcases calls' : callsTo url calls with _ | ⟨call, others⟩
  · refine .inl ⟨rfl, fun call mem same => ?_⟩
    have : call ∈ callsTo url calls := mem_callsTo_iff.2 ⟨mem, same⟩
    rw [calls'] at this
    exact absurd this List.not_mem_nil
  · have called {other : Delivery} (mem : other ∈ call :: others) : other.url = url :=
      (mem_callsTo_iff.1 (calls' ▸ mem)).2
    have sublist : call :: others <+ calls := calls' ▸ List.filter_sublist
    rcases others with _ | ⟨other, others⟩
    · exact .inr ⟨call, sublist.subset List.mem_cons_self, called List.mem_cons_self, rfl⟩
    · have distinct := (sublist.map (·.url)).nodup nodup
      rw [List.map_cons, List.map_cons, List.nodup_cons, called List.mem_cons_self,
        called (List.mem_cons_of_mem _ List.mem_cons_self)] at distinct
      exact absurd List.mem_cons_self distinct.1

theorem over_cutAfter {timeout time : Nat} {call : Delivery} (h : call.over timeout ≤ time) :
    Delivery.over timeout (call.cutAfter time) = call.over timeout := by
  rcases call with ⟨url, start, action, _ | finish, result, turn⟩
  · rfl
  · have : finish ≤ time := h
    simp [cutAfter, Delivery.over, Option.filter, this]

/-- Calls that carry some messages of a sequence in its order, each call over before the next. -/
structure Orderly (timeout : Nat) (messages : List Message) (calls : List Delivery) : Prop where
  subsequence : calls.flatMap Delivery.messages <+ messages
  apart : calls.Pairwise fun call next => call.over timeout ≤ next.start

theorem Orderly.mono {timeout : Nat} {messages more : List Message} {calls : List Delivery}
    (h : Orderly timeout messages calls) (sub : messages <+ more) : Orderly timeout more calls :=
  ⟨h.subsequence.trans sub, h.apart⟩

theorem orderly_nil (timeout : Nat) (messages : List Message) : Orderly timeout messages [] :=
  ⟨List.nil_sublist _, .nil⟩

theorem Orderly.concat {timeout : Nat} {messages : List Message} {calls : List Delivery}
    {call : Delivery} (h : Orderly timeout messages calls)
    (behind : ∀ before ∈ calls, before.over timeout ≤ call.start) :
    Orderly timeout (messages ++ call.messages) (calls ++ [call]) := by
  constructor
  · rw [List.flatMap_append, List.flatMap_singleton]
    exact h.subsequence.append_right _
  · rw [List.pairwise_append]
    refine ⟨h.apart, List.pairwise_singleton _ _, ?_⟩
    rintro before mem _ (_ | ⟨_, ⟨⟩⟩)
    exact behind before mem

end Delivery

/-! ## Batches -/

namespace Flush

open Delivery

variable {timeout : Nat} {cache url : String} {flush : Flush Fanout}

def calls (flush : Flush Fanout) : List Delivery :=
  (flush.work.map Fanout.deliveries).getD []

/-- A batch is looked up for before it is sent, and sent with one call to each of some peers of its
cache; it is over when all the calls are. -/
inductive Proper (timeout : Nat) (cache : String) : Flush Fanout → Prop
  | looking {start : Nat} {events : List Event} {lookup : Lookup} (nodup : lookup.found.Nodup)
      (named : ∀ url ∈ lookup.found, PeerUrl.cacheName url = cache)
      (waits : start ≤ lookup.finish) :
    Proper timeout cache
      ⟨start, ⟨cache, events⟩, some (.looking (Batch.messages ⟨cache, events⟩) lookup), none⟩
  | sending {start due : Nat} {events : List Event} {calls : List Delivery} {finish : Option Nat}
      (nodup : (calls.map (·.url)).Nodup)
      (named : ∀ call ∈ calls, PeerUrl.cacheName call.url = cache)
      (asked : ∀ call ∈ calls, call.action = .send (Batch.messages ⟨cache, events⟩))
      (waited : ∀ call ∈ calls, start ≤ call.start)
      (bounded : ∀ call ∈ calls, call.over timeout ≤ due)
      (ended : ∀ time ∈ finish, due ≤ time) :
    Proper timeout cache ⟨start, ⟨cache, events⟩, some (.sending calls due), finish⟩

/-- What the fan-out makes of a batch is proper from its first round to its last. -/
theorem maintains_proper (neighbours : Neighbours) (timeout : Nat) (cache : String) (size : Nat) :
    Queue.Maintains (Sink.fanout neighbours timeout) cache size 0
      fun _ => Proper timeout cache where
  begin {i time events work} _ _ _ started := by
    obtain rfl := Option.some.inj started
    unfold Fanout.ofBatch
    split
    · exact .sending .nil (by simp) (by simp) (by simp) (by simp) (by simp)
    · exact .looking (neighbours.nodup_found time cache)
        (fun url mem => (Neighbours.mem_found_iff.1 mem).1) (neighbours.le_finish_lookUp time cache)
  breakDown _ _ _ failed := by simp [Sink.fanout] at failed
  goOn {i start batch work work' time} holds due next := by
    cases holds with
    | looking nodup named waits =>
      obtain rfl := Option.some.inj next
      refine .sending ?_ ?_ ?_ ?_ ?_ (by simp)
      · rw [List.map_map]
        exact (List.map_id'' (fun _ => rfl) _).symm ▸ nodup
      all_goals
        intro call mem
        obtain ⟨url, found, rfl⟩ := List.mem_map.1 mem
      · exact named url found
      · rfl
      · exact waits.trans due
      · exact Fanout.le_latest_of_mem (List.mem_map_of_mem mem)
    | sending => simp [Sink.fanout] at next
  finish {i start batch work time} holds due noMore := by
    cases holds with
    | looking => simp [Sink.fanout] at noMore
    | sending nodup named asked waited bounded _ =>
      refine .sending nodup named asked waited bounded ?_
      rintro _ ⟨⟩
      exact due

/-- One peer is called at most once for a batch, with all its messages and before the batch is
over. -/
theorem Proper.callsTo (h : Proper timeout cache flush) (url : String) :
    callsTo url flush.calls = [] ∨
      ∃ call, callsTo url flush.calls = [call] ∧
        PeerUrl.cacheName url = cache ∧ call.messages = flush.batch.messages ∧
        flush.start ≤ call.start ∧ ∀ time ∈ flush.finish, call.over timeout ≤ time := by
  cases h with
  | looking => exact .inl rfl
  | sending nodup named asked waited bounded ended =>
    rcases callsTo_of_nodup nodup url with ⟨none, _⟩ | ⟨call, mem, rfl, one⟩
    · exact .inl none
    · refine .inr ⟨call, one, named call mem, ?_, waited call mem, fun time ht => ?_⟩
      · rw [messages, asked call mem]
      · exact (bounded call mem).trans (ended time ht)

theorem Proper.action_eq (h : Proper timeout cache flush) {call : Delivery}
    (mem : call ∈ flush.calls) : call.action = .send call.messages := by
  cases h with
  | looking => exact absurd mem List.not_mem_nil
  | sending nodup named asked => rw [messages, asked call mem]

theorem Proper.over_le (h : Proper timeout cache flush) :
    ∀ call ∈ flush.calls, ∀ time ∈ flush.finish, call.over timeout ≤ time := by
  cases h with
  | looking => exact fun _ made => absurd made List.not_mem_nil
  | sending _ _ _ _ bounded ended =>
    exact fun call made time isOver => (bounded call made).trans (ended time isOver)

theorem Proper.messages_sublist (h : Proper timeout cache flush) (url : String) :
    (Delivery.callsTo url flush.calls).flatMap messages <+ flush.batch.messages := by
  rcases h.callsTo url with none | ⟨call, one, _, same, _⟩
  · rw [none]
    exact List.nil_sublist _
  · rw [one, List.flatMap_singleton, same]

/-- A batch reaches a url that its look-up found, and one without messages has nothing to reach
it. -/
def Reaches (url : String) (flush : Flush Fanout) : Prop :=
  flush.batch.messages = [] ∨ ∃ work ∈ flush.work,
    match work with
    | .looking _ lookup => url ∈ lookup.found
    | .sending calls _ => ∃ call ∈ calls, call.url = url

/-- Of the batches from the place `first` on, those that find a url when they start reach it. -/
theorem maintains_reaches (neighbours : Neighbours) (timeout : Nat) (url : String)
    (size first : Nat) :
    Queue.Maintains (Sink.fanout neighbours timeout) (PeerUrl.cacheName url) size first
      fun i flush => flush.Reaches url ∨
        first ≤ i ∧ flush.batch.messages ≠ [] ∧ ¬ neighbours.Finds flush.start url where
  begin {i time events work} le _ _ started := by
    obtain rfl := Option.some.inj started
    by_cases silent : Batch.messages ⟨PeerUrl.cacheName url, events⟩ = []
    · exact .inl (.inl silent)
    · by_cases finds : neighbours.Finds time url
      · refine .inl (.inr ⟨_, rfl, ?_⟩)
        simpa [Fanout.ofBatch, silent, Neighbours.mem_found_iff] using finds
      · exact .inr ⟨le, silent, finds⟩
  breakDown _ _ _ failed := by simp [Sink.fanout] at failed
  goOn {i start batch work work' time} holds _ next := by
    rcases holds with (silent | ⟨_, ⟨⟩, found⟩) | missed
    · exact .inl (.inl silent)
    · cases work with
      | looking messages lookup =>
        obtain rfl := Option.some.inj next
        exact .inl (.inr ⟨_, rfl, _, List.mem_map_of_mem found, rfl⟩)
      | sending => simp [Sink.fanout] at next
    · exact .inr missed
  finish holds _ _ := holds

/-- A batch that reaches a peer of its cache has sent it all its messages when it is over. -/
theorem Proper.messages_eq (h : Proper timeout cache flush) (reaches : flush.Reaches url)
    (isOver : flush.finish.isSome) :
    (Delivery.callsTo url flush.calls).flatMap messages = flush.batch.messages := by
  rcases h.callsTo url with none | ⟨call, one, _, same, _⟩
  · rcases reaches with silent | reached
    · rw [none, silent]
      rfl
    · cases h with
      | looking => simp at isOver
      | sending =>
        obtain ⟨_, ⟨⟩, call, mem, called⟩ := reached
        have none := List.eq_nil_iff_forall_not_mem.1 none call
        exact absurd (mem_callsTo_iff.2 ⟨mem, called⟩) none
  · rw [one, List.flatMap_singleton, same]

end Flush

/-! ## Queues -/

namespace Queue

open Delivery

variable {timeout now limit : Nat} {cache url : String} {neighbours : Neighbours}
  {queue : Queue Fanout}

/-- A queue of a cache whose batches are proper and sent one after the other. -/
structure Kept (timeout : Nat) (cache : String) (queue : Queue Fanout) : Prop where
  named : queue.cache = cache
  tidy : queue.Tidy queue.seen
  proper : queue.Each fun _ => Flush.Proper timeout cache

def sentMessages (queue : Queue Fanout) : List Message :=
  (queue.batches.flatMap (·.events)).filterMap Event.message?

theorem sentMessages_eq (queue : Queue Fanout) :
    queue.sentMessages = queue.handedOver.flatMap (·.batch.messages) := by
  rw [sentMessages, List.filterMap_flatMap, batches, List.flatMap_map]
  rfl

theorem callsTo_deliveries (queue : Queue Fanout) (url : String) :
    callsTo url queue.deliveries =
      (queue.handedOver.flatMap fun flush => callsTo url flush.calls).map
        (cutAfter queue.seen) := by
  rw [deliveries, callsTo_cut, ← callsTo_flatMap]
  rfl

theorem messages_deliveries (queue : Queue Fanout) (url : String) :
    (callsTo url queue.deliveries).flatMap messages =
      queue.handedOver.flatMap fun flush => (callsTo url flush.calls).flatMap messages := by
  rw [callsTo_deliveries, List.flatMap_map, List.flatMap_assoc]
  rfl

theorem deliveries_conclude (queue : Queue Fanout) (now deadline : Nat) (metrics : Metrics) :
    (queue.conclude now deadline metrics).queue.deliveries = queue.deliveries := by
  unfold conclude
  split <;> rfl

/-- A peer is sent a subsequence of the messages of a queue, one call after the other. -/
theorem Kept.orderly (h : queue.Kept timeout cache) (url : String) :
    Orderly timeout queue.sentMessages (callsTo url queue.deliveries) := by
  have proper := each_iff_forall_mem.1 h.proper
  constructor
  · rw [messages_deliveries, sentMessages_eq]
    exact List.Sublist.flatMap_right _ fun flush mem => (proper flush mem).messages_sublist url
  · rw [callsTo_deliveries, List.pairwise_map, List.pairwise_flatMap]
    constructor
    · intro flush mem
      rcases (proper flush mem).callsTo url with none | ⟨call, one, _⟩
      · rw [none]
        exact .nil
      · rw [one]
        exact List.pairwise_singleton _ _
    · refine h.tidy.apart.imp_of_mem ?_
      rintro flush next memFlush memNext ⟨finish, hf, le⟩ call memCall other memOther
      have finished := (h.tidy.finished flush memFlush finish hf).2
      rcases (proper flush memFlush).callsTo url with none | ⟨_, one, _, _, _, bounded⟩
      · simp [none] at memCall
      rcases (proper next memNext).callsTo url with none | ⟨_, one', _, _, waited, _⟩
      · simp [none] at memOther
      rw [one, List.mem_singleton] at memCall
      rw [one', List.mem_singleton] at memOther
      subst memCall memOther
      have bounded := bounded finish hf
      rw [over_cutAfter (bounded.trans finished)]
      exact bounded.trans (le.trans waited)

theorem Kept.action_eq (h : queue.Kept timeout cache) {call : Delivery}
    (mem : call ∈ queue.deliveries) : call.action = .send call.messages := by
  obtain ⟨made, memMade, rfl⟩ := List.mem_map.1 mem
  obtain ⟨flush, known, memCalls⟩ := List.mem_flatMap.1 memMade
  have asked : made.action = .send made.messages :=
    (each_iff_forall_mem.1 h.proper flush known).action_eq memCalls
  exact asked

theorem Kept.callsTo_of_ne (h : queue.Kept timeout cache) (ne : PeerUrl.cacheName url ≠ cache) :
    callsTo url queue.deliveries = [] := by
  rw [callsTo_deliveries, List.map_eq_nil_iff, List.flatMap_eq_nil_iff]
  intro flush mem
  rcases (each_iff_forall_mem.1 h.proper flush mem).callsTo url with none | ⟨_, _, named, _⟩
  · exact none
  · exact absurd named ne

theorem Kept.cacheName_of_mem (h : queue.Kept timeout cache) {call : Delivery}
    (made : call ∈ queue.deliveries) : PeerUrl.cacheName call.url = cache := by
  by_contra ne
  have called : call ∈ callsTo call.url queue.deliveries := mem_callsTo_iff.2 ⟨made, rfl⟩
  rw [h.callsTo_of_ne ne] at called
  exact absurd called List.not_mem_nil

/-- A peer that every batch reached has been sent all messages of a queue that is idle. -/
theorem Kept.messages_eq (h : queue.Kept timeout cache)
    (reaches : queue.Each fun _ => Flush.Reaches url) (idle : queue.stage = .idle) :
    (callsTo url queue.deliveries).flatMap messages = queue.sentMessages := by
  have ended := h.tidy.ended (by simp [idle]) (by simp [idle])
  have same : queue.handedOver = queue.flushes := by
    simp [handedOver_eq, idle, Stage.underWay]
  rw [messages_deliveries, sentMessages_eq]
  refine List.flatMap_congr fun flush mem => ?_
  exact (each_iff_forall_mem.1 h.proper flush mem).messages_eq
    (each_iff_forall_mem.1 reaches flush mem) (ended flush (same ▸ mem))

/-! ## Time -/

theorem kept_start (timeout interval maxBatch : Nat) (cache : String) :
    ({ cache, interval, maxBatch } : Queue Fanout).Kept timeout cache where
  named := rfl
  tidy := ⟨by simp [handedOver], by simp [handedOver], .nil, by simp, by simp⟩
  proper := by simp [Each, handedOver]

theorem Kept.append (h : queue.Kept timeout cache) (isOpen : queue.closed = false) (event : Event) :
    (queue.append now event).Kept timeout cache where
  named := h.named
  tidy := h.tidy.append isOpen event
  proper := h.proper

theorem Kept.close (h : queue.Kept timeout cache) : queue.close.Kept timeout cache where
  named := h.named
  tidy := ⟨h.tidy.started, h.tidy.finished, h.tidy.apart, h.tidy.ended,
    fun time drained => ⟨rfl, (h.tidy.drained time drained).2⟩⟩
  proper := h.proper

theorem Kept.run (h : queue.Kept timeout cache) (seen : queue.seen ≤ now) (le : now ≤ limit)
    (metrics : Metrics) :
    (queue.run (.fanout neighbours timeout) now limit metrics).1.Kept timeout cache := by
  have kept := acts_preserves (.fanout neighbours timeout) limit
    (I := fun now queue => queue.cache = cache ∧ queue.Tidy now ∧
      queue.Each fun _ => Flush.Proper timeout cache)
    (fun le h => ⟨h.1, h.2.1.later le, h.2.2⟩)
    (fun {now time queue after} h le _ acted => by
      obtain ⟨rfl, tidy, proper⟩ := h
      refine ⟨acted.setup.1, tidy.act le acted, ?_⟩
      exact (Flush.maintains_proper neighbours timeout queue.cache _ |>.act proper
        (Nat.zero_le _) acted).1)
    metrics le ⟨h.named, h.tidy.later seen, h.proper⟩
  unfold Queue.run
  split
  · exact h
  · exact ⟨kept.1, kept.2.1.see limit, kept.2.2⟩

theorem reaches_run (named : queue.cache = PeerUrl.cacheName url) (le : now ≤ limit)
    (reaches : queue.Each fun _ => Flush.Reaches url) (metrics : Metrics)
    (finds : ∀ flush ∈ ((queue.run (.fanout neighbours timeout) now limit metrics).1.handedOver.drop
      queue.handedOver.length), flush.batch.messages ≠ [] → neighbours.Finds flush.start url) :
    (queue.run (.fanout neighbours timeout) now limit metrics).1.Each
      fun _ => Flush.Reaches url := by
  have kept := run_preserves (.fanout neighbours timeout) limit
    (I := fun _ ran => ran.cache = PeerUrl.cacheName url ∧
      (ran.Each fun i flush => flush.Reaches url ∨ queue.handedOver.length ≤ i ∧
        flush.batch.messages ≠ [] ∧ ¬ neighbours.Finds flush.start url) ∧
      queue.handedOver.length ≤ ran.handedOver.length)
    (fun _ h => h)
    (fun {now time before after} h _ _ acted => by
      obtain ⟨named, each, le⟩ := h
      have maintains := Flush.maintains_reaches neighbours timeout url before.fullSize
        queue.handedOver.length
      exact ⟨acted.setup.1.trans named, (named ▸ maintains).act each le acted⟩)
    (fun h => h) metrics le ⟨named, fun i flush hi => .inl (reaches i flush hi), le_rfl⟩
  intro i flush hi
  rcases kept.2.1 i flush hi with reached | ⟨new, speaks, missed⟩
  · exact reached
  · refine absurd (finds flush ?_ speaks) missed
    refine List.mem_of_getElem? (i := i - queue.handedOver.length) ?_
    rw [List.getElem?_drop, Nat.add_sub_cancel' new]
    exact hi

theorem sentMessages_sublist (queue : Queue Fanout) :
    queue.sentMessages <+ queue.events.filterMap Event.message? := by
  rw [events, List.filterMap_append]
  exact List.sublist_append_left _ _

theorem Kept.conclude (h : queue.Kept timeout cache) (began deadline : Nat) (metrics : Metrics) :
    (queue.conclude began deadline metrics).queue.Kept timeout cache := by
  have discarded (finish : Nat) : (queue.discard finish metrics).queue.Kept timeout cache :=
    ⟨h.named, h.tidy.discard finish metrics, h.proper⟩
  unfold Queue.conclude
  split
  · exact h
  · exact discarded _
  · exact discarded _

/-- A queue that has been shut down is in order, and nothing waits in it. -/
theorem Kept.shutdown (h : queue.Kept timeout cache) (isOpen : queue.closed = false)
    (seen : queue.seen ≤ now) (grace : Nat) (metrics : Metrics) :
    let closed := (queue.shutdown (.fanout neighbours timeout) grace now metrics).queue
    closed.Kept timeout cache ∧ closed.pending = [] := by
  have last (ended : Queue Fanout) (metrics : Metrics) (kept : ended.Kept timeout cache) :
      let closed := (ended.conclude now (now + grace) metrics).queue
      closed.Kept timeout cache ∧ closed.pending = [] := by
    refine ⟨kept.conclude _ _ metrics, ?_⟩
    obtain ⟨-, empty, same, -⟩ | ⟨finish, same⟩ :=
      conclude_cases kept.tidy now (now + grace) metrics
    · rw [same, empty]
    · rw [same]
      rfl
  unfold Queue.shutdown
  rw [if_neg (by simp [isOpen])]
  by_cases atOnce : grace = 0
  · rw [if_pos atOnce]
    exact last _ _ h.close
  · rw [if_neg atOnce]
    exact last _ _ (h.close.run seen (by omega) metrics)

theorem Kept.orderly_shutdown (h : queue.Kept timeout cache) (isOpen : queue.closed = false)
    (seen : queue.seen ≤ now) (grace : Nat) (metrics : Metrics) :
    let closed := (queue.shutdown (.fanout neighbours timeout) grace now metrics).queue
    (∀ url, Orderly timeout (queue.events.filterMap Event.message?)
      (callsTo url closed.deliveries)) ∧
      ∀ url, PeerUrl.cacheName url ≠ cache → callsTo url closed.deliveries = [] := by
  have last (ended : Queue Fanout) (metrics : Metrics) (kept : ended.Kept timeout cache)
      (events : ended.events = queue.events) :
      (∀ url, Orderly timeout (queue.events.filterMap Event.message?)
        (callsTo url (ended.conclude now (now + grace) metrics).queue.deliveries)) ∧
        ∀ url, PeerUrl.cacheName url ≠ cache →
          callsTo url (ended.conclude now (now + grace) metrics).queue.deliveries = [] := by
    rw [deliveries_conclude]
    exact ⟨fun url => (kept.orderly url).mono (events ▸ ended.sentMessages_sublist),
      fun url ne => kept.callsTo_of_ne ne⟩
  unfold Queue.shutdown
  rw [if_neg (by simp [isOpen])]
  by_cases atOnce : grace = 0
  · rw [if_pos atOnce]
    exact last _ _ h.close rfl
  · rw [if_neg atOnce]
    have le : now ≤ now + grace - 1 := by omega
    exact last _ _ (h.close.run seen le metrics) (run_keeps le metrics).1

end Queue

end CacheCluster
