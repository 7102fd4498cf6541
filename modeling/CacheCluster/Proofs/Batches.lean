import CacheCluster.Proofs.Loading
import CacheCluster.Proofs.Replica

/-! # Applying a batch

Of the messages of a batch, a store keeps for each key what the last one that concerns it leaves. So
batches with the same last words make the same of a store, and one that comes twice changes nothing
the second time.
-/

namespace CacheCluster

/-! ## Last words -/

namespace Message

variable {key : String} {messages : List Message}

/-- The message is the last one that concerns a key: later ones neither clear the store nor put or
remove the key. -/
def IsLastOn (key : String) (messages : List Message) (message : Message) : Prop :=
  ∃ before after, messages = before ++ message :: after ∧ message.concerns key = true ∧
    ∀ later ∈ after, later.concerns key = false

theorem exists_isLastOn (concerned : ∃ message ∈ messages, message.concerns key = true) :
    ∃ message, IsLastOn key messages message := by
  induction messages with
  | nil =>
    obtain ⟨message, mem, -⟩ := concerned
    cases mem
  | cons head messages ih =>
    by_cases later : ∃ message ∈ messages, message.concerns key = true
    · obtain ⟨message, before, after, rfl, last⟩ := ih later
      exact ⟨message, head :: before, after, rfl, last⟩
    · obtain ⟨first, mem, concerns⟩ := concerned
      rcases List.mem_cons.1 mem with rfl | mem
      · exact ⟨first, [], messages, rfl, concerns, by simpa using later⟩
      · exact absurd ⟨first, mem, concerns⟩ later

end Message

namespace Store

variable {store : Store} {messages : List Message} {message : Message} {key : String}

theorem leaves_of_isLastOn (last : message.IsLastOn key messages) :
    leaves key messages = some message.left := by
  obtain ⟨before, after, rfl, concerns, silent⟩ := last
  have none : after.filter (·.concerns key) = [] :=
    List.filter_eq_nil_iff.2 fun later mem => by simp [silent later mem]
  rw [leaves, List.filter_append, List.filter_cons_of_pos concerns, none, List.getLast?_concat]
  rfl

/-- Messages make the same of every store if the last ones on each key leave the same. -/
theorem applyAll_congr {others : List Message}
    (agree : ∀ key, leaves key others = leaves key messages) (store : Store) :
    store.applyAll others = store.applyAll messages :=
  Table.ext_get? fun key => by rw [get?_applyAll, get?_applyAll, agree]

theorem applyAll_applyAll (store : Store) (messages : List Message) :
    (store.applyAll messages).applyAll messages = store.applyAll messages := by
  refine Table.ext_get? fun key => ?_
  rw [get?_applyAll, get?_applyAll]
  rcases leaves key messages with _ | left <;> rfl

/-! ## Elements under their own keys -/

theorem isKeyed_empty : IsKeyed ∅ := nofun

/-- What a message leaves for a key is an element of this key. -/
theorem IsKeyed.apply (keyed : store.IsKeyed) (message : Message) :
    (store.apply message).IsKeyed := by
  intro key element held
  rw [get?_apply] at held
  split at held
  next concerns =>
    cases message with
    | put own =>
      cases held
      exact beq_iff_eq.1 concerns
    | remove other => cases held
    | removeAll => cases held
  next => exact keyed key element held

theorem IsKeyed.applyAll (keyed : store.IsKeyed) (messages : List Message) :
    (store.applyAll messages).IsKeyed := by
  induction messages generalizing store with
  | nil => exact keyed
  | cons message messages ih => exact ih (keyed.apply message)

theorem applyAll_puts (store : Store) (elements : List Element) :
    store.applyAll (elements.map .put) = store.putAll elements :=
  List.foldl_map

/-- The stores with each element under its own key are those that messages can make. -/
theorem isKeyed_iff : store.IsKeyed ↔ ∃ history, store = applyAll ∅ history := by
  constructor
  · intro keyed
    have own : ∀ element ∈ store.values, store.get? element.key = some element := by
      intro element mem
      obtain ⟨key, held⟩ := Table.mem_values_iff.1 mem
      rwa [keyed key element held]
    -- the history that puts each element once
    refine ⟨store.values.map .put, Table.ext_get? fun key => ?_⟩
    rw [applyAll_puts, get?_putAll own]
    split
    next => rfl
    next absent =>
      rw [Table.get?_empty, Option.eq_none_iff_forall_ne_some]
      intro element held
      exact absent (List.mem_map.2
        ⟨element, Table.mem_values_iff.2 ⟨key, held⟩, keyed key element held⟩)
  · rintro ⟨history, rfl⟩
    exact isKeyed_empty.applyAll history

/-! ## Batches -/

/-- Once messages have been applied to a store, the entry of a key is the old one if none of them
concerns the key, and else what the last one that does leaves for it: its element, or nothing for a
removal and for the removal of all. Elements stay under their own keys, batches with the same last
words do the same, and applying one again changes nothing. -/
theorem last_words_decide (store : Store) (messages : List Message) :
    (∀ key,
      ((∀ message ∈ messages, message.concerns key = false) →
        (store.applyAll messages).get? key = store.get? key) ∧
      ((∃ message ∈ messages, message.concerns key = true) →
        ∃ message, Message.IsLastOn key messages message) ∧
      ∀ message, Message.IsLastOn key messages message →
        (store.applyAll messages).get? key = message.left) ∧
    ((∃ history, store = applyAll ∅ history) →
      ∀ key element, (store.applyAll messages).get? key = some element → element.key = key) ∧
    (∀ others, (∀ key, leaves key others = leaves key messages) →
      store.applyAll others = store.applyAll messages) ∧
    (store.applyAll messages).applyAll messages = store.applyAll messages := by
  refine ⟨fun key => ⟨fun silent => ?_, Message.exists_isLastOn, fun message last => ?_⟩,
    fun made => (isKeyed_iff.2 made).applyAll messages,
    fun others agree => applyAll_congr agree store, applyAll_applyAll store messages⟩
  · rw [get?_applyAll, leaves_of_others silent, Option.getD_none]
  · rw [get?_applyAll, leaves_of_isLastOn last, Option.getD_some]

/-- Of a batch that clears the store, what comes before the clearing is forgotten. -/
theorem last_words_decide_clearing :
    let store : Store := applyAll ∅ [.put ⟨"a", [1], 1, 0⟩, .put ⟨"b", [1], 1, 0⟩]
    let batch : List Message := [.put ⟨"b", [2], 2, 0⟩, .removeAll, .put ⟨"a", [3], 3, 0⟩]
    (store.applyAll batch).get? "a" = some ⟨"a", [3], 3, 0⟩ ∧
      (store.applyAll batch).get? "b" = none ∧
      (∀ key element, (store.applyAll batch).get? key = some element → element.key = key) ∧
      (store.applyAll batch).applyAll batch = store.applyAll batch := by
  intro store batch
  obtain ⟨decided, keyed, -, again⟩ := last_words_decide store batch
  have put : Message.IsLastOn "a" batch (.put ⟨"a", [3], 3, 0⟩) :=
    ⟨batch.take 2, [], rfl, by decide, by decide⟩
  have cleared : Message.IsLastOn "b" batch .removeAll :=
    ⟨batch.take 1, batch.drop 2, rfl, by decide, by decide⟩
  exact ⟨(decided "a").2.2 _ put, (decided "b").2.2 _ cleared, keyed ⟨_, rfl⟩, again⟩

end Store

end CacheCluster
