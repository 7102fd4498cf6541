import Mathlib.Algebra.Ring.Nat
import Mathlib.Data.List.Induction
import Mathlib.Data.List.Sort
import CacheCluster.Registry

/-! # The history of a registry

Urls are registered, heard of and unregistered while time passes, and stale ones are swept. Which
urls are live is decided for each by what happened to it since it was last unregistered, so that
sweeping makes no difference.
-/

namespace CacheCluster.Registry

/-- Something that happens to a registry. -/
inductive Happening
  | register (url : String)
  | refresh (url : String)
  | unregister (url : String)
  | sweep
  | pass (milliseconds : Nat)
  deriving DecidableEq

namespace Happening

/-- How long something takes. -/
def duration : Happening → Nat
  | pass milliseconds => milliseconds
  | _ => 0

/-- The time that passes while some things happen. -/
def elapsed (happenings : List Happening) : Nat :=
  (happenings.map duration).sum

/-- Since a url was last unregistered it was registered, or heard of so late that it is not out of
date `delay` milliseconds from now. -/
def Vouches (timeout : Option Nat) (url : String) (delay : Nat) (happenings : List Happening) :
    Prop :=
  ∃ earlier happening later, happenings = earlier ++ happening :: later ∧
    .unregister url ∉ later ∧
    (happening = .register url ∨
      happening = .refresh url ∧ ∀ limit ∈ timeout, elapsed later + delay ≤ limit)

end Happening

open Happening

/-- A registry at a time. -/
structure History where
  now : Nat := 0
  registry : Registry

namespace History

/-- A new registry. -/
def start (timeout : Option Nat) (now : Nat) : History where
  now
  registry := { staleTimeout := timeout }

def step (history : History) : Happening → History
  | .register url => { history with registry := history.registry.register history.now url }
  | .refresh url => { history with registry := history.registry.refresh history.now url }
  | .unregister url => { history with registry := history.registry.unregister url }
  | .sweep => { history with registry := history.registry.sweep history.now }
  | .pass milliseconds => { history with now := history.now + milliseconds }

def run (history : History) (happenings : List Happening) : History :=
  happenings.foldl step history

/-- The urls that are live now. -/
def live (history : History) : List String :=
  history.registry.live history.now

end History

/-! ## What is live -/

section Live

variable {registry : Registry} {now : Nat}

theorem contains_iff_mem_live {url : String} :
    registry.contains now url = true ↔ url ∈ registry.live now := by
  unfold contains live Table.names
  rw [Option.any_eq_true, List.mem_map]
  constructor
  · rintro ⟨sighting, known, fresh⟩
    refine ⟨(url, sighting), ?_, rfl⟩
    rw [Table.mem_entries_iff, Table.get?_filter, known]
    simpa [Option.filter] using fresh
  · rintro ⟨⟨url, sighting⟩, mem, rfl⟩
    rw [Table.mem_entries_iff, Table.get?_filter, Option.filter_eq_some_iff] at mem
    exact ⟨sighting, mem⟩

theorem isNews_iff {url : String} :
    registry.isNews now url = true ↔ registry.contains now url = false := by
  unfold isNews contains
  cases registry.peers.get? url <;> simp

theorem sorted_live (registry : Registry) (now : Nat) : (registry.live now).Pairwise (· < ·) :=
  Table.sorted_names _

theorem mem_stale_iff {url : String} :
    url ∈ registry.stale now ↔ url ∈ registry.peers.names ∧ url ∉ registry.live now := by
  rw [← contains_iff_mem_live]
  unfold stale contains Table.names
  rw [List.mem_map, List.mem_map]
  constructor
  · rintro ⟨⟨url, sighting⟩, mem, rfl⟩
    rw [Table.mem_entries_iff, Table.get?_filter, Option.filter_eq_some_iff] at mem
    refine ⟨⟨(url, sighting), (Table.mem_entries_iff _ _ _).2 mem.1, rfl⟩, ?_⟩
    simp [mem.1, mem.2]
  · rintro ⟨⟨⟨url, sighting⟩, mem, rfl⟩, outdated⟩
    rw [Table.mem_entries_iff] at mem
    refine ⟨(url, sighting), ?_, rfl⟩
    rw [Table.mem_entries_iff, Table.get?_filter, Option.filter_eq_some_iff]
    exact ⟨mem, by simpa [mem] using outdated⟩

theorem nodup_stale (registry : Registry) (now : Nat) : (registry.stale now).Nodup :=
  Table.nodup_names _

theorem size_sweep (registry : Registry) (now : Nat) :
    (registry.sweep now).size = (registry.live now).length :=
  (List.length_map _).symm

end Live

/-! ## What a change makes live later -/

section Change

variable {registry : Registry} {now delay : Nat}

theorem contains_register (url other : String) (later : Nat) :
    (registry.register now url).contains later other =
      if other = url then true else registry.contains later other := by
  unfold register contains
  rw [Table.get?_insert]
  split
  · rw [Option.any_some]
    unfold isStale Sighting.isStale
    split <;> rfl
  · rfl

/-- A url that was heard of is live for as long as the timeout, or for as long as it was. -/
theorem contains_refresh (seen : ∀ url sighting, registry.peers.get? url = some sighting →
      sighting.lastSeen ≤ now) (url other : String) :
    (registry.refresh now url).contains (now + delay) other = true ↔
      (other = url ∧ ∀ limit ∈ registry.staleTimeout, delay ≤ limit) ∨
        registry.contains (now + delay) other = true := by
  unfold refresh contains
  rw [Table.get?_insert]
  by_cases same : other = url
  · subst same
    rcases timed : registry.staleTimeout with _ | limit
    · simp [isStale, Sighting.isStale, timed]
    · rcases known : registry.peers.get? other with _ | ⟨lastSeen, expiring⟩
      · simp [isStale, Sighting.isStale, timed]
      · have le : lastSeen ≤ now := seen other _ known
        rcases expiring with _ | _
        · simp [isStale, Sighting.isStale, timed]
        · simp [isStale, Sighting.isStale, timed]
          omega
  · simp only [same, false_and, false_or]
    rfl

theorem contains_unregister (url other : String) (later : Nat) :
    (registry.unregister url).contains later other =
      if other = url then false else registry.contains later other := by
  unfold unregister contains
  rw [Table.get?_erase]
  split <;> rfl

/-- What is out of date stays so: dropping it makes no difference later. -/
theorem contains_sweep (url : String) :
    (registry.sweep now).contains (now + delay) url = registry.contains (now + delay) url := by
  unfold sweep contains
  rw [Table.get?_filter]
  rcases registry.peers.get? url with _ | sighting
  · rfl
  · by_cases fresh : registry.isStale now sighting = true
    · have outdated : registry.isStale (now + delay) sighting = true := by
        unfold isStale Sighting.isStale at fresh ⊢
        split at fresh
        next limit timed =>
          simp only [Bool.and_eq_true, decide_eq_true_eq] at fresh ⊢
          exact ⟨fresh.1, by omega⟩
        next => cases fresh
      simp [Option.filter, fresh, outdated]
    · have kept : (some sighting).filter (fun held => !registry.isStale now held) =
          some sighting := by
        simp [Option.filter, fresh]
      rw [kept]
      rfl

end Change

/-! ## Histories -/

namespace Happening

/-- The latest thing that happened speaks for a url itself, or leaves to those before it what it
does not take back. -/
theorem vouches_concat {timeout : Option Nat} {url : String} {delay : Nat}
    {happenings : List Happening} {latest : Happening} :
    Vouches timeout url delay (happenings ++ [latest]) ↔
      (latest = .register url ∨ latest = .refresh url ∧ ∀ limit ∈ timeout, delay ≤ limit) ∨
        latest ≠ .unregister url ∧ Vouches timeout url (latest.duration + delay) happenings := by
  constructor
  · rintro ⟨earlier, happening, later, split, kept, speaks⟩
    rcases List.eq_nil_or_concat' later with rfl | ⟨later, last, rfl⟩
    · obtain ⟨rfl, same⟩ := List.append_inj' split rfl
      obtain rfl : latest = happening := by simpa using same
      simp only [elapsed, List.map_nil, List.sum_nil, Nat.zero_add] at speaks
      exact .inl speaks
    · rw [← List.cons_append, ← List.append_assoc] at split
      obtain ⟨rfl, same⟩ := List.append_inj' split rfl
      obtain rfl : latest = last := by simpa using same
      simp only [List.mem_append, List.mem_singleton, not_or] at kept
      refine .inr ⟨Ne.symm kept.2, earlier, happening, later, rfl, kept.1, ?_⟩
      simpa [elapsed, Nat.add_assoc] using speaks
  · rintro (speaks | ⟨kept, earlier, happening, later, rfl, notAfter, speaks⟩)
    · refine ⟨happenings, latest, [], rfl, List.not_mem_nil, ?_⟩
      simpa [elapsed] using speaks
    · refine ⟨earlier, happening, later ++ [latest], by simp, ?_, ?_⟩
      · simpa [notAfter] using Ne.symm kept
      · simpa [elapsed, Nat.add_assoc] using speaks

/-- A sweep says nothing about any url. -/
theorem vouches_unswept {timeout : Option Nat} {url : String} {delay : Nat}
    {happenings : List Happening} :
    Vouches timeout url delay (happenings.filter (· ≠ .sweep)) ↔
      Vouches timeout url delay happenings := by
  induction happenings using List.reverseRec generalizing delay with
  | nil => rfl
  | append_singleton happenings latest ih =>
    rw [List.filter_append, vouches_concat]
    by_cases swept : latest = .sweep
    · subst swept
      simp [duration, ← ih]
    · rw [List.filter_cons_of_pos (by simpa using swept), List.filter_nil, vouches_concat, ih]

end Happening

namespace History

/-- What happened so far speaks for the urls that are live, now and later. -/
structure Explained (timeout : Option Nat) (happenings : List Happening) (history : History) :
    Prop where
  timed : history.registry.staleTimeout = timeout
  seen : ∀ url sighting, history.registry.peers.get? url = some sighting →
    sighting.lastSeen ≤ history.now
  live : ∀ url delay, history.registry.contains (history.now + delay) url = true ↔
    Vouches timeout url delay happenings

variable {timeout : Option Nat} {happenings : List Happening} {history : History}

theorem explained_start (timeout : Option Nat) (now : Nat) :
    Explained timeout [] (start timeout now) where
  timed := rfl
  seen url sighting known := by cases known
  live url delay := by
    constructor
    · intro live
      cases live
    · rintro ⟨earlier, happening, later, split, -⟩
      simp at split

theorem Explained.register (h : Explained timeout happenings history) (url : String) :
    Explained timeout (happenings ++ [.register url]) (history.step (.register url)) where
  timed := h.timed
  seen other sighting known := by
    simp only [step, Registry.register, Table.get?_insert] at known
    split at known
    · obtain rfl := Option.some.inj known
      exact Nat.le_refl _
    · exact h.seen other sighting known
  live other delay := by
    rw [vouches_concat, ← h.live, step, contains_register]
    by_cases same : other = url
    · simp [same]
    · simp [same, Ne.symm same, duration]

theorem Explained.refresh (h : Explained timeout happenings history) (url : String) :
    Explained timeout (happenings ++ [.refresh url]) (history.step (.refresh url)) where
  timed := h.timed
  seen other sighting known := by
    simp only [step, Registry.refresh, Table.get?_insert] at known
    split at known
    · obtain rfl := Option.some.inj known
      exact Nat.le_refl _
    · exact h.seen other sighting known
  live other delay := by
    rw [vouches_concat, ← h.live, step, contains_refresh h.seen, h.timed, eq_comm (a := other)]
    simp [duration]

theorem Explained.unregister (h : Explained timeout happenings history) (url : String) :
    Explained timeout (happenings ++ [.unregister url]) (history.step (.unregister url)) where
  timed := h.timed
  seen other sighting known := by
    simp only [step, Registry.unregister, Table.get?_erase] at known
    split at known
    · cases known
    · exact h.seen other sighting known
  live other delay := by
    rw [vouches_concat, ← h.live, step, contains_unregister]
    by_cases same : other = url
    · simp [same]
    · simp [same, Ne.symm same, duration]

theorem Explained.sweep (h : Explained timeout happenings history) :
    Explained timeout (happenings ++ [.sweep]) (history.step .sweep) where
  timed := h.timed
  seen other sighting known := by
    simp only [step, Registry.sweep, Table.get?_filter, Option.filter_eq_some_iff] at known
    exact h.seen other sighting known.1
  live other delay := by
    rw [vouches_concat, ← h.live, step, contains_sweep]
    simp [duration]

theorem Explained.pass (h : Explained timeout happenings history) (milliseconds : Nat) :
    Explained timeout (happenings ++ [.pass milliseconds])
      (history.step (.pass milliseconds)) where
  timed := h.timed
  seen other sighting known := Nat.le_add_right_of_le (h.seen other sighting known)
  live other delay := by
    rw [vouches_concat, ← h.live, step]
    simp [duration, Nat.add_assoc]

theorem explained_run (timeout : Option Nat) (now : Nat) (happenings : List Happening) :
    Explained timeout happenings ((start timeout now).run happenings) := by
  induction happenings using List.reverseRec with
  | nil => exact explained_start timeout now
  | append_singleton happenings latest ih =>
    rw [run, List.foldl_append]
    cases latest with
    | register url => exact ih.register url
    | refresh url => exact ih.refresh url
    | unregister url => exact ih.unregister url
    | sweep => exact ih.sweep
    | pass milliseconds => exact ih.pass milliseconds

theorem Explained.mem_live_iff (h : Explained timeout happenings history) (url : String) :
    url ∈ history.live ↔ Vouches timeout url 0 happenings := by
  rw [History.live, ← contains_iff_mem_live]
  exact h.live url 0

/-- After every history, the live urls are in ascending order those that were registered since they
were last unregistered, or heard of no longer ago than the timeout. Hearing of any other url is
news. It makes no difference for the live urls whether and when stale ones are swept; a sweep drops
the known urls that are not live, each once, and leaves the others. -/
theorem live_iff_vouched (timeout : Option Nat) (now : Nat) (happenings : List Happening) :
    let history := (start timeout now).run happenings
    let registry := history.registry
    history.live.Pairwise (· < ·) ∧
    (∀ url, url ∈ history.live ↔
      ∃ earlier happening later, happenings = earlier ++ happening :: later ∧
        .unregister url ∉ later ∧
        (happening = .register url ∨
          happening = .refresh url ∧ ∀ limit ∈ timeout, elapsed later ≤ limit)) ∧
    (∀ url, registry.contains history.now url = true ↔ url ∈ history.live) ∧
    (∀ url, registry.isNews history.now url = true ↔ url ∉ history.live) ∧
    (∀ others, others.filter (· ≠ .sweep) = happenings.filter (· ≠ .sweep) →
      ((start timeout now).run others).live = history.live) ∧
    (registry.stale history.now).Nodup ∧
    (∀ url, url ∈ registry.stale history.now ↔
      url ∈ registry.peers.names ∧ url ∉ history.live) ∧
    (history.step .sweep).registry.size = history.live.length := by
  intro history registry
  have explained : Explained timeout happenings history := explained_run timeout now happenings
  refine ⟨sorted_live _ _, explained.mem_live_iff, fun url => contains_iff_mem_live, fun url => ?_,
    fun others same => ?_, nodup_stale _ _, fun url => mem_stale_iff, size_sweep _ _⟩
  · rw [isNews_iff, ← Bool.not_eq_true, contains_iff_mem_live]
    rfl
  · refine (sorted_live _ _).eq_of_mem_iff (sorted_live _ _) fun url => ?_
    have other := (explained_run timeout now others).mem_live_iff url
    rw [← vouches_unswept, same, vouches_unswept] at other
    exact other.trans (explained.mem_live_iff url).symm

end History

end CacheCluster.Registry
