import CacheCluster.Proofs.Packing
import CacheCluster.Proofs.RegistryHistory

/-! # Hearing heartbeats

A node tells of its urls in several datagrams, which a receiver may get in any order and more than
once. What its registry makes of them at one moment depends only on the set of urls that they name:
each one that is not its own is live afterwards, and is counted as news once if it was not live
before.
-/

namespace CacheCluster

open scoped List

/-! ## What is sent -/

theorem infix_of_mem_flatten {α : Type} {runs : List (List α)} {run : List α} (mem : run ∈ runs) :
    run <:+: runs.flatten := by
  obtain ⟨before, after, rfl⟩ := List.append_of_mem mem
  exact ⟨before.flatten, after.flatten, by simp⟩

namespace Heartbeat

open Text

/-- The runs of urls that the payloads of some groups carry. With the urls that are too long for any
payload they make up all the urls that a payload could hold. -/
structure Carries (groups : List (List String)) (packing : Packing) (runs : List (List String)) :
    Prop where
  sent : packing.payloads = runs.map payload
  small : ∀ run ∈ runs, (payload run).length ≤ maxPayload
  together : ∀ run ∈ runs, ∃ group ∈ groups, run <:+: undelimited group
  whole : (runs.flatten ++ packing.tooLong).Perm (undelimited groups.flatten)
  complete : ∀ url ∈ undelimited groups.flatten, (payload [url]).length ≤ maxPayload →
    url ∈ runs.flatten

variable {groups more : List (List String)} {packing packing' : Packing}
  {runs runs' : List (List String)}

theorem undelimited_append (urls more : List String) :
    undelimited (urls ++ more) = undelimited urls ++ undelimited more :=
  List.filter_append _ _

theorem carries_nil : Carries [] {} [] where
  sent := rfl
  small := nofun
  together := nofun
  whole := .refl _
  complete := nofun

theorem Carries.append (h : Carries groups packing runs) (h' : Carries more packing' runs') :
    Carries (groups ++ more) (packing ++ packing') (runs ++ runs') where
  sent := by
    rw [List.map_append, ← h.sent, ← h'.sent]
    rfl
  small := by
    intro run mem
    exact (List.mem_append.1 mem).elim (h.small run) (h'.small run)
  together := by
    intro run mem
    rcases List.mem_append.1 mem with mem | mem
    · obtain ⟨group, mem_group, part⟩ := h.together run mem
      exact ⟨group, List.mem_append_left _ mem_group, part⟩
    · obtain ⟨group, mem_group, part⟩ := h'.together run mem
      exact ⟨group, List.mem_append_right _ mem_group, part⟩
  whole := by
    have both : (packing ++ packing').tooLong = packing.tooLong ++ packing'.tooLong := rfl
    have interleaved := (h.whole.append h'.whole)
    rw [List.flatten_append, List.flatten_append, undelimited_append, both]
    refine .trans ?_ interleaved
    rw [List.append_assoc, List.append_assoc]
    refine List.Perm.append_left _ ?_
    rw [← List.append_assoc, ← List.append_assoc]
    exact List.Perm.append_right _ List.perm_append_comm
  complete := by
    intro url mem fits
    rw [List.flatten_append, undelimited_append, List.mem_append] at mem
    rw [List.flatten_append, List.mem_append]
    exact mem.imp (h.complete url · fits) (h'.complete url · fits)

/-- The payloads of one group, which is halved until its parts fit. -/
theorem exists_carries_group (group : List String) :
    ∃ runs, Carries [group] (pack maxPayload group) runs := by
  obtain ⟨runs, divides⟩ := exists_divides maxPayload (undelimited group)
  have tooLong : (pack maxPayload group).tooLong =
      (runs.filter (!fits maxPayload ·)).flatten := divides.tooLong
  refine ⟨runs.filter (fits maxPayload), divides.sent, ?_, ?_, ?_, ?_⟩
  · intro run mem
    exact of_decide_eq_true (List.mem_filter.1 mem).2
  · intro run mem
    refine ⟨group, List.mem_singleton_self _, ?_⟩
    rw [← divides.whole]
    exact infix_of_mem_flatten (List.mem_of_mem_filter mem)
  · rw [tooLong, ← List.flatten_append, List.flatten_singleton, ← divides.whole]
    exact (List.filter_append_perm _ runs).flatten
  · intro url mem small
    rw [List.flatten_singleton] at mem
    exact divides.fitting_sublist.subset (List.mem_filter.2 ⟨mem, decide_eq_true small⟩)

theorem exists_carries (perSend : Nat) (urls : List String) :
    ∃ runs, Carries (chunks perSend urls) (packGroups perSend urls) runs := by
  -- the packing that the fold has come to carries the groups before
  have from_packing (groups done : List (List String)) (packing : Packing)
      (before : ∃ runs, Carries done packing runs) :
      ∃ runs, Carries (done ++ groups)
        (groups.foldl (fun packing group => packing ++ pack maxPayload group) packing) runs := by
    induction groups generalizing done packing with
    | nil => simpa using before
    | cons group groups ih =>
      obtain ⟨runs, carries⟩ := before
      obtain ⟨own, ofGroup⟩ := exists_carries_group group
      have next := ih (done ++ [group]) _ ⟨_, carries.append ofGroup⟩
      rwa [List.append_assoc] at next
  exact from_packing (chunks perSend urls) [] {} ⟨[], carries_nil⟩

theorem Carries.clean (h : Carries groups packing runs) :
    ∀ run ∈ runs, ∀ url ∈ run, hasDelimiter url = false := by
  intro run mem url mem_url
  obtain ⟨group, -, part⟩ := h.together run mem
  exact hasDelimiter_of_mem_undelimited (part.subset mem_url)

theorem Carries.mem_urls (h : Carries groups packing runs) {url : String}
    (mem : url ∈ runs.flatten) : url ∈ groups.flatten ∧ hasDelimiter url = false := by
  have undelimited : url ∈ undelimited groups.flatten :=
    h.whole.subset (List.mem_append_left _ mem)
  exact ⟨List.mem_of_mem_filter undelimited, hasDelimiter_of_mem_undelimited undelimited⟩

/-- A url that can be told of alone is told of, unless it is too long. -/
theorem Carries.mem_iff (h : Carries groups packing runs) (distinct : groups.flatten.Nodup)
    {url : String} : url ∈ runs.flatten ↔
      url ∈ groups.flatten ∧ hasDelimiter url = false ∧ url ∉ packing.tooLong := by
  have apart : (runs.flatten ++ packing.tooLong).Nodup :=
    h.whole.nodup_iff.2 (distinct.filter _)
  constructor
  · intro mem
    obtain ⟨listed, clean⟩ := h.mem_urls mem
    exact ⟨listed, clean, List.disjoint_of_nodup_append apart mem⟩
  · rintro ⟨listed, clean, carried⟩
    have mem : url ∈ runs.flatten ++ packing.tooLong :=
      h.whole.mem_iff.2 (List.mem_filter.2 ⟨listed, by simp [clean]⟩)
    exact (List.mem_append.1 mem).resolve_right carried

theorem mem_legible_iff {urls : List String} {url : String} :
    url ∈ legible urls ↔ url ≠ "" ∧ ∃ told ∈ urls, trim told = url := by
  rw [legible, List.mem_filter, List.mem_map, and_comm]
  simp

theorem length_legible_le (urls : List String) : (legible urls).length ≤ urls.length := by
  rw [legible]
  exact (List.length_filter_le _ _).trans_eq (List.length_map _)

end Heartbeat

namespace Registry

open Heartbeat Text

/-! ## What a registry makes of urls -/

/-- A registry has taken note of some urls. -/
structure Notes (now : Nat) (urls : List String) (before after : Registry) : Prop where
  timed : after.staleTimeout = before.staleTimeout
  known : ∀ url, after.peers.get? url =
    if url ∈ urls then some ⟨now, ((before.peers.get? url).map (·.expiring)).getD true⟩
    else before.peers.get? url

section Noting

variable {now : Nat} {urls more own : List String} {before after later : Registry} {url : String}

theorem notes_nil (now : Nat) (before : Registry) : Notes now [] before before where
  timed := rfl
  known _ := rfl

theorem notes_refresh (now : Nat) (before : Registry) (url : String) :
    Notes now [url] before (before.refresh now url) where
  timed := rfl
  known other := by
    rw [refresh, Table.get?_insert]
    by_cases same : other = url
    · simp [same]
    · simp [same]

theorem Notes.trans (h : Notes now urls before after) (h' : Notes now more after later) :
    Notes now (urls ++ more) before later where
  timed := h'.timed.trans h.timed
  known url := by
    rw [h'.known, h.known]
    by_cases first : url ∈ urls <;> by_cases second : url ∈ more <;> simp [first, second]

/-- The order in which urls are noted, and how often, makes no difference. -/
theorem Notes.eq_of_mem_iff (h : Notes now urls before after) (h' : Notes now more before later)
    (same : ∀ url, url ∈ urls ↔ url ∈ more) : after = later := by
  have peers : after.peers = later.peers := Table.ext_get? fun url => by
    rw [h.known, h'.known]
    simp only [same]
  have timed := h.timed.trans h'.timed.symm
  cases after
  cases later
  simp_all

theorem Notes.mem_live_iff (h : Notes now urls before after) :
    url ∈ after.live now ↔ url ∈ before.live now ∨ url ∈ urls := by
  rw [← contains_iff_mem_live, ← contains_iff_mem_live]
  unfold contains isStale
  rw [h.known, h.timed]
  by_cases noted : url ∈ urls
  · rw [if_pos noted, Option.any_some]
    unfold Sighting.isStale
    split <;> simp [noted]
  · rw [if_neg noted]
    simp [noted]

theorem nodup_live (registry : Registry) (now : Nat) : (registry.live now).Nodup :=
  Table.nodup_names _

theorem length_live_refresh (before : Registry) (now : Nat) (url : String) :
    ((before.refresh now url).live now).length =
      (before.live now).length + (before.isNews now url).toNat := by
  have noted := notes_refresh now before url
  by_cases known : url ∈ before.live now
  · have same : (before.refresh now url).live now = before.live now := by
      refine (sorted_live _ _).eq_of_mem_iff (sorted_live _ _) fun other => ?_
      rw [noted.mem_live_iff, List.mem_singleton, or_iff_left_iff_imp]
      rintro rfl
      exact known
    have old : before.isNews now url = false := by
      rw [← Bool.not_eq_true, isNews_iff, Bool.not_eq_false, contains_iff_mem_live]
      exact known
    rw [same, old]
    rfl
  · have grown : ((before.refresh now url).live now).Perm (url :: before.live now) := by
      refine (List.perm_ext_iff_of_nodup (nodup_live _ _)
        (List.nodup_cons.2 ⟨known, nodup_live _ _⟩)).2 fun other => ?_
      rw [noted.mem_live_iff, List.mem_singleton, List.mem_cons, or_comm]
    have news : before.isNews now url = true := by
      rw [isNews_iff, ← Bool.not_eq_true, contains_iff_mem_live]
      exact known
    rw [grown.length_eq, news]
    rfl

/-! ## What a registry makes of datagrams -/

def foreign (own urls : List String) : List String :=
  urls.filter (!own.contains ·)

theorem mem_foreign_iff : url ∈ foreign own urls ↔ url ∈ urls ∧ url ∉ own := by
  simp [foreign]

theorem foreign_append (own urls more : List String) :
    foreign own (urls ++ more) = foreign own urls ++ foreign own more :=
  List.filter_append _ _

theorem hearUrls_notes (now : Nat) (own urls : List String) (count : Nat) (before : Registry) :
    let heard := hearUrls now own urls (count, before)
    Notes now (foreign own urls) before heard.2 ∧
      heard.1 + (before.live now).length = count + (heard.2.live now).length := by
  induction urls generalizing count before with
  | nil => exact ⟨notes_nil now before, rfl⟩
  | cons url urls ih =>
    intro heard
    by_cases mine : url ∈ own
    · have skipped : heard = hearUrls now own urls (count, before) := by
        simp only [heard, hearUrls, List.contains_iff_mem, if_pos mine]
      have rest : foreign own (url :: urls) = foreign own urls :=
        List.filter_cons_of_neg (by simpa using mine)
      rw [skipped, rest]
      exact ih count before
    · have noted : heard = hearUrls now own urls
          (count + (before.isNews now url).toNat, before.refresh now url) := by
        simp only [heard, hearUrls, List.contains_iff_mem, if_neg mine]
      have rest : foreign own (url :: urls) = [url] ++ foreign own urls :=
        List.filter_cons_of_pos (by simpa using mine)
      obtain ⟨later, counted⟩ :=
        ih (count + (before.isNews now url).toNat) (before.refresh now url)
      rw [length_live_refresh] at counted
      rw [noted, rest]
      exact ⟨(notes_refresh now before url).trans later, by omega⟩

theorem hear_of_ok {datagram : List UInt8} (read : disassemble datagram = .ok urls) :
    before.hear now own datagram = .ok (hearUrls now own urls (0, before)) := by
  rw [hear, read]
  rfl

theorem hear_of_error {datagram : List UInt8} {error : Error}
    (unread : disassemble datagram = .error error) :
    before.hear now own datagram = .error error := by
  rw [hear, unread]
  rfl

/-- Takes in datagrams one after the other at one moment, and says how many urls each one made
known. -/
def hearAll (now : Nat) (own : List String) :
    List (List UInt8) → Registry → Result (List Nat × Registry)
  | [], registry => .ok ([], registry)
  | datagram :: datagrams, registry =>
    match registry.hear now own datagram with
    | .error error => .error error
    | .ok (count, registry) =>
      (hearAll now own datagrams registry).map fun (counts, registry) => (count :: counts, registry)

theorem hearAll_notes (now : Nat) (own : List String) {datagrams : List (List UInt8)}
    {read : List UInt8 → List String}
    (reads : ∀ datagram ∈ datagrams, disassemble datagram = .ok (read datagram))
    (before : Registry) :
    ∃ counts after, before.hearAll now own datagrams = .ok (counts, after) ∧
      Notes now (foreign own (datagrams.flatMap read)) before after ∧
      counts.sum + (before.live now).length = (after.live now).length := by
  induction datagrams generalizing before with
  | nil => exact ⟨[], before, rfl, notes_nil now before, Nat.zero_add _⟩
  | cons datagram datagrams ih =>
    obtain ⟨first, others⟩ := List.forall_mem_cons.1 reads
    obtain ⟨noted, counted⟩ := hearUrls_notes now own (read datagram) 0 before
    obtain ⟨counts, after, heard, later, added⟩ :=
      ih others (hearUrls now own (read datagram) (0, before)).2
    refine ⟨(hearUrls now own (read datagram) (0, before)).1 :: counts, after, ?_, ?_, ?_⟩
    · rw [hearAll, hear_of_ok first]
      dsimp only
      rw [heard]
      rfl
    · rw [List.flatMap_cons, foreign_append]
      exact noted.trans later
    · rw [List.sum_cons]
      omega

theorem Notes.length_news (h : Notes now urls before after) :
    ((after.live now).filter (· ∉ before.live now)).length + (before.live now).length =
      (after.live now).length := by
  have kept : ((after.live now).filter (· ∈ before.live now)).Perm (before.live now) := by
    refine (List.perm_ext_iff_of_nodup ((nodup_live _ _).filter _) (nodup_live _ _)).2 fun url => ?_
    rw [List.mem_filter, h.mem_live_iff, decide_eq_true_eq]
    exact ⟨And.right, fun mem => ⟨.inl mem, mem⟩⟩
  have parts := (List.filter_append_perm (· ∈ before.live now) (after.live now)).length_eq
  rw [List.length_append, kept.length_eq] at parts
  simpa [Nat.add_comm] using parts

/-- The payloads of a heartbeat, heard in any order and any number of times, do what their urls
say. -/
theorem exists_hearAll {groups runs : List (List String)} {packing : Packing}
    (carries : Carries groups packing runs) (registry : Registry) (now : Nat) (own : List String) :
    ∃ after, Notes now (foreign own (legible runs.flatten)) registry after ∧
      ∀ datagrams, (∀ datagram, datagram ∈ datagrams ↔ datagram ∈ packing.payloads) →
        ∃ counts, registry.hearAll now own datagrams = .ok (counts, after) ∧
          counts.sum = ((after.live now).filter (· ∉ registry.live now)).length := by
  let read (datagram : List UInt8) : List String := (disassemble datagram).toOption.getD []
  have reads : ∀ run ∈ runs, disassemble (payload run) = .ok (legible run) :=
    fun run mem => disassemble_payload (carries.clean run mem)
  have readable : ∀ datagram ∈ packing.payloads, disassemble datagram = .ok (read datagram) := by
    intro datagram mem
    rw [carries.sent] at mem
    obtain ⟨run, mem_run, rfl⟩ := List.mem_map.1 mem
    simp only [read, reads run mem_run]
    rfl
  obtain ⟨_, after, _, noted, _⟩ := hearAll_notes now own readable registry
  have named : packing.payloads.flatMap read = legible runs.flatten := by
    rw [carries.sent, legible_flatten, List.flatMap_map, List.flatMap_def]
    congr 1
    refine List.map_congr_left fun run mem => ?_
    simp only [read, reads run mem]
    rfl
  rw [named] at noted
  refine ⟨after, noted, fun datagrams all => ?_⟩
  · obtain ⟨counts, other, heard, noted', counted⟩ :=
      hearAll_notes now own (fun datagram mem => readable datagram ((all datagram).1 mem)) registry
    obtain rfl : other = after := noted'.eq_of_mem_iff noted fun url => by
      simp only [← named, mem_foreign_iff, List.mem_flatMap, all]
    exact ⟨counts, heard, by have := noted'.length_news; omega⟩

/-- A heartbeat is cut into datagrams within the size limit. Each one reads as at most `max 1
perSend` urls, all of one group of consecutive urls. Together they name, trimmed, only urls that
were advertised without the delimiter, and all of those that are not blank and fit in a datagram
alone. A receiver that hears each datagram at least once, in any order and at one moment, comes to
one and the same registry, in which the urls that are named and are not its own are live beside
those that were. The counts of the single datagrams add up to the number of urls that became
live. -/
theorem heartbeats_in_any_order (perSend : Nat) (urls own : List String) (registry : Registry)
    (now : Nat) :
    let payloads := (packGroups perSend urls).payloads
    ∃ (decoded : List (List String)) (after : Registry),
      payloads.mapM disassemble = .ok decoded ∧
      (∀ datagram ∈ payloads, datagram.length ≤ maxPayload ∧
        ∃ group ∈ chunks perSend urls, group <:+: urls ∧ ∃ run, run <:+: undelimited group ∧
          disassemble datagram = .ok (legible run) ∧ (legible run).length ≤ max 1 perSend) ∧
      (∀ url ∈ decoded.flatten,
        ∃ advertised ∈ urls, hasDelimiter advertised = false ∧ trim advertised = url) ∧
      (∀ advertised ∈ urls, hasDelimiter advertised = false → trim advertised ≠ "" →
        (payload [advertised]).length ≤ maxPayload → trim advertised ∈ decoded.flatten) ∧
      (∀ datagrams, (∀ datagram, datagram ∈ datagrams ↔ datagram ∈ payloads) →
        ∃ counts, registry.hearAll now own datagrams = .ok (counts, after) ∧
          counts.sum = ((after.live now).filter (· ∉ registry.live now)).length) ∧
      ∀ url, url ∈ after.live now ↔
        url ∈ registry.live now ∨ url ∈ decoded.flatten ∧ url ∉ own := by
  intro payloads
  obtain ⟨runs, carries⟩ := exists_carries perSend urls
  have groups_flatten : (chunks perSend urls).flatten = urls := flatten_chunks perSend urls
  have reads : payloads.mapM disassemble = .ok (runs.map legible) := by
    rw [show payloads = runs.map payload from carries.sent]
    exact disassemble_payloads carries.clean
  obtain ⟨after, noted, heard⟩ := exists_hearAll carries registry now own
  refine ⟨runs.map legible, after, reads, ?_, ?_, ?_, heard, ?_⟩
  · intro datagram mem
    rw [show payloads = runs.map payload from carries.sent] at mem
    obtain ⟨run, mem_run, rfl⟩ := List.mem_map.1 mem
    obtain ⟨group, mem_group, part⟩ := carries.together run mem_run
    refine ⟨carries.small run mem_run, group, mem_group, ?_, run, part,
      disassemble_payload (carries.clean run mem_run), ?_⟩
    · have consecutive := infix_of_mem_flatten mem_group
      rwa [groups_flatten] at consecutive
    · calc (legible run).length ≤ run.length := length_legible_le run
        _ ≤ (undelimited group).length := part.length_le
        _ ≤ group.length := List.length_filter_le _ _
        _ ≤ max 1 perSend := length_of_mem_chunks mem_group
  · intro url mem
    rw [← legible_flatten, mem_legible_iff] at mem
    obtain ⟨-, advertised, carried, rfl⟩ := mem
    obtain ⟨listed, clean⟩ := carries.mem_urls carried
    rw [groups_flatten] at listed
    exact ⟨advertised, listed, clean, rfl⟩
  · intro advertised listed clean spoken small
    rw [← legible_flatten, mem_legible_iff]
    refine ⟨spoken, advertised, carries.complete advertised ?_ small, rfl⟩
    rw [groups_flatten]
    exact List.mem_filter.2 ⟨listed, by simp [clean]⟩
  · intro url
    rw [noted.mem_live_iff, mem_foreign_iff, ← legible_flatten]

end Noting

end Registry

end CacheCluster
