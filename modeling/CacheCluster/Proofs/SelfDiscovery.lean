import CacheCluster.Proofs.Hearing
import CacheCluster.Proofs.NodeLife
import CacheCluster.Proofs.UrlReadings

/-! # Nodes that hear themselves

A heartbeat is trimmed where it is read, and the urls of a node are not. A cache whose name ends in
a blank is therefore heard of under another url than its own, and the node itself discovers that url
unless it has a cache of the trimmed name as well.
-/

namespace CacheCluster

/-! ## The characters of a url -/

namespace Text

def trimEnd (s : String) : String :=
  String.ofList (trimRight s.toList)

/-- Trimming goes no further than a character that is not blank. -/
theorem trimRight_append_cons {c : Char} (visible : isBlank c = false) (before after : List Char) :
    trimRight (before ++ c :: after) = before ++ c :: trimRight after := by
  unfold trimRight
  rw [List.reverse_append, List.reverse_cons, List.append_assoc, List.dropWhile_append]
  split
  next gone =>
    rw [List.isEmpty_iff.1 gone]
    simp [visible]
  next => simp

theorem mem_pieces {isSeparator : Char → Bool} {cs : List Char} {c : Char} (mem : c ∈ cs) :
    isSeparator c = true ∨ ∃ piece ∈ pieces isSeparator cs, c ∈ piece := by
  induction cs with
  | nil => cases mem
  | cons first cs ih =>
    obtain ⟨piece, rest, cut⟩ := List.exists_cons_of_ne_nil (pieces_ne_nil cs)
    rw [cut] at ih
    rw [pieces_cons, cut, grow]
    rcases List.mem_cons.1 mem with rfl | mem
    · by_cases separates : isSeparator c = true
      · exact .inl separates
      · rw [if_neg separates]
        exact .inr ⟨_, List.mem_cons_self, List.mem_cons_self⟩
    · refine (ih mem).imp id ?_
      rintro ⟨other, mem_other, mem_c⟩
      split
      · exact ⟨other, List.mem_cons_of_mem _ mem_other, mem_c⟩
      · rcases List.mem_cons.1 mem_other with rfl | mem_rest
        · exact ⟨_, List.mem_cons_self, List.mem_cons_of_mem _ mem_c⟩
        · exact ⟨other, List.mem_cons_of_mem _ mem_rest, mem_c⟩

end Text

namespace Decimal

theorem isSome_digit? {cs : List Char} {n : Nat} (spelled : (readDigits n cs).isSome) :
    ∀ c ∈ cs, (digit? c).isSome := by
  induction cs generalizing n with
  | nil => nofun
  | cons c cs ih =>
    rw [readDigits] at spelled
    rcases first : digit? c with _ | d
    · simp [first] at spelled
    · rw [first, Option.bind_some] at spelled
      intro other mem
      rcases List.mem_cons.1 mem with rfl | mem
      · exact Option.isSome_of_eq_some first
      · exact ih spelled other mem

end Decimal

namespace Address

/-- A character that ends neither the address in a url nor a url in a heartbeat. -/
def IsPlain (c : Char) : Prop :=
  c ≠ '/' ∧ c ≠ Heartbeat.delimiter

instance : DecidablePred IsPlain :=
  fun c => inferInstanceAs (Decidable (c ≠ '/' ∧ c ≠ Heartbeat.delimiter))

theorem isPlain_of_all {cs : List Char} (all : cs.all (decide <| IsPlain ·) = true) :
    ∀ c ∈ cs, IsPlain c :=
  fun c mem => of_decide_eq_true (List.all_eq_true.1 all c mem)

theorem isPlain_of_digit? {c : Char} (digit : (Decimal.digit? c).isSome) : IsPlain c := by
  constructor
  · rintro rfl
    exact absurd digit (by decide)
  · rintro rfl
    exact absurd digit (by decide)

theorem isPlain_of_octet? {cs : List Char} (read : (Settings.Ipv4.octet? cs).isSome) :
    ∀ c ∈ cs, IsPlain c := by
  intro c mem
  refine isPlain_of_digit? (Decimal.isSome_digit? (n := 0) ?_ c mem)
  unfold Settings.Ipv4.octet? at read
  split at read
  · cases read
  · rw [Option.isSome_map] at read
    have spelled := Option.isSome_of_isSome_filter _ _ read
    unfold Decimal.natural? at spelled
    split at spelled
    · cases spelled
    · exact spelled

theorem isSome_of_mapM {α β : Type} {f : α → Option β} {xs : List α}
    (all : (xs.mapM f).isSome) : ∀ x ∈ xs, (f x).isSome := by
  induction xs with
  | nil => nofun
  | cons x xs ih =>
    rw [List.mapM_cons] at all
    rcases first : f x with _ | y
    · simp [first] at all
    · rcases rest : xs.mapM f with _ | ys
      · simp [first, rest] at all
      · intro other mem
        rcases List.mem_cons.1 mem with rfl | mem
        · exact Option.isSome_of_eq_some first
        · exact ih (Option.isSome_of_eq_some rest) other mem

theorem isPlain_of_isKnownHost {host : String} (known : isKnownHost host = true) :
    ∀ c ∈ host.toList, IsPlain c := by
  rw [isKnownHost, Bool.or_eq_true, Bool.or_eq_true, beq_iff_eq, beq_iff_eq] at known
  rcases known with (rfl | rfl) | number
  · exact isPlain_of_all (by decide +kernel)
  · exact isPlain_of_all (by decide +kernel)
  · unfold Settings.Ipv4.parse? at number
    intro c mem
    have read : ((Text.pieces (· == '.') host.toList).mapM Settings.Ipv4.octet?).isSome := by
      split at number
      next octets => exact Option.isSome_of_eq_some octets
      next => cases number
    rcases @Text.mem_pieces (· == '.') _ _ mem with point | ⟨piece, mem_piece, mem_c⟩
    · rw [beq_iff_eq] at point
      subst point
      decide
    · exact isPlain_of_octet? (isSome_of_mapM read piece mem_piece) c mem_c

end Address

/-! ## The url of a cache -/

namespace PeerUrl

section Format

variable {host : String} {port : Nat} {cache : String}

theorem trim_format (host : String) (port : Nat) (cache : String) :
    Text.trim (format host port cache) = format host port (Text.trimEnd cache) := by
  have left : Text.trimLeft (format host port cache).toList = (format host port cache).toList := by
    rw [toList_format]
    exact List.dropWhile_cons_of_neg (by decide)
  refine String.toList_injective ?_
  rw [Text.trim, left, toList_format, toList_format, String.toList_ofList, ← List.append_assoc,
    Text.trimRight_append_cons (by decide), Text.trimEnd, String.toList_ofList, List.append_assoc]

/-- A url leads back to its cache, unless the name is empty. -/
theorem parse_format (known : Address.isKnownHost host = true) :
    parse (format host port cache) =
      if cache = "" then
        .error (.remote ("invalid peer url '" ++ format host port cache ++ "'"))
      else .ok (Address.format host port, cache) := by
  have clean : '/' ∉ host.toList := fun mem =>
    (Address.isPlain_of_isKnownHost known _ mem).1 rfl
  by_cases unnamed : cache = ""
  · subst unnamed
    rw [parse, parts?, Text.dropStart_eq_some_iff.2 (toList_format host port ""),
      Option.bind_some, Address.cutFirst_format clean]
    simp [Option.filter]
  · rw [if_neg unnamed, parse_format_eq_ok clean unnamed]

theorem hasDelimiter_format (known : Address.isKnownHost host = true)
    (clean : Heartbeat.delimiter ∉ cache.toList) :
    Heartbeat.hasDelimiter (format host port cache) = false := by
  rw [← Bool.not_eq_true, Heartbeat.hasDelimiter, List.contains_iff_mem, toList_format,
    List.mem_append, List.mem_append, List.mem_cons]
  rintro (mem | mem | mem | mem)
  · exact absurd mem (by decide)
  · have host : Heartbeat.delimiter ∉ host.toList := fun mem =>
      (Address.isPlain_of_isKnownHost known _ mem).2 rfl
    exact Address.notMem_format host (by decide) (by decide) port mem
  · exact absurd mem (by decide)
  · exact clean mem

end Format

end PeerUrl

/-! ## What a node tells of -/

namespace Listener

open Heartbeat

variable (listener : Listener)

/-- The names of the caches that the heartbeats of a listener tell of: all but those whose url is
too long for a datagram. -/
def told (perSend : Nat) : List String :=
  listener.caches.names.filter fun name =>
    listener.urlFor name ∉ (packGroups perSend listener.advertised).tooLong

/-- The url under which others hear of a cache. -/
def heardUrl (name : String) : String :=
  listener.urlFor (Text.trimEnd name)

variable {listener} {name url : String} {perSend : Nat}

theorem urlFor_injective (listener : Listener) : Function.Injective listener.urlFor :=
  PeerUrl.format_injective _ _

theorem mem_advertised_iff :
    url ∈ listener.advertised ↔ ∃ name ∈ listener.caches.names, listener.urlFor name = url := by
  rw [advertised, List.mem_mergeSort, List.mem_map]

theorem urlFor_mem_advertised_iff :
    listener.urlFor name ∈ listener.advertised ↔ name ∈ listener.caches.names := by
  rw [mem_advertised_iff]
  constructor
  · rintro ⟨other, hosted, same⟩
    rwa [← listener.urlFor_injective same]
  · intro hosted
    exact ⟨name, hosted, rfl⟩

theorem nodup_advertised (listener : Listener) : listener.advertised.Nodup := by
  rw [advertised, (List.mergeSort_perm _ _).nodup_iff]
  exact listener.caches.nodup_names.map listener.urlFor_injective

/-- The caches can be told of: their names and the host can stand in a url in a heartbeat. -/
structure IsLegible (listener : Listener) : Prop where
  known : Address.isKnownHost listener.host = true
  clean : ∀ name ∈ listener.caches.names, delimiter ∉ name.toList

theorem IsLegible.hasDelimiter_urlFor (h : listener.IsLegible)
    (hosted : name ∈ listener.caches.names) : hasDelimiter (listener.urlFor name) = false :=
  PeerUrl.hasDelimiter_format h.known (h.clean name hosted)

variable {runs : List (List String)}

theorem IsLegible.mem_told_iff (h : listener.IsLegible)
    (carries : Carries (chunks perSend listener.advertised)
      (packGroups perSend listener.advertised) runs) :
    listener.urlFor name ∈ runs.flatten ↔ name ∈ listener.told perSend := by
  have distinct : (chunks perSend listener.advertised).flatten.Nodup := by
    rw [flatten_chunks]
    exact listener.nodup_advertised
  rw [carries.mem_iff distinct, flatten_chunks, urlFor_mem_advertised_iff, told, List.mem_filter,
    decide_eq_true_eq]
  constructor
  · rintro ⟨hosted, -, carried⟩
    exact ⟨hosted, carried⟩
  · rintro ⟨hosted, carried⟩
    exact ⟨hosted, h.hasDelimiter_urlFor hosted, carried⟩

/-- What is heard of a listener are the trimmed urls of the caches that are told of. -/
theorem IsLegible.mem_heard_iff (h : listener.IsLegible)
    (carries : Carries (chunks perSend listener.advertised)
      (packGroups perSend listener.advertised) runs) :
    url ∈ legible runs.flatten ↔ ∃ name ∈ listener.told perSend, url = listener.heardUrl name := by
  rw [mem_legible_iff]
  constructor
  · rintro ⟨-, told, carried, rfl⟩
    have listed := (carries.mem_urls carried).1
    rw [flatten_chunks] at listed
    obtain ⟨name, -, rfl⟩ := mem_advertised_iff.1 listed
    exact ⟨name, (h.mem_told_iff carries).1 carried, PeerUrl.trim_format _ _ _⟩
  · rintro ⟨name, told, rfl⟩
    refine ⟨?_, listener.urlFor name, (h.mem_told_iff carries).2 told,
      PeerUrl.trim_format _ _ _⟩
    intro blank
    have chars := congrArg String.toList blank
    rw [heardUrl, urlFor, PeerUrl.toList_format] at chars
    cases chars

theorem IsLegible.mem_told_of_small (h : listener.IsLegible)
    (hosted : name ∈ listener.caches.names)
    (small : (payload [listener.urlFor name]).length ≤ maxPayload) :
    name ∈ listener.told perSend := by
  obtain ⟨runs, carries⟩ := exists_carries perSend listener.advertised
  refine (h.mem_told_iff carries).1 (carries.complete _ ?_ small)
  rw [flatten_chunks]
  refine List.mem_filter.2 ⟨urlFor_mem_advertised_iff.2 hosted, ?_⟩
  rw [h.hasDelimiter_urlFor hosted]
  rfl

/-- Whoever takes in the heartbeats takes note of the urls that are heard and are not among its
own. -/
theorem IsLegible.exists_notes (h : listener.IsLegible) (perSend : Nat) (own : List String)
    (registry : Registry) (now : Nat) :
    ∃ urls counts after,
      registry.hearAll now own (packGroups perSend listener.advertised).payloads =
        .ok (counts, after) ∧
      Registry.Notes now urls registry after ∧
      counts.sum = ((after.live now).filter (· ∉ registry.live now)).length ∧
      ∀ url, url ∈ urls ↔
        url ∉ own ∧ ∃ name ∈ listener.told perSend, url = listener.heardUrl name := by
  obtain ⟨runs, carries⟩ := exists_carries perSend listener.advertised
  obtain ⟨after, noted, heard⟩ := Registry.exists_hearAll carries registry now own
  obtain ⟨counts, taken, counted⟩ := heard _ fun _ => Iff.rfl
  refine ⟨_, counts, after, taken, noted, counted, fun url => ?_⟩
  rw [Registry.mem_foreign_iff, h.mem_heard_iff carries, and_comm]

end Listener

namespace Node

open Heartbeat

theorem IsInOrder.isLegible {node : Node} (h : node.IsInOrder) (running : node.isRunning = true) :
    node.listener.IsLegible where
  known := h.known running
  clean := by
    intro name hosted mem
    exact (isCacheName_iff.1 (h.named name hosted)).2.1 mem

/-- Whatever has been done with a running node, others hear of each cache that it tells of under the
url of the trimmed name. That url is one of the node's own, and leads to a cache that it hosts,
exactly if it has a cache of the trimmed name. A node that takes in its own heartbeats discovers
nothing exactly if that is so for all of its caches. -/
theorem discovers_nothing_iff (config : Settings.Configuration) {picks : Nat → Nat}
    (clock : Clocked Node) (built : (ofConfiguration config picks).value = .ok clock.state)
    (deeds : List Deed) (perSend : Nat)
    (running : (performAll clock deeds).state.isRunning = true) :
    let node := (performAll clock deeds).state
    let own := node.listener.advertised
    let payloads := (packGroups perSend own).payloads
    let told := node.listener.told perSend
    let heardUrl := node.listener.heardUrl
    (∀ name ∈ node.cacheNames,
      (payload [node.listener.urlFor name]).length ≤ maxPayload → name ∈ told) ∧
    (∀ (others : List String) (registry : Registry) (now : Nat), ∃ counts after,
      registry.hearAll now others payloads = .ok (counts, after) ∧
      counts.sum = ((after.live now).filter (· ∉ registry.live now)).length ∧
      ∀ url, url ∈ after.live now ↔
        url ∈ registry.live now ∨ url ∉ others ∧ ∃ name ∈ told, url = heardUrl name) ∧
    (∀ name ∈ told,
      (heardUrl name ∈ own ↔ Text.trimEnd name ∈ node.cacheNames) ∧
      PeerUrl.parse (heardUrl name) =
        if Text.trimEnd name = "" then
          .error (.remote ("invalid peer url '" ++ heardUrl name ++ "'"))
        else .ok (Address.format node.listener.host node.listener.port, Text.trimEnd name)) ∧
    ((∀ (registry : Registry) (now : Nat), ∃ counts,
        registry.hearAll now own payloads = .ok (counts, registry) ∧ counts.sum = 0) ↔
      ∀ name ∈ told, Text.trimEnd name ∈ node.cacheNames) := by
  intro node own payloads told heardUrl
  have legible : node.listener.IsLegible :=
    ((isInOrder_ofConfiguration built).performAll deeds).isLegible running
  refine ⟨fun name hosted small => legible.mem_told_of_small hosted small, ?_, ?_, ?_⟩
  · intro others registry now
    obtain ⟨urls, counts, after, taken, noted, counted, heard⟩ :=
      legible.exists_notes perSend others registry now
    refine ⟨counts, after, taken, counted, fun url => ?_⟩
    rw [noted.mem_live_iff, heard]
  · intro name _
    exact ⟨Listener.urlFor_mem_advertised_iff, PeerUrl.parse_format legible.known⟩
  · constructor
    · intro unchanged name mem
      -- a registry that knows of nothing shows what is discovered
      obtain ⟨urls, counts, after, taken, noted, -, heard⟩ :=
        legible.exists_notes perSend own {} 0
      obtain ⟨_, same, -⟩ := unchanged {} 0
      obtain rfl : after = {} := (Prod.mk.inj (Except.ok.inj (taken.symm.trans same))).2
      have silent : heardUrl name ∉ urls := fun mem_urls =>
        List.not_mem_nil (noted.mem_live_iff.2 (.inr mem_urls))
      rw [heard, not_and] at silent
      exact Listener.urlFor_mem_advertised_iff.1
        (not_not.1 fun foreign => silent foreign ⟨name, mem, rfl⟩)
    · intro hosted registry now
      obtain ⟨urls, counts, after, taken, noted, counted, heard⟩ :=
        legible.exists_notes perSend own registry now
      have nothing (url : String) : url ∉ urls := by
        rw [heard]
        rintro ⟨foreign, name, mem, rfl⟩
        exact foreign (Listener.urlFor_mem_advertised_iff.2 (hosted name mem))
      obtain rfl : after = registry :=
        noted.eq_of_mem_iff (Registry.notes_nil now registry) fun url =>
          iff_of_false (nothing url) List.not_mem_nil
      refine ⟨counts, taken, counted.trans ?_⟩
      rw [List.length_eq_zero_iff, List.filter_eq_nil_iff]
      exact fun url mem => by simpa using mem

/-- A node at a fixed address, which is told of its peers and loads nothing. -/
def fixedAddress : Settings.Configuration where
  tree := .table [("cachemesh", .table [
    ("peer", .table [("discovery", .text "manual")]),
    ("listener", .table [("host", .table [("name", .text "127.0.0.1")])]),
    ("bootstrap", .table [("enabled", .bool false)])])]

/-- The node is started and makes a cache whose name ends in a blank. -/
def blankName : List Deed :=
  [.start .isolated 0,
    .addCache "c " fun _ => { connect _ _ := ⟨0, .ok ()⟩, call _ _ _ := ⟨0, .ok .ok⟩ }]

/-- A node with a cache whose name ends in a blank discovers a url of its own address, under which
it hosts nothing. -/
theorem discovers_blank_name :
    ∃ fresh, (ofConfiguration fixedAddress).value = .ok fresh ∧
      let node := (performAll { state := fresh } blankName).state
      let own := node.listener.advertised
      let payloads := (packGroups 500 own).payloads
      node.isRunning = true ∧ node.cacheNames = ["c "] ∧ own = ["tcp://127.0.0.1:40001/c "] ∧
      (∃ counts after, Registry.hearAll 0 own payloads {} = .ok (counts, after) ∧
        "tcp://127.0.0.1:40001/c" ∈ after.live 0) ∧
      PeerUrl.parse "tcp://127.0.0.1:40001/c" = .ok ("127.0.0.1:40001", "c") ∧
      ¬∀ (registry : Registry) (now : Nat), ∃ counts,
        registry.hearAll now own payloads = .ok (counts, registry) ∧ counts.sum = 0 := by
  refine ⟨_, rfl, ?_⟩
  intro node own payloads
  have running : node.isRunning = true := by decide +kernel
  have names : node.cacheNames = ["c "] := by decide +kernel
  have urls : own = ["tcp://127.0.0.1:40001/c "] := by decide +kernel
  have hosted : "c " ∈ node.cacheNames := by
    rw [names]
    exact List.mem_singleton_self _
  have heardUrl : node.listener.heardUrl "c " = "tcp://127.0.0.1:40001/c" := by decide +kernel
  have foreign : "tcp://127.0.0.1:40001/c" ∉ own := by
    rw [urls]
    decide +kernel
  have small : (payload [node.listener.urlFor "c "]).length ≤ maxPayload := by
    have length : (Text.utf8 (join [node.listener.urlFor "c "])).length = 24 := by decide +kernel
    refine (Codec.length_gzip_le ?_).trans ?_
    · rw [length]
      decide
    · rw [length]
      decide
  obtain ⟨told, heard, -, unchanged⟩ :=
    discovers_nothing_iff fixedAddress { state := _ }
      (rfl : (ofConfiguration fixedAddress).value = _) blankName 500 running
  obtain ⟨counts, after, taken, -, live⟩ := heard own {} 0
  refine ⟨running, names, urls, ⟨counts, after, taken, ?_⟩, by decide +kernel, ?_⟩
  · exact (live _).2 (.inr ⟨foreign, "c ", told "c " hosted small, heardUrl.symm⟩)
  · intro same
    have trimmed := unchanged.1 same "c " (told "c " hosted small)
    rw [show (performAll _ _).state.cacheNames = _ from names] at trimmed
    revert trimmed
    decide +kernel

end Node

end CacheCluster
